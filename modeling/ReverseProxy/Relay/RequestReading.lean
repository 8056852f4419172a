import ReverseProxy.Message.RequestHead
import ReverseProxy.Relay.Failure
import ReverseProxy.Wire.Client

/-!
# Reading the head of a request

A head is read from the client until it is complete or fills the buffer.  Between two requests the
client may leave, by closing the connection or by falling silent, and so may the endpoint, by
stopping; in the middle of a head neither goes unnoticed.
-/

namespace ReverseProxy.Relay

open Message Wire

/-- A client connection from which requests are read, and what has arrived of the next. -/
structure RequestReading where
  client : Client
  buffer : Buffer
deriving DecidableEq, Repr

namespace RequestReading

/-- Reads on until the mode of the endpoint is set, if `idle`, or something arrives. -/
def wait (idle : Bool) (r : RequestReading) : Awaited × RequestReading :=
  let buffer := r.buffer.makeRoom
  let (a, client) : Awaited × Client :=
    if idle then r.client.await buffer.room
    else let (x, client) := r.client.receive buffer.room; (.received x, client)
  match a with
  | .received (.octets bs) => (a, { client, buffer := buffer.write bs })
  | _ => (a, { client, buffer })

/-- The head in the buffer, or `none` if it is not complete. -/
def buffered? (r : RequestReading) : Except ExchangeFailure (Option RequestHead) :=
  if r.buffer.isEmpty then .ok none
  else match RequestHead.parse r.buffer.data with
    | .error e => .error (.defect e)
    | .ok (some head) => .ok (some head)
    | .ok none =>
      if r.buffer.isFull then .error (.defect (.headTooLarge r.buffer.capacity)) else .ok none

/-- What a reading that got no octets means. If `idle`, between two requests, the connection has
ended or nothing came in time; in the middle of a head both are failures, and so is a connection
that fails at any time. -/
def ending (idle : Bool) (x : Received) : Except ExchangeFailure (Option RequestHead) :=
  match idle, x with
  | true, .octets _ => .ok none
  | true, .timedOut => .ok none
  | _, x => .error (failureOfReceived .client x)

/-- Each `wait` is an `await` or a `receive` on the client, into the room there is, and what it gets
goes into the buffer. -/
theorem wait_cases {idle : Bool} {r r' : RequestReading} {a : Awaited} (h : r.wait idle = (a, r')) :
    (idle = true ∧ r.client.await r.buffer.makeRoom.room = (a, r'.client) ∨
      idle = false ∧ ∃ got, a = .received got ∧
      r.client.receive r.buffer.makeRoom.room = (got, r'.client)) ∧
    ((∃ bs, a = .received (.octets bs) ∧ r'.buffer = r.buffer.makeRoom.write bs) ∨
      (∀ bs, a ≠ .received (.octets bs)) ∧ r'.buffer = r.buffer.makeRoom) := by
  have hbuffer : ∀ (a' : Awaited) (c' : Client), (match a' with
      | .received (.octets bs) =>
          (a', ({ client := c', buffer := r.buffer.makeRoom.write bs } : RequestReading))
      | _ => (a', { client := c', buffer := r.buffer.makeRoom })) = (a, r') →
      a' = a ∧ c' = r'.client ∧
        ((∃ bs, a = .received (.octets bs) ∧ r'.buffer = r.buffer.makeRoom.write bs) ∨
        (∀ bs, a ≠ .received (.octets bs)) ∧ r'.buffer = r.buffer.makeRoom) := by
    intro a' c' h
    split at h <;> cases h
    · exact ⟨rfl, rfl, .inl ⟨_, rfl, rfl⟩⟩
    · exact ⟨rfl, rfl, .inr ⟨‹_›, rfl⟩⟩
  cases idle with
  | true =>
    obtain ⟨ha, hc, hwritten⟩ := hbuffer _ _ h
    exact ⟨.inl ⟨rfl, Prod.ext ha hc⟩, hwritten⟩
  | false =>
    obtain ⟨ha, hc, hwritten⟩ := hbuffer _ _ h
    exact ⟨.inr ⟨rfl, _, ha.symm, Prod.ext rfl hc⟩, hwritten⟩

theorem wait_decreases {idle : Bool} {r r' : RequestReading} {a : Awaited}
    (h : r.wait idle = (a, r')) (ha : a = .notified ∨ ∃ b bs, a = .received (.octets (b :: bs))) :
    r'.client.weight < r.client.weight ∨
      r'.client.weight = r.client.weight ∧
      r'.client.watch.changed.toNat < r.client.watch.changed.toNat := by
  obtain ⟨⟨-, hawait⟩ | ⟨-, got, rfl, hreceive⟩, -⟩ := wait_cases h
  · exact Client.await_decreases hawait ha
  · obtain ha | ⟨b, bs, ha⟩ := ha <;> cases ha
    exact .inl (Client.weight_receive_lt hreceive)

theorem measure_lt {weight weight' : Nat} {changed changed' : Bool}
    (h : weight' < weight ∨ weight' = weight ∧ changed'.toNat < changed.toNat) :
    2 * weight' + changed'.toNat < 2 * weight + changed.toNat := by
  have := changed'.toNat_le
  omega

/-- Reads the head of the next request. The answer is `none` if the connection has ended between two
requests. -/
def next (r : RequestReading) : Except ExchangeFailure (Option RequestHead) × RequestReading :=
  let start : RequestReading := { r with buffer := r.buffer.shift }
  match start.buffered? with
  | .error e => (.error e, start)
  | .ok (some head) => (.ok (some head), start)
  | .ok none =>
      if start.buffer.isEmpty && start.client.watch.mode == .stopped then (.ok none, start)
      else
        match _h : start.wait start.buffer.isEmpty with
        | (.received (.octets (_ :: _)), r') => next r'
        | (.notified, r') => next r'
        | (.abandoned, r') => (.ok none, r')
        | (.received x, r') => (ending start.buffer.isEmpty x, r')
termination_by 2 * r.client.weight + r.client.watch.changed.toNat
decreasing_by
  · have h := wait_decreases _h (.inr ⟨_, _, rfl⟩)
    exact measure_lt h
  · have h := wait_decreases _h (.inl rfl)
    exact measure_lt h

/-! ### What is left to read -/

/-- A measure of what has not been used: what is in `buffer` and what is still to happen to
`client`. -/
def remaining (r : RequestReading) : Nat := r.client.weight + r.buffer.size

theorem remaining_wait_le (idle : Bool) (r : RequestReading) :
    (r.wait idle).2.remaining ≤ r.remaining := by
  rcases h : r.wait idle with ⟨a, r'⟩
  obtain ⟨hgot, hbuffer⟩ := wait_cases h
  have hclient : r'.client.weight + a.size ≤ r.client.weight := by
    obtain ⟨-, hawait⟩ | ⟨-, got, rfl, hreceive⟩ := hgot
    · have := r.client.weight_await_le r.buffer.makeRoom.room
      rwa [hawait] at this
    · have := r.client.weight_receive_le r.buffer.makeRoom.room
      rwa [hreceive] at this
  show r'.client.weight + r'.buffer.size ≤ r.client.weight + r.buffer.size
  obtain ⟨bs, rfl, hwritten⟩ | ⟨-, hwritten⟩ := hbuffer
  · have := r.buffer.makeRoom.size_write_le bs
    rw [Buffer.size_makeRoom] at this
    simp only [Awaited.size, Received.size] at hclient
    rw [hwritten]
    omega
  · rw [hwritten, Buffer.size_makeRoom]
    omega

/-- Reading a head uses nothing up: it stays in `buffer`. -/
theorem remaining_next_le (r : RequestReading) : r.next.2.remaining ≤ r.remaining := by
  have hs : ∀ x : RequestReading, ({ x with buffer := x.buffer.shift } : RequestReading).remaining =
      x.remaining :=
    fun x => by simp [remaining]
  fun_induction next r with
  | case1 | case2 | case3 => exact Nat.le_of_eq (hs _)
  | case4 r start _ _ _ _ r' h ih | case5 r start _ _ r' h ih =>
    have := remaining_wait_le start.buffer.isEmpty start
    rw [h] at this
    exact Nat.le_trans ih (Nat.le_trans this (Nat.le_of_eq (hs r)))
  | case6 r start _ _ r' h | case7 r start _ _ x r' _ h =>
    have := remaining_wait_le start.buffer.isEmpty start
    rw [h] at this
    exact Nat.le_trans this (Nat.le_of_eq (hs r))

theorem buffered?_eq_some {r : RequestReading} {head : RequestHead}
    (h : r.buffered? = .ok (some head)) :
    0 < head.length ∧ head.length ≤ r.buffer.data.length := by
  unfold buffered? at h
  split at h
  · cases h
  · split at h
    · cases h
    · rename_i hp
      cases h
      exact RequestHead.length_of_parse hp
    · split at h <;> cases h

/-- A head that `next` answers stands in the buffer, and is not empty. -/
theorem next_eq_some {r r' : RequestReading} {head : RequestHead}
    (h : r.next = (.ok (some head), r')) :
    0 < head.length ∧ head.length ≤ r'.buffer.data.length := by
  fun_induction next r with
  | case1 => cases h
  | case2 r start head' hb =>
    obtain ⟨he, rfl⟩ := Prod.mk.inj h
    cases he
    exact buffered?_eq_some hb
  | case3 => cases h
  | case4 r start _ _ _ _ r'' hw ih | case5 r start _ _ r'' hw ih => exact ih h
  | case6 => cases h
  | case7 r start _ _ x r'' hw =>
    simp only [Prod.mk.injEq] at h
    unfold ending at h
    split at h <;> simp at h

end RequestReading

end ReverseProxy.Relay
