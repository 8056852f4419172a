import ReverseProxy.Operation.Mode
import ReverseProxy.Wire.Sink
import ReverseProxy.Wire.Source

/-!
# The connection to a client

A client connection is read and written, and all the while the mode of the endpoint may change.  The
changes stand among the arrivals, at the time of the reading that would otherwise wait for the next
arrival.
-/

namespace ReverseProxy.Wire

open Operation

/-- What happens on the reading side of a client connection. -/
inductive ClientEvent where
  | arrival (a : Arrival)
  | signal (s : Signal)
deriving DecidableEq, Repr

/-- A client connection. -/
structure Client where
  /-- What happens from now on, before the client closes the connection. -/
  incoming : List ClientEvent := []
  outgoing : Sink := {}
  /-- What is known about the mode of the endpoint. -/
  watch : Watch := {}
deriving DecidableEq, Repr

/-- The outcome of waiting for an arrival or for a change of mode. -/
inductive Awaited where
  | received (r : Received)
  /-- The mode was set. -/
  | notified
  /-- Nobody is left to set the mode. -/
  | abandoned
deriving DecidableEq, Repr

/-- How many octets a wait got. -/
def Awaited.size : Awaited → Nat
  | .received r => r.size
  | .notified | .abandoned => 0

namespace ClientEvent

/-- A measure of how much is still to be read. -/
def weight : ClientEvent → Nat
  | .arrival a => a.weight
  | .signal _ => 1

/-- A measure of how much is still to be read of several events. -/
def weights : List ClientEvent → Nat
  | [] => 0
  | e :: rest => e.weight + weights rest

end ClientEvent

namespace Client

/-- A measure of how much is still to happen. -/
def weight (c : Client) : Nat := ClientEvent.weights c.incoming

/-- The octets that arrive before anything else happens. -/
def pending (c : Client) : Bytes :=
  Source.pending (c.incoming.map fun | .arrival a => a | .signal _ => .silence)

/-- One reading of the arrivals into `room` octets; what is heard about the mode on the way is kept
in mind. -/
def receiveFrom (room : Nat) : List ClientEvent → Watch → Received × List ClientEvent × Watch
  | [], w => (.octets [], [], w)
  | .signal s :: rest, w => receiveFrom room rest (w.hear s)
  | .arrival a :: rest, w =>
      match a.take room with
      | (r, none) => (r, rest, w)
      | (r, some left) => (r, .arrival left :: rest, w)

/-- One reading into `room` octets. -/
def receive (room : Nat) (c : Client) : Received × Client :=
  let (r, incoming, watch) := receiveFrom room c.incoming c.watch
  (r, { c with incoming, watch })

/-- One reading into `room` octets that is given up when the mode is set. -/
def await (room : Nat) (c : Client) : Awaited × Client :=
  if c.watch.changed then (.notified, { c with watch := { c.watch with changed := false } })
  else if !c.watch.live then (.abandoned, c)
  else
    match c.incoming with
    | .signal .gone :: rest =>
        (.abandoned, { c with incoming := rest, watch := c.watch.hear .gone })
    | .signal s :: rest =>
        (.notified, { c with incoming := rest, watch := { c.watch.hear s with changed := false } })
    | _ => let (r, c) := c.receive room; (.received r, c)

theorem weight_receiveFrom_lt {room : Nat} {events rest : List ClientEvent}
    {w w' : Watch} {b : UInt8} {bs : Bytes}
    (h : receiveFrom room events w = (.octets (b :: bs), rest, w')) :
    ClientEvent.weights rest < ClientEvent.weights events := by
  induction events generalizing w with
  | nil => simp [receiveFrom] at h
  | cons e events ih =>
    cases e with
    | signal s =>
      simp only [receiveFrom] at h
      have := ih h
      simp only [ClientEvent.weights]
      omega
    | arrival a =>
      have key := @Source.weight_receive_lt room [a]
        (match a.take room with | (_, none) => [] | (_, some l) => [l])
        b bs
      cases ht : a.take room with
      | mk r l =>
        simp only [receiveFrom, ht] at h
        simp only [Source.receive, ht] at key
        cases l with
        | none =>
          simp only [Prod.mk.injEq] at h
          obtain ⟨rfl, rfl, _⟩ := h
          have := a.weight_pos
          simp only [ClientEvent.weights, ClientEvent.weight]
          omega
        | some left =>
          simp only [Prod.mk.injEq] at h
          obtain ⟨rfl, rfl, _⟩ := h
          have := key rfl
          simp only [Source.weight] at this
          simp only [ClientEvent.weights, ClientEvent.weight]
          omega

theorem weight_receiveFrom_le (room : Nat) (events : List ClientEvent) (w : Watch) :
    ClientEvent.weights (receiveFrom room events w).2.1 + (receiveFrom room events w).1.size ≤
      ClientEvent.weights events := by
  induction events generalizing w with
  | nil => simp [receiveFrom, Received.size]
  | cons e events ih =>
    cases e with
    | signal s =>
      simp only [receiveFrom, ClientEvent.weights]
      exact Nat.le_trans (ih (w.hear s)) (Nat.le_add_left _ _)
    | arrival a =>
      have := a.weight_take_le room
      simp only [receiveFrom, ClientEvent.weights, ClientEvent.weight]
      split <;> rename_i ht <;> rw [ht] at this <;>
        simp only [Option.map_none, Option.map_some, Option.getD_none, Option.getD_some,
          ClientEvent.weights, ClientEvent.weight] at this ⊢ <;> omega

/-- A reading leaves no more to happen than what it does not get. -/
theorem weight_receive_le (room : Nat) (c : Client) :
    (c.receive room).2.weight + (c.receive room).1.size ≤ c.weight :=
  weight_receiveFrom_le room c.incoming c.watch

theorem weight_await_le (room : Nat) (c : Client) :
    (c.await room).2.weight + (c.await room).1.size ≤ c.weight := by
  unfold await
  split
  · simp [weight, Awaited.size]
  split
  · simp [Awaited.size]
  split
  · rename_i rest he
    simp [weight, Awaited.size, he, ClientEvent.weights, ClientEvent.weight]
  · rename_i s rest _ he
    simp [weight, Awaited.size, he, ClientEvent.weights, ClientEvent.weight]
  · exact c.weight_receive_le room

/-- A reading that gets octets leaves less to happen. -/
theorem weight_receive_lt {room : Nat} {c c' : Client} {b : UInt8} {bs : Bytes}
    (h : c.receive room = (.octets (b :: bs), c')) : c'.weight < c.weight := by
  unfold receive at h
  simp only [Prod.mk.injEq] at h
  obtain ⟨hr, rfl⟩ := h
  exact weight_receiveFrom_lt (Prod.ext hr rfl)

/-- A wait that ends with octets or with a notice leaves less to happen, or less to be noticed. -/
theorem await_decreases {room : Nat} {c c' : Client} {a : Awaited} (h : c.await room = (a, c'))
    (ha : a = .notified ∨ ∃ b bs, a = .received (.octets (b :: bs))) :
    c'.weight < c.weight ∨ c'.weight = c.weight ∧
    c'.watch.changed.toNat < c.watch.changed.toNat := by
  unfold await at h
  split at h
  · rename_i hc
    simp only [Prod.mk.injEq] at h
    obtain ⟨_, rfl⟩ := h
    exact .inr ⟨rfl, by simp [hc]⟩
  split at h
  · simp only [Prod.mk.injEq] at h
    obtain ⟨rfl, _⟩ := h
    simp at ha
  split at h
  · simp only [Prod.mk.injEq] at h
    obtain ⟨rfl, _⟩ := h
    simp at ha
  · rename_i s rest _ he
    simp only [Prod.mk.injEq] at h
    obtain ⟨_, rfl⟩ := h
    exact .inl (by simp [weight, he, ClientEvent.weights, ClientEvent.weight])
  · cases hr : c.receive room with
    | mk x c'' =>
      simp only [hr, Prod.mk.injEq] at h
      obtain ⟨rfl, rfl⟩ := h
      rcases ha with ha | ⟨b, bs, ha⟩
      · simp at ha
      · simp only [Awaited.received.injEq] at ha
        subst ha
        exact .inl (weight_receive_lt hr)

end Client

/-- One reading from `c` into the free space of `b`. -/
def Buffer.receiveClient (b : Buffer) (c : Client) : Received × Client × Buffer :=
  let b := b.makeRoom
  match c.receive b.room with
  | (.octets bs, c) => (.octets bs, c, b.write bs)
  | (r, c) => (r, c, b)

theorem Buffer.weight_receiveClient_lt {b b' : Buffer} {c c' : Client} {x : UInt8} {xs : Bytes}
    (h : b.receiveClient c = (.octets (x :: xs), c', b')) : c'.weight < c.weight := by
  unfold Buffer.receiveClient at h
  cases hr : c.receive b.makeRoom.room with
  | mk r c'' =>
    cases r with
    | octets bs =>
      simp only [hr, Prod.mk.injEq, Received.octets.injEq] at h
      obtain ⟨rfl, rfl, _⟩ := h
      exact Client.weight_receive_lt hr
    | failed t => simp [hr] at h
    | timedOut => simp [hr] at h

/-- Octets that are received move from what is to happen to `c` into the buffer. -/
theorem Buffer.weight_receiveClient_le (b : Buffer) (c : Client) :
    (b.receiveClient c).2.1.weight + (b.receiveClient c).2.2.size ≤ c.weight + b.size := by
  have h := c.weight_receive_le b.makeRoom.room
  unfold Buffer.receiveClient
  simp only
  split <;> rename_i hr <;> rw [hr] at h <;> simp only [Received.size] at h ⊢
  · have := b.makeRoom.size_write_le (by assumption)
    rw [Buffer.size_makeRoom] at this
    omega
  · rw [Buffer.size_makeRoom]
    omega

end ReverseProxy.Wire
