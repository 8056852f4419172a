import ReverseProxy.Proofs.Wire.Transfer
import ReverseProxy.Wire.Client

/-!
# Nothing is lost from a client

What arrives from a client is read between changes of the mode of the endpoint, and some readings
are given up when the mode is set.  `Client.octets` forgets all of that but the octets.  Whatever is
waited for, the octets that are got and those still to come are together what was to come before,
and what is written to the client has nothing to do with it (`Client.await_eq`).

`Writer.Writes` is the other direction, for a writer of which nothing is known: from one state to
another nothing was done but to write these octets, in some number of pieces, each of which was
taken.
-/

namespace ReverseProxy.Wire

/-! ### Reading from a client -/

/-- The octets of an event. -/
def ClientEvent.bytes : ClientEvent → Bytes
  | .arrival a => a.bytes
  | .signal _ => []

/-- What arrives by an event. -/
def ClientEvent.arrivals : ClientEvent → Source
  | .arrival a => [a]
  | .signal _ => []

/-- The octets that a wait got. -/
def Awaited.bytes : Awaited → Bytes
  | .received got => got.bytes
  | .notified | .abandoned => []

namespace Client

/-- All octets that arrive. -/
def octets (c : Client) : Bytes := c.incoming.flatMap ClientEvent.bytes

/-- The arrivals of a client, without the signals in between. -/
def arrivals (c : Client) : Source := c.incoming.flatMap ClientEvent.arrivals

theorem octets_arrivals (c : Client) : c.arrivals.octets = c.octets := by
  rw [Source.octets, arrivals, octets, List.flatMap_assoc]
  congr 1
  funext e
  cases e with
  | arrival a => exact List.append_nil _
  | signal s => rfl

/-- A client is read as its `arrivals` are. -/
theorem receive_arrivals {room : Nat} {c c' : Client} {got : Received}
    (h : c.receive room = (got, c')) :
    c.arrivals.receive room = (got, c'.arrivals) := by
  obtain ⟨events, outgoing, w⟩ := c
  induction events generalizing w with
  | nil => cases h; rfl
  | cons e events ih =>
    cases e with
    | signal s => exact ih _ h
    | arrival a =>
      have harrivals : arrivals ⟨.arrival a :: events, outgoing, w⟩ =
        a :: events.flatMap ClientEvent.arrivals := rfl
      rw [harrivals, Source.receive]
      rcases htake : a.take room with ⟨r, _ | left⟩ <;>
        simp only [receive, receiveFrom, htake] at h <;> cases h <;> rfl

/-- A reading gets the first of the `octets` to come, at most `room` of them, and leaves what is
`outgoing`. -/
theorem receive_eq {room : Nat} {c c' : Client} {got : Received} (h : c.receive room = (got, c')) :
    got.bytes ++ c'.octets = c.octets ∧ got.bytes.length ≤ room ∧ c'.outgoing = c.outgoing := by
  have hreceive := receive_arrivals h
  have hoctets := Source.bytes_append_octets_receive hreceive
  rw [octets_arrivals, octets_arrivals] at hoctets
  refine ⟨hoctets, Source.length_bytes_receive_le hreceive, ?_⟩
  cases h
  rfl

/-- The client sends nothing but octets until a reading comes to `last`. -/
def Until (last : Received) (c : Client) : Prop := c.arrivals.Until last

theorem Until.receive {last got : Received} {room : Nat} {c c' : Client}
    (hc : c.Until last) (hroom : 0 < room) (h : c.receive room = (got, c')) :
    (∃ b bs, got = .octets (b :: bs)) ∧ c'.Until last ∨ got = last ∧ c.octets = [] := by
  rw [← octets_arrivals]
  exact Source.Until.receive hc hroom (receive_arrivals h)

/-- A wait gets the first of the `octets` to come, if any, and leaves what is `outgoing`. -/
theorem await_eq {room : Nat} {c c' : Client} {a : Awaited} (h : c.await room = (a, c')) :
    a.bytes ++ c'.octets = c.octets ∧ a.bytes.length ≤ room ∧ c'.outgoing = c.outgoing := by
  unfold await at h
  split at h
  · cases h
    exact ⟨rfl, Nat.zero_le _, rfl⟩
  split at h
  · cases h
    exact ⟨rfl, Nat.zero_le _, rfl⟩
  split at h
  · rename_i rest he
    cases h
    exact ⟨by rw [octets, octets, he]; rfl, Nat.zero_le _, rfl⟩
  · rename_i s rest _ he
    cases h
    exact ⟨by rw [octets, octets, he]; rfl, Nat.zero_le _, rfl⟩
  · rcases hr : c.receive room with ⟨got, c₁⟩
    rw [hr] at h
    cases h
    exact receive_eq hr

end Client

namespace Buffer

/-- A write adds all of `bs` if there is room for it after `makeRoom`. -/
theorem data_write_makeRoom {b : Buffer} {bs : Bytes} (h : bs.length ≤ b.makeRoom.room) :
    (b.makeRoom.write bs).data = b.data ++ bs := by
  rw [data_write, data_makeRoom, makeRoom_makeRoom, List.take_of_length_le h]

/-- A reading from a client appends what it gets to the `data` of the buffer, and keeps its
capacity. -/
theorem data_receiveClient {b b' : Buffer} {c c' : Client} {got : Received}
    (h : b.receiveClient c = (got, c', b')) :
    c.receive b.makeRoom.room = (got, c') ∧ b'.data = b.data ++ got.bytes ∧
    b'.capacity = b.capacity := by
  unfold receiveClient at h
  rcases hr : c.receive b.makeRoom.room with ⟨bs | _ | _, c₁⟩ <;> simp only [hr] at h <;> cases h
  · have hle : bs.length ≤ b.makeRoom.room := (Client.receive_eq hr).2.1
    exact ⟨rfl, data_write_makeRoom hle, by rw [capacity_write, capacity_makeRoom]⟩
  · exact ⟨rfl, by rw [data_makeRoom, Received.bytes, List.append_nil], capacity_makeRoom b⟩
  · exact ⟨rfl, by rw [data_makeRoom, Received.bytes, List.append_nil], capacity_makeRoom b⟩

/-- A reading from a client only moves octets from those to come into the buffer. -/
theorem receiveClient_eq {b b' : Buffer} {c c' : Client} {got : Received}
    (h : b.receiveClient c = (got, c', b')) :
    b'.data ++ c'.octets = b.data ++ c.octets ∧ c'.outgoing = c.outgoing := by
  obtain ⟨hr, hdata, -⟩ := data_receiveClient h
  obtain ⟨hoctets, -, houtgoing⟩ := Client.receive_eq hr
  exact ⟨by rw [hdata, List.append_assoc, hoctets], houtgoing⟩

/-- As long as the client is `Until last`, a reading into a buffer that is not full gets octets, or
comes to `last` when none are left. -/
theorem receiveClient_until {last got : Received} {b b' : Buffer} {c c' : Client}
    (hc : c.Until last) (hb : ¬b.isFull = true) (h : b.receiveClient c = (got, c', b')) :
    (∃ x xs, got = .octets (x :: xs)) ∧ c'.Until last ∨ got = last ∧ c.octets = [] :=
  hc.receive (room_makeRoom_pos hb) (data_receiveClient h).1

end Buffer

/-! ### Writing -/

/-- From one state to another the octets were written by `writeAll`, in some number of pieces, and
nothing else was done. -/
inductive Writer.Writes {τ : Type} (w : Writer τ) : τ → Bytes → τ → Prop
  | nil (s : τ) : Writes w s [] s
  | cons {s s₁ s₂ : τ} {piece rest : Bytes} :
      w.writeAll piece s = (.ok (), s₁) → Writes w s₁ rest s₂ →
      Writes w s (piece ++ rest) s₂

namespace Writer.Writes

variable {τ : Type} {w : Writer τ} {s s₁ s₂ : τ} {a b : Bytes}

theorem piece (h : w.writeAll a s = (.ok (), s₁)) : w.Writes s a s₁ := by
  rw [← List.append_nil a]
  exact .cons h (.nil _)

theorem trans (h₁ : w.Writes s a s₁) (h₂ : w.Writes s₁ b s₂) : w.Writes s (a ++ b) s₂ := by
  induction h₁ with
  | nil => exact h₂
  | cons hpiece _ ih =>
    rw [List.append_assoc]
    exact .cons hpiece (ih h₂)

end Writer.Writes

namespace Sink

/-- To write `a` in pieces, and then `b`, is to write `a ++ b` at once. -/
theorem writeAll_of_writes {s s' : Sink} {a : Bytes} (h : writer.Writes s a s') (b : Bytes) :
    (s.writeAll (a ++ b)).1 = (s'.writeAll b).1 ∧
    (s.writeAll (a ++ b)).2.written = (s'.writeAll b).2.written := by
  induction h with
  | nil => exact ⟨rfl, rfl⟩
  | cons hpiece _ ih =>
    rename_i s s₁ s₂ piece rest hrest
    obtain ⟨hanswer, hwritten⟩ := writeAll_append hpiece (rest ++ b)
    rw [List.append_assoc]
    exact ⟨hanswer.trans ih.1, hwritten.trans ih.2⟩

theorem writeAll_eq_of_writes {s s' : Sink} {a : Bytes} (h : writer.Writes s a s') :
    (s.writeAll a).1 = .ok () ∧ (s.writeAll a).2.written = s'.written := by
  obtain ⟨hanswer, hwritten⟩ := writeAll_of_writes h []
  rw [List.append_nil] at hanswer hwritten
  exact ⟨hanswer, by rw [hwritten, writeAll, written_append, List.take_nil, List.append_nil]⟩

/-- What is written in pieces is appended to what was `written` before. -/
theorem written_of_writes {s s' : Sink} {a : Bytes} (h : writer.Writes s a s') :
    s'.written = s.written ++ a := by
  induction h with
  | nil => rw [List.append_nil]
  | cons hpiece _ ih =>
    obtain ⟨part, -, hwritten, hall⟩ := written_writeAll hpiece
    rw [ih, hwritten, hall rfl, List.append_assoc]

end Sink

end ReverseProxy.Wire
