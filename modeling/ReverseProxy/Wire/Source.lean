import ReverseProxy.Wire.Buffer

/-!
# What arrives

The octets that a peer sends come in pieces, and the connection may fail or fall silent.  A `Source`
is what arrives from now on, in order; when nothing is left the peer has closed the connection.

One reading takes octets of one piece only, as many as there is room for, and leaves the rest.
-/

namespace ReverseProxy.Wire

/-- A thing that arrives on a connection. -/
inductive Arrival where
  /-- Octets that arrive in one piece; none means that the peer seems to have closed the
  connection. -/
  | octets (bs : Bytes)
  /-- Nothing arrives any more while the connection stays open. -/
  | silence
  /-- The connection reports a failure, once. -/
  | failure (text : String)
deriving DecidableEq, Repr

/-- The outcome of one reading. -/
inductive Received where
  /-- Octets; none at the end of the connection. -/
  | octets (bs : Bytes)
  | failed (text : String)
  | timedOut
deriving DecidableEq, Repr

/-- How many octets a reading got. -/
def Received.size : Received → Nat
  | .octets bs => bs.length
  | .failed _ | .timedOut => 0

namespace Arrival

/-- What one reading into `room` octets gets from an arrival, and what it leaves of it. -/
def take (room : Nat) : Arrival → Received × Option Arrival
  | .octets bs => (.octets (bs.take room), match bs.drop room with
      | [] => none
      | left => some (.octets left))
  | .silence => (.timedOut, some .silence)
  | .failure text => (.failed text, none)

/-- A measure of how much is still to be read. -/
def weight : Arrival → Nat
  | .octets bs => bs.length + 1
  | .silence | .failure _ => 1

theorem weight_pos (a : Arrival) : 0 < a.weight := by cases a <;> simp [weight]

/-- A reading leaves no more than what it does not get. -/
theorem weight_take_le (room : Nat) (a : Arrival) :
    ((a.take room).2.map weight).getD 0 + (a.take room).1.size ≤ a.weight := by
  cases a with
  | octets bs =>
    simp only [take, weight, Received.size, List.length_take]
    split
    · simp only [Option.map_none, Option.getD_none]; omega
    · simp only [Option.map_some, Option.getD_some, weight, List.length_drop]; omega
  | silence | failure => simp [take, weight, Received.size]

end Arrival

/-- What arrives on a connection, in order, before its end. The empty source is a connection that
has ended. -/
abbrev Source := List Arrival

namespace Source

/-- One reading into `room` octets. -/
def receive (room : Nat) : Source → Received × Source
  | [] => (.octets [], [])
  | a :: rest =>
      match a.take room with
      | (r, none) => (r, rest)
      | (r, some left) => (r, left :: rest)

/-- A measure of how much is still to be read. -/
def weight : Source → Nat
  | [] => 0
  | a :: rest => a.weight + weight rest

/-- The octets that arrive before anything else does. -/
def pending : Source → Bytes
  | .octets bs :: rest => bs ++ pending rest
  | _ => []

/-- A reading that gets octets leaves less to be read. -/
theorem weight_receive_lt {room : Nat} {s rest : Source} {b : UInt8} {bs : Bytes}
    (h : s.receive room = (.octets (b :: bs), rest)) : rest.weight < s.weight := by
  unfold receive at h
  split at h
  · simp at h
  · rename_i a tail
    cases a with
    | octets xs =>
      simp only [Arrival.take] at h
      cases hx : xs.drop room with
      | nil =>
        simp only [hx, Prod.mk.injEq, Received.octets.injEq] at h
        obtain ⟨_, rfl⟩ := h
        simp [weight, Arrival.weight]
      | cons y ys =>
        simp only [hx, Prod.mk.injEq, Received.octets.injEq] at h
        obtain ⟨ht, rfl⟩ := h
        have hl := congrArg List.length hx
        have hr : room ≠ 0 := by
          rintro rfl
          simp at ht
        simp only [List.length_drop, List.length_cons] at hl
        simp only [weight, Arrival.weight, List.length_cons]
        omega
    | silence => simp [Arrival.take] at h
    | failure t => simp [Arrival.take] at h

end Source

/-- One reading from `s` into the free space of `b`. -/
def Buffer.receive (b : Buffer) (s : Source) : Received × Source × Buffer :=
  let b := b.makeRoom
  match s.receive b.room with
  | (.octets bs, rest) => (.octets bs, rest, b.write bs)
  | (r, rest) => (r, rest, b)

theorem Buffer.weight_receive_lt {b b' : Buffer} {s rest : Source} {x : UInt8} {xs : Bytes}
    (h : b.receive s = (.octets (x :: xs), rest, b')) : rest.weight < s.weight := by
  unfold Buffer.receive at h
  cases hr : s.receive b.makeRoom.room with
  | mk r rest' =>
    cases r with
    | octets bs =>
      simp only [hr, Prod.mk.injEq, Received.octets.injEq] at h
      obtain ⟨rfl, rfl, _⟩ := h
      exact Source.weight_receive_lt hr
    | failed t => simp [hr] at h
    | timedOut => simp [hr] at h

end ReverseProxy.Wire
