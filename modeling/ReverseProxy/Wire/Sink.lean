import ReverseProxy.Text.Bytes

/-!
# What is written

A `Sink` is the writing side of a connection: what has been written, and how much more the
connection takes before it fails.  `Writer` is what the rest of the library needs of a writing side,
so that the connection may as well be one among others in a larger state.
-/

namespace ReverseProxy.Wire

/-- How writing fails. -/
inductive Fault where
  | failed (text : String)
  | timedOut
deriving DecidableEq, Repr

/-- The writing side of a connection. -/
structure Sink where
  /-- What the connection has taken, in the pieces in which it was written, the last one first. -/
  pieces : List Bytes := []
  /-- How many more octets the connection takes; nothing if there is no end. -/
  room : Option Nat := none
  /-- How it fails to take more. -/
  fault : Fault := .timedOut
  /-- How it fails to pass on what it has taken. -/
  flushFault : Option Fault := none
deriving DecidableEq, Repr

namespace Sink

/-- The octets that the connection has taken. -/
def written (s : Sink) : Bytes := s.pieces.reverse.flatten

/-- How many of `n` octets the connection takes. -/
def accepts (s : Sink) (n : Nat) : Nat := match s.room with
  | none => n
  | some room => min n room

/-- The sink after it has taken octets. -/
def append (s : Sink) (bs : Bytes) : Sink :=
  { s with pieces := bs :: s.pieces, room := s.room.map (· - bs.length) }

@[simp] theorem written_append (s : Sink) (bs : Bytes) :
    (s.append bs).written = s.written ++ bs := by
  simp [append, written]

/-- Writes `bs`, or as many octets of it as the connection takes before it fails with `fault`. -/
def writeAll (bs : Bytes) (s : Sink) : Except Fault Unit × Sink :=
  let n := s.accepts bs.length
  (if n < bs.length then .error s.fault else .ok (), s.append (bs.take n))

/-- Passes on what has been taken, unless there is a `flushFault`. -/
def flush (s : Sink) : Except Fault Unit × Sink :=
  (match s.flushFault with | none => .ok () | some f => .error f, s)

end Sink

/-- The writing side of a connection in a state of type `τ`. -/
structure Writer (τ : Type) where
  writeAll : Bytes → τ → Except Fault Unit × τ
  flush : τ → Except Fault Unit × τ

/-- A sink that stands alone. -/
def Sink.writer : Writer Sink := { writeAll := Sink.writeAll, flush := Sink.flush }

end ReverseProxy.Wire
