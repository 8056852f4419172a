import ReverseProxy.Message.Chunks

/-!
# Where a body ends

How the body of a request or a response is delimited, and `BodyTracker`, which finds its end in the
octets that follow the head, in whatever pieces they come.
-/

namespace ReverseProxy.Message

/-- How the body of a request is delimited. -/
inductive RequestBody where
  | none
  | length (n : Nat)
  | chunked
deriving DecidableEq, Repr

/-- How the body of a response is delimited. -/
inductive Framing where
  /-- There is no body: a response to `HEAD`, or one with status 204 or 304. -/
  | empty
  | contentLength (n : Nat)
  | chunked
  /-- The body goes on until the backend closes the connection.  This is also how a change of
  protocol is relayed. -/
  | untilClose
deriving DecidableEq, Repr

/-- The end of the response can be told without the connection being closed. -/
def Framing.isDelimited : Framing → Bool
  | .untilClose => false
  | _ => true

theorem Framing.isDelimited_eq_false_iff {framing : Framing} :
    framing.isDelimited = false ↔ framing = .untilClose := by
  cases framing <;> simp [isDelimited]

/-- A reader of one body. -/
inductive BodyTracker where
  /-- The number of octets that are still to come. -/
  | remaining (n : Nat)
  | chunked (t : ChunkTracker)
  /-- The body ends only with the connection. -/
  | unbounded
  /-- There is no body. -/
  | empty
deriving DecidableEq, Repr

namespace BodyTracker

/-- The reader of the body of a response. -/
def ofFraming : Framing → BodyTracker
  | .empty => .empty
  | .contentLength n => .remaining n
  | .chunked => .chunked {}
  | .untilClose => .unbounded

/-- The reader of the body of a request, if there is one. -/
def ofRequestBody? : RequestBody → Option BodyTracker
  | .none => none
  | .length n => some (.remaining n)
  | .chunked => some (.chunked {})

/-- Reads the next octets after the head.  The answer is `some n` if the body ends after `n` of
them, and `none` if all of them belong to it and it goes on. -/
def advance (t : BodyTracker) (bs : Bytes) : Except Defect (Option Nat) × BodyTracker :=
  match t with
  | .empty => (.ok (some 0), .empty)
  | .remaining n =>
      if n ≤ bs.length then (.ok (some n), .remaining 0) else (.ok none, .remaining (n - bs.length))
  | .chunked c => ((c.observe bs).1, .chunked (c.observe bs).2)
  | .unbounded => (.ok none, .unbounded)

end BodyTracker

end ReverseProxy.Message
