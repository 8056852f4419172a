import ReverseProxy.Text.Bytes
import ReverseProxy.Message.Defect

/-!
# The end of a chunked body

A body sent in chunks is relayed as it is; all that has to be found is where it ends.
`ChunkTracker` reads the framing one octet at a time (`ChunkTracker.step`) and passes over the data
of a chunk in one go (`ChunkTracker.observe`).  An octet that does not fit leaves the tracker as it
was before that octet.

Lines end with a line feed or with a carriage return and a line feed.  A size has at most sixteen
hexadecimal digits, so that it fits a 64-bit word whatever the digits are.
-/

namespace ReverseProxy.Message

/-- Where in the framing of a chunked body the next octet stands. -/
inductive ChunkPhase where
  /-- Among the digits of a chunk size. -/
  | size
  /-- After the size, in what is ignored up to the end of the line. -/
  | extension
  /-- After the carriage return of a size line. -/
  | sizeLf
  /-- In the data of a chunk, of which `remaining` octets are still to come. -/
  | data (remaining : Nat)
  /-- After the data of a chunk. -/
  | dataEnd
  /-- After the carriage return that follows the data of a chunk. -/
  | dataLf
  /-- At the beginning of a trailer line, or of the empty line that ends the body. -/
  | trailerStart
  /-- Inside a trailer line. -/
  | trailer
  /-- After a carriage return inside a trailer line. -/
  | trailerLf
  /-- After the carriage return of the empty line that ends the body. -/
  | endLf
  /-- After the body. -/
  | done
deriving DecidableEq, Repr

/-- A reader of the framing of one chunked body: its place, and the size and number of digits read
so far of the size line it is in. -/
structure ChunkTracker where
  phase : ChunkPhase := .size
  size : Nat := 0
  digits : Nat := 0
deriving DecidableEq, Repr

namespace ChunkTracker

/-- The most digits that a chunk size may have. -/
def maxDigits : Nat := 16

/-- The body has ended. -/
def isDone (t : ChunkTracker) : Bool := t.phase == .done

/-- The tracker in another `phase`. -/
def moveTo (t : ChunkTracker) (phase : ChunkPhase) : ChunkTracker := { t with phase }

@[simp] theorem phase_moveTo (t : ChunkTracker) (p : ChunkPhase) : (t.moveTo p).phase = p := rfl
@[simp] theorem size_moveTo (t : ChunkTracker) (p : ChunkPhase) : (t.moveTo p).size = t.size := rfl
@[simp] theorem digits_moveTo (t : ChunkTracker) (p : ChunkPhase) :
    (t.moveTo p).digits = t.digits := rfl

/-- The end of a size line: the data of the chunk follow, or the trailer if the size is zero.  A
size line without a digit is refused. -/
def endSize (t : ChunkTracker) : Option ChunkTracker :=
  if t.digits = 0 then none
  else some { phase := if t.size = 0 then .trailerStart else .data t.size }

/-- Reads the octet `b` of the framing; nothing if it does not fit. -/
def step (t : ChunkTracker) (b : UInt8) : Option ChunkTracker :=
  match t.phase with
  | .size =>
      match Octet.hexValue? b with
      | some v =>
          if t.digits < maxDigits then
            some { t with size := t.size * 16 + v, digits := t.digits + 1 }
          else none
      | none =>
          if b = Octet.semicolon ∨ Octet.isBlank b then some (t.moveTo .extension)
          else if b = Octet.cr then some (t.moveTo .sizeLf)
          else if b = Octet.lf then t.endSize
          else none
  | .extension =>
      if b = Octet.cr then some (t.moveTo .sizeLf)
      else if b = Octet.lf then t.endSize
      else some t
  | .sizeLf => if b = Octet.lf then t.endSize else none
  | .data n => some (t.moveTo (if n ≤ 1 then .dataEnd else .data (n - 1)))
  | .dataEnd =>
      if b = Octet.cr then some (t.moveTo .dataLf)
      else if b = Octet.lf then some (t.moveTo .size)
      else none
  | .dataLf => if b = Octet.lf then some (t.moveTo .size) else none
  | .trailerStart =>
      if b = Octet.cr then some (t.moveTo .endLf)
      else if b = Octet.lf then some (t.moveTo .done)
      else some (t.moveTo .trailer)
  | .trailer =>
      if b = Octet.cr then some (t.moveTo .trailerLf)
      else if b = Octet.lf then some (t.moveTo .trailerStart)
      else some t
  | .trailerLf => some (t.moveTo (if b = Octet.lf then .trailerStart else .trailer))
  | .endLf => if b = Octet.lf then some (t.moveTo .done) else none
  | .done => some t

/-- The chunk has no data left: the one place from which the tracker goes on without reading. -/
def isDrained (t : ChunkTracker) : Bool := t.phase == .data 0

/-- The tracker after `taken` of the `remaining` octets of data of its chunk. -/
def skipData (t : ChunkTracker) (remaining taken : Nat) : ChunkTracker :=
  t.moveTo (if remaining - taken = 0 then .dataEnd else .data (remaining - taken))

@[simp] theorem isDrained_skipData (t : ChunkTracker) (remaining taken : Nat) :
    (t.skipData remaining taken).isDrained = false := by
  unfold isDrained skipData
  split <;> simp_all

/-- Reads `bs`, the first octet of which is number `seen` of the whole observation.  The answer is
the number of octets of the observation that belong to the body, if it ends among them. -/
def observeFrom (seen : Nat) (t : ChunkTracker) (bs : Bytes) :
    Except Defect (Option Nat) × ChunkTracker :=
  match bs with
  | [] => (.ok (if t.isDone then some seen else none), t)
  | b :: rest =>
      match _ht : t.phase with
      | .done => (.ok (some seen), t)
      | .data remaining =>
          let taken := ((b :: rest).take remaining).length
          observeFrom (seen + taken) (t.skipData remaining taken) ((b :: rest).drop remaining)
      | _ =>
          match t.step b with
          | none => (.error .chunkFraming, t)
          | some t' => observeFrom (seen + 1) t' rest
termination_by 2 * bs.length + t.isDrained.toNat
decreasing_by
  · simp only [isDrained_skipData, List.length_drop, List.length_cons, Bool.toNat_false]
    rcases Nat.eq_zero_or_pos remaining with h | h
    · subst h
      have hd : t.isDrained = true := by simp [isDrained, _ht]
      simp [hd]
    · omega
  all_goals
    have h := t'.isDrained.toNat_le
    rw [List.length_cons]
    omega

/-- Reads the next octets of a body.  The answer is `some n` if the body ends after `n` of them,
`none` if more are needed, and a defect at the first octet that does not fit; that octet changes
nothing. -/
def observe (t : ChunkTracker) (bs : Bytes) : Except Defect (Option Nat) × ChunkTracker :=
  t.observeFrom 0 bs

end ChunkTracker

end ReverseProxy.Message
