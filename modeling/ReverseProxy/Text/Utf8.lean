import ReverseProxy.Text.Bytes

/-!
# UTF-8

Octets are read as text one well-formed sequence at a time (`Utf8.scan`).  Where no well-formed
sequence stands, the longest beginning of one is passed over as a single gap, so that a reader who
must go on (`Utf8.decodeLossy`) shows one replacement character per gap, while one who must not
(`Utf8.decode?`) refuses the text as soon as there is a gap.
-/

namespace ReverseProxy.Utf8

/-- The octets of a text. -/
def encode (s : String) : Bytes := s.toList.flatMap String.utf8EncodeChar

/-- What a lead octet announces: its share of the code point, and the range of each octet that must
follow.  The narrowed ranges keep out overlong forms, surrogates and code points past the last
one. -/
def lead (b : UInt8) : Option (Nat × List (UInt8 × UInt8)) :=
  let any : UInt8 × UInt8 := (0x80, 0xBF)
  if b ≤ 0x7F then some (b.toNat, [])
  else if b < 0xC2 then none
  else if b ≤ 0xDF then some (b.toNat - 0xC0, [any])
  else if b == 0xE0 then some (0, [(0xA0, 0xBF), any])
  else if b == 0xED then some (0xD, [(0x80, 0x9F), any])
  else if b ≤ 0xEF then some (b.toNat - 0xE0, [any, any])
  else if b == 0xF0 then some (0, [(0x90, 0xBF), any, any])
  else if b ≤ 0xF3 then some (b.toNat - 0xF0, [any, any, any])
  else if b == 0xF4 then some (4, [(0x80, 0x8F), any, any])
  else none

/-- Reads octets in the given ranges onto the value `v`, stopping before the first that is out of
range. -/
def follow (v : Nat) : List (UInt8 × UInt8) → Bytes → Option Nat × Bytes
  | [], bs => (some v, bs)
  | _ :: _, [] => (none, [])
  | (lo, hi) :: rs, b :: bs =>
      if lo ≤ b && b ≤ hi then follow (v * 64 + (b.toNat - 0x80)) rs bs else (none, b :: bs)

theorem follow_length_le (v : Nat) (rs : List (UInt8 × UInt8)) (bs : Bytes) :
    (follow v rs bs).2.length ≤ bs.length := by
  induction rs generalizing v bs with
  | nil => simp [follow]
  | cons r rs ih =>
    cases bs with
    | nil => simp [follow]
    | cons b bs =>
      obtain ⟨lo, hi⟩ := r
      simp only [follow]
      split
      · exact Nat.le_succ_of_le (ih _ _)
      · exact Nat.le_refl _

/-- The first sequence of a non-empty string: its character, or nothing for a gap; and what comes
after. -/
def next (b : UInt8) (bs : Bytes) : Option Char × Bytes :=
  match lead b with
  | none => (none, bs)
  | some (v, rs) => ((follow v rs bs).1.map Char.ofNat, (follow v rs bs).2)

theorem next_length_le (b : UInt8) (bs : Bytes) : (next b bs).2.length ≤ bs.length := by
  unfold next
  split
  · exact Nat.le_refl _
  · exact follow_length_le _ _ _

/-- The characters of an octet string, in order, with `none` for each gap. -/
def scan : Bytes → List (Option Char)
  | [] => []
  | b :: bs => (next b bs).1 :: scan (next b bs).2
termination_by bs => bs.length
decreasing_by exact Nat.lt_succ_of_le (next_length_le b bs)

/-- The character shown in place of a gap. -/
def replacement : Char := '\uFFFD'

/-- Reads octets as text, showing every gap as one replacement character. -/
def decodeLossy (bs : Bytes) : String := String.ofList ((scan bs).map fun c => c.getD replacement)

/-- Reads octets as text, refusing them if there is any gap. -/
def decode? (bs : Bytes) : Option String := ((scan bs).mapM id).map String.ofList

/-- The octets are well-formed UTF-8. -/
def isWellFormed (bs : Bytes) : Bool := (scan bs).all Option.isSome

end ReverseProxy.Utf8
