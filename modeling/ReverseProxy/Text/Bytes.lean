/-!
# Octets and octet strings

Everything that travels over a connection is a `Bytes`.  The classes of octets below are the ones
the message grammars of this library are stated in; they are ASCII classes, because the grammars
are.
-/

namespace ReverseProxy

/-- A string of octets, as it travels over a connection. -/
abbrev Bytes := List UInt8

namespace Octet

/-- Carriage return. -/
def cr : UInt8 := 13
/-- Line feed. -/
def lf : UInt8 := 10
/-- Space. -/
def sp : UInt8 := 32
/-- Horizontal tab. -/
def htab : UInt8 := 9
/-- The colon between the name and the value of a header. -/
def colon : UInt8 := 58
/-- The semicolon that opens a chunk extension. -/
def semicolon : UInt8 := 59

/-- The white space that may stand inside a line: space and horizontal tab. -/
def isBlank (b : UInt8) : Bool := b == sp || b == htab

/-- The octets that a line end is made of. -/
def isEol (b : UInt8) : Bool := b == cr || b == lf

/-- A decimal digit. -/
def isDigit (b : UInt8) : Bool := 48 ≤ b && b ≤ 57

/-- An ASCII letter. -/
def isLetter (b : UInt8) : Bool := (65 ≤ b && b ≤ 90) || (97 ≤ b && b ≤ 122)

/-- The marks that a token may contain beside letters and digits. -/
def tokenMarks : Bytes := [33, 35, 36, 37, 38, 39, 42, 43, 45, 46, 94, 95, 96, 124, 126]

/-- An octet of a token: a letter, a digit or one of the marks. -/
def isToken (b : UInt8) : Bool := isLetter b || isDigit b || tokenMarks.contains b

/-- The lower-case form of an ASCII letter; every other octet is its own. -/
def lower (b : UInt8) : UInt8 := if 65 ≤ b && b ≤ 90 then b + 32 else b

/-- The value of a decimal digit. -/
def digitValue (b : UInt8) : Nat := b.toNat - 48

/-- The value of a hexadecimal digit, in either case. -/
def hexValue? (b : UInt8) : Option Nat :=
  if isDigit b then some (b.toNat - 48)
  else if 65 ≤ b && b ≤ 70 then some (b.toNat - 55)
  else if 97 ≤ b && b ≤ 102 then some (b.toNat - 87)
  else none

/-- A hexadecimal digit is worth less than sixteen. -/
theorem hexValue?_lt {b : UInt8} {v : Nat} (h : hexValue? b = some v) : v < 16 := by
  unfold hexValue? isDigit at h
  split at h
  · rename_i hb
    simp only [Bool.and_eq_true, decide_eq_true_eq, UInt8.le_iff_toNat_le] at hb
    have h9 : b.toNat ≤ 57 := hb.2
    obtain rfl := Option.some.inj h
    omega
  split at h
  · rename_i hb
    simp only [Bool.and_eq_true, decide_eq_true_eq, UInt8.le_iff_toNat_le] at hb
    have h70 : b.toNat ≤ 70 := hb.2
    obtain rfl := Option.some.inj h
    omega
  split at h
  · rename_i hb
    simp only [Bool.and_eq_true, decide_eq_true_eq, UInt8.le_iff_toNat_le] at hb
    have h102 : b.toNat ≤ 102 := hb.2
    obtain rfl := Option.some.inj h
    omega
  · exact absurd h (by simp)

end Octet

end ReverseProxy
