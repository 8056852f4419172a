import ReverseProxy.Text.Split

/-!
# Decimal numerals

Numbers in messages and in settings are unsigned and bounded by a machine word.  A numeral may begin
with a plus sign and may have leading zeros; it has at least one digit and nothing else.
-/

namespace ReverseProxy.Text

/-- The number of values of a 64-bit word. -/
def wordSize : Nat := 18446744073709551616

/-- An ASCII decimal digit. -/
def isDigit (c : Char) : Bool := '0' ≤ c && c ≤ '9'

/-- The number that a list of digits stands for. -/
def digitsValue (cs : List Char) : Nat := cs.foldl (fun n c => n * 10 + (c.toNat - 48)) 0

/-- The number that a list of digits stands for, or `limit` if that is less, so that no number is
made that is much greater. -/
def digitsUpTo (limit : Nat) (cs : List Char) : Nat :=
  cs.foldl (fun n c => min limit (n * 10 + (c.toNat - 48))) 0

theorem digitsUpTo_eq (limit : Nat) (cs : List Char) :
    digitsUpTo limit cs = min limit (digitsValue cs) := by
  have step : ∀ n, cs.foldl (fun n c => min limit (n * 10 + (c.toNat - 48))) (min limit n) =
      min limit (cs.foldl (fun n c => n * 10 + (c.toNat - 48)) n) := by
    induction cs with
    | nil => exact fun _ => rfl
    | cons c cs ih =>
      intro n
      rw [List.foldl_cons, List.foldl_cons, ← ih]
      congr 1
      omega
  have start := step 0
  rwa [Nat.min_zero] at start

/-- The number that a text of one or more digits stands for, or `limit` if that is less. -/
def digits? (limit : Nat) (cs : List Char) : Option Nat :=
  if !cs.isEmpty && cs.all isDigit then some (digitsUpTo limit cs) else none

/-- The number that a numeral stands for, if it is below `bound`. -/
def numeral? (bound : Nat) (s : String) : Option Nat :=
  let cs := match s.toList with
    | '+' :: cs => cs
    | cs => cs
  (digits? bound cs).filter (· < bound)

/-- The number that a numeral stands for, if it fits a 64-bit word. -/
def word? (s : String) : Option Nat := numeral? wordSize s

end ReverseProxy.Text
