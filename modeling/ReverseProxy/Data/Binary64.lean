import ReverseProxy.Text.Numeral

/-!
# The range of 64-bit floating-point numbers

A 64-bit floating-point number has 53 significant binary digits and is less than 2¹⁰²⁴.  What lies
between two such numbers is rounded to the nearer one, and what lies halfway to the one whose last
digit is even; what lies halfway between the greatest number and 2¹⁰²⁴ or beyond is rounded to
infinity.

Readers of decimal numerals differ in what they round: the number that the numeral stands for
(`overflows`), or the factors of which they make it up (`productOverflows`).  Close to the end of
the range these are not the same.
-/

namespace ReverseProxy.Binary64

/-- The number of significant binary digits. -/
def precision : Nat := 53

/-- The least number that is rounded to infinity. -/
def infinity : Nat := (1 <<< 1024) - (1 <<< 970)

/-- The number to which `n` is rounded, as if there were no end to the range. -/
def round (n : Nat) : Nat :=
  let excess := n.log2 + 1 - precision
  if excess = 0 then n
  else
    let kept := n >>> excess
    let lost := n - (kept <<< excess)
    let half := 1 <<< (excess - 1)
    (if half < lost || (lost == half && kept % 2 == 1) then kept + 1 else kept) <<< excess

/-- A number with at most `precision` digits is not changed. -/
theorem round_eq_self {n : Nat} (h : n.log2 < precision) : round n = n := by
  unfold round
  rw [if_pos (by omega)]

/-- The number of decimal digits of `infinity`. -/
def places : Nat := 309

/-- The number that `digits` stand for, times `10 ^ e`, is rounded to infinity.  As `infinity` is a
whole number, the digits after the point do not matter: either the number of digits in front of it
decides, or those digits do. -/
def overflows (digits : List Char) (e : Int) : Bool :=
  let digits := digits.dropWhile (· == '0')
  let point := digits.length + e
  !digits.isEmpty &&
    (places < point ||
      (point == places &&
        infinity ≤ Text.digitsValue ((digits ++ List.replicate places '0').take places)))

/-- The product of `m` and `10 ^ e`, each of which is rounded first, is rounded to infinity; a power
of ten that is out of range itself counts as infinity.  To divide by a power of ten leads to no
greater number. -/
def productOverflows (m : Nat) : Int → Bool
  | .ofNat e => m != 0 && (308 < e || infinity ≤ round m * round (Nat.pow 10 e))
  | .negSucc _ => false

@[simp] theorem productOverflows_zero (e : Int) : productOverflows 0 e = false := by cases e <;> rfl

end ReverseProxy.Binary64
