/-!
# White space, and text without it

The characters with the Unicode property `White_Space`, and the trimming of texts at either end.
The functions work on lists of characters, so that what they do is said by the lemmas on
`List.dropWhile`.
-/

namespace ReverseProxy.Text

/-- The character has the Unicode property `White_Space`. -/
def isBlank (c : Char) : Bool :=
  let n := c.toNat
  (0x09 ≤ n && n ≤ 0x0D) || n == 0x20 || n == 0x85 || n == 0xA0 || n == 0x1680 ||
    (0x2000 ≤ n && n ≤ 0x200A) || n == 0x2028 || n == 0x2029 || n == 0x202F ||
    n == 0x205F || n == 0x3000

/-- Drops the elements at the end for which `p` holds. -/
def dropEndWhile {α : Type} (p : α → Bool) (xs : List α) : List α :=
  (xs.reverse.dropWhile p).reverse

/-- A text without the white space at its end. -/
def trimEnd (s : String) : String := String.ofList (dropEndWhile isBlank s.toList)

/-- A text without the white space at either end. -/
def trim (s : String) : String := String.ofList (dropEndWhile isBlank (s.toList.dropWhile isBlank))

/-- The text holds nothing but white space. -/
def isAllBlank (s : String) : Bool := s.toList.all isBlank

end ReverseProxy.Text
