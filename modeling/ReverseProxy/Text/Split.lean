import ReverseProxy.Text.Blank

/-!
# Cutting text at a separator, and comparing it without regard to case

Header values are lists in a text: of coding names, of options, of cookies.  They are taken apart at
a separator, and their elements compared without regard to the case of ASCII letters.
-/

namespace ReverseProxy.Text

variable {α : Type} [DecidableEq α]

/-- The stretches between the occurrences of `sep`: one more than there are of them. -/
def pieces (sep : α) : List α → List (List α)
  | [] => [[]]
  | x :: xs =>
      if x = sep then [] :: pieces sep xs
      else match pieces sep xs with
        | [] => [[x]]
        | p :: ps => (x :: p) :: ps

/-- What stands before and after the first `sep`. -/
def cut? (sep : α) (xs : List α) : Option (List α × List α) :=
  match xs.dropWhile (fun x => decide (x ≠ sep)) with
  | [] => none
  | _ :: rest => some (xs.takeWhile (fun x => decide (x ≠ sep)), rest)

/-- What stands before and after the last `sep`. -/
def cutLast? (sep : α) (xs : List α) : Option (List α × List α) :=
  (cut? sep xs.reverse).map fun (after, before) => (before.reverse, after.reverse)

/-- The stretch before the first `sep`, or the whole list where there is none. -/
def before (sep : α) (xs : List α) : List α := xs.takeWhile (fun x => decide (x ≠ sep))

/-- The stretches of a text between the separators. -/
def split (sep : Char) (s : String) : List String := (pieces sep s.toList).map String.ofList

/-- The lower-case form of an ASCII letter; every other character is its own. -/
def lowerChar (c : Char) : Char := if 'A' ≤ c ∧ c ≤ 'Z' then Char.ofNat (c.toNat + 32) else c

/-- A text with its ASCII letters in lower case. -/
def lower (s : String) : String := String.ofList (s.toList.map lowerChar)

/-- Equality without regard to the case of ASCII letters. -/
def eqIgnoreCase (s t : String) : Bool := s.toList.map lowerChar == t.toList.map lowerChar

/-- The elements of a comma-separated list, each without the white space around it. -/
def elements (s : String) : List String := (split ',' s).map trim

/-- The last of the `elements` of a comma-separated list. -/
def lastElement (s : String) : String := (elements s).getLastD ""

end ReverseProxy.Text
