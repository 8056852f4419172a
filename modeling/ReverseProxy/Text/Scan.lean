/-!
# Scanning text

A `Scan` reads something at the front of a text and leaves the rest, or fails and leaves everything.
Choices are made by trying: `a <|> b` tries `b` where `a` fails.
-/

namespace ReverseProxy.Text

/-- A text that is being read, with its length, so that two of them are compared without being
walked through. -/
structure Input where
  chars : List Char
  length : Nat
  length_eq : length = chars.length

namespace Input

/-- The text of a list of characters. -/
def ofList (cs : List Char) : Input := { chars := cs, length := cs.length, length_eq := rfl }

@[simp] theorem chars_ofList (cs : List Char) : (ofList cs).chars = cs := rfl
@[simp] theorem length_ofList (cs : List Char) : (ofList cs).length = cs.length := rfl

/-- Only the characters matter. -/
@[ext] theorem ext {i j : Input} (h : i.chars = j.chars) : i = j := by
  obtain ⟨cs, n, hn⟩ := i
  obtain ⟨ds, m, hm⟩ := j
  cases h
  cases hn
  cases hm
  rfl

/-- The first character, and the text after it. -/
def next? : Input → Option (Char × Input)
  | { chars := [], .. } => none
  | { chars := c :: cs, length, length_eq } =>
      some (c, { chars := cs, length := length - 1, length_eq := by simp [length_eq] })

@[simp] theorem next?_ofList_nil : (ofList []).next? = none := rfl
@[simp] theorem next?_ofList_cons (c : Char) (cs : List Char) :
    (ofList (c :: cs)).next? = some (c, ofList cs) := rfl

end Input

/-- Reads a value of type `α` at the front of a text. -/
abbrev Scan (α : Type) := StateT Input Option α

namespace Scan

variable {α : Type}

/-- The next character, which has to satisfy `p`. -/
def satisfy (p : Char → Bool) : Scan Char := fun i =>
  match i.next? with
  | none => none
  | some (c, rest) => if p c then some (c, rest) else none

/-- A given character. -/
def char (c : Char) : Scan Unit := do
  let _ ← satisfy (· == c)

/-- The characters of a given text. -/
def literal (s : String) : Scan Unit := s.toList.forM char

/-- Something, or nothing where it does not stand. -/
def option (p : Scan α) : Scan (Option α) := fun i =>
  match p i with
  | some (a, rest) => some (some a, rest)
  | none => some (none, i)

/-- Nothing of the kind stands here. -/
def notAhead (p : Scan α) : Scan Unit := fun i => if (p i).isSome then none else some ((), i)

/-- The text ends here. -/
def atEnd : Scan Unit := fun i => if i.chars.isEmpty then some ((), i) else none

/-- As many things as stand one after another, as long as each takes something of the text; `done`
are those that have been read, the last one first. -/
def manyFrom (p : Scan α) (done : List α) (i : Input) : List α × Input :=
  match p i with
  | none => (done.reverse, i)
  | some (a, rest) =>
    if _h : rest.length < i.length then manyFrom p (a :: done) rest else (done.reverse, i)
termination_by i.length

/-- As many things as stand one after another. -/
def many (p : Scan α) : Scan (List α) := fun i => some (manyFrom p [] i)

/-- One or more things. -/
def many1 (p : Scan α) : Scan (List α) := do
  let a ← p
  let as ← many p
  return a :: as

/-- What a scan reads if it reads the whole text. -/
def whole (p : Scan α) (s : String) : Option α :=
  match p (Input.ofList s.toList) with
  | some (a, { chars := [], .. }) => some a
  | _ => none

end Scan

end ReverseProxy.Text
