import ReverseProxy.Data.Toml.Scalar
import ReverseProxy.Data.Toml.Tree

/-!
# TOML

A TOML document is a sequence of lines: keys with values, and headers that say which table the keys
that follow belong to.
-/

namespace ReverseProxy.Toml

open Text

/-- How deep lists and inline tables may be nested, and how many parts a key may have. -/
def nestingLimit : Nat := 79

/-- A comment, up to the end of its line. -/
def comment : Scan Unit := do
  Scan.char '#'
  let _ ← Scan.many (Scan.satisfy isPrintable)

/-- What may stand between the elements of a list. -/
def filler : Scan Unit := do
  let _ ← Scan.many (newline <|> (do let _ ← Scan.satisfy isBlank) <|> (do comment; newline))

/-- A part of a key that needs no quotes. -/
def bareKey : Scan String := do
  let cs ← Scan.many1 (Scan.satisfy fun c =>
    ('a' ≤ c && c ≤ 'z') || ('A' ≤ c && c ≤ 'Z') || Text.isDigit c || c == '_' || c == '-')
  return String.ofList cs

/-- A part of a key, with the white space around it. -/
def keyPart : Scan String := do
  blanks
  let k ← basicText <|> literalText <|> bareKey
  blanks
  return k

/-- A key: the parts that lead to the table, and the last part. -/
def key : Scan (List String × String) := do
  let k ← keyPart
  let ks ← Scan.many (do Scan.char '.'; keyPart)
  if nestingLimit < ks.length + 1 then failure
  return ((k :: ks).dropLast, (k :: ks).getLastD k)

/-- Items with commas between them, or none. -/
def commaSeparated {α : Type} (item : Scan α) : Scan (List α) :=
  (do
    let a ← item
    let as ← Scan.many (do Scan.char ','; item)
    return a :: as) <|> pure []

/-- A list of values, after the last of which a comma may stand. -/
def array (value : Scan Datum) : Scan Datum := do
  Scan.char '['
  filler
  let ds ← commaSeparated (do filler; let d ← value; filler; return d)
  if !ds.isEmpty then
    let _ ← Scan.option (do Scan.char ','; filler)
  Scan.char ']'
  return .list ds

/-- A key with its `value`. -/
def assignment (value : Scan Datum) : Scan ((List String × String) × Datum) := do
  let k ← key
  Scan.char '='
  blanks
  return (k, ← value)

/-- A table within a line, made of assignments between braces. -/
def inlineTable (value : Scan Datum) : Scan Datum := do
  Scan.char '\x7b'
  blanks
  let all ← commaSeparated (do let f ← assignment value; blanks; return f)
  Scan.char '\x7d'
  match Fields.putValues [] all with
  | none => failure
  | some fields => return .record (fieldsToData fields)

/-- A value in which lists and inline tables are nested at most `depth` deep. -/
def value : Nat → Scan Datum
  | 0 => scalar
  | depth + 1 => scalar <|> array (value depth) <|> inlineTable (value depth)

/-- A line that says something. -/
inductive Line where
  | assignment (key : List String × String) (d : Datum)
  | header (key : List String × String)
  | elementHeader (key : List String × String)

/-- The rest of a line that says nothing. -/
def restOfLine : Scan Unit := do
  blanks
  let _ ← Scan.option comment
  newline <|> Scan.atEnd

/-- A line. -/
def line : Scan (Option Line) := do
  blanks
  (do newline; return none) <|>
    (do comment; newline <|> Scan.atEnd; return none) <|>
    (do
      Scan.literal "[["
      let k ← key
      Scan.literal "]]"
      restOfLine
      return some (.elementHeader k)) <|>
    (do
      Scan.notAhead (Scan.literal "[[")
      Scan.char '['
      let k ← key
      Scan.char ']'
      restOfLine
      return some (.header k)) <|>
    (do
      let (k, d) ← assignment (value nestingLimit)
      restOfLine
      return some (.assignment k d))

/-- The lines of a document, which may begin with a byte order mark. -/
def lines : Scan (List Line) := do
  let _ ← Scan.option (Scan.char '\uFEFF')
  let ls ← Scan.many line
  blanks
  Scan.atEnd
  return ls.filterMap id

/-- The assignments up to the next header. -/
def assignments : List Line → List ((List String × String) × Datum)
  | .assignment k d :: rest => (k, d) :: assignments rest
  | _ => []

/-- The tables of the headers put into `fields`, each with the assignments after it. -/
def putLines : Fields → List Line → Option Fields
  | fields, [] => some fields
  | fields, .assignment .. :: rest => putLines fields rest
  | fields, .header (path, key) :: rest =>
      (fields.putTable path key (assignments rest)).bind fun fields => putLines fields rest
  | fields, .elementHeader (path, key) :: rest =>
      (fields.putElement path key (assignments rest)).bind fun fields => putLines fields rest

/-- Reads the document `s`. -/
def read (s : String) : Option Datum := do
  let ls ← Scan.whole lines s
  let top ← Fields.putValues [] (assignments ls)
  let fields ← putLines top ls
  return .record (fieldsToData fields)

end ReverseProxy.Toml
