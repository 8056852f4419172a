import ReverseProxy.Text.Bytes
import ReverseProxy.Text.Scan
import ReverseProxy.Text.Split

/-!
# Media types

The value of a `Content-Type` header: a type and a subtype, the subtype possibly with a suffix
behind its last plus sign, and parameters after that.  The parameters have to be well-formed and say
nothing that matters here.
-/

namespace ReverseProxy.Admin

open Text

/-- A media type, in lower case. -/
structure MediaType where
  type : String
  subtype : String
  /-- What follows the last `+` of the subtype. -/
  suffix : Option String := none
deriving DecidableEq, Repr

namespace MediaType

/-- A character of a token. -/
def isToken (c : Char) : Bool := c.toNat < 128 && Octet.isToken c.toNat.toUInt8

/-- A character that may stand in quotes. -/
def isQuotable (c : Char) : Bool := 31 < c.toNat && c.toNat ≠ 127

/-- One or more characters of a token. -/
def token : Scan (List Char) := Scan.many1 (Scan.satisfy isToken)

/-- A value in quotes, which is not empty and ends at the first `"` that is not its first
character. -/
def quotedValue : Scan Unit := do
  Scan.char '"'
  let _ ← Scan.satisfy isQuotable
  let _ ← Scan.many (Scan.satisfy fun c => isQuotable c && c != '"')
  Scan.char '"'
  let _ ← Scan.many (Scan.char ' ')

/-- The value of a parameter, which may be missing at the end. -/
def parameterValue : Scan Unit := quotedValue <|> (token *> pure ()) <|> Scan.atEnd

/-- What stands before a parameter: a `;` and any spaces. -/
def separator : Scan Unit := do
  Scan.char ';'
  let _ ← Scan.many (Scan.char ' ')

/-- A parameter with what separates it from the next, if it is not the last. -/
def parameter : Scan Unit := do
  let _ ← token
  Scan.char '='
  parameterValue
  separator <|> Scan.atEnd

/-- The parameters, of which there may be none after the separator. -/
def parameters : Scan Unit := do
  separator
  let _ ← Scan.many parameter

/-- The media type of `type` and `subtype`, which is taken apart at its last `+`, unless that comes
first. -/
def ofNames (type subtype : List Char) : MediaType :=
  match cutLast? '+' subtype with
  | some (c :: cs, suffix) =>
      { type := String.ofList type, subtype := String.ofList (c :: cs),
        suffix := some (String.ofList suffix) }
  | _ => { type := String.ofList type, subtype := String.ofList subtype }

/-- A media type with its parameters. -/
def scan : Scan MediaType := do
  let type ← token
  Scan.char '/'
  let subtype ← token
  let _ ← Scan.option parameters
  return ofNames (type.map lowerChar) (subtype.map lowerChar)

/-- Reads the text of a `Content-Type` header. -/
def parse? (s : String) : Option MediaType := Scan.whole scan s

/-- Content of the type `t` is JSON. -/
def isJson (t : MediaType) : Bool :=
  t.type == "application" && (t.subtype == "json" || t.suffix == some "json")

end MediaType

end ReverseProxy.Admin
