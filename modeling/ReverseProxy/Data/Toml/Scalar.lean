import ReverseProxy.Data.Binary64
import ReverseProxy.Data.Datum
import ReverseProxy.Text.Bytes
import ReverseProxy.Text.Numeral
import ReverseProxy.Text.Scan

/-!
# The scalars of TOML

Texts in four kinds of quotes, numbers, truth values, dates and times.  A date is a record of its
own kind, of which no field is known here.
-/

namespace ReverseProxy.Toml

open Text

/-- White space inside a line. -/
def isBlank (c : Char) : Bool := c == ' ' || c == '\t'

/-- A character that may stand in a comment. -/
def isPrintable (c : Char) : Bool := c == '\t' || (' ' ≤ c && c ≤ '~') || 0x80 ≤ c.toNat

/-- Any amount of white space inside a line. -/
def blanks : Scan Unit := do
  let _ ← Scan.many (Scan.satisfy isBlank)

/-- A line end. -/
def newline : Scan Unit := Scan.literal "\n" <|> Scan.literal "\r\n"

/-! ### Texts -/

/-- A hexadecimal digit. -/
def hexDigit : Scan Nat := do
  let c ← Scan.satisfy fun c => c.toNat < 128 && (Octet.hexValue? c.toNat.toUInt8).isSome
  return (Octet.hexValue? c.toNat.toUInt8).getD 0

/-- The character of a number of hexadecimal digits. -/
def hexChar (digits : Nat) : Scan Char := do
  let ds ← (List.range digits).mapM fun _ => hexDigit
  let n := ds.foldl (fun n d => n * 16 + d) 0
  if n.isValidChar then return Char.ofNat n else failure

/-- An escaped character. -/
def escaped : Scan Char := do
  Scan.char '\\'
  let c ← Scan.satisfy fun _ => true
  match c with
  | 'b' => return '\x08'
  | 't' => return '\t'
  | 'n' => return '\n'
  | 'f' => return '\x0c'
  | 'r' => return '\r'
  | '"' => return '"'
  | '\\' => return '\\'
  | 'u' => hexChar 4
  | 'U' => hexChar 8
  | _ => failure

/-- A character that stands for itself between double quotes. -/
def plain : Scan Char := Scan.satisfy fun c => isPrintable c && c != '"' && c != '\\'

/-- A character that stands for itself between single quotes. -/
def raw : Scan Char := Scan.satisfy fun c => isPrintable c && c != '\''

/-- A text of one line between double quotes. -/
def basicText : Scan String := do
  Scan.char '"'
  let cs ← Scan.many (plain <|> escaped)
  Scan.char '"'
  return String.ofList cs

/-- A text of one line between single quotes. -/
def literalText : Scan String := do
  Scan.char '\''
  let cs ← Scan.many raw
  Scan.char '\''
  return String.ofList cs

/-- One or two of the `quote` that do not close the text. -/
def innerQuotes (quote : Char) : Scan (List Char) := do
  let qs ← Scan.many1 (Scan.satisfy (· == quote))
  if qs.length ≤ 2 then return qs else failure

/-- The three of the `quote` that close a text, and up to two before them that belong to it. -/
def closingQuotes (quote : Char) : Scan (List Char) := do
  let three : Scan Unit := do Scan.char quote; Scan.char quote; Scan.char quote
  (do Scan.char quote; Scan.char quote; three; return [quote, quote]) <|>
    (do Scan.char quote; three; return [quote]) <|> (do three; return [])

/-- A line end that is escaped, with the white space and the line ends after it. -/
def escapedNewline : Scan (List Char) := do
  Scan.char '\\'
  blanks
  newline
  let _ ← Scan.many (newline <|> (do let _ ← Scan.satisfy isBlank))
  return []

/-- A text of several lines between three double quotes. -/
def basicLines : Scan String := do
  Scan.literal "\"\"\""
  let _ ← Scan.option newline
  let parts ← Scan.many
    ((do return [← plain]) <|> escapedNewline <|> (do return [← escaped]) <|>
      (do newline; return ['\n']) <|>
      innerQuotes '"')
  let last ← closingQuotes '"'
  return String.ofList (parts.flatten ++ last)

/-- A text of several lines between three single quotes. -/
def literalLines : Scan String := do
  Scan.literal "'''"
  let _ ← Scan.option newline
  let parts ← Scan.many ((do return [← raw]) <|> (do newline; return ['\n']) <|> innerQuotes '\'')
  let last ← closingQuotes '\''
  return String.ofList (parts.flatten ++ last)

/-- A text. -/
def text : Scan Datum := do
  return .text (← basicLines <|> basicText <|> literalLines <|> literalText)

/-! ### Numbers -/

/-- Digits that satisfy `isPart`, between which single underscores may stand. -/
def digits (isPart : Char → Bool) : Scan (List Char) := do
  let d ← Scan.satisfy isPart
  let ds ← Scan.many (do let _ ← Scan.option (Scan.char '_'); Scan.satisfy isPart)
  return d :: ds

/-- A sign: whether it is negative. -/
def sign : Scan Bool := do
  let s ← Scan.option (Scan.satisfy fun c => c == '+' || c == '-')
  return s == some '-'

/-- The digits of a decimal integer, which has no superfluous zero in front. -/
def decimalDigits : Scan (List Char) :=
  (do Scan.char '0'; return ['0']) <|> digits Text.isDigit

/-- An integer of 64 bits, of the magnitude `n`. -/
def integerOf (negative : Bool) (n : Nat) : Scan Datum :=
  if negative then if n ≤ 9223372036854775808 then return .int (-(n : Int)) else failure
  else if n < 9223372036854775808 then return .int n else failure

/-- An integer in another `base` after the `mark` of that base. -/
def integerIn (base : Nat) (mark : String) : Scan Datum := do
  Scan.literal mark
  let value (c : Char) : Option Nat :=
    if c.toNat < 128 then (Octet.hexValue? c.toNat.toUInt8).filter (· < base) else none
  let ds ← digits fun c => (value c).isSome
  integerOf false (ds.foldl (fun n c => min Text.wordSize (n * base + (value c).getD 0)) 0)

/-- A decimal integer. -/
def decimalInteger : Scan Datum := do
  let negative ← sign
  let ds ← decimalDigits
  integerOf negative (Text.digitsUpTo Text.wordSize ds)

/-- The number that the digits of an exponent stand for.  What is beyond the range of exponents
anyway is not read any further. -/
def exponentValue (ds : List Char) : Nat :=
  ds.foldl (fun n c => if n < 65536 then n * 10 + (c.toNat - 48) else n) 0

/-- An exponent. -/
def exponent : Scan Int := do
  let _ ← Scan.satisfy fun c => c == 'e' || c == 'E'
  let negative ← sign
  let ds ← digits Text.isDigit
  let n : Int := exponentValue ds
  return if negative then -n else n

/-- A number with a fraction or an exponent.  One that is too great to be told from infinity is
refused. -/
def realNumber : Scan Datum := do
  let negative ← sign
  let ds ← decimalDigits
  let fraction ← Scan.option (do Scan.char '.'; digits Text.isDigit)
  let e ← if fraction.isNone then exponent else (fun e => e.getD 0) <$> Scan.option exponent
  let fs := fraction.getD []
  if !negative && Binary64.overflows (ds ++ fs) (e - fs.length) then failure else return .real

/-- Infinity, or what is no number. -/
def specialNumber : Scan Datum := do
  let _ ← sign
  Scan.literal "inf" <|> Scan.literal "nan"
  return .real

/-! ### Dates and times -/

/-- A number of so many digits, from `low` to `high`. -/
def field (count low high : Nat) : Scan Nat := do
  let ds ← (List.range count).mapM fun _ => Scan.satisfy Text.isDigit
  let n := Text.digitsValue ds
  if low ≤ n && n ≤ high then return n else failure

/-- The number of days in a `month` of a `year`. -/
def daysIn (year month : Nat) : Nat :=
  if month = 2 then
    if year % 4 = 0 ∧ (year % 100 ≠ 0 ∨ year % 400 = 0) then 29 else 28
  else if month = 4 ∨ month = 6 ∨ month = 9 ∨ month = 11 then 30
  else 31

/-- A day. -/
def day : Scan Unit := do
  let year ← field 4 0 9999
  Scan.char '-'
  let month ← field 2 1 12
  Scan.char '-'
  let _ ← field 2 1 (daysIn year month)

/-- A time of day. -/
def time : Scan Unit := do
  let _ ← field 2 0 23
  Scan.char ':'
  let _ ← field 2 0 59
  Scan.char ':'
  let _ ← field 2 0 60
  let _ ← Scan.option (do Scan.char '.'; Scan.many1 (Scan.satisfy Text.isDigit))

/-- The distance of a time from the universal time. -/
def offset : Scan Unit :=
  (do let _ ← Scan.satisfy fun c => c == 'Z' || c == 'z') <|>
  (do
    let _ ← Scan.satisfy fun c => c == '+' || c == '-'
    let _ ← field 2 0 23
    Scan.char ':'
    let _ ← field 2 0 59)

/-- A day, a time, or both. -/
def date : Scan Datum := do
  (do
    day
    let _ ← Scan.option (do
      let _ ← Scan.satisfy fun c => c == 'T' || c == 't' || c == ' '
      time
      Scan.option offset)) <|> time
  return .record []

/-- A scalar. -/
def scalar : Scan Datum :=
  text <|> date <|> realNumber <|> specialNumber <|> integerIn 16 "0x" <|>
    integerIn 8 "0o" <|> integerIn 2 "0b" <|>
    decimalInteger <|> (do Scan.literal "true"; return .bool true) <|>
    (do Scan.literal "false"; return .bool false)

end ReverseProxy.Toml
