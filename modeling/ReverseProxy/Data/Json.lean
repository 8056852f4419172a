import ReverseProxy.Data.Binary64
import ReverseProxy.Data.Datum
import ReverseProxy.Text.Numeral
import ReverseProxy.Text.Utf8

/-!
# JSON

Reading is done in two steps.  `Json.tokens` cuts the octets into tokens, the last of which may say
that nothing well-formed follows.  `Json.build` is a machine over the tokens with a stack of the
lists and records that are open; where the tokens fit no further it closes them all, with a
`malformed` datum at that place.

Writing (`Json.write`) puts no white space between tokens and escapes nothing but what has to be.
-/

namespace ReverseProxy.Json

/-- A token of a JSON document. -/
inductive Token where
  | openList
  | closeList
  | openRecord
  | closeRecord
  | comma
  | colon
  /-- A text, or nothing if it is not well-formed. -/
  | text (s : Option String)
  /-- Any other scalar. -/
  | scalar (d : Datum)
  /-- No token stands here. -/
  | bad
deriving Repr

/-! ### Texts -/

/-- A part of a text: an octet, or a unit of sixteen bits that was written as an escape. -/
inductive TextPart where
  | octet (b : UInt8)
  | unit (n : Nat)
deriving Repr

/-- The octet that a one-letter escape stands for. -/
def escapee? (b : UInt8) : Option UInt8 :=
  if b = 34 ∨ b = 92 ∨ b = 47 then some b
  else if b = 98 then some 8
  else if b = 102 then some 12
  else if b = 110 then some 10
  else if b = 114 then some 13
  else if b = 116 then some 9
  else none

/-- The number that four hexadecimal digits stand for. -/
def hex4? (a b c d : UInt8) : Option Nat := do
  let a ← Octet.hexValue? a
  let b ← Octet.hexValue? b
  let c ← Octet.hexValue? c
  let d ← Octet.hexValue? d
  return ((a * 16 + b) * 16 + c) * 16 + d

/-- The parts of a text up to the closing quote, and what follows it. -/
def textParts : Bytes → Option (List TextPart × Bytes)
  | [] => none
  | 34 :: rest => some ([], rest)
  | 92 :: 117 :: a :: b :: c :: d :: rest =>
      match hex4? a b c d with
      | none => none
      | some n => (textParts rest).map fun (parts, rest) => (.unit n :: parts, rest)
  | 92 :: b :: rest =>
      match escapee? b with
      | none => none
      | some e => (textParts rest).map fun (parts, rest) => (.octet e :: parts, rest)
  | b :: rest =>
      if b < 32 ∨ b = 92 then none
      else (textParts rest).map fun (parts, rest) => (.octet b :: parts, rest)

/-- The unit is the first of a surrogate pair. -/
def isHighSurrogate (n : Nat) : Bool := 0xD800 ≤ n && n < 0xDC00

/-- The unit is the second of a surrogate pair. -/
def isLowSurrogate (n : Nat) : Bool := 0xDC00 ≤ n && n < 0xE000

/-- The octets of a text; nothing if it has half a surrogate pair. -/
def textOctets : List TextPart → Option Bytes
  | [] => some []
  | .octet b :: parts => (textOctets parts).map (b :: ·)
  | .unit n :: .unit m :: parts =>
      if isHighSurrogate n && isLowSurrogate m then
        (textOctets parts).map
          (String.utf8EncodeChar (Char.ofNat (0x10000 + (n - 0xD800) * 0x400 + (m - 0xDC00))) ++ ·)
      else if isHighSurrogate n || isLowSurrogate n then none
      else (textOctets (.unit m :: parts)).map (String.utf8EncodeChar (Char.ofNat n) ++ ·)
  | .unit n :: parts =>
      if isHighSurrogate n || isLowSurrogate n then none
      else (textOctets parts).map (String.utf8EncodeChar (Char.ofNat n) ++ ·)

/-! ### Numbers -/

/-- Goes on reading a numeral of which `n` has been read: the number after as many digits as leave
it within a 64-bit word, and how many digits there are after those. -/
def leadingDigits (n : Nat) : Bytes → Nat × Nat
  | [] => (n, 0)
  | d :: ds =>
      let m := n * 10 + Octet.digitValue d
      if m < Text.wordSize then leadingDigits m ds else (n, ds.length + 1)

/-- One or more digits after an optional leading octet. -/
def digits? (bs : Bytes) : Option (Bytes × Bytes) :=
  match bs.takeWhile Octet.isDigit with
  | [] => none
  | ds => some (ds, bs.dropWhile Octet.isDigit)

/-- The digits after a point, if there is one. -/
def fraction? : Bytes → Option (Option Bytes × Bytes)
  | 46 :: rest => (digits? rest).map fun (ds, rest) => (some ds, rest)
  | bs => some (none, bs)

/-- A minus sign, if there is one. -/
def minus : Bytes → Bool × Bytes
  | 45 :: rest => (true, rest)
  | bs => (false, bs)

/-- The sign of an exponent: whether it is negative. -/
def exponentSign : Bytes → Bool × Bytes
  | 43 :: rest => (false, rest)
  | bs => minus bs

/-- The number that the digits of an exponent stand for, as many of them as fit a 64-bit word: any
exponent that is cut off is far out of range. -/
def exponentValue (negative : Bool) (digits : Bytes) : Int :=
  if negative then -((leadingDigits 0 digits).1 : Int) else (leadingDigits 0 digits).1

/-- The exponent, if there is one. -/
def exponent? : Bytes → Option (Option Int × Bytes)
  | [] => some (none, [])
  | b :: rest =>
      if b = 69 ∨ b = 101 then
        (digits? (exponentSign rest).2).map fun (ds, after) =>
          (some (exponentValue (exponentSign rest).1 ds), after)
      else some (none, b :: rest)

/-- The datum for a number that is not read as an integer, given the digits in front of the point,
those behind it and the exponent.  Of the digits those count that fit a 64-bit word. -/
def realOf (whole fraction : Bytes) (e : Int) : Datum :=
  let (n, dropped) := leadingDigits 0 whole
  let (n, unused) := leadingDigits n fraction
  if Binary64.productOverflows n (e + dropped - (fraction.length - unused)) then .garbled else .real

/-- The datum for an integer: one beyond 64 bits counts as a real number, and so does minus zero. -/
def integerOf (negative : Bool) (digits : Bytes) : Datum :=
  let (m, dropped) := leadingDigits 0 digits
  if 0 < dropped then realOf digits [] 0
  else if !negative then .int m
  else if 0 < m ∧ m ≤ 9223372036854775808 then .int (-(m : Int))
  else .real

/-- The datum for a number, given whether it is `negative`, its digits and what there is behind
them. -/
def numberOf (negative : Bool) (digits : Bytes) : Option Bytes → Option Int → Datum
  | none, none => integerOf negative digits
  | fraction, exponent => realOf digits (fraction.getD []) (exponent.getD 0)

/-- The digits in front of the point are not superfluous zeros. -/
def isProper : Bytes → Bool
  | 48 :: _ :: _ => false
  | _ => true

/-- A number: an optional minus sign, proper digits, and possibly a fraction and an exponent. -/
def number? (bs : Bytes) : Option (Datum × Bytes) :=
  match digits? (minus bs).2 with
  | none => none
  | some (digits, after) =>
      if !isProper digits then none
      else
        match fraction? after with
        | none => none
        | some (fraction, after) =>
            (exponent? after).map fun (exponent, after) =>
              (numberOf (minus bs).1 digits fraction exponent, after)

/-! ### Tokens -/

/-- The white space between tokens. -/
def isSpace (b : UInt8) : Bool := b == 32 || b == 9 || b == 10 || b == 13

/-- The octets that follow a given word, if they begin with it. -/
def after? : Bytes → Bytes → Option Bytes
  | [], bs => some bs
  | _ :: _, [] => none
  | w :: ws, b :: bs => if w = b then after? ws bs else none

/-- A scalar that is a word, given what has to follow the first letter. -/
def word? (letters : String) (d : Datum) (bs : Bytes) : Option (Token × Bytes) :=
  (after? (Utf8.encode letters) bs).map fun rest => (.scalar d, rest)

/-- The token at the front of octets that do not begin with white space. -/
def token? : Bytes → Option (Token × Bytes)
  | [] => none
  | 91 :: rest => some (.openList, rest)
  | 93 :: rest => some (.closeList, rest)
  | 123 :: rest => some (.openRecord, rest)
  | 125 :: rest => some (.closeRecord, rest)
  | 44 :: rest => some (.comma, rest)
  | 58 :: rest => some (.colon, rest)
  | 34 :: rest =>
      (textParts rest).map fun (parts, rest) => (.text ((textOctets parts).bind Utf8.decode?), rest)
  | 110 :: rest => word? "ull" .null rest
  | 116 :: rest => word? "rue" (.bool true) rest
  | 102 :: rest => word? "alse" (.bool false) rest
  | bs => (number? bs).map fun (d, rest) => (.scalar d, rest)

theorem textParts_length {bs rest : Bytes} {parts : List TextPart}
    (h : textParts bs = some (parts, rest)) :
    rest.length < bs.length := by
  fun_induction textParts bs generalizing parts rest with
  | case1 | case3 | case5 | case7 => cases h
  | case2 => cases h; exact Nat.lt_succ_self _
  | case4 _ _ _ _ _ _ _ ih | case6 _ _ _ _ _ ih | case8 _ _ _ _ _ _ ih =>
    obtain ⟨⟨ps, r⟩, hr, h⟩ := Option.map_eq_some_iff.1 h
    cases h
    have := ih hr
    simp only [List.length_cons]
    omega

theorem digits?_length {bs ds rest : Bytes} (h : digits? bs = some (ds, rest)) :
    rest.length < bs.length := by
  unfold digits? at h
  split at h
  · cases h
  · rename_i hne
    cases h
    have hl := congrArg List.length (List.takeWhile_append_dropWhile (p := Octet.isDigit) (l := bs))
    have := List.length_pos_iff.2 hne
    rw [List.length_append] at hl
    omega

theorem fraction?_length {bs rest : Bytes} {f : Option Bytes} (h : fraction? bs = some (f, rest)) :
    rest.length ≤ bs.length := by
  unfold fraction? at h
  split at h
  · obtain ⟨⟨ds, r⟩, hd, h⟩ := Option.map_eq_some_iff.1 h
    cases h
    exact Nat.le_succ_of_le (Nat.le_of_lt (digits?_length hd))
  · cases h
    exact Nat.le_refl _

theorem minus_length (bs : Bytes) : (minus bs).2.length ≤ bs.length := by
  unfold minus
  split
  · exact Nat.le_succ _
  · exact Nat.le_refl _

theorem exponentSign_length (bs : Bytes) : (exponentSign bs).2.length ≤ bs.length := by
  unfold exponentSign
  split
  · exact Nat.le_succ _
  · exact minus_length _

theorem exponent?_length {bs rest : Bytes} {e : Option Int} (h : exponent? bs = some (e, rest)) :
    rest.length ≤ bs.length := by
  unfold exponent? at h
  split at h
  · cases h
    exact Nat.le_refl _
  · rename_i b rest₀
    split at h
    · obtain ⟨⟨ds, r⟩, hd, h⟩ := Option.map_eq_some_iff.1 h
      cases h
      have h1 := digits?_length hd
      have h2 := exponentSign_length rest₀
      simp only [List.length_cons]
      omega
    · cases h
      exact Nat.le_refl _

theorem number?_length {bs rest : Bytes} {d : Datum} (h : number? bs = some (d, rest)) :
    rest.length < bs.length := by
  unfold number? at h
  split at h
  · cases h
  · rename_i digits after hd
    split at h
    · cases h
    · split at h
      · cases h
      · rename_i fraction after' hf
        obtain ⟨⟨e, r⟩, he, h⟩ := Option.map_eq_some_iff.1 h
        obtain ⟨_, rfl⟩ := Prod.mk.inj h
        have h1 := minus_length bs
        have h2 := digits?_length hd
        have h3 := fraction?_length hf
        have h4 := exponent?_length he
        omega

theorem after?_length {ws bs rest : Bytes} (h : after? ws bs = some rest) :
    rest.length ≤ bs.length := by
  fun_induction after? ws bs with
  | case1 => cases h; exact Nat.le_refl _
  | case2 | case4 => cases h
  | case3 _ _ _ ih => exact Nat.le_succ_of_le (ih h)

theorem word?_length {letters : String} {d : Datum} {bs rest : Bytes} {t : Token}
    (h : word? letters d bs = some (t, rest)) : rest.length ≤ bs.length := by
  obtain ⟨r, hr, h⟩ := Option.map_eq_some_iff.1 h
  cases h
  exact after?_length hr

/-- A token is not empty. -/
theorem token?_length {bs rest : Bytes} {t : Token} (h : token? bs = some (t, rest)) :
    rest.length < bs.length := by
  unfold token? at h
  split at h
  case h_1 => cases h
  case h_8 =>
    obtain ⟨⟨ps, r⟩, hr, h⟩ := Option.map_eq_some_iff.1 h
    cases h
    exact Nat.lt_succ_of_lt (textParts_length hr)
  case h_9 | h_10 | h_11 => exact Nat.lt_succ_of_le (word?_length h)
  case h_12 =>
    obtain ⟨⟨d, r⟩, hr, h⟩ := Option.map_eq_some_iff.1 h
    cases h
    exact number?_length hr
  all_goals
    cases h
    exact Nat.lt_succ_self _

/-- The tokens of a document, up to the first place where there is none. -/
def tokens (bs : Bytes) : List Token :=
  match bs with
  | [] => []
  | b :: rest =>
      if isSpace b then tokens rest
      else
        match _h : token? (b :: rest) with
        | none => [.bad]
        | some (t, rest') => t :: tokens rest'
termination_by bs.length
decreasing_by
  · exact Nat.lt_succ_self _
  · exact token?_length _h

/-! ### Documents -/

/-- A list or a record that is open, with what it has so far in reverse order. -/
inductive Frame where
  | list (done : List Datum)
  /-- With the name of the field that is being read, if there is one and it is well-formed. -/
  | record (done : List (String × Datum)) (name : Option String)
deriving Repr

/-- A field of a record. -/
def field (name : Option String) (d : Datum) : String × Datum :=
  match name with
  | some s => (s, d)
  | none => ("", .misnamed d)

/-- What the machine looks for. -/
inductive Expecting where
  | value
  /-- A value, or the end of the list that was just opened. -/
  | firstElement
  /-- A comma, or the end of what is open. -/
  | next
  /-- A field, or the end of the record that was just opened. -/
  | firstField
  | field
  | colon
  /-- Nothing: the document is complete. -/
  | nothing (d : Datum)
deriving Repr

/-- What is open, closed with a datum in the place that is being read. -/
def unwind : List Frame → Datum → Datum
  | [], d => d
  | .list done :: frames, d => unwind frames (.list (done.reverse ++ [d]))
  | .record done name :: frames, d => unwind frames (.record (done.reverse ++ [field name d]))

/-- Puts the value `d`, which is complete, in its place. -/
def place (d : Datum) : List Frame → Expecting × List Frame
  | [] => (.nothing d, [])
  | .list done :: frames => (.next, .list (d :: done) :: frames)
  | .record done name :: frames => (.next, .record (field name d :: done) none :: frames)

/-- What one token does at a place where a value may stand. -/
def onValue (t : Token) (frames : List Frame) : Option (Expecting × List Frame) :=
  match t with
  | .openList => some (.firstElement, .list [] :: frames)
  | .openRecord => some (.firstField, .record [] none :: frames)
  | .text s => some (place (s.elim .garbled .text) frames)
  | .scalar d => some (place d frames)
  | _ => none

/-- What one token does; nothing if it does not fit. -/
def onToken (t : Token) : Expecting → List Frame → Option (Expecting × List Frame)
  | .value, frames => onValue t frames
  | .firstElement, frames =>
      match t, frames with
      | .closeList, .list done :: frames => some (place (.list done.reverse) frames)
      | t, frames => onValue t frames
  | .next, frames =>
      match t, frames with
      | .comma, .list done :: frames => some (.value, .list done :: frames)
      | .comma, .record done name :: frames => some (.field, .record done name :: frames)
      | .closeList, .list done :: frames => some (place (.list done.reverse) frames)
      | .closeRecord, .record done _ :: frames => some (place (.record done.reverse) frames)
      | _, _ => none
  | .firstField, frames =>
      match t, frames with
      | .closeRecord, .record done _ :: frames => some (place (.record done.reverse) frames)
      | .text name, .record done _ :: frames => some (.colon, .record done name :: frames)
      | _, _ => none
  | .field, frames =>
      match t, frames with
      | .text name, .record done _ :: frames => some (.colon, .record done name :: frames)
      | _, _ => none
  | .colon, frames =>
      match t with
      | .colon => some (.value, frames)
      | _ => none
  | .nothing _, _ => none

/-- The document that the tokens spell, and whether nothing is left over after it. -/
def build : Expecting → List Frame → List Token → Datum × Bool
  | .nothing d, _, [] => (d, true)
  | .nothing d, _, _ :: _ => (d, false)
  | _, frames, [] => (unwind frames .malformed, true)
  | e, frames, t :: ts =>
      match onToken t e frames with
      | none => (unwind frames .malformed, true)
      | some (e, frames) => build e frames ts

/-- Reads a document, and whether nothing but white space follows it. -/
def read (bs : Bytes) : Datum × Bool := build .value [] (tokens bs)

/-! ### Writing -/

/-- A character of a text, escaped if it has to be. -/
def escape (c : Char) : List Char :=
  let hex (n : Nat) : Char := (Nat.toDigits 16 n).headD '0'
  if c = '"' then ['\\', '"']
  else if c = '\\' then ['\\', '\\']
  else if c.toNat < 32 then ['\\', 'u', '0', '0', hex (c.toNat / 16), hex (c.toNat % 16)]
  else [c]

/-- A text in quotes. -/
def quote (s : String) : String := String.ofList ('"' :: (s.toList.flatMap escape ++ ['"']))

/-- The text of an integer. -/
def writeInt (n : Int) : String := if n < 0 then "-" ++ toString n.natAbs else toString n.natAbs

mutual

/-- The text of a document behind the text `s`. -/
def writeOnto (s : String) : Datum → String
  | .bool true => s ++ "true"
  | .bool false => s ++ "false"
  | .int n => s ++ writeInt n
  | .text t => s ++ quote t
  | .list ds => writeElements (s ++ "[") ds ++ "]"
  | .record fields => writeFields (s ++ "\x7b") fields ++ "\x7d"
  | _ => s ++ "null"

/-- The texts of the elements of a list, with commas between them, behind the text `s`. -/
def writeElements (s : String) : List Datum → String
  | [] => s
  | [d] => writeOnto s d
  | d :: ds => writeElements (writeOnto s d ++ ",") ds

/-- The texts of the fields of a record, with commas between them, behind the text `s`. -/
def writeFields (s : String) : List (String × Datum) → String
  | [] => s
  | [(name, d)] => writeOnto (s ++ quote name ++ ":") d
  | (name, d) :: fields => writeFields (writeOnto (s ++ quote name ++ ":") d ++ ",") fields

end

/-- The text of the document `d`. -/
def write (d : Datum) : String := writeOnto "" d

end ReverseProxy.Json
