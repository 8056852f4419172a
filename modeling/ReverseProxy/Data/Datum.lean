/-!
# Data

A `Datum` is what a document says, whichever notation it is written in: settings and records are
read from it.  A document is read from front to back, and whoever reads it gives up at the first
thing that does not fit; so a document that stops being well-formed at some point is kept up to that
point, where it has a `malformed` datum, and only a reader who gets that far is stopped by it.
-/

namespace ReverseProxy

/-- What a document says. -/
inductive Datum where
  | null
  | bool (b : Bool)
  | int (n : Int)
  /-- A number that is not written as an integer; no record of this library has a place for one. -/
  | real
  | text (s : String)
  | list (elements : List Datum)
  /-- The fields in the order of the document. -/
  | record (fields : List (String × Datum))
  /-- A scalar that can be passed over but not read: a text that is not well-formed, a number
  without a value. -/
  | garbled
  /-- What stands in a record under a name that is not a well-formed text.  The record can be passed
  over but not read. -/
  | misnamed (d : Datum)
  /-- The point where the document stops being well-formed. -/
  | malformed
deriving Repr

/-- Why a datum cannot be read as what is wanted. -/
inductive Misfit where
  /-- The document is not well-formed. -/
  | malformed
  /-- The document says something else. -/
  | unfit
deriving DecidableEq, Repr

namespace Datum

/-- A record of texts, numbers and lists is written down with these. -/
def ofNat (n : Nat) : Datum := .int n

/-- The datum for an optional one. -/
def ofOption : Option Datum → Datum
  | none => .null
  | some d => d

/-- A list of texts. -/
def ofTexts (xs : List String) : Datum := .list (xs.map .text)

mutual

/-- Nothing inside the datum keeps a reader from passing over it. -/
def isSound : Datum → Bool
  | .malformed => false
  | .misnamed d => d.isSound
  | .list elements => areSound elements
  | .record fields => fieldsAreSound fields
  | _ => true

/-- No element of a list keeps a reader from passing over it. -/
def areSound : List Datum → Bool
  | [] => true
  | d :: ds => d.isSound && areSound ds

/-- No field of a record keeps a reader from passing over it. -/
def fieldsAreSound : List (String × Datum) → Bool
  | [] => true
  | (_, d) :: fields => d.isSound && fieldsAreSound fields

end

/-- The misfit of a datum that is not of the wanted kind. -/
def misfit : Datum → Misfit
  | .malformed | .garbled | .misnamed _ => .malformed
  | _ => .unfit

/-- Passes over the datum `d`, if it is well-formed. -/
def skip (d : Datum) : Except Misfit Unit := if d.isSound then .ok () else .error .malformed

/-- Reads a text. -/
def asText : Datum → Except Misfit String
  | .text s => .ok s
  | d => .error d.misfit

/-- Reads a truth value. -/
def asBool : Datum → Except Misfit Bool
  | .bool b => .ok b
  | d => .error d.misfit

/-- Reads a number from zero up to, but not including, `bound`. -/
def asNat (bound : Nat) : Datum → Except Misfit Nat
  | .int n => if 0 ≤ n ∧ n < bound then .ok n.toNat else .error .unfit
  | d => .error d.misfit

/-- Reads a list of what `read` reads. -/
def asList {α : Type} (read : Datum → Except Misfit α) : Datum → Except Misfit (List α)
  | .list elements => elements.mapM read
  | d => .error d.misfit

/-- The value of the first field `name`. -/
def field? (name : String) : Datum → Option Datum
  | .record fields => (fields.find? fun f => f.1 == name).map Prod.snd
  | _ => none

end Datum

/-- How a record of type `α` is read from a datum.  The datum is a record, the fields of which may
come in any order among others that are passed over, or a list of the values in the order of
`names`, possibly cut short.  A field that occurs twice and a missing one that is required are
misfits. -/
structure RecordShape (α : Type) where
  /-- The fields, the required ones first. -/
  names : List String
  /-- How many of the fields are required. -/
  required : Nat
  /-- What the fields are that the datum leaves out. -/
  initial : α
  /-- Takes over one field; a field of another name is passed over. -/
  put : α → String → Datum → Except Misfit α

namespace RecordShape

variable {α : Type}

/-- Takes over the fields in their order, given the names that came before. -/
def putFields (shape : RecordShape α) : α → List String → List (String × Datum) → Except Misfit α
  | r, seen, [] =>
      if (shape.names.take shape.required).all (seen.contains ·) then .ok r else .error .unfit
  | _, _, (_, .misnamed _) :: _ => .error .malformed
  | r, seen, (name, d) :: fields =>
      if shape.names.contains name && seen.contains name then .error .unfit
      else
        match shape.put r name d with
        | .error e => .error e
        | .ok r => shape.putFields r (name :: seen) fields

/-- Takes over the values in the order of `names`. -/
def putElements (shape : RecordShape α) : α → List (String × Datum) → Except Misfit α
  | r, [] => .ok r
  | r, (name, d) :: rest =>
      match shape.put r name d with
      | .error e => .error e
      | .ok r => shape.putElements r rest

/-- Reads a record.  `surplus` says what a list is that goes on after the last field: a misfit, or
nothing if the rest is passed over. -/
def read (shape : RecordShape α) (surplus : Option Misfit) : Datum → Except Misfit α
  | .record fields => shape.putFields shape.initial [] fields
  | .list elements =>
      match shape.putElements shape.initial (shape.names.zip elements) with
      | .error e => .error e
      | .ok r =>
          if elements.length < shape.required then .error .unfit
          else if elements.length ≤ shape.names.length then .ok r
          else match surplus with
            | none => .ok r
            | some e => .error e
  | d => .error d.misfit

end RecordShape

end ReverseProxy
