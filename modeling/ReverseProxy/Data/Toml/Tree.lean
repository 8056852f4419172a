import ReverseProxy.Data.Datum

/-!
# The tables of TOML

The lines of a TOML document build up a tree of tables.  A table may come about in three ways
(`Origin`), and what may be added to it later depends on the way; that is how a document is kept
from saying the same thing twice.
-/

namespace ReverseProxy.Toml

/-- How a table came about. -/
inductive Origin where
  /-- By a header of its own. -/
  | header
  /-- By a header of a table below it. -/
  | implied
  /-- By the key of a value below it. -/
  | dotted
deriving DecidableEq, Repr

/-- What stands under a key. -/
inductive Entry where
  | value (d : Datum)
  | table (origin : Origin) (fields : List (String × Entry))
  /-- Tables with the same header, each an element of a list; the last one comes first. -/
  | tables (elements : List (List (String × Entry)))

/-- The keys of a table and what stands under them. -/
abbrev Fields := List (String × Entry)

namespace Fields

/-- The entry under `key`. -/
def find? (fields : Fields) (key : String) : Option Entry :=
  (List.find? (fun f => f.1 == key) fields).map Prod.snd

/-- Puts the entry `e` under `key`. -/
def put (fields : Fields) (key : String) (e : Entry) : Fields :=
  if fields.any fun f => f.1 == key then fields.map fun f => if f.1 = key then (key, e) else f
  else fields ++ [(key, e)]

/-- Changes the table at a path, making the tables on the way that are not there.  `byKey` says that
the path is part of the key of a value; then it does not lead through tables that have a header of
their own. -/
def change (byKey : Bool) (f : Origin → Fields → Option Fields) :
    Origin → Fields → List String → Option Fields
  | origin, fields, [] => f origin fields
  | _, fields, key :: path =>
      match fields.find? key with
      | none =>
          let origin := if byKey then Origin.dotted else Origin.implied
          (change byKey f origin [] path).map fun below => fields.put key (.table origin below)
      | some (.value _) => none
      | some (.tables elements) =>
          match elements with
          | [] => none
          | last :: others =>
              (change byKey f .header last path).map fun below =>
                fields.put key (.tables (below :: others))
      | some (.table origin below) =>
          if byKey && origin == .header then none
          else (change byKey f origin below path).map fun below =>
            fields.put key (.table origin below)

/-- Puts the value `d` under `key`, at a path that may lead through tables. -/
def putValue (fields : Fields) (path : List String) (key : String) (d : Datum) : Option Fields :=
  change true (fun origin fields =>
    if (origin == .dotted) == path.isEmpty then none
    else if (fields.find? key).isSome then none
    else some (fields.put key (.value d))) .header fields path

/-- Puts values under their keys, each given by its path and its last part. -/
def putValues (fields : Fields) : List ((List String × String) × Datum) → Option Fields
  | [] => some fields
  | ((path, key), d) :: rest =>
      (fields.putValue path key d).bind fun fields => putValues fields rest

/-- Puts in the table of a header, at `path` and under `key`, with its `values`. -/
def putTable (fields : Fields) (path : List String) (key : String)
    (values : List ((List String × String) × Datum)) : Option Fields :=
  change false (fun _ fields =>
    let start : Option Fields := match fields.find? key with
      | none => some []
      | some (.table .implied below) => some below
      | some _ => none
    start.bind fun start => (putValues start values).map fun below =>
      fields.put key (.table .header below))
    .header fields path

/-- Puts in the next of the tables of a header, at `path` and under `key`, with its `values`. -/
def putElement (fields : Fields) (path : List String) (key : String)
    (values : List ((List String × String) × Datum)) : Option Fields :=
  change false (fun _ fields =>
    let start : Option (List Fields) := match fields.find? key with
      | none => some []
      | some (.tables elements) => some elements
      | some _ => none
    start.bind fun elements =>
      (putValues [] values).map fun below => fields.put key (.tables (below :: elements)))
    .header fields path

end Fields

mutual

/-- What an entry says. -/
def Entry.toDatum : Entry → Datum
  | .value d => d
  | .table _ fields => .record (fieldsToData fields)
  | .tables elements => .list (elementsToData elements).reverse

/-- What the fields of a table say. -/
def fieldsToData : List (String × Entry) → List (String × Datum)
  | [] => []
  | (key, e) :: fields => (key, e.toDatum) :: fieldsToData fields

/-- What the elements of a list of tables say. -/
def elementsToData : List (List (String × Entry)) → List Datum
  | [] => []
  | fields :: elements => .record (fieldsToData fields) :: elementsToData elements

end

end ReverseProxy.Toml
