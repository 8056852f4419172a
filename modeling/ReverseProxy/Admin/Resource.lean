import ReverseProxy.Text.Split
import ReverseProxy.Text.Utf8

/-!
# Resources

What is administered has an address: the path of a request.  The paths are fixed except for one
segment, which names a node or an action in percent-encoded form.
-/

namespace ReverseProxy.Admin

/-- What a path leads to; names are as they stand in the path. -/
inductive Resource where
  | status
  | nodes
  | node (name : String)
  | nodeDown (name : String)
  | nodeUp (name : String)
  | balancers
  | endpointAction (name : String)
deriving DecidableEq, Repr

/-- Replaces each `%` with two hexadecimal digits behind it by the octet that the digits stand
for. -/
def percentDecode : Bytes → Bytes
  | 37 :: a :: b :: rest =>
      match Octet.hexValue? a, Octet.hexValue? b with
      | some x, some y => (x * 16 + y).toUInt8 :: percentDecode rest
      | _, _ => 37 :: percentDecode (a :: b :: rest)
  | b :: rest => b :: percentDecode rest
  | [] => []
termination_by bs => bs.length

/-- The text that a segment of a path stands for, if it is one. -/
def decodeSegment? (segment : String) : Option String :=
  Utf8.decode? (percentDecode (Utf8.encode segment))

namespace Resource

/-- The scheme and the host in front of the path of an absolute address. -/
def dropOrigin (cs : List Char) : List Char :=
  match cs with
  | '/' :: _ => cs
  | _ => match cs.dropWhile (· != ':') with
    | ':' :: '/' :: '/' :: rest => rest.dropWhile fun c => c != '/' && c != '?' && c != '#'
    | _ => []

/-- The path in `address`, without the query and the fragment. -/
def pathOf (address : String) : List Char :=
  (dropOrigin address.toList).takeWhile fun c => c != '?' && c != '#'

/-- What the segments of a path lead to.  A name at the end of a path is not empty. -/
def ofSegments? : List String → Option Resource
  | ["", "admin", "status"] => some .status
  | ["", "admin", "nodes"] => some .nodes
  | ["", "admin", "nodes", name] => if name = "" then none else some (.node name)
  | ["", "admin", "nodes", name, "down"] => some (.nodeDown name)
  | ["", "admin", "nodes", name, "up"] => some (.nodeUp name)
  | ["", "admin", "balancers"] => some .balancers
  | ["", "admin", "endpoint", name] => if name = "" then none else some (.endpointAction name)
  | _ => none

/-- The resource that `address` leads to. -/
def ofAddress? (address : String) : Option Resource :=
  ofSegments? ((Text.pieces '/' (pathOf address)).map String.ofList)

end Resource

end ReverseProxy.Admin
