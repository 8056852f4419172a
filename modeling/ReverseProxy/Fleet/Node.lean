import ReverseProxy.Fleet.Record

/-!
# Nodes

A `Node` is one version of a registered backend: a record under an identity.  An update makes a new
version under the same identity, and a request that is under way goes on with the version it has.
What changes while requests are served, the `NodeState`, belongs to the identity and is shared by
all versions.
-/

namespace ReverseProxy.Fleet

/-- Whether a node is given requests. -/
inductive Status where
  | up
  | down
deriving DecidableEq, Repr

/-- How a node is reached. -/
inductive Protocol where
  | plain
  | secure
deriving DecidableEq, Repr

/-- What changes about a node while requests are served. -/
structure NodeState where
  status : Status := .up
  /-- The number of elections of the node. -/
  elected : Nat := 0
  /-- The count `elected` at the last health cycle. -/
  previousElected : Nat := 0
deriving DecidableEq, Repr

/-- A version of a registered node. -/
structure Node where
  id : Nat
  record : NodeRecord
deriving DecidableEq, Repr

namespace Node

/-- The name under which sessions are bound to the node. -/
def route (n : Node) : String := n.record.route

/-- Where the node is reached. -/
def address (n : Node) : String := n.record.host ++ ":" ++ toString n.record.port

/-- How the node is reached. -/
def protocol (n : Node) : Protocol := if n.record.secure then .secure else .plain

/-- The node with its address. -/
def display (n : Node) : String := n.route ++ "@" ++ n.address

end Node

namespace NodeState

/-- The largest number of a 64-bit word, beyond which counts do not grow. -/
def ceiling : Nat := 18446744073709551615

/-- How much a node has been elected since the last health cycle, in thousandths of its `load`.  A
node without load comes last. -/
def pressure (s : NodeState) (load : Nat) : Nat :=
  if load = 0 then ceiling else min ((s.elected - s.previousElected) * 1000) ceiling / load

/-- The node has been chosen. -/
def elect (s : NodeState) : NodeState := { s with elected := s.elected + 1 }

/-- Begins a new count of elections. -/
def roll (s : NodeState) : NodeState := { s with previousElected := s.elected }

/-- The node has not been chosen since the last health cycle. -/
def isStalled (s : NodeState) : Bool := s.elected == s.previousElected

/-- Moves a node from the status `source` to `target`; a node in another status stays as it is. -/
def move (s : NodeState) (source target : Status) : NodeState :=
  if s.status = source then { s with status := target } else s

end NodeState

end ReverseProxy.Fleet
