import ReverseProxy.Fleet.IdlePool
import ReverseProxy.Fleet.Registry

/-!
# Membership

Nodes come and go, and move, while connections to them are waiting.  Every change of the registry
that leaves a connection without a node to which it leads closes it.
-/

namespace ReverseProxy.Fleet

/-- The registered nodes and the connections that wait for them. -/
structure Membership where
  registry : Registry := {}
  idle : IdlePool := {}
deriving DecidableEq, Repr

namespace Membership

/-- The `record` leads to another place than the node `n` does. -/
def isElsewhere (n : Node) (record : NodeRecord) : Bool :=
  n.record.host != record.host || n.record.port != record.port || n.record.secure != record.secure

/-- Registers a node with `record` or replaces its version.  The connections that wait for a node
that moves are closed. -/
def putNode (m : Membership) (record : NodeRecord) : Node × Membership :=
  let moves := (m.registry.node? record.route).any (isElsewhere · record)
  let (node, registry) := m.registry.putNode record
  (node, { registry, idle := if moves then (m.idle.close node.id).2 else m.idle })

/-- Ends the registration of the node of `route`, and closes the connections that wait for it. -/
def removeNode (m : Membership) (route : String) : Option (Node × Membership) :=
  (m.registry.removeNode route).map fun (node, registry) =>
    (node, { registry, idle := (m.idle.close node.id).2 })

/-- Registers a node unless it is registered with exactly this `record`. -/
def applyNode (m : Membership) (record : NodeRecord) : Membership :=
  if m.registry.hasRecord record then m else (m.putNode record).2

/-- Brings the membership in line with the listed `balancers` and `nodes`. -/
def reconcile (m : Membership) (balancers : List BalancerRecord) (nodes : List NodeRecord) :
    Membership :=
  let m := nodes.foldl applyNode m
  let (removed, registry) := m.registry.reconcile balancers nodes
  { registry, idle := removed.foldl (fun idle n => (idle.close n.id).2) m.idle }

end Membership

end ReverseProxy.Fleet
