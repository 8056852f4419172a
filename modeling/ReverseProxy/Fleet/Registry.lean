import ReverseProxy.Fleet.Node

/-!
# The registry

The registry knows the nodes, in the order in which they were first registered, and the balancers.
A node is known by its route; the identity that it gets at its first registration is never given to
another.  The state of a node outlives its registration, for the sake of the requests that are still
under way with it.
-/

namespace ReverseProxy.Fleet

/-- The nodes and the balancers. -/
structure Registry where
  /-- The current versions of the registered nodes. -/
  nodes : List Node := []
  /-- The state of every node that was ever registered, by identity from one on. -/
  states : List NodeState := []
  /-- One record for each name. -/
  balancers : List BalancerRecord := []
  /-- A node was marked down and the health checker has not looked since. -/
  wake : Bool := false
deriving DecidableEq, Repr

namespace Registry

/-- The identity that the next new node gets. -/
def nextId (r : Registry) : Nat := r.states.length + 1

/-! ### Nodes -/

/-- The current version of the node of `route`. -/
def node? (r : Registry) (route : String) : Option Node := r.nodes.find? fun n => n.route == route

/-- The current version of the node with the identity `id`. -/
def nodeById? (r : Registry) (id : Nat) : Option Node := r.nodes.find? fun n => n.id == id

/-- The state of the nodes with a given identity; `{}` for one that was never given. -/
def stateOf (r : Registry) : Nat → NodeState
  | 0 => {}
  | i + 1 => r.states.getD i {}

/-- Changes the state of the nodes with the identity `id` by `f`. -/
def updateState (r : Registry) (id : Nat) (f : NodeState → NodeState) : Registry :=
  match id with
  | 0 => r
  | i + 1 => { r with states := r.states.modify i f }

/-- The node `n` is given requests. -/
def isUp (r : Registry) (n : Node) : Bool := (r.stateOf n.id).status == .up

/-- How much the node has been chosen, relative to its load. -/
def pressure (r : Registry) (n : Node) : Nat := (r.stateOf n.id).pressure n.record.load

/-! ### Balancers -/

/-- The balancer `name`. -/
def balancer? (r : Registry) (name : String) : Option BalancerRecord :=
  r.balancers.find? fun b => b.name == name

/-- The balancers in the order of their names. -/
def sortedBalancers (r : Registry) : List BalancerRecord :=
  r.balancers.mergeSort fun a b => decide (a.name ≤ b.name)

/-- Adds the balancer `b`, or replaces the one of its name. -/
def putBalancer (r : Registry) (b : BalancerRecord) : Registry :=
  if r.balancers.any fun x => x.name == b.name then
    { r with balancers := r.balancers.map fun x => if x.name = b.name then b else x }
  else { r with balancers := r.balancers ++ [b] }

/-- Adds a balancer `name` with the default policy, unless there is one of the name. -/
def ensureBalancer (r : Registry) (name : String) : Registry :=
  if (r.balancer? name).isSome then r else r.putBalancer (.named name)

/-! ### Membership -/

/-- Registers a node with `record`, or replaces the version of the node of its route, which keeps
its identity, its place and its state. -/
def putNode (r : Registry) (record : NodeRecord) : Node × Registry :=
  let r := r.ensureBalancer record.balancer
  match r.node? record.route with
  | some old =>
      ({ old with record },
        { r with
          nodes := r.nodes.map fun n => if n.route = record.route then { n with record } else n })
  | none =>
      let node : Node := { id := r.nextId, record }
      (node, { r with nodes := r.nodes ++ [node], states := r.states ++ [{}] })

/-- Ends the registration of the node of `route`. -/
def removeNode (r : Registry) (route : String) : Option (Node × Registry) :=
  (r.node? route).map fun n => (n, { r with nodes := r.nodes.filter fun n => n.route != route })

/-- The registry of the listed `balancers` and `nodes`. -/
def ofRecords (balancers : List BalancerRecord) (nodes : List NodeRecord) : Registry :=
  nodes.foldl (fun r n => (r.putNode n).2) (balancers.foldl putBalancer {})

/-- The node of the route of `record` is registered with exactly this record. -/
def hasRecord (r : Registry) (record : NodeRecord) : Bool :=
  (r.node? record.route).any fun n => n.record == record

/-- Registers a node unless it is registered with exactly this `record`. -/
def applyNode (r : Registry) (record : NodeRecord) : Registry :=
  if r.hasRecord record then r else (r.putNode record).2

/-- Adds or replaces a balancer unless `b` is registered exactly so. -/
def applyBalancer (r : Registry) (b : BalancerRecord) : Registry :=
  if r.balancer? b.name = some b then r else r.putBalancer b

/-- Ends the registration of the nodes of several routes, and answers them. -/
def removeNodes (r : Registry) : List String → List Node × Registry
  | [] => ([], r)
  | route :: routes =>
      match r.removeNode route with
      | none => r.removeNodes routes
      | some (n, r) => let (ns, r) := r.removeNodes routes; (n :: ns, r)

/-- Brings the registry in line with the listed `balancers` and `nodes`, and answers the nodes whose
registration it ended.  Balancers that are not listed stay. -/
def reconcile (r : Registry) (balancers : List BalancerRecord) (nodes : List NodeRecord) :
    List Node × Registry :=
  let r := nodes.foldl applyNode (balancers.foldl applyBalancer r)
  let routes := nodes.map NodeRecord.route
  r.removeNodes ((r.nodes.map Node.route).filter fun route => !routes.contains route)

/-! ### Status -/

/-- Marks the node of any of its versions `n` down, and answers whether that changed its status.  If
so, the health checker is woken. -/
def markDown (r : Registry) (n : Node) : Bool × Registry :=
  if r.isUp n then (true, { r.updateState n.id (·.move .up .down) with wake := true })
  else (false, r)

/-- Marks the node of any of its versions `n` up, and answers whether that changed its status. -/
def markUp (r : Registry) (n : Node) : Bool × Registry :=
  if r.isUp n then (false, r) else (true, r.updateState n.id (·.move .down .up))

/-- Counts an election of a node. -/
def elect (r : Registry) (n : Node) : Registry := r.updateState n.id NodeState.elect

/-- Begins a new count of elections of a node, and answers whether the last one stayed at zero. -/
def roll (r : Registry) (n : Node) : Bool × Registry :=
  ((r.stateOf n.id).isStalled, r.updateState n.id NodeState.roll)

end Registry

end ReverseProxy.Fleet
