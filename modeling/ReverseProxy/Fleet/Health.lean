import ReverseProxy.Fleet.Registry

/-!
# Health cycles

Now and then, and whenever a node was marked down, the health checker looks at the nodes: those that
are down are tried and marked up if they can be reached, and for those that are up a new count of
elections begins.
-/

namespace ReverseProxy.Fleet

/-- What a health cycle found. -/
structure CycleReport where
  /-- The routes of the nodes that were marked up. -/
  restored : List String := []
  /-- The routes of the nodes that were up and had not been chosen since the last cycle. -/
  stalled : List String := []
deriving DecidableEq, Repr

/-- Tries to `connect` to the address of the node. -/
def Node.probe {m : Type → Type} (connect : String → m Bool) (n : Node) : m Bool :=
  connect n.address

namespace Registry

section

variable {m : Type → Type} [Monad m]

/-- Looks at the node `n`.  To `probe` it may take some doing, and only a node that is down is
probed. -/
def checkNode (probe : Node → m Bool) (report : CycleReport) (r : Registry) (n : Node) :
    m (CycleReport × Registry) := do
  if r.isUp n then
    let (stalled, r) := r.roll n
    return (if stalled then { report with stalled := report.stalled ++ [n.route] } else report, r)
  else if ← probe n then
    let (changed, r) := r.markUp n
    return (if changed then { report with restored := report.restored ++ [n.route] } else report, r)
  else return (report, r)

/-- Looks at nodes in their order, adding to `report`. -/
def checkNodes (probe : Node → m Bool) : CycleReport → Registry → List Node →
    m (CycleReport × Registry)
  | report, r, [] => return (report, r)
  | report, r, n :: ns => do
      let (report, r) ← r.checkNode probe report n
      r.checkNodes probe report ns

/-- Looks at all nodes. -/
def checkAll (probe : Node → m Bool) (r : Registry) : m (CycleReport × Registry) :=
  r.checkNodes probe {} r.nodes

end

/-- A health cycle, given which of the nodes are `reachable`. -/
def checkCycle (reachable : Node → Bool) (r : Registry) : CycleReport × Registry :=
  Id.run (r.checkAll fun n => pure (reachable n))

/-- What the checker does before it waits again: if `wake` is set it looks once, however often it
was woken. -/
def checkIfWoken (reachable : Node → Bool) (r : Registry) : Registry :=
  if r.wake then ({ r with wake := false }.checkCycle reachable).2 else r

end Registry

end ReverseProxy.Fleet
