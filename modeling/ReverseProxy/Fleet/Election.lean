import ReverseProxy.Fleet.Registry
import ReverseProxy.Fleet.Session

/-!
# Elections

A request goes to the node that its session is bound to, and otherwise to the node that has been
chosen least, as measured by its load, since the last health cycle.
-/

namespace ReverseProxy.Fleet

/-- Why there is no node for a request. -/
inductive SelectionFailure where
  /-- No node is up. -/
  | noNode
  /-- The node of the session, which has this `route`, is down, and its balancer allows no other. -/
  | stickyNodeDown (route : String)
deriving DecidableEq, Repr

/-- The wording of a failure to find a node. -/
def SelectionFailure.message : SelectionFailure → String
  | .noNode => "no node available"
  | .stickyNodeDown route => "sticky node '" ++ route ++ "' unavailable"

namespace Registry

/-- The first of those elements whose `measure` is least. -/
def firstLeast {α : Type} (measure : α → Nat) : List α → Option α
  | [] => none
  | x :: xs =>
      match firstLeast measure xs with
      | none => some x
      | some y => if measure x ≤ measure y then some x else some y

/-- The node of least `pressure` among those that are up; of several the first. -/
def leastPressed? (r : Registry) : Option Node := firstLeast r.pressure (r.nodes.filter r.isUp)

/-- Elects the node that `leastPressed?` finds. -/
def select (r : Registry) : Option Node × Registry :=
  match r.leastPressed? with
  | none => (none, r)
  | some n => (some n, r.elect n)

/-- Elects the node that the session `value` names, if it is registered and up. -/
def selectSticky (r : Registry) (value : String) : Option Node × Registry :=
  match (routeOfSession? value).bind r.node? with
  | none => (none, r)
  | some n => if r.isUp n then (some n, r.elect n) else (none, r)

/-- The node that the balancer `b` binds the request to. -/
def boundNode? (r : Registry) (request : Message.RequestHead) (b : BalancerRecord) :
    Option Node := do
  let value ← b.sessionValue? request
  let route ← routeOfSession? value
  let node ← r.node? route
  if node.record.balancer = b.name then some node else none

/-- What the balancer `b` decides about a request: its node, or that there is none.  A balancer to
which the request is not bound decides nothing, nor does one whose node is down if it allows
another. -/
def decision? (r : Registry) (request : Message.RequestHead) (b : BalancerRecord) :
    Option (Except SelectionFailure Node) :=
  match r.boundNode? request b with
  | none => none
  | some n =>
      if r.isUp n then some (.ok n)
      else if b.force then some (.error (.stickyNodeDown n.route))
      else none

/-- Elects the node for a request, asking the balancers in the order of `enumeration`. -/
def resolveAmong (enumeration : List BalancerRecord) (r : Registry)
    (request : Message.RequestHead) :
    Except SelectionFailure Node × Registry :=
  match enumeration.findSome? (r.decision? request) with
  | some (.ok n) => (.ok n, r.elect n)
  | some (.error e) => (.error e, r)
  | none =>
      match r.select with
      | (some n, r) => (.ok n, r)
      | (none, r) => (.error .noNode, r)

/-- Elects the node for a request. -/
def resolve (r : Registry) (request : Message.RequestHead) :
    Except SelectionFailure Node × Registry :=
  r.resolveAmong r.balancers request

end Registry

end ReverseProxy.Fleet
