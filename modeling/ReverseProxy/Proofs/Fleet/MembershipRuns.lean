import ReverseProxy.Proofs.Fleet.IdleConnections
import ReverseProxy.Proofs.Fleet.RegistryRuns

/-!
# Runs of the membership

Nodes come, move and go, connections to them wait and are taken, and all the while nodes are elected
and marked up or down.  An `Action` is any of that, and actions follow one another in any order.
What they do to the registry is made of the changes of which everything is made that is done to a
registry (`Membership.changes_run`), so that the registry is consistent whatever has happened
(`Membership.consistent_registry_run`).  Of the connections nothing is said.
-/

namespace ReverseProxy.Fleet.Membership

/-- What happens to a membership.  In `take` and `recycle` the version `n` of a node may be the
registered one, an outdated one or one of a node that was removed. -/
inductive Action where
  | putNode (record : NodeRecord)
  | removeNode (route : String)
  | reconcile (balancers : List BalancerRecord) (nodes : List NodeRecord)
  /-- Something is done with the registry alone. -/
  | onRegistry (action : Registry.Action)
  /-- The health checker takes notice that it was woken. -/
  | heed
  | take (isOpen : LinkId → Bool) (n : Node)
  | recycle (isOpen : LinkId → Bool) (n : Node) (c : Connection)
  | close (id : Nat)
  | closeAll

/-- The membership after an action. -/
def perform (m : Membership) : Action → Membership
  | .putNode record => (m.putNode record).2
  | .removeNode route => ((m.removeNode route).map Prod.snd).getD m
  | .reconcile balancers nodes => m.reconcile balancers nodes
  | .onRegistry action => { m with registry := m.registry.perform action }
  | .heed => { m with registry := { m.registry with wake := false } }
  | .take isOpen n => { m with idle := (m.idle.take isOpen n).2 }
  | .recycle isOpen n c => { m with idle := m.idle.recycle isOpen n c }
  | .close id => { m with idle := (m.idle.close id).2 }
  | .closeAll => { m with idle := m.idle.closeAll.2 }

/-- The membership after `actions`, one after another. -/
def run (m : Membership) (actions : List Action) : Membership := actions.foldl perform m

/-- The membership at first: the listed balancers and nodes, and no connection that waits. -/
def start (balancers : List BalancerRecord) (nodes : List NodeRecord) : Membership :=
  { registry := .ofRecords balancers nodes }

/-- On the registry, an action is made of changes of registries. -/
theorem changes_perform (m : Membership) (a : Action) :
    Relation.ReflTransGen Registry.Change m.registry (m.perform a).registry := by
  cases a with
  | putNode record => exact .single (.putNode record)
  | removeNode route =>
    rcases hr : m.registry.removeNode route with _ | ⟨n, registry⟩
    · simp only [perform, removeNode, hr]
      exact .refl
    · simp only [perform, removeNode, hr]
      exact .single (.removeNode hr)
  | reconcile balancers nodes =>
    rw [perform, registry_reconcile]
    exact (Registry.changes_foldl Registry.changes_applyNode nodes _).trans
      (Registry.changes_reconcile ..)
  | onRegistry action => exact Registry.changes_perform m.registry action
  | heed => exact .single (.updateState 0 id false fun _ h => h)
  | take | recycle | close | closeAll => exact .refl

theorem changes_run (actions : List Action) (m : Membership) :
    Relation.ReflTransGen Registry.Change m.registry (m.run actions).registry := by
  induction actions generalizing m with
  | nil => exact .refl
  | cons a actions ih => exact (changes_perform m a).trans (ih (m.perform a))

/-- The registry of a membership is `Consistent` after any `actions`. -/
theorem consistent_registry_run (balancers : List BalancerRecord) (nodes : List NodeRecord)
    (actions : List Action) :
    ((start balancers nodes).run actions).registry.Consistent :=
  Registry.consistent_empty.changes ((Registry.changes_ofRecords balancers nodes).trans
    (changes_run actions (start balancers nodes)))

end ReverseProxy.Fleet.Membership
