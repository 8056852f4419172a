import Mathlib.Data.List.Basic
import ReverseProxy.Proofs.Fleet.Resolution

/-!
# Versions that are kept

Exchanges and the health checker keep versions of nodes for as long as they like.  Meanwhile the
nodes are updated, removed and registered again.  What is done through a version that was once
handed out (`Handouts`) is done to the node of its identity, if that is still registered, and
otherwise to none: an identity is not given twice (`Registry.Knows`).
-/

namespace ReverseProxy.Fleet

/-- What is done with a node through a version of it. -/
inductive NodeAction where
  | markDown
  | markUp
  | elect
  | roll
deriving DecidableEq, Repr

namespace NodeAction

/-- The answer of the action through the version `n`, where there is one, and the registry
afterwards. -/
def through (a : NodeAction) (n : Node) (r : Registry) : Option Bool × Registry :=
  match a with
  | .markDown => (some (r.markDown n).1, (r.markDown n).2)
  | .markUp => (some (r.markUp n).1, (r.markUp n).2)
  | .elect => (none, r.elect n)
  | .roll => (some (r.roll n).1, (r.roll n).2)

/-- The effect of the action on the state of a node. -/
def effect : NodeAction → NodeState → NodeState
  | .markDown => (·.move .up .down)
  | .markUp => (·.move .down .up)
  | .elect => NodeState.elect
  | .roll => NodeState.roll

/-- The status that a mark gives to a node. -/
def target? : NodeAction → Option Status
  | .markDown => some .down
  | .markUp => some .up
  | .elect | .roll => none

end NodeAction

namespace Registry

/-- The version that an action of registries works through, if any. -/
def Action.version? : Action → Option Node
  | .markDown n | .markUp n | .elect n | .roll n => some n
  | _ => none

/-- The versions of nodes that an action answers with. -/
def answers (r : Registry) : Action → List Node
  | .putNode record => [(r.putNode record).1]
  | .removeNode route => ((r.removeNode route).map Prod.fst).toList
  | .reconcile balancers nodes => (r.reconcile balancers nodes).1
  | .select => r.select.1.toList
  | .selectSticky value => (r.selectSticky value).1.toList
  | .resolve enumeration request => (r.resolveAmong enumeration request).1.toOption.toList
  | .putBalancer _ | .markDown _ | .markUp _ | .elect _ | .roll _ => []

end Registry

/-- A registry, and the versions of its nodes that were handed out. -/
structure Handouts where
  registry : Registry := {}
  versions : List Node := []

/-- What is done with a registry by those who have no versions but those that were handed out. -/
inductive Action where
  /-- An action that takes no version. -/
  | onRegistry (action : Registry.Action) (h : action.version? = none)
  /-- The registered versions are looked up. -/
  | look
  /-- Something is done through the version that was handed out as number `i`. -/
  | onVersion (i : Nat) (a : NodeAction)

namespace Handouts

/-- The registry and the versions after an action. -/
def perform (s : Handouts) : Action → Handouts
  | .onRegistry action _ =>
      { registry := s.registry.perform action, versions := s.versions ++ s.registry.answers action }
  | .look => { s with versions := s.versions ++ s.registry.nodes }
  | .onVersion i a =>
      match s.versions[i]? with
      | none => s
      | some n => { s with registry := (a.through n s.registry).2 }

/-- The registry and the versions after `actions`, one after another. -/
def run (s : Handouts) (actions : List Action) : Handouts := actions.foldl perform s

/-- The status that an action gives to the identity `id`, if it is a mark and answers that it
changed the status. -/
def mark? (s : Handouts) (id : Nat) : Action → Option Status
  | .onVersion i a => do
      let n ← s.versions[i]?
      if n.id = id ∧ (a.through n s.registry).1 = some true then a.target? else none
  | _ => none

/-- The statuses that `actions` give to the identity `id`, one after another. -/
def marks (id : Nat) (s : Handouts) : List Action → List Status
  | [] => []
  | a :: actions => (s.mark? id a).toList ++ (s.perform a).marks id actions

end Handouts

namespace Registry

variable {r r' : Registry} {n : Node}

/-! ### Through a version -/

/-- Of the version `n`, only its identity matters to an action. -/
theorem through_eq_of_id_eq {m : Node} (h : m.id = n.id) (a : NodeAction) (r : Registry) :
    a.through n r = a.through m r := by
  cases a with
  | markDown => rw [NodeAction.through, NodeAction.through, markDown, markDown, isUp, isUp, h]
  | markUp => rw [NodeAction.through, NodeAction.through, markUp, markUp, isUp, isUp, h]
  | elect => rw [NodeAction.through, NodeAction.through, elect, elect, h]
  | roll => rw [NodeAction.through, NodeAction.through, roll, roll, h]

/-- A state that stays as it is makes no difference. -/
theorem updateState_eq_self {id : Nat} {f : NodeState → NodeState}
    (hf : f (r.stateOf id) = r.stateOf id) :
    r.updateState id f = r := by
  cases id with
  | zero => rfl
  | succ i =>
    by_cases hi : i < r.states.length
    · have hstate : r.stateOf (i + 1) = r.states[i] := by simp [stateOf, hi]
      have hmodify : r.states.modify i f = r.states := by
        rw [List.modify_eq_set_getElem?, List.getElem?_eq_getElem hi]
        show r.states.set i (f r.states[i]) = r.states
        rw [← hstate, hf, hstate, List.set_getElem_self]
      rw [updateState, hmodify]
    · exact updateState_of_le (.inr (Nat.succ_le_succ (Nat.le_of_not_lt hi))) f

/-- An action through `n` changes the state of `n.id` by its `effect`, and nothing else but perhaps
`wake`. -/
theorem exists_through_eq (a : NodeAction) (n : Node) (r : Registry) :
    ∃ wake, (a.through n r).2 = { r.updateState n.id a.effect with wake } := by
  cases a with
  | markDown =>
    by_cases hup : r.isUp n = true
    · exact ⟨true, by simp only [NodeAction.through, markDown, hup, if_true, NodeAction.effect]⟩
    · refine ⟨r.wake, ?_⟩
      have hdown : (r.stateOf n.id).status ≠ .up := fun h => hup (beq_iff_eq.2 h)
      have hfix : NodeAction.markDown.effect (r.stateOf n.id) = r.stateOf n.id := if_neg hdown
      rw [updateState_eq_self hfix]
      simp only [NodeAction.through, markDown, hup, if_false, Bool.false_eq_true]
  | markUp =>
    refine ⟨r.wake, ?_⟩
    by_cases hup : r.isUp n = true
    · have hstatus : (r.stateOf n.id).status = .up := beq_iff_eq.1 hup
      have hfix : NodeAction.markUp.effect (r.stateOf n.id) = r.stateOf n.id :=
        if_neg (by rw [hstatus]; decide)
      rw [updateState_eq_self hfix]
      simp only [NodeAction.through, markUp, hup, if_true]
    · simp only [NodeAction.through, markUp, hup, if_false, Bool.false_eq_true, NodeAction.effect]
      rw [← wake_updateState n.id]
  | elect => exact ⟨_, rfl⟩
  | roll => exact ⟨_, rfl⟩

theorem nodes_through (a : NodeAction) (n : Node) (r : Registry) :
    (a.through n r).2.nodes = r.nodes ∧ (a.through n r).2.nextId = r.nextId ∧
      (a.through n r).2.balancers = r.balancers := by
  obtain ⟨wake, heq⟩ := exists_through_eq a n r
  obtain ⟨hnodes, hnext⟩ := nodes_updateState (r := r) n.id a.effect
  rw [heq]
  exact ⟨hnodes, hnext, balancers_updateState n.id a.effect⟩

theorem stateOf_through_of_ne {id : Nat} (h : id ≠ n.id) (a : NodeAction) (r : Registry) :
    (a.through n r).2.stateOf id = r.stateOf id := by
  obtain ⟨wake, heq⟩ := exists_through_eq a n r
  have hwake : stateOf { r.updateState n.id a.effect with wake } id =
      (r.updateState n.id a.effect).stateOf id := by
    cases id <;> rfl
  rw [heq, hwake, stateOf_updateState_of_ne h]

/-! ### Versions that are known -/

/-- The identity of `n` was given, and whoever is registered under it has the route of `n`. -/
structure Knows (r : Registry) (n : Node) : Prop where
  id_pos : 0 < n.id
  id_lt : n.id < r.nextId
  route_eq : ∀ m ∈ r.nodes, m.id = n.id → m.route = n.route

theorem stateOf_through_self (h : r.Knows n) (a : NodeAction) :
    (a.through n r).2.stateOf n.id = a.effect (r.stateOf n.id) := by
  obtain ⟨wake, heq⟩ := exists_through_eq a n r
  have hwake : stateOf { r.updateState n.id a.effect with wake } n.id =
      (r.updateState n.id a.effect).stateOf n.id := by
    cases n.id <;> rfl
  rw [heq, hwake, stateOf_updateState_self h.id_pos h.id_lt]

theorem Consistent.knows (h : r.Consistent) (hn : n ∈ r.nodes) : r.Knows n where
  id_pos := h.id_pos n hn
  id_lt := h.id_lt n hn
  route_eq m hm hid := congrArg Node.route (h.wellFormed.id_inj m hm n hn hid)

theorem Knows.of_inherits (h : r.Knows n) (hr : Inherits r r') : r'.Knows n where
  id_pos := h.id_pos
  id_lt := Nat.lt_of_lt_of_le h.id_lt hr.nextId_le
  route_eq m' hm' hid := by
    obtain ⟨m, hm, hmid, hroute⟩ := hr.of_lt m' hm' (hid ▸ h.id_lt)
    exact hroute ▸ h.route_eq m hm (hmid.trans hid)

theorem mem_of_select (h : r.select.1 = some n) : n ∈ r.nodes := by
  unfold select at h
  split at h
  · cases h
  · rename_i hleast
    cases h
    exact (leastPressed?_eq_some_iff.1 hleast).mem

theorem mem_of_selectSticky {value : String} (h : (r.selectSticky value).1 = some n) :
    n ∈ r.nodes := by
  unfold selectSticky at h
  split at h
  · cases h
  · rename_i hfind
    obtain ⟨route, -, hnode⟩ := Option.bind_eq_some_iff.1 hfind
    split at h
    · cases h
      exact (mem_of_node?_eq_some hnode).1
    · cases h

theorem mem_of_boundNode? {request : Message.RequestHead} {b : BalancerRecord}
    (h : r.boundNode? request b = some n) :
    n ∈ r.nodes := by
  simp only [boundNode?, Option.bind_eq_bind, Option.bind_eq_some_iff] at h
  obtain ⟨_, _, _, _, n', hfind, hbelongs⟩ := h
  split at hbelongs
  · cases hbelongs
    exact (mem_of_node?_eq_some hfind).1
  · cases hbelongs

theorem mem_of_resolveAmong {enumeration : List BalancerRecord} {request : Message.RequestHead}
    (h : (r.resolveAmong enumeration request).1 = .ok n) : n ∈ r.nodes := by
  unfold resolveAmong at h
  split at h
  · rename_i n' hdecision
    cases h
    obtain ⟨b, -, hb⟩ := List.exists_of_findSome?_eq_some hdecision
    unfold decision? at hb
    split at hb
    · cases hb
    · rename_i hbound
      split at hb
      · cases hb
        exact mem_of_boundNode? hbound
      · split at hb <;> cases hb
  · cases h
  · split at h
    · rename_i hselect
      cases h
      exact mem_of_select (by rw [hselect])
    · cases h

theorem mem_nodes_of_mem_removeNodes {routes : List String} (h : n ∈ (r.removeNodes routes).1) :
    n ∈ r.nodes := by
  induction routes generalizing r with
  | nil => cases h
  | cons route routes ih =>
    unfold removeNodes at h
    split at h
    · exact ih h
    · rename_i n' r' hr
      rcases List.mem_cons.1 h with rfl | hmem
      · exact (removeNode_eq hr).1
      · exact mem_of_mem_removeNode hr (ih hmem)

theorem putNode_mem_nodes (r : Registry) (record : NodeRecord) :
    (r.putNode record).1 ∈ (r.putNode record).2.nodes := by
  cases hfind : r.node? record.route with
  | some old =>
    obtain ⟨hnode, hnodes, -⟩ := putNode_of_some hfind
    obtain ⟨hmem, hroute⟩ := mem_of_node?_eq_some hfind
    rw [hnode, hnodes, ← Node.follow_of_eq hroute]
    exact List.mem_map_of_mem hmem
  | none =>
    obtain ⟨hnode, hnodes, -⟩ := putNode_of_none hfind
    rw [hnode, hnodes]
    exact List.mem_append_right _ (List.mem_singleton.2 rfl)

/-- A version that an `action` answers with is registered at some moment of it. -/
theorem exists_mem_of_mem_answers {action : Action} (h : n ∈ r.answers action) :
    ∃ r₁, Relation.ReflTransGen Change r r₁ ∧ n ∈ r₁.nodes ∧
    Relation.ReflTransGen Change r₁ (r.perform action) := by
  cases action with
  | putNode record =>
    rw [List.mem_singleton.1 h]
    exact ⟨_, changes_perform r (.putNode record), putNode_mem_nodes r record, .refl⟩
  | removeNode route =>
    obtain ⟨⟨n', r'⟩, hr, rfl⟩ := Option.map_eq_some_iff.1 (Option.mem_toList.1 h)
    exact ⟨r, .refl, (removeNode_eq hr).1, changes_perform r (.removeNode route)⟩
  | reconcile balancers nodes =>
    exact ⟨_, (changes_foldl changes_applyBalancer balancers r).trans
      (changes_foldl changes_applyNode nodes _),
      mem_nodes_of_mem_removeNodes h, changes_removeNodes _ _⟩
  | select => exact ⟨r, .refl, mem_of_select (Option.mem_toList.1 h), changes_perform r .select⟩
  | selectSticky value =>
    exact ⟨r, .refl, mem_of_selectSticky (Option.mem_toList.1 h),
      changes_perform r (.selectSticky value)⟩
  | resolve enumeration request =>
    have hok : (r.resolveAmong enumeration request).1 = .ok n := by
      have hmem : (r.resolveAmong enumeration request).1.toOption = some n := Option.mem_toList.1 h
      cases hanswer : (r.resolveAmong enumeration request).1 with
      | error e => rw [hanswer] at hmem; cases hmem
      | ok n' => rw [hanswer] at hmem; cases hmem; rfl
    exact ⟨r, .refl, mem_of_resolveAmong hok, changes_perform r (.resolve enumeration request)⟩
  | putBalancer | markDown | markUp | elect | roll => cases h

/-- A consistent registry `Knows` the versions that an `action` answered with. -/
theorem Consistent.knows_of_mem_answers (h : r.Consistent) {action : Action}
    (hn : n ∈ r.answers action) :
    (r.perform action).Knows n := by
  obtain ⟨r₁, hbefore, hmem, hafter⟩ := exists_mem_of_mem_answers hn
  exact ((h.changes hbefore).knows hmem).of_inherits (.changes hafter)

/-! ### Statuses -/

/-- The status of the nodes with the identity `id`. -/
def statusOf (r : Registry) (id : Nat) : Status := (r.stateOf id).status

theorem statusOf_elect (r : Registry) (n : Node) (id : Nat) :
    (r.elect n).statusOf id = r.statusOf id := by
  unfold statusOf elect
  by_cases hgiven : n.id = 0 ∨ r.nextId ≤ n.id
  · rw [updateState_of_le hgiven]
  obtain ⟨hpos, hlt⟩ := not_or.1 hgiven
  by_cases hid : id = n.id
  · rw [hid, stateOf_updateState_self (Nat.pos_of_ne_zero hpos) (Nat.lt_of_not_le hlt)]
    rfl
  · rw [stateOf_updateState_of_ne hid]

theorem statusOf_select (r : Registry) (id : Nat) : r.select.2.statusOf id = r.statusOf id := by
  unfold select
  split
  · rfl
  · exact statusOf_elect r _ id

/-- An `action` that takes no version leaves all statuses as they are. -/
theorem statusOf_perform {action : Action} (h : action.version? = none) (r : Registry) (id : Nat) :
    (r.perform action).statusOf id = r.statusOf id := by
  cases action with
  | putNode record => exact congrArg NodeState.status (congrFun (stateOf_putNode record) id)
  | removeNode route =>
    cases hr : r.removeNode route with
    | none => simp only [perform, hr, Option.map_none, Option.getD_none]
    | some removed =>
      obtain ⟨old, -, rfl⟩ := Option.map_eq_some_iff.1 hr
      cases id <;> simp only [perform, hr, Option.map_some, Option.getD_some, statusOf, stateOf]
  | putBalancer b => cases id <;> simp only [perform, statusOf, stateOf, states_putBalancer]
  | reconcile balancers nodes =>
    exact congrArg NodeState.status (congrFun (stateOf_reconcile balancers nodes r) id)
  | select => exact statusOf_select r id
  | selectSticky value =>
    simp only [perform, selectSticky]
    split
    · rfl
    split
    · exact statusOf_elect r _ id
    · rfl
  | resolve enumeration request =>
    have hselect := statusOf_select r id
    simp only [perform, resolveAmong]
    split
    · exact statusOf_elect r _ id
    · rfl
    · split <;> rename_i heq <;> rw [heq] at hselect <;> exact hselect
  | markDown | markUp | elect | roll => cases h

/-- After a mark through `n` its identity has the status `target`, and the answer is whether it had
another before. -/
theorem Knows.statusOf_mark (h : r.Knows n) {a : NodeAction} {target : Status}
    (ha : a.target? = some target) :
    (a.through n r).2.statusOf n.id = target ∧
    ((a.through n r).1 = some true ↔ r.statusOf n.id ≠ target) := by
  have hstate := stateOf_through_self h a
  by_cases hup : r.isUp n = true
  · have hstatus : (r.stateOf n.id).status = .up := isUp_iff.1 hup
    rw [statusOf, hstate, statusOf, hstatus]
    cases a with
    | markDown =>
      obtain rfl : Status.down = target := Option.some.inj ha
      simp [NodeAction.effect, NodeState.move, hstatus, NodeAction.through, markDown, hup]
    | markUp =>
      obtain rfl : Status.up = target := Option.some.inj ha
      simp [NodeAction.effect, NodeState.move, hstatus, NodeAction.through, markUp, hup]
    | elect | roll => cases ha
  · have hstatus : (r.stateOf n.id).status = .down := not_isUp_iff.1 hup
    rw [statusOf, hstate, statusOf, hstatus]
    cases a with
    | markDown =>
      obtain rfl : Status.down = target := Option.some.inj ha
      simp [NodeAction.effect, NodeState.move, hstatus, NodeAction.through, markDown, hup]
    | markUp =>
      obtain rfl : Status.up = target := Option.some.inj ha
      simp [NodeAction.effect, NodeState.move, hstatus, NodeAction.through, markUp, hup]
    | elect | roll => cases ha

/-- An action that is no mark leaves all statuses as they are. -/
theorem statusOf_through_of_target?_eq_none {a : NodeAction} (ha : a.target? = none)
    (h : r.Knows n) (id : Nat) :
    (a.through n r).2.statusOf id = r.statusOf id := by
  by_cases hid : id = n.id
  · rw [hid, statusOf, stateOf_through_self h a, statusOf]
    cases a with
    | markDown | markUp => cases ha
    | elect | roll => rfl
  · rw [statusOf, stateOf_through_of_ne hid, statusOf]

end Registry

namespace Handouts

open Registry

variable {s : Handouts} {n : Node}

/-- The registry is consistent, and `Knows` all versions that were handed out. -/
structure Sound (s : Handouts) : Prop where
  consistent : s.registry.Consistent
  knows : ∀ n ∈ s.versions, s.registry.Knows n

theorem sound_empty : ({} : Handouts).Sound := ⟨consistent_empty, List.forall_mem_nil _⟩

theorem changes_through (a : NodeAction) (n : Node) (r : Registry) :
    Relation.ReflTransGen Change r (a.through n r).2 := by
  cases a with
  | markDown => exact changes_markDown r n
  | markUp => exact changes_markUp r n
  | elect => exact changes_elect r n
  | roll => exact changes_roll r n

theorem changes_perform (s : Handouts) (a : Action) :
    Relation.ReflTransGen Change s.registry (s.perform a).registry := by
  cases a with
  | onRegistry action h => exact Registry.changes_perform s.registry action
  | look => exact .refl
  | onVersion i a =>
    simp only [perform]
    split
    · exact .refl
    · exact changes_through a _ _

theorem Sound.perform (h : s.Sound) (a : Action) : (s.perform a).Sound := by
  have hchanges := changes_perform s a
  refine ⟨h.consistent.changes hchanges, ?_⟩
  have hold : ∀ n ∈ s.versions, (s.perform a).registry.Knows n := fun n hn =>
    (h.knows n hn).of_inherits (.changes hchanges)
  cases a with
  | onRegistry action _ =>
    exact List.forall_mem_append.2 ⟨hold, fun n hn => h.consistent.knows_of_mem_answers hn⟩
  | look => exact List.forall_mem_append.2 ⟨hold, fun n hn => h.consistent.knows hn⟩
  | onVersion i a =>
    have hversions : (s.perform (.onVersion i a)).versions = s.versions := by
      simp only [Handouts.perform]
      split
      · rfl
      · rfl
    rw [hversions]
    exact hold

theorem Sound.run (h : s.Sound) (actions : List Action) : (s.run actions).Sound := by
  induction actions generalizing s with
  | nil => exact h
  | cons a actions ih => exact ih (h.perform a)

theorem changes_run (s : Handouts) (actions : List Action) :
    Relation.ReflTransGen Change s.registry (s.run actions).registry := by
  induction actions generalizing s with
  | nil => exact .refl
  | cons a actions ih => exact (changes_perform s a).trans (ih (s.perform a))

/-- The status of `id` changes exactly when `mark?` gives another. -/
theorem Sound.statusOf_perform (h : s.Sound) (id : Nat) (a : Action) :
    (s.perform a).registry.statusOf id = (s.mark? id a).getD (s.registry.statusOf id) ∧
      ∀ target, s.mark? id a = some target → s.registry.statusOf id ≠ target := by
  cases a with
  | onRegistry action hnone => exact ⟨Registry.statusOf_perform hnone s.registry id, nofun⟩
  | look => exact ⟨rfl, nofun⟩
  | onVersion i a =>
    cases hn : s.versions[i]? with
    | none => simp [mark?, Handouts.perform, hn]
    | some n =>
      have hknows := h.knows n (List.mem_of_getElem? hn)
      simp only [mark?, Handouts.perform, hn, Option.bind_eq_bind, Option.bind_some]
      by_cases hid : n.id = id
      · subst hid
        cases ha : a.target? with
        | none => simp [statusOf_through_of_target?_eq_none ha hknows]
        | some target =>
          obtain ⟨hafter, hanswer⟩ := hknows.statusOf_mark ha
          by_cases hchanged : (a.through n s.registry).1 = some true
          · simpa [hchanged, hafter] using hanswer.1 hchanged
          · have hstays := Decidable.not_not.1 (mt hanswer.2 hchanged)
            simp [hchanged, hafter, hstays]
      · have hstays : (a.through n s.registry).2.statusOf id = s.registry.statusOf id :=
          congrArg NodeState.status (stateOf_through_of_ne (Ne.symm hid) a s.registry)
        simp [hid, hstays]

/-- The statuses in `marks` alternate, beginning with a change. -/
theorem Sound.isChain_marks (h : s.Sound) (id : Nat) (actions : List Action) :
    (s.registry.statusOf id :: s.marks id actions).IsChain (· ≠ ·) := by
  induction actions generalizing s with
  | nil => exact .singleton _
  | cons a actions ih =>
    obtain ⟨hstatus, hne⟩ := h.statusOf_perform id a
    have hrest := ih (h.perform a)
    rw [hstatus] at hrest
    rw [marks]
    cases hmark : s.mark? id a with
    | none =>
      rw [hmark] at hrest
      exact hrest
    | some target =>
      rw [hmark] at hrest
      exact List.isChain_cons_cons.2 ⟨hne target hmark, hrest⟩

/-- What is done through a version `n` that was once handed out, in the state `s` after any
`actions`.  If a node is registered with the identity of `n`, the action does to it what it does
through its registered version, and nothing to any other node.  If none is, no registered node
changes, and none is ever registered with that identity again: a node that is registered anew has
another one, and a state of its own.  A mark answers whether it changed the status, and the statuses
in `marks` alternate. -/
theorem through_kept_version (actions : List Action) :
    let s := ({} : Handouts).run actions
    let r := s.registry
    (∀ n ∈ s.versions, ∀ a : NodeAction,
      let r' := (a.through n r).2
      r'.nodes = r.nodes ∧ r'.balancers = r.balancers ∧
        (∀ id ≠ n.id, r'.stateOf id = r.stateOf id) ∧
      (∀ m ∈ r.nodes, m.id = n.id →
        m.route = n.route ∧ a.through n r = a.through m r ∧
        r'.stateOf m.id = a.effect (r.stateOf m.id)) ∧
      ((∀ m ∈ r.nodes, m.id ≠ n.id) →
        (∀ m ∈ r.nodes, r'.stateOf m.id = r.stateOf m.id) ∧
          ∀ later, ∀ m ∈ (s.run later).registry.nodes, m.id ≠ n.id) ∧
      ∀ target, a.target? = some target →
        ((a.through n r).1 = some true ↔ r'.statusOf n.id ≠ r.statusOf n.id)) ∧
    (∀ record, r.node? record.route = none →
      (∀ n ∈ s.versions, n.id ≠ (r.putNode record).1.id) ∧
        (r.putNode record).2.stateOf (r.putNode record).1.id = {}) ∧
    ∀ id, (Status.up :: ({} : Handouts).marks id actions).IsChain (· ≠ ·) := by
  intro s r
  have h : s.Sound := sound_empty.run actions
  refine ⟨fun n hn a => ?_, fun record hnew => ?_, fun id => ?_⟩
  · have hknows := h.knows n hn
    obtain ⟨hnodes, -, hbalancers⟩ := nodes_through a n r
    refine ⟨hnodes, hbalancers, fun id hid => stateOf_through_of_ne hid a r,
      fun m hm hid => ?_, fun hgone => ?_,
      fun target htarget => ?_⟩
    · refine ⟨hknows.route_eq m hm hid, through_eq_of_id_eq hid a r, ?_⟩
      rw [hid]
      exact stateOf_through_self hknows a
    · refine ⟨fun m hm => stateOf_through_of_ne (hgone m hm) a r, fun later m hm hid => ?_⟩
      obtain ⟨m₀, hm₀, hid₀, -⟩ :=
        (Inherits.changes (changes_run s later)).of_lt m hm (hid ▸ hknows.id_lt)
      exact hgone m₀ hm₀ (hid₀.trans hid)
    · obtain ⟨hafter, hanswer⟩ := hknows.statusOf_mark htarget
      rw [hanswer, hafter]
      exact ne_comm
  · obtain ⟨hnode, -⟩ := putNode_of_none hnew
    rw [hnode, stateOf_putNode]
    refine ⟨fun n hn => Nat.ne_of_lt (h.knows n hn).id_lt, ?_⟩
    simp [nextId, stateOf]
  · have hup : ({} : Registry).statusOf id = .up := by cases id <;> rfl
    exact hup ▸ sound_empty.isChain_marks id actions

/-- A node is registered, moves and is marked down through its first version; then it is removed,
and another is registered where it was first. -/
def secondLife : List Action :=
  [.onRegistry (.putNode { route := "a", host := "h", port := 1 }) rfl,
    .onRegistry (.putNode { route := "a", host := "h", port := 2 }) rfl, .onVersion 0 .markDown,
    .onRegistry (.removeNode "a") rfl,
    .onRegistry (.putNode { route := "a", host := "h", port := 1 }) rfl]

/-- In `secondLife`, the first version of the node does nothing to the other, and before the node
was removed it did what the registered version would have done. -/
theorem through_kept_version_secondLife :
    let n : Node := { id := 1, record := { route := "a", host := "h", port := 1 } }
    let m : Node := { id := 1, record := { route := "a", host := "h", port := 2 } }
    let s := ({} : Handouts).run secondLife
    let s₀ := ({} : Handouts).run (secondLife.take 3)
    s.registry.nodes = [{ id := 2, record := { route := "a", host := "h", port := 1 } }] ∧
      (NodeAction.markUp.through n s.registry).1 = some true ∧
      (NodeAction.markUp.through n s.registry).2.stateOf 2 = s.registry.stateOf 2 ∧
      (∀ later, ∀ m ∈ (s.run later).registry.nodes, m.id ≠ 1) ∧
      NodeAction.markUp.through n s₀.registry = NodeAction.markUp.through m s₀.registry ∧
      ({} : Handouts).marks 1 (secondLife ++ [.onVersion 1 .markUp]) = [.down, .up] := by
  intro n m s s₀
  have hnodes :
      s.registry.nodes = [{ id := 2, record := { route := "a", host := "h", port := 1 } }] := by
    decide +kernel
  obtain ⟨hkept, -⟩ := through_kept_version secondLife
  obtain ⟨-, -, -, -, hgone, -⟩ := hkept n (by decide +kernel) .markUp
  obtain ⟨hothers, hnever⟩ := hgone (by decide +kernel)
  obtain ⟨hkept₀, -⟩ := through_kept_version (secondLife.take 3)
  obtain ⟨-, -, -, hcurrent, -⟩ := hkept₀ n (by decide +kernel) .markUp
  refine ⟨hnodes, by decide +kernel,
    hothers { id := 2, record := { route := "a", host := "h", port := 1 } } ?_, hnever,
    (hcurrent m (by decide +kernel) rfl).2.1, by decide +kernel⟩
  exact hnodes ▸ List.mem_singleton.2 rfl

end Handouts

end ReverseProxy.Fleet
