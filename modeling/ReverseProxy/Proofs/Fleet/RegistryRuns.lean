import Mathlib.Data.List.Nodup
import Mathlib.Logic.Relation
import ReverseProxy.Proofs.Fleet.RegisteredNodes

/-!
# Runs of the registry

Nodes and balancers are registered, updated and removed, nodes are elected and marked up or down, in
any order.  All of it is made of four kinds of changes (`Registry.Change`), so that what each of
these keeps is kept throughout: a registry stays consistent (`Consistent.change`), and no identity
passes from one node to another (`Inherits.change`).

An `Action` is what the rest of the proxy does with the registry.  The main statement,
`consistent_run`, is about all that can be reached from an empty registry by actions.
-/

namespace ReverseProxy.Fleet

namespace Registry

variable {r r' : Registry}

/-! ### Balancers -/

theorem isSome_balancer?_iff {name : String} :
    (r.balancer? name).isSome = true ↔ name ∈ r.balancers.map BalancerRecord.name := by
  simp [balancer?]

/-- A new name comes last by `putBalancer`, and a known one keeps its place. -/
theorem names_putBalancer (b : BalancerRecord) :
    (r.putBalancer b).balancers.map BalancerRecord.name =
      if b.name ∈ r.balancers.map BalancerRecord.name then r.balancers.map BalancerRecord.name
      else r.balancers.map BalancerRecord.name ++ [b.name] := by
  have hany : (r.balancers.any fun x => x.name == b.name) = true ↔
      b.name ∈ r.balancers.map BalancerRecord.name := by simp
  unfold putBalancer
  by_cases h : b.name ∈ r.balancers.map BalancerRecord.name
  · rw [if_pos (hany.2 h), if_pos h, List.map_map]
    apply List.map_congr_left
    intro x _
    by_cases hx : x.name = b.name
    · simp [hx]
    · simp [hx]
  · rw [if_neg (mt hany.1 h), if_neg h]
    simp

theorem isSome_balancer?_putBalancer {b : BalancerRecord} {name : String} :
    ((r.putBalancer b).balancer? name).isSome = true ↔
      name = b.name ∨ (r.balancer? name).isSome = true := by
  rw [isSome_balancer?_iff, isSome_balancer?_iff, names_putBalancer]
  split
  · rename_i h
    exact (or_iff_right_of_imp fun hname => hname ▸ h).symm
  · rw [List.mem_append, List.mem_singleton, or_comm]

theorem isSome_balancer?_ensureBalancer {name name' : String} :
    ((r.ensureBalancer name).balancer? name').isSome = true ↔
      name' = name ∨ (r.balancer? name').isSome = true := by
  unfold ensureBalancer
  split
  · rename_i h
    exact (or_iff_right_of_imp fun hname => hname ▸ h).symm
  · exact isSome_balancer?_putBalancer

theorem nodup_putBalancer (h : (r.balancers.map BalancerRecord.name).Nodup) (b : BalancerRecord) :
    ((r.putBalancer b).balancers.map BalancerRecord.name).Nodup := by
  rw [names_putBalancer]
  split
  · exact h
  · rename_i hnew
    exact List.nodup_append.2 ⟨h, List.nodup_singleton _, by
      rintro x hx y hy rfl
      exact hnew (List.mem_singleton.1 hy ▸ hx)⟩

theorem nodup_ensureBalancer (h : (r.balancers.map BalancerRecord.name).Nodup) (name : String) :
    ((r.ensureBalancer name).balancers.map BalancerRecord.name).Nodup := by
  unfold ensureBalancer
  split
  · exact h
  · exact nodup_putBalancer h _

/-! ### The states of nodes -/

@[simp] theorem balancers_updateState (id : Nat) (f : NodeState → NodeState) :
    (r.updateState id f).balancers = r.balancers := by
  cases id <;> rfl

@[simp] theorem wake_updateState (id : Nat) (f : NodeState → NodeState) :
    (r.updateState id f).wake = r.wake := by
  cases id <;> rfl

/-- Only the state of the identity `id` can change by `updateState`. -/
theorem stateOf_updateState_of_ne {id id' : Nat} (h : id' ≠ id) (f : NodeState → NodeState) :
    (r.updateState id f).stateOf id' = r.stateOf id' := by
  cases id with
  | zero => rfl
  | succ i =>
    cases id' with
    | zero => rfl
    | succ j =>
      have hij : i ≠ j := fun hij => h (congrArg (· + 1) hij.symm)
      simp [stateOf, updateState, List.getD_eq_getElem?_getD, hij]

/-- The state of an identity that was given changes by `f`. -/
theorem stateOf_updateState_self {id : Nat} (hpos : 0 < id) (hlt : id < r.nextId)
    (f : NodeState → NodeState) :
    (r.updateState id f).stateOf id = f (r.stateOf id) := by
  obtain ⟨i, rfl⟩ := Nat.exists_eq_succ_of_ne_zero (Nat.ne_of_gt hpos)
  have hi : i < r.states.length := Nat.lt_of_succ_lt_succ hlt
  simp [stateOf, updateState, List.getD_eq_getElem?_getD, hi]

/-- An identity that was never given has no state that `updateState` could change. -/
theorem updateState_of_le {id : Nat} (h : id = 0 ∨ r.nextId ≤ id) (f : NodeState → NodeState) :
    r.updateState id f = r := by
  cases id with
  | zero => rfl
  | succ i =>
    have hi : r.states.length ≤ i := by
      rcases h with h | h
      · exact absurd h (Nat.succ_ne_zero i)
      · exact Nat.le_of_succ_le_succ h
    simp [updateState, List.modify_eq_self hi]

theorem isUp_iff {n : Node} : r.isUp n = true ↔ (r.stateOf n.id).status = .up := beq_iff_eq

theorem not_isUp_iff {n : Node} : ¬r.isUp n = true ↔ (r.stateOf n.id).status = .down := by
  rw [isUp_iff]
  cases (r.stateOf n.id).status with
  | up => exact ⟨fun h => absurd rfl h, fun h => nomatch h⟩
  | down => exact ⟨fun _ => rfl, fun _ h => nomatch h⟩

theorem balancers_putNode (record : NodeRecord) :
    (r.putNode record).2.balancers = (r.ensureBalancer record.balancer).balancers := by
  simp only [putNode]
  split <;> rfl

/-- No state changes by `putNode`: a new node is up and has not been elected, as is any that is not
registered. -/
theorem stateOf_putNode (record : NodeRecord) : (r.putNode record).2.stateOf = r.stateOf := by
  have hstates : (r.putNode record).2.states = r.states ∨
      (r.putNode record).2.states = r.states ++ [({} : NodeState)] := by
    simp only [putNode]
    split
    · exact .inl (states_ensureBalancer _)
    · exact .inr (congrArg (· ++ [({} : NodeState)]) (states_ensureBalancer _))
  funext id
  cases id with
  | zero => rfl
  | succ i =>
    rcases hstates with hstates | hstates
    · simp only [stateOf, hstates]
    · simp only [stateOf, hstates, List.getD_eq_getElem?_getD, List.getElem?_append]
      split
      · rfl
      · rename_i hi
        rw [List.getElem?_eq_none (Nat.le_of_not_lt hi)]
        cases i - r.states.length <;> rfl

/-! ### Consistency -/

/-- A registry in order: each node and each balancer has a name of its own, nodes stand in the order
of their identities, which are among those given so far, and belong to registered balancers; no
count of elections is behind what it was at the last health cycle. -/
structure Consistent (r : Registry) : Prop where
  routes_nodup : (r.nodes.map Node.route).Nodup
  ids_increasing : (r.nodes.map Node.id).Pairwise (· < ·)
  id_pos : ∀ n ∈ r.nodes, 0 < n.id
  id_lt : ∀ n ∈ r.nodes, n.id < r.nextId
  names_nodup : (r.balancers.map BalancerRecord.name).Nodup
  balancer_known : ∀ n ∈ r.nodes, (r.balancer? n.record.balancer).isSome = true
  previous_le : ∀ id, (r.stateOf id).previousElected ≤ (r.stateOf id).elected

theorem consistent_empty : ({} : Registry).Consistent where
  routes_nodup := List.nodup_nil
  ids_increasing := .nil
  id_pos := List.forall_mem_nil _
  id_lt := List.forall_mem_nil _
  names_nodup := List.nodup_nil
  balancer_known := List.forall_mem_nil _
  previous_le id := by cases id <;> exact Nat.le_refl 0

/-- A registered node is found by its route. -/
theorem WellFormed.node?_eq_some (h : r.WellFormed) {n : Node} (hn : n ∈ r.nodes) :
    r.node? n.route = some n := by
  cases hfind : r.node? n.route with
  | none => exact absurd rfl (route_ne_of_node?_eq_none hfind hn)
  | some n' =>
    obtain ⟨hn', hroute⟩ := mem_of_node?_eq_some hfind
    rw [h.route_inj n' hn' n hn hroute]

/-- In a `Consistent` registry either name of a node tells it apart. -/
theorem Consistent.wellFormed (h : r.Consistent) : r.WellFormed where
  route_inj _ ha _ hb := List.inj_on_of_nodup_map h.routes_nodup ha hb
  id_inj _ ha _ hb := List.inj_on_of_nodup_map (h.ids_increasing.imp Nat.ne_of_lt) ha hb
  id_lt := h.id_lt

/-- The changes that everything done to a registry is made of. -/
inductive Change (r : Registry) : Registry → Prop where
  | putBalancer (b : BalancerRecord) : Change r (r.putBalancer b)
  | putNode (record : NodeRecord) : Change r (r.putNode record).2
  | removeNode {route : String} {n : Node} {r' : Registry} (h : r.removeNode route = some (n, r')) :
      Change r r'
  | updateState (id : Nat) (f : NodeState → NodeState) (wake : Bool)
      (hf : ∀ s : NodeState, s.previousElected ≤ s.elected →
        (f s).previousElected ≤ (f s).elected) :
      Change r { r.updateState id f with wake }

theorem Consistent.putBalancer (h : r.Consistent) (b : BalancerRecord) :
    (r.putBalancer b).Consistent where
  routes_nodup := (nodes_putBalancer b).symm ▸ h.routes_nodup
  ids_increasing := (nodes_putBalancer b).symm ▸ h.ids_increasing
  id_pos := (nodes_putBalancer b).symm ▸ h.id_pos
  id_lt := by
    rw [nodes_putBalancer, nextId, states_putBalancer]
    exact h.id_lt
  names_nodup := nodup_putBalancer h.names_nodup b
  balancer_known := by
    rw [nodes_putBalancer]
    exact fun n hn => isSome_balancer?_putBalancer.2 (.inr (h.balancer_known n hn))
  previous_le := by
    have hstate : (r.putBalancer b).stateOf = r.stateOf := by
      funext id
      cases id with
      | zero => rfl
      | succ i => simp only [stateOf, states_putBalancer]
    rw [hstate]
    exact h.previous_le

theorem map_route_follow (nodes : List Node) (record : NodeRecord) :
    (nodes.map (·.follow record)).map Node.route = nodes.map Node.route := by
  rw [List.map_map]
  exact List.map_congr_left fun _ _ => Node.route_follow

theorem map_id_follow (nodes : List Node) (record : NodeRecord) :
    (nodes.map (·.follow record)).map Node.id = nodes.map Node.id := by
  rw [List.map_map]
  exact List.map_congr_left fun _ _ => Node.id_follow

/-- A registry stays `Consistent` by `putNode`, which gives a new node the next identity and changes
only the record of a known one. -/
theorem Consistent.putNode (h : r.Consistent) (record : NodeRecord) :
    (r.putNode record).2.Consistent := by
  have hnames : ((r.putNode record).2.balancers.map BalancerRecord.name).Nodup :=
    balancers_putNode record ▸ nodup_ensureBalancer h.names_nodup record.balancer
  have hknown (name : String) : ((r.putNode record).2.balancer? name).isSome = true ↔
      name = record.balancer ∨ (r.balancer? name).isSome = true := by
    rw [balancer?, balancers_putNode]
    exact isSome_balancer?_ensureBalancer
  have hprevious := h.previous_le
  rw [← stateOf_putNode record] at hprevious
  cases hfind : r.node? record.route with
  | some old =>
    obtain ⟨-, hnodes, hnext⟩ := putNode_of_some hfind
    refine ⟨?_, ?_, ?_, ?_, hnames, ?_, hprevious⟩ <;> rw [hnodes]
    · rw [map_route_follow]
      exact h.routes_nodup
    · rw [map_id_follow]
      exact h.ids_increasing
    · intro n' hn'
      obtain ⟨n, hn, rfl⟩ := List.mem_map.1 hn'
      rw [Node.id_follow]
      exact h.id_pos n hn
    · intro n' hn'
      obtain ⟨n, hn, rfl⟩ := List.mem_map.1 hn'
      rw [Node.id_follow, hnext]
      exact h.id_lt n hn
    · intro n' hn'
      obtain ⟨n, hn, rfl⟩ := List.mem_map.1 hn'
      rw [hknown]
      by_cases hroute : n.route = record.route
      · rw [Node.follow_of_eq hroute]
        exact .inl rfl
      · rw [Node.follow_of_ne hroute]
        exact .inr (h.balancer_known n hn)
  | none =>
    obtain ⟨-, hnodes, hnext⟩ := putNode_of_none hfind
    refine ⟨?_, ?_, ?_, ?_, hnames, ?_, hprevious⟩ <;> rw [hnodes]
    · rw [List.map_append, List.nodup_append]
      refine ⟨h.routes_nodup, List.nodup_singleton _, ?_⟩
      rintro x hx y hy rfl
      obtain ⟨n, hn, rfl⟩ := List.mem_map.1 hx
      exact route_ne_of_node?_eq_none hfind hn (List.mem_singleton.1 hy)
    · rw [List.map_append, List.pairwise_append]
      refine ⟨h.ids_increasing, List.pairwise_singleton .., ?_⟩
      intro x hx y hy
      obtain ⟨n, hn, rfl⟩ := List.mem_map.1 hx
      obtain rfl := List.mem_singleton.1 hy
      exact h.id_lt n hn
    · rw [List.forall_mem_append, List.forall_mem_singleton]
      exact ⟨h.id_pos, Nat.succ_pos _⟩
    · rw [List.forall_mem_append, List.forall_mem_singleton, hnext]
      exact ⟨fun n hn => Nat.lt_succ_of_lt (h.id_lt n hn), Nat.lt_succ_self _⟩
    · rw [List.forall_mem_append, List.forall_mem_singleton]
      exact ⟨fun n hn => (hknown _).2 (.inr (h.balancer_known n hn)), (hknown _).2 (.inl rfl)⟩

theorem Consistent.removeNode (h : r.Consistent) {route : String} {n : Node}
    (hr : r.removeNode route = some (n, r')) : r'.Consistent := by
  obtain ⟨old, -, heq⟩ := Option.map_eq_some_iff.1 hr
  cases heq
  have hsub : (r.nodes.filter fun n => n.route != route).Sublist r.nodes := List.filter_sublist
  exact {
    routes_nodup := h.routes_nodup.sublist (hsub.map _)
    ids_increasing := h.ids_increasing.sublist (hsub.map _)
    id_pos := fun n hn => h.id_pos n (hsub.mem hn)
    id_lt := fun n hn => h.id_lt n (hsub.mem hn)
    names_nodup := h.names_nodup
    balancer_known := fun n hn => h.balancer_known n (hsub.mem hn)
    previous_le := h.previous_le }

theorem Consistent.updateState (h : r.Consistent) (id : Nat) {f : NodeState → NodeState}
    (hf : ∀ s : NodeState, s.previousElected ≤ s.elected → (f s).previousElected ≤ (f s).elected) :
    (r.updateState id f).Consistent := by
  obtain ⟨hnodes, hnext⟩ := nodes_updateState (r := r) id f
  have hknown (name : String) : (r.updateState id f).balancer? name = r.balancer? name := by
    rw [balancer?, balancers_updateState, balancer?]
  refine ⟨?_, ?_, ?_, ?_, ?_, ?_, ?_⟩
  · exact hnodes ▸ h.routes_nodup
  · exact hnodes ▸ h.ids_increasing
  · exact hnodes ▸ h.id_pos
  · rw [hnodes, hnext]
    exact h.id_lt
  · rw [balancers_updateState]
    exact h.names_nodup
  · rw [hnodes]
    exact fun n hn => hknown _ ▸ h.balancer_known n hn
  · intro id'
    by_cases hid : id = 0 ∨ r.nextId ≤ id
    · rw [updateState_of_le hid]
      exact h.previous_le id'
    obtain ⟨hpos, hlt⟩ := not_or.1 hid
    by_cases hid' : id' = id
    · subst hid'
      rw [stateOf_updateState_self (Nat.pos_of_ne_zero hpos) (Nat.lt_of_not_le hlt)]
      exact hf _ (h.previous_le _)
    · rw [stateOf_updateState_of_ne hid']
      exact h.previous_le id'

/-- Every `Change` keeps a registry `Consistent`. -/
theorem Consistent.change (h : r.Consistent) (hc : Change r r') : r'.Consistent := by
  cases hc with
  | putBalancer b => exact h.putBalancer b
  | putNode record => exact h.putNode record
  | removeNode hr => exact h.removeNode hr
  | updateState id f wake hf =>
    obtain ⟨h₁, h₂, h₃, h₄, h₅, h₆, h₇⟩ := h.updateState id hf
    exact ⟨h₁, h₂, h₃, h₄, h₅, h₆, h₇⟩

theorem Consistent.changes (h : r.Consistent) (hc : Relation.ReflTransGen Change r r') :
    r'.Consistent := by
  induction hc with
  | refl => exact h
  | tail _ hstep ih => exact ih.change hstep

/-! ### Identities -/

/-- Under the identities given in `r`, the later `r'` has nodes of `r`, by the same routes, or
none. -/
structure Inherits (r r' : Registry) : Prop where
  nextId_le : r.nextId ≤ r'.nextId
  of_lt : ∀ n' ∈ r'.nodes, n'.id < r.nextId → ∃ n ∈ r.nodes, n.id = n'.id ∧ n.route = n'.route

theorem Inherits.refl (r : Registry) : Inherits r r :=
  ⟨Nat.le_refl _, fun n hn _ => ⟨n, hn, rfl, rfl⟩⟩

theorem Inherits.trans {r'' : Registry} (h : Inherits r r') (h' : Inherits r' r'') :
    Inherits r r'' := by
  refine ⟨Nat.le_trans h.nextId_le h'.nextId_le, ?_⟩
  intro n'' hn'' hlt
  obtain ⟨n', hn', hid', hroute'⟩ := h'.of_lt n'' hn'' (Nat.lt_of_lt_of_le hlt h.nextId_le)
  obtain ⟨n, hn, hid, hroute⟩ := h.of_lt n' hn' (hid' ▸ hlt)
  exact ⟨n, hn, hid.trans hid', hroute.trans hroute'⟩

theorem inherits_of_subset (hnodes : ∀ n ∈ r'.nodes, n ∈ r.nodes)
    (hnext : r'.nextId = r.nextId) : Inherits r r' :=
  ⟨Nat.le_of_eq hnext.symm, fun n hn _ => ⟨n, hnodes n hn, rfl, rfl⟩⟩

/-- A node that `putNode` registers anew gets an identity that was not given before. -/
theorem inherits_putNode (r : Registry) (record : NodeRecord) :
    Inherits r (r.putNode record).2 := by
  cases hfind : r.node? record.route with
  | some old =>
    obtain ⟨-, hnodes, hnext⟩ := putNode_of_some hfind
    refine ⟨Nat.le_of_eq hnext.symm, ?_⟩
    rw [hnodes]
    intro n' hn' _
    obtain ⟨n, hn, rfl⟩ := List.mem_map.1 hn'
    exact ⟨n, hn, Node.id_follow.symm, Node.route_follow.symm⟩
  | none =>
    obtain ⟨-, hnodes, hnext⟩ := putNode_of_none hfind
    refine ⟨hnext ▸ Nat.le_succ _, ?_⟩
    rw [hnodes]
    intro n' hn' hlt
    rcases List.mem_append.1 hn' with hn' | hn'
    · exact ⟨n', hn', rfl, rfl⟩
    · obtain rfl := List.mem_singleton.1 hn'
      exact absurd hlt (Nat.lt_irrefl _)

theorem Inherits.change (hc : Change r r') : Inherits r r' := by
  cases hc with
  | putBalancer b =>
    refine inherits_of_subset ?_ ?_
    · rw [nodes_putBalancer]
      exact fun _ hn => hn
    · rw [nextId, states_putBalancer, nextId]
  | putNode record => exact inherits_putNode r record
  | removeNode hr =>
    obtain ⟨-, -, -, hnext⟩ := removeNode_eq hr
    exact inherits_of_subset (fun _ => mem_of_mem_removeNode hr) hnext
  | updateState id f wake _ =>
    obtain ⟨hnodes, hnext⟩ := nodes_updateState (r := r) id f
    exact inherits_of_subset (fun _ hn => hnodes ▸ hn) hnext

theorem Inherits.changes (hc : Relation.ReflTransGen Change r r') : Inherits r r' := by
  induction hc with
  | refl => exact .refl r
  | tail _ hstep ih => exact ih.trans (.change hstep)

/-! ### What actions are made of -/

theorem changes_foldl {α : Type} {f : Registry → α → Registry}
    (hf : ∀ r x, Relation.ReflTransGen Change r (f r x)) (xs : List α) (r : Registry) :
    Relation.ReflTransGen Change r (xs.foldl f r) :=
  List.foldlRecOn xs f .refl fun r' hr' x _ => hr'.trans (hf r' x)

theorem changes_applyBalancer (r : Registry) (b : BalancerRecord) :
    Relation.ReflTransGen Change r (r.applyBalancer b) := by
  unfold applyBalancer
  split
  · exact .refl
  · exact .single (.putBalancer b)

theorem changes_applyNode (r : Registry) (record : NodeRecord) :
    Relation.ReflTransGen Change r (r.applyNode record) := by
  unfold applyNode
  split
  · exact .refl
  · exact .single (.putNode record)

theorem changes_removeNodes (r : Registry) (routes : List String) :
    Relation.ReflTransGen Change r (r.removeNodes routes).2 := by
  induction routes generalizing r with
  | nil => exact .refl
  | cons route routes ih =>
    unfold removeNodes
    split
    · exact ih r
    · rename_i n r' hr
      exact .head (.removeNode hr) (ih r')

theorem changes_reconcile (r : Registry) (balancers : List BalancerRecord)
    (nodes : List NodeRecord) :
    Relation.ReflTransGen Change r (r.reconcile balancers nodes).2 :=
  ((changes_foldl changes_applyBalancer balancers r).trans
    (changes_foldl changes_applyNode nodes _)).trans
    (changes_removeNodes _ _)

/-- A registry built from lists comes about by changes from the empty one. -/
theorem changes_ofRecords (balancers : List BalancerRecord) (nodes : List NodeRecord) :
    Relation.ReflTransGen Change {} (ofRecords balancers nodes) :=
  (changes_foldl (fun _ b => .single (.putBalancer b)) balancers {}).trans
    (changes_foldl (fun _ record => .single (.putNode record)) nodes _)

theorem changes_updateState (r : Registry) (id : Nat) {f : NodeState → NodeState}
    (hf : ∀ s : NodeState, s.previousElected ≤ s.elected → (f s).previousElected ≤ (f s).elected) :
    Relation.ReflTransGen Change r (r.updateState id f) := by
  have hc : Change r { r.updateState id f with wake := (r.updateState id f).wake } :=
    .updateState id f _ hf
  exact .single hc

theorem changes_elect (r : Registry) (n : Node) : Relation.ReflTransGen Change r (r.elect n) :=
  changes_updateState r n.id fun _ hs => Nat.le_succ_of_le hs

theorem changes_roll (r : Registry) (n : Node) : Relation.ReflTransGen Change r (r.roll n).2 :=
  changes_updateState r n.id fun _ _ => Nat.le_refl _

theorem previousElected_move_le (source target : Status) (s : NodeState)
    (h : s.previousElected ≤ s.elected) :
    (s.move source target).previousElected ≤ (s.move source target).elected := by
  unfold NodeState.move
  split <;> exact h

theorem changes_markDown (r : Registry) (n : Node) :
    Relation.ReflTransGen Change r (r.markDown n).2 := by
  unfold markDown
  split
  · exact .single (.updateState n.id _ true (previousElected_move_le .up .down))
  · exact .refl

theorem changes_markUp (r : Registry) (n : Node) :
    Relation.ReflTransGen Change r (r.markUp n).2 := by
  unfold markUp
  split
  · exact .refl
  · exact changes_updateState r n.id (previousElected_move_le .down .up)

theorem changes_select (r : Registry) : Relation.ReflTransGen Change r r.select.2 := by
  unfold select
  split
  · exact .refl
  · exact changes_elect r _

theorem changes_selectSticky (r : Registry) (value : String) :
    Relation.ReflTransGen Change r (r.selectSticky value).2 := by
  unfold selectSticky
  split
  · exact .refl
  · split
    · exact changes_elect r _
    · exact .refl

theorem changes_resolveAmong (enumeration : List BalancerRecord) (r : Registry)
    (request : Message.RequestHead) :
    Relation.ReflTransGen Change r (r.resolveAmong enumeration request).2 := by
  unfold resolveAmong
  split
  · exact changes_elect r _
  · exact .refl
  · have hselect := changes_select r
    split <;> rename_i heq <;> rw [heq] at hselect <;> exact hselect

/-! ### Actions -/

/-- What is done with a registry.  Statuses and counts are changed through a version `n` of a node,
which may be the registered one, an outdated one or one of a node that was removed. -/
inductive Action where
  | putNode (record : NodeRecord)
  | removeNode (route : String)
  | putBalancer (b : BalancerRecord)
  | reconcile (balancers : List BalancerRecord) (nodes : List NodeRecord)
  | select
  | selectSticky (value : String)
  /-- A request is resolved, with the balancers asked in the order of `enumeration`. -/
  | resolve (enumeration : List BalancerRecord) (request : Message.RequestHead)
  | markDown (n : Node)
  | markUp (n : Node)
  | elect (n : Node)
  | roll (n : Node)

/-- The registry after an action. -/
def perform (r : Registry) : Action → Registry
  | .putNode record => (r.putNode record).2
  | .removeNode route => ((r.removeNode route).map Prod.snd).getD r
  | .putBalancer b => r.putBalancer b
  | .reconcile balancers nodes => (r.reconcile balancers nodes).2
  | .select => r.select.2
  | .selectSticky value => (r.selectSticky value).2
  | .resolve enumeration request => (r.resolveAmong enumeration request).2
  | .markDown n => (r.markDown n).2
  | .markUp n => (r.markUp n).2
  | .elect n => r.elect n
  | .roll n => (r.roll n).2

/-- The registry after `actions`, one after another. -/
def run (r : Registry) (actions : List Action) : Registry := actions.foldl perform r

theorem changes_perform (r : Registry) (action : Action) :
    Relation.ReflTransGen Change r (r.perform action) := by
  cases action with
  | putNode record => exact .single (.putNode record)
  | removeNode route =>
    cases hr : r.removeNode route with
    | none =>
      simp only [perform, hr]
      exact .refl
    | some removed =>
      simp only [perform, hr]
      exact .single (.removeNode hr)
  | putBalancer b => exact .single (.putBalancer b)
  | reconcile balancers nodes => exact changes_reconcile r balancers nodes
  | select => exact changes_select r
  | selectSticky value => exact changes_selectSticky r value
  | resolve enumeration request => exact changes_resolveAmong enumeration r request
  | markDown n => exact changes_markDown r n
  | markUp n => exact changes_markUp r n
  | elect n => exact changes_elect r n
  | roll n => exact changes_roll r n

theorem changes_run (actions : List Action) (r : Registry) :
    Relation.ReflTransGen Change r (r.run actions) :=
  changes_foldl changes_perform actions r

/-! ### Updates -/

/-- The record of a registered route takes the place of the one before by `putNode`, under the same
identity. -/
theorem Consistent.nodes_putNode_of_getElem? (h : r.Consistent) {record : NodeRecord}
    {i : Nat} {old : Node} (hold : r.nodes[i]? = some old) (hroute : old.route = record.route) :
    (r.putNode record).2.nodes = r.nodes.set i { old with record } := by
  have hfind : r.node? record.route = some old :=
    hroute ▸ h.wellFormed.node?_eq_some (List.mem_of_getElem? hold)
  rw [(putNode_of_some hfind).2.1]
  obtain ⟨hi, rfl⟩ := List.getElem?_eq_some_iff.1 hold
  apply List.ext_getElem
  · rw [List.length_map, List.length_set]
  intro j hj _
  rw [List.length_map] at hj
  rw [List.getElem_map, List.getElem_set]
  split
  · rename_i hij
    subst hij
    rw [Node.follow_of_eq hroute]
  · rename_i hij
    apply Node.follow_of_ne
    intro hj'
    -- two places with one route would be two nodes of one route
    have hroutes : (r.nodes.map Node.route)[i]? = (r.nodes.map Node.route)[j]? := by
      rw [List.getElem?_map, List.getElem?_map, List.getElem?_eq_getElem hi,
        List.getElem?_eq_getElem hj, Option.map_some, Option.map_some, hroute, hj']
    exact hij ((List.getElem?_inj (by rwa [List.length_map]) h.routes_nodup).1 hroutes)

theorem stateOf_applyNodes (records : List NodeRecord) (r : Registry) :
    (records.foldl applyNode r).stateOf = r.stateOf := by
  induction records generalizing r with
  | nil => rfl
  | cons record records ih =>
    rw [List.foldl_cons, ih, applyNode]
    split
    · rfl
    · exact stateOf_putNode record

theorem states_removeNodes (routes : List String) (r : Registry) :
    (r.removeNodes routes).2.states = r.states := by
  induction routes generalizing r with
  | nil => rfl
  | cons route routes ih =>
    unfold removeNodes
    split
    · exact ih r
    · rename_i n r' hr
      obtain ⟨old, -, heq⟩ := Option.map_eq_some_iff.1 hr
      cases heq
      exact ih _

theorem mem_of_mem_removeNodes {routes : List String} {n : Node}
    (hn : n ∈ (r.removeNodes routes).2.nodes) :
    n ∈ r.nodes := by
  induction routes generalizing r with
  | nil => exact hn
  | cons route routes ih =>
    unfold removeNodes at hn
    split at hn
    · exact ih hn
    · rename_i n' r' hr
      exact mem_of_mem_removeNode hr (ih hn)

/-- No state changes by `reconcile`. -/
theorem stateOf_reconcile (balancers : List BalancerRecord) (nodes : List NodeRecord)
    (r : Registry) :
    (r.reconcile balancers nodes).2.stateOf = r.stateOf := by
  funext id
  have hstates : (balancers.foldl applyBalancer r).stateOf id = r.stateOf id := by
    cases id with
    | zero => rfl
    | succ i => simp only [stateOf, (nodes_applyBalancers balancers r).2]
  rw [← hstates, ← congrFun (stateOf_applyNodes nodes (balancers.foldl applyBalancer r)) id]
  cases id with
  | zero => rfl
  | succ i => simp only [reconcile, stateOf, states_removeNodes]

/-- A node that stays registered by `reconcile` keeps its identity. -/
theorem Consistent.id_eq_of_mem_reconcile (h : r.Consistent) {balancers : List BalancerRecord}
    {nodes : List NodeRecord} {n n' : Node} (hn : n ∈ r.nodes)
    (hn' : n' ∈ (r.reconcile balancers nodes).2.nodes) (hroute : n'.route = n.route) :
    n'.id = n.id := by
  have hb : (balancers.foldl applyBalancer r).Consistent :=
    h.changes (changes_foldl changes_applyBalancer balancers r)
  have happlied : (nodes.foldl applyNode (balancers.foldl applyBalancer r)).WellFormed :=
    (hb.changes (changes_foldl changes_applyNode nodes _)).wellFormed
  have hn : n ∈ (balancers.foldl applyBalancer r).nodes := by
    rw [(nodes_applyBalancers balancers r).1]
    exact hn
  have hfollow := hb.wellFormed.follow_mem_applyNodes hn nodes
  have heq := happlied.route_inj n' (mem_of_mem_removeNodes hn') _ hfollow
    (hroute.trans (route_foldl_follow nodes n).symm)
  rw [heq, id_foldl_follow]

/-! ### Runs -/

/-- The registry `r` that any `actions` make of the empty one is `Consistent`.  By `putNode` a known
node gets another record, and its identity, its place and all states are as they were; by
`reconcile` a node that stays keeps its identity and its state.  In all later registries, a node
with the identity of `n` has its route; and an identity that was given, and is registered no more,
is never registered again. -/
theorem consistent_run (actions : List Action) :
    let r := ({} : Registry).run actions
    r.Consistent ∧
    (∀ record i old, r.nodes[i]? = some old → old.route = record.route →
      (r.putNode record).1 = { old with record } ∧
      (r.putNode record).2.nodes = r.nodes.set i { old with record } ∧
      (r.putNode record).2.stateOf = r.stateOf) ∧
    (∀ balancers nodes, ∀ n ∈ r.nodes, ∀ n' ∈ (r.reconcile balancers nodes).2.nodes,
      n'.route = n.route →
      n'.id = n.id ∧ (r.reconcile balancers nodes).2.stateOf n'.id = r.stateOf n.id) ∧
    (∀ n ∈ r.nodes, ∀ later, ∀ n' ∈ (r.run later).nodes, n'.id = n.id → n'.route = n.route) ∧
    (∀ id < r.nextId, (∀ n ∈ r.nodes, n.id ≠ id) → ∀ later, ∀ n ∈ (r.run later).nodes,
      n.id ≠ id) := by
  intro r
  have hr : r.Consistent := consistent_empty.changes (changes_run actions {})
  refine ⟨hr, ?_, ?_, ?_, ?_⟩
  · intro record i old hold hroute
    have hfind : r.node? record.route = some old :=
      hroute ▸ hr.wellFormed.node?_eq_some (List.mem_of_getElem? hold)
    exact ⟨(putNode_of_some hfind).1, hr.nodes_putNode_of_getElem? hold hroute,
      stateOf_putNode record⟩
  · intro balancers nodes n hn n' hn' hroute
    have hid := hr.id_eq_of_mem_reconcile hn hn' hroute
    exact ⟨hid, by rw [stateOf_reconcile, hid]⟩
  · intro n hn later n' hn' hid
    have hlt : n'.id < r.nextId := hid ▸ hr.id_lt n hn
    obtain ⟨n₀, hn₀, hid₀, hroute⟩ := (Inherits.changes (changes_run later r)).of_lt n' hn' hlt
    rw [← hroute, hr.wellFormed.id_inj n₀ hn₀ n hn (hid₀.trans hid)]
  · rintro _ hlt hgone later n hn rfl
    obtain ⟨n₀, hn₀, hid, -⟩ := (Inherits.changes (changes_run later r)).of_lt n hn hlt
    exact hgone n₀ hn₀ hid

/-- Of two nodes the first is removed: it does not come back under its identity, and the other one
can move. -/
theorem consistent_run_twoNodes :
    let a : NodeRecord := { route := "a", host := "h", port := 1 }
    let b : NodeRecord := { route := "b", host := "h", port := 2 }
    let r :=
      ({} : Registry).run [.putNode a, .putNode b, .elect { id := 2, record := b }, .removeNode "a"]
    r.nodes = [{ id := 2, record := b }] ∧
      (r.putNode { b with port := 3 }).2.nodes = [{ id := 2, record := { b with port := 3 } }] ∧
      (r.putNode { b with port := 3 }).2.stateOf 2 = { elected := 1 } ∧
      ∀ later, ∀ n ∈ (r.run later).nodes, n.id ≠ 1 := by
  intro a b r
  obtain ⟨-, hupdate, -, -, hgone⟩ :=
    consistent_run [.putNode a, .putNode b, .elect { id := 2, record := b }, .removeNode "a"]
  have hnodes : r.nodes = [{ id := 2, record := b }] := by decide +kernel
  obtain ⟨-, hmoved, hstates⟩ :=
    hupdate { b with port := 3 } 0 { id := 2, record := b } (by decide +kernel) rfl
  refine ⟨hnodes, ?_, ?_, hgone 1 (by decide +kernel) (by decide +kernel)⟩
  · rw [hmoved, hnodes]
    rfl
  · rw [hstates]
    decide +kernel

end Registry

end ReverseProxy.Fleet
