import ReverseProxy.Fleet.Health
import ReverseProxy.Proofs.Fleet.RegistryRuns

/-!
# What a health cycle does

A cycle looks at one node after another and decides by a status that it may itself change.  What
comes of one node is `Registry.settle`, and only that node's state is touched by it (`Checked`);
since no two nodes share an identity, the later ones are then still as they were at first.  So what
a whole cycle does (`settleAll_eq`) and which nodes it tries (`checkNodes_eq_mapM`) are told by the
registry that it began with.

The main statement is `Registry.checkCycle_exact`.
-/

namespace ReverseProxy.Fleet

/-- What a health cycle makes of the state `s` of a node, given whether the node was `reached`. -/
def NodeState.checked (s : NodeState) (reached : Bool) : NodeState :=
  match s.status with
  | .up => s.roll
  | .down => if reached then s.move .down .up else s

theorem NodeState.checked_eq (s : NodeState) (reached : Bool) : s.checked reached = {
    status := if s.status == .up || reached then .up else .down
    elected := s.elected
    previousElected := if s.status == .up then s.elected else s.previousElected } := by
  obtain ⟨_ | _, _, _⟩ := s
  · rfl
  · cases reached <;> rfl

/-- A node that was up is under no pressure after the cycle, as a new count has begun. -/
theorem NodeState.pressure_checked {s : NodeState} (hup : s.status = .up)
    {load : Nat} (hload : 0 < load) (reached : Bool) : (s.checked reached).pressure load = 0 := by
  simp [checked, hup, roll, pressure, Nat.ne_of_gt hload]

namespace Registry

variable {r r' r'' : Registry} {reachable : Node → Bool} {n : Node} {ns ns' : List Node}

/-- From `r` to `r'` a health cycle has looked at the nodes `ns`: their states are `checked`, and
nothing else has changed. -/
structure Checked (reachable : Node → Bool) (r : Registry) (ns : List Node)
    (r' : Registry) : Prop where
  nodes_eq : r'.nodes = r.nodes
  balancers_eq : r'.balancers = r.balancers
  wake_eq : r'.wake = r.wake
  nextId_eq : r'.nextId = r.nextId
  state_eq : ∀ n ∈ ns, r'.stateOf n.id = (r.stateOf n.id).checked (reachable n)
  others_eq : ∀ id, (∀ n ∈ ns, n.id ≠ id) → r'.stateOf id = r.stateOf id

theorem Checked.refl (reachable : Node → Bool) (r : Registry) : Checked reachable r [] r :=
  ⟨rfl, rfl, rfl, rfl, List.forall_mem_nil _, fun _ _ => rfl⟩

/-- The nodes `ns` that come after `n` are as they were when `n` has been looked at. -/
theorem Checked.stateOf_of_mem (h : Checked reachable r [n] r') (hnew : n.id ∉ ns.map Node.id) :
    ∀ n' ∈ ns, r'.stateOf n'.id = r.stateOf n'.id := by
  intro n' hn'
  refine h.others_eq n'.id (List.forall_mem_singleton.2 ?_)
  exact fun heq => hnew (heq ▸ List.mem_map_of_mem hn')

theorem Checked.isUp_of_mem (h : Checked reachable r [n] r') (hnew : n.id ∉ ns.map Node.id) :
    ∀ n' ∈ ns, r'.isUp n' = r.isUp n' := by
  intro n' hn'
  rw [isUp, h.stateOf_of_mem hnew n' hn', isUp]

theorem Checked.append (h : Checked reachable r ns r') (h' : Checked reachable r' ns' r'')
    (hids : ∀ n ∈ ns, ∀ n' ∈ ns', n.id ≠ n'.id) : Checked reachable r (ns ++ ns') r'' where
  nodes_eq := h'.nodes_eq.trans h.nodes_eq
  balancers_eq := h'.balancers_eq.trans h.balancers_eq
  wake_eq := h'.wake_eq.trans h.wake_eq
  nextId_eq := h'.nextId_eq.trans h.nextId_eq
  state_eq := by
    rw [List.forall_mem_append]
    constructor
    · intro n hn
      rw [h'.others_eq n.id fun n' hn' => (hids n hn n' hn').symm, h.state_eq n hn]
    · intro n' hn'
      rw [h'.state_eq n' hn', h.others_eq n'.id fun n hn => hids n hn n' hn']
  others_eq id hid := by
    obtain ⟨hns, hns'⟩ := List.forall_mem_append.1 hid
    rw [h'.others_eq id hns', h.others_eq id hns]

theorem checked_updateState (hpos : 0 < n.id) (hlt : n.id < r.nextId) {f : NodeState → NodeState}
    (hf : f (r.stateOf n.id) = (r.stateOf n.id).checked (reachable n)) :
    Checked reachable r [n] (r.updateState n.id f) where
  nodes_eq := (nodes_updateState n.id f).1
  balancers_eq := balancers_updateState n.id f
  wake_eq := wake_updateState n.id f
  nextId_eq := (nodes_updateState n.id f).2
  state_eq := List.forall_mem_singleton.2 ((stateOf_updateState_self hpos hlt f).trans hf)
  others_eq _ hid := stateOf_updateState_of_ne (List.forall_mem_singleton.1 hid).symm f

/-! ### One node -/

/-- The report and the registry after a look at `n`, given whether it was `reached`. -/
def settle (report : CycleReport) (r : Registry) (n : Node) (reached : Bool) :
    CycleReport × Registry :=
  if r.isUp n then
    (if (r.stateOf n.id).isStalled then { report with stalled := report.stalled ++ [n.route] }
      else report,
      r.updateState n.id NodeState.roll)
  else if reached then
    ({ report with restored := report.restored ++ [n.route] },
      r.updateState n.id (·.move .down .up))
  else (report, r)

theorem restored_settle (report : CycleReport) (reached : Bool) :
    (r.settle report n reached).1.restored =
      report.restored ++ if !r.isUp n && reached then [n.route] else [] := by
  unfold settle
  by_cases hup : r.isUp n = true
  · by_cases hstalled : (r.stateOf n.id).isStalled = true <;> simp [hup, hstalled]
  · cases reached <;> simp [hup]

theorem stalled_settle (report : CycleReport) (reached : Bool) :
    (r.settle report n reached).1.stalled =
      report.stalled ++ if r.isUp n && (r.stateOf n.id).isStalled then [n.route] else [] := by
  unfold settle
  by_cases hup : r.isUp n = true
  · by_cases hstalled : (r.stateOf n.id).isStalled = true <;> simp [hup, hstalled]
  · cases reached <;> simp [hup]

theorem checked_settle (hpos : 0 < n.id) (hlt : n.id < r.nextId) (report : CycleReport) :
    Checked reachable r [n] (r.settle report n (reachable n)).2 := by
  by_cases hup : r.isUp n = true
  · have hroll : (r.stateOf n.id).roll = (r.stateOf n.id).checked (reachable n) := by
      rw [NodeState.checked, isUp_iff.1 hup]
    rw [settle, if_pos hup]
    exact checked_updateState hpos hlt hroll
  have hdown := not_isUp_iff.1 hup
  rw [settle, if_neg hup]
  by_cases hreachable : reachable n = true
  · have hmove : (r.stateOf n.id).move .down .up = (r.stateOf n.id).checked (reachable n) := by
      rw [NodeState.checked, NodeState.move, hdown, if_pos rfl, hreachable]
      rfl
    rw [if_pos hreachable]
    exact checked_updateState hpos hlt hmove
  · have hstays : r.stateOf n.id = (r.stateOf n.id).checked (reachable n) := by
      rw [NodeState.checked, hdown, Bool.eq_false_iff.2 hreachable]
      rfl
    rw [if_neg hreachable]
    exact ⟨rfl, rfl, rfl, rfl, List.forall_mem_singleton.2 hstays, fun _ _ => rfl⟩

section

variable {m : Type → Type} [Monad m] (probe : Node → m Bool) (report : CycleReport)

/-- A node that is up is not tried. -/
theorem checkNode_of_up (h : r.isUp n = true) (reached : Bool) :
    r.checkNode probe report n = pure (r.settle report n reached) := by
  simp only [checkNode, settle, h, if_true, roll]
  rfl

/-- A node that is down is tried once. -/
theorem checkNode_of_down (h : r.isUp n = false) :
    r.checkNode probe report n = probe n >>= fun reached => pure (r.settle report n reached) := by
  simp only [checkNode, settle, h, markUp, Bool.false_eq_true, if_false, if_true]
  congr 1
  funext reached
  cases reached <;> rfl

end

/-! ### All nodes -/

/-- The report and the registry after a look at several nodes, given which are `reachable`. -/
def settleAll (reachable : Node → Bool) : CycleReport → Registry → List Node →
    CycleReport × Registry
  | report, r, [] => (report, r)
  | report, r, n :: ns =>
      settleAll reachable (r.settle report n (reachable n)).1 (r.settle report n (reachable n)).2 ns

/-- What `settleAll` finds on nodes with distinct identities. -/
theorem settleAll_eq (hids : (ns.map Node.id).Nodup) (hns : ∀ n ∈ ns, 0 < n.id ∧ n.id < r.nextId)
    (reachable : Node → Bool) (report : CycleReport) :
    let found := r.settleAll reachable report ns
    found.1.restored =
      report.restored ++ (ns.filter fun n => !r.isUp n && reachable n).map Node.route ∧
      found.1.stalled =
        report.stalled ++
          (ns.filter fun n => r.isUp n && (r.stateOf n.id).isStalled).map Node.route ∧
      Checked reachable r ns found.2 := by
  induction ns generalizing r report with
  | nil => exact ⟨(List.append_nil _).symm, (List.append_nil _).symm, .refl reachable r⟩
  | cons n ns ih =>
    intro found
    obtain ⟨hnew, hids⟩ := List.nodup_cons.1 hids
    obtain ⟨⟨hpos, hlt⟩, hns⟩ := List.forall_mem_cons.1 hns
    have hfirst : Checked reachable r [n] _ := checked_settle hpos hlt report
    obtain ⟨hrestored, hstalled, hrest⟩ :=
      ih hids (hfirst.nextId_eq ▸ hns) (r.settle report n (reachable n)).1
    have hne : ∀ n' ∈ ns, n.id ≠ n'.id := fun n' hn' heq => hnew (heq ▸ List.mem_map_of_mem hn')
    rw [restored_settle, List.filter_congr fun n' hn' => by rw [hfirst.isUp_of_mem hnew n' hn']]
      at hrestored
    rw [stalled_settle, List.filter_congr fun n' hn' => by
      rw [hfirst.isUp_of_mem hnew n' hn', hfirst.stateOf_of_mem hnew n' hn']] at hstalled
    refine ⟨hrestored.trans ?_, hstalled.trans ?_,
      hfirst.append hrest (List.forall_mem_singleton.2 hne)⟩
    · rw [List.filter_cons, List.append_assoc]
      split <;> rfl
    · rw [List.filter_cons, List.append_assoc]
      split <;> rfl

theorem settleAll_congr {reachable' : Node → Bool} (h : ∀ n ∈ ns, reachable n = reachable' n)
    (report : CycleReport)
    (r : Registry) : r.settleAll reachable report ns = r.settleAll reachable' report ns := by
  induction ns generalizing report r with
  | nil => rfl
  | cons n ns ih =>
    obtain ⟨hn, hns⟩ := List.forall_mem_cons.1 h
    rw [settleAll, settleAll, hn, ih hns]

theorem checkNodes_pure {m : Type → Type} [Monad m] [LawfulMonad m] (reachable : Node → Bool)
    (report : CycleReport) (r : Registry) (ns : List Node) :
    r.checkNodes (fun n => (pure (reachable n) : m Bool)) report ns =
      pure (r.settleAll reachable report ns) := by
  induction ns generalizing report r with
  | nil => rfl
  | cons n ns ih =>
    have hfirst : r.checkNode (fun n => (pure (reachable n) : m Bool)) report n =
        pure (r.settle report n (reachable n)) := by
      by_cases hup : r.isUp n = true
      · exact checkNode_of_up _ report hup _
      · rw [checkNode_of_down _ report (Bool.eq_false_iff.2 hup), pure_bind]
    rw [checkNodes, hfirst, pure_bind]
    exact ih _ _

theorem checkCycle_eq (reachable : Node → Bool) (r : Registry) :
    r.checkCycle reachable = r.settleAll reachable {} r.nodes :=
  congrArg Id.run (checkNodes_pure reachable {} r r.nodes)

/-! ### What is tried -/

/-- The outcome for `n`, where the nodes `tried` had these `outcomes`. -/
def outcomeOf (tried : List Node) (outcomes : List Bool) (n : Node) : Bool :=
  ((tried.zip outcomes).lookup n).getD false

@[simp] theorem outcomeOf_cons_self (n : Node) (tried : List Node) (reached : Bool)
    (outcomes : List Bool) :
    outcomeOf (n :: tried) (reached :: outcomes) n = reached := by
  simp [outcomeOf]

theorem outcomeOf_cons_of_ne {n' : Node} (h : n' ≠ n) (tried : List Node)
    (reached : Bool) (outcomes : List Bool) :
    outcomeOf (n :: tried) (reached :: outcomes) n' = outcomeOf tried outcomes n' := by
  simp [outcomeOf, List.lookup_cons, beq_eq_false_iff_ne.2 h]

section

variable {m : Type → Type} [Monad m] [LawfulMonad m]

/-- In `checkNodes` the nodes that are down at first are probed, each once and in their order, and
what is done follows from the outcomes. -/
theorem checkNodes_eq_mapM (hids : (ns.map Node.id).Nodup)
    (hns : ∀ n ∈ ns, 0 < n.id ∧ n.id < r.nextId) (probe : Node → m Bool) (report : CycleReport) :
    let tried := ns.filter fun n => !r.isUp n
    r.checkNodes probe report ns = tried.mapM probe >>= fun outcomes =>
      pure (r.settleAll (outcomeOf tried outcomes) report ns) := by
  induction ns generalizing r report with
  | nil => simp [checkNodes, settleAll]
  | cons n ns ih =>
    intro tried
    obtain ⟨hnew, hids⟩ := List.nodup_cons.1 hids
    obtain ⟨⟨hpos, hlt⟩, hns⟩ := List.forall_mem_cons.1 hns
    let later := ns.filter fun n => !r.isUp n
    let found := r.settle report n
    have hrest (reached : Bool) : (found reached).2.checkNodes probe (found reached).1 ns =
        later.mapM probe >>= fun outcomes =>
          pure ((found reached).2.settleAll (outcomeOf later outcomes) (found reached).1 ns) := by
      have hfirst : Checked (fun _ => reached) r [n] _ := checked_settle hpos hlt report
      have h := ih hids (hfirst.nextId_eq ▸ hns) (found reached).1
      rw [List.filter_congr fun n' hn' => by rw [hfirst.isUp_of_mem hnew n' hn']] at h
      exact h
    by_cases hup : r.isUp n = true
    · have htried : tried = later := List.filter_cons_of_neg (by simp [hup])
      have hfound (reached : Bool) : r.settle report n reached = found false := by
        simp only [found, settle, hup, if_true]
      calc r.checkNodes probe report (n :: ns)
        _ = r.checkNode probe report n >>= fun found => found.2.checkNodes probe found.1 ns := rfl
        _ = (found false).2.checkNodes probe (found false).1 ns := by
          rw [checkNode_of_up probe report hup false, pure_bind]
        _ = later.mapM probe >>= fun outcomes =>
          pure (r.settleAll (outcomeOf later outcomes) report (n :: ns)) := by
          rw [hrest]
          refine bind_congr fun outcomes => ?_
          rw [settleAll, hfound (outcomeOf later outcomes n)]
        _ = _ := by rw [htried]
    · have htried : tried = n :: later := List.filter_cons_of_pos (by simp [hup])
      have hsettled (reached : Bool) (outcomes : List Bool) :
          r.settleAll (outcomeOf (n :: later) (reached :: outcomes)) report (n :: ns) =
            (found reached).2.settleAll (outcomeOf later outcomes) (found reached).1 ns := by
        rw [settleAll, outcomeOf_cons_self]
        apply settleAll_congr
        intro n' hn'
        refine outcomeOf_cons_of_ne ?_ later reached outcomes
        rintro rfl
        exact hnew (List.mem_map_of_mem hn')
      calc r.checkNodes probe report (n :: ns)
        _ = r.checkNode probe report n >>= fun found => found.2.checkNodes probe found.1 ns := rfl
        _ = probe n >>= fun reached => (found reached).2.checkNodes probe (found reached).1 ns := by
          rw [checkNode_of_down probe report (Bool.eq_false_iff.2 hup), bind_assoc]
          exact bind_congr fun reached => pure_bind _ _
        _ = probe n >>= fun reached => later.mapM probe >>= fun outcomes =>
              pure
                (r.settleAll (outcomeOf (n :: later) (reached :: outcomes)) report (n :: ns)) := by
          refine bind_congr fun reached => ?_
          simp only [hrest, hsettled]
        _ = _ := by
          rw [htried, List.mapM_cons]
          simp only [bind_assoc, pure_bind]

end

/-! ### Cycles -/

/-- A health cycle on any registry `r` that `actions` lead to, whether or not it was woken.  It
reports as `restored` the nodes that were down and reachable, which are up from then on, and as
`stalled` those that were up and had not been elected since the last cycle.  The state of every node
is `checked`, so that nodes that were up have a pressure of 0 if they have a load; nothing else
about the nodes or the balancers changes.  With any monad of effects, it connects to the addresses
of the nodes that were down, to each once and in their order, and to no other. -/
theorem checkCycle_exact (actions : List Action) (wake : Bool) (reachable : Node → Bool) :
    let r : Registry := { ({} : Registry).run actions with wake }
    let report := (r.checkCycle reachable).1
    let r' := (r.checkCycle reachable).2
    report.restored = (r.nodes.filter fun n => !r.isUp n && reachable n).map Node.route ∧
    report.stalled = (r.nodes.filter fun n =>
      r.isUp n && (r.stateOf n.id).elected == (r.stateOf n.id).previousElected).map Node.route ∧
    (∀ n ∈ r.nodes, r'.stateOf n.id = {
      status := if r.isUp n || reachable n then .up else .down
      elected := (r.stateOf n.id).elected
      previousElected :=
        if r.isUp n then (r.stateOf n.id).elected else (r.stateOf n.id).previousElected }) ∧
    (∀ id, (∀ n ∈ r.nodes, n.id ≠ id) → r'.stateOf id = r.stateOf id) ∧
    (r'.nodes = r.nodes ∧ r'.balancers = r.balancers ∧ r'.nextId = r.nextId ∧ r'.wake = r.wake) ∧
    (∀ n ∈ r.nodes, r.isUp n = true → 0 < n.record.load → r'.pressure n = 0) ∧
    ∀ (m : Type → Type) [Monad m] [LawfulMonad m] (connect : String → m Bool),
      let down := r.nodes.filter fun n => !r.isUp n
      r.checkAll (Node.probe connect) = (down.mapM fun n => connect n.address) >>= fun outcomes =>
        pure (r.checkCycle (outcomeOf down outcomes)) := by
  intro r report r'
  have hr : (({} : Registry).run actions).Consistent :=
    consistent_empty.changes (changes_run actions {})
  have hids : (r.nodes.map Node.id).Nodup := hr.ids_increasing.imp Nat.ne_of_lt
  have hknown : ∀ n ∈ r.nodes, 0 < n.id ∧ n.id < r.nextId :=
    fun n hn => ⟨hr.id_pos n hn, hr.id_lt n hn⟩
  obtain ⟨hrestored, hstalled, hchecked⟩ := settleAll_eq hids hknown reachable {}
  rw [← checkCycle_eq] at hrestored hstalled hchecked
  refine ⟨hrestored, hstalled, ?_, hchecked.others_eq, ?_, ?_, ?_⟩
  · intro n hn
    exact (hchecked.state_eq n hn).trans (NodeState.checked_eq _ _)
  · exact ⟨hchecked.nodes_eq, hchecked.balancers_eq, hchecked.nextId_eq, hchecked.wake_eq⟩
  · intro n hn hup hload
    rw [pressure, hchecked.state_eq n hn]
    exact NodeState.pressure_checked (isUp_iff.1 hup) hload _
  · intro m _ _ connect down
    simp only [checkCycle_eq]
    exact checkNodes_eq_mapM hids hknown _ {}

/-- Of two nodes one is down: it is tried and comes back, and the other one is not tried. -/
theorem checkCycle_exact_twoNodes :
    let a : NodeRecord := { route := "a", host := "h", port := 1 }
    let b : NodeRecord := { route := "b", host := "h", port := 2 }
    let r := { ({} : Registry).run [.putNode a, .putNode b, .markDown { id := 1, record := a }] with
      wake := false }
    let noting (address : String) : StateM (List String) Bool := do
      modify (· ++ [address])
      return true
    (r.checkCycle fun _ => true).1.restored = ["a"] ∧
      (r.checkCycle fun _ => true).1.stalled = ["b"] ∧
      ((r.checkAll (Node.probe noting)).run []).2 = ["h:1"] := by
  intro a b r noting
  obtain ⟨hrestored, hstalled, -, -, -, -, htried⟩ :=
    checkCycle_exact [.putNode a, .putNode b, .markDown { id := 1, record := a }] false fun _ =>
      true
  constructor
  · rw [hrestored]
    decide +kernel
  constructor
  · rw [hstalled]
    decide +kernel
  · rw [htried (StateM (List String)) noting]
    decide +kernel

end Registry

end ReverseProxy.Fleet
