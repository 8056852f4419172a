import ReverseProxy.Proofs.Fleet.MembershipRuns
import ReverseProxy.Proofs.Fleet.Reconciliation

/-!
# Reloading a configuration

When other lists of balancers and nodes are loaded, the membership is brought in line with them in
two passes: the nodes are applied one by one, so that the connections to those that move can be
closed, and then the registry is brought in line with both lists, which ends registrations.  Both
passes together come to what the lists say (`Membership.reconcile_exact`): the records, the places
and the states, the policies, the queues of waiting connections; and nothing is left to do for a
second time.
-/

namespace ReverseProxy.Fleet

namespace IdlePool

/-- The queues of the `removed` nodes are gone, and all others are as they were. -/
theorem queue?_closeAll (removed : List Node) (p : IdlePool) (id : Nat) :
    (removed.foldl (fun idle n => (idle.close n.id).2) p).queue? id =
      if ∃ n ∈ removed, n.id = id then none else p.queue? id := by
  induction removed generalizing p with
  | nil => rw [if_neg (by simp)]; rfl
  | cons n removed ih =>
    have hclose : (p.close n.id).2.queue? id = if id = n.id then none else p.queue? id :=
      queue?_erase p n.id id
    rw [List.foldl_cons, ih, hclose]
    by_cases hid : n.id = id
    · simp [hid]
    · simp [hid, Ne.symm hid]

end IdlePool

namespace Membership

variable {m : Membership} {records : List NodeRecord}

/-! ### Applying nodes -/

/-- Applying `records` does nothing to nodes that are registered with them. -/
theorem applyNodes_of_hasRecord (h : ∀ record ∈ records, m.registry.hasRecord record = true) :
    records.foldl applyNode m = m := by
  induction records with
  | nil => rfl
  | cons record records ih =>
    obtain ⟨hrecord, hrecords⟩ := List.forall_mem_cons.1 h
    rw [List.foldl_cons, applyNode, if_pos hrecord]
    exact ih hrecords

theorem registry_applyNode (m : Membership) (record : NodeRecord) :
    (m.applyNode record).registry = m.registry.applyNode record := nodes_applyNodes [record] m

theorem idle_applyNode_of_none {record : NodeRecord} (h : m.registry.node? record.route = none) :
    (m.applyNode record).idle = m.idle := by
  unfold applyNode
  split
  · rfl
  · simp only [putNode, h, Option.any_none, Bool.false_eq_true, if_false]

theorem idle_applyNode_of_some {record : NodeRecord} {old : Node}
    (h : m.registry.node? record.route = some old) :
    (m.applyNode record).idle = if isElsewhere old record then m.idle.erase old.id else m.idle := by
  unfold applyNode
  split
  · rename_i hrecord
    rw [Registry.hasRecord, h, Option.any_some] at hrecord
    have hstays : isElsewhere old record = false := by simp [isElsewhere, eq_of_beq hrecord]
    rw [hstays, if_neg Bool.false_ne_true]
  · simp only [putNode, h, Option.any_some, (Registry.putNode_of_some h).1]
    rfl

/-- The queue of a node is dropped by `applyNode` exactly if the record of its route is
elsewhere. -/
theorem queue?_applyNode (h : m.registry.WellFormed) (record : NodeRecord) (id : Nat) :
    (m.applyNode record).idle.queue? id =
      if ∃ n ∈ m.registry.nodes, n.id = id ∧ n.route = record.route ∧
      isElsewhere n record = true then none
      else m.idle.queue? id := by
  cases hfind : m.registry.node? record.route with
  | none =>
    rw [idle_applyNode_of_none hfind, if_neg]
    rintro ⟨n, hn, -, hroute, -⟩
    exact Registry.route_ne_of_node?_eq_none hfind hn hroute
  | some old =>
    obtain ⟨hold, hroute⟩ := Registry.mem_of_node?_eq_some hfind
    have hiff : (∃ n ∈ m.registry.nodes, n.id = id ∧ n.route = record.route ∧
      isElsewhere n record = true) ↔
        isElsewhere old record = true ∧ id = old.id := by
      constructor
      · rintro ⟨n, hn, rfl, hn', hmoves⟩
        obtain rfl := h.route_inj n hn old hold (hn'.trans hroute.symm)
        exact ⟨hmoves, rfl⟩
      · rintro ⟨hmoves, rfl⟩
        exact ⟨old, hold, rfl, hroute, hmoves⟩
    rw [idle_applyNode_of_some hfind]
    by_cases hmoves : isElsewhere old record = true
    · simp only [hiff, hmoves, true_and, if_true]
      exact IdlePool.queue?_erase m.idle old.id id
    · rw [if_neg hmoves, if_neg fun hmoved => hmoves (hiff.1 hmoved).1]

/-- The queue of a node is dropped exactly if one of the `records` has its route and is
elsewhere. -/
theorem queue?_applyNodes (h : m.registry.WellFormed)
    (hroutes : (records.map NodeRecord.route).Nodup) (id : Nat) :
    (records.foldl applyNode m).idle.queue? id =
      if ∃ n ∈ m.registry.nodes, n.id = id ∧ ∃ record ∈ records, n.route = record.route ∧
      isElsewhere n record = true
      then none else m.idle.queue? id := by
  induction records generalizing m with
  | nil => rw [if_neg (by simp)]; rfl
  | cons record records ih =>
    obtain ⟨hroute, hroutes⟩ := List.nodup_cons.1 hroutes
    have hrest : (∃ n ∈ (m.applyNode record).registry.nodes, n.id = id ∧
        ∃ record ∈ records, n.route = record.route ∧ isElsewhere n record = true) ↔
        ∃ n ∈ m.registry.nodes, n.id = id ∧
          ∃ record ∈ records, n.route = record.route ∧ isElsewhere n record = true := by
      refine exists_congr fun n => and_congr_left ?_
      rintro ⟨-, record', hrecord', hn, -⟩
      have hne : n.route ≠ record.route :=
        fun heq => hroute (heq ▸ hn ▸ List.mem_map_of_mem hrecord')
      rw [registry_applyNode]
      exact h.mem_applyNode_of_ne hne
    have h' : (m.applyNode record).registry.WellFormed :=
      (registry_applyNode m record).symm ▸ h.applyNode record
    rw [List.foldl_cons, ih h' hroutes, queue?_applyNode h]
    simp only [hrest, List.mem_cons, exists_eq_or_imp, and_or_left, exists_or]
    by_cases hmoves : ∃ n ∈ m.registry.nodes, n.id = id ∧ n.route = record.route ∧
      isElsewhere n record = true
    · simp only [hmoves, true_or, if_true, ite_self]
    · simp only [hmoves, false_or, if_false]

/-! ### Both passes -/

/-- The node is listed in `records`, and is where its record says. -/
def Stays (records : List NodeRecord) (n : Node) : Prop :=
  ∃ record ∈ records, n.route = record.route ∧ n.record.host = record.host ∧
    n.record.port = record.port ∧
    n.record.secure = record.secure

instance (records : List NodeRecord) (n : Node) : Decidable (Stays records n) :=
  inferInstanceAs (Decidable (∃ record ∈ records, _))

theorem isElsewhere_eq_false_iff {n : Node} {record : NodeRecord} :
    isElsewhere n record = false ↔
      n.record.host = record.host ∧ n.record.port = record.port ∧
      n.record.secure = record.secure := by
  simp only [isElsewhere, Bool.or_eq_false_iff, bne_eq_false_iff_eq, and_assoc]

/-- A node that does not stay is not listed, or its record is elsewhere. -/
theorem not_stays_iff (hroutes : (records.map NodeRecord.route).Nodup) {n : Node} :
    ¬Stays records n ↔ n.route ∉ records.map NodeRecord.route ∨
      ∃ record ∈ records, n.route = record.route ∧ isElsewhere n record = true := by
  constructor
  · intro hstays
    by_cases hlisted : n.route ∈ records.map NodeRecord.route
    · obtain ⟨record, hrecord, hroute⟩ := List.mem_map.1 hlisted
      refine .inr ⟨record, hrecord, hroute.symm, Bool.not_eq_false _ ▸ fun hhere => hstays ?_⟩
      exact ⟨record, hrecord, hroute.symm, isElsewhere_eq_false_iff.1 hhere⟩
    · exact .inl hlisted
  · rintro (hlisted | ⟨record, hrecord, hroute, hmoves⟩) ⟨record', hrecord', hroute', hhere⟩
    · exact hlisted (hroute' ▸ List.mem_map_of_mem hrecord')
    · obtain rfl := List.inj_on_of_nodup_map hroutes hrecord hrecord' (hroute.symm.trans hroute')
      rw [isElsewhere_eq_false_iff.2 hhere] at hmoves
      cases hmoves

section

variable {balancers : List BalancerRecord} {nodes : List NodeRecord}

theorem idle_reconcile (h : m.registry.WellFormed) (hroutes : (nodes.map NodeRecord.route).Nodup) :
    let applied :=
      balancers.foldl Registry.applyBalancer (nodes.foldl Registry.applyNode m.registry)
    (m.reconcile balancers nodes).idle = (applied.removeNodes (applied.stale nodes)).1.foldl
      (fun idle n => (idle.close n.id).2) (nodes.foldl applyNode m).idle := by
  intro applied
  rw [← h.reconcile_applyNodes hroutes, ← nodes_applyNodes]
  rfl

/-- The queue of a node is gone after `reconcile` if the node does not stay, and else it is left
alone. -/
theorem queue?_reconcile (h : m.registry.WellFormed) (hroutes : (nodes.map NodeRecord.route).Nodup)
    (id : Nat) :
    (m.reconcile balancers nodes).idle.queue? id =
      if ∃ n ∈ m.registry.nodes, n.id = id ∧ ¬Stays nodes n then none else m.idle.queue? id := by
  have happlied :=
    Registry.nodes_applyBalancers balancers (nodes.foldl Registry.applyNode m.registry)
  have hw :
    (balancers.foldl Registry.applyBalancer
      (nodes.foldl Registry.applyNode m.registry)).WellFormed :=
    (h.applyNodes nodes).of_eq happlied.1 (congrArg (List.length · + 1) happlied.2)
  have hremoved (n : Node) :
      n ∈
      ((balancers.foldl Registry.applyBalancer
        (nodes.foldl Registry.applyNode m.registry)).removeNodes
        ((balancers.foldl Registry.applyBalancer (nodes.foldl Registry.applyNode m.registry)).stale
          nodes)).1 ↔
      n ∈ m.registry.nodes ∧ n.route ∉ nodes.map NodeRecord.route := by
    rw [hw.mem_removeNodes_iff]
    constructor
    · rintro ⟨hn, hroute⟩
      have hlisted := (Registry.mem_stale_iff hn).1 hroute
      rw [happlied.1] at hn
      exact ⟨(h.mem_applyNodes_of_notMem hlisted).1 hn, hlisted⟩
    · rintro ⟨hn, hlisted⟩
      have hn := (h.mem_applyNodes_of_notMem hlisted).2 hn
      rw [← happlied.1] at hn
      exact ⟨hn, (Registry.mem_stale_iff hn).2 hlisted⟩
  rw [idle_reconcile h hroutes, IdlePool.queue?_closeAll, queue?_applyNodes h hroutes]
  by_cases hstays : ∃ n ∈ m.registry.nodes, n.id = id ∧ ¬Stays nodes n
  · rw [if_pos hstays]
    obtain ⟨n, hn, rfl, hstays⟩ := hstays
    rcases (not_stays_iff hroutes).1 hstays with hlisted | hmoves
    · exact if_pos ⟨n, (hremoved n).2 ⟨hn, hlisted⟩, rfl⟩
    · split
      · rfl
      · exact if_pos ⟨n, hn, rfl, hmoves⟩
  · rw [if_neg hstays, if_neg, if_neg]
    · rintro ⟨n, hn, hid, hmoves⟩
      exact hstays ⟨n, hn, hid, (not_stays_iff hroutes).2 (.inr hmoves)⟩
    · rintro ⟨n, hn, hid⟩
      obtain ⟨hn, hlisted⟩ := (hremoved n).1 hn
      exact hstays ⟨n, hn, hid, (not_stays_iff hroutes).2 (.inl hlisted)⟩

/-- A membership that agrees with the lists stays as it is by `reconcile`. -/
theorem reconcile_of_settled (hbalancers : ∀ b ∈ balancers, m.registry.balancer? b.name = some b)
    (hnodes : ∀ record ∈ nodes, m.registry.hasRecord record = true)
    (hroutes : ∀ n ∈ m.registry.nodes, n.route ∈ nodes.map NodeRecord.route) :
    m.reconcile balancers nodes = m := by
  unfold reconcile
  simp only [applyNodes_of_hasRecord hnodes,
    Registry.reconcile_of_settled hbalancers hnodes hroutes, List.foldl_nil]

end

/-- What `reconcile` makes of a membership `m` after any `actions`, with lists of distinct names and
routes.  The nodes have the records of `nodes`, each just one of them; those that were registered
keep their identities and their order, new ones follow in the order of the list, and no state
changes.  The listed balancers have their listed policies; another one keeps its policy, or has the
default one if only a node names it.  The queue of a node that does not stay, as it is not listed or
listed elsewhere, is gone, and all others are as they were.  The registry is what
`Registry.reconcile` makes of it alone, up to the order of balancers; and to do the same again
changes nothing. -/
theorem reconcile_exact (balancers₀ : List BalancerRecord) (nodes₀ : List NodeRecord)
    (actions : List Action) (balancers : List BalancerRecord) (nodes : List NodeRecord)
    (hnames : (balancers.map BalancerRecord.name).Nodup)
    (hroutes : (nodes.map NodeRecord.route).Nodup) :
    let m := (start balancers₀ nodes₀).run actions
    let m' := m.reconcile balancers nodes
    let alone := (m.registry.reconcile balancers nodes).2
    (m'.registry.nodes.map Node.record).Perm nodes ∧
    m'.registry.nodes.map Node.place =
      (m.registry.nodes.filter fun n =>
        (nodes.map NodeRecord.route).contains n.route).map Node.place ++
      Registry.newPlaces m.registry.nextId (m.registry.fresh nodes) ∧
    m'.registry.stateOf = m.registry.stateOf ∧
    (∀ b ∈ balancers, m'.registry.balancer? b.name = some b) ∧
    (∀ name ∉ balancers.map BalancerRecord.name, m'.registry.balancer? name =
      (m.registry.balancer? name).or
        (if name ∈ nodes.map NodeRecord.balancer then some (.named name) else none)) ∧
    (∀ id, m'.idle.queue? id =
      if ∃ n ∈ m.registry.nodes, n.id = id ∧ ¬Stays nodes n then none else m.idle.queue? id) ∧
    (m'.registry.members = alone.members ∧ m'.registry.balancers.Perm alone.balancers) ∧
    m'.reconcile balancers nodes = m' := by
  intro m m' alone
  have hr : m.registry.Consistent := consistent_registry_run balancers₀ nodes₀ actions
  have hr' : m'.registry.Consistent := hr.changes (changes_perform m (.reconcile balancers nodes))
  have halone : alone.Consistent :=
    hr.changes (Registry.changes_reconcile m.registry balancers nodes)
  have hregistry :
      m'.registry = ((nodes.foldl Registry.applyNode m.registry).reconcile balancers nodes).2 :=
    registry_reconcile m balancers nodes
  have hmembers : m'.registry.members = alone.members :=
    (congrArg Registry.members hregistry).trans (hr.wellFormed.members_reconcile_applyNodes hroutes)
  have hpolicy (name : String) := hr.balancer?_reconcile_applyNodes hroutes hnames name
  have hnodes :
    m'.registry.nodes = (nodes.foldl Registry.applyNode m.registry).nodes.filter fun n =>
      (nodes.map NodeRecord.route).contains n.route := by
    rw [hregistry, hr.wellFormed.reconcile_applyNodes hroutes, Registry.nodes_removeNodes_stale,
      (Registry.nodes_applyBalancers ..).1]
  have hlisted (n : Node) (hn : n ∈ m'.registry.nodes) : n.route ∈ nodes.map NodeRecord.route := by
    rw [hnodes] at hn
    exact List.contains_iff_mem.1 (List.mem_filter.1 hn).2
  have hrecords (record : NodeRecord) (hrecord : record ∈ nodes) :
      m'.registry.hasRecord record = true := by
    obtain ⟨n, hn, rfl⟩ := (hr.wellFormed.applyNodes nodes).hasRecord_iff.1
      (hr.wellFormed.hasRecord_applyNodes hroutes hrecord)
    refine hr'.wellFormed.hasRecord_iff.2 ⟨n, ?_, rfl⟩
    rw [hnodes]
    exact List.mem_filter.2 ⟨hn, List.contains_iff_mem.2 (List.mem_map_of_mem hrecord)⟩
  have hnew (b : BalancerRecord) (hb : b ∈ balancers) : m'.registry.balancer? b.name = some b := by
    rw [hregistry, (hpolicy b.name).1, Registry.find?_name_of_mem hnames hb]
    rfl
  refine ⟨hr'.perm_records hroutes hrecords hlisted, ?_, ?_, hnew, ?_,
    queue?_reconcile hr.wellFormed hroutes,
    ⟨hmembers, Registry.perm_balancers hr' halone ?_⟩, reconcile_of_settled hnew hrecords hlisted⟩
  · rw [hregistry]
    exact hr.wellFormed.places_reconcile_applyNodes hroutes
  · rw [hregistry, Registry.stateOf_reconcile, Registry.stateOf_applyNodes]
  · intro name hname
    have hnone : (balancers.find? fun b => b.name == name) = none := by
      simpa using hname
    rw [hregistry, (hpolicy name).1, hnone, Option.none_or]
  · intro name
    rw [hregistry, (hpolicy name).1, (hpolicy name).2]

/-- Three nodes. -/
def threeNodes : List NodeRecord :=
  [{ route := "a", host := "h", port := 1 }, { route := "b", host := "h", port := 2 },
    { route := "c", host := "h", port := 3 }]

/-- A connection comes to wait for each of `threeNodes`. -/
def threeWaiting : List Action :=
  (threeNodes.mapIdx fun i record => ({ id := i + 1, record } : Node)).flatMap fun n =>
    [.take (fun _ => true) n, .recycle (fun _ => true) n (n.connection n.id)]

/-- The policy of the balancer `x`, which one of `nextNodes` names. -/
def forced : BalancerRecord := { name := "x", force := true }

/-- The lists in which the first of `threeNodes` moves, the second is missing and the third has
another load; a fourth one is new. -/
def nextNodes : List NodeRecord :=
  [{ route := "c", host := "h", port := 3, load := 50 },
    { route := "d", host := "h", port := 4, balancer := "x" },
    { route := "a", host := "h", port := 9 }]

/-- Of `threeNodes` those that stay keep their identities, and of the connections only one goes on
waiting. -/
theorem reconcile_exact_nextNodes :
    let m := ((start [] threeNodes).run threeWaiting).reconcile [forced] nextNodes
    m.registry.nodes.map Node.place = [(1, "a"), (3, "c"), (4, "d")] ∧
      (m.registry.nodes.map Node.record).Perm nextNodes ∧ m.registry.balancer? "x" = some forced ∧
      m.idle.queue? 1 = none ∧ m.idle.queue? 2 = none ∧ (m.idle.queue? 3).isSome = true ∧
      m.reconcile [forced] nextNodes = m := by
  intro m
  have hnames : ([forced].map BalancerRecord.name).Nodup := List.nodup_singleton _
  have hroutes : (nextNodes.map NodeRecord.route).Nodup := by decide
  obtain ⟨hrecords, hplaces, -, hlisted, -, hqueues, -, hagain⟩ :=
    reconcile_exact [] threeNodes threeWaiting [forced] nextNodes hnames hroutes
  refine ⟨hplaces.trans ?_, hrecords, hlisted forced (List.mem_singleton.2 rfl), ?_, ?_, ?_, hagain⟩
  · decide +kernel
  · exact (hqueues 1).trans (by decide +kernel)
  · exact (hqueues 2).trans (by decide +kernel)
  · rw [hqueues 3]
    decide +kernel

end Membership

end ReverseProxy.Fleet
