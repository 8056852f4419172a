import ReverseProxy.Operation.Proxy
import ReverseProxy.Proofs.Fleet.Reconciliation
import ReverseProxy.Proofs.Settings.ProblemCounts

/-!
# The proxy that settings describe

Balancers and nodes are put into the registry one after another, and what is put under a name or a
route that is there already takes the place of what was there.  In settings in which nothing is
wrong, names and routes are all different, so that nothing is replaced
(`Registry.balancers_putBalancers`, `Registry.nodes_putNodes`).  The balancers come before the
nodes, which bring only those that are still missing (`Registry.balancers_putNodes`).

The main statement is `Proxy.ofConfig_lossless`.
-/

namespace ReverseProxy

namespace Fleet.Registry

variable {r : Registry}

/-- A balancer of a new name comes last by `putBalancer`. -/
theorem putBalancer_of_notMem {b : BalancerRecord}
    (h : b.name ∉ r.balancers.map BalancerRecord.name) :
    (r.putBalancer b).balancers = r.balancers ++ [b] := by
  have hany : ¬(r.balancers.any fun x => x.name == b.name) = true := by
    rw [List.any_eq_true]
    rintro ⟨x, hx, hname⟩
    exact h (eq_of_beq hname ▸ List.mem_map_of_mem hx)
  rw [putBalancer, if_neg hany]

/-- Balancers `bs` of new and distinct names come last in their order. -/
theorem balancers_putBalancers {bs : List BalancerRecord}
    (h : (r.balancers.map BalancerRecord.name ++ bs.map BalancerRecord.name).Nodup) :
    (bs.foldl putBalancer r).balancers = r.balancers ++ bs := by
  induction bs generalizing r with
  | nil => exact (List.append_nil _).symm
  | cons b bs ih =>
    have hb : (r.putBalancer b).balancers = r.balancers ++ [b] := by
      apply putBalancer_of_notMem
      intro hmem
      exact (List.nodup_append.1 h).2.2 b.name hmem b.name (List.mem_cons_self ..) rfl
    rw [List.foldl_cons, ih, hb, List.append_assoc, List.singleton_append]
    rwa [hb, List.map_append, List.append_assoc]

/-- A balancer that is unknown comes last by `ensureBalancer`, with the default policy. -/
theorem balancers_ensureBalancer (r : Registry) (name : String) :
    (r.ensureBalancer name).balancers =
      r.balancers ++ if name ∈ r.balancers.map BalancerRecord.name then [] else [.named name] := by
  unfold ensureBalancer
  split
  · rename_i hsome
    rw [if_pos (isSome_balancer?_iff.1 hsome), List.append_nil]
  · rename_i hnone
    have hnew := mt isSome_balancer?_iff.2 hnone
    rw [if_neg hnew, putBalancer_of_notMem hnew]

/-- By `putNode` the balancers that there are stay as they are, and one comes for each name that
none of them has. -/
theorem balancers_putNodes (records : List NodeRecord) (r : Registry) :
    ∃ names : List String,
      (records.foldl (fun r n => (r.putNode n).2) r).balancers = r.balancers ++ names.map .named ∧
      names.Nodup ∧
        ∀ name, name ∈ names ↔
          name ∈ records.map NodeRecord.balancer ∧ name ∉ r.balancers.map BalancerRecord.name := by
  induction records generalizing r with
  | nil => exact ⟨[], (List.append_nil _).symm, List.nodup_nil, by simp⟩
  | cons record records ih =>
    obtain ⟨names, hbalancers, hnodup, hmem⟩ := ih (r.putNode record).2
    rw [balancers_putNode, balancers_ensureBalancer] at hbalancers hmem
    by_cases hknown : record.balancer ∈ r.balancers.map BalancerRecord.name
    · rw [if_pos hknown, List.append_nil] at hbalancers hmem
      refine ⟨names, hbalancers, hnodup, fun name => ?_⟩
      rw [hmem, List.map_cons, List.mem_cons]
      exact ⟨fun ⟨hname, hnew⟩ => ⟨.inr hname, hnew⟩,
        fun ⟨hname, hnew⟩ => ⟨hname.resolve_left fun heq => hnew (heq ▸ hknown), hnew⟩⟩
    · rw [if_neg hknown] at hbalancers hmem
      have hmem : ∀ name, name ∈ names ↔ name ∈ records.map NodeRecord.balancer ∧
          name ∉ r.balancers.map BalancerRecord.name ∧ name ≠ record.balancer := by
        simpa [BalancerRecord.named, not_or] using hmem
      refine ⟨record.balancer :: names, ?_, ?_, fun name => ?_⟩
      · rw [List.foldl_cons, hbalancers, List.append_assoc]
        rfl
      · exact List.nodup_cons.2 ⟨fun hname => ((hmem _).1 hname).2.2 rfl, hnodup⟩
      · rw [List.mem_cons, hmem, List.map_cons, List.mem_cons]
        by_cases hname : name = record.balancer
        · simp [hname, hknown]
        · simp [hname]

/-- A node of a new route gets a new state by `putNode`. -/
theorem states_putNode_of_none {record : NodeRecord} (h : r.node? record.route = none) :
    (r.putNode record).2.states = r.states ++ [({} : NodeState)] := by
  simp only [putNode, node?_ensureBalancer, h, states_ensureBalancer]

/-- Nodes of new and distinct routes come last in their order, each with a new state. -/
theorem nodes_putNodes {records : List NodeRecord}
    (h : (r.nodes.map Node.route ++ records.map NodeRecord.route).Nodup) :
    let r' := records.foldl (fun r n => (r.putNode n).2) r
    r'.nodes = r.nodes ++ records.mapIdx (fun i record => { id := r.nextId + i, record }) ∧
      r'.states = r.states ++ List.replicate records.length ({} : NodeState) := by
  induction records generalizing r with
  | nil => exact ⟨(List.append_nil _).symm, (List.append_nil _).symm⟩
  | cons record records ih =>
    intro r'
    have hroute : record.route ∉ r.nodes.map Node.route := fun hmem =>
      (List.nodup_append.1 h).2.2 _ hmem _ (List.mem_cons_self ..) rfl
    have hnone : r.node? record.route = none :=
      Option.isNone_iff_eq_none.1 (isNone_node?_iff.2 hroute)
    obtain ⟨-, hnodes, hnext⟩ := putNode_of_none hnone
    have hrest :
        ((r.putNode record).2.nodes.map Node.route ++ records.map NodeRecord.route).Nodup := by
      rw [hnodes, List.map_append, List.append_assoc]
      exact h
    obtain ⟨hnodes', hstates'⟩ := ih hrest
    constructor
    · refine hnodes'.trans ?_
      rw [hnodes, hnext, List.append_assoc, List.mapIdx_cons]
      simp only [Nat.add_assoc, Nat.add_comm 1, Nat.add_zero, List.singleton_append]
    · refine hstates'.trans ?_
      rw [states_putNode_of_none hnone, List.append_assoc]
      rfl

/-- The registry built from lists of distinct names and routes has what is listed, and the balancers
that nodes bring. -/
theorem ofRecords_eq {balancers : List BalancerRecord} {nodes : List NodeRecord}
    (hnames : (balancers.map BalancerRecord.name).Nodup)
    (hroutes : (nodes.map NodeRecord.route).Nodup) :
    let r := ofRecords balancers nodes
    r.nodes = nodes.mapIdx (fun i record => { id := i + 1, record }) ∧
      r.states = List.replicate nodes.length ({} : NodeState) ∧
      ∃ names : List String, r.balancers = balancers ++ names.map .named ∧ names.Nodup ∧
        ∀ name, name ∈ names ↔
          name ∈ nodes.map NodeRecord.balancer ∧ name ∉ balancers.map BalancerRecord.name := by
  intro r
  have hbalancers : (balancers.foldl putBalancer {}).balancers = balancers :=
    balancers_putBalancers hnames
  obtain ⟨hnone, hstates⟩ := nodes_putBalancers balancers {}
  obtain ⟨hnodes', hstates'⟩ :=
    nodes_putNodes (r := balancers.foldl putBalancer {}) (by rwa [hnone])
  obtain ⟨names, hall⟩ := balancers_putNodes nodes (balancers.foldl putBalancer {})
  refine ⟨?_, ?_, names, ?_⟩
  · refine hnodes'.trans ?_
    rw [hnone, nextId, hstates]
    simp only [Nat.add_comm]
    rfl
  · refine hstates'.trans ?_
    rw [hstates]
    rfl
  · rwa [hbalancers] at hall

theorem stateOf_of_replicate {k : Nat} (h : r.states = List.replicate k ({} : NodeState))
    (id : Nat) :
    r.stateOf id = {} := by
  cases id with
  | zero => rfl
  | succ i =>
    rw [stateOf, h, List.getD_eq_getElem?_getD, List.getElem?_replicate]
    split <;> rfl

/-- In a `WellFormed` registry `nodeById?` finds each node. -/
theorem WellFormed.nodeById?_eq_some (h : r.WellFormed) {n : Node} (hn : n ∈ r.nodes) :
    r.nodeById? n.id = some n := by
  cases hfind : r.nodeById? n.id with
  | none => exact absurd (List.find?_eq_none.1 hfind n hn) (by simp)
  | some n' =>
    have hid : n'.id = n.id := by simpa using List.find?_some hfind
    rw [h.id_inj n' (List.mem_of_find?_eq_some hfind) n hn hid]

end Fleet.Registry

namespace Operation.Proxy

open Fleet Settings

section

variable {files : Files} {c : Config} {library : TrustLibrary}

theorem registry_ofConfig {proxy : Proxy} (h : ofConfig files c library = .ok proxy) :
    proxy.registry = .ofRecords c.balancers c.nodes := by
  unfold ofConfig at h
  cases htrust : c.backendTls.caPath.mapM (TrustRoots.load library files) with
  | error e =>
    rw [htrust] at h
    cases h
  | ok roots =>
    rw [htrust] at h
    cases h
    rfl

/-- If the trust roots can be loaded, `ofConfig` gives a proxy. -/
theorem exists_ofConfig_eq_ok (hroots : ∀ path, c.backendTls.caPath = some path →
    ∃ roots, TrustRoots.load library files path = .ok roots) :
    ∃ proxy, ofConfig files c library = .ok proxy := by
  unfold ofConfig
  cases hpath : c.backendTls.caPath with
  | none => exact ⟨_, rfl⟩
  | some path =>
    obtain ⟨roots, hload⟩ := hroots path hpath
    rw [Option.mapM_some, hload]
    exact ⟨_, rfl⟩

end

/-- From settings in which `validate` finds nothing wrong, and whose trust roots `TrustRoots.load`
can read if there are any, a proxy is built.  Its registry has the nodes of the settings, in their
order and with identities from one on, each with its record, up and not elected so far.  It has the
balancers of the settings, each with its policy, and one with the default policy for every name that
nodes give and that no balancer of the settings has.  Each node is found by its route and by its
identity, and each balancer by its name, so that none has taken the place of another. -/
theorem ofConfig_lossless {files : Files} {c : Config} {library : TrustLibrary}
    (hvalid : validate c = .ok c) (hroots : ∀ path, c.backendTls.caPath = some path →
      ∃ roots, TrustRoots.load library files path = .ok roots) :
    ∃ proxy, ofConfig files c library = .ok proxy ∧
      let r := proxy.registry
      r.nodes = c.nodes.mapIdx (fun i record => { id := i + 1, record }) ∧
      r.states =
        List.replicate c.nodes.length { status := .up, elected := 0, previousElected := 0 } ∧
      (∀ n ∈ r.nodes, r.stateOf n.id = { status := .up, elected := 0, previousElected := 0 }) ∧
      (∃ names : List String, r.balancers = c.balancers ++ names.map .named ∧ names.Nodup ∧
        ∀ name, name ∈ names ↔
          name ∈ c.nodes.map NodeRecord.balancer ∧ name ∉ c.balancers.map BalancerRecord.name) ∧
      (∀ n ∈ r.nodes, r.node? n.route = some n ∧ r.nodeById? n.id = some n) ∧
      ∀ b ∈ r.balancers, r.balancer? b.name = some b := by
  obtain ⟨proxy, hproxy⟩ := exists_ofConfig_eq_ok hroots
  obtain ⟨hproblems, -⟩ := validate_eq_ok_iff.1 hvalid
  have hregistry : proxy.registry = .ofRecords c.balancers c.nodes := registry_ofConfig hproxy
  have hr : proxy.registry.Consistent := by
    rw [hregistry]
    exact Registry.consistent_empty.changes (Registry.changes_ofRecords ..)
  obtain ⟨hnodes, hstates, hbalancers⟩ :=
    Registry.ofRecords_eq (nodup_names_of_problems hproblems) (nodup_routes_of_problems hproblems)
  rw [← hregistry] at hnodes hstates hbalancers
  refine ⟨proxy, hproxy, hnodes, hstates, ?_, hbalancers, ?_, ?_⟩
  · intro n _
    exact Registry.stateOf_of_replicate hstates n.id
  · exact fun n hn => ⟨hr.wellFormed.node?_eq_some hn, hr.wellFormed.nodeById?_eq_some hn⟩
  · exact fun b hb => Registry.find?_name_of_mem hr.names_nodup hb

/-- Of two nodes the second one names a balancer that the settings do not have. -/
theorem ofConfig_lossless_undeclaredBalancer :
    let web : BalancerRecord := { name := "web", force := true }
    let a : NodeRecord := { route := "a", host := "h", port := 1, balancer := "web" }
    let b : NodeRecord := { route := "b", host := "h", port := 2, balancer := "other" }
    let c : Config := { balancers := [web], nodes := [a, b] }
    ∃ proxy, ofConfig (fun _ => .error "") c = .ok proxy ∧
      proxy.registry.nodes = [{ id := 1, record := a }, { id := 2, record := b }] ∧
      proxy.registry.balancer? "web" = some web ∧
      proxy.registry.balancer? "other" = some (.named "other") := by
  intro web a b c
  have hvalid : validate c = .ok c := validate_eq_ok_iff.2 ⟨by decide +kernel, rfl⟩
  obtain ⟨proxy, hproxy, hnodes, -, -, ⟨names, hbalancers, -, hnames⟩, -, hfound⟩ :=
    @ofConfig_lossless (fun _ => .error "") c .absent hvalid nofun
  have hother : "other" ∈ names := (hnames "other").2 ⟨by decide, by decide⟩
  refine ⟨proxy, hproxy, hnodes, ?_, ?_⟩
  · apply hfound web
    rw [hbalancers]
    exact List.mem_append_left _ (List.mem_singleton_self web)
  · apply hfound (.named "other")
    rw [hbalancers]
    exact List.mem_append_right _ (List.mem_map_of_mem hother)

end Operation.Proxy

end ReverseProxy
