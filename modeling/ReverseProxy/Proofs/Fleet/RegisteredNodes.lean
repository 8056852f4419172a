import ReverseProxy.Fleet.Election

/-!
# Which nodes are registered

The registry is asked for nodes by route and by identity, and either tells two nodes apart
(`Registry.WellFormed`).  What an operation does to the registered nodes is said here node by node.
Applying a list of records is said by `NodeRecord.follow`, which is what the list makes of one node;
once the list has been applied, applying it again changes nothing (`mem_applyNodes_again`).
-/

namespace ReverseProxy.Fleet

/-- The version of `n` after `record`, which is the next one of a node of its route. -/
def Node.follow (n : Node) (record : NodeRecord) : Node :=
  if n.route = record.route then { n with record } else n

section

variable {n : Node} {record : NodeRecord}

theorem Node.follow_of_eq (h : n.route = record.route) :
    n.follow record = { n with record } := if_pos h

theorem Node.follow_of_ne (h : n.route ≠ record.route) : n.follow record = n := if_neg h

@[simp] theorem Node.route_follow : (n.follow record).route = n.route := by
  unfold Node.follow
  split
  · rename_i h
    exact h.symm
  · rfl

@[simp] theorem Node.id_follow : (n.follow record).id = n.id := by
  unfold Node.follow
  split <;> rfl

/-- A node that has the record of its route is not changed by it. -/
theorem Node.follow_self (h : n.record = record) : n.follow record = n := by
  rw [Node.follow_of_eq (congrArg NodeRecord.route h), ← h]

end

namespace Registry

/-- Route and identity each tell a node apart from all others, and no identity is given that was
given before. -/
structure WellFormed (r : Registry) : Prop where
  route_inj : ∀ a ∈ r.nodes, ∀ b ∈ r.nodes, a.route = b.route → a = b
  id_inj : ∀ a ∈ r.nodes, ∀ b ∈ r.nodes, a.id = b.id → a = b
  id_lt : ∀ n ∈ r.nodes, n.id < r.nextId

variable {r : Registry}

theorem mem_of_node?_eq_some {route : String} {n : Node} (h : r.node? route = some n) :
    n ∈ r.nodes ∧ n.route = route :=
  ⟨List.mem_of_find?_eq_some h, by simpa using List.find?_some h⟩

theorem route_ne_of_node?_eq_none {route : String} (h : r.node? route = none)
    {n : Node} (hn : n ∈ r.nodes) :
    n.route ≠ route := by
  simpa using List.find?_eq_none.1 h n hn

/-! ### One record -/

@[simp] theorem nodes_putBalancer (b : BalancerRecord) : (r.putBalancer b).nodes = r.nodes := by
  unfold putBalancer
  split <;> rfl

@[simp] theorem states_putBalancer (b : BalancerRecord) : (r.putBalancer b).states = r.states := by
  unfold putBalancer
  split <;> rfl

@[simp] theorem nodes_ensureBalancer (name : String) : (r.ensureBalancer name).nodes = r.nodes := by
  unfold ensureBalancer
  split
  · rfl
  · exact nodes_putBalancer _

@[simp] theorem states_ensureBalancer (name : String) :
    (r.ensureBalancer name).states = r.states := by
  unfold ensureBalancer
  split
  · rfl
  · exact states_putBalancer _

@[simp] theorem node?_ensureBalancer (name route : String) :
    (r.ensureBalancer name).node? route = r.node? route := by
  rw [node?, nodes_ensureBalancer, node?]

/-- The `record` of a registered route makes a new version of its node. -/
theorem putNode_of_some {record : NodeRecord} {old : Node} (h : r.node? record.route = some old) :
    (r.putNode record).1 = { old with record } ∧
    (r.putNode record).2.nodes = r.nodes.map (·.follow record) ∧
      (r.putNode record).2.nextId = r.nextId := by
  simp only [putNode, node?_ensureBalancer, h, nodes_ensureBalancer, nextId, states_ensureBalancer]
  exact ⟨trivial, rfl, trivial⟩

/-- The `record` of a new route makes a new node. -/
theorem putNode_of_none {record : NodeRecord} (h : r.node? record.route = none) :
    (r.putNode record).1 = { id := r.nextId, record } ∧
      (r.putNode record).2.nodes = r.nodes ++ [{ id := r.nextId, record }] ∧
      (r.putNode record).2.nextId = r.nextId + 1 := by
  simp only [putNode, node?_ensureBalancer, h, nodes_ensureBalancer, nextId, states_ensureBalancer,
    List.length_append, List.length_singleton]
  exact ⟨trivial, trivial, trivial⟩

/-- A registered node stays registered by `putNode`, in the version that `follow` makes of it. -/
theorem follow_mem_putNode {n : Node} (hn : n ∈ r.nodes) (record : NodeRecord) :
    n.follow record ∈ (r.putNode record).2.nodes := by
  cases h : r.node? record.route with
  | some old =>
    rw [(putNode_of_some h).2.1]
    exact List.mem_map_of_mem hn
  | none =>
    rw [(putNode_of_none h).2.1, Node.follow_of_ne (route_ne_of_node?_eq_none h hn)]
    exact List.mem_append_left _ hn

theorem WellFormed.putNode (hw : r.WellFormed) (record : NodeRecord) :
    (r.putNode record).2.WellFormed := by
  cases h : r.node? record.route with
  | some old =>
    obtain ⟨-, hnodes, hnext⟩ := putNode_of_some h
    refine ⟨?_, ?_, ?_⟩ <;> rw [hnodes]
    · simp only [List.mem_map, forall_exists_index, and_imp, forall_apply_eq_imp_iff₂,
        Node.route_follow]
      exact fun a ha b hb hab => congrArg (·.follow record) (hw.route_inj a ha b hb hab)
    · simp only [List.mem_map, forall_exists_index, and_imp, forall_apply_eq_imp_iff₂,
        Node.id_follow]
      exact fun a ha b hb hab => congrArg (·.follow record) (hw.id_inj a ha b hb hab)
    · simp only [List.mem_map, forall_exists_index, and_imp, forall_apply_eq_imp_iff₂,
        Node.id_follow, hnext]
      exact hw.id_lt
  | none =>
    obtain ⟨-, hnodes, hnext⟩ := putNode_of_none h
    have hroute {n : Node} (hn : n ∈ r.nodes) : n.route ≠ record.route :=
      route_ne_of_node?_eq_none h hn
    refine ⟨?_, ?_, ?_⟩ <;> rw [hnodes]
    · intro a ha b hb hab
      rcases List.mem_append.1 ha with ha | ha <;> rcases List.mem_append.1 hb with hb | hb
      · exact hw.route_inj a ha b hb hab
      · obtain rfl := List.mem_singleton.1 hb
        exact absurd hab (hroute ha)
      · obtain rfl := List.mem_singleton.1 ha
        exact absurd hab.symm (hroute hb)
      · rw [List.mem_singleton.1 ha, List.mem_singleton.1 hb]
    · intro a ha b hb hab
      rcases List.mem_append.1 ha with ha | ha <;> rcases List.mem_append.1 hb with hb | hb
      · exact hw.id_inj a ha b hb hab
      · obtain rfl := List.mem_singleton.1 hb
        exact absurd hab (Nat.ne_of_lt (hw.id_lt a ha))
      · obtain rfl := List.mem_singleton.1 ha
        exact absurd hab.symm (Nat.ne_of_lt (hw.id_lt b hb))
      · rw [List.mem_singleton.1 ha, List.mem_singleton.1 hb]
    · intro a ha
      rw [hnext]
      rcases List.mem_append.1 ha with ha | ha
      · exact Nat.lt_succ_of_lt (hw.id_lt a ha)
      · rw [List.mem_singleton.1 ha]
        exact Nat.lt_succ_self _

/-- A `record` that is registered already changes no node. -/
theorem WellFormed.follow_eq_self (hw : r.WellFormed) {record : NodeRecord}
    (h : r.hasRecord record = true) {n : Node} (hn : n ∈ r.nodes) : n.follow record = n := by
  obtain ⟨old, hfind, hrecord⟩ := (Option.any_eq_true ..).1 h
  obtain ⟨hold, hroute⟩ := mem_of_node?_eq_some hfind
  by_cases hn' : n.route = record.route
  · obtain rfl := hw.route_inj n hn old hold (hn'.trans hroute.symm)
    exact Node.follow_self (eq_of_beq hrecord)
  · exact Node.follow_of_ne hn'

/-! ### A list of records -/

theorem WellFormed.applyNode (hw : r.WellFormed) (record : NodeRecord) :
    (r.applyNode record).WellFormed := by
  unfold Registry.applyNode
  split
  · exact hw
  · exact hw.putNode record

theorem WellFormed.follow_mem_applyNode (hw : r.WellFormed) {n : Node}
    (hn : n ∈ r.nodes) (record : NodeRecord) :
    n.follow record ∈ (r.applyNode record).nodes := by
  unfold Registry.applyNode
  split
  · rename_i h
    rwa [hw.follow_eq_self h hn]
  · exact follow_mem_putNode hn record

/-- A node that is registered after `applyNode` is what `follow` makes of one that was registered
before, or it is new. -/
theorem WellFormed.of_mem_applyNode (hw : r.WellFormed) {record : NodeRecord} {n : Node}
    (hn : n ∈ (r.applyNode record).nodes) :
    (∃ n₀ ∈ r.nodes, n = n₀.follow record) ∨ n.record = record := by
  unfold Registry.applyNode at hn
  split at hn
  · rename_i h
    exact .inl ⟨n, hn, (hw.follow_eq_self h hn).symm⟩
  cases h : r.node? record.route with
  | some old =>
    rw [(putNode_of_some h).2.1] at hn
    obtain ⟨n₀, hn₀, rfl⟩ := List.mem_map.1 hn
    exact .inl ⟨n₀, hn₀, rfl⟩
  | none =>
    rw [(putNode_of_none h).2.1] at hn
    rcases List.mem_append.1 hn with hn | hn
    · exact .inl ⟨n, hn, (Node.follow_of_ne (route_ne_of_node?_eq_none h hn)).symm⟩
    · obtain rfl := List.mem_singleton.1 hn
      exact .inr rfl

theorem WellFormed.applyNodes (hw : r.WellFormed) (records : List NodeRecord) :
    (records.foldl Registry.applyNode r).WellFormed := by
  induction records generalizing r with
  | nil => exact hw
  | cons record records ih => exact ih (hw.applyNode record)

theorem WellFormed.follow_mem_applyNodes (hw : r.WellFormed) {n : Node} (hn : n ∈ r.nodes)
    (records : List NodeRecord) :
    records.foldl Node.follow n ∈ (records.foldl Registry.applyNode r).nodes := by
  induction records generalizing r n with
  | nil => exact hn
  | cons record records ih => exact ih (hw.applyNode record) (hw.follow_mem_applyNode hn record)

theorem route_foldl_follow (records : List NodeRecord) (n : Node) :
    (records.foldl Node.follow n).route = n.route := by
  induction records generalizing n with
  | nil => rfl
  | cons record records ih => rw [List.foldl_cons, ih, Node.route_follow]

theorem id_foldl_follow (records : List NodeRecord) (n : Node) :
    (records.foldl Node.follow n).id = n.id := by
  induction records generalizing n with
  | nil => rfl
  | cons record records ih => rw [List.foldl_cons, ih, Node.id_follow]

/-- None of the `records` would change a registered node any more. -/
def Settled (records : List NodeRecord) (r : Registry) : Prop :=
  ∀ n ∈ r.nodes, records.foldl Node.follow n = n

theorem settled_applyNode (hw : r.WellFormed) {records : List NodeRecord} (h : Settled records r)
    (record : NodeRecord) : Settled (records ++ [record]) (r.applyNode record) := by
  intro n hn
  rw [List.foldl_append, List.foldl_cons, List.foldl_nil]
  by_cases hroute : n.route = record.route
  · have hrecord : n.record = record := by
      rcases hw.of_mem_applyNode hn with ⟨n₀, -, rfl⟩ | hrecord
      · rw [Node.route_follow] at hroute
        rw [Node.follow_of_eq hroute]
      · exact hrecord
    rw [Node.follow_of_eq ((route_foldl_follow records n).trans hroute),
      id_foldl_follow records n, ← hrecord]
  · have hn₀ : n ∈ r.nodes := by
      rcases hw.of_mem_applyNode hn with ⟨n₀, hn₀, rfl⟩ | hrecord
      · rw [Node.route_follow] at hroute
        rwa [Node.follow_of_ne hroute]
      · exact absurd (congrArg NodeRecord.route hrecord) hroute
    rw [h n hn₀, Node.follow_of_ne hroute]

theorem settled_applyNodes (hw : r.WellFormed) {done : List NodeRecord} (h : Settled done r)
    (records : List NodeRecord) :
    Settled (done ++ records) (records.foldl Registry.applyNode r) := by
  induction records generalizing r done with
  | nil => rwa [List.append_nil]
  | cons record records ih =>
    have hrest := ih (hw.applyNode record) (settled_applyNode hw h record)
    rwa [List.append_assoc, List.singleton_append] at hrest

/-- Nodes registered after `records` have been applied stay as they are if these are applied
again. -/
theorem mem_applyNodes_again (hw : r.WellFormed) {records : List NodeRecord} {n : Node}
    (hn : n ∈ (records.foldl Registry.applyNode r).nodes) {r' : Registry} (hw' : r'.WellFormed)
    (hr' : r'.nodes = (records.foldl Registry.applyNode r).nodes) :
    n ∈ (records.foldl Registry.applyNode r').nodes := by
  have hnone : Settled [] r := fun _ _ => rfl
  have hsettled : Settled records (records.foldl applyNode r) := settled_applyNodes hw hnone records
  have hmem := hw'.follow_mem_applyNodes (hr' ▸ hn) records
  rwa [hsettled n hn] at hmem

@[simp] theorem nodes_applyBalancer (b : BalancerRecord) : (r.applyBalancer b).nodes = r.nodes := by
  unfold applyBalancer
  split
  · rfl
  · exact nodes_putBalancer b

@[simp] theorem states_applyBalancer (b : BalancerRecord) :
    (r.applyBalancer b).states = r.states := by
  unfold applyBalancer
  split
  · rfl
  · exact states_putBalancer b

theorem nodes_applyBalancers (bs : List BalancerRecord) (r : Registry) :
    (bs.foldl applyBalancer r).nodes = r.nodes ∧ (bs.foldl applyBalancer r).states = r.states := by
  induction bs generalizing r with
  | nil => exact ⟨rfl, rfl⟩
  | cons b bs ih =>
    obtain ⟨hnodes, hstates⟩ := ih (r.applyBalancer b)
    exact ⟨hnodes.trans (nodes_applyBalancer b), hstates.trans (states_applyBalancer b)⟩

/-- To be `WellFormed` depends only on the nodes and on `nextId`. -/
theorem WellFormed.of_eq (hw : r.WellFormed) {r' : Registry} (hnodes : r'.nodes = r.nodes)
    (hnext : r'.nextId = r.nextId) : r'.WellFormed := by
  obtain ⟨hroute, hid, hlt⟩ := hw
  rw [← hnodes] at hroute hid hlt
  exact ⟨hroute, hid, fun n hn => hnext ▸ hlt n hn⟩

theorem nodes_putBalancers (bs : List BalancerRecord) (r : Registry) :
    (bs.foldl putBalancer r).nodes = r.nodes ∧ (bs.foldl putBalancer r).states = r.states := by
  induction bs generalizing r with
  | nil => exact ⟨rfl, rfl⟩
  | cons b bs ih =>
    obtain ⟨hnodes, hstates⟩ := ih (r.putBalancer b)
    exact ⟨hnodes.trans (nodes_putBalancer b), hstates.trans (states_putBalancer b)⟩

theorem WellFormed.putNodes (hw : r.WellFormed) (records : List NodeRecord) :
    (records.foldl (fun r n => (r.putNode n).2) r).WellFormed := by
  induction records generalizing r with
  | nil => exact hw
  | cons record records ih => exact ih (hw.putNode record)

/-- A registry built from lists is `WellFormed`. -/
theorem wellFormed_ofRecords (balancers : List BalancerRecord) (nodes : List NodeRecord) :
    (ofRecords balancers nodes).WellFormed := by
  obtain ⟨hnodes, -⟩ := nodes_putBalancers balancers {}
  have hempty : (balancers.foldl putBalancer {}).WellFormed := by
    refine ⟨?_, ?_, ?_⟩ <;> rw [hnodes] <;> exact fun _ hn => nomatch hn
  exact hempty.putNodes nodes

/-! ### The end of a registration -/

/-- By `removeNode` the node of the route goes, and the others stay. -/
theorem removeNode_eq {route : String} {n : Node} {r' : Registry}
    (h : r.removeNode route = some (n, r')) :
    n ∈ r.nodes ∧ n.route = route ∧ r'.nodes = r.nodes.filter (fun n => n.route != route) ∧
      r'.nextId = r.nextId := by
  unfold removeNode at h
  obtain ⟨old, hfind, heq⟩ := Option.map_eq_some_iff.1 h
  cases heq
  obtain ⟨hmem, hroute⟩ := mem_of_node?_eq_some hfind
  exact ⟨hmem, hroute, rfl, rfl⟩

theorem mem_of_mem_removeNode {route : String} {n x : Node} {r' : Registry}
    (h : r.removeNode route = some (n, r')) (hx : x ∈ r'.nodes) : x ∈ r.nodes := by
  obtain ⟨-, -, hnodes, -⟩ := removeNode_eq h
  rw [hnodes] at hx
  exact (List.mem_filter.1 hx).1

theorem WellFormed.removeNode (hw : r.WellFormed) {route : String} {n : Node} {r' : Registry}
    (h : r.removeNode route = some (n, r')) : r'.WellFormed := by
  obtain ⟨-, -, -, hnext⟩ := removeNode_eq h
  have hsub : ∀ a ∈ r'.nodes, a ∈ r.nodes := fun a => mem_of_mem_removeNode h
  exact ⟨fun a ha b hb => hw.route_inj a (hsub a ha) b (hsub b hb),
    fun a ha b hb => hw.id_inj a (hsub a ha) b (hsub b hb), fun a ha =>
    hnext ▸ hw.id_lt a (hsub a ha)⟩

/-- A node whose identity is not that of `n` stays registered when `n` is removed. -/
theorem mem_of_removeNode (hw : r.WellFormed) {route : String} {n x : Node} {r' : Registry}
    (h : r.removeNode route = some (n, r')) (hx : x ∈ r.nodes) (hid : x.id ≠ n.id) :
    x ∈ r'.nodes := by
  obtain ⟨hn, hroute, hnodes, -⟩ := removeNode_eq h
  rw [hnodes, List.mem_filter]
  refine ⟨hx, bne_iff_ne.2 fun hxroute => hid ?_⟩
  rw [hw.route_inj x hx n hn (hxroute.trans hroute.symm)]

theorem WellFormed.removeNodes (hw : r.WellFormed) (routes : List String) :
    (r.removeNodes routes).2.WellFormed := by
  induction routes generalizing r with
  | nil => exact hw
  | cons route routes ih =>
    unfold Registry.removeNodes
    split
    · exact ih hw
    · rename_i n r' h
      exact ih (hw.removeNode h)

/-- A node whose identity is not that of a removed one stays registered by `removeNodes`. -/
theorem mem_removeNodes (hw : r.WellFormed) (routes : List String) {x : Node} (hx : x ∈ r.nodes)
    (hid : ∀ n ∈ (r.removeNodes routes).1, x.id ≠ n.id) : x ∈ (r.removeNodes routes).2.nodes := by
  induction routes generalizing r with
  | nil => exact hx
  | cons route routes ih =>
    unfold Registry.removeNodes at hid ⊢
    split
    · rename_i h
      rw [h] at hid
      exact ih hw hx hid
    · rename_i n r' h
      rw [h] at hid
      obtain ⟨hne, hid⟩ := List.forall_mem_cons.1 hid
      exact ih (hw.removeNode h) (mem_of_removeNode hw h hx hne) hid

theorem WellFormed.reconcile (hw : r.WellFormed) (balancers : List BalancerRecord)
    (nodes : List NodeRecord) :
    (r.reconcile balancers nodes).2.WellFormed := by
  obtain ⟨hnodes, hstates⟩ := nodes_applyBalancers balancers r
  have hb : (balancers.foldl applyBalancer r).WellFormed :=
    hw.of_eq hnodes (by rw [nextId, nextId, hstates])
  exact (hb.applyNodes nodes).removeNodes _

/-! ### Elections and statuses -/

theorem nodes_updateState (id : Nat) (f : NodeState → NodeState) :
    (r.updateState id f).nodes = r.nodes ∧ (r.updateState id f).nextId = r.nextId := by
  unfold updateState
  split
  · exact ⟨rfl, rfl⟩
  · exact ⟨rfl, congrArg (· + 1) (List.length_modify ..)⟩

theorem nodes_elect (r : Registry) (n : Node) :
    (r.elect n).nodes = r.nodes ∧ (r.elect n).nextId = r.nextId :=
  nodes_updateState ..

theorem nodes_markDown (r : Registry) (n : Node) :
    (r.markDown n).2.nodes = r.nodes ∧ (r.markDown n).2.nextId = r.nextId := by
  unfold markDown
  split
  · exact nodes_updateState ..
  · exact ⟨rfl, rfl⟩

theorem nodes_markUp (r : Registry) (n : Node) :
    (r.markUp n).2.nodes = r.nodes ∧ (r.markUp n).2.nextId = r.nextId := by
  unfold markUp
  split
  · exact ⟨rfl, rfl⟩
  · exact nodes_updateState ..

theorem nodes_select (r : Registry) :
    r.select.2.nodes = r.nodes ∧ r.select.2.nextId = r.nextId := by
  unfold select
  split
  · exact ⟨rfl, rfl⟩
  · exact nodes_elect ..

theorem nodes_selectSticky (r : Registry) (value : String) :
    (r.selectSticky value).2.nodes = r.nodes ∧ (r.selectSticky value).2.nextId = r.nextId := by
  unfold selectSticky
  split
  · exact ⟨rfl, rfl⟩
  · split
    · exact nodes_elect ..
    · exact ⟨rfl, rfl⟩

theorem nodes_resolveAmong (enumeration : List BalancerRecord) (r : Registry)
    (request : Message.RequestHead) :
    (r.resolveAmong enumeration request).2.nodes = r.nodes ∧
      (r.resolveAmong enumeration request).2.nextId = r.nextId := by
  unfold resolveAmong
  split
  · exact nodes_elect ..
  · exact ⟨rfl, rfl⟩
  · have hselect := nodes_select r
    split <;> rename_i heq <;> rw [heq] at hselect <;> exact hselect

end Registry

end ReverseProxy.Fleet
