import ReverseProxy.Proofs.Fleet.RegistryRuns

/-!
# Registries in line with lists

A registry that is brought in line with lists of balancers and nodes is described by what it
answers: who is registered in which place (`Registry.places_applyNodes`,
`Registry.nodes_removeNodes`), with which records (`Registry.WellFormed.hasRecord_applyNodes`), and
which balancer has which name (`Registry.balancer?_applyBalancers`,
`Registry.Consistent.balancer?_applyNodes`).  What becomes of the nodes does not depend on the
balancers (`Registry.members_applyNodes`), and a registry that is in line already stays as it is
(`Registry.reconcile_of_settled`).
-/

namespace ReverseProxy.Fleet

/-- The place of a node: its identity and its route, which no update changes. -/
def Node.place (n : Node) : Nat × String := (n.id, n.route)

theorem Node.place_follow (n : Node) (record : NodeRecord) : (n.follow record).place = n.place :=
  Prod.ext Node.id_follow Node.route_follow

namespace Registry

variable {r r' : Registry}

/-! ### Balancers by name -/

/-- In a list of balancers with distinct names, `find?` finds each by its name. -/
theorem find?_name_of_mem {bs : List BalancerRecord} (h : (bs.map BalancerRecord.name).Nodup)
    {b : BalancerRecord} (hb : b ∈ bs) : (bs.find? fun x => x.name == b.name) = some b := by
  cases hfind : bs.find? fun x => x.name == b.name with
  | none => exact absurd (List.find?_eq_none.1 hfind b hb) (by simp)
  | some x =>
    have hname : x.name = b.name := by simpa using List.find?_some hfind
    rw [List.inj_on_of_nodup_map h (List.mem_of_find?_eq_some hfind) hb hname]

theorem find?_name_cons (b : BalancerRecord) (bs : List BalancerRecord) (name : String) :
    (b :: bs).find? (fun x => x.name == name) =
      if b.name = name then some b else bs.find? fun x => x.name == name := by
  rw [List.find?_cons]
  by_cases h : b.name = name
  · rw [if_pos h, beq_iff_eq.2 h]
  · rw [if_neg h, beq_false_of_ne h]

/-- The balancer of the name of `b` is `b` after `putBalancer`, and the others are as they were. -/
theorem balancer?_putBalancer (r : Registry) (b : BalancerRecord) (name : String) :
    (r.putBalancer b).balancer? name = if name = b.name then some b else r.balancer? name := by
  have hmap (bs : List BalancerRecord) :
      (bs.map fun x => if x.name = b.name then b else x).find? (fun x => x.name == name) =
        if name = b.name then (bs.find? fun x => x.name == name).map fun _ => b
        else bs.find? fun x => x.name == name := by
    induction bs with
    | nil => simp
    | cons x bs ih =>
      rw [List.map_cons, find?_name_cons, ih, find?_name_cons]
      rcases eq_or_ne name b.name with rfl | hname
      · by_cases hx : x.name = b.name <;> simp [hx]
      · by_cases hx : x.name = b.name
        · simp [hx, hname, hname.symm]
        · simp [hx, hname]
  unfold putBalancer balancer?
  split
  · rename_i hany
    have hsome : (r.balancers.find? fun x => x.name == b.name).isSome = true := by
      rwa [List.find?_isSome, ← List.any_eq_true]
    obtain ⟨x, hx⟩ := Option.isSome_iff_exists.1 hsome
    rw [hmap]
    split
    · rename_i hname
      rw [hname, hx, Option.map_some]
    · rfl
  · rename_i hnone
    rw [List.find?_append]
    split
    · rename_i hname
      have hnone : (r.balancers.find? fun x => x.name == b.name) = none := by
        simpa using hnone
      rw [hname, hnone, Option.none_or, find?_name_cons, if_pos rfl]
    · rename_i hname
      rw [find?_name_cons, if_neg (Ne.symm hname)]
      exact Option.or_none

theorem balancer?_ensureBalancer (r : Registry) (name name' : String) :
    (r.ensureBalancer name).balancer? name' =
      (r.balancer? name').or (if name' = name then some (.named name') else none) := by
  unfold ensureBalancer
  split
  · rename_i hsome
    split
    · rename_i hname
      obtain ⟨b, hb⟩ := Option.isSome_iff_exists.1 hsome
      rw [hname, hb, Option.some_or]
    · exact Option.or_none.symm
  · rename_i hnone
    rw [balancer?_putBalancer]
    split
    · rename_i hname
      have hname : name' = name := hname
      rw [if_pos hname, hname, Option.not_isSome_iff_eq_none.1 hnone, Option.none_or]
    · rename_i hname
      have hname : name' ≠ name := hname
      rw [if_neg hname, Option.or_none]

theorem balancer?_applyBalancer (r : Registry) (b : BalancerRecord) (name : String) :
    (r.applyBalancer b).balancer? name = if name = b.name then some b else r.balancer? name := by
  unfold applyBalancer
  split
  · rename_i hb
    split
    · rename_i hname
      rw [hname, hb]
    · rfl
  · exact balancer?_putBalancer r b name

/-- The balancers `bs` have the policies that are listed, and all others have theirs. -/
theorem balancer?_applyBalancers {bs : List BalancerRecord} (h : (bs.map BalancerRecord.name).Nodup)
    (r : Registry) (name : String) :
    (bs.foldl applyBalancer r).balancer? name =
      (bs.find? fun b => b.name == name).or (r.balancer? name) := by
  induction bs generalizing r with
  | nil => rfl
  | cons b bs ih =>
    obtain ⟨hb, hbs⟩ := List.nodup_cons.1 h
    rw [List.foldl_cons, ih hbs, balancer?_applyBalancer, find?_name_cons]
    split
    · rename_i hname
      have hnone : (bs.find? fun x => x.name == b.name) = none := by
        simpa using hb
      rw [hname, hnone, if_pos rfl]
      rfl
    · rename_i hname
      rw [if_neg (Ne.symm hname)]

/-- A node brings a balancer by `applyNode` if it names one that was not known. -/
theorem Consistent.balancer?_applyNode (h : r.Consistent) (record : NodeRecord) (name : String) :
    (r.applyNode record).balancer? name =
      (r.balancer? name).or (if name = record.balancer then some (.named name) else none) := by
  unfold applyNode
  split
  · rename_i hrecord
    split
    · rename_i hname
      obtain ⟨n, hfind, hn⟩ := (Option.any_eq_true ..).1 hrecord
      obtain ⟨b, hb⟩ :=
        Option.isSome_iff_exists.1 (h.balancer_known n (mem_of_node?_eq_some hfind).1)
      rw [hname, ← eq_of_beq hn, hb, Option.some_or]
    · exact Option.or_none.symm
  · rw [balancer?, balancers_putNode]
    exact balancer?_ensureBalancer r record.balancer name

/-- The nodes of `records` change no balancer, and bring those that they name and that were not
known. -/
theorem Consistent.balancer?_applyNodes (h : r.Consistent) (records : List NodeRecord)
    (name : String) :
    (records.foldl applyNode r).balancer? name =
      (r.balancer? name).or (if name ∈ records.map NodeRecord.balancer then some (.named name)
        else none) := by
  induction records generalizing r with
  | nil => exact Option.or_none.symm
  | cons record records ih =>
    rw [List.foldl_cons, ih (h.changes (changes_applyNode r record)), h.balancer?_applyNode,
      Option.or_assoc]
    congr 1
    by_cases hname : name = record.balancer <;> simp [hname]

theorem balancers_removeNodes (routes : List String) (r : Registry) :
    (r.removeNodes routes).2.balancers = r.balancers := by
  induction routes generalizing r with
  | nil => rfl
  | cons route routes ih =>
    unfold removeNodes
    split
    · exact ih r
    · rename_i n r' hr
      obtain ⟨old, -, heq⟩ := Option.map_eq_some_iff.1 hr
      cases heq
      exact ih _

/-- Consistent registries in which `balancer?` finds the same hold the same balancers. -/
theorem perm_balancers (h : r.Consistent) (h' : r'.Consistent)
    (heq : ∀ name, r.balancer? name = r'.balancer? name) :
    r.balancers.Perm r'.balancers := by
  have hmem {r : Registry} (h : r.Consistent) (b : BalancerRecord) :
      b ∈ r.balancers ↔ r.balancer? b.name = some b :=
    ⟨find?_name_of_mem h.names_nodup, List.mem_of_find?_eq_some⟩
  refine (List.perm_ext_iff_of_nodup h.names_nodup.of_map h'.names_nodup.of_map).2 fun b => ?_
  rw [hmem h, hmem h', heq]

/-! ### Nodes and their states -/

/-- The registry without the balancers. -/
def members (r : Registry) : Registry := { r with balancers := [] }

theorem members_eq_iff :
    r.members = r'.members ↔ r.nodes = r'.nodes ∧ r.states = r'.states ∧ r.wake = r'.wake := by
  simp [members]

theorem members_putBalancer (r : Registry) (b : BalancerRecord) :
    (r.putBalancer b).members = r.members := by
  unfold putBalancer
  split <;> rfl

theorem members_applyBalancers (bs : List BalancerRecord) (r : Registry) :
    (bs.foldl applyBalancer r).members = r.members := by
  induction bs generalizing r with
  | nil => rfl
  | cons b bs ih =>
    rw [List.foldl_cons, ih, applyBalancer]
    split
    · rfl
    · exact members_putBalancer r b

theorem members_putNode (h : r.members = r'.members) (record : NodeRecord) :
    (r.putNode record).2.members = (r'.putNode record).2.members := by
  have hensure (r : Registry) : (r.ensureBalancer record.balancer).members = r.members := by
    unfold ensureBalancer
    split
    · rfl
    · exact members_putBalancer r _
  obtain ⟨hnodes, hstates, hwake⟩ :=
    members_eq_iff.1 ((hensure r).trans (h.trans (hensure r').symm))
  simp only [putNode, node?, nextId, hnodes, hstates]
  split <;> simp only [members, hwake]

theorem members_applyNode (h : r.members = r'.members) (record : NodeRecord) :
    (r.applyNode record).members = (r'.applyNode record).members := by
  have hrecord : r.hasRecord record = r'.hasRecord record := by
    rw [hasRecord, node?, (members_eq_iff.1 h).1, hasRecord, node?]
  unfold applyNode
  rw [hrecord]
  split
  · exact h
  · exact members_putNode h record

/-- What `applyNode` does to the nodes of a registry does not depend on its balancers. -/
theorem members_applyNodes (h : r.members = r'.members) (records : List NodeRecord) :
    (records.foldl applyNode r).members = (records.foldl applyNode r').members := by
  induction records generalizing r r' with
  | nil => exact h
  | cons record records ih => exact ih (members_applyNode h record)

theorem wake_removeNodes (routes : List String) (r : Registry) :
    (r.removeNodes routes).2.wake = r.wake := by
  induction routes generalizing r with
  | nil => rfl
  | cons route routes ih =>
    unfold removeNodes
    split
    · exact ih r
    · rename_i n r' hr
      obtain ⟨old, -, heq⟩ := Option.map_eq_some_iff.1 hr
      cases heq
      exact ih _

/-! ### Places -/

/-- The records whose routes are not registered in `r`. -/
def fresh (r : Registry) (records : List NodeRecord) : List NodeRecord :=
  records.filter fun record => (r.node? record.route).isNone

/-- The places of new nodes, which get one identity after another from `id` on. -/
def newPlaces (id : Nat) (records : List NodeRecord) : List (Nat × String) :=
  records.mapIdx fun i record => (id + i, record.route)

theorem newPlaces_append (id : Nat) (records records' : List NodeRecord) :
    newPlaces id (records ++ records') =
      newPlaces id records ++ newPlaces (id + records.length) records' := by
  simp only [newPlaces, List.mapIdx_append, Nat.add_assoc, Nat.add_comm records.length]

theorem map_snd_newPlaces (id : Nat) (records : List NodeRecord) :
    (newPlaces id records).map Prod.snd = records.map NodeRecord.route := by
  apply List.ext_getElem
  · simp only [newPlaces, List.length_map, List.length_mapIdx]
  · intro i _ _
    simp only [newPlaces, List.getElem_map, List.getElem_mapIdx]

theorem isNone_node?_iff {route : String} :
    (r.node? route).isNone = true ↔ route ∉ r.nodes.map Node.route := by
  simp [node?]

theorem places_applyNode (r : Registry) (record : NodeRecord) :
    (r.applyNode record).nodes.map Node.place =
        r.nodes.map Node.place ++ newPlaces r.nextId (r.fresh [record]) ∧
      (r.applyNode record).nextId = r.nextId + (r.fresh [record]).length := by
  unfold applyNode fresh
  cases hfind : r.node? record.route with
  | some old =>
    have hfresh : [record].filter (fun record => (r.node? record.route).isNone) = [] := by
      simp [hfind]
    rw [hfresh]
    split
    · exact ⟨(List.append_nil _).symm, rfl⟩
    · obtain ⟨-, hnodes, hnext⟩ := putNode_of_some hfind
      rw [hnodes, List.map_map, hnext]
      refine ⟨?_, rfl⟩
      rw [List.map_congr_left fun n _ => n.place_follow record]
      exact (List.append_nil _).symm
  | none =>
    have hfresh : [record].filter (fun record => (r.node? record.route).isNone) = [record] := by
      simp [hfind]
    have hrecord : r.hasRecord record = false := by rw [hasRecord, hfind]; rfl
    obtain ⟨-, hnodes, hnext⟩ := putNode_of_none hfind
    rw [hfresh, hrecord, if_neg Bool.false_ne_true, hnodes, List.map_append, hnext]
    exact ⟨rfl, rfl⟩

/-- The nodes that were registered keep their places, and the `fresh` ones follow in the order of
the list. -/
theorem places_applyNodes {records : List NodeRecord} (h : (records.map NodeRecord.route).Nodup)
    (r : Registry) :
    (records.foldl applyNode r).nodes.map Node.place =
      r.nodes.map Node.place ++ newPlaces r.nextId (r.fresh records) := by
  induction records generalizing r with
  | nil => exact (List.append_nil _).symm
  | cons record records ih =>
    obtain ⟨hrecord, hrecords⟩ := List.nodup_cons.1 h
    obtain ⟨hplaces, hnext⟩ := places_applyNode r record
    have hroutes : (r.applyNode record).nodes.map Node.route =
        r.nodes.map Node.route ++ (r.fresh [record]).map NodeRecord.route := by
      have hroutes := congrArg (List.map Prod.snd) hplaces
      rwa [List.map_append, List.map_map, List.map_map, map_snd_newPlaces] at hroutes
    -- the routes of the other records are registered afterwards just if they were before
    have hfresh : (r.applyNode record).fresh records = r.fresh records := by
      apply List.filter_congr
      intro x hx
      have hnew : x.route ∉ (r.fresh [record]).map NodeRecord.route := by
        intro hnew
        obtain ⟨y, hy, hroute⟩ := List.mem_map.1 hnew
        rw [List.mem_singleton.1 (List.mem_filter.1 hy).1] at hroute
        exact hrecord (hroute ▸ List.mem_map_of_mem hx)
      rw [Bool.eq_iff_iff, isNone_node?_iff, isNone_node?_iff, hroutes,
        List.mem_append, or_iff_left hnew]
    have happend : r.fresh (record :: records) = r.fresh [record] ++ r.fresh records :=
      List.filter_append [record] records
    rw [List.foldl_cons, ih hrecords, hplaces, hnext, hfresh, List.append_assoc,
      happend, newPlaces_append]

/-! ### Records -/

theorem WellFormed.hasRecord_iff (h : r.WellFormed) {record : NodeRecord} :
    r.hasRecord record = true ↔ ∃ n ∈ r.nodes, n.record = record := by
  constructor
  · intro hrecord
    obtain ⟨n, hfind, hn⟩ := (Option.any_eq_true ..).1 hrecord
    exact ⟨n, (mem_of_node?_eq_some hfind).1, eq_of_beq hn⟩
  · rintro ⟨n, hn, rfl⟩
    have hfind : r.node? n.record.route = some n := h.node?_eq_some hn
    rw [hasRecord, hfind, Option.any_some, beq_self_eq_true]

/-- After `putNode` a node with the record is registered. -/
theorem exists_mem_putNode (r : Registry) (record : NodeRecord) :
    ∃ n ∈ (r.putNode record).2.nodes, n.record = record := by
  cases hfind : r.node? record.route with
  | some old =>
    obtain ⟨hmem, hroute⟩ := mem_of_node?_eq_some hfind
    refine ⟨old.follow record, follow_mem_putNode hmem record, ?_⟩
    rw [Node.follow_of_eq hroute]
  | none =>
    rw [(putNode_of_none hfind).2.1]
    exact ⟨_, List.mem_append_right _ (List.mem_singleton.2 rfl), rfl⟩

theorem WellFormed.hasRecord_applyNode (h : r.WellFormed) (record : NodeRecord) :
    (r.applyNode record).hasRecord record = true := by
  unfold Registry.applyNode
  split
  · assumption
  · exact (h.putNode record).hasRecord_iff.2 (exists_mem_putNode r record)

/-- A record only concerns the nodes of its route. -/
theorem WellFormed.mem_applyNode_of_ne (h : r.WellFormed) {record : NodeRecord} {n : Node}
    (hne : n.route ≠ record.route) : n ∈ (r.applyNode record).nodes ↔ n ∈ r.nodes := by
  constructor
  · intro hn
    rcases h.of_mem_applyNode hn with ⟨n₀, hn₀, rfl⟩ | hrecord
    · rw [Node.route_follow] at hne
      rwa [Node.follow_of_ne hne]
    · exact absurd (congrArg NodeRecord.route hrecord) hne
  · intro hn
    have hmem := h.follow_mem_applyNode hn record
    rwa [Node.follow_of_ne hne] at hmem

/-- A node whose route is not listed in `records` is not touched. -/
theorem WellFormed.mem_applyNodes_of_notMem (h : r.WellFormed)
    {records : List NodeRecord} {n : Node} (hroute : n.route ∉ records.map NodeRecord.route) :
    n ∈ (records.foldl Registry.applyNode r).nodes ↔ n ∈ r.nodes := by
  induction records generalizing r with
  | nil => rfl
  | cons record records ih =>
    obtain ⟨hne, hroute⟩ := not_or.1 (mt List.mem_cons.2 hroute)
    exact (ih (h.applyNode record) hroute).trans (h.mem_applyNode_of_ne hne)

/-- Records with distinct routes are those of registered nodes, once they have been applied. -/
theorem WellFormed.hasRecord_applyNodes (h : r.WellFormed) {records : List NodeRecord}
    (hroutes : (records.map NodeRecord.route).Nodup) {record : NodeRecord}
    (hrecord : record ∈ records) :
    (records.foldl Registry.applyNode r).hasRecord record = true := by
  induction records generalizing r with
  | nil => cases hrecord
  | cons record' records ih =>
    obtain ⟨hroute, hroutes⟩ := List.nodup_cons.1 hroutes
    rcases List.mem_cons.1 hrecord with rfl | hrecord
    · obtain ⟨n, hn, rfl⟩ := (h.applyNode record).hasRecord_iff.1 (h.hasRecord_applyNode record)
      have hmem := ((h.applyNode n.record).mem_applyNodes_of_notMem hroute).2 hn
      exact ((h.applyNode n.record).applyNodes records).hasRecord_iff.2 ⟨n, hmem, rfl⟩
    · exact ih (h.applyNode record') hroutes hrecord

/-- Applying `records` does nothing to nodes that are registered with them. -/
theorem applyNodes_of_hasRecord {records : List NodeRecord}
    (h : ∀ record ∈ records, r.hasRecord record = true) :
    records.foldl applyNode r = r := by
  induction records with
  | nil => rfl
  | cons record records ih =>
    obtain ⟨hrecord, hrecords⟩ := List.forall_mem_cons.1 h
    rw [List.foldl_cons, applyNode, if_pos hrecord]
    exact ih hrecords

/-! ### The end of registrations -/

theorem nodes_removeNode {route : String} (h : r.removeNode route = none) :
    r.nodes = r.nodes.filter fun n => n.route != route := by
  have hnone : r.node? route = none := Option.map_eq_none_iff.1 h
  refine (List.filter_eq_self.2 fun n hn => ?_).symm
  exact bne_iff_ne.2 (route_ne_of_node?_eq_none hnone hn)

theorem nodes_removeNodes (routes : List String) (r : Registry) :
    (r.removeNodes routes).2.nodes = r.nodes.filter fun n => !routes.contains n.route := by
  have hcons (route : String) (routes : List String) (ns : List Node) :
      (ns.filter fun n => n.route != route).filter (fun n => !routes.contains n.route) =
        ns.filter fun n => !(route :: routes).contains n.route := by
    rw [List.filter_filter]
    apply List.filter_congr
    intro n _
    rw [List.contains_cons, Bool.not_or, Bool.and_comm]
    rfl
  induction routes generalizing r with
  | nil => exact (List.filter_eq_self.2 fun _ _ => rfl).symm
  | cons route routes ih =>
    rw [← hcons]
    unfold removeNodes
    split
    · rename_i hr
      rw [ih, ← nodes_removeNode hr]
    · rename_i n r' hr
      rw [← (removeNode_eq hr).2.2.1]
      exact ih r'

/-- The registrations that `removeNodes` ends are those of the `routes`. -/
theorem WellFormed.mem_removeNodes_iff (h : r.WellFormed) (routes : List String) {n : Node} :
    n ∈ (r.removeNodes routes).1 ↔ n ∈ r.nodes ∧ n.route ∈ routes := by
  induction routes generalizing r with
  | nil => simp [Registry.removeNodes]
  | cons route routes ih =>
    unfold Registry.removeNodes
    split
    · rename_i hr
      rw [ih h, List.mem_cons]
      refine and_congr_right fun hn => (or_iff_right fun hroute => ?_).symm
      exact route_ne_of_node?_eq_none (Option.map_eq_none_iff.1 hr) hn hroute
    · rename_i n' r' hr
      obtain ⟨hn', hroute, hnodes, -⟩ := removeNode_eq hr
      rw [List.mem_cons, ih (h.removeNode hr), hnodes, List.mem_filter, bne_iff_ne, List.mem_cons]
      by_cases heq : n.route = route
      · have hsame : n ∈ r.nodes ↔ n = n' :=
          ⟨fun hn => h.route_inj n hn n' hn' (heq.trans hroute.symm), fun hn => hn ▸ hn'⟩
        simp [hsame, heq]
      · have hne : n ≠ n' := fun hn => heq (hn ▸ hroute)
        simp [hne, heq]

/-! ### Kinds of records -/

section

variable {P : NodeRecord → Prop}

/-- All registered nodes have records that satisfy `P`. -/
def AllRecords (P : NodeRecord → Prop) (r : Registry) : Prop := ∀ n ∈ r.nodes, P n.record

theorem allRecords_putNode (h : AllRecords P r) {record : NodeRecord} (hrecord : P record) :
    AllRecords P (r.putNode record).2 := by
  intro n' hn'
  cases hfind : r.node? record.route with
  | some old =>
    rw [(putNode_of_some hfind).2.1] at hn'
    obtain ⟨n, hn, rfl⟩ := List.mem_map.1 hn'
    by_cases hroute : n.route = record.route
    · rw [Node.follow_of_eq hroute]
      exact hrecord
    · rw [Node.follow_of_ne hroute]
      exact h n hn
  | none =>
    rw [(putNode_of_none hfind).2.1] at hn'
    rcases List.mem_append.1 hn' with hn' | hn'
    · exact h n' hn'
    · obtain rfl := List.mem_singleton.1 hn'
      exact hrecord

theorem allRecords_applyNodes (h : AllRecords P r) {records : List NodeRecord}
    (hrecords : ∀ record ∈ records, P record) : AllRecords P (records.foldl applyNode r) := by
  refine List.foldlRecOn records applyNode h fun r' hr' record hmem => ?_
  unfold applyNode
  split
  · exact hr'
  · exact allRecords_putNode hr' (hrecords record hmem)

theorem allRecords_ofRecords (balancers : List BalancerRecord) {records : List NodeRecord}
    (hrecords : ∀ record ∈ records, P record) : AllRecords P (ofRecords balancers records) := by
  refine List.foldlRecOn records _ ?_ fun r hr record hmem =>
    allRecords_putNode hr (hrecords record hmem)
  intro n hn
  rw [(nodes_putBalancers balancers {}).1] at hn
  cases hn

theorem allRecords_reconcile (h : AllRecords P r) (balancers : List BalancerRecord)
    {records : List NodeRecord}
    (hrecords : ∀ record ∈ records, P record) : AllRecords P (r.reconcile balancers records).2 := by
  have hb : AllRecords P (balancers.foldl applyBalancer r) := by
    intro n hn
    rw [(nodes_applyBalancers balancers r).1] at hn
    exact h n hn
  exact fun n hn => allRecords_applyNodes hb hrecords n (mem_of_mem_removeNodes hn)

end

/-! ### Both lists -/

/-- A registry that agrees with the lists stays as it is by `reconcile`. -/
theorem reconcile_of_settled {balancers : List BalancerRecord} {nodes : List NodeRecord}
    (hbalancers : ∀ b ∈ balancers, r.balancer? b.name = some b)
    (hnodes : ∀ record ∈ nodes, r.hasRecord record = true)
    (hroutes : ∀ n ∈ r.nodes, n.route ∈ nodes.map NodeRecord.route) :
    r.reconcile balancers nodes = ([], r) := by
  have happly : balancers.foldl applyBalancer r = r := by
    clear hnodes hroutes
    induction balancers with
    | nil => rfl
    | cons b balancers ih =>
      obtain ⟨hb, hbalancers⟩ := List.forall_mem_cons.1 hbalancers
      rw [List.foldl_cons, applyBalancer, if_pos hb]
      exact ih hbalancers
  have hstale : (r.nodes.map Node.route).filter
      (fun route => !(nodes.map NodeRecord.route).contains route) = [] := by
    rw [List.filter_eq_nil_iff]
    rintro route hroute
    obtain ⟨n, hn, rfl⟩ := List.mem_map.1 hroute
    simpa using hroutes n hn
  simp only [reconcile, happly, applyNodes_of_hasRecord hnodes, hstale, removeNodes]

/-- The routes that are registered in `r` and not listed in `nodes`. -/
def stale (r : Registry) (nodes : List NodeRecord) : List String :=
  (r.nodes.map Node.route).filter fun route => !(nodes.map NodeRecord.route).contains route

theorem mem_stale_iff {nodes : List NodeRecord} {n : Node} (hn : n ∈ r.nodes) :
    n.route ∈ r.stale nodes ↔ n.route ∉ nodes.map NodeRecord.route := by
  rw [stale, List.mem_filter, and_iff_right (List.mem_map_of_mem hn), Bool.not_eq_true',
    ← Bool.not_eq_true, List.contains_iff_mem]

/-- Without the `stale` nodes those are left that are listed. -/
theorem nodes_removeNodes_stale (r : Registry) (nodes : List NodeRecord) :
    (r.removeNodes (r.stale nodes)).2.nodes =
      r.nodes.filter fun n => (nodes.map NodeRecord.route).contains n.route := by
  rw [nodes_removeNodes]
  apply List.filter_congr
  intro n hn
  rw [Bool.eq_iff_iff, Bool.not_eq_true', ← Bool.not_eq_true, List.contains_iff_mem,
    List.contains_iff_mem, mem_stale_iff hn, not_not]

section

variable {balancers : List BalancerRecord} {nodes : List NodeRecord}

/-- If the nodes were applied before, `reconcile` has to apply the balancers and to end
registrations. -/
theorem WellFormed.reconcile_applyNodes (h : r.WellFormed)
    (hroutes : (nodes.map NodeRecord.route).Nodup) :
    let applied := balancers.foldl applyBalancer (nodes.foldl Registry.applyNode r)
    (nodes.foldl Registry.applyNode r).reconcile balancers nodes =
      applied.removeNodes (applied.stale nodes) := by
  intro applied
  have hrecord (record : NodeRecord) (hrecord : record ∈ nodes) :
      applied.hasRecord record = true := by
    rw [hasRecord, node?, (nodes_applyBalancers ..).1]
    exact h.hasRecord_applyNodes hroutes hrecord
  rw [Registry.reconcile, applyNodes_of_hasRecord hrecord]
  rfl

/-- After the nodes were applied, `reconcile` leaves those that are listed, in the places in which
they were, or in new ones. -/
theorem WellFormed.places_reconcile_applyNodes (h : r.WellFormed)
    (hroutes : (nodes.map NodeRecord.route).Nodup) :
    ((nodes.foldl Registry.applyNode r).reconcile balancers nodes).2.nodes.map Node.place =
      (r.nodes.filter fun n => (nodes.map NodeRecord.route).contains n.route).map Node.place ++
        newPlaces r.nextId (r.fresh nodes) := by
  have hfilter (ns : List Node) :
      (ns.filter fun n => (nodes.map NodeRecord.route).contains n.route).map Node.place =
        (ns.map Node.place).filter fun place => (nodes.map NodeRecord.route).contains place.2 := by
    rw [List.filter_map]
    rfl
  have hfresh : (newPlaces r.nextId (r.fresh nodes)).filter
      (fun place => (nodes.map NodeRecord.route).contains place.2) =
      newPlaces r.nextId (r.fresh nodes) := by
    rw [List.filter_eq_self]
    intro place hplace
    have hroute := List.mem_map_of_mem (f := Prod.snd) hplace
    rw [map_snd_newPlaces] at hroute
    obtain ⟨record, hrecord, heq⟩ := List.mem_map.1 hroute
    rw [← heq]
    exact List.contains_iff_mem.2 (List.mem_map_of_mem (List.mem_filter.1 hrecord).1)
  rw [h.reconcile_applyNodes hroutes, nodes_removeNodes_stale, (nodes_applyBalancers ..).1, hfilter,
    places_applyNodes hroutes, List.filter_append, hfresh, hfilter]

/-- If all records of `nodes` are registered, and nothing else, each is registered once. -/
theorem Consistent.perm_records (h : r.Consistent) (hroutes : (nodes.map NodeRecord.route).Nodup)
    (hrecords : ∀ record ∈ nodes, r.hasRecord record = true)
    (hlisted : ∀ n ∈ r.nodes, n.route ∈ nodes.map NodeRecord.route) :
    (r.nodes.map Node.record).Perm nodes := by
  have hnodup : (r.nodes.map Node.record).Nodup := by
    have hroutes : (r.nodes.map Node.record).map NodeRecord.route = r.nodes.map Node.route :=
      List.map_map
    exact (hroutes.symm ▸ h.routes_nodup).of_map
  refine (List.perm_ext_iff_of_nodup hnodup hroutes.of_map).2 fun record => ?_
  constructor
  · intro hrecord
    obtain ⟨n, hn, rfl⟩ := List.mem_map.1 hrecord
    obtain ⟨record, hrecord, hroute⟩ := List.mem_map.1 (hlisted n hn)
    obtain ⟨n', hn', rfl⟩ := h.wellFormed.hasRecord_iff.1 (hrecords record hrecord)
    rwa [← h.wellFormed.route_inj n' hn' n hn hroute]
  · intro hrecord
    obtain ⟨n, hn, rfl⟩ := h.wellFormed.hasRecord_iff.1 (hrecords record hrecord)
    exact List.mem_map_of_mem hn

/-- Applying the nodes before `reconcile` makes no difference for the nodes. -/
theorem WellFormed.members_reconcile_applyNodes (h : r.WellFormed)
    (hroutes : (nodes.map NodeRecord.route).Nodup) :
    ((nodes.foldl Registry.applyNode r).reconcile balancers nodes).2.members =
      (r.reconcile balancers nodes).2.members := by
  have happlied : (balancers.foldl applyBalancer (nodes.foldl Registry.applyNode r)).members =
      (nodes.foldl Registry.applyNode (balancers.foldl applyBalancer r)).members :=
    (members_applyBalancers balancers _).trans
      (members_applyNodes (members_applyBalancers balancers r) nodes).symm
  obtain ⟨hnodes, hstates, hwake⟩ := members_eq_iff.1 happlied
  rw [h.reconcile_applyNodes hroutes, members_eq_iff, states_removeNodes,
    wake_removeNodes, hstates, hwake,
    nodes_removeNodes_stale, hnodes, ← nodes_removeNodes_stale, Registry.reconcile,
    states_removeNodes,
    wake_removeNodes]
  exact ⟨rfl, rfl, rfl⟩

/-- Applying the nodes before `reconcile` makes no difference for the balancers, although nodes
bring balancers with them. -/
theorem Consistent.balancer?_reconcile_applyNodes (h : r.Consistent)
    (hroutes : (nodes.map NodeRecord.route).Nodup)
    (hnames : (balancers.map BalancerRecord.name).Nodup) (name : String) :
    ((nodes.foldl Registry.applyNode r).reconcile balancers nodes).2.balancer? name =
        ((balancers.find? fun b => b.name == name).or (r.balancer? name)).or
          (if name ∈ nodes.map NodeRecord.balancer then some (.named name) else none) ∧
      (r.reconcile balancers nodes).2.balancer? name =
        ((balancers.find? fun b => b.name == name).or (r.balancer? name)).or
          (if name ∈ nodes.map NodeRecord.balancer then some (.named name) else none) := by
  constructor
  · rw [h.wellFormed.reconcile_applyNodes hroutes, balancer?, balancers_removeNodes, ← balancer?,
      balancer?_applyBalancers hnames, h.balancer?_applyNodes, Option.or_assoc]
  · have hb : (balancers.foldl applyBalancer r).Consistent :=
      h.changes (changes_foldl changes_applyBalancer balancers r)
    rw [Registry.reconcile, balancer?, balancers_removeNodes, ← balancer?, hb.balancer?_applyNodes,
      balancer?_applyBalancers hnames]

end

end Registry

end ReverseProxy.Fleet
