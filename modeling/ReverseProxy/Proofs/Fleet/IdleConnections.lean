import ReverseProxy.Fleet.Membership
import ReverseProxy.Proofs.Fleet.RegisteredNodes

/-!
# Which connections wait

A connection that waits in the queue of a node is to lead where the node is (`Membership.Matches`).
Every change of the membership keeps this, since the queue of a node that moves or goes is dropped
with it.  What does not keep it by itself is to take a connection back: `IdlePool.Accepts` compares
the connection with the version of the node that the exchange has, and not with the one that is
registered.
-/

namespace ReverseProxy.Fleet

namespace IdlePool

/-- The connection `c` waits in the queue of the node `id`. -/
def Waits (p : IdlePool) (id : Nat) (c : Connection) : Prop :=
  ∃ queue, (id, queue) ∈ p.queues ∧ c ∈ queue

/-- The pool takes `c` back for `n`: it fits this version, is open, and its node has a queue. -/
def Accepts (p : IdlePool) (isOpen : LinkId → Bool) (n : Node) (c : Connection) : Prop :=
  c.fits n = true ∧ isOpen c.link = true ∧ (p.queue? c.nodeId).isSome = true

variable {p : IdlePool} {isOpen : LinkId → Bool} {id id' : Nat} {n : Node} {c c' : Connection}
  {queue : List Connection}

theorem mem_queues_of_queue? (h : p.queue? id = some queue) : (id, queue) ∈ p.queues := by
  obtain ⟨l₁, l₂, hl, -⟩ := List.lookup_eq_some_iff.1 h
  rw [hl]
  exact List.mem_append_right _ (List.mem_cons_self ..)

theorem waits_of_mem_getD (h : c ∈ (p.queue? id).getD []) : p.Waits id c := by
  cases hq : p.queue? id with
  | none => rw [hq] at h; cases h
  | some queue => rw [hq] at h; exact ⟨queue, mem_queues_of_queue? hq, h⟩

theorem waits_erase (h : (p.erase id).Waits id' c) : p.Waits id' c ∧ id' ≠ id := by
  obtain ⟨queue, hq, hc⟩ := h
  obtain ⟨hmem, hne⟩ := List.mem_filter.1 hq
  exact ⟨⟨queue, hmem, hc⟩, bne_iff_ne.1 hne⟩

/-- Only the queue of `id` can gain or lose connections by `setQueue`. -/
theorem waits_setQueue (h : (p.setQueue id queue).Waits id' c) :
    id' = id ∧ c ∈ queue ∨ p.Waits id' c := by
  obtain ⟨queue', hq, hc⟩ := h
  unfold setQueue at hq
  split at hq
  · obtain ⟨⟨i, q⟩, hmem, heq⟩ := List.mem_map.1 hq
    split at heq
    · cases heq
      exact .inl ⟨rfl, hc⟩
    · cases heq
      exact .inr ⟨queue', hmem, hc⟩
  · rcases List.mem_append.1 hq with hmem | hmem
    · exact .inr ⟨queue', hmem, hc⟩
    · cases List.mem_singleton.1 hmem
      exact .inl ⟨rfl, hc⟩

theorem waits_setQueue_self (h : c ∈ queue) : (p.setQueue id queue).Waits id c := by
  refine ⟨queue, ?_, h⟩
  unfold setQueue
  split
  · rename_i hsome
    obtain ⟨old, hold⟩ := Option.isSome_iff_exists.1 hsome
    exact List.mem_map.2 ⟨(id, old), mem_queues_of_queue? hold, if_pos rfl⟩
  · exact List.mem_append_right _ (List.mem_singleton.2 rfl)

/-- What `firstOpen` takes, and what it leaves, was in the queue. -/
theorem mem_firstOpen {rest : List Connection} {got : Option Connection}
    (h : firstOpen isOpen queue = (got, rest)) :
    (∀ c ∈ rest, c ∈ queue) ∧ ∀ c, got = some c → c ∈ queue := by
  induction queue with
  | nil => cases h; exact ⟨fun _ hc => hc, nofun⟩
  | cons x queue ih =>
    unfold firstOpen at h
    split at h
    · cases h
      exact ⟨fun c hc => List.mem_cons_of_mem _ hc, fun c hc =>
        Option.some.inj hc ▸ List.mem_cons_self ..⟩
    · obtain ⟨hrest, hgot⟩ := ih h
      exact ⟨fun c hc => List.mem_cons_of_mem _ (hrest c hc), fun c hc =>
        List.mem_cons_of_mem _ (hgot c hc)⟩

/-- A connection that `take` gives was waiting for the node, and no other begins to wait. -/
theorem waits_take {p' : IdlePool} {got : Option Connection} (h : p.take isOpen n = (got, p')) :
    (∀ id c, p'.Waits id c → p.Waits id c) ∧ ∀ c, got = some c → p.Waits n.id c := by
  rcases hf : firstOpen isOpen ((p.queue? n.id).getD []) with ⟨got', rest⟩
  obtain ⟨hrest, hgot⟩ := mem_firstOpen hf
  simp only [take, hf] at h
  cases h
  refine ⟨fun id c hc => ?_, fun c hc => waits_of_mem_getD (hgot c hc)⟩
  rcases waits_setQueue hc with ⟨rfl, hmem⟩ | hold
  · exact waits_of_mem_getD (hrest c hmem)
  · exact hold

/-- A connection that waits after `recycle` has waited before, or it is `c`. -/
theorem waits_recycle (h : (p.recycle isOpen n c).Waits id c') :
    p.Waits id c' ∨ p.Accepts isOpen n c ∧ id = c.nodeId ∧ c' = c := by
  unfold recycle at h
  split at h
  · rename_i queue hq
    split at h
    · rename_i hfits
      obtain ⟨hfits, hopen⟩ := Bool.and_eq_true_iff.1 hfits
      rcases waits_setQueue h with ⟨rfl, hmem⟩ | hold
      · rcases List.mem_append.1 hmem with hmem | hmem
        · exact .inl ⟨queue, mem_queues_of_queue? hq, hmem⟩
        · exact .inr ⟨⟨hfits, hopen, by rw [hq]; rfl⟩, rfl, List.mem_singleton.1 hmem⟩
      · exact .inl hold
    · exact .inl h
  · exact .inl h

/-- A connection that the pool accepts waits after `recycle`. -/
theorem Accepts.waits (h : p.Accepts isOpen n c) : (p.recycle isOpen n c).Waits c.nodeId c := by
  obtain ⟨hfits, hopen, hsome⟩ := h
  obtain ⟨queue, hq⟩ := Option.isSome_iff_exists.1 hsome
  unfold recycle
  rw [hq]
  simp only [hfits, hopen, Bool.and_self, if_true]
  exact waits_setQueue_self (List.mem_append_right _ (List.mem_singleton.2 rfl))

/-! ### Queue by queue -/

theorem queue?_cons (q : Nat × List Connection) (qs : List (Nat × List Connection)) (id : Nat) :
    queue? { queues := q :: qs } id =
      if id = q.1 then some q.2 else queue? { queues := qs } id := by
  obtain ⟨i, queue⟩ := q
  rw [queue?, List.lookup_cons]
  by_cases h : id = i
  · rw [if_pos h, beq_iff_eq.2 h]
  · rw [if_neg h, beq_false_of_ne h]
    rfl

theorem queue?_append (qs qs' : List (Nat × List Connection)) (id : Nat) :
    queue? { queues := qs ++ qs' } id = (queue? { queues := qs } id).or
      (queue? { queues := qs' } id) :=
  List.lookup_append

/-- The queue of `id` is replaced by `setQueue`, and no other. -/
theorem queue?_setQueue (p : IdlePool) (id id' : Nat) (queue : List Connection) :
    (p.setQueue id queue).queue? id' = if id' = id then some queue else p.queue? id' := by
  have hmap (qs : List (Nat × List Connection)) :
      queue? { queues := qs.map fun q => if q.1 = id then (id, queue) else q } id' =
        if id' = id then (queue? { queues := qs } id).map fun _ => queue
        else queue? { queues := qs } id' := by
    induction qs with
    | nil => simp [queue?]
    | cons q qs ih =>
      rw [List.map_cons, queue?_cons, ih, queue?_cons, queue?_cons]
      grind
  unfold setQueue
  split
  · rename_i hsome
    obtain ⟨old, hold⟩ := Option.isSome_iff_exists.1 hsome
    rw [hmap, hold, Option.map_some]
  · rename_i hnone
    rw [Option.not_isSome_iff_eq_none] at hnone
    rw [queue?_append, queue?_cons]
    by_cases hid : id' = id
    · rw [hid, hnone, if_pos rfl, if_pos rfl, Option.none_or]
    · rw [if_neg hid, if_neg hid]
      exact Option.or_none

/-- The queue of `id` is gone after `erase`, and no other. -/
theorem queue?_erase (p : IdlePool) (id id' : Nat) :
    (p.erase id).queue? id' = if id' = id then none else p.queue? id' := by
  have hfilter (qs : List (Nat × List Connection)) :
    queue? { queues := qs.filter fun q => q.1 != id } id' =
      if id' = id then none else queue? { queues := qs } id' := by
    induction qs with
    | nil => simp [queue?]
    | cons q qs ih =>
      rw [List.filter_cons, queue?_cons]
      split
      · rw [queue?_cons, ih]
        grind
      · rw [ih]
        grind
  exact hfilter p.queues

/-- A suffix of the queue is left by `firstOpen`. -/
theorem suffix_firstOpen (isOpen : LinkId → Bool) (queue : List Connection) :
    (firstOpen isOpen queue).2 <:+ queue := by
  induction queue with
  | nil => exact List.suffix_refl _
  | cons c queue ih =>
    unfold firstOpen
    split
    · exact List.suffix_cons c queue
    · exact ih.trans (List.suffix_cons c queue)

/-- No queue gets longer by `take`: what is left is a suffix. -/
theorem suffix_take (p : IdlePool) (isOpen : LinkId → Bool) (n : Node) (id : Nat) :
    ((p.take isOpen n).2.queue? id).getD [] <:+ (p.queue? id).getD [] := by
  show ((p.setQueue n.id (firstOpen isOpen ((p.queue? n.id).getD [])).2).queue? id).getD [] <:+ _
  rw [queue?_setQueue]
  split
  · rename_i hid
    rw [hid, Option.getD_some]
    exact suffix_firstOpen isOpen _
  · exact List.suffix_refl _

end IdlePool

theorem Connection.fits_iff {c : Connection} {n : Node} :
    c.fits n = true ↔ c.nodeId = n.id ∧ c.address = n.address ∧ c.protocol = n.protocol := by
  simp [Connection.fits, and_assoc]

/-- A new connection leads where the node is. -/
theorem Node.fits_connection (n : Node) (link : LinkId) : (n.connection link).fits n = true :=
  Connection.fits_iff.2 ⟨rfl, rfl, rfl⟩

namespace Membership

/-- Every connection that waits in the queue of a node leads to where this node is registered. -/
def Matches (m : Membership) : Prop :=
  ∀ id c, m.idle.Waits id c → ∃ n ∈ m.registry.nodes, n.id = id ∧ c.fits n = true

/-- The invariant of a membership: the registry is well formed, and waiting connections lead to
where their nodes are. -/
structure Sound (m : Membership) : Prop where
  wellFormed : m.registry.WellFormed
  leads : m.Matches

variable {m : Membership}

/-- A waiting connection to a node leads to where the node is registered. -/
theorem Sound.fits (h : m.Sound) {n : Node} (hn : n ∈ m.registry.nodes)
    {c : Connection} (hc : m.idle.Waits n.id c) :
    c.fits n = true := by
  obtain ⟨n', hn', hid, hfits⟩ := h.leads n.id c hc
  rwa [h.wellFormed.id_inj n' hn' n hn hid] at hfits

/-- A membership with the same nodes, in which no more connections wait, is `Sound` as well. -/
theorem Sound.of_waits (h : m.Sound) {m' : Membership}
    (hnodes : m'.registry.nodes = m.registry.nodes) (hnext : m'.registry.nextId = m.registry.nextId)
    (hwaits : ∀ id c, m'.idle.Waits id c → m.idle.Waits id c) :
    m'.Sound := by
  refine ⟨h.wellFormed.of_eq hnodes hnext, fun id c hc => ?_⟩
  rw [hnodes]
  exact h.leads id c (hwaits id c hc)

/-- A connection still fits `n` after a record that is not elsewhere. -/
theorem fits_follow {c : Connection} {n : Node} {record : NodeRecord}
    (h : ¬isElsewhere n record = true)
    (hc : c.fits n = true) : c.fits (n.follow record) = true := by
  by_cases hroute : n.route = record.route
  · simp only [isElsewhere, Bool.or_eq_true, bne_iff_ne, not_or, Decidable.not_not] at h
    obtain ⟨⟨hhost, hport⟩, hsecure⟩ := h
    rw [Connection.fits_iff] at hc ⊢
    rw [Node.follow_of_eq hroute]
    simp only [Node.address, Node.protocol] at hc ⊢
    rwa [← hhost, ← hport, ← hsecure]
  · rwa [Node.follow_of_ne hroute]

/-- The membership stays `Sound` by `putNode`, which keeps the connections of a node only if it does
not move. -/
theorem Sound.putNode (h : m.Sound) (record : NodeRecord) : (m.putNode record).2.Sound := by
  obtain ⟨hw, h⟩ := h
  refine ⟨hw.putNode record, fun id c hc => ?_⟩
  by_cases hmoves : (m.registry.node? record.route).any (isElsewhere · record) = true
  · have hidle : (m.putNode record).2.idle = m.idle.erase (m.registry.putNode record).1.id := by
      simp only [Membership.putNode, hmoves, if_true]
      rfl
    obtain ⟨old, hold, -⟩ := (Option.any_eq_true ..).1 hmoves
    obtain ⟨hmem, hroute⟩ := Registry.mem_of_node?_eq_some hold
    rw [hidle, (Registry.putNode_of_some hold).1] at hc
    obtain ⟨hwaits, hne⟩ := IdlePool.waits_erase hc
    obtain ⟨n, hn, rfl, hfits⟩ := h id c hwaits
    have hne : n.id ≠ old.id := hne
    have hnroute : n.route ≠ record.route := fun hn' =>
      hne (congrArg Node.id (hw.route_inj n hn old hmem (hn'.trans hroute.symm)))
    have hmem' := Registry.follow_mem_putNode hn record
    rw [Node.follow_of_ne hnroute] at hmem'
    exact ⟨n, hmem', rfl, hfits⟩
  · have hidle : (m.putNode record).2.idle = m.idle := by
      simp only [Membership.putNode, hmoves]
      rfl
    rw [hidle] at hc
    obtain ⟨n, hn, rfl, hfits⟩ := h id c hc
    refine ⟨n.follow record, Registry.follow_mem_putNode hn record, Node.id_follow, ?_⟩
    cases hfind : m.registry.node? record.route with
    | none => rwa [Node.follow_of_ne (Registry.route_ne_of_node?_eq_none hfind hn)]
    | some old =>
      obtain ⟨hmem, hroute⟩ := Registry.mem_of_node?_eq_some hfind
      by_cases hnroute : n.route = record.route
      · obtain rfl := hw.route_inj n hn old hmem (hnroute.trans hroute.symm)
        rw [hfind, Option.any_some] at hmoves
        exact fits_follow hmoves hfits
      · rwa [Node.follow_of_ne hnroute]

/-- The membership stays `Sound` by `removeNode`, which closes the connections of the node. -/
theorem Sound.removeNode (h : m.Sound) {route : String} {n : Node} {m' : Membership}
    (hr : m.removeNode route = some (n, m')) : m'.Sound := by
  obtain ⟨hw, h⟩ := h
  obtain ⟨⟨n', registry⟩, hremove, heq⟩ := Option.map_eq_some_iff.1 hr
  cases heq
  refine ⟨hw.removeNode hremove, fun id c hc => ?_⟩
  obtain ⟨hwaits, hne⟩ := IdlePool.waits_erase hc
  obtain ⟨x, hx, rfl, hfits⟩ := h id c hwaits
  exact ⟨x, Registry.mem_of_removeNode hw hremove hx hne, rfl, hfits⟩

theorem Sound.applyNode (h : m.Sound) (record : NodeRecord) : (m.applyNode record).Sound := by
  unfold Membership.applyNode
  split
  · exact h
  · exact h.putNode record

theorem Sound.applyNodes (h : m.Sound) (records : List NodeRecord) :
    (records.foldl Membership.applyNode m).Sound := by
  induction records generalizing m with
  | nil => exact h
  | cons record records ih => exact ih (h.applyNode record)

/-- On the registry, `applyNode` is that of registries. -/
theorem nodes_applyNodes (records : List NodeRecord) (m : Membership) :
    (records.foldl Membership.applyNode m).registry =
      records.foldl Registry.applyNode m.registry := by
  induction records generalizing m with
  | nil => rfl
  | cons record records ih =>
    rw [List.foldl_cons, ih, List.foldl_cons, Membership.applyNode, Registry.applyNode]
    split <;> rfl

/-- On the registry, `reconcile` applies the nodes first and then is that of registries. -/
theorem registry_reconcile (m : Membership) (balancers : List BalancerRecord)
    (records : List NodeRecord) :
    (m.reconcile balancers records).registry =
      ((records.foldl Registry.applyNode m.registry).reconcile balancers records).2 := by
  rw [← nodes_applyNodes]
  rfl

theorem waits_closeAll {removed : List Node} {idle : IdlePool} {id : Nat} {c : Connection}
    (hc : (removed.foldl (fun idle n => (idle.close n.id).2) idle).Waits id c) :
    idle.Waits id c ∧ ∀ n ∈ removed, id ≠ n.id := by
  induction removed generalizing idle with
  | nil => exact ⟨hc, List.forall_mem_nil _⟩
  | cons n removed ih =>
    obtain ⟨hwaits, hne⟩ := ih hc
    obtain ⟨hwaits, hn⟩ := IdlePool.waits_erase hwaits
    exact ⟨hwaits, List.forall_mem_cons.2 ⟨hn, hne⟩⟩

/-- The membership stays `Sound` by `reconcile`. -/
theorem Sound.reconcile (h : m.Sound) (balancers : List BalancerRecord) (nodes : List NodeRecord) :
    (m.reconcile balancers nodes).Sound := by
  obtain ⟨hw', hleads⟩ := h.applyNodes nodes
  refine ⟨hw'.reconcile balancers nodes, fun id c hc => ?_⟩
  obtain ⟨hwaits, hne⟩ := waits_closeAll hc
  obtain ⟨n, hn, rfl, hfits⟩ := hleads id c hwaits
  refine ⟨n, ?_, rfl, hfits⟩
  have hbalancers :=
    Registry.nodes_applyBalancers balancers (nodes.foldl Membership.applyNode m).registry
  have hwb :
    (balancers.foldl Registry.applyBalancer
      (nodes.foldl Membership.applyNode m).registry).WellFormed :=
    hw'.of_eq hbalancers.1 (congrArg (List.length · + 1) hbalancers.2)
  rw [nodes_applyNodes] at hn hbalancers hwb
  -- the registry applies the nodes a second time, which moves none of them
  have hagain := Registry.mem_applyNodes_again h.wellFormed hn hwb hbalancers.1
  rw [← nodes_applyNodes] at hagain hwb
  exact Registry.mem_removeNodes (hwb.applyNodes nodes) _ hagain hne

end Membership

end ReverseProxy.Fleet
