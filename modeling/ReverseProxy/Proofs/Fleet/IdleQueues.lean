import Mathlib.Data.List.Nodup
import Mathlib.Data.List.Perm.Basic
import Mathlib.Data.List.TakeWhile
import ReverseProxy.Proofs.Fleet.IdleConnections

/-!
# What enters and leaves the queues

All connections that wait, for whatever node, make one list (`IdlePool.waiting`).  What an operation
of the pool adds to this list and takes from it is said here by a permutation: the list afterwards,
with what was taken, is the list before, with what was added.  That takes the queues to be in order
(`IdlePool.Tidy`), which all operations leave them.
-/

namespace ReverseProxy.Fleet.IdlePool

/-- All connections that wait, in whatever queue. -/
def waiting (p : IdlePool) : List Connection := p.queues.flatMap Prod.snd

/-- The connections that wait for the node `id`, the one that has waited longest first. -/
def waitingFor (p : IdlePool) (id : Nat) : List Connection := (p.queue? id).getD []

/-- Every node has at most one queue, and only connections to the node wait in it. -/
structure Tidy (p : IdlePool) : Prop where
  ids_nodup : (p.queues.map Prod.fst).Nodup
  nodeId_eq : ∀ id c, p.Waits id c → c.nodeId = id

variable {p : IdlePool} {isOpen : LinkId → Bool} {id : Nat} {n : Node}
    {c : Connection} {queue : List Connection}

theorem tidy_empty : Tidy {} := ⟨.nil, fun _ _ ⟨_, hmem, _⟩ => nomatch hmem⟩

theorem mem_waiting_iff : c ∈ p.waiting ↔ ∃ id, p.Waits id c := by
  simp [waiting, Waits]

/-- The number of connections `waiting` is `totalIdle`. -/
theorem totalIdle_eq (p : IdlePool) : p.totalIdle = p.waiting.length := by
  obtain ⟨queues⟩ := p
  induction queues with
  | nil => rfl
  | cons q queues ih =>
    rw [waiting, List.flatMap_cons, List.length_append, ← waiting, ← ih]
    rfl

/-- A queue stands in one place. -/
theorem Tidy.exists_split (h : p.Tidy) (hq : p.queue? id = some queue) :
    ∃ front back, p.queues = front ++ (id, queue) :: back ∧ ∀ q ∈ front ++ back, q.1 ≠ id := by
  obtain ⟨front, back, hsplit, hfront⟩ := List.lookup_eq_some_iff.1 hq
  refine ⟨front, back, hsplit, ?_⟩
  have hids := h.ids_nodup
  rw [hsplit, List.map_append, List.map_cons, List.nodup_append] at hids
  obtain ⟨-, hback, -⟩ := hids
  rw [List.forall_mem_append]
  refine ⟨fun q hmem => ?_, fun q hmem heq => ?_⟩
  · exact (bne_iff_ne.1 (hfront q hmem)).symm
  · exact (List.nodup_cons.1 hback).1 (List.mem_map.2 ⟨q, hmem, heq⟩)

/-- The `queue` that is set takes the place of the one before. -/
theorem Tidy.perm_setQueue (h : p.Tidy) (id : Nat) (queue : List Connection) :
    ((p.setQueue id queue).waiting ++ p.waitingFor id).Perm (p.waiting ++ queue) := by
  unfold setQueue waitingFor
  split
  · rename_i hsome
    obtain ⟨old, hold⟩ := Option.isSome_iff_exists.1 hsome
    obtain ⟨front, back, hsplit, hne⟩ := h.exists_split hold
    obtain ⟨hfront, hback⟩ := List.forall_mem_append.1 hne
    have hstay : ∀ qs : List (Nat × List Connection), (∀ q ∈ qs, q.1 ≠ id) →
        (qs.map fun q => if q.1 = id then (id, queue) else q) = qs := fun qs hqs =>
      (List.map_congr_left fun q hq => if_neg (hqs q hq)).trans (List.map_id qs)
    rw [hold, Option.getD_some, waiting, waiting, hsplit]
    simp only [List.map_append, List.map_cons, if_true, hstay front hfront,
      hstay back hback, List.flatMap_append, List.flatMap_cons]
    rw [List.perm_iff_count]
    intro c
    simp only [List.count_append]
    omega
  · rename_i hnone
    rw [Option.not_isSome_iff_eq_none.1 hnone, Option.getD_none, List.append_nil,
      waiting, List.flatMap_append, List.flatMap_singleton]
    exact .refl _

/-- The connections of the node `id` are gone after `erase`, and no others. -/
theorem Tidy.perm_erase (h : p.Tidy) (id : Nat) :
    ((p.erase id).waiting ++ p.waitingFor id).Perm p.waiting := by
  have hstay : ∀ qs : List (Nat × List Connection), (∀ q ∈ qs, q.1 ≠ id) →
      (qs.filter fun q => q.1 != id) = qs :=
    fun qs hqs => List.filter_eq_self.2 fun q hq => bne_iff_ne.2 (hqs q hq)
  unfold erase waitingFor
  cases hq : p.queue? id with
  | none =>
    have hne : ∀ q ∈ p.queues, q.1 ≠ id := by
      rintro ⟨i, queue⟩ hmem rfl
      have := List.lookup_eq_none_iff.1 hq _ hmem
      simp at this
    rw [Option.getD_none, List.append_nil, waiting, hstay _ hne]
    exact .refl _
  | some queue =>
    obtain ⟨front, back, hsplit, hne⟩ := h.exists_split hq
    obtain ⟨hfront, hback⟩ := List.forall_mem_append.1 hne
    rw [Option.getD_some, waiting, waiting, hsplit, List.filter_append,
      List.filter_cons_of_neg (by simp), hstay front hfront, hstay back hback]
    simp only [List.flatMap_append, List.flatMap_cons]
    rw [List.perm_iff_count]
    intro c
    simp only [List.count_append]
    omega

/-! ### Queue by queue -/

theorem waitingFor_setQueue (p : IdlePool) (id id' : Nat) (queue : List Connection) :
    (p.setQueue id queue).waitingFor id' = if id' = id then queue else p.waitingFor id' := by
  rw [waitingFor, queue?_setQueue]
  split
  · rfl
  · rfl

theorem waitingFor_erase (p : IdlePool) (id id' : Nat) :
    (p.erase id).waitingFor id' = if id' = id then [] else p.waitingFor id' := by
  rw [waitingFor, queue?_erase]
  split
  · rfl
  · rfl

/-! ### Order is kept -/

theorem Tidy.setQueue (h : p.Tidy) (hqueue : ∀ c ∈ queue, c.nodeId = id) :
    (p.setQueue id queue).Tidy where
  ids_nodup := by
    unfold IdlePool.setQueue
    split
    · have hids : (p.queues.map fun q => if q.1 = id then (id, queue) else q).map Prod.fst =
          p.queues.map Prod.fst := by
        rw [List.map_map]
        refine List.map_congr_left fun q _ => ?_
        by_cases hq : q.1 = id
        · simp [hq]
        · simp [hq]
      exact hids ▸ h.ids_nodup
    · rename_i hnone
      rw [List.map_append, List.nodup_append]
      refine ⟨h.ids_nodup, List.nodup_singleton _, ?_⟩
      rintro i hi j hj rfl
      obtain ⟨⟨_, old⟩, hmem, rfl⟩ := List.mem_map.1 hi
      have hlookup := List.lookup_eq_none_iff.1 (Option.not_isSome_iff_eq_none.1 hnone) _ hmem
      rw [List.mem_singleton.1 hj] at hlookup
      simp at hlookup
  nodeId_eq id' c hc := by
    rcases waits_setQueue hc with ⟨rfl, hmem⟩ | hwaits
    · exact hqueue c hmem
    · exact h.nodeId_eq id' c hwaits

theorem Tidy.erase (h : p.Tidy) (id : Nat) : (p.erase id).Tidy where
  ids_nodup := h.ids_nodup.sublist (List.filter_sublist.map _)
  nodeId_eq id' c hc := h.nodeId_eq id' c (waits_erase hc).1

theorem Tidy.nodeId_eq_of_mem (h : p.Tidy) (hc : c ∈ p.waitingFor id) : c.nodeId = id :=
  h.nodeId_eq id c (waits_of_mem_getD hc)

/-! ### Taking a connection -/

/-- The first open connection is what `firstOpen` takes, and what stands behind it is what it
leaves. -/
theorem firstOpen_eq (isOpen : LinkId → Bool) (queue : List Connection) :
    firstOpen isOpen queue =
      (queue.find? fun c => isOpen c.link, (queue.dropWhile fun c => !isOpen c.link).tail) := by
  induction queue with
  | nil => rfl
  | cons c queue ih =>
    unfold firstOpen
    by_cases hc : isOpen c.link = true
    · simp [hc]
    · simp [hc, ih]

theorem take_eq (p : IdlePool) (isOpen : LinkId → Bool) (n : Node) :
    p.take isOpen n = ((p.waitingFor n.id).find? fun c => isOpen c.link,
      p.setQueue n.id ((p.waitingFor n.id).dropWhile fun c => !isOpen c.link).tail) := by
  show ((firstOpen isOpen (p.waitingFor n.id)).1,
    p.setQueue n.id (firstOpen isOpen (p.waitingFor n.id)).2) = _
  rw [firstOpen_eq]

/-- A queue is what stands in front of its first open connection, this connection, and what stands
behind it. -/
theorem takeWhile_append_find?_append_tail (isOpen : LinkId → Bool) (queue : List Connection) :
    (queue.takeWhile fun c => !isOpen c.link) ++ ((queue.find? fun c => isOpen c.link).toList ++
      (queue.dropWhile fun c => !isOpen c.link).tail) = queue := by
  have hhead : ∀ cs : List Connection, cs.head?.toList ++ cs.tail = cs :=
    by rintro (_ | ⟨c, cs⟩) <;> rfl
  rw [List.find?_eq_head?_dropWhile_not, hhead, List.takeWhile_append_dropWhile]

/-- A `take` removes a connection and those in front of it from the ones `waiting`. -/
theorem Tidy.perm_take (h : p.Tidy) (isOpen : LinkId → Bool) (n : Node) :
    ((p.take isOpen n).2.waiting ++
      (((p.waitingFor n.id).takeWhile fun c => !isOpen c.link) ++ (p.take isOpen n).1.toList)).Perm
        p.waiting := by
  rw [take_eq]
  have hset := h.perm_setQueue n.id ((p.waitingFor n.id).dropWhile fun c => !isOpen c.link).tail
  rw [List.perm_iff_count] at hset ⊢
  intro c
  have hset := hset c
  have hqueue :=
    congrArg (List.count c) (takeWhile_append_find?_append_tail isOpen (p.waitingFor n.id))
  simp only [List.count_append] at hset hqueue ⊢
  omega

theorem Tidy.take (h : p.Tidy) (isOpen : LinkId → Bool) (n : Node) : (p.take isOpen n).2.Tidy := by
  rw [take_eq]
  refine h.setQueue fun c hc => h.nodeId_eq_of_mem ?_
  exact (List.dropWhile_suffix _).subset (List.mem_of_mem_tail hc)

/-! ### Taking a connection back -/

instance : Decidable (p.Accepts isOpen n c) := inferInstanceAs (Decidable (_ ∧ _ ∧ _))

/-- A connection that is accepted waits behind all others after `recycle`; otherwise nothing
changes. -/
theorem recycle_eq (p : IdlePool) (isOpen : LinkId → Bool) (n : Node) (c : Connection) :
    p.recycle isOpen n c =
      if p.Accepts isOpen n c then p.setQueue c.nodeId (p.waitingFor c.nodeId ++ [c]) else p := by
  unfold recycle
  split
  · rename_i queue hq
    by_cases hfits : (c.fits n && isOpen c.link) = true
    · rw [if_pos hfits, if_pos ⟨(Bool.and_eq_true_iff.1 hfits).1, (Bool.and_eq_true_iff.1 hfits).2,
        by rw [hq]; rfl⟩,
        waitingFor, hq, Option.getD_some]
    · rw [if_neg hfits, if_neg fun haccepts =>
        hfits (Bool.and_eq_true_iff.2 ⟨haccepts.1, haccepts.2.1⟩)]
  · rename_i hq
    rw [if_neg]
    intro haccepts
    have hsome := haccepts.2.2
    rw [hq] at hsome
    exact Bool.false_ne_true hsome

/-- Only the queue of `c.nodeId` can change by `recycle`, and only at its end. -/
theorem waitingFor_recycle (p : IdlePool) (isOpen : LinkId → Bool) (n : Node)
    (c : Connection) (id : Nat) :
    (p.recycle isOpen n c).waitingFor id =
      if id = c.nodeId ∧ p.Accepts isOpen n c then p.waitingFor id ++ [c] else p.waitingFor id := by
  rw [recycle_eq]
  by_cases haccepts : p.Accepts isOpen n c
  · rw [if_pos haccepts, waitingFor_setQueue]
    by_cases hid : id = c.nodeId
    · rw [if_pos hid, if_pos ⟨hid, haccepts⟩, hid]
    · rw [if_neg hid, if_neg fun h => hid h.1]
  · rw [if_neg haccepts, if_neg fun h => haccepts h.2]

theorem Tidy.perm_recycle (h : p.Tidy) (isOpen : LinkId → Bool) (n : Node) (c : Connection) :
    (p.recycle isOpen n c).waiting.Perm
      (p.waiting ++ if p.Accepts isOpen n c then [c] else []) := by
  rw [recycle_eq]
  split
  · have hset := h.perm_setQueue c.nodeId (p.waitingFor c.nodeId ++ [c])
    rw [List.perm_iff_count] at hset ⊢
    intro c'
    have := hset c'
    simp only [List.count_append] at this ⊢
    omega
  · rw [List.append_nil]

theorem Tidy.recycle (h : p.Tidy) (isOpen : LinkId → Bool) (n : Node) (c : Connection) :
    (p.recycle isOpen n c).Tidy := by
  rw [recycle_eq]
  split
  · refine h.setQueue fun c' hc' => ?_
    rcases List.mem_append.1 hc' with hmem | hmem
    · exact h.nodeId_eq_of_mem hmem
    · rw [List.mem_singleton.1 hmem]
  · exact h

end ReverseProxy.Fleet.IdlePool
