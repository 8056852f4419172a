import Mathlib.Data.List.Perm.Basic
import ReverseProxy.Proofs.Wire.BufferQueue
import ReverseProxy.Proofs.Wire.PooledBuffers

/-!
# Who has a buffer

A buffer waits in the pool, or it is in somebody's hands.  Whoever takes a raw buffer has to release
it, and may forget to; a lease gives its buffer back when it is dropped.  Others may bring buffers
of their own, and give them away by that.  `Lending` is the pool together with those who hold
buffers, and with a record of what was handed out and what came back.

A buffer that is handed out is empty and has the capacity of the pool, although its holder may have
done anything with it before.  No buffer has two places: a buffer that is let go of loses its place
before it gets another one (`Sound.letGo`), and one that was never seen before has none.  That no
action changes this is `Sound.perform`.

The main statement is `Lending.run_disciplined`.
-/

namespace ReverseProxy.Wire

/-! ### Loans -/

/-- A buffer in somebody's hands. -/
structure Loan where
  slab : Slab
  /-- A leased buffer goes back to the pool when it is dropped; a raw one is lost. -/
  leased : Bool
deriving DecidableEq, Repr

/-- The holder performs `a` on the buffer. -/
def Loan.use (l : Loan) (a : Buffer.Action) : Loan :=
  { l with slab := { l.slab with buffer := l.slab.buffer.perform a } }

/-- A pool, and those who hold buffers. -/
structure Lending where
  pool : BufferPool
  held : List Loan := []
  /-- The raw buffers that were dropped. -/
  lost : List SlabId := []
  /-- How many buffers others have brought. -/
  brought : Nat := 0
  /-- The buffers that were handed out, as they were then, the first one first. -/
  handouts : List Slab := []
  /-- Those of the `handouts` that came from the pool's free buffers. -/
  reused : List SlabId := []
  /-- The buffers with the capacity of the pool that came to it. -/
  returned : List SlabId := []
deriving DecidableEq, Repr

namespace Lending

/-- A buffer is handed out: `take` hands out a raw one, and `lease` a leased one. -/
def handOut (s : Lending) (leased : Bool) : Lending :=
  let (slab, pool) := s.pool.take
  { s with
    pool
    held := s.held ++ [{ slab, leased }]
    handouts := s.handouts ++ [slab]
    reused := if pool.allocated = s.pool.allocated then s.reused ++ [slab.id] else s.reused }

/-- The buffer `slab` comes to the pool, which keeps it if its capacity is `bufferSize`. -/
def giveBack (s : Lending) (slab : Slab) : Lending :=
  { s with
    pool := s.pool.release slab
    returned := if slab.buffer.capacity = s.pool.bufferSize then s.returned ++ [slab.id]
      else s.returned }

/-- The holder at place `i` lets go of its buffer. -/
def letGo (s : Lending) (i : Nat) : Lending := { s with held := s.held.eraseIdx i }

/-- The buffer `slab` is dropped, and nobody gets it any more. -/
def lose (s : Lending) (slab : Slab) : Lending := { s with lost := s.lost ++ [slab.id] }

/-- What is done with the pool and with held buffers.  A lease is released by dropping it; `release`
leaves it alone. -/
inductive Action where
  | take
  | lease
  | use (i : Nat) (a : Buffer.Action)
  | drop (i : Nat)
  | release (i : Nat)
  /-- A buffer is released that was not taken from the pool. -/
  | bring (b : Buffer)
deriving DecidableEq, Repr

/-- The state after an action. -/
def perform (s : Lending) : Action → Lending
  | .take => s.handOut false
  | .lease => s.handOut true
  | .use i a => { s with held := s.held.modify i (·.use a) }
  | .drop i =>
      match s.held[i]? with
      | none => s
      | some l =>
          if l.leased then (s.letGo i).giveBack l.slab else (s.letGo i).lose l.slab
  | .release i =>
      match s.held[i]? with
      | none => s
      | some l => if l.leased then s else (s.letGo i).giveBack l.slab
  | .bring b =>
      { s with brought := s.brought + 1 }.giveBack { id := .foreign (s.brought + 1), buffer := b }

/-- The state after `actions`, one after another. -/
def run (s : Lending) (actions : List Action) : Lending := actions.foldl perform s

/-- A new pool of buffers of `bufferSize` octets. -/
def start (bufferSize : Nat) : Lending := { pool := { bufferSize } }

/-- The identities of the buffers in `pool.free`, the one that has waited longest first. -/
def idleIds (s : Lending) : List SlabId := s.pool.free.map Slab.id

/-- The identities of the `held` buffers. -/
def heldIds (s : Lending) : List SlabId := s.held.map (·.slab.id)

/-- The places of buffers: in the pool, in somebody's hands, or lost. -/
def places (s : Lending) : List SlabId := s.idleIds ++ s.heldIds ++ s.lost

/-- The identity has been given to a buffer, by the pool or by those who brought it. -/
def Knows (s : Lending) : SlabId → Prop
  | .pooled n => n ≤ s.pool.allocated
  | .foreign n => n ≤ s.brought

/-- The action brings a buffer that a pool of buffers of `bufferSize` octets keeps. -/
def Action.Adopts (bufferSize : Nat) : Action → Prop
  | .bring b => b.capacity = bufferSize
  | .take | .lease | .use .. | .drop _ | .release _ => False

instance (bufferSize : Nat) : DecidablePred (Action.Adopts bufferSize)
  | .bring b => inferInstanceAs (Decidable (b.capacity = bufferSize))
  | .take | .lease | .use .. | .drop _ | .release _ => inferInstanceAs (Decidable False)

variable {s : Lending} {slab : Slab} {free : List Slab} {l : Loan} {i : Nat}

/-! ### One step at a time -/

/-- If `slab` has waited longest, `handOut` hands it out and allocates nothing. -/
theorem handOut_of_cons (h : s.pool.free = slab :: free) (leased : Bool) :
    s.handOut leased = { s with
      pool := { s.pool with free }
      held := s.held ++ [{ slab, leased }]
      handouts := s.handouts ++ [slab]
      reused := s.reused ++ [slab.id] } := by
  simp only [handOut, BufferPool.take, h, if_true]

/-- The buffer that `handOut` allocates if none waits. -/
def fresh (s : Lending) : Slab :=
  { id := .pooled (s.pool.allocated + 1), buffer := .ofCapacity s.pool.bufferSize }

theorem handOut_of_nil (h : s.pool.free = []) (leased : Bool) :
    s.handOut leased = { s with
      pool := { s.pool with allocated := s.pool.allocated + 1 }
      held := s.held ++ [{ slab := s.fresh, leased }]
      handouts := s.handouts ++ [s.fresh] } := by
  simp [handOut, BufferPool.take, fresh, h]

theorem giveBack_of_eq (h : slab.buffer.capacity = s.pool.bufferSize) :
    s.giveBack slab = { s with
      pool := { s.pool with free := s.pool.free ++ [{ slab with buffer := slab.buffer.clear }] }
      returned := s.returned ++ [slab.id] } := by
  simp only [giveBack, BufferPool.release, h, if_true]

theorem giveBack_of_ne (h : slab.buffer.capacity ≠ s.pool.bufferSize) : s.giveBack slab = s := by
  simp only [giveBack, BufferPool.release, if_neg h]

/-- Handing out a buffer that waited only moves it among the `places`. -/
theorem perm_places_handOut_of_cons (h : s.pool.free = slab :: free) (leased : Bool) :
    (s.handOut leased).places.Perm s.places := by
  rw [handOut_of_cons h, List.perm_iff_count]
  intro id
  simp only [places, idleIds, heldIds, h, List.map_append, List.map_cons,
    List.map_nil, List.count_append, List.count_cons, List.count_nil]
  omega

theorem perm_places_handOut_of_nil (h : s.pool.free = []) (leased : Bool) :
    (s.handOut leased).places.Perm (s.fresh.id :: s.places) := by
  rw [handOut_of_nil h, List.perm_iff_count]
  intro id
  simp only [places, idleIds, heldIds, List.map_append, List.map_cons,
    List.map_nil, List.count_append, List.count_cons, List.count_nil]
  omega

theorem perm_places_giveBack (h : slab.buffer.capacity = s.pool.bufferSize) :
    (s.giveBack slab).places.Perm (slab.id :: s.places) := by
  rw [giveBack_of_eq h, List.perm_iff_count]
  intro id
  simp only [places, idleIds, heldIds, List.map_append, List.map_cons,
    List.map_nil, List.count_append, List.count_cons, List.count_nil]
  omega

theorem perm_places_lose (s : Lending) (slab : Slab) :
    (s.lose slab).places.Perm (slab.id :: s.places) := by
  show (s.idleIds ++ s.heldIds ++ (s.lost ++ [slab.id])).Perm _
  rw [← List.append_assoc]
  exact List.perm_append_singleton slab.id s.places

/-- The buffer that `letGo` frees has no place until it gets another one. -/
theorem perm_places_letGo (h : s.held[i]? = some l) :
    s.places.Perm (l.slab.id :: (s.letGo i).places) := by
  obtain ⟨hi, rfl⟩ := List.getElem?_eq_some_iff.1 h
  have hheld := (List.getElem_cons_eraseIdx_perm hi).map (·.slab.id)
  rw [List.perm_iff_count] at hheld ⊢
  intro id
  have hheld := hheld id
  simp only [places, idleIds, heldIds, letGo, List.map_cons, List.count_append, List.count_cons]
    at hheld ⊢
  omega

/-! ### What stays true -/

/-- The invariant of a pool and those who hold its buffers: buffers are handed out empty and with
the capacity of the pool, none has two `places`, and they wait in the order in which they came. -/
structure Sound (s : Lending) : Prop where
  pool : s.pool.Sound
  capacity_eq : ∀ l ∈ s.held, l.slab.buffer.capacity = s.pool.bufferSize
  handouts_clean : ∀ slab ∈ s.handouts, slab.buffer.data = [] ∧
    slab.buffer.capacity = s.pool.bufferSize
  nodup : s.places.Nodup
  places_known : ∀ id ∈ s.places, s.Knows id
  handouts_known : ∀ slab ∈ s.handouts, s.Knows slab.id
  queue : s.returned = s.reused ++ s.idleIds

theorem sound_start (bufferSize : Nat) : (start bufferSize).Sound where
  pool := BufferPool.sound_new bufferSize
  capacity_eq := List.forall_mem_nil _
  handouts_clean := List.forall_mem_nil _
  nodup := .nil
  places_known := List.forall_mem_nil _
  handouts_known := List.forall_mem_nil _
  queue := rfl

/-- The identity of the `fresh` buffer is new. -/
theorem not_knows_fresh (s : Lending) : ¬s.Knows s.fresh.id := Nat.not_succ_le_self _

theorem knows_of_allocated {id : SlabId} (h : s.Knows id) (held : List Loan)
    (handouts : List Slab) :
    Knows
      { s with pool := { s.pool with allocated := s.pool.allocated + 1 }, held, handouts } id := by
  cases id with
  | pooled n => exact Nat.le_succ_of_le h
  | foreign n => exact h

theorem Sound.handOut (h : s.Sound) (leased : Bool) : (s.handOut leased).Sound := by
  obtain ⟨hdata, hcapacity, hpool⟩ := h.pool.take
  change (s.handOut leased).pool.Sound at hpool
  cases hfree : s.pool.free with
  | cons slab free =>
    have hperm := perm_places_handOut_of_cons hfree leased
    have hwaits : slab.id ∈ s.places := by simp [places, idleIds, hfree]
    simp only [BufferPool.take, hfree] at hdata hcapacity
    rw [handOut_of_cons hfree] at hpool hperm ⊢
    exact {
      pool := hpool
      capacity_eq := List.forall_mem_append.2 ⟨h.capacity_eq, List.forall_mem_singleton.2 hcapacity⟩
      handouts_clean :=
      List.forall_mem_append.2 ⟨h.handouts_clean, List.forall_mem_singleton.2 ⟨hdata, hcapacity⟩⟩
      nodup := hperm.nodup_iff.2 h.nodup
      places_known := fun id hid => h.places_known id (hperm.subset hid)
      handouts_known :=
        List.forall_mem_append.2
          ⟨h.handouts_known, List.forall_mem_singleton.2 (h.places_known _ hwaits)⟩
      queue := by simp [h.queue, idleIds, hfree] }
  | nil =>
    have hperm := perm_places_handOut_of_nil hfree leased
    simp only [BufferPool.take, hfree] at hdata hcapacity
    rw [handOut_of_nil hfree] at hpool hperm ⊢
    exact {
      pool := hpool
      capacity_eq := List.forall_mem_append.2 ⟨h.capacity_eq, List.forall_mem_singleton.2 hcapacity⟩
      handouts_clean :=
      List.forall_mem_append.2 ⟨h.handouts_clean, List.forall_mem_singleton.2 ⟨hdata, hcapacity⟩⟩
      nodup := hperm.nodup_iff.2
        (List.nodup_cons.2 ⟨fun hid => s.not_knows_fresh (h.places_known _ hid), h.nodup⟩)
      places_known := by
        intro id hid
        rcases List.mem_cons.1 (hperm.subset hid) with rfl | hid
        · exact Nat.le_refl _
        · exact knows_of_allocated (h.places_known id hid) _ _
      handouts_known := List.forall_mem_append.2
        ⟨fun slab hslab => knows_of_allocated (h.handouts_known slab hslab) _ _,
          List.forall_mem_singleton.2 (Nat.le_refl _)⟩
      queue := h.queue }

/-- A known buffer without a place may come to the pool. -/
theorem Sound.giveBack (h : s.Sound) (hknown : s.Knows slab.id) (hplace : slab.id ∉ s.places) :
    (s.giveBack slab).Sound := by
  by_cases hcapacity : slab.buffer.capacity = s.pool.bufferSize
  · have hperm := perm_places_giveBack hcapacity
    have hpool : (s.giveBack slab).pool.Sound := h.pool.release slab
    rw [giveBack_of_eq hcapacity] at hpool hperm ⊢
    exact {
      pool := hpool
      capacity_eq := h.capacity_eq
      handouts_clean := h.handouts_clean
      nodup := hperm.nodup_iff.2 (List.nodup_cons.2 ⟨hplace, h.nodup⟩)
      places_known := fun id hid => by
        rcases List.mem_cons.1 (hperm.subset hid) with rfl | hid
        · exact hknown
        · exact h.places_known id hid
      handouts_known := h.handouts_known
      queue := by simp [h.queue, idleIds] }
  · rw [giveBack_of_ne hcapacity]
    exact h

/-- After `letGo`, the buffer of `l` has no place left. -/
theorem Sound.letGo (h : s.Sound) (hi : s.held[i]? = some l) :
    (s.letGo i).Sound ∧ s.Knows l.slab.id ∧ l.slab.id ∉ (s.letGo i).places ∧
      l.slab.buffer.capacity = s.pool.bufferSize := by
  have hperm := perm_places_letGo hi
  obtain ⟨hplace, hnodup⟩ := List.nodup_cons.1 (hperm.nodup_iff.1 h.nodup)
  have hsub {l : Loan} (hl : l ∈ (s.letGo i).held) : l ∈ s.held := (List.eraseIdx_sublist ..).mem hl
  refine ⟨?_, h.places_known _ (hperm.symm.subset (List.mem_cons_self ..)), hplace,
    h.capacity_eq l (List.mem_of_getElem? hi)⟩
  exact {
    pool := h.pool
    capacity_eq := fun l hl => h.capacity_eq l (hsub hl)
    handouts_clean := h.handouts_clean
    nodup := hnodup
    places_known := fun id hid => h.places_known id (hperm.symm.subset (List.mem_cons_of_mem _ hid))
    handouts_known := h.handouts_known
    queue := h.queue }

/-- A known buffer without a place may be lost. -/
theorem Sound.lose (h : s.Sound) (hknown : s.Knows slab.id) (hplace : slab.id ∉ s.places) :
    (s.lose slab).Sound :=
  have hperm := perm_places_lose s slab
  { pool := h.pool
    capacity_eq := h.capacity_eq
    handouts_clean := h.handouts_clean
    nodup := hperm.nodup_iff.2 (List.nodup_cons.2 ⟨hplace, h.nodup⟩)
    places_known := fun id hid => by
      rcases List.mem_cons.1 (hperm.subset hid) with rfl | hid
      · exact hknown
      · exact h.places_known id hid
    handouts_known := h.handouts_known
    queue := h.queue }

/-- What is done with a held buffer changes neither its identity nor its capacity. -/
theorem Sound.use (h : s.Sound) (i : Nat) (a : Buffer.Action) : (s.perform (.use i a)).Sound := by
  have hheld (j : Nat) :
      (s.held.modify i (·.use a))[j]? = s.held[j]?.map fun l => if i = j then l.use a else l := by
    rw [List.getElem?_modify]
    split <;> cases s.held[j]? <;> rfl
  have hplaces : (s.perform (.use i a)).places = s.places := by
    have hids : (s.perform (.use i a)).heldIds = s.heldIds := by
      apply List.ext_getElem?
      intro j
      simp only [perform, heldIds, List.getElem?_map, hheld, Option.map_map]
      congr 1
      funext l
      simp only [Function.comp_apply]
      split <;> rfl
    rw [places, hids]
    rfl
  exact {
    pool := h.pool
    capacity_eq := by
      intro l' hl'
      obtain ⟨j, hj⟩ := List.mem_iff_getElem?.1 hl'
      obtain ⟨l, hl, rfl⟩ := Option.map_eq_some_iff.1 ((hheld j).symm.trans hj)
      have hcapacity := h.capacity_eq l (List.mem_of_getElem? hl)
      split
      · exact (Buffer.capacity_perform l.slab.buffer a).trans hcapacity
      · exact hcapacity
    handouts_clean := h.handouts_clean
    nodup := hplaces ▸ h.nodup
    places_known := fun id hid => h.places_known id (hplaces ▸ hid)
    handouts_known := h.handouts_known
    queue := h.queue }

/-- Others number the buffers that they bring. -/
theorem Sound.bringing (h : s.Sound) (b : Buffer) : (s.perform (.bring b)).Sound := by
  have hknown {id : SlabId} (hid : s.Knows id) : Knows { s with brought := s.brought + 1 } id := by
    cases id with
    | pooled n => exact hid
    | foreign n => exact Nat.le_succ_of_le hid
  have hbrought : Sound { s with brought := s.brought + 1 } := { h with
    places_known := fun id hid => hknown (h.places_known id hid)
    handouts_known := fun slab hslab => hknown (h.handouts_known slab hslab) }
  have hplace : SlabId.foreign (s.brought + 1) ∉ s.places := fun hid =>
    Nat.not_succ_le_self _ (h.places_known _ hid)
  exact hbrought.giveBack (Nat.le_refl _) hplace

theorem Sound.perform (h : s.Sound) (a : Action) : (s.perform a).Sound := by
  cases a with
  | take => exact h.handOut false
  | lease => exact h.handOut true
  | use i a => exact h.use i a
  | drop i =>
    rw [Lending.perform]
    cases hi : s.held[i]? with
    | none => exact h
    | some l =>
      obtain ⟨hgone, hknown, hplace, -⟩ := h.letGo hi
      dsimp only
      split
      · exact hgone.giveBack hknown hplace
      · exact hgone.lose hknown hplace
  | release i =>
    rw [Lending.perform]
    cases hi : s.held[i]? with
    | none => exact h
    | some l =>
      obtain ⟨hgone, hknown, hplace, -⟩ := h.letGo hi
      dsimp only
      split
      · exact h
      · exact hgone.giveBack hknown hplace
  | bring b => exact h.bringing b

theorem Sound.run (h : s.Sound) (actions : List Action) : (s.run actions).Sound := by
  induction actions generalizing s with
  | nil => exact h
  | cons a actions ih => exact ih (h.perform a)

/-! ### How many there are -/

theorem length_places (s : Lending) :
    s.places.length = s.pool.idle + s.held.length + s.lost.length := by
  simp only [places, idleIds, heldIds, List.length_append, List.length_map, BufferPool.idle]

theorem length_places_handOut (s : Lending) (leased : Bool) :
    (s.handOut leased).places.length + s.pool.allocated =
      s.places.length + (s.handOut leased).pool.allocated := by
  cases hfree : s.pool.free with
  | cons slab free =>
    rw [(perm_places_handOut_of_cons hfree leased).length_eq, handOut_of_cons hfree]
  | nil =>
    rw [(perm_places_handOut_of_nil hfree leased).length_eq, handOut_of_nil hfree, List.length_cons]
    exact Nat.succ_add_eq_add_succ ..

/-- A buffer that passes from its holder to the pool keeps a place. -/
theorem Sound.length_places_giveBack (h : s.Sound) (hi : s.held[i]? = some l) :
    ((s.letGo i).giveBack l.slab).places.length = s.places.length := by
  obtain ⟨-, -, -, hcapacity⟩ := h.letGo hi
  have hback : ((s.letGo i).giveBack l.slab).places.Perm (l.slab.id :: (s.letGo i).places) :=
    perm_places_giveBack hcapacity
  exact (hback.trans (perm_places_letGo hi).symm).length_eq

theorem allocated_giveBack (s : Lending) (slab : Slab) :
    (s.giveBack slab).pool.allocated = s.pool.allocated := by
  by_cases hcapacity : slab.buffer.capacity = s.pool.bufferSize
  · rw [giveBack_of_eq hcapacity]
  · rw [giveBack_of_ne hcapacity]

/-- A buffer gets a place when it is allocated, or brought and adopted, and keeps one from then
on. -/
theorem Sound.length_places_perform (h : s.Sound) (a : Action) :
    (s.perform a).places.length + s.pool.allocated =
      s.places.length + (s.perform a).pool.allocated +
        if a.Adopts s.pool.bufferSize then 1 else 0 := by
  cases a with
  | take => exact length_places_handOut s false
  | lease => exact length_places_handOut s true
  | use i a =>
    have hheld : (s.perform (.use i a)).held.length = s.held.length := List.length_modify ..
    rw [length_places, length_places, hheld]
    rfl
  | drop i =>
    have hnone : ¬Action.Adopts s.pool.bufferSize (.drop i) := id
    rw [if_neg hnone, Lending.perform]
    cases hi : s.held[i]? with
    | none => rfl
    | some l =>
      dsimp only
      split
      · rw [h.length_places_giveBack hi, allocated_giveBack]
        rfl
      · rw [((perm_places_lose _ l.slab).trans (perm_places_letGo hi).symm).length_eq]
        rfl
  | release i =>
    have hnone : ¬Action.Adopts s.pool.bufferSize (.release i) := id
    rw [if_neg hnone, Lending.perform]
    cases hi : s.held[i]? with
    | none => rfl
    | some l =>
      dsimp only
      split
      · rfl
      · rw [h.length_places_giveBack hi, allocated_giveBack]
        rfl
  | bring b =>
    rw [Lending.perform, allocated_giveBack]
    by_cases hcapacity : b.capacity = s.pool.bufferSize
    · have hadopts : Action.Adopts s.pool.bufferSize (.bring b) := hcapacity
      rw [if_pos hadopts, (perm_places_giveBack (by exact hcapacity)).length_eq, List.length_cons]
      exact Nat.succ_add_eq_add_succ ..
    · have hnone : ¬Action.Adopts s.pool.bufferSize (.bring b) := hcapacity
      rw [if_neg hnone, giveBack_of_ne (by exact hcapacity)]
      rfl

@[simp] theorem bufferSize_perform (s : Lending) (a : Action) :
    (s.perform a).pool.bufferSize = s.pool.bufferSize := by
  have hgive (s : Lending) (slab : Slab) : (s.giveBack slab).pool.bufferSize = s.pool.bufferSize :=
    BufferPool.bufferSize_release ..
  cases a with
  | take | lease => exact BufferPool.bufferSize_take _
  | use i a => rfl
  | drop i =>
    rw [perform]
    split
    · rfl
    · split
      · exact hgive ..
      · rfl
  | release i =>
    rw [perform]
    split
    · rfl
    · split
      · rfl
      · exact hgive ..
  | bring b => exact hgive ..

theorem bufferSize_run (s : Lending) (actions : List Action) :
    (s.run actions).pool.bufferSize = s.pool.bufferSize := by
  induction actions generalizing s with
  | nil => rfl
  | cons a actions ih => exact (ih (s.perform a)).trans (bufferSize_perform s a)

theorem Sound.length_places_run (h : s.Sound) (actions : List Action) :
    (s.run actions).places.length + s.pool.allocated =
      s.places.length +
        (s.run actions).pool.allocated + actions.countP (Action.Adopts s.pool.bufferSize) := by
  induction actions generalizing s with
  | nil => rfl
  | cons a actions ih =>
    have hstep := h.length_places_perform a
    have hrest := ih (h.perform a)
    rw [bufferSize_perform] at hrest
    rw [List.countP_cons]
    simp only [decide_eq_true_eq]
    show ((s.perform a).run actions).places.length + _ =
      _ + ((s.perform a).run actions).pool.allocated + _
    omega

/-- The discipline of a pool, in the state `s` that any `actions` lead to.  Every buffer in
`s.handouts` was empty and had `bufferSize` octets of capacity.  The pool is first in, first out:
`s.returned` is `s.reused` followed by `s.idleIds`.  `handOut` hands out the buffer that has waited
longest and allocates nothing, or, if none waits, allocates one that was never handed out and has no
place.  No buffer has two of the `s.places`, and there are as many places as buffers that were
allocated, or brought with the capacity of the pool. -/
theorem run_disciplined (bufferSize : Nat) (actions : List Action) :
    let s := (start bufferSize).run actions
    (∀ slab ∈ s.handouts, slab.buffer.data = [] ∧ slab.buffer.capacity = bufferSize) ∧
    s.returned = s.reused ++ s.idleIds ∧
    (∀ leased, ∃ slab,
      let s' := s.handOut leased
      s'.handouts = s.handouts ++ [slab] ∧ s'.held = s.held ++ [{ slab, leased }] ∧
      match s.idleIds with
      | id :: ids => slab.id = id ∧ s'.idleIds = ids ∧ s'.pool.allocated = s.pool.allocated
      | [] =>
          slab.id ∉ s.places ++ s.handouts.map Slab.id ∧ s'.pool.allocated = s.pool.allocated + 1) ∧
    s.places.Nodup ∧
    s.pool.idle + s.held.length + s.lost.length =
      s.pool.allocated + actions.countP (Action.Adopts bufferSize) ∧
    ((∀ a ∈ actions, ¬a.Adopts bufferSize) →
      s.pool.allocated = s.pool.idle + s.held.length + s.lost.length) := by
  intro s
  have h : s.Sound := (sound_start bufferSize).run actions
  have hsize : s.pool.bufferSize = bufferSize := bufferSize_run (start bufferSize) actions
  have hlength : s.pool.idle + s.held.length + s.lost.length =
      s.pool.allocated + actions.countP (Action.Adopts bufferSize) := by
    rw [← length_places]
    exact ((sound_start bufferSize).length_places_run actions).trans
      (congrArg (· + _) (Nat.zero_add _))
  refine ⟨hsize ▸ h.handouts_clean, h.queue, ?_, h.nodup, hlength, ?_⟩
  · intro leased
    cases hfree : s.pool.free with
    | cons slab free =>
      refine ⟨slab, ?_⟩
      simp only [handOut_of_cons hfree, idleIds, hfree, List.map_cons, and_self]
    | nil =>
      refine ⟨s.fresh, ?_⟩
      have hfresh : s.fresh.id ∉ s.places ++ s.handouts.map Slab.id := by
        rw [List.mem_append, not_or]
        refine ⟨fun hid => s.not_knows_fresh (h.places_known _ hid), fun hid => ?_⟩
        obtain ⟨slab, hslab, heq⟩ := List.mem_map.1 hid
        exact s.not_knows_fresh (heq ▸ h.handouts_known slab hslab)
      simp only [handOut_of_nil hfree, idleIds, hfree, List.map_nil, and_true, true_and]
      exact hfresh
  · intro hnone
    have hzero : actions.countP (Action.Adopts bufferSize) = 0 := by
      simpa [List.countP_eq_zero] using hnone
    omega

/-- The run in which a raw buffer is dropped, and a lease that has been written to. -/
def oneLost : List Action := [.take, .lease, .use 1 (.write [1, 2]), .drop 1, .drop 0, .take]

/-- The buffer of the lease is handed out again, empty, and the other one is lost. -/
theorem run_disciplined_oneLost :
    let s := (start 8).run oneLost
    (∀ a ∈ oneLost, ¬a.Adopts 8) ∧ s.handouts.map Slab.id = [.pooled 1, .pooled 2, .pooled 2] ∧
      (∀ slab ∈ s.handouts, slab.buffer.data = []) ∧ s.places.Nodup ∧ s.lost = [.pooled 1] ∧
      s.pool.allocated = s.pool.idle + s.held.length + s.lost.length := by
  intro s
  obtain ⟨hclean, -, -, hnodup, -, hcount⟩ := run_disciplined 8 oneLost
  have hnone : ∀ a ∈ oneLost, ¬a.Adopts 8 := by decide
  exact ⟨hnone, by decide, fun slab hslab => (hclean slab hslab).1, hnodup, by decide, hcount hnone⟩

end Lending

end ReverseProxy.Wire
