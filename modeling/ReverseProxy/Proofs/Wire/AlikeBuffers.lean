import ReverseProxy.Wire.BufferPool
import ReverseProxy.Wire.Client

/-!
# What cannot be seen of an allocation

An allocation is never wiped: outside the window it keeps what it was used for before.  Two buffers
are `Alike` if they have the same octets in the window, and the window stands at the same place of
allocations of one size.  What else the allocations hold may differ, and nothing that is done with a
buffer tells: alike buffers have the same room, are full at the same time and remain alike, as long
as whoever receives octets writes those it says it has received.

In a pool that is `Clean`, every buffer is alike to one in a new allocation.  A pool is clean to
begin with and stays so, whatever is handed out and taken back.
-/

namespace ReverseProxy.Wire

namespace Buffer

/-- The buffers `a` and `b` hold the same octets at the same place of allocations of one size. -/
structure Alike (a b : Buffer) : Prop where
  before : a.before.length = b.before.length
  data : a.data = b.data
  capacity : a.capacity = b.capacity

variable {a b c : Buffer}

theorem Alike.refl (b : Buffer) : b.Alike b := ⟨rfl, rfl, rfl⟩

theorem Alike.symm (h : a.Alike b) : b.Alike a := ⟨h.before.symm, h.data.symm, h.capacity.symm⟩

theorem Alike.trans (h : a.Alike b) (h' : b.Alike c) : a.Alike c :=
  ⟨h.before.trans h'.before, h.data.trans h'.data, h.capacity.trans h'.capacity⟩

/-! ### What is read off a buffer -/

theorem isExhausted_eq (b : Buffer) : b.isExhausted = (b.room == 0) := by
  rw [Bool.eq_iff_iff, isExhausted, room, Bool.and_eq_true, List.isEmpty_iff,
    beq_iff_eq, beq_iff_eq, ← List.length_eq_zero_iff]
  omega

/-- The room is what the window and what is in front of it leave of the allocation. -/
theorem room_eq (b : Buffer) : b.room = b.capacity - b.before.length - b.data.length := by
  rw [room, Buffer.capacity]
  omega

theorem Alike.room_eq (h : a.Alike b) : a.room = b.room := by
  rw [Buffer.room_eq, Buffer.room_eq, h.before, h.data, h.capacity]

theorem Alike.isExhausted_eq (h : a.Alike b) : a.isExhausted = b.isExhausted := by
  rw [Buffer.isExhausted_eq, Buffer.isExhausted_eq, h.room_eq]

theorem Alike.isEmpty_before (h : a.Alike b) : a.before.isEmpty = b.before.isEmpty := by
  rw [Bool.eq_iff_iff, List.isEmpty_iff, List.isEmpty_iff, ← List.length_eq_zero_iff,
    ← List.length_eq_zero_iff, h.before]

theorem Alike.isFull_eq (h : a.Alike b) : a.isFull = b.isFull := by
  rw [isFull, isFull, h.isEmpty_before, h.isExhausted_eq]

theorem Alike.isEmpty_eq (h : a.Alike b) : a.isEmpty = b.isEmpty := congrArg List.isEmpty h.data

theorem Alike.size_eq (h : a.Alike b) : a.size = b.size := congrArg List.length h.data

/-! ### What is done with a buffer -/

/-- Emptied buffers of the same capacity are `Alike`, however they were used. -/
theorem alike_clear (h : a.capacity = b.capacity) : a.clear.Alike b.clear :=
  ⟨rfl, rfl, by rw [capacity_clear, capacity_clear, h]⟩

theorem Alike.clear (h : a.Alike b) : a.clear.Alike b.clear := alike_clear h.capacity

/-- A cleared buffer is `Alike` to a new one. -/
theorem clear_alike_ofCapacity (b : Buffer) : b.clear.Alike (ofCapacity b.capacity) :=
  ⟨rfl, rfl, by rw [capacity_clear, capacity_ofCapacity]⟩

theorem before_shift (b : Buffer) : b.shift.before = [] := by
  unfold shift
  split
  · rename_i h
    exact List.isEmpty_iff.1 h
  · rfl

theorem Alike.shift (h : a.Alike b) : a.shift.Alike b.shift where
  before := by rw [before_shift, before_shift]
  data := by rw [data_shift, data_shift, h.data]
  capacity := by rw [capacity_shift, capacity_shift, h.capacity]

theorem Alike.makeRoom (h : a.Alike b) : a.makeRoom.Alike b.makeRoom := by
  unfold Buffer.makeRoom
  rw [h.isExhausted_eq]
  split
  · exact h.shift
  · exact h

theorem Alike.consume (h : a.Alike b) (n : Nat) : (a.consume n).Alike (b.consume n) where
  before := by
    unfold Buffer.consume
    rw [h.data]
    split
    · rfl
    · rw [List.length_append, List.length_append, h.before]
  data := by rw [data_consume, data_consume, h.data]
  capacity := by rw [capacity_consume, capacity_consume, h.capacity]

theorem before_write (b : Buffer) (bs : Bytes) : (b.write bs).before = b.makeRoom.before := rfl

/-- As much of `bs` fits into `a` as into `b`, and what was left behind the window is overwritten as
far as the window grows. -/
theorem Alike.write (h : a.Alike b) (bs : Bytes) : (a.write bs).Alike (b.write bs) where
  before := by rw [before_write, before_write, h.makeRoom.before]
  data := by rw [data_write, data_write, h.data, h.makeRoom.room_eq]
  capacity := by rw [capacity_write, capacity_write, h.capacity]

/-- A reading gets the same octets into `a` and into `b`. -/
theorem Alike.receive (h : a.Alike b) {s s' : Source} {got : Received} {a' : Buffer}
    (hr : a.receive s = (got, s', a')) : ∃ b', b.receive s = (got, s', b') ∧ a'.Alike b' := by
  unfold Buffer.receive at hr ⊢
  simp only [← h.makeRoom.room_eq]
  rcases hs : s.receive a.makeRoom.room with ⟨bs | _ | _, rest⟩ <;>
    simp only [hs] at hr <;> cases hr
  · exact ⟨_, rfl, h.makeRoom.write bs⟩
  · exact ⟨_, rfl, h.makeRoom⟩
  · exact ⟨_, rfl, h.makeRoom⟩

/-- A reading from a client gets the same octets into `a` and into `b`. -/
theorem Alike.receiveClient (h : a.Alike b) {client client' : Client} {got : Received} {a' : Buffer}
    (hr : a.receiveClient client = (got, client', a')) :
    ∃ b', b.receiveClient client = (got, client', b') ∧ a'.Alike b' := by
  unfold Buffer.receiveClient at hr ⊢
  simp only [← h.makeRoom.room_eq]
  rcases hs : client.receive a.makeRoom.room with ⟨bs | _ | _, rest⟩ <;>
    simp only [hs] at hr <;> cases hr
  · exact ⟨_, rfl, h.makeRoom.write bs⟩
  · exact ⟨_, rfl, h.makeRoom⟩
  · exact ⟨_, rfl, h.makeRoom⟩

end Buffer

namespace BufferPool

/-- Every buffer that waits in the pool is `Alike` to a new one, so that nothing can be told of what
it was used for. -/
def Clean (p : BufferPool) : Prop := ∀ s ∈ p.free, s.buffer.Alike (.ofCapacity p.bufferSize)

variable {p p' : BufferPool}

theorem clean_new (bufferSize : Nat) : Clean { bufferSize } := nofun

/-- What a `Clean` pool hands out is `Alike` to a buffer in a new allocation. -/
theorem Clean.take (h : p.Clean) :
    p.take.1.buffer.Alike (.ofCapacity p.bufferSize) ∧ p.take.2.Clean := by
  unfold BufferPool.take
  split
  · rename_i slab free hfree
    exact ⟨h slab (hfree ▸ List.mem_cons_self ..), fun s hs =>
      h s (hfree ▸ List.mem_cons_of_mem _ hs)⟩
  · exact ⟨.refl _, h⟩

/-- Whatever has been done with `slab`, the pool stays `Clean` when it is taken back. -/
theorem Clean.release (h : p.Clean) (slab : Slab) : (p.release slab).Clean := by
  unfold BufferPool.release
  split
  · rename_i hcapacity
    intro s hs
    rcases List.mem_append.1 hs with hs | hs
    · exact h s hs
    · cases List.mem_singleton.1 hs
      exact hcapacity ▸ slab.buffer.clear_alike_ofCapacity
  · exact h

/-- The pools `p` and `p'` have made as many allocations, and the same of these wait in the same
order. -/
structure InStep (p p' : BufferPool) : Prop where
  free : p.free.map (·.id) = p'.free.map (·.id)
  allocated : p.allocated = p'.allocated

/-- Pools `InStep` hand out the same allocation. -/
theorem InStep.take (h : p.InStep p') : p.take.1.id = p'.take.1.id ∧ p.take.2.InStep p'.take.2 := by
  obtain ⟨size, free, allocated⟩ := p
  obtain ⟨size', free', allocated'⟩ := p'
  obtain ⟨hfree, rfl⟩ := h
  cases free with
  | nil =>
    cases List.map_eq_nil_iff.1 hfree.symm
    exact ⟨rfl, rfl, rfl⟩
  | cons slab rest =>
    obtain ⟨slab', rest', rfl, hid, hrest⟩ := List.map_eq_cons_iff.1 hfree.symm
    exact ⟨hid.symm, hrest.symm, rfl⟩

/-- Pools `InStep` that are given back the same allocation both keep it or both do not. -/
theorem InStep.release (h : p.InStep p') (hsize : p.bufferSize = p'.bufferSize)
    {s s' : Slab} (hid : s.id = s'.id)
    (hs : s.buffer.Alike s'.buffer) : (p.release s).InStep (p'.release s') := by
  unfold BufferPool.release
  rw [hs.capacity, hsize]
  split
  · refine ⟨?_, h.allocated⟩
    rw [List.map_append, List.map_append, h.free, List.map_singleton, List.map_singleton, hid]
  · exact h

end BufferPool

end ReverseProxy.Wire
