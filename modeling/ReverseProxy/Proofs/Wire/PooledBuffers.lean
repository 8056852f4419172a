import ReverseProxy.Wire.BufferPool

/-!
# What a pool hands out

A buffer from a pool is as good as a new one: it holds nothing, and it has the capacity that the
pool is meant for.  This is so because the buffers that wait in the pool are like that
(`BufferPool.Sound`), which they are to begin with and stay, whatever is handed out and taken back.
-/

namespace ReverseProxy.Wire.BufferPool

/-- The buffers in `free` hold nothing and have the capacity `bufferSize`. -/
def Sound (p : BufferPool) : Prop := ∀ s ∈ p.free, s.buffer.data = [] ∧
    s.buffer.capacity = p.bufferSize

variable {p : BufferPool}

theorem sound_new (bufferSize : Nat) : Sound { bufferSize } := nofun

/-- A `Sound` pool hands out an empty buffer of its size, and stays so. -/
theorem Sound.take (h : p.Sound) :
    p.take.1.buffer.data = [] ∧ p.take.1.buffer.capacity = p.bufferSize ∧ p.take.2.Sound := by
  unfold BufferPool.take
  split
  · rename_i slab free hfree
    obtain ⟨hdata, hcapacity⟩ := h slab (hfree ▸ List.mem_cons_self ..)
    exact ⟨hdata, hcapacity, fun s hs => h s (hfree ▸ List.mem_cons_of_mem _ hs)⟩
  · exact ⟨Buffer.data_ofCapacity _, Buffer.capacity_ofCapacity _, h⟩

/-- Whatever `slab` is taken back, the pool stays `Sound`. -/
theorem Sound.release (h : p.Sound) (slab : Slab) : (p.release slab).Sound := by
  unfold BufferPool.release
  split
  · rename_i hcapacity
    intro s hs
    rcases List.mem_append.1 hs with hs | hs
    · exact h s hs
    · cases List.mem_singleton.1 hs
      exact ⟨Buffer.data_clear _, (Buffer.capacity_clear _).trans hcapacity⟩
  · exact h

end ReverseProxy.Wire.BufferPool
