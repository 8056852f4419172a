import ReverseProxy.Wire.Buffer

/-!
# The buffer pool

Buffers are used again.  The pool keeps the ones that are not in use in the order in which they came
back, hands out the one that has waited longest, and makes a new allocation only when there is none.
An allocation keeps its identity (`SlabId`) for as long as it is used.
-/

namespace ReverseProxy.Wire

/-- The identity of an allocation: the pool numbers its own, whoever brings others numbers those. -/
inductive SlabId where
  | pooled (n : Nat)
  | foreign (n : Nat)
deriving DecidableEq, Repr

/-- A buffer and the identity of its allocation. -/
structure Slab where
  id : SlabId
  buffer : Buffer
deriving DecidableEq, Repr

/-- Buffers of one capacity, `bufferSize`. -/
structure BufferPool where
  /-- The capacity of every buffer of the pool. -/
  bufferSize : Nat
  /-- The buffers that are not in use, the one that has waited longest first. -/
  free : List Slab := []
  /-- How many allocations the pool has made. -/
  allocated : Nat := 0
deriving DecidableEq, Repr

namespace BufferPool

/-- How many buffers are not in use. -/
def idle (p : BufferPool) : Nat := p.free.length

/-- Hands out the buffer that has waited longest, or a new one of capacity `bufferSize`. -/
def take (p : BufferPool) : Slab × BufferPool :=
  match p.free with
  | slab :: free => (slab, { p with free })
  | [] =>
      let n := p.allocated + 1
      ({ id := .pooled n, buffer := Buffer.ofCapacity p.bufferSize }, { p with allocated := n })

/-- Takes a buffer back, emptied. One of another capacity than `bufferSize` is not kept. -/
def release (p : BufferPool) (slab : Slab) : BufferPool :=
  if slab.buffer.capacity = p.bufferSize then
    { p with free := p.free ++ [{ slab with buffer := slab.buffer.clear }] }
  else p

@[simp] theorem bufferSize_take (p : BufferPool) : p.take.2.bufferSize = p.bufferSize := by
  unfold take; split <;> rfl

@[simp] theorem bufferSize_release (p : BufferPool) (s : Slab) :
    (p.release s).bufferSize = p.bufferSize := by
  unfold release; split <;> rfl

end BufferPool

end ReverseProxy.Wire
