import ReverseProxy.Text.Bytes

/-!
# Buffers

A `Buffer` is a queue of octets in an allocation of fixed size: a window of the allocation holds
what has been received and not yet passed on.  Receivers write at the end of the window, into the
free space, and say how much they wrote; whoever passes octets on takes them from the front.  When
the free space is used up and there is room in front of the window, the window is moved to the
front.

What lies outside the window is whatever the allocation was used for before, and zero where it never
was.  All that an operation does to the allocation is said by `Buffer.cells`, and what it does to
the queue by `Buffer.data`.
-/

namespace ReverseProxy.Wire

/-- A queue of octets in an allocation of fixed size. -/
structure Buffer where
  /-- The octets of the allocation in front of the window, the nearest one first. -/
  before : Bytes := []
  /-- The window: the octets that the buffer holds, oldest first. -/
  data : Bytes := []
  /-- The octets behind the window as far as the allocation has been used. -/
  after : Bytes := []
  /-- How many octets there are behind those, which are zero. -/
  untouched : Nat
deriving DecidableEq, Repr

namespace Buffer

/-- A buffer in a new allocation. -/
def ofCapacity (capacity : Nat) : Buffer := { untouched := capacity }

/-- The octets of the allocation. -/
def cells (b : Buffer) : Bytes :=
  b.before.reverse ++ (b.data ++ (b.after ++ List.replicate b.untouched 0))

/-- How many octets the buffer can hold. -/
def capacity (b : Buffer) : Nat := b.before.length + b.data.length + b.after.length + b.untouched

/-- How many octets the buffer holds. -/
def size (b : Buffer) : Nat := b.data.length

/-- The buffer holds nothing. -/
def isEmpty (b : Buffer) : Bool := b.data.isEmpty

/-- Nothing can be written behind the window. -/
def isExhausted (b : Buffer) : Bool := b.after.isEmpty && b.untouched == 0

/-- The buffer can hold no more. -/
def isFull (b : Buffer) : Bool := b.before.isEmpty && b.isExhausted

/-- Moves the window to the front of the allocation. -/
def shift (b : Buffer) : Buffer :=
  if b.before.isEmpty then b
  else
    { b with
      before := [],
      after := (b.before.reverse ++ (b.data ++ b.after)).drop b.data.length }

/-- Makes free space if there is none left: the buffer whose `room` may be written to. -/
def makeRoom (b : Buffer) : Buffer := if b.isExhausted then b.shift else b

/-- How many octets fit behind the window. -/
def room (b : Buffer) : Nat := b.after.length + b.untouched

/-- Writes octets behind the window, as many as fit, without taking them into it. -/
def place (b : Buffer) (bs : Bytes) : Buffer :=
  let bs := bs.take b.room
  { b with
    after := bs ++ b.after.drop bs.length,
    untouched := b.untouched - (bs.length - b.after.length) }

/-- Takes the next `n` octets of the allocation into the window. -/
def fill (b : Buffer) (n : Nat) : Buffer :=
  let zeros := min (n - b.after.length) b.untouched
  { b with
    data := b.data ++ (b.after.take n ++ List.replicate zeros 0)
    after := b.after.drop n
    untouched := b.untouched - zeros }

/-- Puts octets into the buffer, as many as fit. -/
def write (b : Buffer) (bs : Bytes) : Buffer :=
  (b.makeRoom.place bs).fill (min bs.length b.makeRoom.room)

/-- Drops all octets. -/
def clear (b : Buffer) : Buffer :=
  { b with before := [], data := [], after := b.before.reverse ++ (b.data ++ b.after) }

/-- Drops `n` octets from the front, or all of them if there are not so many. -/
def consume (b : Buffer) (n : Nat) : Buffer :=
  match b.data.drop n with
  | [] => b.clear
  | data => { b with before := (b.data.take n).reverse ++ b.before, data }

/-! ### What the operations do -/

@[simp] theorem length_cells (b : Buffer) : b.cells.length = b.capacity := by
  simp only [cells, capacity, List.length_append, List.length_reverse, List.length_replicate]
  omega

@[simp] theorem data_ofCapacity (n : Nat) : (ofCapacity n).data = [] := rfl
@[simp] theorem cells_ofCapacity (n : Nat) : (ofCapacity n).cells = List.replicate n 0 := by
  simp [ofCapacity, cells]
@[simp] theorem capacity_ofCapacity (n : Nat) : (ofCapacity n).capacity = n := by
  simp [ofCapacity, capacity]

@[simp] theorem data_clear (b : Buffer) : b.clear.data = [] := rfl
@[simp] theorem cells_clear (b : Buffer) : b.clear.cells = b.cells := by simp [clear, cells]
@[simp] theorem capacity_clear (b : Buffer) : b.clear.capacity = b.capacity := by
  rw [← length_cells, cells_clear, length_cells]

@[simp] theorem data_consume (b : Buffer) (n : Nat) : (b.consume n).data = b.data.drop n := by
  unfold consume
  split <;> rename_i h
  · rw [h, data_clear]
  · rfl

@[simp] theorem cells_consume (b : Buffer) (n : Nat) : (b.consume n).cells = b.cells := by
  unfold consume
  split
  · exact cells_clear b
  · simp only [cells, List.reverse_append, List.reverse_reverse, List.append_assoc]
    rw [← List.append_assoc (b.data.take n), List.take_append_drop]

@[simp] theorem capacity_consume (b : Buffer) (n : Nat) : (b.consume n).capacity = b.capacity := by
  rw [← length_cells, cells_consume, length_cells]

@[simp] theorem data_shift (b : Buffer) : b.shift.data = b.data := by
  unfold shift
  split <;> rfl

@[simp] theorem capacity_shift (b : Buffer) : b.shift.capacity = b.capacity := by
  unfold shift
  split
  · rfl
  · simp only [capacity, List.length_drop, List.length_append, List.length_reverse, List.length_nil]
    omega

@[simp] theorem data_makeRoom (b : Buffer) : b.makeRoom.data = b.data := by
  unfold makeRoom
  split
  · exact data_shift b
  · rfl

@[simp] theorem capacity_makeRoom (b : Buffer) : b.makeRoom.capacity = b.capacity := by
  unfold makeRoom
  split
  · exact capacity_shift b
  · rfl

@[simp] theorem data_place (b : Buffer) (bs : Bytes) : (b.place bs).data = b.data := rfl

@[simp] theorem capacity_place (b : Buffer) (bs : Bytes) : (b.place bs).capacity = b.capacity := by
  simp only [place, capacity, room, List.length_append, List.length_drop, List.length_take]
  omega

@[simp] theorem capacity_fill (b : Buffer) (n : Nat) : (b.fill n).capacity = b.capacity := by
  simp only [fill, capacity, List.length_append, List.length_drop, List.length_take,
    List.length_replicate]
  omega

@[simp] theorem cells_fill (b : Buffer) (n : Nat) : (b.fill n).cells = b.cells := by
  simp only [fill, cells, List.append_assoc]
  by_cases h : n ≤ b.after.length
  · rw [Nat.sub_eq_zero_of_le h, Nat.zero_min, List.replicate_zero, List.nil_append, Nat.sub_zero,
      ← List.append_assoc (b.after.take n), List.take_append_drop]
  · rw [List.take_of_length_le (by omega), List.drop_of_length_le (by omega), List.nil_append,
      List.replicate_append_replicate, Nat.add_sub_cancel' (Nat.min_le_right _ _)]

/-- Writing adds what fits to the queue. -/
theorem data_write (b : Buffer) (bs : Bytes) :
    (b.write bs).data = b.data ++ bs.take b.makeRoom.room := by
  simp only [write, fill, data_place, data_makeRoom, List.append_cancel_left_eq]
  generalize b.makeRoom = m
  have hlen : (bs.take m.room).length = min bs.length m.room :=
    by rw [List.length_take, Nat.min_comm]
  have hplace : (m.place bs).after = bs.take m.room ++ m.after.drop (min bs.length m.room) := by
    simp only [place, hlen]
  rw [hplace, List.length_append, hlen, Nat.sub_eq_zero_of_le (Nat.le_add_right _ _), Nat.zero_min,
    List.replicate_zero, List.append_nil, ← hlen, List.take_left]

@[simp] theorem capacity_write (b : Buffer) (bs : Bytes) : (b.write bs).capacity = b.capacity := by
  simp [write]

/-- Dropping octets from the front leaves so many less. -/
theorem size_consume (b : Buffer) (n : Nat) : (b.consume n).size = b.size - n := by simp [size]

@[simp] theorem size_shift (b : Buffer) : b.shift.size = b.size := by simp [size]
@[simp] theorem size_makeRoom (b : Buffer) : b.makeRoom.size = b.size := by simp [size]

/-- Writing adds no more than what is written. -/
theorem size_write_le (b : Buffer) (bs : Bytes) : (b.write bs).size ≤ b.size + bs.length := by
  rw [size, data_write, List.length_append, List.length_take, size]
  omega

end Buffer

end ReverseProxy.Wire
