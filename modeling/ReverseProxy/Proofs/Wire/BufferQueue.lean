import ReverseProxy.Proofs.Wire.AlikeBuffers
import ReverseProxy.Proofs.Wire.Transfer

/-!
# A buffer is a bounded queue

In memory a buffer is an allocation and two positions in it, between which the window is
(`Buffer.layout`).  What is done with a buffer is done there by arithmetic on the positions and by
copying within the allocation; `Layout` says how, operation by operation, and each is what the
operation of `Buffer` does (`Buffer.layout_perform`).

To whoever uses the buffer it is a list of octets that can grow at its end and shrink at its front
(`Buffer.run_is_queue`).  The positions never leave the allocation, and there is free space behind
the window, once it is asked for, unless the window is the whole allocation.
-/

namespace ReverseProxy.Wire

/-! ### A buffer in memory -/

/-- An allocation `cells`, with the window from position `start` to position `stop`. -/
structure Layout where
  cells : Bytes
  start : Nat
  stop : Nat
deriving DecidableEq, Repr

namespace Layout

/-- A new allocation, with nothing in the window. -/
def ofCapacity (capacity : Nat) : Layout :=
  { cells := List.replicate capacity 0, start := 0, stop := 0 }

/-- The octets in the window. -/
def data (l : Layout) : Bytes := (l.cells.take l.stop).drop l.start

/-- The octets behind the window, which may be overwritten. -/
def space (l : Layout) : Bytes := l.cells.drop l.stop

/-- The layout with the octets of the window copied to the front, if they are not there.  Those that
nothing is copied over stay. -/
def shift (l : Layout) : Layout :=
  if 0 < l.start then
    { cells := l.data ++ l.cells.drop (l.stop - l.start), start := 0, stop := l.stop - l.start }
  else l

/-- Moves the window if it ends where the allocation does. -/
def makeRoom (l : Layout) : Layout := if l.stop = l.cells.length then l.shift else l

/-- The layout with `bs` copied behind the window, as far as it fits. -/
def place (l : Layout) (bs : Bytes) : Layout :=
  { l with cells := l.cells.take l.stop ++ (bs.take l.space.length ++ l.space.drop bs.length) }

/-- The layout with the end of the window moved by `n`, at most to the end of the allocation. -/
def fill (l : Layout) (n : Nat) : Layout := { l with stop := min (l.stop + n) l.cells.length }

/-- The layout after a write: `bs` is copied into the space that `makeRoom` leaves, as far as it
fits, and taken into the window. -/
def write (l : Layout) (bs : Bytes) : Layout :=
  (l.makeRoom.place bs).fill (min bs.length l.makeRoom.space.length)

/-- Moves both positions to the front. -/
def clear (l : Layout) : Layout := { l with start := 0, stop := 0 }

/-- The layout with the beginning of the window moved by `n`, at most to its end; if they meet, both
go to the front.  The sum is one of natural numbers, and one of machine words as long as it fits
into one. -/
def consume (l : Layout) (n : Nat) : Layout :=
  let start := min (l.start + n) l.stop
  if start = l.stop then l.clear else { l with start }

end Layout

namespace Buffer

/-- How the buffer `b` stands in memory. -/
def layout (b : Buffer) : Layout :=
  { cells := b.cells, start := b.before.length, stop := b.before.length + b.data.length }

variable (b : Buffer)

/-- The allocation of `b`: what is in front of the window, the window, and what is behind it. -/
theorem cells_eq :
    b.cells = b.before.reverse ++ b.data ++ (b.after ++ List.replicate b.untouched 0) := by
  rw [cells, List.append_assoc]

theorem stop_layout : b.layout.stop = (b.before.reverse ++ b.data).length := by
  rw [List.length_append, List.length_reverse]
  rfl

theorem take_layout : b.layout.cells.take b.layout.stop = b.before.reverse ++ b.data := by
  show b.cells.take b.layout.stop = _
  rw [cells_eq, stop_layout, List.take_left]

@[simp] theorem data_layout : b.layout.data = b.data := by
  rw [Layout.data, take_layout]
  show (b.before.reverse ++ b.data).drop b.before.length = b.data
  rw [← List.length_reverse, List.drop_left]

theorem space_layout : b.layout.space = b.after ++ List.replicate b.untouched 0 := by
  show b.cells.drop b.layout.stop = _
  rw [cells_eq, stop_layout, List.drop_left]

@[simp] theorem length_space_layout : b.layout.space.length = b.room := by
  rw [space_layout, List.length_append, List.length_replicate, room]

/-- The positions `start` and `stop` are in order, and within the allocation. -/
theorem bounds_layout : b.layout.start ≤ b.layout.stop ∧ b.layout.stop ≤ b.layout.cells.length := by
  refine ⟨Nat.le_add_right _ _, ?_⟩
  show b.before.length + b.data.length ≤ b.cells.length
  rw [length_cells, capacity]
  omega

/-! ### Every operation is what it is in memory -/

theorem layout_ofCapacity (capacity : Nat) :
    (ofCapacity capacity).layout = .ofCapacity capacity := by
  rw [layout, cells_ofCapacity]
  rfl

theorem layout_clear : b.clear.layout = b.layout.clear := by
  rw [layout, cells_clear]
  rfl

theorem layout_shift : b.shift.layout = b.layout.shift := by
  have hsize : b.layout.stop - b.layout.start = b.data.length := Nat.add_sub_cancel_left ..
  unfold shift Layout.shift
  by_cases hbefore : b.before = []
  · have hstart : ¬0 < b.layout.start := by
      show ¬0 < b.before.length
      rw [hbefore]
      exact Nat.lt_irrefl 0
    rw [if_pos (List.isEmpty_iff.2 hbefore), if_neg hstart]
  · have hstart : 0 < b.layout.start := List.length_pos_iff.2 hbefore
    rw [if_neg (mt List.isEmpty_iff.1 hbefore), if_pos hstart, hsize, data_layout]
    -- the octets behind the copy are those that stood there before
    have hcells : b.layout.cells.drop b.data.length =
        (b.before.reverse ++ (b.data ++ b.after)).drop b.data.length ++
          List.replicate b.untouched 0 := by
      have hle : b.data.length ≤ (b.before.reverse ++ (b.data ++ b.after)).length := by
        simp only [List.length_append]
        omega
      rw [← List.drop_append_of_le_length hle]
      simp only [layout, cells, List.append_assoc]
    rw [hcells]
    simp [layout, cells]

theorem layout_makeRoom : b.makeRoom.layout = b.layout.makeRoom := by
  have hexhausted : b.isExhausted = true ↔ b.layout.stop = b.layout.cells.length := by
    show _ ↔ b.before.length + b.data.length = b.cells.length
    rw [isExhausted_eq, beq_iff_eq, room, length_cells, capacity]
    omega
  unfold makeRoom Layout.makeRoom
  split
  · rename_i h
    rw [if_pos (hexhausted.1 h), layout_shift]
  · rename_i h
    rw [if_neg (mt hexhausted.2 h)]

theorem layout_place (bs : Bytes) : (b.place bs).layout = b.layout.place bs := by
  have hlength : (bs.take b.room).length = min (b.after.length + b.untouched) bs.length :=
    List.length_take
  have hafter : b.after.drop (bs.take b.room).length = b.after.drop bs.length := by
    by_cases hfits : bs.length ≤ b.after.length + b.untouched
    · rw [hlength, Nat.min_eq_right hfits]
    · rw [List.drop_of_length_le (by omega), List.drop_of_length_le (by omega)]
  have huntouched : b.untouched - ((bs.take b.room).length - b.after.length) =
      b.untouched - (bs.length - b.after.length) := by omega
  have hcells : (b.place bs).cells = b.before.reverse ++ b.data ++
      (bs.take b.room ++ (b.after ++ List.replicate b.untouched 0).drop bs.length) := by
    rw [cells_eq, place]
    simp only [hafter, huntouched, List.drop_append, List.drop_replicate, List.append_assoc]
  rw [Layout.place, take_layout, length_space_layout, space_layout, ← hcells]
  rfl

theorem layout_fill (n : Nat) : (b.fill n).layout = b.layout.fill n := by
  rw [layout, cells_fill, Layout.fill]
  have hstop : (b.fill n).before.length + (b.fill n).data.length =
      min (b.layout.stop + n) b.layout.cells.length := by
    show b.before.length + (b.data ++ _).length =
      min (b.before.length + b.data.length + n) b.cells.length
    rw [length_cells, capacity, List.length_append, List.length_append,
      List.length_take, List.length_replicate]
    omega
  rw [hstop]
  rfl

theorem layout_write (bs : Bytes) : (b.write bs).layout = b.layout.write bs := by
  rw [write, Layout.write, layout_fill, layout_place, layout_makeRoom,
    ← length_space_layout, layout_makeRoom]

theorem layout_consume (n : Nat) : (b.consume n).layout = b.layout.consume n := by
  by_cases hn : b.data.length ≤ n
  · have hclear : b.consume n = b.clear := by
      rw [consume, List.drop_of_length_le hn]
    have hmeet : min (b.layout.start + n) b.layout.stop = b.layout.stop :=
      Nat.min_eq_right (Nat.add_le_add_left hn b.before.length)
    rw [hclear, layout_clear, Layout.consume, if_pos hmeet]
  · have hbefore : (b.consume n).before = (b.data.take n).reverse ++ b.before := by
      unfold consume
      split
      · rename_i h
        exact absurd (List.drop_eq_nil_iff.1 h) hn
      · rfl
    have hmin : min (b.layout.start + n) b.layout.stop = b.layout.start + n :=
      Nat.min_eq_left (Nat.add_le_add_left (Nat.le_of_not_le hn) b.before.length)
    have hapart : ¬b.layout.start + n = b.layout.stop :=
      fun heq => hn (Nat.le_of_eq (Nat.add_left_cancel heq).symm)
    rw [Layout.consume, hmin, if_neg hapart, layout, cells_consume, data_consume, hbefore]
    simp only [layout, List.length_append, List.length_reverse, List.length_take,
      List.length_drop, Layout.mk.injEq, true_and]
    omega

/-! ### What is done with a buffer -/

/-- What is done with a buffer. -/
inductive Action where
  /-- Free space is asked for. -/
  | space
  /-- Free space is asked for, and `bs` is copied into it, as far as it fits. -/
  | write (bs : Bytes)
  | consume (n : Nat)
  | shift
  | clear
deriving DecidableEq, Repr

/-- The buffer after an action. -/
def perform (b : Buffer) : Action → Buffer
  | .space => b.makeRoom
  | .write bs => b.write bs
  | .consume n => b.consume n
  | .shift => b.shift
  | .clear => b.clear

/-- The number of octets that an action copies into `b`. -/
def copied (b : Buffer) : Action → Nat
  | .write bs => min bs.length b.makeRoom.room
  | .space | .consume _ | .shift | .clear => 0

/-- The buffer after `actions`, one after another. -/
def run (b : Buffer) (actions : List Action) : Buffer := actions.foldl perform b

/-- The number of octets that each of several actions copies, from `b` on. -/
def allCopied (b : Buffer) : List Action → List Nat
  | [] => []
  | a :: actions => b.copied a :: (b.perform a).allCopied actions

end Buffer

/-- The layout after an action. -/
def Layout.perform (l : Layout) : Buffer.Action → Layout
  | .space => l.makeRoom
  | .write bs => l.write bs
  | .consume n => l.consume n
  | .shift => l.shift
  | .clear => l.clear

/-- The layout after `actions`, one after another. -/
def Layout.run (l : Layout) (actions : List Buffer.Action) : Layout :=
  actions.foldl Layout.perform l

namespace Buffer

/-- The list `xs` after an action that copies `copied` octets: a write appends them, `consume` drops
the first octets, `clear` drops all. -/
def Action.onList (a : Action) (copied : Nat) (xs : Bytes) : Bytes :=
  match a with
  | .write bs => xs ++ bs.take copied
  | .consume n => xs.drop n
  | .clear => []
  | .space | .shift => xs

/-- The list `xs` after `actions`, given how many octets each of them copies. -/
def Action.allOnList (actions : List Action) (copied : List Nat) (xs : Bytes) : Bytes :=
  (actions.zip copied).foldl (fun xs u => u.1.onList u.2 xs) xs

theorem layout_perform (b : Buffer) (a : Action) : (b.perform a).layout = b.layout.perform a := by
  cases a with
  | space => exact layout_makeRoom b
  | write bs => exact layout_write b bs
  | consume n => exact layout_consume b n
  | shift => exact layout_shift b
  | clear => exact layout_clear b

theorem data_perform (b : Buffer) (a : Action) :
    (b.perform a).data = a.onList (b.copied a) b.data := by
  cases a with
  | space => exact data_makeRoom b
  | write bs =>
    show (b.write bs).data = b.data ++ bs.take (min bs.length b.makeRoom.room)
    rw [data_write, Nat.min_comm, ← List.take_eq_take_min]
  | consume n => exact data_consume b n
  | shift => exact data_shift b
  | clear => exact data_clear b

theorem capacity_perform (b : Buffer) (a : Action) : (b.perform a).capacity = b.capacity := by
  cases a with
  | space => exact capacity_makeRoom b
  | write bs => exact capacity_write b bs
  | consume n => exact capacity_consume b n
  | shift => exact capacity_shift b
  | clear => exact capacity_clear b

theorem layout_run (b : Buffer) (actions : List Action) :
    (b.run actions).layout = b.layout.run actions := by
  induction actions generalizing b with
  | nil => rfl
  | cons a actions ih =>
    show ((b.perform a).run actions).layout = (b.layout.perform a).run actions
    rw [ih, layout_perform]

theorem data_run (b : Buffer) (actions : List Action) :
    (b.run actions).data = Action.allOnList actions (b.allCopied actions) b.data := by
  induction actions generalizing b with
  | nil => rfl
  | cons a actions ih =>
    show ((b.perform a).run actions).data =
      Action.allOnList actions ((b.perform a).allCopied actions) (a.onList (b.copied a) b.data)
    rw [ih, data_perform]

theorem capacity_run (b : Buffer) (actions : List Action) :
    (b.run actions).capacity = b.capacity := by
  induction actions generalizing b with
  | nil => rfl
  | cons a actions ih => exact (ih (b.perform a)).trans (capacity_perform b a)

/-- After `makeRoom` there is free space exactly if the `size` is below the `capacity`. -/
theorem room_makeRoom_pos_iff {b : Buffer} : 0 < b.makeRoom.room ↔ b.size < b.capacity := by
  constructor
  · intro hroom
    rw [← size_makeRoom, ← capacity_makeRoom, size, capacity]
    rw [room] at hroom
    omega
  · intro hlt
    apply room_makeRoom_pos
    intro hfull
    exact Nat.ne_of_lt hlt (size_of_isFull hfull)

theorem isFull_iff {b : Buffer} : b.isFull = true ↔ b.size = b.capacity := by
  constructor
  · exact size_of_isFull
  · intro hsize
    apply Decidable.byContradiction
    intro hfull
    exact Nat.ne_of_lt (size_lt_capacity hfull) hsize

/-- A buffer is a bounded queue.  After any `actions` on `ofCapacity capacity`, the buffer `b` has
the layout to which the actions lead in memory: `start` and `stop` stay in order within `capacity`
cells.  Its octets are those of a list on which the same actions are done, where a write appends as
many octets as it copies.  There is free space after `makeRoom` exactly as long as `b` is not full,
that is, holds less than `capacity` octets; and until then a write copies something. -/
theorem run_is_queue (capacity : Nat) (actions : List Action) :
    let b := (ofCapacity capacity).run actions
    let l := (Layout.ofCapacity capacity).run actions
    (b.layout = l ∧ l.start ≤ l.stop ∧ l.stop ≤ capacity ∧ l.cells.length = capacity) ∧
      (l.data = b.data ∧
        b.data = Action.allOnList actions ((ofCapacity capacity).allCopied actions) []) ∧
      (l.makeRoom.space ≠ [] ↔ b.isFull = false) ∧ (b.isFull = true ↔ b.data.length = capacity) ∧
      ∀ bs, b.copied (.write bs) = min bs.length l.makeRoom.space.length ∧
        (0 < b.copied (.write bs) ↔ bs ≠ [] ∧ b.data.length < capacity) := by
  intro b l
  have hcapacity : b.capacity = capacity := by rw [capacity_run, capacity_ofCapacity]
  have hlayout : b.layout = l := by rw [layout_run, layout_ofCapacity]
  have hlength : l.cells.length = capacity := by
    rw [← hlayout, ← hcapacity]
    exact length_cells b
  have hspace : l.makeRoom.space.length = b.makeRoom.room := by
    rw [← hlayout, ← layout_makeRoom, length_space_layout]
  have hroom : 0 < b.makeRoom.room ↔ b.data.length < capacity := by
    rw [room_makeRoom_pos_iff, hcapacity]
    rfl
  have hfull : b.isFull = true ↔ b.data.length = capacity := by
    rw [isFull_iff, hcapacity]
    rfl
  have hle : b.data.length ≤ capacity := hcapacity ▸ size_le_capacity b
  refine ⟨⟨hlayout, ?_, ?_, hlength⟩, ⟨?_, data_run _ actions⟩, ?_, hfull, fun bs => ⟨?_, ?_⟩⟩
  · rw [← hlayout]
    exact b.bounds_layout.1
  · rw [← hlength, ← hlayout]
    exact b.bounds_layout.2
  · rw [← hlayout, data_layout]
  · rw [← List.length_pos_iff, hspace, hroom, ← Bool.not_eq_true, hfull]
    omega
  · rw [hspace]
    rfl
  · show 0 < min bs.length b.makeRoom.room ↔ _
    rw [Nat.lt_min, List.length_pos_iff, hroom]

/-- The window at the end of the allocation is moved to make room for what is written. -/
example : ((ofCapacity 4).run [.write [1, 2, 3, 4], .consume 2, .write [5, 6, 7]]).data =
    [3, 4, 5, 6] := by decide

end Buffer

end ReverseProxy.Wire
