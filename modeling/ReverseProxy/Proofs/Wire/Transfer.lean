import ReverseProxy.Wire.Sink
import ReverseProxy.Wire.Source

/-!
# Nothing is lost between two connections

One reading moves octets from a source to the end of a buffer.  `Source.octets` forgets how the
octets of a source are cut and what else arrives between them, so that what a reading does can be
said in one equation: the octets in the buffer and those still to come are together what they were
before (`Buffer.data_append_octets_receive`).  One writing gives a sink all that is to be written,
or the beginning of it (`Sink.written_writeAll`), and it does not matter how octets are cut that are
written one after another (`Sink.writeAll_append`).

A connection that never fails is `Source.Steady` or `Sink.Steady`.  A source that fails, or falls
silent, after it has sent all its octets is `Source.Until` that.
-/

namespace ReverseProxy.Wire

namespace Arrival

/-- The octets of an arrival. -/
def bytes : Arrival → Bytes
  | .octets bs => bs
  | .silence | .failure _ => []

/-- The arrival is nothing but octets, and at least one. -/
def IsData (a : Arrival) : Prop := ∃ bs, bs ≠ [] ∧ a = .octets bs

end Arrival

/-- The octets that a reading got. -/
def Received.bytes : Received → Bytes
  | .octets bs => bs
  | .failed _ | .timedOut => []

namespace Source

/-- All octets that arrive. -/
def octets (s : Source) : Bytes := s.flatMap Arrival.bytes

@[simp] theorem octets_nil : octets [] = [] := rfl
@[simp] theorem octets_cons (a : Arrival) (s : Source) :
    octets (a :: s) = a.bytes ++ s.octets := rfl

/-- Nothing arrives but octets, so that every reading gets some until the end. -/
def Steady (s : Source) : Prop := ∀ a ∈ s, a.IsData

/-- What a reading gets was the first of the `octets` to arrive. -/
theorem bytes_append_octets_receive {room : Nat} {s s' : Source} {got : Received}
    (h : s.receive room = (got, s')) : got.bytes ++ s'.octets = s.octets := by
  cases s with
  | nil => cases h; rfl
  | cons a rest =>
    cases a with
    | silence => cases h; rfl
    | failure text => cases h; rfl
    | octets bs =>
      have hcut := List.take_append_drop room bs
      cases hd : bs.drop room with
      | nil =>
        rw [hd, List.append_nil] at hcut
        simp only [receive, Arrival.take, hd] at h
        cases h
        rw [Received.bytes, octets_cons, Arrival.bytes, hcut]
      | cons b left =>
        simp only [receive, Arrival.take, hd] at h
        cases h
        rw [Received.bytes, octets_cons, octets_cons, Arrival.bytes, Arrival.bytes,
          ← List.append_assoc, ← hd, hcut]

/-- A reading gets at most `room` octets. -/
theorem length_bytes_receive_le {room : Nat} {s s' : Source} {got : Received}
    (h : s.receive room = (got, s')) :
    got.bytes.length ≤ room := by
  cases s with
  | nil => cases h; exact Nat.zero_le _
  | cons a rest =>
    cases a with
    | silence => cases h; exact Nat.zero_le _
    | failure text => cases h; exact Nat.zero_le _
    | octets bs =>
      have hgot : got = .octets (bs.take room) := by
        cases hd : bs.drop room <;> simp only [receive, Arrival.take, hd] at h <;> cases h <;> rfl
      rw [hgot, Received.bytes, List.length_take]
      exact Nat.min_le_left _ _

/-- As long as anything is to come from a `Steady` source, a reading gets some of it. -/
theorem Steady.receive {s : Source} (hs : s.Steady) (hne : s ≠ []) {room : Nat} (hroom : 0 < room) :
    ∃ b bs s', s.receive room = (.octets (b :: bs), s') ∧ s'.Steady := by
  cases s with
  | nil => exact absurd rfl hne
  | cons a rest =>
    obtain ⟨piece, hpiece, rfl⟩ := hs a (List.mem_cons_self ..)
    have hrest : Steady rest := fun a ha => hs a (List.mem_cons_of_mem _ ha)
    obtain ⟨b, bs, rfl⟩ := List.exists_cons_of_ne_nil hpiece
    obtain ⟨room, rfl⟩ := Nat.exists_eq_succ_of_ne_zero (Nat.pos_iff_ne_zero.1 hroom)
    cases hd : bs.drop room with
    | nil => exact ⟨b, bs.take room, rest, by simp [Source.receive, Arrival.take, hd], hrest⟩
    | cons c left =>
      refine ⟨b, bs.take room, .octets (c :: left) :: rest,
        by simp [Source.receive, Arrival.take, hd], ?_⟩
      intro a ha
      rcases List.mem_cons.1 ha with rfl | ha
      · exact ⟨c :: left, List.cons_ne_nil _ _, rfl⟩
      · exact hrest a ha

/-- A reading from a `Steady` source gets octets, or it finds the end. -/
theorem Steady.receive_cases {s s' : Source} {got : Received} {room : Nat}
    (hs : s.Steady) (hroom : 0 < room) (h : s.receive room = (got, s')) :
    s'.Steady ∧ ((∃ b bs, got = .octets (b :: bs)) ∨ got = .octets [] ∧ s = [] ∧ s' = []) := by
  by_cases hne : s = []
  · subst hne
    cases h
    exact ⟨hs, .inr ⟨rfl, rfl, rfl⟩⟩
  · obtain ⟨b, bs, s₁, h₁, hs₁⟩ := hs.receive hne hroom
    cases h.symm.trans h₁
    exact ⟨hs₁, .inl ⟨b, bs, rfl⟩⟩

/-- Nothing arrives but octets until a reading comes to `last`, and none are left then. -/
inductive Until (last : Received) : Source → Prop
  | last {s : Source} : s.octets = [] → (∀ room, (s.receive room).1 = last) → Until last s
  | octets {b : UInt8} {bs : Bytes} {rest : Source} :
      Until last rest → Until last (.octets (b :: bs) :: rest)

/-- A source that is `Until last` gives octets as long as there are any, and then comes to
`last`. -/
theorem Until.receive {last got : Received} {s s' : Source} {room : Nat}
    (hs : Until last s) (hroom : 0 < room) (h : s.receive room = (got, s')) :
    (∃ b bs, got = .octets (b :: bs)) ∧ Until last s' ∨ got = last ∧ s.octets = [] := by
  cases hs with
  | last hnone hlast => exact .inr ⟨by rw [← hlast room, h], hnone⟩
  | @octets b bs rest hrest =>
    obtain ⟨room, rfl⟩ := Nat.exists_eq_succ_of_ne_zero (Nat.pos_iff_ne_zero.1 hroom)
    cases hd : bs.drop room <;>
      simp only [Source.receive, Arrival.take, Nat.succ_eq_add_one, List.drop_succ_cons, hd]
        at h <;> cases h
    · exact .inl ⟨⟨b, bs.take room, rfl⟩, hrest⟩
    · exact .inl ⟨⟨b, bs.take room, rfl⟩, .octets hrest⟩

end Source

namespace Buffer

/-- A buffer that is not full has room behind the window after `makeRoom`. -/
theorem room_makeRoom_pos {b : Buffer} (h : ¬b.isFull = true) : 0 < b.makeRoom.room := by
  unfold makeRoom
  split
  · rename_i he
    have hbefore : ¬b.before.isEmpty = true := fun hb => h (by rw [isFull, hb, he]; rfl)
    have hpos : 0 < b.before.length := by
      rw [List.isEmpty_iff] at hbefore
      exact List.length_pos_iff.2 hbefore
    rw [shift, if_neg hbefore]
    simp only [room, List.length_drop, List.length_append, List.length_reverse]
    omega
  · rename_i he
    have : ¬(b.after = [] ∧ b.untouched = 0) := by simpa [isExhausted] using he
    rw [room]
    by_cases ha : b.after = []
    · have : b.untouched ≠ 0 := fun hu => this ⟨ha, hu⟩
      omega
    · have := List.length_pos_iff.2 ha
      omega

/-- A full buffer holds `capacity` octets. -/
theorem size_of_isFull {b : Buffer} (h : b.isFull = true) : b.size = b.capacity := by
  simp only [isFull, isExhausted, Bool.and_eq_true, List.isEmpty_iff, beq_iff_eq] at h
  obtain ⟨hbefore, hafter, huntouched⟩ := h
  simp [size, capacity, hbefore, hafter, huntouched]

theorem size_le_capacity (b : Buffer) : b.size ≤ b.capacity := by
  simp only [size, capacity]
  omega

/-- A buffer that is not full holds less than `capacity` octets. -/
theorem size_lt_capacity {b : Buffer} (h : ¬b.isFull = true) : b.size < b.capacity := by
  have hroom := room_makeRoom_pos h
  rw [← size_makeRoom, ← capacity_makeRoom]
  simp only [room] at hroom
  simp only [size, capacity]
  omega

/-- A buffer that holds nothing is not full, if it can hold anything. -/
theorem not_isFull_of_data_eq_nil {b : Buffer} (h : b.data = []) (hc : 0 < b.capacity) :
    ¬b.isFull = true := by
  intro hf
  have hs := size_of_isFull hf
  rw [size, h, List.length_nil] at hs
  omega

/-- Nothing is left in a buffer of which everything is passed on. -/
@[simp] theorem data_consume_size (b : Buffer) : (b.consume b.size).data = [] := by
  rw [data_consume, size, List.drop_length]

/-- The window at the front of the allocation is not moved again. -/
theorem shift_shift (b : Buffer) : b.shift.shift = b.shift := by
  have hb : b.shift.before.isEmpty = true := by
    unfold shift
    split
    · assumption
    · rfl
  exact if_pos hb

theorem makeRoom_makeRoom (b : Buffer) : b.makeRoom.makeRoom = b.makeRoom := by
  by_cases he : b.isExhausted = true
  · have hm : b.makeRoom = b.shift := if_pos he
    rw [hm, makeRoom, shift_shift, ite_self]
  · have hm : b.makeRoom = b := if_neg he
    rw [hm, hm]

/-- A reading appends what it gets to the `data` of the buffer, and keeps its capacity. -/
theorem data_receive {b b' : Buffer} {s s' : Source} {got : Received}
    (h : b.receive s = (got, s', b')) :
    s.receive b.makeRoom.room = (got, s') ∧ b'.data = b.data ++ got.bytes ∧
    b'.capacity = b.capacity := by
  unfold receive at h
  rcases hr : s.receive b.makeRoom.room with ⟨bs | _ | _, rest⟩ <;> simp only [hr] at h <;> cases h
  · refine ⟨rfl, ?_, by rw [capacity_write, capacity_makeRoom]⟩
    have hle : bs.length ≤ b.makeRoom.room := Source.length_bytes_receive_le hr
    rw [data_write, data_makeRoom, makeRoom_makeRoom, List.take_of_length_le hle, Received.bytes]
  · exact ⟨rfl, by rw [data_makeRoom, Received.bytes, List.append_nil], capacity_makeRoom b⟩
  · exact ⟨rfl, by rw [data_makeRoom, Received.bytes, List.append_nil], capacity_makeRoom b⟩

/-- A reading only moves octets from those to come into the buffer. -/
theorem data_append_octets_receive {b b' : Buffer} {s s' : Source} {got : Received}
    (h : b.receive s = (got, s', b')) : b'.data ++ s'.octets = b.data ++ s.octets := by
  obtain ⟨hs, hdata, -⟩ := data_receive h
  rw [hdata, List.append_assoc, Source.bytes_append_octets_receive hs]

/-- A reading from a `Steady` source into a buffer that is not full gets octets, or it finds the
end. -/
theorem receive_steady {b b' : Buffer} {s s' : Source} {got : Received}
    (hs : s.Steady) (hb : ¬b.isFull = true) (h : b.receive s = (got, s', b')) :
    s'.Steady ∧ ((∃ x xs, got = .octets (x :: xs)) ∨ got = .octets [] ∧ s = [] ∧ s' = []) :=
  hs.receive_cases (room_makeRoom_pos hb) (data_receive h).1

end Buffer

namespace Sink

/-- The connection takes every octet, and every `flush` succeeds. -/
structure Steady (s : Sink) : Prop where
  room : s.room = none
  flush : s.flushFault = none

/-- A `writeAll` adds a prefix of `bs` to what is written, and all of it if it succeeds. -/
theorem written_writeAll {s s' : Sink} {bs : Bytes} {answer : Except Fault Unit}
    (h : s.writeAll bs = (answer, s')) :
    ∃ part, part <+: bs ∧ s'.written = s.written ++ part ∧ (answer = .ok () → part = bs) := by
  cases h
  refine ⟨bs.take (s.accepts bs.length), List.take_prefix _ _, written_append _ _, fun h => ?_⟩
  split at h
  · cases h
  · rename_i hn
    exact List.take_of_length_le (Nat.le_of_not_lt hn)

/-- A `Steady` connection takes all of `bs` and stays so. -/
theorem Steady.writeAll {s : Sink} (hs : s.Steady) (bs : Bytes) :
    ∃ s', s.writeAll bs = (.ok (), s') ∧ s'.Steady := by
  have hn : s.accepts bs.length = bs.length := by rw [accepts, hs.room]
  refine ⟨s.append bs, ?_, by rw [append, hs.room]; rfl, hs.flush⟩
  rw [Sink.writeAll, hn, if_neg (Nat.lt_irrefl _), List.take_length]

section

variable {s s' : Sink} {a b : Bytes} {f : Fault}

theorem accepts_le (s : Sink) (n : Nat) : s.accepts n ≤ n := by
  unfold accepts
  split
  · exact Nat.le_refl n
  · exact Nat.min_le_left _ _

/-- A `writeAll` that succeeds takes all of `a`. -/
theorem eq_append_of_writeAll (h : s.writeAll a = (.ok (), s')) :
    s.accepts a.length = a.length ∧ s' = s.append a := by
  obtain ⟨hanswer, rfl⟩ := Prod.mk.inj h
  split at hanswer
  · cases hanswer
  · rename_i hn
    have hall := Nat.le_antisymm (s.accepts_le _) (Nat.le_of_not_lt hn)
    exact ⟨hall, by rw [hall, List.take_length]⟩

/-- What is accepted after `a` counts on from it. -/
theorem accepts_append (ha : s.accepts a.length = a.length) (n : Nat) :
    a.length + (s.append a).accepts n = s.accepts (a.length + n) := by
  unfold accepts append at *
  cases hroom : s.room with
  | none => rfl
  | some room =>
    simp only [hroom, Option.map_some] at ha ⊢
    omega

/-- To write `a` and then `b` is to write `a ++ b` at once. -/
theorem writeAll_append (h : s.writeAll a = (.ok (), s')) (b : Bytes) :
    (s.writeAll (a ++ b)).1 = (s'.writeAll b).1 ∧
    (s.writeAll (a ++ b)).2.written = (s'.writeAll b).2.written := by
  obtain ⟨ha, rfl⟩ := eq_append_of_writeAll h
  have hn := accepts_append ha b.length
  simp only [writeAll, written_append, List.length_append]
  rw [← hn, List.take_length_add_append, List.append_assoc]
  exact ⟨by simp only [Nat.add_lt_add_iff_left]; rfl, rfl⟩

/-- A connection that fails in the middle of `a` takes no more of any `b` that begins with `a`. -/
theorem writeAll_of_prefix (h : (s.writeAll a).1 = .error f) (hab : a <+: b) :
    (s.writeAll b).1 = .error f ∧ (s.writeAll b).2.written = (s.writeAll a).2.written := by
  obtain ⟨c, rfl⟩ := hab
  have hlt : s.accepts a.length < a.length := by
    refine Nat.lt_of_not_le fun hle => ?_
    simp only [writeAll, if_neg (Nat.not_lt.2 hle)] at h
    cases h
  have hsame : s.accepts (a ++ c).length = s.accepts a.length := by
    rw [List.length_append]
    unfold accepts at hlt ⊢
    cases hroom : s.room with
    | none => simp [hroom] at hlt
    | some room =>
      simp only [hroom] at hlt ⊢
      omega
  have hlt' : s.accepts a.length < (a ++ c).length := by rw [List.length_append]; omega
  simp only [writeAll, if_pos hlt, hsame, if_pos hlt', written_append] at h ⊢
  exact ⟨h, by rw [List.take_append_of_le_length (Nat.le_of_lt hlt)]⟩

end

end Sink

end ReverseProxy.Wire
