import ReverseProxy.Message.Chunks
import ReverseProxy.Proofs.Message.Pieces

/-!
# A chunked body in pieces

`ChunkTracker.observe` passes over the data of a chunk in one go, and its recursion is on what is
left of the piece.  Nothing of that can be told from outside: to observe octets is to take one step
after another, the steps inside the data being like any others (`ChunkTracker.observeFrom_cons`),
and whatever holds along such steps holds of an observation (`ChunkTracker.observe_induction`).  Two
pieces are therefore read as one (`ChunkTracker.observe_continues`).
-/

namespace ReverseProxy.Message.ChunkTracker

open Pieces

/-! ## One octet after another -/

theorem isDone_iff {t : ChunkTracker} : t.isDone = true ↔ t.phase = .done := by simp [isDone]

theorem isDrained_iff {t : ChunkTracker} : t.isDrained = true ↔ t.phase = .data 0 := by
  simp [isDrained]

theorem observeFrom_nil {t : ChunkTracker} (hd : ¬t.isDone = true) (seen : Nat) :
    t.observeFrom seen [] = (.ok none, t) := by
  rw [observeFrom, if_neg hd]

theorem observeFrom_done {t : ChunkTracker} (hd : t.isDone = true) (seen : Nat) (bs : Bytes) :
    t.observeFrom seen bs = (.ok (some seen), t) := by
  cases bs with
  | nil => rw [observeFrom, if_pos hd]
  | cons b rest =>
    rw [observeFrom]
    split <;> simp_all [isDone_iff]

/-- The data of a chunk, `n` octets, are passed over in one go. -/
theorem observeFrom_data {t : ChunkTracker} {n : Nat} (ht : t.phase = .data n)
    (seen : Nat) (b : UInt8) (rest : Bytes) :
    t.observeFrom seen (b :: rest) =
      (t.skipData n ((b :: rest).take n).length).observeFrom (seen + ((b :: rest).take n).length)
        ((b :: rest).drop n) := by
  rw [observeFrom]
  split <;> simp_all

theorem observeFrom_drained {t : ChunkTracker} (hz : t.isDrained = true)
    (seen : Nat) (b : UInt8) (rest : Bytes) :
    t.observeFrom seen (b :: rest) = (t.moveTo .dataEnd).observeFrom seen (b :: rest) := by
  rw [observeFrom_data (isDrained_iff.1 hz)]
  rfl

/-- One octet of the data, and then what is left of them in one go, is the data in one go. -/
theorem observeFrom_data_succ {t : ChunkTracker} {n : Nat} (ht : t.phase = .data (n + 1))
    (seen : Nat) (b : UInt8) (rest : Bytes) :
    t.observeFrom seen (b :: rest) =
      (t.moveTo (if n = 0 then .dataEnd else .data n)).observeFrom (seen + 1) rest := by
  rw [observeFrom_data ht]
  cases n with
  | zero => simp [skipData]
  | succ n =>
    cases rest with
    | nil => simp [skipData]
    | cons c rest =>
      have hseen : ∀ k, seen + (k + 1 + 1) = seen + 1 + (k + 1) := by omega
      rw [if_neg n.succ_ne_zero, observeFrom_data (phase_moveTo t _)]
      simp only [List.take_succ_cons, List.drop_succ_cons, List.length_cons,
        skipData, moveTo, hseen, Nat.add_sub_add_right]

/-- Observing octets takes a `step` for each, up to the first that does not fit. -/
theorem observeFrom_cons {t : ChunkTracker} (hd : ¬t.isDone = true) (hz : ¬t.isDrained = true)
    (seen : Nat) (b : UInt8) (rest : Bytes) :
    t.observeFrom seen (b :: rest) =
      match t.step b with
      | none => (.error .chunkFraming, t)
      | some t' => t'.observeFrom (seen + 1) rest := by
  cases hp : t.phase
  case done => exact absurd (isDone_iff.2 hp) hd
  case data n =>
    cases n with
    | zero => exact absurd (isDrained_iff.2 hp) hz
    | succ n =>
      rw [observeFrom_data_succ hp]
      simp [step, hp]
  all_goals
    rw [observeFrom]
    split
    · simp_all
    · simp_all
    · cases t.step b <;> rfl

theorem observeFrom_refused {t : ChunkTracker} {b : UInt8} (hd : ¬t.isDone = true)
    (hz : ¬t.isDrained = true) (hs : t.step b = none) (seen : Nat) (rest : Bytes) :
    t.observeFrom seen (b :: rest) = (.error .chunkFraming, t) := by
  rw [observeFrom_cons hd hz, hs]

theorem observeFrom_step {t t' : ChunkTracker} {b : UInt8} (hd : ¬t.isDone = true)
    (hz : ¬t.isDrained = true) (hs : t.step b = some t') (seen : Nat) (rest : Bytes) :
    t.observeFrom seen (b :: rest) = t'.observeFrom (seen + 1) rest := by
  rw [observeFrom_cons hd hz, hs]

/-- Induction along an observation.  The `motive` has to hold at the end of the octets, at the end
of the body and where an octet does not fit, and before a step if it holds after it.  A tracker
whose chunk has no data left, which no other tracker becomes, goes on without an octet. -/
@[elab_as_elim]
theorem observe_induction {motive : ChunkTracker → Bytes → Prop}
    (nil : ∀ t, ¬t.isDone = true → motive t [])
    (done : ∀ t bs, t.isDone = true → motive t bs)
    (drained : ∀ t b rest, t.isDrained = true → motive (t.moveTo .dataEnd) (b :: rest) →
      motive t (b :: rest))
    (refused : ∀ t b rest, ¬t.isDone = true → ¬t.isDrained = true → t.step b = none →
      motive t (b :: rest))
    (step : ∀ t b rest t', ¬t.isDone = true → ¬t.isDrained = true → t.step b = some t' →
      motive t' rest →
      motive t (b :: rest)) :
    ∀ t bs, motive t bs := by
  intro t bs
  induction bs generalizing t with
  | nil =>
    by_cases hd : t.isDone = true
    · exact done t [] hd
    · exact nil t hd
  | cons b rest ih =>
    have key : ∀ t : ChunkTracker, ¬t.isDrained = true → motive t (b :: rest) := by
      intro t hz
      by_cases hd : t.isDone = true
      · exact done t _ hd
      · cases hs : t.step b with
        | none => exact refused t b rest hd hz hs
        | some t' => exact step t b rest t' hd hz hs (ih t')
    by_cases hz : t.isDrained = true
    · exact drained t b rest hz (key _ (by simp [isDrained]))
    · exact key t hz

/-! ## One cut -/

/-- The number of the first octet is only added to the answer. -/
theorem observeFrom_add (k seen : Nat) (t : ChunkTracker) (bs : Bytes) :
    t.observeFrom (k + seen) bs = later k (t.observeFrom seen bs) := by
  induction t, bs using observe_induction generalizing seen with
  | nil t hd => rw [observeFrom_nil hd, observeFrom_nil hd, later_none]
  | done t bs hd => rw [observeFrom_done hd, observeFrom_done hd, later_some]
  | drained t b rest hz ih => rw [observeFrom_drained hz, observeFrom_drained hz, ih]
  | refused t b rest hd hz hs =>
    rw [observeFrom_refused hd hz hs, observeFrom_refused hd hz hs, later_error]
  | step t b rest t' hd hz hs ih =>
    rw [observeFrom_step hd hz hs, observeFrom_step hd hz hs, Nat.add_assoc, ih]

theorem observeFrom_append (seen : Nat) (t : ChunkTracker) (a c : Bytes) :
    t.observeFrom seen (a ++ c) =
      andThen (t.observeFrom seen a) (seen + a.length) fun t' => t'.observe c := by
  induction t, a using observe_induction generalizing seen with
  | nil t hd => rw [observeFrom_nil hd, andThen_none]; exact observeFrom_add seen 0 t c
  | done t bs hd => rw [observeFrom_done hd, observeFrom_done hd, andThen_some]
  | drained t b rest hz ih =>
    rw [List.cons_append, observeFrom_drained hz, observeFrom_drained hz]; exact ih seen
  | refused t b rest hd hz hs =>
    rw [List.cons_append, observeFrom_refused hd hz hs, observeFrom_refused hd hz hs, andThen_error]
  | step t b rest t' hd hz hs ih =>
    rw [List.cons_append, observeFrom_step hd hz hs, observeFrom_step hd hz hs,
      ih, List.length_cons, Nat.add_comm rest.length, Nat.add_assoc]

/-- Two pieces of a chunked body are read as one. -/
theorem observe_continues : Continues observe := by
  intro t a c
  rw [observe, observeFrom_append, Nat.zero_add]
  rfl

/-- A new tracker waits for octets. -/
theorem waits_new : Waits observe {} := observeFrom_nil (by decide) 0

/-- The end `n` of a body is within the octets that were observed. -/
theorem le_length_of_observeFrom {seen n : Nat} {t t' : ChunkTracker} {bs : Bytes}
    (h : t.observeFrom seen bs = (.ok (some n), t')) : seen ≤ n ∧ n ≤ seen + bs.length := by
  induction t, bs using observe_induction generalizing seen with
  | nil t hd => rw [observeFrom_nil hd] at h; cases h
  | done t bs hd =>
    rw [observeFrom_done hd] at h; cases h; exact ⟨Nat.le_refl _, Nat.le_add_right _ _⟩
  | drained t b rest hz ih => exact ih (observeFrom_drained hz seen b rest ▸ h)
  | refused t b rest hd hz hs => rw [observeFrom_refused hd hz hs] at h; cases h
  | step t b rest t' hd hz hs ih =>
    obtain ⟨h₁, h₂⟩ := ih (observeFrom_step hd hz hs seen rest ▸ h)
    rw [List.length_cons]
    omega

/-! ## Any number of cuts -/

/-- Observations are independent of cuts, from any tracker `t`.  To observe `a ++ c` is to observe
`a` and then `c`, with the end that is found counted from the first octet of `a`, and the same
defect and the same tracker at the end; so for any `pieces`; and to pass over the data of a chunk in
one go is to observe the octets one at a time. -/
theorem observe_independent_of_cuts (t : ChunkTracker) :
    (∀ a c, t.observe (a ++ c) = andThen (t.observe a) a.length fun t' => t'.observe c) ∧
      (∀ piece pieces, readPieces observe t (piece :: pieces) =
        t.observe (piece :: pieces).flatten) ∧
      ∀ b bs, readPieces observe t ((b :: bs).map fun c => [c]) = t.observe (b :: bs) := by
  refine ⟨observe_continues t, observe_continues.readPieces_cons t, ?_⟩
  intro b bs
  rw [List.map_cons, observe_continues.readPieces_cons, ← List.map_cons (f := fun c => [c]),
    ← List.flatMap_def, List.flatMap_singleton']

end ReverseProxy.Message.ChunkTracker
