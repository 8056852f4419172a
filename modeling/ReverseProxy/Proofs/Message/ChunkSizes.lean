import Mathlib.Algebra.Group.Nat.Defs
import Mathlib.Control.Monad.Basic
import Mathlib.Logic.ExistsUnique
import ReverseProxy.Proofs.Message.ChunkGrammar

/-!
# Sizes that fit, and octets that change nothing

The size of a chunk is read digit by digit into a word of 64 bits, and sixteen digits fill it.
Whatever has been done with a `ChunkTracker`, the size that it has read fits its digits
(`ChunkTracker.Bounded`), so that one more digit, if it is taken at all, does not overflow the word.

Observing may go on after a defect.  An octet that does not fit leaves the tracker where the octets
before it have brought it, and is refused again from there (`ChunkTracker.Refuses`); there is no
other octet in the observation of which this could be said (`ChunkTracker.prefix_of_refuses`).
-/

namespace ReverseProxy.Message.ChunkTracker

variable {t t' : ChunkTracker} {b : UInt8} {e : Defect}

/-! ## The size and its digits -/

/-- The tracker is `WellPlaced`, and its size has no more hexadecimal digits than were read. -/
structure Bounded (t : ChunkTracker) : Prop extends WellPlaced t where
  size_lt : t.size < 16 ^ t.digits

theorem bounded_new : Bounded {} := ⟨wellPlaced_new, Nat.one_pos⟩

/-- One more digit is one more power of sixteen. -/
theorem mul_add_lt_pow {n d v : Nat} (hn : n < 16 ^ d) (hv : v < 16) :
    n * 16 + v < 16 ^ (d + 1) := by
  rw [Nat.pow_succ]
  omega

theorem bounded_step (ht : t.Bounded) (hs : t.step b = some t') : t'.Bounded := by
  refine ⟨wellPlaced_step ht.toWellPlaced hs, ?_⟩
  cases steps_of_step hs with
  | digit v _ hv _ => exact mul_add_lt_pow ht.size_lt (Octet.hexValue?_lt hv)
  | sizeEnd _ _ _ hend =>
    -- both are reset, and nothing is less than one
    unfold endSize at hend
    split at hend
    · cases hend
    · cases hend
      exact Nat.one_pos
  | _ => exact ht.size_lt

/-- A size of at most sixteen digits fits a word. -/
theorem Bounded.size_lt_word (ht : t.Bounded) : t.size < 2 ^ 64 :=
  calc
    t.size < 16 ^ t.digits := ht.size_lt
    _ ≤ 16 ^ maxDigits := Nat.pow_le_pow_right (by decide) ht.digits_le
    _ = 2 ^ 64 := by decide

/-- The size after a digit of the value `v` was taken. -/
theorem size_of_step {v : Nat} (hp : t.phase = .size) (hv : Octet.hexValue? b = some v)
    (hs : t.step b = some t') :
    t'.size = t.size * 16 + v := by
  simp only [step, hp, hv] at hs
  split at hs
  · cases hs
    rfl
  · cases hs

/-- A sum that fits a word is the sum of words, so that `size * 16 + v` does not overflow. -/
theorem toNat_mul_add {n v : Nat} (h : n * 16 + v < 2 ^ 64) :
    (UInt64.ofNat n * 16 + UInt64.ofNat v).toNat = n * 16 + v := by
  have hword : UInt64.ofNat n * 16 + UInt64.ofNat v = UInt64.ofNat (n * 16 + v) := by
    rw [UInt64.ofNat_add, UInt64.ofNat_mul]
    rfl
  rw [hword, UInt64.toNat_ofNat_of_lt' h]

/-! ## Whatever is done with a tracker -/

/-- What can be done with a tracker. -/
inductive Action where
  | observe (bs : Bytes)
  /-- The tracker begins with another body. -/
  | reset
deriving DecidableEq, Repr

/-- The tracker after an action, whether or not an observation was refused. -/
def perform (t : ChunkTracker) : Action → ChunkTracker
  | .observe bs => (t.observe bs).2
  | .reset => {}

/-- The tracker after `actions`, one after another. -/
def run (t : ChunkTracker) (actions : List Action) : ChunkTracker := actions.foldl perform t

theorem bounded_observeFrom (ht : t.Bounded) (seen : Nat) (bs : Bytes) :
    (t.observeFrom seen bs).2.Bounded := by
  induction t, bs using observe_induction generalizing seen with
  | nil t hd => rw [observeFrom_nil hd]; exact ht
  | done t bs hd => rw [observeFrom_done hd]; exact ht
  | drained t b rest hz => exact absurd hz ht.undrained
  | refused t b rest hd hz hs => rw [observeFrom_refused hd hz hs]; exact ht
  | step t b rest t' hd hz hs ih =>
    rw [observeFrom_step hd hz hs]; exact ih (bounded_step ht hs) (seen + 1)

theorem bounded_perform (ht : t.Bounded) (a : Action) : (t.perform a).Bounded := by
  cases a with
  | observe bs => exact bounded_observeFrom ht 0 bs
  | reset => exact bounded_new

theorem bounded_run (ht : t.Bounded) (actions : List Action) : (t.run actions).Bounded := by
  induction actions generalizing t with
  | nil => exact ht
  | cons a actions ih => exact ih (bounded_perform ht a)

/-! ## Octets that are refused -/

/-- On the octet `b` the tracker finds a defect and stays as it is, whatever comes after it. -/
def Refuses (t : ChunkTracker) (b : UInt8) : Prop :=
  ∀ more, t.observe (b :: more) = (.error .chunkFraming, t)

theorem not_isDone_of_error {bs : Bytes} (h : t.observe bs = (.error e, t')) :
    ¬t.isDone = true := by
  intro hd
  rw [observe, observeFrom_done hd] at h
  cases h

/-- If the tracker finds a defect in the octet `b` alone, it `Refuses` it. -/
theorem refuses_of_observe (ht : t.Bounded) (h : t.observe [b] = (.error e, t')) :
    e = .chunkFraming ∧ t' = t ∧ t.Refuses b := by
  have hd := not_isDone_of_error h
  cases hs : t.step b with
  | none =>
    rw [observe, observeFrom_refused hd ht.undrained hs] at h
    cases h
    exact ⟨rfl, rfl, observeFrom_refused hd ht.undrained hs 0⟩
  | some t₁ =>
    rw [observe, observeFrom_step hd ht.undrained hs] at h
    by_cases hd₁ : t₁.isDone = true
    · rw [observeFrom_done hd₁] at h
      cases h
    · rw [observeFrom_nil hd₁] at h
      cases h

/-- If the tracker finds a defect in `bs`, then up to some octet `b` they are good, and where these
lead it `Refuses` that one. -/
theorem exists_refuses (ht : t.Bounded) {bs : Bytes} (h : t.observe bs = (.error e, t')) :
    e = .chunkFraming ∧ ∃ good b rest, bs = good ++ b :: rest ∧ t.observe good = (.ok none, t') ∧
    t'.Refuses b := by
  have hwaits := observeFrom_nil (not_isDone_of_error h) 0
  obtain ⟨good, b, rest, t₁, rfl, hgood, hrefused⟩ := observe_continues.exists_refused hwaits h
  have ht₁ : t₁.Bounded := by
    have ht₁ := bounded_perform ht (.observe good)
    rwa [perform, hgood] at ht₁
  have hb := hrefused []
  rw [observe_continues, hgood, Pieces.andThen_none, Pieces.later_eq_error] at hb
  obtain ⟨rfl, rfl, hrefuses⟩ := refuses_of_observe ht₁ hb
  exact ⟨rfl, good, b, rest, rfl, hgood, hrefuses⟩

/-- If `q` is observed without a defect, it stops short of the octet `b` that is refused. -/
theorem prefix_of_refuses {p q rest : Bytes} {t₁ : ChunkTracker} (hp : t.observe p = (.ok none, t'))
    (hb : t'.Refuses b)
    (hq : t.observe q = (.ok none, t₁)) (h : q <+: p ++ b :: rest) : q <+: p := by
  obtain hshort | ⟨more, rfl⟩ := Pieces.prefix_or_eq_append_cons h
  · exact hshort
  · rw [observe_continues, hp, Pieces.andThen_none, hb more] at hq
    cases hq

/-- The tracker `t` after any `actions`, observations that were refused among them.  Its size is
below `16 ^ t.digits` with at most sixteen digits, and so below `2 ^ 64`; in the data of a chunk
some are still to come.  On a digit that is taken, the arithmetic of words is that of numbers.  If
an observation of `bs` finds a defect, exactly one prefix of `bs` leads to the tracker that it
leaves and is followed by an octet that this one `Refuses`. -/
theorem run_bounded (actions : List Action) :
    let t := run {} actions
    (t.digits ≤ 16 ∧ t.size < 16 ^ t.digits ∧ ∀ n, t.phase = .data n → 0 < n) ∧
      (∀ b v t', t.phase = .size → Octet.hexValue? b = some v → t.step b = some t' →
        t.size * 16 + v ≤ 2 ^ 64 - 1 ∧
        (UInt64.ofNat t.size * 16 + UInt64.ofNat v).toNat = t'.size) ∧
      ∀ bs e t', t.observe bs = (.error e, t') →
        ∃! good, ∃ b rest, bs = good ++ b :: rest ∧ t.observe good = (.ok none, t') ∧
          ∀ more, t'.observe (b :: more) = (.error e, t') := by
  intro t
  have ht : t.Bounded := bounded_run bounded_new actions
  refine ⟨⟨ht.digits_le, ht.size_lt, fun n hn => ?_⟩, fun b v t' hp hv hs => ?_,
    fun bs e t' h => ?_⟩
  · refine Nat.pos_of_ne_zero fun hz => ht.undrained (isDrained_iff.2 ?_)
    rw [hn, hz]
  · have hsize : t'.size = t.size * 16 + v := size_of_step hp hv hs
    have hlt : t.size * 16 + v < 2 ^ 64 := hsize ▸ (bounded_step ht hs).size_lt_word
    exact ⟨Nat.le_sub_one_of_lt hlt, by rw [hsize, toNat_mul_add hlt]⟩
  · obtain ⟨rfl, good, b, rest, rfl, hgood, hrefuses⟩ := exists_refuses ht h
    refine ⟨good, ⟨b, rest, rfl, hgood, hrefuses⟩, ?_⟩
    rintro other ⟨c, rest', hcut, hother, hrefuses'⟩
    have hle : other <+: good := prefix_of_refuses hgood hrefuses hother ⟨c :: rest', hcut.symm⟩
    have hge : good <+: other := prefix_of_refuses hother hrefuses' hgood ⟨b :: rest, hcut⟩
    exact hle.eq_of_length_le hge.length_le

/-- An observation of `3\r\nabcX` that is refused, a reset, and fifteen of the largest digits. -/
def almostFull : List Action :=
  [.observe [51, 13, 10, 97, 98, 99, 88], .reset, .observe (List.replicate 15 102)]

/-- The size of a chunk in sixteen of the largest digits. -/
def full : ChunkTracker := { phase := .size, size := 2 ^ 64 - 1, digits := 16 }

/-- The sixteenth digit fills the word.  What comes after it is no digit and is refused, and `z\r\n`
before a chunk of two octets is refused at its first octet. -/
theorem run_bounded_almostFull :
    ((run {} [.observe [122, 13, 10], .observe [50, 13, 10]]).phase = .data 2 ∧ 0 < 2) ∧
      ((run {} almostFull).phase = .size ∧ Octet.hexValue? 102 = some 15 ∧
        (run {} almostFull).step 102 = some full ∧
        (run {} almostFull).size * 16 + 15 ≤ 2 ^ 64 - 1) ∧
      (run {} almostFull).observe [102, 103, 102] = (.error .chunkFraming, full) ∧
        ∃! good, ∃ b rest, [102, 103, 102] = good ++ b :: rest ∧
          (run {} almostFull).observe good = (.ok none, full) ∧
            ∀ more, full.observe (b :: more) = (.error .chunkFraming, full) := by
  have hdata : (run {} [.observe [122, 13, 10], .observe [50, 13, 10]]).phase = .data 2 := by
    decide +kernel
  have hsize : (run {} almostFull).phase = .size := by decide +kernel
  have hdigit : Octet.hexValue? 102 = some 15 := by decide
  have hstep : (run {} almostFull).step 102 = some full := by decide +kernel
  have hrefused : (run {} almostFull).observe [102, 103, 102] = (.error .chunkFraming, full) := by
    decide +kernel
  obtain ⟨-, hword, hcut⟩ := run_bounded almostFull
  exact ⟨⟨hdata, (run_bounded _).1.2.2 2 hdata⟩,
    ⟨hsize, hdigit, hstep, (hword 102 15 full hsize hdigit hstep).1⟩,
    hrefused, hcut _ _ _ hrefused⟩

end ReverseProxy.Message.ChunkTracker
