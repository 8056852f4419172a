import ReverseProxy.Proofs.Message.ChunkPieces
import ReverseProxy.Proofs.Text.Lines

/-!
# What a chunked body is

`ChunkedBody` says which octets are a chunked body, by its parts and without a reader: chunks, each
with a line that gives its size, a line with the size zero, trailer lines and an empty line.  What a
`ChunkTracker` takes for a body is one (`ChunkTracker.chunkedBody_of_observe`).  The invariant that
carries the proof is `ChunkTracker.Completes`: which octets make a body of what the tracker has read
so far.
-/

namespace ReverseProxy.Message

open Octet (IsLineEnd)

namespace Chunked

/-- The number that hexadecimal digits stand for, if they come after digits that stand for `n`. -/
def sizeFrom (n : Nat) (ds : Bytes) : Nat :=
  ds.foldl (fun n b => n * 16 + (Octet.hexValue? b).getD 0) n

/-- The octets `x` may stand between the digits and the end of a size line. -/
def IsExtension (x : Bytes) : Prop :=
  x = [] ∨ ∃ c xs, x = c :: xs ∧ (c = Octet.semicolon ∨ Octet.isBlank c = true) ∧
    ∀ b ∈ xs, Octet.isEol b = false

/-- A line that gives the size `n` of a chunk, in one to sixteen hexadecimal digits. -/
inductive SizeLine : Nat → Bytes → Prop
  | intro (ds x e : Bytes) :
      ds ≠ [] → ds.length ≤ ChunkTracker.maxDigits → (∀ b ∈ ds, (Octet.hexValue? b).isSome) →
      IsExtension x → IsLineEnd e → SizeLine (sizeFrom 0 ds) (ds ++ (x ++ e))

/-- Trailer lines, none of them empty, and the empty line after them. -/
inductive Trailer : Bytes → Prop
  /-- The empty line. -/
  | last (e : Bytes) : IsLineEnd e → Trailer e
  /-- A line, and what comes after. -/
  | line (c : UInt8) (xs rest : Bytes) : Octet.isEol c = false → Octet.lf ∉ xs → Trailer rest →
      Trailer (c :: (xs ++ Octet.lf :: rest))

end Chunked

open Chunked

/-- A chunked body. -/
inductive ChunkedBody : Bytes → Prop
  /-- The size zero, and the trailer. -/
  | last {line trailer : Bytes} : SizeLine 0 line → Trailer trailer → ChunkedBody (line ++ trailer)
  /-- A chunk, and what comes after. -/
  | chunk {n : Nat} {line data e rest : Bytes} :
      SizeLine n line → 0 < n → data.length = n → IsLineEnd e →
      ChunkedBody rest → ChunkedBody (line ++ (data ++ (e ++ rest)))

namespace ChunkTracker

/-- The octets go on after `n` octets of data still to come. -/
def CompletesData (n : Nat) (w : Bytes) : Prop :=
  ∃ data e rest, w = data ++ (e ++ rest) ∧ data.length = n ∧ IsLineEnd e ∧ ChunkedBody rest

/-- The octets go on after a line with the size `n`. -/
def CompletesSize (n : Nat) (w : Bytes) : Prop := if n = 0 then Trailer w else CompletesData n w

/-- The octets `w` make a body of what the tracker `t` has read. -/
def Completes (t : ChunkTracker) (w : Bytes) : Prop :=
  match t.phase with
  | .size => ∃ ds x e rest, w = ds ++ (x ++ (e ++ rest)) ∧ 0 < t.digits + ds.length ∧
      t.digits + ds.length ≤ maxDigits ∧ (∀ b ∈ ds, (Octet.hexValue? b).isSome) ∧
      IsExtension x ∧ IsLineEnd e ∧
      CompletesSize (sizeFrom t.size ds) rest
  | .extension =>
      0 < t.digits ∧ ∃ xs e rest, w = xs ++ (e ++ rest) ∧ (∀ b ∈ xs, Octet.isEol b = false) ∧
      IsLineEnd e ∧ CompletesSize t.size rest
  | .sizeLf => 0 < t.digits ∧ ∃ rest, w = Octet.lf :: rest ∧ CompletesSize t.size rest
  | .data n => CompletesData n w
  | .dataEnd => CompletesData 0 w
  | .dataLf => ∃ rest, w = Octet.lf :: rest ∧ ChunkedBody rest
  | .trailerStart => Trailer w
  | .trailer | .trailerLf => ∃ xs rest, w = xs ++ Octet.lf :: rest ∧ Octet.lf ∉ xs ∧ Trailer rest
  | .endLf => w = [Octet.lf]
  | .done => w = []

/-! ## What a step can do -/

/-- The steps of a tracker `t` on the octet `b`, by what they are for. -/
inductive Steps (t : ChunkTracker) (b : UInt8) : ChunkTracker → Prop
  /-- A digit of a size. -/
  | digit (v : Nat) : t.phase = .size → Octet.hexValue? b = some v → t.digits < maxDigits →
      Steps t b { phase := .size, size := t.size * 16 + v, digits := t.digits + 1 }
  /-- The first octet of an extension. -/
  | extension : t.phase = .size → b = Octet.semicolon ∨ Octet.isBlank b = true →
      Steps t b (t.moveTo .extension)
  /-- Another octet of an extension. -/
  | extend : t.phase = .extension → Octet.isEol b = false → Steps t b t
  | sizeCr : t.phase = .size ∨ t.phase = .extension → b = Octet.cr → Steps t b (t.moveTo .sizeLf)
  | sizeEnd (t' : ChunkTracker) :
      t.phase = .size ∨ t.phase = .extension ∨ t.phase = .sizeLf → b = Octet.lf →
      t.endSize = some t' → Steps t b t'
  /-- An octet of the data, but the last. -/
  | data (n : Nat) : t.phase = .data (n + 2) → Steps t b (t.moveTo (.data (n + 1)))
  /-- The last octet of the data. -/
  | lastData (n : Nat) : t.phase = .data n → n ≤ 1 → Steps t b (t.moveTo .dataEnd)
  | dataCr : t.phase = .dataEnd → b = Octet.cr → Steps t b (t.moveTo .dataLf)
  | dataEnd : t.phase = .dataEnd ∨ t.phase = .dataLf → b = Octet.lf → Steps t b (t.moveTo .size)
  /-- The first octet of a trailer line. -/
  | trailer : t.phase = .trailerStart → Octet.isEol b = false → Steps t b (t.moveTo .trailer)
  /-- Another octet of a trailer line. -/
  | trail : t.phase = .trailer ∨ t.phase = .trailerLf → b ≠ Octet.lf →
      ∀ p, p = .trailer ∨ p = .trailerLf →
      Steps t b (t.moveTo p)
  | trailerEnd :
      t.phase = .trailer ∨ t.phase = .trailerLf → b = Octet.lf → Steps t b (t.moveTo .trailerStart)
  | endCr : t.phase = .trailerStart → b = Octet.cr → Steps t b (t.moveTo .endLf)
  | bodyEnd : t.phase = .trailerStart ∨ t.phase = .endLf → b = Octet.lf → Steps t b (t.moveTo .done)
  | rest : t.phase = .done → Steps t b t

theorem isEol_eq_false {b : UInt8} (h₁ : b ≠ Octet.cr) (h₂ : b ≠ Octet.lf) :
    Octet.isEol b = false := by
  simp [Octet.isEol, h₁, h₂]

theorem moveTo_phase {t : ChunkTracker} {p : ChunkPhase} (h : t.phase = p) : t.moveTo p = t := by
  subst h
  rfl

/-- A `step` that succeeds is one of `Steps`. -/
theorem steps_of_step {t t' : ChunkTracker} {b : UInt8} (hs : t.step b = some t') :
    Steps t b t' := by
  cases hp : t.phase with
  | size =>
    simp only [step, hp] at hs
    split at hs
    · rename_i v hv
      split at hs
      · rename_i hd
        cases hs
        exact .digit v hp hv hd
      · cases hs
    split at hs
    · rename_i ho
      cases hs
      exact .extension hp ho
    split at hs
    · rename_i hc
      cases hs
      exact .sizeCr (.inl hp) hc
    split at hs
    · rename_i hl
      exact .sizeEnd t' (.inl hp) hl hs
    · cases hs
  | extension =>
    simp only [step, hp] at hs
    split at hs
    · rename_i hc
      cases hs
      exact .sizeCr (.inr hp) hc
    rename_i hc
    split at hs
    · rename_i hl
      exact .sizeEnd t' (.inr (.inl hp)) hl hs
    · rename_i hl
      cases hs
      exact .extend hp (isEol_eq_false hc hl)
  | sizeLf =>
    simp only [step, hp] at hs
    split at hs
    · rename_i hl
      exact .sizeEnd t' (.inr (.inr hp)) hl hs
    · cases hs
  | data n =>
    simp only [step, hp, Option.some.injEq] at hs
    subst hs
    split
    · rename_i hn
      exact .lastData n hp hn
    · rename_i hn
      obtain ⟨m, rfl⟩ := Nat.exists_eq_add_of_lt (Nat.lt_of_not_le hn)
      have hm : 1 + m + 1 = m + 2 := by omega
      rw [hm] at hp ⊢
      exact .data m hp
  | dataEnd =>
    simp only [step, hp] at hs
    split at hs
    · rename_i hc
      cases hs
      exact .dataCr hp hc
    split at hs
    · rename_i hl
      cases hs
      exact .dataEnd (.inl hp) hl
    · cases hs
  | dataLf =>
    simp only [step, hp] at hs
    split at hs
    · rename_i hl
      cases hs
      exact .dataEnd (.inr hp) hl
    · cases hs
  | trailerStart =>
    simp only [step, hp] at hs
    split at hs
    · rename_i hc
      cases hs
      exact .endCr hp hc
    rename_i hc
    split at hs
    · rename_i hl
      cases hs
      exact .bodyEnd (.inl hp) hl
    · rename_i hl
      cases hs
      exact .trailer hp (isEol_eq_false hc hl)
  | trailer =>
    simp only [step, hp] at hs
    split at hs
    · rename_i hc
      cases hs
      exact .trail (.inl hp) (by rw [hc]; decide) _ (.inr rfl)
    split at hs
    · rename_i hl
      cases hs
      exact .trailerEnd (.inl hp) hl
    · rename_i hl
      cases hs
      rw [← moveTo_phase hp]
      exact .trail (.inl rfl) hl _ (.inl rfl)
  | trailerLf =>
    simp only [step, hp, Option.some.injEq] at hs
    subst hs
    split
    · rename_i hl
      exact .trailerEnd (.inr hp) hl
    · rename_i hl
      exact .trail (.inr hp) hl _ (.inl rfl)
  | endLf =>
    simp only [step, hp] at hs
    split at hs
    · rename_i hl
      cases hs
      exact .bodyEnd (.inr hp) hl
    · cases hs
  | done =>
    simp only [step, hp, Option.some.injEq] at hs
    subst hs
    exact .rest hp

/-- The place belongs to a size line. -/
def inSizeLine : ChunkPhase → Bool
  | .size | .extension | .sizeLf => true
  | _ => false

/-- The invariant of a tracker: a size line has at most `maxDigits` digits, outside of one nothing
is known of a size, and in the data of a chunk there is something to come. -/
structure WellPlaced (t : ChunkTracker) : Prop where
  digits_le : t.digits ≤ maxDigits
  fresh : inSizeLine t.phase = false → t.size = 0 ∧ t.digits = 0
  undrained : ¬t.isDrained = true

theorem wellPlaced_new : WellPlaced {} := ⟨Nat.zero_le _, fun _ => ⟨rfl, rfl⟩, by decide⟩

/-- The tracker is `WellPlaced` after a size line has ended. -/
theorem wellPlaced_of_endSize {t t' : ChunkTracker} (h : t.endSize = some t') : t'.WellPlaced := by
  unfold endSize at h
  split at h
  · cases h
  · cases h
    refine ⟨Nat.zero_le _, fun _ => ⟨rfl, rfl⟩, ?_⟩
    rw [isDrained_iff]
    split <;> simp_all

theorem wellPlaced_step {t t' : ChunkTracker} {b : UInt8} (hw : t.WellPlaced)
    (hs : t.step b = some t') :
    t'.WellPlaced := by
  obtain ⟨hd, hf, hz⟩ := hw
  cases steps_of_step hs with
  | digit v hp _ hlt => exact ⟨hlt, nofun, nofun⟩
  | extension | sizeCr => exact ⟨hd, nofun, nofun⟩
  | sizeEnd _ _ _ he => exact wellPlaced_of_endSize he
  | extend | rest => exact ⟨hd, hf, hz⟩
  | data n hp | lastData n hp | dataCr hp | trailer hp | endCr hp =>
    exact ⟨hd, fun _ => hf (by rw [hp]; rfl), by simp [isDrained_iff]⟩
  | dataEnd hp | trailerEnd hp | bodyEnd hp =>
    exact ⟨hd, fun _ => hf (by rcases hp with hp | hp <;> rw [hp] <;> rfl), by simp [isDrained_iff]⟩
  | trail hp _ p hp' =>
    refine ⟨hd, fun _ => hf (by rcases hp with hp | hp <;> rw [hp] <;> rfl), ?_⟩
    rcases hp' with rfl | rfl <;> simp [isDrained_iff]

/-! ## One step -/

theorem completesData_cons {n : Nat} {w : Bytes} (b : UInt8) (h : CompletesData n w) :
    CompletesData (n + 1) (b :: w) := by
  obtain ⟨data, e, rest, rfl, hn, he, hr⟩ := h
  exact ⟨b :: data, e, rest, rfl, by rw [List.length_cons, hn], he, hr⟩

/-- After a size line with the size `n` the octets have to go on accordingly. -/
theorem completesSize_of_endSize {t t' : ChunkTracker} {w : Bytes} (h : t.endSize = some t')
    (hc : t'.Completes w) :
    0 < t.digits ∧ CompletesSize t.size w := by
  unfold endSize at h
  split at h
  · cases h
  · rename_i hd
    cases h
    refine ⟨Nat.pos_of_ne_zero hd, ?_⟩
    unfold CompletesSize
    split <;> simp_all [Completes]

/-- If nothing of a size line has been read, the octets that complete the body are one. -/
theorem chunkedBody_of_completes {t : ChunkTracker} {w : Bytes} (hp : t.phase = .size)
    (h0 : t.size = 0 ∧ t.digits = 0) (hc : t.Completes w) : ChunkedBody w := by
  rw [Completes, hp] at hc
  obtain ⟨ds, x, e, rest, rfl, hpos, hmax, hhex, hx, he, hr⟩ := hc
  rw [h0.2, Nat.zero_add] at hpos hmax
  rw [h0.1] at hr
  have line := SizeLine.intro ds x e (List.length_pos_iff.1 hpos) hmax hhex hx he
  have hassoc : ds ++ (x ++ (e ++ rest)) = ds ++ (x ++ e) ++ rest := by
    simp only [List.append_assoc]
  rw [hassoc]
  unfold CompletesSize at hr
  split at hr
  · rename_i hz
    rw [hz] at line
    exact .last line hr
  · rename_i hz
    obtain ⟨data, e', rest', rfl, hn, he', hr'⟩ := hr
    exact .chunk line (Nat.pos_of_ne_zero hz) hn he' hr'

/-- If `w` completes the body after a step on `b`, then `b :: w` completes it before. -/
theorem completes_of_step {t t' : ChunkTracker} {b : UInt8} {w : Bytes} (hw : t.WellPlaced)
    (hd : ¬t.isDone = true) (hs : t.step b = some t') (hc : t'.Completes w) :
    t.Completes (b :: w) := by
  cases steps_of_step hs with
  | digit v hp hv hlt =>
    obtain ⟨ds, x, e, rest, rfl, hpos, hmax, hhex, hx, he, hr⟩ := hc
    have hsize : sizeFrom t.size (b :: ds) = sizeFrom (t.size * 16 + v) ds := by simp [sizeFrom, hv]
    rw [Completes, hp]
    refine ⟨b :: ds, x, e, rest, rfl, Nat.succ_pos _, ?_, ?_, hx, he, hsize ▸ hr⟩
    · simp only [List.length_cons] at hmax ⊢
      omega
    · intro c hc
      rcases List.mem_cons.1 hc with rfl | hc
      · exact hv ▸ rfl
      · exact hhex c hc
  | extension hp hb =>
    obtain ⟨hpos, xs, e, rest, rfl, hxs, he, hr⟩ := hc
    rw [Completes, hp]
    exact ⟨[], b :: xs, e, rest, rfl, hpos, hw.digits_le, by simp,
      .inr ⟨b, xs, rfl, hb, hxs⟩, he, hr⟩
  | extend hp hb =>
    rw [Completes, hp] at hc ⊢
    obtain ⟨hpos, xs, e, rest, rfl, hxs, he, hr⟩ := hc
    exact ⟨hpos, b :: xs, e, rest, rfl, List.forall_mem_cons.2 ⟨hb, hxs⟩, he, hr⟩
  | sizeCr hp hb =>
    obtain ⟨hpos, rest, rfl, hr⟩ := hc
    subst hb
    rcases hp with hp | hp <;> rw [Completes, hp]
    · exact ⟨[], [], [Octet.cr, Octet.lf], rest, rfl, hpos, hw.digits_le,
        by simp, .inl rfl, .inr rfl, hr⟩
    · exact ⟨hpos, [], [Octet.cr, Octet.lf], rest, rfl, by simp, .inr rfl, hr⟩
  | sizeEnd _ hp hb hend =>
    obtain ⟨hpos, hr⟩ := completesSize_of_endSize hend hc
    subst hb
    rcases hp with hp | hp | hp <;> rw [Completes, hp]
    · exact ⟨[], [], [Octet.lf], w, rfl, hpos, hw.digits_le, by simp, .inl rfl, .inl rfl, hr⟩
    · exact ⟨hpos, [], [Octet.lf], w, rfl, by simp, .inl rfl, hr⟩
    · exact ⟨hpos, w, rfl, hr⟩
  | data n hp =>
    rw [Completes, hp]
    exact completesData_cons b hc
  | lastData n hp hn =>
    have hn : n = 1 := by
      have : n ≠ 0 := fun h => hw.undrained (isDrained_iff.2 (h ▸ hp))
      omega
    rw [Completes, hp, hn]
    exact completesData_cons b hc
  | dataCr hp hb =>
    obtain ⟨rest, rfl, hr⟩ := hc
    rw [Completes, hp, hb]
    exact ⟨[], [Octet.cr, Octet.lf], rest, rfl, rfl, .inr rfl, hr⟩
  | dataEnd hp hb =>
    have h0 : t.size = 0 ∧ t.digits = 0 := hw.fresh (by rcases hp with hp | hp <;> rw [hp] <;> rfl)
    have hr := chunkedBody_of_completes (phase_moveTo t _) h0 hc
    subst hb
    rcases hp with hp | hp <;> rw [Completes, hp]
    · exact ⟨[], [Octet.lf], w, rfl, rfl, .inl rfl, hr⟩
    · exact ⟨w, rfl, hr⟩
  | trailer hp hb =>
    obtain ⟨xs, rest, rfl, hxs, hr⟩ := hc
    rw [Completes, hp]
    exact .line b xs rest hb hxs hr
  | trail hp hb p hp' =>
    have hc : ∃ xs rest, w = xs ++ Octet.lf :: rest ∧ Octet.lf ∉ xs ∧ Trailer rest := by
      rcases hp' with rfl | rfl <;> exact hc
    obtain ⟨xs, rest, rfl, hxs, hr⟩ := hc
    have hb' : Octet.lf ∉ b :: xs := by simp [hxs, Ne.symm hb]
    rcases hp with hp | hp <;> rw [Completes, hp] <;> exact ⟨b :: xs, rest, rfl, hb', hr⟩
  | trailerEnd hp hb =>
    subst hb
    rcases hp with hp | hp <;> rw [Completes, hp] <;> exact ⟨[], w, rfl, by simp, hc⟩
  | endCr hp hb =>
    obtain rfl : w = [Octet.lf] := hc
    rw [Completes, hp, hb]
    exact .last _ (.inr rfl)
  | bodyEnd hp hb =>
    obtain rfl : w = [] := hc
    subst hb
    rcases hp with hp | hp <;> rw [Completes, hp]
    exact .last _ (.inl rfl)
  | rest hp => exact absurd (isDone_iff.2 hp) hd

/-! ## A whole body -/

/-- The octets that are observed up to the end of the body complete it. -/
theorem completes_of_observeFrom {seen n : Nat} {t t' : ChunkTracker} {bs : Bytes}
    (hw : t.WellPlaced)
    (h : t.observeFrom seen bs = (.ok (some n), t')) : t.Completes (bs.take (n - seen)) := by
  induction t, bs using observe_induction generalizing seen with
  | nil t hd => rw [observeFrom_nil hd] at h; cases h
  | done t bs hd =>
    rw [observeFrom_done hd] at h
    cases h
    rw [Nat.sub_self, List.take_zero, Completes, isDone_iff.1 hd]
  | drained t b rest hz => exact absurd hz hw.undrained
  | refused t b rest hd hz hs => rw [observeFrom_refused hd hz hs] at h; cases h
  | step t b rest t₁ hd hz hs ih =>
    rw [observeFrom_step hd hz hs] at h
    have hseen := (le_length_of_observeFrom h).1
    have htake : (b :: rest).take (n - seen) = b :: rest.take (n - (seen + 1)) := by
      have hn : n - seen = n - (seen + 1) + 1 := by omega
      rw [hn, List.take_succ_cons]
    rw [htake]
    exact completes_of_step hw hd hs (ih (wellPlaced_step hw hs) h)

/-- The octets that a new tracker takes for a body are a `ChunkedBody`. -/
theorem chunkedBody_of_observe {n : Nat} {t : ChunkTracker} {bs : Bytes}
    (h : observe {} bs = (.ok (some n), t)) : ChunkedBody (bs.take n) :=
  chunkedBody_of_completes rfl ⟨rfl, rfl⟩ (completes_of_observeFrom wellPlaced_new h)

end ChunkTracker

end ReverseProxy.Message
