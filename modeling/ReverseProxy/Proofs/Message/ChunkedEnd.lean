import ReverseProxy.Proofs.Message.ChunkGrammar

/-!
# Where a chunked body ends

A `ChunkTracker` finds the end of every chunked body, and of nothing else
(`ChunkTracker.observe_finds_end`).  That what it takes for a body is one,
`ChunkTracker.completes_of_step` has shown.  The other half goes the other way along the same
invariant: octets that complete the body of a tracker do not fit by chance, but the tracker takes a
step for the first of them, and the others complete its body after that
(`ChunkTracker.step_of_completes`).
-/

namespace ReverseProxy.Message

open Octet (IsLineEnd)
open Chunked

namespace ChunkTracker

variable {t : ChunkTracker} {b : UInt8} {w : Bytes}

/-! ## The end of a size line -/

/-- A `ChunkedBody` completes a size line of which nothing has been read. -/
theorem completes_of_chunkedBody (hp : t.phase = .size) (h0 : t.size = 0 ∧ t.digits = 0)
    (h : ChunkedBody w) :
    t.Completes w := by
  rw [Completes, hp]
  have size_line : ∀ {n : Nat} {line rest : Bytes}, SizeLine n line → CompletesSize n rest →
      ∃ ds x e rest', line ++ rest = ds ++ (x ++ (e ++ rest')) ∧ 0 < t.digits + ds.length ∧
        t.digits + ds.length ≤ maxDigits ∧ (∀ b ∈ ds, (Octet.hexValue? b).isSome) ∧
        IsExtension x ∧ IsLineEnd e ∧
        CompletesSize (sizeFrom t.size ds) rest' := by
    rintro n line rest ⟨ds, x, e, hne, hmax, hhex, hx, he⟩ hrest
    refine ⟨ds, x, e, rest, by simp only [List.append_assoc], ?_, ?_, hhex, hx, he, h0.1 ▸ hrest⟩
    · have := List.length_pos_iff.2 hne
      omega
    · omega
  cases h with
  | last hline htrailer => exact size_line hline (by simpa [CompletesSize] using htrailer)
  | chunk hline hn hlen he hrest =>
    refine size_line hline ?_
    rw [CompletesSize, if_neg (Nat.ne_of_gt hn)]
    exact ⟨_, _, _, rfl, hlen, he, hrest⟩

/-- A size line with a digit can end, and what has to come after its size completes the body
then. -/
theorem endSize_of_completesSize (hd : 0 < t.digits) (h : CompletesSize t.size w) :
    ∃ t', t.endSize = some t' ∧ t'.Completes w := by
  refine ⟨_, if_neg (Nat.ne_of_gt hd), ?_⟩
  unfold CompletesSize at h
  by_cases hz : t.size = 0
  · simpa [Completes, hz] using h
  · simpa [Completes, hz] using h

/-! ## One octet -/

theorem hexValue?_of_extension (hb : b = Octet.semicolon ∨ Octet.isBlank b = true) :
    Octet.hexValue? b = none := by
  rcases hb with rfl | hb
  · decide
  · simp only [Octet.isBlank, Bool.or_eq_true, beq_iff_eq] at hb
    rcases hb with rfl | rfl <;> decide

/-- A line feed ends a size line. -/
theorem step_lf_of_size (hp : t.phase = .size ∨ t.phase = .extension) :
    t.step Octet.lf = t.endSize := by
  rcases hp with hp | hp
  · have hlf : Octet.hexValue? Octet.lf = none := by decide
    simp only [step, hp, hlf]
    rw [if_neg (by decide), if_neg (by decide), if_pos trivial]
  · simp only [step, hp]
    rw [if_neg (by decide), if_pos trivial]

/-- A carriage return comes before the line feed that ends a size line. -/
theorem step_cr_of_size (hp : t.phase = .size ∨ t.phase = .extension) :
    t.step Octet.cr = some (t.moveTo .sizeLf) := by
  rcases hp with hp | hp
  · have hcr : Octet.hexValue? Octet.cr = none := by decide
    simp only [step, hp, hcr]
    rw [if_neg (by decide), if_pos trivial]
  · simp only [step, hp]
    rw [if_pos trivial]

/-- The end `e` of a size line is read, or the first octet of it. -/
theorem step_of_sizeEnd {e rest : Bytes} (hp : t.phase = .size ∨ t.phase = .extension)
    (hd : 0 < t.digits)
    (he : IsLineEnd e) (hw : b :: w = e ++ rest) (hrest : CompletesSize t.size rest) :
    ∃ t', t.step b = some t' ∧ t'.Completes w := by
  rcases he.eq_or_eq_of_cons hw with ⟨rfl, rfl⟩ | ⟨rfl, rfl⟩
  · obtain ⟨t', hend, hc⟩ := endSize_of_completesSize hd hrest
    exact ⟨t', (step_lf_of_size hp).trans hend, hc⟩
  · exact ⟨_, step_cr_of_size hp, hd, rest, rfl, hrest⟩

/-- If `b :: w` completes the body, `b` fits, and `w` completes it after that. -/
theorem step_of_completes (hw : t.WellPlaced) (hd : ¬t.isDone = true) (hc : t.Completes (b :: w)) :
    ∃ t', t.step b = some t' ∧ t'.Completes w := by
  cases hp : t.phase with
  | size =>
    rw [Completes, hp] at hc
    obtain ⟨ds, x, e, rest, heq, hpos, hmax, hhex, hx, he, hr⟩ := hc
    cases ds with
    | nil =>
      rcases hx with rfl | ⟨c, xs, rfl, hc, hxs⟩
      · exact step_of_sizeEnd (.inl hp) hpos he heq hr
      · obtain ⟨rfl, rfl⟩ := List.cons.inj heq
        refine ⟨t.moveTo .extension, ?_, hpos, xs, e, rest, rfl, hxs, he, hr⟩
        simp only [step, hp, hexValue?_of_extension hc, if_pos hc]
    | cons d ds =>
      obtain ⟨rfl, rfl⟩ := List.cons.inj heq
      obtain ⟨hv, hhex⟩ := List.forall_mem_cons.1 hhex
      obtain ⟨v, hv⟩ := Option.isSome_iff_exists.1 hv
      rw [List.length_cons] at hmax
      refine ⟨{ t with size := t.size * 16 + v, digits := t.digits + 1 }, ?_, ?_⟩
      · simp only [step, hp, hv]
        exact if_pos (by omega)
      · rw [Completes, hp]
        refine ⟨ds, x, e, rest, rfl, by simp only; omega, by simp only; omega, hhex, hx, he, ?_⟩
        simpa [sizeFrom, hv] using hr
  | extension =>
    rw [Completes, hp] at hc
    obtain ⟨hpos, xs, e, rest, heq, hxs, he, hr⟩ := hc
    cases xs with
    | nil => exact step_of_sizeEnd (.inr hp) hpos he heq hr
    | cons c xs =>
      obtain ⟨rfl, rfl⟩ := List.cons.inj heq
      obtain ⟨hb, hxs⟩ := List.forall_mem_cons.1 hxs
      refine ⟨t, ?_, ?_⟩
      · have hcr : b ≠ Octet.cr := by rintro rfl; exact absurd hb (by decide)
        have hlf : b ≠ Octet.lf := by rintro rfl; exact absurd hb (by decide)
        simp only [step, hp, if_neg hcr, if_neg hlf]
      · rw [Completes, hp]
        exact ⟨hpos, xs, e, rest, rfl, hxs, he, hr⟩
  | sizeLf =>
    rw [Completes, hp] at hc
    obtain ⟨hpos, rest, heq, hr⟩ := hc
    obtain ⟨rfl, rfl⟩ := List.cons.inj heq
    obtain ⟨t', hend, hc⟩ := endSize_of_completesSize hpos hr
    exact ⟨t', by simp only [step, hp, if_true, hend], hc⟩
  | data n =>
    rw [Completes, hp] at hc
    obtain ⟨data, e, rest, heq, hn, he, hr⟩ := hc
    have hn0 : n ≠ 0 := fun h => hw.undrained (isDrained_iff.2 (h ▸ hp))
    cases data with
    | nil => exact absurd hn.symm hn0
    | cons d data =>
      obtain ⟨rfl, rfl⟩ := List.cons.inj heq
      rw [List.length_cons] at hn
      refine ⟨_, by rw [step, hp], ?_⟩
      by_cases h1 : n ≤ 1
      · rw [if_pos h1]
        exact ⟨data, e, rest, rfl, by omega, he, hr⟩
      · rw [if_neg h1]
        exact ⟨data, e, rest, rfl, by omega, he, hr⟩
  | dataEnd =>
    rw [Completes, hp] at hc
    obtain ⟨data, e, rest, heq, hn, he, hr⟩ := hc
    obtain rfl := List.eq_nil_of_length_eq_zero hn
    have h0 := hw.fresh (by rw [hp]; rfl)
    rcases he.eq_or_eq_of_cons heq with ⟨rfl, rfl⟩ | ⟨rfl, rfl⟩
    · exact ⟨t.moveTo .size, by simp [step, hp, Octet.lf, Octet.cr],
        completes_of_chunkedBody rfl h0 hr⟩
    · exact ⟨t.moveTo .dataLf, by simp [step, hp], rest, rfl, hr⟩
  | dataLf =>
    rw [Completes, hp] at hc
    obtain ⟨rest, heq, hr⟩ := hc
    obtain ⟨rfl, rfl⟩ := List.cons.inj heq
    have h0 := hw.fresh (by rw [hp]; rfl)
    exact ⟨t.moveTo .size, by simp [step, hp], completes_of_chunkedBody rfl h0 hr⟩
  | trailerStart =>
    rw [Completes, hp] at hc
    generalize hbw : b :: w = bw at hc
    cases hc with
    | last _ he =>
      rcases he.eq_or_eq_of_cons (hbw.trans (List.append_nil _).symm) with ⟨rfl, rfl⟩ | ⟨rfl, rfl⟩
      · exact ⟨t.moveTo .done, by simp [step, hp, Octet.lf, Octet.cr], rfl⟩
      · exact ⟨t.moveTo .endLf, by simp [step, hp], rfl⟩
    | line c xs rest hc hxs hrest =>
      obtain ⟨rfl, rfl⟩ := List.cons.inj hbw
      refine ⟨t.moveTo .trailer, ?_, xs, rest, rfl, hxs, hrest⟩
      have hcr : b ≠ Octet.cr := by rintro rfl; exact absurd hc (by decide)
      have hlf : b ≠ Octet.lf := by rintro rfl; exact absurd hc (by decide)
      simp only [step, hp, if_neg hcr, if_neg hlf]
  | trailer =>
    rw [Completes, hp] at hc
    obtain ⟨xs, rest, heq, hxs, hr⟩ := hc
    cases xs with
    | nil =>
      obtain ⟨rfl, rfl⟩ := List.cons.inj heq
      exact ⟨t.moveTo .trailerStart, by simp [step, hp, Octet.lf, Octet.cr], hr⟩
    | cons c xs =>
      obtain ⟨rfl, rfl⟩ := List.cons.inj heq
      rw [List.mem_cons, not_or] at hxs
      have hlf : b ≠ Octet.lf := Ne.symm hxs.1
      by_cases hcr : b = Octet.cr
      · exact ⟨t.moveTo .trailerLf, by simp only [step, hp, if_pos hcr], xs, rest, rfl, hxs.2, hr⟩
      · refine ⟨t, by simp only [step, hp, if_neg hcr, if_neg hlf], ?_⟩
        rw [Completes, hp]
        exact ⟨xs, rest, rfl, hxs.2, hr⟩
  | trailerLf =>
    rw [Completes, hp] at hc
    obtain ⟨xs, rest, heq, hxs, hr⟩ := hc
    refine ⟨_, by rw [step, hp], ?_⟩
    cases xs with
    | nil =>
      obtain ⟨rfl, rfl⟩ := List.cons.inj heq
      rw [if_pos rfl]
      exact hr
    | cons c xs =>
      obtain ⟨rfl, rfl⟩ := List.cons.inj heq
      rw [List.mem_cons, not_or] at hxs
      rw [if_neg (Ne.symm hxs.1)]
      exact ⟨xs, rest, rfl, hxs.2, hr⟩
  | endLf =>
    rw [Completes, hp] at hc
    obtain ⟨rfl, rfl⟩ := List.cons.inj hc
    exact ⟨t.moveTo .done, by simp [step, hp], rfl⟩
  | done => exact absurd (isDone_iff.2 hp) hd

/-- Only after the end of the body is nothing missing. -/
theorem isDone_of_completes_nil (hc : t.Completes []) : t.isDone = true := by
  rw [Completes] at hc
  cases hp : t.phase <;> rw [hp] at hc
  case done => exact isDone_iff.2 hp
  case size =>
    obtain ⟨ds, x, e, rest, heq, -, -, -, -, he, -⟩ := hc
    simp [he.ne_nil] at heq
  case extension =>
    obtain ⟨-, xs, e, rest, heq, -, he, -⟩ := hc
    simp [he.ne_nil] at heq
  case data | dataEnd =>
    obtain ⟨data, e, rest, heq, -, he, -⟩ := hc
    simp [he.ne_nil] at heq
  case trailerStart =>
    cases hc with
    | last _ he => exact absurd rfl he.ne_nil
  case trailer | trailerLf =>
    obtain ⟨xs, rest, heq, -, -⟩ := hc
    simp at heq
  case sizeLf => obtain ⟨-, rest, heq, -⟩ := hc; cases heq
  case dataLf => obtain ⟨rest, heq, -⟩ := hc; cases heq
  case endLf => cases hc

/-! ## A whole body -/

/-- The tracker takes all octets `w` that complete its body, and finds the end after them. -/
theorem observeFrom_of_completes (hw : t.WellPlaced) (hc : t.Completes w)
    (seen : Nat) (rest : Bytes) :
    ∃ t', t.observeFrom seen (w ++ rest) = (.ok (some (seen + w.length)), t') := by
  induction w generalizing t seen with
  | nil => exact ⟨t, observeFrom_done (isDone_of_completes_nil hc) seen rest⟩
  | cons b w ih =>
    have hd : ¬t.isDone = true := by
      intro hd
      rw [Completes, isDone_iff.1 hd] at hc
      cases hc
    obtain ⟨t₁, hs, hc₁⟩ := step_of_completes hw hd hc
    obtain ⟨t', h⟩ := ih (wellPlaced_step hw hs) hc₁ (seen + 1)
    refine ⟨t', ?_⟩
    rw [List.cons_append, observeFrom_step hd hw.undrained hs, h, List.length_cons,
      Nat.add_right_comm, Nat.add_assoc]

/-- A new tracker finds the end of `body`, whatever `rest` comes after it. -/
theorem observe_chunkedBody {body : Bytes} (h : ChunkedBody body) (rest : Bytes) :
    ∃ t, observe {} (body ++ rest) = (.ok (some body.length), t) := by
  obtain ⟨t, ht⟩ :=
    observeFrom_of_completes wellPlaced_new (completes_of_chunkedBody rfl ⟨rfl, rfl⟩ h) 0 rest
  exact ⟨t, by rw [observe, ht, Nat.zero_add]⟩

/-- A new tracker finds an end after `n` octets exactly if these are a chunked body, so that nothing
that comes after a body counts as part of it, and no beginning of a body is mistaken for a body or
refused. -/
theorem observe_finds_end (bs : Bytes) :
    (∀ n, (observe {} bs).1 = .ok (some n) ↔ n ≤ bs.length ∧ ChunkedBody (bs.take n)) ∧
      ∀ body, ChunkedBody body → bs <+: body → bs ≠ body → (observe {} bs).1 = .ok none := by
  refine ⟨fun n => ⟨fun h => ?_, ?_⟩, ?_⟩
  · have hlen := (le_length_of_observeFrom (Prod.ext h rfl)).2
    rw [Nat.zero_add] at hlen
    exact ⟨hlen, chunkedBody_of_observe (Prod.ext h rfl)⟩
  · rintro ⟨hn, hbody⟩
    obtain ⟨t, ht⟩ := observe_chunkedBody hbody (bs.drop n)
    rw [List.take_append_drop, List.length_take_of_le hn] at ht
    rw [ht]
  · rintro body hbody ⟨rest, rfl⟩ hne
    obtain ⟨t, ht⟩ := observe_chunkedBody hbody []
    rw [List.append_nil, observe_continues] at ht
    -- an answer for the beginning would be the answer for the whole body
    rcases hbegin : observe {} bs with ⟨answer, t'⟩
    rw [hbegin] at ht
    match answer with
    | .error e => cases ht
    | .ok none => rfl
    | .ok (some n) =>
      have hlen := (le_length_of_observeFrom hbegin).2
      cases ht
      rw [Nat.zero_add, List.length_append] at hlen
      have hrest := List.eq_nil_of_length_eq_zero (l := rest) (by omega)
      exact absurd (by rw [hrest, List.append_nil]) hne

/-! ## Octets that are refused -/

/-- The octets of `good` are read as the beginning of a body, and `x` after them is refused. -/
structure Offends (good : Bytes) (x : UInt8) : Prop where
  accepted : (observe {} good).1 = .ok none
  refused : ∀ more answer, (observe {} (good ++ x :: more)).1 ≠ .ok answer

/-- If `x` offends after `good`, no body goes on with it. -/
theorem Offends.not_chunkedBody {good : Bytes} {x : UInt8} (h : Offends good x) (more : Bytes) :
    ¬ChunkedBody (good ++ x :: more) := by
  intro hbody
  obtain ⟨t, ht⟩ := observe_chunkedBody hbody []
  rw [List.append_nil] at ht
  exact h.refused more _ (congrArg Prod.fst ht)

/-- If `bs` is refused, it is for an octet that offends. -/
theorem exists_offends {bs : Bytes} {e : Defect} (h : (observe {} bs).1 = .error e) :
    ∃ good x rest, bs = good ++ x :: rest ∧ Offends good x := by
  obtain ⟨good, x, rest, t, rfl, hgood, hrefused⟩ :=
    observe_continues.exists_refused waits_new (Prod.ext h rfl)
  refine ⟨good, x, rest, rfl, congrArg Prod.fst hgood, fun more answer hok => ?_⟩
  rw [hrefused] at hok
  cases hok

/-- If `p` is read without a defect, it stops short of the octet `x` that offends. -/
theorem Offends.prefix_of_ok {good rest p : Bytes} {x : UInt8} {answer : Option Nat}
    (h : Offends good x)
    (hp : p <+: good ++ x :: rest) (hok : (observe {} p).1 = .ok answer) : p <+: good := by
  obtain hshort | ⟨more, rfl⟩ := Pieces.prefix_or_eq_append_cons hp
  · exact hshort
  · exact absurd hok (h.refused more answer)

/-- The body `1;x\r\na\r\n0\nT\rA\n\r\n`: a size line with an extension, one without a carriage
return, and a trailer line with a carriage return inside. -/
def oneChunk : Bytes := [49, 59, 120, 13, 10, 97, 13, 10, 48, 10, 84, 13, 65, 10, 13, 10]

theorem chunkedBody_oneChunk : ChunkedBody oneChunk := by
  have hsize : SizeLine 1 ([49] ++ ([59, 120] ++ [13, 10])) :=
    .intro [49] [59, 120] [13, 10] (by decide) (by decide) (List.forall_mem_singleton.2 rfl)
      (.inr ⟨59, [120], rfl, .inl rfl, List.forall_mem_singleton.2 rfl⟩) (.inr rfl)
  have hzero : SizeLine 0 ([48] ++ ([] ++ [10])) :=
    .intro [48] [] [10] (by decide) (by decide) (List.forall_mem_singleton.2 rfl)
      (.inl rfl) (.inl rfl)
  have htrailer : Trailer (84 :: ([13, 65] ++ Octet.lf :: [13, 10])) :=
    .line 84 [13, 65] [13, 10] (by decide) (by decide) (.last _ (.inr rfl))
  have hdata : [(97 : UInt8)].length = 1 := rfl
  exact .chunk hsize Nat.one_pos hdata (.inr rfl) (.last hzero htrailer)

/-- All of `oneChunk` but its last octet asks for more, and what comes after the body is left. -/
theorem observe_finds_end_oneChunk :
    ChunkedBody oneChunk ∧ (observe {} oneChunk.dropLast).1 = .ok none ∧
      (observe {} (oneChunk ++ oneChunk)).1 = .ok (some 16) := by
  have hbody := chunkedBody_oneChunk
  refine ⟨hbody, ?_, ?_⟩
  · exact (observe_finds_end oneChunk.dropLast).2 oneChunk hbody
      (List.dropLast_prefix _) (by decide)
  · exact ((observe_finds_end (oneChunk ++ oneChunk)).1 16).2 ⟨by decide, hbody⟩

end ChunkTracker

end ReverseProxy.Message
