import Mathlib.Control.Monad.Basic
import ReverseProxy.Proofs.Message.HeadPieces

/-!
# How long a head may be

A `ResponseParser` refuses a head when it has used as many octets as its limit and has not come to
the end of the head.  A reader with a limit above the length of the text is one without a limit, as
far as this text goes, and all other readers are compared with it
(`ResponseParser.readPieces_limited`): they answer the same and are in the same state, or they
refuse the head.

A head that is as long as the limit is read, with one exception.  If it ends with a carriage return
alone, its last octet has been used before it is known to be the last one, and the reader has
refused it by then.
-/

namespace ReverseProxy.Message.ResponseParser

open Pieces

/-! ### The limit makes no difference to a step -/

/-- The reader with another limit. -/
def withLimit (p : ResponseParser) (limit : Nat) : ResponseParser := { p with limit }

variable {p p' : ResponseParser} {b : UInt8}

theorem heed_withLimit (p : ResponseParser) (limit : Nat) (h : Header) :
    (p.withLimit limit).heed h = (p.heed h).withLimit limit := by
  unfold heed
  (repeat' split) <;> rfl

theorem register_withLimit (p : ResponseParser) (limit : Nat) :
    (p.withLimit limit).register = p.register.withLimit limit := by
  have hpending : (p.withLimit limit).pending = p.pending := rfl
  rw [register_eq, register_eq, hpending]
  generalize p.pending = h
  have hheed := heed_withLimit { p with name := [], value := [] } limit h
  split
  · rfl
  · exact congrArg (fun q : ResponseParser => { q with headers := h :: p.headers }) hheed

theorem step_withLimit (p : ResponseParser) (limit : Nat) (b : UInt8) :
    (p.withLimit limit).step b = ((p.step b).1.withLimit limit, (p.step b).2) := by
  have hplace : (p.withLimit limit).place = p.place := rfl
  cases hp : p.place with
  | value =>
    simp only [step, hplace, hp, register_withLimit]
    split <;> rfl
  | done => simp only [step, hplace, hp]
  | _ =>
    simp only [step, hplace, hp]
    (repeat' split) <;> rfl

theorem step_withLimit_of {used : Bool} (hs : p.step b = (p', used)) (limit : Nat) :
    (p.withLimit limit).step b = (p'.withLimit limit, used) := by
  rw [step_withLimit, hs]

/-! ### The last octet of a head -/

/-- The place after an octet `b` that is used, or not, in the place `a`: an octet that is used ends
the head only if it is a line feed, one that is passed on only after the carriage return of the
empty line, which has been used. -/
structure Moves (a : HeadPlace) (b : UInt8) (used : Bool) (a' : HeadPlace) : Prop where
  eq_lf : a' = .done → used = true → b = Octet.lf
  eq_blankLf : a' = .done → used = false → a = .blankLf
  eq_cr : a' = .blankLf → used = true ∧ b = Octet.cr

theorem moves_step (hd : ¬p.isDone = true) : Moves p.place b (p.step b).2 (p.step b).1.place := by
  cases hp : p.place with
  | done => simp [isDone, hp] at hd
  | value =>
    simp only [step, hp]
    split
    · constructor <;> simp [endHeaderLine] <;> split <;> simp
    · constructor <;> simp
  | _ =>
    simp only [step, hp]
    (repeat' split) <;> constructor <;> simp_all [endHeaderLine, endStatusLine] <;> split <;> simp

theorem moves_of_step {used : Bool} (hd : ¬p.isDone = true) (hs : p.step b = (p', used)) :
    Moves p.place b used p'.place := by
  have h := moves_step (b := b) hd
  rwa [hs] at h

theorem place_of_isDone (h : p.isDone = true) : p.place = .done := by
  simpa [isDone] using h

theorem counts_tick (hs : p.step b = (p', true)) :
    p'.tick.limit = p.limit ∧ p'.tick.consumed = p.consumed + 1 :=
  ⟨(counts_of_step hs).limit, congrArg (· + 1) (counts_of_step hs).consumed⟩

/-- The head that is found has a `headerLength` above what has been consumed before, unless all that
is left to see is the octet after the carriage return of the empty line. -/
theorem headerLength_of_feedFrom {seen n : Nat} {bs : Bytes} (hp : ¬p.isDone = true)
    (h : p.feedFrom seen bs = (.ok (some n), p')) :
    p.consumed < p'.headerLength ∨ p'.headerLength = p.consumed ∧ p.place = .blankLf := by
  fun_induction feedFrom seen p bs with
  | case1 | case4 => cases h
  | case2 seen p b rest hd => exact absurd hd hp
  | case3 seen p b rest hd p₁ hs p₂ hd₂ =>
    cases h
    exact .inl (Nat.lt_of_succ_le (Nat.le_of_eq (counts_tick hs).2.symm))
  | case5 seen p b rest hd p₁ hs p₂ hd₂ hl ih =>
    have hconsumed : p₂.consumed = p.consumed + 1 := (counts_tick hs).2
    obtain hlt | ⟨heq, -⟩ := ih hd₂ h
    · exact .inl (by omega)
    · exact .inl (by omega)
  | case6 seen p b rest hd p₁ hs hd₁ =>
    cases h
    exact .inr
      ⟨(counts_of_step hs).consumed, (moves_of_step hd hs).eq_blankLf (place_of_isDone hd₁) rfl⟩
  | case7 seen p b rest hd p₁ hs hd₁ ih =>
    obtain hlt | ⟨-, hplace⟩ := ih hd₁ h
    · exact .inl ((counts_of_step hs).consumed ▸ hlt)
    · cases ((moves_of_step hd hs).eq_cr hplace).1

/-- A reader that is not given enough to reach its `limit` refuses nothing. -/
theorem feedFrom_ok_of_lt (seen : Nat) {bs : Bytes} (hl : p.consumed + bs.length < p.limit) :
    ∃ answer, (p.feedFrom seen bs).1 = .ok answer := by
  fun_induction feedFrom seen p bs with
  | case1 | case2 | case3 | case6 => exact ⟨_, rfl⟩
  | case4 seen p b rest hd p₁ hs p₂ hd₂ hlimit =>
    obtain ⟨hsame, hconsumed⟩ : p₂.limit = p.limit ∧ p₂.consumed = p.consumed + 1 := counts_tick hs
    rw [List.length_cons] at hl
    omega
  | case5 seen p b rest hd p₁ hs p₂ hd₂ hlimit ih =>
    obtain ⟨hsame, hconsumed⟩ : p₂.limit = p.limit ∧ p₂.consumed = p.consumed + 1 := counts_tick hs
    rw [List.length_cons] at hl
    exact ih (by omega)
  | case7 seen p b rest hd p₁ hs hd₁ ih =>
    have hcounts := counts_of_step hs
    exact ih (by rwa [hcounts.consumed, hcounts.limit])

/-! ### Readers with and without a limit -/

/-- A limit is too low for a stream, for which a reader without a limit answers `free`: the stream
is as long as the limit, and its head has no end, or is longer than the limit, or is as long as the
limit and ends with a carriage return alone. -/
structure TooLow (limit : Nat) (stream : Bytes) (free : Answer ResponseParser) : Prop where
  reached : limit ≤ stream.length
  exceeded : free.1 = .ok none ∨ limit < free.2.headerLength ∨
    free.2.headerLength = limit ∧ stream[limit - 1]? = some Octet.cr

/-- The result `r` refuses the head if its limit is `TooLow`, and otherwise agrees with `free`, that
of a reader without a limit, in the answer and the state. -/
structure Limited (limit : Nat) (stream : Bytes) (free r : Answer ResponseParser) : Prop where
  refuses : TooLow limit stream free → r.1 = .error (.headTooLarge limit)
  agrees : ¬TooLow limit stream free → r = (free.1, free.2.withLimit limit)

theorem withLimit_eq_self {limit : Nat} (h : p.limit = limit) : p.withLimit limit = p := by
  subst h
  rfl

/-- A head found within the limit, and not with a carriage return at the limit, is `Limited`. -/
theorem limited_of_complete {limit n : Nat} {stream : Bytes} (hlimit : p.limit = limit)
    (hlength : p.headerLength ≤ limit)
    (hend : p.headerLength = limit → stream[limit - 1]? ≠ some Octet.cr) (roomy : Nat) :
    Limited limit stream (.ok (some n), p.withLimit roomy) (.ok (some n), p) := by
  have hlow : ¬TooLow limit stream (.ok (some n), p.withLimit roomy) := by
    rintro ⟨-, hnone | hlonger | ⟨heq, hcr⟩⟩
    · cases hnone
    · exact Nat.not_lt.2 hlength hlonger
    · exact hend heq hcr
  exact ⟨fun h => absurd h hlow, fun _ => congrArg (Prod.mk _) (withLimit_eq_self hlimit).symm⟩

/-- If a reader without a limit has consumed octets and not come to the end of the head, their
number is `TooLow` as a limit. -/
theorem tooLow_consumed (hd : ¬p.isDone = true) {past rest : Bytes}
    (hpast : past.length = p.consumed)
    (hcr : p.place = .blankLf → past[p.consumed - 1]? = some Octet.cr)
    (hl : p.consumed + rest.length < p.limit)
    (seen : Nat) : TooLow p.consumed (past ++ rest) (p.feedFrom seen rest) := by
  obtain ⟨answer, hanswer⟩ := feedFrom_ok_of_lt seen hl
  refine ⟨?_, ?_⟩
  · rw [List.length_append, hpast]
    exact Nat.le_add_right _ _
  cases answer with
  | none => exact .inl hanswer
  | some n =>
    obtain hlonger | ⟨heq, hplace⟩ := headerLength_of_feedFrom hd (Prod.ext hanswer rfl)
    · exact .inr (.inl hlonger)
    · refine .inr (.inr ⟨heq, ?_⟩)
      have hcr := hcr hplace
      rwa [List.getElem?_append_left (List.getElem?_eq_some_iff.1 hcr).1]

theorem feedFrom_withLimit_used (hd : ¬p.isDone = true) (hs : p.step b = (p', true)) (limit : Nat)
    (hl : p.consumed + 1 < limit) (seen : Nat) (rest : Bytes) :
    (p.withLimit limit).feedFrom seen (b :: rest) =
      if p'.isDone then (.ok (some (seen + 1)), p'.tick.finish.withLimit limit)
      else (p'.tick.withLimit limit).feedFrom (seen + 1) rest := by
  have hbelow : ¬limit ≤ p'.tick.consumed := by
    rw [(counts_tick hs).2]
    exact Nat.not_le.2 hl
  rw [feedFrom_used (p := p.withLimit limit) hd (step_withLimit_of hs limit)]
  exact congrArg (ite _ _) (if_neg hbelow)

theorem feedFrom_withLimit_kept (hd : ¬p.isDone = true) (hs : p.step b = (p', false))
    (limit seen : Nat) (rest : Bytes) :
    (p.withLimit limit).feedFrom seen (b :: rest) =
      if p'.isDone then (.ok (some seen), p'.finish.withLimit limit)
      else (p'.withLimit limit).feedFrom seen (b :: rest) :=
  feedFrom_kept (p := p.withLimit limit) hd (step_withLimit_of hs limit) seen rest

/-- The reader with a limit, and one without, in the middle of a head of which `past` has been
used. -/
theorem limited_feedFrom {roomy : Nat} (hd : ¬p.isDone = true) (hl : p.consumed < p.limit)
    {past bs : Bytes}
    (hpast : past.length = p.consumed) (hroomy : (past ++ bs).length < roomy) (seen : Nat) :
    Limited p.limit (past ++ bs) ((p.withLimit roomy).feedFrom seen bs) (p.feedFrom seen bs) := by
  fun_induction feedFrom seen p bs generalizing past with
  | case1 seen p =>
    have hlow : ¬TooLow p.limit (past ++ []) ((p.withLimit roomy).feedFrom seen []) := by
      rintro ⟨hreached, -⟩
      rw [List.append_nil] at hreached
      omega
    refine ⟨fun h => absurd h hlow, fun _ => ?_⟩
    rw [feedFrom_nil]
    rfl
  | case2 seen p b rest hd' => exact absurd hd' hd
  | case3 seen p b rest _ p₁ hs p₂ hd₂ =>
    -- The octet that ends the head has been used, so it is a line feed.
    obtain ⟨hlimit, hconsumed⟩ : p₂.limit = p.limit ∧ p₂.consumed = p.consumed + 1 := counts_tick hs
    have hlf : b = Octet.lf := (moves_of_step hd hs).eq_lf (place_of_isDone hd₂) rfl
    rw [List.length_append, List.length_cons] at hroomy
    have hfree := (feedFrom_withLimit_used hd hs roomy (by omega) seen rest).trans (if_pos hd₂)
    rw [hfree]
    have hlength : p₂.finish.headerLength = p.consumed + 1 := hconsumed
    refine limited_of_complete (p := p₂.finish) hlimit (Nat.le_trans (Nat.le_of_eq hlength) hl)
      (fun heq => ?_) roomy
    have hlast : p.limit - 1 = past.length := by omega
    simp [hlast, hlf, Octet.lf, Octet.cr]
  | case4 seen p b rest _ p₁ hs p₂ hd₂ hreached =>
    obtain ⟨hlimit, hconsumed⟩ : p₂.limit = p.limit ∧ p₂.consumed = p.consumed + 1 := counts_tick hs
    have hfull : p.limit = p₂.consumed := by omega
    have hpast₂ : (past ++ [b]).length = p₂.consumed := by simp [hpast, hconsumed]
    rw [List.append_cons, List.length_append, hpast₂] at hroomy
    have hfree := (feedFrom_withLimit_used hd hs roomy (by omega) seen rest).trans (if_neg hd₂)
    have hcr : p₂.place = .blankLf → (past ++ [b])[p₂.consumed - 1]? = some Octet.cr := by
      intro hplace
      have hb : b = Octet.cr := ((moves_of_step hd hs).eq_cr hplace).2
      simp [hconsumed, ← hpast, hb]
    have hlow := tooLow_consumed (p := p₂.withLimit roomy) hd₂ hpast₂ hcr hroomy (seen + 1)
    rw [hfree, List.append_cons, hfull]
    exact ⟨fun _ => by rw [hlimit, ← hfull], fun h => absurd hlow h⟩
  | case5 seen p b rest _ p₁ hs p₂ hd₂ hreached ih =>
    obtain ⟨hlimit, hconsumed⟩ : p₂.limit = p.limit ∧ p₂.consumed = p.consumed + 1 := counts_tick hs
    have hpast₂ : (past ++ [b]).length = p₂.consumed := by simp [hpast, hconsumed]
    rw [List.append_cons] at hroomy ⊢
    have hrest := List.length_append ▸ hroomy
    have hfree := (feedFrom_withLimit_used hd hs roomy (by omega) seen rest).trans (if_neg hd₂)
    have ih := ih hd₂ (Nat.not_le.1 hreached) hpast₂ hroomy
    rwa [hfree, ← hlimit]
  | case6 seen p b rest _ p₁ hs hd₁ =>
    have hcounts := counts_of_step hs
    rw [(feedFrom_withLimit_kept hd hs roomy seen rest).trans (if_pos hd₁)]
    have hlength : p₁.finish.headerLength < p.limit :=
      Nat.lt_of_le_of_lt (Nat.le_of_eq hcounts.consumed) hl
    exact limited_of_complete (p := p₁.finish) hcounts.limit (Nat.le_of_lt hlength)
      (fun heq => absurd heq (Nat.ne_of_lt hlength)) roomy
  | case7 seen p b rest _ p₁ hs hd₁ ih =>
    have hcounts := counts_of_step hs
    have ih :=
      ih hd₁ (by rwa [hcounts.consumed, hcounts.limit]) (hpast.trans hcounts.consumed.symm) hroomy
    rwa [(feedFrom_withLimit_kept hd hs roomy seen rest).trans (if_neg hd₁), ← hcounts.limit]

/-- What a limit does, for every stream and every way to cut it into pieces.  `free` is what a
reader comes to whose limit the stream does not reach, and `r` what one with the limit in question
comes to.

The reader with the limit refuses the head exactly if the limit is too low for the stream.  If it is
not too low, both readers answer the same and are in the same state, except for the limit itself. -/
theorem readPieces_limited {limit roomy : Nat} {pieces : List Bytes} (hlimit : 0 < limit)
    (hroomy : pieces.flatten.length < roomy) :
    let free := readPieces feed (new roomy) pieces
    let r := readPieces feed (new limit) pieces
    (∃ answer, free.1 = .ok answer) ∧
      (r.1 = .error (.headTooLarge limit) ↔ TooLow limit pieces.flatten free) ∧
      (¬TooLow limit pieces.flatten free → r = (free.1, free.2.withLimit limit)) := by
  intro free r
  have hnew :
      ∀ limit, readPieces feed (new limit) pieces = (new limit).feedFrom 0 pieces.flatten := by
    intro limit
    rw [feed_continues.readPieces_eq_read_flatten (waits_new limit)]
    exact feed_of_not_isDone (p := new limit) Bool.false_ne_true _
  have hlimited : Limited limit pieces.flatten free r := by
    have h := limited_feedFrom (p := new limit) Bool.false_ne_true hlimit List.length_nil
      (List.nil_append pieces.flatten ▸ hroomy) 0
    have hfree : (new limit).withLimit roomy = new roomy := rfl
    rwa [List.nil_append, hfree, ← hnew limit, ← hnew roomy] at h
  obtain ⟨answer, hanswer⟩ : ∃ answer, free.1 = .ok answer := by
    have hroomy : (new roomy).consumed + pieces.flatten.length < roomy :=
      (Nat.zero_add _).symm ▸ hroomy
    have h := feedFrom_ok_of_lt (p := new roomy) 0 hroomy
    rwa [← hnew roomy] at h
  refine ⟨⟨answer, hanswer⟩, ⟨fun hrefused => ?_, hlimited.refuses⟩, hlimited.agrees⟩
  by_cases hlow : TooLow limit pieces.flatten free
  · exact hlow
  · rw [hlimited.agrees hlow, hanswer] at hrefused
    cases hrefused

/-- Eighteen octets of a head, the last of which is a carriage return alone, and an octet after
it. -/
def loneCr : List Bytes := [Utf8.encode "HTTP/1.1 200 OK\r\n", Utf8.encode "\rX"]

/-- The head of `loneCr` is as long as the limit, and refused. -/
theorem readPieces_limited_loneCr :
    (readPieces feed (new 20) loneCr).1 = .ok (some 18) ∧
    (readPieces feed (new 20) loneCr).2.headerLength = 18 ∧
      (readPieces feed (new 18) loneCr).1 = .error (.headTooLarge 18) := by
  have hanswer : (readPieces feed (new 20) loneCr).1 = .ok (some 18) := by decide +kernel
  have hlength : (readPieces feed (new 20) loneCr).2.headerLength = 18 := by decide +kernel
  have hlast : loneCr.flatten[18 - 1]? = some Octet.cr := by decide +kernel
  obtain ⟨-, hrefuses, -⟩ := @readPieces_limited 18 20 loneCr (by decide) (by decide +kernel)
  exact ⟨hanswer, hlength, hrefuses.2 ⟨by decide +kernel, .inr (.inr ⟨hlength, hlast⟩)⟩⟩

example : (readPieces feed (new 18)
    [Utf8.encode "HTTP/1.1 200 OK\r\n", Utf8.encode "\nX"]).1 = .ok (some 18) := by
  decide +kernel

end ReverseProxy.Message.ResponseParser
