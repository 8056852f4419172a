import ReverseProxy.Message.ResponseHead
import ReverseProxy.Proofs.Message.Pieces

/-!
# A response head in pieces

A response arrives in pieces that have nothing to do with its lines.  All that a `ResponseParser`
has to remember across a cut is in its fields: an octet that is passed on is looked at again within
the same piece, and the one octet that may have to be seen before the head is known to be complete,
the one after a carriage return that stands alone, is not part of the head and may as well come with
the next piece.
-/

namespace ReverseProxy.Message.ResponseParser

open Pieces

/-! ## What the loop does with one octet -/

/-- The reader after one more octet of the head. -/
def tick (p : ResponseParser) : ResponseParser := { p with consumed := p.consumed + 1 }

/-- The reader at the end of the head. -/
def finish (p : ResponseParser) : ResponseParser := { p with headerLength := p.consumed }

@[simp] theorem feedFrom_nil (seen : Nat) (p : ResponseParser) :
    p.feedFrom seen [] = (.ok none, p) := by
  rw [feedFrom]

theorem feedFrom_done {p : ResponseParser} (hd : p.isDone = true) (seen : Nat)
    (b : UInt8) (rest : Bytes) :
    p.feedFrom seen (b :: rest) = (.ok (some seen), p) := by
  rw [feedFrom, dif_pos hd]

/-- A `step` that uses the octet may end the head or bring it to the limit. -/
theorem feedFrom_used {p p' : ResponseParser} {b : UInt8} (hd : ¬p.isDone = true)
    (hs : p.step b = (p', true)) (seen : Nat) (rest : Bytes) :
    p.feedFrom seen (b :: rest) =
      if p'.isDone then (.ok (some (seen + 1)), p'.tick.finish)
      else if p'.limit ≤ p'.tick.consumed then (.error (.headTooLarge p'.limit), p'.tick)
      else p'.tick.feedFrom (seen + 1) rest := by
  rw [feedFrom, dif_neg hd]
  split
  · rename_i p₁ h
    obtain rfl : p₁ = p' := by simpa [hs] using h.symm
    rfl
  · rename_i p₁ h
    simp [hs] at h

/-- A `step` that passes the octet on may show that the head ended before it. -/
theorem feedFrom_kept {p p' : ResponseParser} {b : UInt8} (hd : ¬p.isDone = true)
    (hs : p.step b = (p', false)) (seen : Nat) (rest : Bytes) :
    p.feedFrom seen (b :: rest) =
      if p'.isDone then (.ok (some seen), p'.finish) else p'.feedFrom seen (b :: rest) := by
  rw [feedFrom, dif_neg hd]
  split
  · rename_i p₁ h
    simp [hs] at h
  · rename_i p₁ h
    obtain rfl : p₁ = p' := by simpa [hs] using h.symm
    rfl

/-! ## One cut -/

/-- The number of the first octet is only added to the answer. -/
theorem feedFrom_add (k seen : Nat) (p : ResponseParser) (bs : Bytes) :
    p.feedFrom (k + seen) bs = later k (p.feedFrom seen bs) := by
  fun_induction feedFrom seen p bs with
  | case1 => rw [feedFrom_nil, later_none]
  | case2 seen p b rest hd => rw [feedFrom_done hd, later_some]
  | case3 seen p b rest hd p₁ hs p₂ hd₂ =>
    rw [feedFrom_used hd hs]
    exact if_pos hd₂
  | case4 seen p b rest hd p₁ hs p₂ hd₂ hl =>
    rw [feedFrom_used hd hs]
    exact (if_neg hd₂).trans (if_pos hl)
  | case5 seen p b rest hd p₁ hs p₂ hd₂ hl ih =>
    rw [feedFrom_used hd hs]
    exact (if_neg hd₂).trans ((if_neg hl).trans ih)
  | case6 seen p b rest hd p₁ hs hd₁ => rw [feedFrom_kept hd hs, if_pos hd₁, later_some]; rfl
  | case7 seen p b rest hd p₁ hs hd₁ ih => rw [feedFrom_kept hd hs, if_neg hd₁, ih]

/-- The octets `a ++ c` are read as `a` and then `c`. -/
theorem feedFrom_append (seen : Nat) (p : ResponseParser) (a c : Bytes) :
    p.feedFrom seen (a ++ c) =
      andThen (p.feedFrom seen a) (seen + a.length) fun p' => p'.feedFrom 0 c := by
  fun_induction feedFrom seen p a with
  | case1 seen p => exact feedFrom_add seen 0 p c
  | case2 seen p b rest hd => rw [List.cons_append, feedFrom_done hd, andThen_some]
  | case3 seen p b rest hd p₁ hs p₂ hd₂ =>
    rw [List.cons_append, feedFrom_used hd hs]
    exact if_pos hd₂
  | case4 seen p b rest hd p₁ hs p₂ hd₂ hl =>
    rw [List.cons_append, feedFrom_used hd hs]
    exact (if_neg hd₂).trans (if_pos hl)
  | case5 seen p b rest hd p₁ hs p₂ hd₂ hl ih =>
    rw [List.cons_append, feedFrom_used hd hs, List.length_cons, Nat.add_comm rest.length,
      ← Nat.add_assoc]
    exact (if_neg hd₂).trans ((if_neg hl).trans ih)
  | case6 seen p b rest hd p₁ hs hd₁ =>
    rw [List.cons_append, feedFrom_kept hd hs, if_pos hd₁, andThen_some]
    rfl
  | case7 seen p b rest hd p₁ hs hd₁ ih =>
    rw [List.cons_append, feedFrom_kept hd hs, if_neg hd₁]
    exact ih

/-- A reader that asks for more has not come to the end of the head. -/
theorem isDone_of_feedFrom_eq_none {seen : Nat} {p p' : ResponseParser}
    {bs : Bytes} (hp : ¬p.isDone = true)
    (h : p.feedFrom seen bs = (.ok none, p')) : ¬p'.isDone = true := by
  fun_induction feedFrom seen p bs with
  | case1 => cases h; exact hp
  | case2 | case3 | case4 | case6 => cases h
  | case5 seen p b rest hd p₁ hs p₂ hd₂ hl ih => exact ih hd₂ h
  | case7 seen p b rest hd p₁ hs hd₁ ih => exact ih hd₁ h

theorem feed_of_isDone {p : ResponseParser} (hp : p.isDone = true)
    (bs : Bytes) : p.feed bs = (.ok (some 0), p) :=
  if_pos hp

theorem feed_of_not_isDone {p : ResponseParser} (hp : ¬p.isDone = true) (bs : Bytes) :
    p.feed bs = p.feedFrom 0 bs := if_neg hp

theorem isDone_of_feed_eq_none {p p' : ResponseParser} {bs : Bytes}
    (h : p.feed bs = (.ok none, p')) :
    ¬p'.isDone = true := by
  by_cases hp : p.isDone = true
  · rw [feed_of_isDone hp] at h
    cases h
  · exact isDone_of_feedFrom_eq_none hp (feed_of_not_isDone hp bs ▸ h)

/-- Two pieces of a response are read as one. -/
theorem feed_continues : Continues feed := by
  intro p a c
  by_cases hp : p.isDone = true
  · rw [feed_of_isDone hp, feed_of_isDone hp, andThen_some]
  · have ha := feed_of_not_isDone hp a
    rw [feed_of_not_isDone hp, feedFrom_append, Nat.zero_add, ← ha]
    rcases h : p.feed a with ⟨e | _ | n, p'⟩
    · rfl
    · rw [andThen_none, andThen_none, feed_of_not_isDone (isDone_of_feed_eq_none h)]
    · rfl

theorem waits_new (limit : Nat) : Waits feed (new limit) := by
  have h : ¬(new limit).isDone = true := Bool.false_ne_true
  rw [Waits, feed_of_not_isDone h, feedFrom_nil]

/-! ## How much is read

An octet that is used is counted by the loop and not by the step, and no step changes the limit. -/

/-- The reader `q` has the limit of `p`, and has counted as many octets. -/
structure Counts (p q : ResponseParser) : Prop where
  limit : q.limit = p.limit
  consumed : q.consumed = p.consumed

theorem Counts.trans {p q r : ResponseParser} (h : Counts p q) (h' : Counts q r) : Counts p r :=
  ⟨h'.limit.trans h.limit, h'.consumed.trans h.consumed⟩

theorem counts_heed (p : ResponseParser) (h : Header) : Counts p (p.heed h) := by
  unfold heed
  split
  · exact ⟨rfl, rfl⟩
  split
  · exact ⟨rfl, rfl⟩
  split <;> exact ⟨rfl, rfl⟩

/-- The header that has been read. -/
def pending (p : ResponseParser) : Header :=
  { name := Text.trim (Utf8.decodeLossy p.name.reverse),
    value := Text.trimEnd (Utf8.decodeLossy p.value.reverse) }

theorem register_eq (p : ResponseParser) :
    p.register =
      if p.pending.name = "" then { p with name := [], value := [] }
      else
        { heed { p with name := [], value := [] } p.pending with
          headers := p.pending :: p.headers } := rfl

theorem counts_register (p : ResponseParser) : Counts p p.register := by
  rw [register_eq]
  generalize p.pending = h
  split
  · exact ⟨rfl, rfl⟩
  · obtain ⟨h₁, h₂⟩ := counts_heed { p with name := [], value := [] } h
    exact ⟨h₁, h₂⟩

/-- From `p` to `q` nothing that is known of the headers has changed. -/
structure Untouched (p q : ResponseParser) : Prop extends Counts p q where
  headers : q.headers = p.headers
  chunked : q.chunked = p.chunked
  contentLength : q.contentLength = p.contentLength
  connectionClose : q.connectionClose = p.connectionClose
  connectionKeepAlive : q.connectionKeepAlive = p.connectionKeepAlive

theorem Untouched.trans {p q r : ResponseParser} (h : Untouched p q)
    (h' : Untouched q r) : Untouched p r where
  toCounts := h.toCounts.trans h'.toCounts
  headers := h'.headers.trans h.headers
  chunked := h'.chunked.trans h.chunked
  contentLength := h'.contentLength.trans h.contentLength
  connectionClose := h'.connectionClose.trans h.connectionClose
  connectionKeepAlive := h'.connectionKeepAlive.trans h.connectionKeepAlive

theorem untouched_takeProtocol (p : ResponseParser) : Untouched p p.takeProtocol :=
  ⟨⟨rfl, rfl⟩, rfl, rfl, rfl, rfl, rfl⟩
theorem untouched_takeMessage (p : ResponseParser) : Untouched p p.takeMessage :=
  ⟨⟨rfl, rfl⟩, rfl, rfl, rfl, rfl, rfl⟩
theorem untouched_endStatusLine (p : ResponseParser) (b : UInt8) :
    Untouched p (p.endStatusLine b) :=
  ⟨⟨rfl, rfl⟩, rfl, rfl, rfl, rfl, rfl⟩
theorem untouched_endHeaderLine (p : ResponseParser) (b : UInt8) :
    Untouched p (p.endHeaderLine b) :=
  ⟨⟨rfl, rfl⟩, rfl, rfl, rfl, rfl, rfl⟩

/-- Only a `step` that ends a header line can change what is known of the headers. -/
theorem step_cases (p : ResponseParser) (b : UInt8) :
    (p.step b).1 = p.register.endHeaderLine b ∨ Untouched p (p.step b).1 := by
  cases hp : p.place with
  | value =>
    simp only [step, hp]
    split
    · exact .inl rfl
    · exact .inr ⟨⟨rfl, rfl⟩, rfl, rfl, rfl, rfl, rfl⟩
  | protocol =>
    simp only [step, hp]
    split
    · exact .inr ((untouched_takeProtocol p).trans ⟨⟨rfl, rfl⟩, rfl, rfl, rfl, rfl, rfl⟩)
    split
    · exact .inr ((untouched_takeProtocol p).trans (untouched_endStatusLine _ b))
    · exact .inr ⟨⟨rfl, rfl⟩, rfl, rfl, rfl, rfl, rfl⟩
  | message =>
    simp only [step, hp]
    split
    · exact .inr ((untouched_takeMessage p).trans (untouched_endStatusLine _ b))
    · exact .inr ⟨⟨rfl, rfl⟩, rfl, rfl, rfl, rfl, rfl⟩
  | _ =>
    simp only [step, hp]
    (repeat' split) <;> exact .inr ⟨⟨rfl, rfl⟩, rfl, rfl, rfl, rfl, rfl⟩

theorem counts_step (p : ResponseParser) (b : UInt8) : Counts p (p.step b).1 := by
  obtain hline | huntouched := step_cases p b
  · rw [hline]
    exact (counts_register p).trans (untouched_endHeaderLine _ b).toCounts
  · exact huntouched.toCounts

theorem counts_of_step {p p' : ResponseParser} {b : UInt8} {used : Bool}
    (h : p.step b = (p', used)) :
    Counts p p' := by
  have hc := counts_step p b
  rwa [h] at hc

/-- What is kept by `step`, `tick` and `finish` is kept by `feedFrom`. -/
theorem feedFrom_induction {P : ResponseParser → Prop} (hstep : ∀ p b, P p → P (p.step b).1)
    (htick : ∀ p, P p → P p.tick) (hfinish : ∀ p, P p → P p.finish) {p : ResponseParser}
    (h : P p) (seen : Nat) (bs : Bytes) : P (p.feedFrom seen bs).2 := by
  have hstepped :
      ∀ {p p₁ : ResponseParser} {b : UInt8} {used : Bool}, p.step b = (p₁, used) → P p → P p₁ := by
    intro p p₁ b used hs h
    have hp₁ := hstep p b h
    rwa [hs] at hp₁
  fun_induction feedFrom seen p bs with
  | case1 | case2 => exact h
  | case3 seen p b rest hd p₁ hs => exact hfinish _ (htick _ (hstepped hs h))
  | case4 seen p b rest hd p₁ hs => exact htick _ (hstepped hs h)
  | case5 seen p b rest hd p₁ hs p₂ hd₂ hl ih => exact ih (htick _ (hstepped hs h))
  | case6 seen p b rest hd p₁ hs => exact hfinish _ (hstepped hs h)
  | case7 seen p b rest hd p₁ hs hd₁ ih => exact ih (hstepped hs h)

/-- No reading changes the limit. -/
theorem limit_feedFrom (seen : Nat) (p : ResponseParser) (bs : Bytes) :
    (p.feedFrom seen bs).2.limit = p.limit :=
  feedFrom_induction (fun q b h => (counts_step q b).limit.trans h) (fun _ h => h)
    (fun _ h => h) rfl seen bs

/-- The end `n` of a head is within the octets that were read. -/
theorem le_length_of_feedFrom {seen n : Nat} {p p' : ResponseParser} {bs : Bytes}
    (h : p.feedFrom seen bs = (.ok (some n), p')) : n ≤ seen + bs.length := by
  fun_induction feedFrom seen p bs with
  | case1 | case4 => cases h
  | case2 | case6 => cases h; exact Nat.le_add_right _ _
  | case3 => cases h; simp
  | case5 seen p b rest hd p₁ hs p₂ hd₂ hl ih =>
    have := ih h
    rw [List.length_cons]
    omega
  | case7 seen p b rest hd p₁ hs hd₁ ih => exact ih h

/-- A reader that asks for more has counted all octets, and is below the limit. -/
theorem consumed_of_feedFrom_eq_none {seen : Nat} {p p' : ResponseParser} {bs : Bytes}
    (h : p.feedFrom seen bs = (.ok none, p')) :
    p'.consumed = p.consumed + bs.length ∧ (p.consumed < p.limit → p'.consumed < p.limit) := by
  fun_induction feedFrom seen p bs with
  | case1 => cases h; exact ⟨rfl, id⟩
  | case2 | case3 | case4 | case6 => cases h
  | case5 seen p b rest hd p₁ hs p₂ hd₂ hl ih =>
    obtain ⟨hlimit, hconsumed⟩ := counts_of_step hs
    obtain ⟨h₁, h₂⟩ := ih h
    have h₃ : p₂.consumed = p.consumed + 1 := congrArg (· + 1) hconsumed
    have h₄ : p₂.limit = p.limit := hlimit
    rw [List.length_cons]
    omega
  | case7 seen p b rest hd p₁ hs hd₁ ih =>
    obtain ⟨hlimit, hconsumed⟩ := counts_of_step hs
    have := ih h
    rwa [hlimit, hconsumed] at this

theorem limit_feed (p : ResponseParser) (bs : Bytes) : (p.feed bs).2.limit = p.limit := by
  unfold feed
  split
  · rfl
  · exact limit_feedFrom 0 p bs

theorem le_length_of_feed {n : Nat} {p p' : ResponseParser} {bs : Bytes}
    (h : p.feed bs = (.ok (some n), p')) :
    n ≤ bs.length := by
  unfold feed at h
  split at h
  · cases h
    exact Nat.zero_le _
  · simpa using le_length_of_feedFrom h

/-- A new reader that asks for more has been given less than its `limit`. -/
theorem length_lt_of_feed_new_eq_none {limit : Nat} {p : ResponseParser}
    {bs : Bytes} (hl : 0 < limit)
    (h : (new limit).feed bs = (.ok none, p)) : bs.length < limit := by
  obtain ⟨h₁, h₂⟩ := consumed_of_feedFrom_eq_none h
  have h₃ : 0 + bs.length < limit := h₁ ▸ h₂ hl
  rwa [Nat.zero_add] at h₃

/-! ## Any number of cuts -/

/-- Reading is independent of cuts.  To `feed` a reader `a ++ c` is to feed it `a` and, if that was
not enough, go on with `c`: the answer, the octet at which it is given and the state are the same.
For a new reader, any `pieces` are read as the response that they make up. -/
theorem feed_independent_of_cuts :
    (∀ (p : ResponseParser) (a c : Bytes), p.feed (a ++ c) =
      andThen (p.feed a) a.length fun p' => p'.feed c) ∧
      ∀ (limit : Nat) (pieces : List Bytes), readPieces feed (new limit) pieces =
        (new limit).feed pieces.flatten :=
  ⟨feed_continues, fun limit pieces => feed_continues.readPieces_eq_read_flatten
    (waits_new limit) pieces⟩

end ReverseProxy.Message.ResponseParser
