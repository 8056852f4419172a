import ReverseProxy.Proofs.Message.HeadPieces

/-!
# The loop over the octets of a head

An octet of a response head may be passed on from one place to the next before it is used, so that
to read a piece takes more steps than it has octets.  A `Loop` is given by its iteration, and
`Loop.Returns` says how many iterations it takes to return, and what is noted in them.  What one
iteration spends bounds what all of them do (`Loop.Returns.within`).

`ResponseParser.dispatch` is the iteration that reads a piece: one step with one octet.  The loop
returns what `ResponseParser.feed` answers, and no octet is looked at more than three times
(`ResponseParser.returns_feed`).
-/

namespace ReverseProxy

/-- A loop by its iteration: the notes made in it, and what the loop returns or with what it goes
on. -/
abbrev Loop (σ ε ρ : Type) := σ → List ε × (ρ ⊕ σ)

namespace Loop

variable {σ ε ρ : Type} {f : Loop σ ε ρ}

/-- The loop returns `x` after `n` iterations, in which `es` is noted. -/
inductive Returns (f : Loop σ ε ρ) : ρ ⊕ σ → Nat → List ε → ρ → Prop
  | done (x : ρ) : Returns f (.inl x) 0 [] x
  | more {s : σ} {next : ρ ⊕ σ} {n : Nat} {now later : List ε} {x : ρ} :
      f s = (now, next) → Returns f next n later x →
      Returns f (.inr s) (n + 1) (now ++ later) x

/-- An iteration spends one of the iterations that are `Left`, and a note for each that it makes,
which is `Good`. -/
def Spends (f : Loop σ ε ρ) (Left : Nat → Nat → σ → Prop) (Good : ε → Prop) : Prop :=
  ∀ n m s, Left n m s → ∃ n' m', n' + 1 ≤ n ∧ (f s).1.length + m' ≤ m ∧ (∀ e ∈ (f s).1, Good e) ∧
    ∀ s', (f s).2 = .inr s' → Left n' m' s'

/-- A loop that `Spends` what is `Left` returns before it has spent more than there was at the
beginning. -/
theorem Returns.within {Left : Nat → Nat → σ → Prop} {Good : ε → Prop}
    (hspends : f.Spends Left Good)
    {s : σ} {k : Nat} {es : List ε} {x : ρ} (h : f.Returns (.inr s) k es x)
    {n m : Nat} (hs : Left n m s) :
    k ≤ n ∧ es.length ≤ m ∧ ∀ e ∈ es, Good e := by
  generalize hstart : (Sum.inr s : ρ ⊕ σ) = start at h
  induction h generalizing s n m with
  | done => cases hstart
  | @more s next k now later x hf hnext ih =>
    cases hstart
    obtain ⟨n', m', hn, hm, hgood, hleft⟩ := hspends n m s hs
    rw [hf] at hgood hleft
    have hm : now.length + m' ≤ m := by rwa [hf] at hm
    rcases next with y | s'
    · cases hnext
      rw [List.append_nil]
      exact ⟨by omega, by omega, hgood⟩
    · obtain ⟨hk, hlater, hgood'⟩ := ih (hleft s' rfl) rfl
      refine ⟨by omega, by rw [List.length_append]; omega, fun e he => ?_⟩
      exact (List.mem_append.1 he).elim (hgood e) (hgood' e)

/-- The loop returns `x`, after however many iterations. -/
def ComesTo (f : Loop σ ε ρ) (start : ρ ⊕ σ) (x : ρ) : Prop := ∃ n es, f.Returns start n es x

theorem comesTo_inl (x : ρ) : f.ComesTo (.inl x) x := ⟨0, [], .done x⟩

/-- What a loop comes to, it comes to after one iteration. -/
theorem comesTo_inr {s : σ} {x : ρ} : f.ComesTo (.inr s) x ↔ f.ComesTo (f s).2 x := by
  constructor
  · rintro ⟨_, _, h⟩
    cases h with
    | more hf hnext =>
      rw [hf]
      exact ⟨_, _, hnext⟩
  · rintro ⟨n, es, h⟩
    exact ⟨n + 1, _, .more rfl h⟩

end Loop

namespace Message.ResponseParser

open Pieces

/-- A piece that is being read: the `octet` that is looked at next, how many came before it, and the
`rest`. -/
structure Feeding where
  seen : Nat
  parser : ResponseParser
  octet : UInt8
  rest : Bytes
deriving DecidableEq, Repr

/-- What is left of a piece is looked at from its first octet. -/
def goOn (seen : Nat) (p : ResponseParser) : Bytes → Answer ResponseParser ⊕ Feeding
  | [] => .inl (.ok none, p)
  | octet :: rest => .inr { seen, parser := p, octet, rest }

/-- The loop over `chunk`, which is not begun if the head is complete. -/
def feeding (p : ResponseParser) (chunk : Bytes) : Answer ResponseParser ⊕ Feeding :=
  if p.isDone then .inl (.ok (some 0), p) else goOn 0 p chunk

/-- One `step` of the reader, noted by the number of its octet in the piece. -/
def dispatch : Loop Feeding Nat (Answer ResponseParser) := fun x =>
  ([x.seen],
    match x.parser.step x.octet with
    | (p, true) =>
        if p.isDone then .inl (.ok (some (x.seen + 1)), p.tick.finish)
        else if p.limit ≤ p.tick.consumed then .inl (.error (.headTooLarge p.limit), p.tick)
        else goOn (x.seen + 1) p.tick x.rest
    | (p, false) =>
      if p.isDone then .inl (.ok (some x.seen), p.finish) else .inr { x with parser := p })

theorem patience_le (place : HeadPlace) : place.patience ≤ 2 := by cases place <;> decide

/-- The numbers of the octets of a piece: the first of them once more than the `patience`, and each
of the others three times. -/
def turns (patience seen : Nat) : Bytes → List Nat
  | [] => []
  | _ :: rest =>
      List.replicate (patience + 1) seen ++ (List.range' (seen + 1) rest.length).flatMap
      (List.replicate 3)

/-- More patience means more turns. -/
theorem turns_sublist {k l : Nat} (h : k ≤ l) (seen : Nat) (chunk : Bytes) :
    (turns k seen chunk).Sublist (turns l seen chunk) := by
  cases chunk with
  | nil => exact .slnil
  | cons b rest =>
    rw [turns, turns, List.append_sublist_append_right, List.replicate_sublist_replicate]
    exact Nat.succ_le_succ h

/-- No place has more `patience` than for three turns. -/
theorem turns_sublist_flatMap (place : HeadPlace) (seen : Nat) (chunk : Bytes) :
    (turns place.patience seen chunk).Sublist
      ((List.range' seen chunk.length).flatMap (List.replicate 3)) := by
  cases chunk with
  | nil => exact .slnil
  | cons b rest => exact turns_sublist (patience_le place) seen (b :: rest)

/-- After an octet that is used comes the next one, with its turns. -/
theorem cons_sublist_turns {p : ResponseParser} {seen k : Nat} {b : UInt8}
    {rest : Bytes} {numbers : List Nat}
    (h : numbers.Sublist (turns p.place.patience (seen + 1) rest)) :
    (seen :: numbers).Sublist (turns k seen (b :: rest)) := by
  have hrest := h.trans (turns_sublist_flatMap p.place (seen + 1) rest)
  rw [turns, List.replicate_succ, List.cons_append]
  exact (hrest.trans (List.sublist_append_right _ _)).cons_cons seen

/-- A `step` that uses the octet may end the head or bring it to the limit. -/
theorem dispatch_used {p p' : ResponseParser} {b : UInt8} (hs : p.step b = (p', true))
    (seen : Nat) (rest : Bytes) :
    dispatch { seen, parser := p, octet := b, rest } =
      ([seen],
        if p'.isDone then .inl (.ok (some (seen + 1)), p'.tick.finish)
        else if p'.limit ≤ p'.tick.consumed then .inl (.error (.headTooLarge p'.limit), p'.tick)
        else goOn (seen + 1) p'.tick rest) := by
  simp only [dispatch, hs]

/-- A `step` that passes the octet on may show that the head ended before it. -/
theorem dispatch_kept {p p' : ResponseParser} {b : UInt8} (hs : p.step b = (p', false))
    (seen : Nat) (rest : Bytes) :
    dispatch { seen, parser := p, octet := b, rest } =
      ([seen], if p'.isDone then .inl (.ok (some seen), p'.finish)
        else goOn seen p' (b :: rest)) := by
  simp only [dispatch, hs, goOn]

/-- The octets of `chunk` are looked at in turn until the head ends or is found to be too large. -/
theorem returns_feedFrom {p : ResponseParser} (hp : ¬p.isDone = true) (seen : Nat) (chunk : Bytes) :
    ∃ numbers, dispatch.Returns (goOn seen p chunk) numbers.length numbers (p.feedFrom seen chunk) ∧
      numbers.Sublist (turns p.place.patience seen chunk) := by
  fun_induction feedFrom seen p chunk with
  | case1 seen p => exact ⟨[], .done _, .slnil⟩
  | case2 seen p b rest hd => exact absurd hd hp
  | case3 seen p b rest hd p₁ hs p₂ hd₂ =>
    have hnext := dispatch_used hs seen rest
    rw [if_pos (show p₁.isDone = true from hd₂)] at hnext
    exact ⟨[seen], .more hnext (.done _), cons_sublist_turns (p := p₁) (List.nil_sublist _)⟩
  | case4 seen p b rest hd p₁ hs p₂ hd₂ hl =>
    have hnext := dispatch_used hs seen rest
    rw [if_neg (show ¬p₁.isDone = true from hd₂), if_pos (show p₁.limit ≤ p₁.tick.consumed from hl)]
      at hnext
    exact ⟨[seen], .more hnext (.done _), cons_sublist_turns (p := p₁) (List.nil_sublist _)⟩
  | case5 seen p b rest hd p₁ hs p₂ hd₂ hl ih =>
    have hnext := dispatch_used hs seen rest
    rw [if_neg (show ¬p₁.isDone = true from hd₂),
      if_neg (show ¬p₁.limit ≤ p₁.tick.consumed from hl)] at hnext
    obtain ⟨numbers, hreturns, hturns⟩ := ih hd₂
    exact ⟨seen :: numbers, .more hnext hreturns, cons_sublist_turns hturns⟩
  | case6 seen p b rest hd p₁ hs hd₁ =>
    have hnext := dispatch_kept hs seen rest
    rw [if_pos hd₁] at hnext
    exact ⟨[seen], .more hnext (.done _), cons_sublist_turns (p := p₁) (List.nil_sublist _)⟩
  | case7 seen p b rest hd p₁ hs hd₁ ih =>
    have hnext := dispatch_kept hs seen rest
    rw [if_neg hd₁] at hnext
    obtain ⟨numbers, hreturns, hturns⟩ := ih hd₁
    refine ⟨seen :: numbers, .more hnext hreturns, ?_⟩
    -- the octet stays, and there is less patience for it
    have hless : p₁.place.patience + 1 ≤ p.place.patience := by
      have h := patience_step_lt (p := p) (b := b) (by simpa using hp) (by rw [hs])
      rwa [hs] at h
    exact (hturns.cons_cons seen).trans (turns_sublist hless seen (b :: rest))

/-- The loop over `chunk` returns what `feed` answers, and looks at each of its octets in turn,
three times at most. -/
theorem returns_feed (p : ResponseParser) (chunk : Bytes) :
    ∃ numbers, dispatch.Returns (p.feeding chunk) numbers.length numbers (p.feed chunk) ∧
      numbers.Sublist ((List.range chunk.length).flatMap (List.replicate 3)) ∧
      numbers.length ≤ 3 * chunk.length := by
  suffices h : ∃ numbers, dispatch.Returns (p.feeding chunk) numbers.length numbers (p.feed chunk) ∧
      numbers.Sublist ((List.range chunk.length).flatMap (List.replicate 3)) by
    obtain ⟨numbers, hreturns, hturns⟩ := h
    have hlength := hturns.length_le
    rw [List.length_flatMap] at hlength
    simp only [List.length_replicate, List.map_const', List.length_range, List.sum_replicate_nat]
      at hlength
    exact ⟨numbers, hreturns, hturns, by omega⟩
  by_cases hp : p.isDone = true
  · rw [feed_of_isDone hp, feeding, if_pos hp]
    exact ⟨[], .done _, List.nil_sublist _⟩
  · obtain ⟨numbers, hreturns, hturns⟩ := returns_feedFrom hp 0 chunk
    rw [feed_of_not_isDone hp, feeding, if_neg hp, List.range_eq_range']
    exact ⟨numbers, hreturns, hturns.trans (turns_sublist_flatMap _ 0 chunk)⟩

end Message.ResponseParser

end ReverseProxy
