import ReverseProxy.Text.Split

/-!
# Cutting at a separator

A list is cut at the first separator, or at the last: what is left is what stands before it and what
stands after it, and one of the two has no separator in it.  Cut at all separators, it falls into
pieces that have none.
-/

namespace ReverseProxy.Text

variable {α : Type} [DecidableEq α] {sep : α}

theorem cut?_cons (x : α) (xs : List α) :
    cut? sep (x :: xs) =
      if x = sep then some ([], xs) else (cut? sep xs).map fun c => (x :: c.1, c.2) := by
  unfold cut?
  by_cases hx : x = sep
  · simp [hx]
  · have hdrop :
        (x :: xs).dropWhile (fun y => decide (y ≠ sep)) = xs.dropWhile fun y => decide (y ≠ sep) :=
      List.dropWhile_cons_of_pos (decide_eq_true hx)
    have htake : (x :: xs).takeWhile (fun y => decide (y ≠ sep)) =
        x :: xs.takeWhile fun y => decide (y ≠ sep) :=
      List.takeWhile_cons_of_pos (decide_eq_true hx)
    rw [if_neg hx, hdrop, htake]
    cases xs.dropWhile fun y => decide (y ≠ sep) <;> rfl

/-- The separator at which `cut?` cuts has none before it. -/
theorem cut?_eq_some_iff {xs front back : List α} :
    cut? sep xs = some (front, back) ↔ xs = front ++ sep :: back ∧ sep ∉ front := by
  induction xs generalizing front with
  | nil =>
    constructor
    · intro h
      cases h
    · rintro ⟨h, -⟩
      cases front <;> cases h
  | cons x xs ih =>
    rw [cut?_cons]
    by_cases hx : x = sep
    · rw [if_pos hx]
      constructor
      · intro h
        cases h
        exact ⟨congrArg (· :: _) hx, List.not_mem_nil⟩
      · rintro ⟨h, hfront⟩
        cases front with
        | nil =>
          cases h
          rfl
        | cons y front =>
          cases h
          exact absurd (hx ▸ List.mem_cons_self ..) hfront
    · rw [if_neg hx]
      constructor
      · intro h
        obtain ⟨⟨front, back⟩, hcut, heq⟩ := Option.map_eq_some_iff.1 h
        cases heq
        obtain ⟨rfl, hfront⟩ := ih.1 hcut
        refine ⟨rfl, fun hmem => ?_⟩
        rcases List.mem_cons.1 hmem with rfl | hmem
        · exact hx rfl
        · exact hfront hmem
      · rintro ⟨h, hfront⟩
        cases front with
        | nil =>
          cases h
          exact absurd rfl hx
        | cons y front =>
          cases h
          rw [ih.2 ⟨rfl, fun hmem => hfront (List.mem_cons_of_mem _ hmem)⟩]
          rfl

/-- The separator at which `cutLast?` cuts has none after it. -/
theorem cutLast?_eq_some_iff {xs front back : List α} :
    cutLast? sep xs = some (front, back) ↔ xs = front ++ sep :: back ∧ sep ∉ back := by
  unfold cutLast?
  constructor
  · intro h
    obtain ⟨⟨after, before⟩, hcut, heq⟩ := Option.map_eq_some_iff.1 h
    cases heq
    obtain ⟨hxs, hafter⟩ := cut?_eq_some_iff.1 hcut
    refine ⟨?_, fun hmem => hafter (List.mem_reverse.1 hmem)⟩
    rw [← List.reverse_reverse xs, hxs]
    simp
  · rintro ⟨rfl, hback⟩
    have hcut : cut? sep (front ++ sep :: back).reverse = some (back.reverse, front.reverse) :=
      cut?_eq_some_iff.2 ⟨by simp, fun hmem => hback (List.mem_reverse.1 hmem)⟩
    rw [hcut, Option.map_some]
    show some (front.reverse.reverse, back.reverse.reverse) = some (front, back)
    rw [List.reverse_reverse, List.reverse_reverse]

/-! ### Pieces -/

theorem pieces_ne_nil (sep : α) (xs : List α) : pieces sep xs ≠ [] := by
  cases xs with
  | nil => exact List.cons_ne_nil _ _
  | cons x xs =>
    rw [pieces]
    split
    · exact List.cons_ne_nil _ _
    · split <;> exact List.cons_ne_nil _ _

/-- The pieces of what stands before a separator and of what stands after it are those of both. -/
theorem pieces_append_sep (sep : α) (xs ys : List α) :
    pieces sep (xs ++ sep :: ys) = pieces sep xs ++ pieces sep ys := by
  induction xs with
  | nil => exact if_pos rfl
  | cons x xs ih =>
    by_cases hx : x = sep
    · rw [List.cons_append, pieces, if_pos hx, ih, pieces, if_pos hx, List.cons_append]
    · rw [List.cons_append, pieces, if_neg hx, ih, pieces, if_neg hx]
      cases hp : pieces sep xs with
      | nil => exact absurd hp (pieces_ne_nil sep xs)
      | cons p ps => rfl

/-- Where there is no separator, there is one piece. -/
theorem pieces_of_notMem {xs : List α} (h : sep ∉ xs) : pieces sep xs = [xs] := by
  induction xs with
  | nil => rfl
  | cons x xs ih =>
    obtain ⟨hx, hxs⟩ := not_or.1 (mt List.mem_cons.2 h)
    rw [pieces, if_neg (Ne.symm hx), ih hxs]

/-- What stands before the first separator is the first piece. -/
theorem pieces_append_cons {xs : List α} (h : sep ∉ xs) (rest : List α) :
    pieces sep (xs ++ sep :: rest) = xs :: pieces sep rest := by
  rw [pieces_append_sep, pieces_of_notMem h, List.singleton_append]

/-- Lists without `sep` that are joined by it are found again. -/
theorem pieces_intercalate {x : List α} {xs : List (List α)} (h : ∀ y ∈ x :: xs, sep ∉ y) :
    pieces sep ([sep].intercalate (x :: xs)) = x :: xs := by
  induction xs generalizing x with
  | nil => rw [List.intercalate_singleton, pieces_of_notMem (h x (List.mem_singleton.2 rfl))]
  | cons y ys ih =>
    obtain ⟨hx, hys⟩ := List.forall_mem_cons.1 h
    rw [List.intercalate_cons_cons, List.append_assoc, List.singleton_append,
      pieces_append_cons hx, ih hys]

end ReverseProxy.Text
