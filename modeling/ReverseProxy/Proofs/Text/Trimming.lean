import ReverseProxy.Text.Blank

/-!
# Trimming

What is dropped at both ends of a text is what was put around it, as long as nothing of that kind is
in the text itself.
-/

namespace ReverseProxy.Text

section

variable {α : Type} {p : α → Bool} {front middle back : List α}

/-- Dropping what is of the kind `p` stops at what is not. -/
theorem dropWhile_append_of_head? (hfront : ∀ x ∈ front, p x = true)
    (hback : ∀ x, back.head? = some x → p x = false) :
    (front ++ back).dropWhile p = back := by
  rw [List.dropWhile_append_of_pos hfront]
  cases back with
  | nil => rfl
  | cons x xs =>
    rw [List.dropWhile_cons, hback x rfl]
    rfl

/-- At both ends all is dropped that is of the kind `p`, and nothing else. -/
theorem dropEndWhile_dropWhile (hfront : ∀ x ∈ front, p x = true)
    (hmiddle : ∀ x ∈ middle, p x = false) (hback : ∀ x ∈ back, p x = true) :
    dropEndWhile p ((front ++ middle ++ back).dropWhile p) = middle := by
  have hreverse : dropEndWhile p (middle ++ back) = middle := by
    rw [dropEndWhile, List.reverse_append, dropWhile_append_of_head?, List.reverse_reverse]
    · exact fun x hx => hback x (List.mem_reverse.1 hx)
    · exact fun x hx => hmiddle x (List.mem_reverse.1 (List.mem_of_head? hx))
  cases middle with
  | nil =>
    have hall : ∀ x ∈ front ++ back, p x = true := List.forall_mem_append.2 ⟨hfront, hback⟩
    have hdrop : (front ++ back ++ []).dropWhile p = [] := dropWhile_append_of_head? hall nofun
    rw [List.append_nil] at hdrop
    rw [List.append_nil, hdrop]
    rfl
  | cons x xs =>
    rw [List.append_assoc, dropWhile_append_of_head? hfront, hreverse]
    rintro y hy
    exact hmiddle y (Option.some.inj hy ▸ List.mem_cons_self ..)

end

/-- The white space around `cs` is trimmed if `cs` has none. -/
theorem trim_append {front cs back : List Char} (hfront : ∀ c ∈ front, isBlank c = true)
    (h : ∀ c ∈ cs, isBlank c = false) (hback : ∀ c ∈ back, isBlank c = true) :
    trim (String.ofList (front ++ cs ++ back)) = String.ofList cs := by
  rw [trim, String.toList_ofList, dropEndWhile_dropWhile hfront h hback]

/-- Text without white space is not trimmed. -/
theorem trim_ofList {cs : List Char} (h : ∀ c ∈ cs, isBlank c = false) :
    trim (String.ofList cs) = String.ofList cs := by
  have htrim := trim_append (List.forall_mem_nil _) h (List.forall_mem_nil _)
  rwa [List.nil_append, List.append_nil] at htrim

end ReverseProxy.Text
