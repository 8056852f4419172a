import ReverseProxy.Text.Bytes

/-!
# Lines

The grammars of this library end a line with a line feed, and a carriage return before it belongs to
the end of the line.  What stands in a line has no line feed, and no carriage return at its end
(`Text.IsLine`).
-/

namespace ReverseProxy

/-- The octets `e` are the end of a line. -/
def Octet.IsLineEnd (e : Bytes) : Prop := e = [Octet.lf] ∨ e = [Octet.cr, Octet.lf]

theorem Octet.IsLineEnd.ne_nil {e : Bytes} (he : Octet.IsLineEnd e) : e ≠ [] := by
  rcases he with rfl | rfl <;> exact List.cons_ne_nil _ _

/-- The first octet of a line end, and what comes after it. -/
theorem Octet.IsLineEnd.eq_or_eq_of_cons {b : UInt8} {w e rest : Bytes} (he : Octet.IsLineEnd e)
    (h : b :: w = e ++ rest) : b = Octet.lf ∧ w = rest ∨ b = Octet.cr ∧ w = Octet.lf :: rest := by
  rcases he with rfl | rfl
  · obtain ⟨rfl, rfl⟩ := List.cons.inj h
    exact .inl ⟨rfl, rfl⟩
  · obtain ⟨rfl, rfl⟩ := List.cons.inj h
    exact .inr ⟨rfl, rfl⟩

namespace Text

/-- The octets of `line` may stand in a line, with any end of a line after them. -/
structure IsLine (line : Bytes) : Prop where
  lf_notMem : Octet.lf ∉ line
  getLast?_ne : line.getLast? ≠ some Octet.cr

/-- A class of octets to which no line end belongs. -/
theorem isEol_eq_false_of {p : UInt8 → Bool} (hcr : p Octet.cr = false)
    (hlf : p Octet.lf = false) {b : UInt8} (h : p b = true) : Octet.isEol b = false := by
  apply Bool.eq_false_iff.2
  intro hb
  simp only [Octet.isEol, Bool.or_eq_true, beq_iff_eq] at hb
  rcases hb with rfl | rfl
  · exact absurd h (Bool.eq_false_iff.1 hcr)
  · exact absurd h (Bool.eq_false_iff.1 hlf)

/-- Octets that are no line ends may stand in a line. -/
theorem isLine_of_forall {line : Bytes} (h : ∀ b ∈ line, Octet.isEol b = false) : IsLine line := by
  refine ⟨fun hlf => absurd (h _ hlf) (by decide), fun hcr => ?_⟩
  exact absurd (h _ (List.mem_of_getLast? hcr)) (by decide)

theorem isLine_nil : IsLine [] := isLine_of_forall (List.forall_mem_nil _)

end Text

end ReverseProxy
