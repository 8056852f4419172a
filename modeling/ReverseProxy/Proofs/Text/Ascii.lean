import ReverseProxy.Proofs.Text.Trimming
import ReverseProxy.Text.Utf8

/-!
# Texts in ASCII

An octet of ASCII is a character by itself, so that octets may be compared with the text that they
stand for.  The names of headers are such texts, and there is no white space in them to trim.
-/

namespace ReverseProxy

/-- The octets of a token are visible characters of ASCII. -/
theorem Octet.bounds_of_isToken {b : UInt8} (h : Octet.isToken b = true) :
    33 ≤ b.toNat ∧ b.toNat ≤ 126 := by
  simp only [isToken, isLetter, isDigit, tokenMarks, Bool.or_eq_true, Bool.and_eq_true,
    decide_eq_true_eq,
    UInt8.le_iff_toNat_le, List.contains_eq_mem, List.mem_cons, List.not_mem_nil, or_false] at h
  rcases h with ((⟨h₁, h₂⟩ | ⟨h₁, h₂⟩) | ⟨h₁, h₂⟩) | h
  · exact ⟨Nat.le_trans (by decide) h₁, Nat.le_trans h₂ (by decide)⟩
  · exact ⟨Nat.le_trans (by decide) h₁, Nat.le_trans h₂ (by decide)⟩
  · exact ⟨Nat.le_trans (by decide) h₁, Nat.le_trans h₂ (by decide)⟩
  · rcases h with rfl | rfl | rfl | rfl | rfl | rfl | rfl | rfl | rfl |
      rfl | rfl | rfl | rfl | rfl | rfl <;> decide

namespace Utf8

/-- The character that the octet `b` of ASCII stands for. -/
def asciiChar (b : UInt8) : Char := Char.ofNat b.toNat

theorem next_of_le {b : UInt8} (h : b ≤ 0x7F) (bs : Bytes) :
    next b bs = (some (asciiChar b), bs) := by
  simp only [next, lead, if_pos h, follow]
  rfl

theorem scan_of_le {w : Bytes} (h : ∀ b ∈ w, b ≤ 0x7F) :
    scan w = w.map fun b => some (asciiChar b) := by
  induction w with
  | nil => rw [scan, List.map_nil]
  | cons b bs ih =>
    obtain ⟨hb, hbs⟩ := List.forall_mem_cons.1 h
    rw [scan, next_of_le hb, ih hbs, List.map_cons]

/-- Text in ASCII has one `asciiChar` for each octet. -/
theorem decodeLossy_of_le {w : Bytes} (h : ∀ b ∈ w, b ≤ 0x7F) :
    decodeLossy w = String.ofList (w.map asciiChar) := by
  rw [decodeLossy, scan_of_le h, List.map_map]
  rfl

theorem decode?_of_le {w : Bytes} (h : ∀ b ∈ w, b ≤ 0x7F) :
    decode? w = some (String.ofList (w.map asciiChar)) := by
  rw [decode?, scan_of_le h, List.mapM_map]
  have hpure : (id ∘ fun b => some (asciiChar b)) = fun b => (pure (asciiChar b) : Option Char) :=
    rfl
  rw [hpure, List.mapM_pure]
  rfl

/-- An octet of ASCII encodes its `asciiChar`. -/
theorem utf8EncodeChar_asciiChar {b : UInt8} (h : b ≤ 0x7F) :
    String.utf8EncodeChar (asciiChar b) = [b] := by
  have table : ∀ n < 128, String.utf8EncodeChar (asciiChar (UInt8.ofNat n)) = [UInt8.ofNat n] := by
    decide +kernel
  have hb := table b.toNat (Nat.lt_succ_of_le (UInt8.le_iff_toNat_le.1 h))
  rwa [UInt8.ofNat_toNat] at hb

theorem encode_ofList_asciiChar {w : Bytes} (h : ∀ b ∈ w, b ≤ 0x7F) :
    encode (String.ofList (w.map asciiChar)) = w := by
  rw [encode, String.toList_ofList]
  induction w with
  | nil => rfl
  | cons b bs ih =>
    obtain ⟨hb, hbs⟩ := List.forall_mem_cons.1 h
    rw [List.map_cons, List.flatMap_cons, utf8EncodeChar_asciiChar hb,
      ih hbs, List.singleton_append]

end Utf8

namespace Text

/-- There is no white space in a token. -/
theorem trim_token {w : Bytes} (h : ∀ b ∈ w, Octet.isToken b = true) :
    trim (Utf8.decodeLossy w) = Utf8.decodeLossy w := by
  have hle : ∀ b ∈ w, b ≤ 0x7F := fun b hb => by
    have := (Octet.bounds_of_isToken (h b hb)).2
    exact UInt8.le_iff_toNat_le.2 (Nat.le_trans this (by decide))
  rw [Utf8.decodeLossy_of_le hle]
  apply trim_ofList
  intro c hc
  obtain ⟨b, hb, rfl⟩ := List.mem_map.1 hc
  obtain ⟨hlow, hhigh⟩ := Octet.bounds_of_isToken (h b hb)
  have hnat : (Utf8.asciiChar b).toNat = b.toNat := by
    rw [Utf8.asciiChar, Char.ofNat, dif_pos (.inl (by omega))]
    rfl
  simp only [isBlank, hnat, Bool.or_eq_false_iff, Bool.and_eq_false_iff,
    decide_eq_false_iff_not, beq_eq_false_iff_ne]
  omega

end Text

end ReverseProxy
