import Mathlib.Algebra.Group.Nat.Defs
import ReverseProxy.Proofs.Text.Ascii
import ReverseProxy.Proofs.Text.Lines
import ReverseProxy.Text.Split

/-!
# Octets of ASCII in text

In UTF-8 an octet below 128 stands for a character by itself wherever it occurs.  To decode octets
and encode the text again may put other octets in the place of a gap, but it makes no octet of ASCII
that was not there (`Utf8.mem_of_mem_encode_decodeLossy`), and so no line end.  Where there is
nothing but ASCII, what is done to the text is done to its octets, and case is a matter of octets
(`Text.eqIgnoreCase_asciiChar`).
-/

namespace ReverseProxy

namespace Utf8

theorem encode_append (s t : String) : encode (s ++ t) = encode s ++ encode t := by
  rw [encode, String.toList_append, List.flatMap_append, ← encode, ← encode]

/-- An octet of ASCII in the encoding of `c` is `c`. -/
theorem toNat_of_mem_utf8EncodeChar {c : Char} {b : UInt8} (hb : b ∈ String.utf8EncodeChar c)
    (h : b.toNat < 128) :
    c.toNat = b.toNat := by
  have hc : c.val.toNat = c.toNat := rfl
  unfold String.utf8EncodeChar at hb
  simp only at hb
  repeat' split at hb
  all_goals
    simp only [List.mem_cons, List.not_mem_nil, or_false] at hb
    obtain rfl | rfl | rfl | rfl := hb <;> simp only [UInt8.toNat_ofNat'] at h ⊢ <;> omega

/-- An octet of ASCII in `encode s` is a character of `s`. -/
theorem mem_of_mem_encode {s : String} {b : UInt8} (hb : b ∈ encode s) (h : b.toNat < 128) :
    ∃ c ∈ s.toList, c.toNat = b.toNat := by
  obtain ⟨c, hc, hb⟩ := List.mem_flatMap.1 hb
  exact ⟨c, hc, toNat_of_mem_utf8EncodeChar hb h⟩

theorem le_of_follow {v n : Nat} {rs : List (UInt8 × UInt8)} {bs : Bytes}
    (h : (follow v rs bs).1 = some n) :
    v * 64 ^ rs.length ≤ n := by
  induction rs generalizing v bs with
  | nil =>
    cases h
    simp
  | cons r rs ih =>
    obtain ⟨lo, hi⟩ := r
    cases bs with
    | nil => cases h
    | cons b bs =>
      rw [follow] at h
      split at h
      · have hle : v * 64 * 64 ^ rs.length ≤ (v * 64 + (b.toNat - 0x80)) * 64 ^ rs.length :=
          Nat.mul_le_mul_right _ (Nat.le_add_right _ _)
        rw [List.length_cons, Nat.pow_succ', ← Nat.mul_assoc]
        exact Nat.le_trans hle (ih h)
      · cases h

/-- The least number that a lead octet and those that have to follow it can stand for. -/
def leastValue : Nat × List (UInt8 × UInt8) → Nat
  | (v, []) => v
  | (v, (lo, _) :: rs) => (v * 64 + (lo.toNat - 0x80)) * 64 ^ rs.length

/-- What several octets stand for is not ASCII. -/
theorem le_leastValue_of_lead {b : UInt8} {v : Nat} {rs : List (UInt8 × UInt8)}
    (h : lead b = some (v, rs)) :
    rs = [] ∧ v = b.toNat ∨ 128 ≤ leastValue (v, rs) := by
  have table : ∀ n < 256, (lead (UInt8.ofNat n)).all fun x =>
      x.2.isEmpty && x.1 == n || decide (128 ≤ leastValue x) := by decide +kernel
  have hb := table b.toNat b.toNat_lt
  rw [UInt8.ofNat_toNat, h] at hb
  simpa using hb

theorem leastValue_le_of_follow {v n : Nat} {rs : List (UInt8 × UInt8)} {bs : Bytes}
    (h : (follow v rs bs).1 = some n) : leastValue (v, rs) ≤ n := by
  cases rs with
  | nil => cases h; exact Nat.le_refl _
  | cons r rs =>
    obtain ⟨lo, hi⟩ := r
    cases bs with
    | nil => cases h
    | cons b bs =>
      rw [follow] at h
      split at h
      · rename_i hb
        simp only [Bool.and_eq_true, decide_eq_true_eq, UInt8.le_iff_toNat_le] at hb
        have hle : leastValue (v, (lo, hi) :: rs) ≤ (v * 64 + (b.toNat - 0x80)) * 64 ^ rs.length :=
          Nat.mul_le_mul_right _ (by omega)
        exact Nat.le_trans hle (le_of_follow h)
      · cases h

/-- A character of ASCII that `next` reads, other than the replacement for nothing, is the octet
that is read. -/
theorem toNat_of_next {b : UInt8} {bs : Bytes} {c : Char} (h : (next b bs).1 = some c)
    (hc : c.toNat < 128) (hz : c.toNat ≠ 0) : c.toNat = b.toNat := by
  unfold next at h
  split at h
  · cases h
  rename_i v rs hlead
  obtain ⟨n, hn, rfl⟩ := Option.map_eq_some_iff.1 h
  have hchar : (Char.ofNat n).toNat = n := by
    by_cases hv : n.isValidChar
    · rw [Char.ofNat, dif_pos hv]
      rfl
    · rw [Char.ofNat, dif_neg hv] at hz
      exact absurd rfl hz
  rw [hchar] at hc ⊢
  have hle := leastValue_le_of_follow hn
  rcases le_leastValue_of_lead hlead with ⟨rfl, rfl⟩ | hlead
  · cases hn
    rfl
  · omega

theorem follow_suffix (v : Nat) (rs : List (UInt8 × UInt8)) (bs : Bytes) :
    (follow v rs bs).2 <:+ bs := by
  induction rs generalizing v bs with
  | nil => exact List.suffix_refl _
  | cons r rs ih =>
    cases bs with
    | nil => exact List.suffix_refl _
    | cons b bs =>
      rw [follow]
      split
      · exact (ih _ bs).trans (List.suffix_cons ..)
      · exact List.suffix_refl _

theorem next_suffix (b : UInt8) (bs : Bytes) : (next b bs).2 <:+ bs := by
  unfold next
  split
  · exact List.suffix_refl _
  · exact follow_suffix ..

/-- A character of ASCII that `scan` reads is one of the octets. -/
theorem mem_of_mem_scan {bs : Bytes} {c : Char} (h : some c ∈ scan bs)
    (hc : c.toNat < 128) (hz : c.toNat ≠ 0) :
    ∃ b ∈ bs, c.toNat = b.toNat := by
  fun_induction scan bs with
  | case1 => cases h
  | case2 b bs ih =>
    rcases List.mem_cons.1 h with h | h
    · exact ⟨b, List.mem_cons_self .., toNat_of_next h.symm hc hz⟩
    · obtain ⟨b', hb', heq⟩ := ih h
      exact ⟨b', List.mem_cons_of_mem _ ((next_suffix b bs).subset hb'), heq⟩

/-- Decoding octets and encoding the text again makes no octet of ASCII that was not in `bs`. -/
theorem mem_of_mem_encode_decodeLossy {bs : Bytes} {b : UInt8} (h : b ∈ encode (decodeLossy bs))
    (hb : b.toNat < 128) (hz : b.toNat ≠ 0) : b ∈ bs := by
  obtain ⟨c, hc, heq⟩ := mem_of_mem_encode h hb
  rw [decodeLossy, String.toList_ofList] at hc
  obtain ⟨c', hc', rfl⟩ := List.mem_map.1 hc
  cases c' with
  | none =>
    have hreplacement : replacement.toNat = 0xFFFD := by decide
    rw [Option.getD_none, hreplacement] at heq
    omega
  | some c =>
    rw [Option.getD_some] at heq
    obtain ⟨b', hb', heq'⟩ := mem_of_mem_scan hc' (heq ▸ hb) (heq ▸ hz)
    rwa [UInt8.toNat_inj.1 (heq.symm.trans heq')]

theorem toNat_asciiChar (b : UInt8) : (asciiChar b).toNat = b.toNat := by
  have hb := b.toNat_lt
  rw [asciiChar, Char.ofNat, dif_pos (.inl (by omega))]
  rfl

/-- Different octets are different characters. -/
theorem map_asciiChar_inj {v w : Bytes} (h : v.map asciiChar = w.map asciiChar) : v = w := by
  have htoNat : ∀ u : Bytes, (u.map asciiChar).map Char.toNat = u.map UInt8.toNat := fun u => by
    rw [List.map_map]
    exact List.map_congr_left fun b _ => toNat_asciiChar b
  have hnat := congrArg (List.map Char.toNat) h
  rw [htoNat, htoNat] at hnat
  exact (List.map_inj_right fun _ _ => UInt8.toNat_inj.1).1 hnat

end Utf8

theorem Octet.lower_lower (b : UInt8) : lower (lower b) = lower b := by
  have table : ∀ n < 256, lower (lower (UInt8.ofNat n)) = lower (UInt8.ofNat n) := by decide +kernel
  have hb := table b.toNat b.toNat_lt
  rwa [UInt8.ofNat_toNat] at hb

namespace Text

open Utf8

/-- Lower case of characters is lower case of octets. -/
theorem lowerChar_asciiChar (b : UInt8) : lowerChar (asciiChar b) = asciiChar (Octet.lower b) := by
  have table :
    ∀ n < 256, lowerChar (asciiChar (UInt8.ofNat n)) = asciiChar (Octet.lower (UInt8.ofNat n)) := by
    decide +kernel
  have hb := table b.toNat b.toNat_lt
  rwa [UInt8.ofNat_toNat] at hb

theorem map_lowerChar_asciiChar (w : Bytes) :
    (w.map asciiChar).map lowerChar = (w.map Octet.lower).map asciiChar := by
  rw [List.map_map, List.map_map]
  exact List.map_congr_left fun b _ => lowerChar_asciiChar b

/-- Text in `lower` case is its octets in lower case. -/
theorem lower_ofList_asciiChar (w : Bytes) :
    lower (String.ofList (w.map asciiChar)) =
      String.ofList ((w.map Octet.lower).map asciiChar) := by
  rw [lower, String.toList_ofList, map_lowerChar_asciiChar]

/-- Texts are equal for `eqIgnoreCase` if their octets in lower case are. -/
theorem eqIgnoreCase_asciiChar (v w : Bytes) :
    eqIgnoreCase (String.ofList (v.map asciiChar)) (String.ofList (w.map asciiChar)) =
      decide (v.map Octet.lower = w.map Octet.lower) := by
  rw [eqIgnoreCase, String.toList_ofList, String.toList_ofList, map_lowerChar_asciiChar,
    map_lowerChar_asciiChar, Bool.beq_eq_decide_eq]
  exact decide_eq_decide.2 ⟨map_asciiChar_inj, fun h => h ▸ rfl⟩

end Text

end ReverseProxy
