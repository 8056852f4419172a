import ReverseProxy.Proofs.Message.Recipient
import ReverseProxy.Wire.SocketAddress

/-!
# The headers that are added

What a recipient finds under a name in the head that goes on
(`RequestHead.values_headerLines_forwarded`): the values of the client, unless the client has the
header for the proxy alone, and after them what the proxy adds.

What is added is one line each.  The text of an address is made of visible characters, and is found
as it was written (`Header.value?_line`).
-/

namespace ReverseProxy

namespace Text

/-- The characters of `s` are visible ones of ASCII. -/
def IsVisible (s : String) : Prop := ∀ c ∈ s.toList, 0x21 ≤ c.toNat ∧ c.toNat ≤ 0x7E

instance (s : String) : Decidable (IsVisible s) :=
  List.decidableBAll (fun c : Char => 0x21 ≤ c.toNat ∧ c.toNat ≤ 0x7E) s.toList

namespace IsVisible

variable {s t : String}

theorem append (hs : IsVisible s) (ht : IsVisible t) : IsVisible (s ++ t) := by
  intro c hc
  rw [String.toList_append] at hc
  exact (List.mem_append.1 hc).elim (hs c) (ht c)

theorem intercalate (hs : IsVisible s) {ts : List String} (hts : ∀ t ∈ ts, IsVisible t) :
    IsVisible (s.intercalate ts) := by
  induction ts with
  | nil =>
    rw [String.intercalate_nil]
    exact fun c hc => absurd hc (by simp)
  | cons t ts ih =>
    obtain ⟨ht, hts⟩ := List.forall_mem_cons.1 hts
    cases ts with
    | nil => rwa [String.intercalate_singleton]
    | cons u us =>
      rw [String.intercalate_cons_cons]
      exact (ht.append hs).append (ih hts)

/-- A number in a `base` up to sixteen is written with visible digits. -/
theorem toDigits {base : Nat} (hbase : 1 < base) (hmost : base ≤ 16) (n : Nat) :
    IsVisible (String.ofList (Nat.toDigits base n)) := by
  have table :
      ∀ d < 16, 0x21 ≤ (Nat.digitChar d).toNat ∧ (Nat.digitChar d).toNat ≤ 0x7E := by decide
  rw [IsVisible, String.toList_ofList]
  induction n using Nat.strongRecOn with
  | ind n ih =>
    rw [Nat.toDigits_eq_if hbase]
    split
    · rename_i hlt
      exact List.forall_mem_singleton.2 (table n (Nat.lt_of_lt_of_le hlt hmost))
    · rename_i hge
      intro c hc
      rcases List.mem_append.1 hc with hc | hc
      · exact ih (n / base) (Nat.div_lt_self (by omega) hbase) c hc
      · rw [List.mem_singleton.1 hc]
        exact table _ (Nat.lt_of_lt_of_le (Nat.mod_lt n (by omega)) hmost)

/-- Numbers with the visible text `s` between them are visible. -/
theorem intercalate_toDigits (hs : IsVisible s) {base : Nat} (hbase : 1 < base)
    (hmost : base ≤ 16) (ns : List Nat) :
    IsVisible (s.intercalate (ns.map fun n => String.ofList (Nat.toDigits base n))) :=
  hs.intercalate (List.forall_mem_map.2 fun n _ => toDigits hbase hmost n)

/-- The octets of a visible text `s` are visible. -/
theorem octets (hs : IsVisible s) : ∀ b ∈ Utf8.encode s, 0x21 ≤ b.toNat ∧ b.toNat ≤ 0x7E := by
  intro b hb
  obtain ⟨c, hc, hb⟩ := List.mem_flatMap.1 hb
  obtain ⟨hlow, hhigh⟩ := hs c hc
  have hsmall : (UInt8.ofNat c.toNat).toNat = c.toNat := by
    rw [UInt8.toNat_ofNat']
    omega
  have hchar : c = Utf8.asciiChar (UInt8.ofNat c.toNat) := by
    rw [Utf8.asciiChar, hsmall, Char.ofNat_toNat]
  have hascii : UInt8.ofNat c.toNat ≤ 0x7F := by
    rw [UInt8.le_iff_toNat_le, hsmall]
    exact Nat.le_trans hhigh (by decide)
  rw [hchar, Utf8.utf8EncodeChar_asciiChar hascii] at hb
  rw [List.mem_singleton.1 hb, hsmall]
  exact ⟨hlow, hhigh⟩

end IsVisible

end Text

namespace Wire.HostAddress

open Text

theorem isVisible_writeParts (parts : List Nat) : IsVisible (writeParts parts) :=
  IsVisible.intercalate_toDigits (by decide +kernel) (by decide) (by decide) parts

theorem isVisible_writeGroups (groups : List Nat) : IsVisible (writeGroups groups) :=
  IsVisible.intercalate_toDigits (by decide +kernel) (by decide) (by decide) groups

/-- The text of an address is visible. -/
theorem isVisible_write (a : HostAddress) : IsVisible a.write := by
  unfold write
  split
  · exact isVisible_writeParts _
  split
  · exact IsVisible.append (by decide +kernel) (isVisible_writeParts _)
  · split
    split
    · exact ((isVisible_writeGroups _).append (by decide +kernel)).append (isVisible_writeGroups _)
    · exact isVisible_writeGroups _

end Wire.HostAddress

namespace Text.IsVisible

variable {s : String}

/-- A visible text `s` has no white space and no line end. -/
theorem isBlank_isEol (hs : IsVisible s) :
    ∀ b ∈ Utf8.encode s, Octet.isBlank b = false ∧ Octet.isEol b = false := by
  have table : ∀ n < 256, 0x21 ≤ n →
      Octet.isBlank (UInt8.ofNat n) = false ∧ Octet.isEol (UInt8.ofNat n) = false := by
      decide +kernel
  intro b hb
  have hvisible := table b.toNat b.toNat_lt (hs.octets b hb).1
  rwa [UInt8.ofNat_toNat] at hvisible

theorem isLine (hs : IsVisible s) : IsLine (Utf8.encode s) :=
  isLine_of_forall fun b hb => (hs.isBlank_isEol b hb).2

end Text.IsVisible

namespace Message

open Text (IsLine IsVisible)
open Recipient (value? strip)

/-! ### The line of a header that is added -/

namespace Header

variable {name value : String}

theorem line_eq (name value : String) :
    line { name, value } = Utf8.encode name ++ Octet.colon :: Octet.sp :: Utf8.encode value := by
  have hbetween : Utf8.encode ": " = [Octet.colon, Octet.sp] := by decide
  rw [line, Utf8.encode_append, Utf8.encode_append, hbetween, List.append_assoc]
  rfl

/-- The header is one line, if its `value` is. -/
theorem isLine_line (hname : IsVisible name) (hvalue : IsLine (Utf8.encode value)) :
    IsLine (line { name, value }) := by
  rw [line_eq]
  constructor
  · simp only [List.mem_append, List.mem_cons, not_or]
    exact ⟨hname.isLine.lf_notMem, by decide, by decide, hvalue.lf_notMem⟩
  · rw [List.append_cons, List.append_cons, List.getLast?_append, List.getLast?_append]
    cases hlast : (Utf8.encode value).getLast? with
    | none => simp [Octet.sp, Octet.cr]
    | some b =>
      rw [Option.some_or, ← hlast]
      exact hvalue.getLast?_ne

/-- What a recipient finds in the line of the header under the name `sought`. -/
theorem value?_line (hname : Octet.colon ∉ Utf8.encode name) (value : String) (sought : Bytes) :
    value? sought (line { name, value }) =
      if (Utf8.encode name).map Octet.lower = sought then some (strip (Utf8.encode value))
      else none := by
  have hcut : Text.cut? Octet.colon (line { name, value }) =
      some (Utf8.encode name, Octet.sp :: Utf8.encode value) :=
    Text.cut?_eq_some_iff.2 ⟨line_eq name value, hname⟩
  rw [value?, Recipient.field?, hcut]
  rfl

end Header

namespace Recipient

/-- The spaces and tabs around a visible text are no part of it. -/
theorem strip_of_isVisible {s : String} (hs : IsVisible s) :
    strip (Utf8.encode s) = Utf8.encode s := by
  have hblank : ∀ b ∈ Utf8.encode s, Octet.isBlank b = false :=
    fun b hb => (hs.isBlank_isEol b hb).1
  have h := Text.dropEndWhile_dropWhile (List.forall_mem_nil _) hblank (List.forall_mem_nil _)
  rwa [List.nil_append, List.append_nil] at h

theorem values_append (name : Bytes) (a b : List Bytes) :
    values name (a ++ b) = values name a ++ values name b :=
  List.filterMap_append

theorem values_line {name : String} (hname : Octet.colon ∉ Utf8.encode name)
    (value : String) (sought : Bytes) :
    values sought [Header.line { name, value }] =
      if (Utf8.encode name).map Octet.lower = sought then [strip (Utf8.encode value)] else [] := by
  have hvalue := Header.value?_line hname value sought
  by_cases heq : (Utf8.encode name).map Octet.lower = sought
  · rw [if_pos heq] at hvalue ⊢
    rw [values, List.filterMap_cons_some hvalue, List.filterMap_nil]
  · rw [if_neg heq] at hvalue ⊢
    rw [values, List.filterMap_cons_none hvalue, List.filterMap_nil]

end Recipient

/-! ### What is found under a name -/

/-- Names that differ only in case are the same to `speaksOfConnection`. -/
theorem RequestHead.speaksOfConnection_congr (headers : List Header) {s t : String}
    (h : s.toList.map Text.lowerChar = t.toList.map Text.lowerChar) :
    speaksOfConnection headers s = speaksOfConnection headers t := by
  have hleft : ∀ u, Text.eqIgnoreCase s u = Text.eqIgnoreCase t u := fun u => by
    rw [Text.eqIgnoreCase, Text.eqIgnoreCase, h]
  have hright : ∀ u, Text.eqIgnoreCase u s = Text.eqIgnoreCase u t := fun u => by
    rw [Text.eqIgnoreCase, Text.eqIgnoreCase, h]
  have hleft' : Text.eqIgnoreCase s = Text.eqIgnoreCase t := funext hleft
  simp only [speaksOfConnection, hleft', hright]

/-- The request has a header of a name exactly if it has lines of that name. -/
theorem isSome_header?_iff {h : RequestHead} {lines : RequestLines}
    (hheaders : h.headers = lines.headers.map HeaderLine.toHeader)
    (hregular : ∀ l ∈ lines.headers, l.IsRegular)
    {name : Bytes} (hname : name.map Octet.lower = name) {s : String}
    (hs : s.toList.map Text.lowerChar =
      (String.ofList (name.map Utf8.asciiChar)).toList.map Text.lowerChar) :
    (h.header? s).isSome ↔ HeaderLine.values name lines.headers ≠ [] := by
  have hvalues : Header.values h.headers s =
      Header.values h.headers (String.ofList (name.map Utf8.asciiChar)) := by
    simp only [Header.values, Text.eqIgnoreCase, hs]
  rw [RequestHead.header?, Header.first?_eq_head?, hvalues, hheaders,
    values_toHeader hregular hname, List.isSome_head?]
  simp

/-- The client's lines of `name` go on, unless `Connection` withholds them. -/
theorem HeaderLine.values_endToEnd {h : RequestHead} {lines : RequestLines}
    (hl : ∀ l ∈ lines.headers, l.IsRegular) {name : Bytes} (hname : name.map Octet.lower = name) :
    HeaderLine.values name (h.endToEnd lines) =
      if RequestHead.speaksOfConnection h.headers (String.ofList (name.map Utf8.asciiChar)) then []
      else HeaderLine.values name lines.headers := by
  have hspeaks : ∀ l ∈ lines.headers, l.name.map Octet.lower = name →
      RequestHead.speaksOfConnection h.headers (Utf8.decodeLossy l.name) =
        RequestHead.speaksOfConnection h.headers (String.ofList (name.map Utf8.asciiChar)) :=
        fun l hmem heq => by
    refine RequestHead.speaksOfConnection_congr _ ?_
    rw [(hl l hmem).decodeLossy_name, String.toList_ofList, String.toList_ofList,
      Text.map_lowerChar_asciiChar, Text.map_lowerChar_asciiChar, heq, hname]
  rw [HeaderLine.values, RequestHead.endToEnd, List.filter_filter]
  split
  · rename_i hconnection
    rw [List.map_eq_nil_iff, List.filter_eq_nil_iff]
    intro l hmem hboth
    rw [Bool.and_eq_true, decide_eq_true_eq] at hboth
    rw [hspeaks l hmem hboth.1, hconnection] at hboth
    exact Bool.false_ne_true hboth.2
  · rename_i hconnection
    rw [HeaderLine.values]
    refine congrArg _ (List.filter_congr fun l hmem => ?_)
    by_cases heq : l.name.map Octet.lower = name
    · rw [hspeaks l hmem heq, Bool.eq_false_iff.2 hconnection, Bool.not_false, Bool.and_true]
    · rw [decide_eq_false heq, Bool.false_and]

/-- Under a `name` in lower case and without spaces, the recipient of a forwarded head finds the
client's values, unless `Connection` withholds them, and then the values of `extra`. -/
theorem RequestHead.values_headerLines_forwarded {raw : Bytes} {h : RequestHead}
    (hp : parse raw = .ok (some h)) (hfirst : emptyLinesBefore raw ≤ 1) {extra : List Header}
    (hextra : ∀ x ∈ extra, IsLine x.line) :
    ∃ lines rest, RequestGrammar.head raw = .complete lines rest ∧
      h.headers = lines.headers.map HeaderLine.toHeader ∧ (∀ l ∈ lines.headers, l.IsRegular) ∧
      ∀ name : Bytes, name.map Octet.lower = name → Octet.sp ∉ name →
        Recipient.values name (headerLines (h.forwarded raw extra)) =
          (if speaksOfConnection h.headers (String.ofList (name.map Utf8.asciiChar)) then []
            else HeaderLine.values name lines.headers) ++
          Recipient.values name (keepAliveLine :: extra.map Header.line) := by
  obtain ⟨lines, es, octets, rest, hhead, hlayout, hof, before, hbefore, hlines⟩ :=
    headerLines_forwarded hp hfirst hextra
  obtain ⟨-, -, hheaders, -, -⟩ := ofLines_eq_ok hof
  refine ⟨lines, rest, hhead, hheaders, hlayout.isRegular, fun name hlower hsp => ?_⟩
  have hrequest : Recipient.values name before = [] :=
    Recipient.values_eq_nil fun line hline => hbefore line hline ▸ hlayout.value?_firstLine hsp
  have hregular : ∀ l ∈ h.endToEnd lines, l.IsRegular :=
    fun l hl => hlayout.isRegular l (List.mem_filter.1 hl).1
  rw [hlines, Recipient.values, List.filterMap_append, List.filterMap_append, ← Recipient.values,
    ← Recipient.values, ← Recipient.values, hrequest, values_octets hregular,
    HeaderLine.values_endToEnd hlayout.isRegular hlower, List.nil_append]

end Message

end ReverseProxy
