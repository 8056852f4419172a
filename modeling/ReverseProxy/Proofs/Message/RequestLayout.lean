import ReverseProxy.Message.RequestHead
import ReverseProxy.Proofs.Text.Lines

/-!
# The layout of a request head

What the octets of a request head look like from which its parts have been read: empty lines, the
request line, the header lines and the empty line after them.  For each part of the grammar one
lemma says which octets it has taken.  `RequestGrammar.layout_of_head` puts these together.
-/

namespace ReverseProxy.Message

open Octet (IsLineEnd)
open Text (IsLine)

/-- The octets of a header line, without the end of the line. -/
def HeaderLine.octets (l : HeaderLine) : Bytes := l.name ++ Octet.colon :: l.content

/-- The line `l` is one that the grammar allows. -/
structure HeaderLine.IsRegular (l : HeaderLine) : Prop where
  name_ne_nil : l.name ≠ []
  isToken : ∀ b ∈ l.name, Octet.isToken b = true
  isValue : ∀ b ∈ l.content, RequestGrammar.isValue b = true

/-- The octets are the header lines `ls`, with the empty line after them. -/
inductive HeaderBlock : List HeaderLine → Bytes → Prop
  | last {e : Bytes} : IsLineEnd e → HeaderBlock [] e
  | line {l : HeaderLine} {ls : List HeaderLine} {e rest : Bytes} : l.IsRegular → IsLineEnd e →
      HeaderBlock ls rest → HeaderBlock (l :: ls) (l.octets ++ (e ++ rest))

/-- The octets of a request line, without the end of the line. -/
def RequestLines.firstLine (lines : RequestLines) : Bytes :=
  lines.method ++ Octet.sp ::
    (lines.target ++ Octet.sp :: (Utf8.encode "HTTP/1." ++ [48 + UInt8.ofNat lines.minor]))

/-- The octets are a request head with these parts, after empty lines with the ends `es`. -/
structure RequestLayout (lines : RequestLines) (es : List Bytes) (octets : Bytes) : Prop where
  isLineEnd : ∀ e ∈ es, IsLineEnd e
  isToken : ∀ b ∈ lines.method, Octet.isToken b = true
  method_ne_nil : lines.method ≠ []
  isTarget : ∀ b ∈ lines.target, RequestGrammar.isTarget b = true
  minor_le : lines.minor ≤ 1
  eq : ∃ e block, IsLineEnd e ∧ HeaderBlock lines.headers block ∧
    octets = es.flatten ++ (lines.firstLine ++ (e ++ block))

namespace RequestGrammar

theorem isLineEnd_of_lineEnd {why : RequestDefect} {bs rest : Bytes}
    (h : lineEnd why bs = .complete () rest) :
    ∃ e, IsLineEnd e ∧ bs = e ++ rest := by
  unfold lineEnd at h
  split at h
  · cases h
  rename_i b bs
  split at h
  · rename_i hb
    cases h
    exact ⟨[Octet.lf], .inl rfl, by rw [hb]; rfl⟩
  split at h
  · rename_i hb
    split at h
    · cases h
    rename_i c cs
    split at h
    · rename_i hc
      cases h
      exact ⟨[Octet.cr, Octet.lf], .inr rfl, by rw [hb, hc]; rfl⟩
    · cases h
  · cases h

theorem emptyLines_eq {bs rest : Bytes} (h : emptyLines bs = .complete () rest) :
    ∃ es : List Bytes, (∀ e ∈ es, IsLineEnd e) ∧ bs = es.flatten ++ rest := by
  fun_induction emptyLines bs with
  | case1 | case3 | case5 => cases h
  | case2 bs ih =>
    obtain ⟨es, hes, hbs⟩ := ih h
    exact ⟨[Octet.lf] :: es, List.forall_mem_cons.2 ⟨.inl rfl, hes⟩, congrArg (Octet.lf :: ·) hbs⟩
  | case4 cs hne ih =>
    obtain ⟨es, hes, hcs⟩ := ih h
    exact ⟨[Octet.cr, Octet.lf] :: es, List.forall_mem_cons.2 ⟨.inr rfl, hes⟩,
      congrArg (Octet.cr :: Octet.lf :: ·) hcs⟩
  | case6 b bs hlf hcr =>
    cases h
    exact ⟨[], List.forall_mem_nil _, rfl⟩

theorem word_eq {isPart : UInt8 → Bool} {stop : UInt8} {why : RequestDefect} {bs w rest : Bytes}
    (h : word isPart stop why bs = .complete w rest) :
    w ≠ [] ∧ (∀ b ∈ w, isPart b = true) ∧ bs = w ++ stop :: rest := by
  unfold word at h
  split at h
  · cases h
  rename_i b rest' hd
  split at h
  · rename_i hb
    obtain ⟨rfl, hne⟩ := hb
    cases h
    refine ⟨hne, List.all_eq_true.1 List.all_takeWhile, ?_⟩
    rw [← hd, List.takeWhile_append_dropWhile]
  · cases h

theorem literal_eq {why : RequestDefect} {w bs rest : Bytes}
    (h : literal why w bs = .complete () rest) :
    bs = w ++ rest := by
  fun_induction literal why w bs with
  | case1 => cases h; rfl
  | case2 => cases h
  | case3 ws b bs ih => exact congrArg (b :: ·) (ih h)
  | case4 => cases h

theorem target_eq {bs w rest : Bytes} (h : target bs = .complete w rest) :
    (∀ b ∈ w, isTarget b = true) ∧ bs = w ++ Octet.sp :: rest := by
  obtain ⟨w', mid, hw, h⟩ := Reading.andThen_eq_complete.1 h
  split at h
  · cases h
    exact (word_eq hw).2
  · cases h

theorem version_eq {bs rest : Bytes} {n : Nat} (h : version bs = .complete n rest) :
    n ≤ 1 ∧ bs = Utf8.encode "HTTP/1." ++ (48 + UInt8.ofNat n) :: rest := by
  obtain ⟨_, mid, hl, h⟩ := Reading.andThen_eq_complete.1 h
  rw [literal_eq hl]
  split at h
  · cases h
  split at h
  · rename_i hb
    cases h
    exact ⟨Nat.zero_le _, by rw [hb]; rfl⟩
  split at h
  · rename_i hb
    cases h
    exact ⟨Nat.le_refl _, by rw [hb]; rfl⟩
  · cases h

theorem headerLine_eq {bs rest : Bytes} {l : HeaderLine} (h : headerLine bs = .complete l rest) :
    l.IsRegular ∧ ∃ e, IsLineEnd e ∧ bs = l.octets ++ (e ++ rest) := by
  obtain ⟨name, mid, hname, h⟩ := Reading.andThen_eq_complete.1 h
  obtain ⟨_, rest', hend, h⟩ := Reading.andThen_eq_complete.1 h
  cases h
  obtain ⟨hne, htoken, rfl⟩ := word_eq hname
  obtain ⟨e, he, hrest⟩ := isLineEnd_of_lineEnd hend
  refine ⟨⟨hne, htoken, List.all_eq_true.1 List.all_takeWhile⟩, e, he, ?_⟩
  rw [← hrest, HeaderLine.octets, List.append_assoc, List.cons_append,
    List.takeWhile_append_dropWhile]

theorem headerLines_eq {room : Nat} {bs rest : Bytes} {ls : List HeaderLine}
    (h : headerLines room bs = .complete ls rest) :
    ∃ block, HeaderBlock ls block ∧ bs = block ++ rest := by
  fun_induction headerLines room bs generalizing ls with
  | case1 | case3 | case4 | case5 => cases h
  | case2 room b bs _ =>
    obtain ⟨_, mid, hend, h⟩ := Reading.andThen_eq_complete.1 h
    cases h
    obtain ⟨e, he, hbs⟩ := isLineEnd_of_lineEnd hend
    exact ⟨e, .last he, hbs⟩
  | case6 b bs _ l rest' hl room ih =>
    obtain ⟨ls', mid, hls, h⟩ := Reading.andThen_eq_complete.1 h
    cases h
    obtain ⟨hregular, e, he, hbs⟩ := headerLine_eq hl
    obtain ⟨block, hblock, rfl⟩ := ih hls
    exact ⟨l.octets ++ (e ++ block), .line hregular he hblock,
      by rw [hbs, List.append_assoc, List.append_assoc]⟩

/-- The `octets` of a request head that `head` reads have the layout of its `lines`. -/
theorem layout_of_head {bs rest : Bytes} {lines : RequestLines}
    (h : head bs = .complete lines rest) :
    ∃ es octets, RequestLayout lines es octets ∧ bs = octets ++ rest := by
  obtain ⟨_, a, hempty, h⟩ := Reading.andThen_eq_complete.1 h
  obtain ⟨method, b, hmethod, h⟩ := Reading.andThen_eq_complete.1 h
  obtain ⟨target, c, htarget, h⟩ := Reading.andThen_eq_complete.1 h
  obtain ⟨minor, d, hversion, h⟩ := Reading.andThen_eq_complete.1 h
  obtain ⟨_, f, hend, h⟩ := Reading.andThen_eq_complete.1 h
  obtain ⟨headers, g, hheaders, h⟩ := Reading.andThen_eq_complete.1 h
  cases h
  obtain ⟨es, hes, rfl⟩ := emptyLines_eq hempty
  obtain ⟨hne, htoken, rfl⟩ := word_eq hmethod
  obtain ⟨hpart, rfl⟩ := target_eq htarget
  obtain ⟨hminor, rfl⟩ := version_eq hversion
  obtain ⟨e, he, rfl⟩ := isLineEnd_of_lineEnd hend
  obtain ⟨block, hblock, rfl⟩ := headerLines_eq hheaders
  refine ⟨es, _, ⟨hes, htoken, hne, hpart, hminor, e, block, he, hblock, rfl⟩, ?_⟩
  simp only [RequestLines.firstLine, List.append_assoc, List.cons_append, List.nil_append]

end RequestGrammar

/-! ### What a head that is parsed consists of -/

namespace RequestHead

theorem ofLines_eq_ok {lines : RequestLines} {length : Nat} {h : RequestHead}
    (ho : ofLines lines length = .ok h) :
    h.method = Utf8.decodeLossy lines.method ∧ h.path = Utf8.decodeLossy lines.target ∧
      h.headers = lines.headers.map HeaderLine.toHeader ∧ h.length = length ∧
      bodyOf h.headers = .ok h.body := by
  unfold ofLines at ho
  simp only at ho
  cases hbody : bodyOf (lines.headers.map HeaderLine.toHeader) with
  | error e => rw [hbody] at ho; cases ho
  | ok body =>
    rw [hbody] at ho
    cases ho
    exact ⟨rfl, rfl, rfl, rfl, hbody⟩

/-- The `octets` of a request head that `parse` reads have the layout of its `lines`. -/
theorem layout_of_parse {raw : Bytes} {h : RequestHead} (hp : parse raw = .ok (some h)) :
    ∃ lines es octets rest, RequestGrammar.head raw = .complete lines rest ∧
    RequestLayout lines es octets ∧
      raw = octets ++ rest ∧ ofLines lines octets.length = .ok h := by
  unfold parse at hp
  split at hp
  · cases hp
  · cases hp
  rename_i lines rest hhead
  obtain ⟨es, octets, hlayout, rfl⟩ := RequestGrammar.layout_of_head hhead
  refine ⟨lines, es, octets, rest, hhead, hlayout, rfl, ?_⟩
  rw [List.length_append, Nat.add_sub_cancel] at hp
  split at hp
  · rename_i head hof
    cases hp
    exact hof
  · cases hp

end RequestHead

end ReverseProxy.Message
