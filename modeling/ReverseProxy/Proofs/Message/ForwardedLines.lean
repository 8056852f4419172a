import ReverseProxy.Proofs.Message.ForwardedHead
import ReverseProxy.Proofs.Text.Encoding

/-!
# The lines of the head that goes on

What the head that goes on to the backend looks like to somebody who cuts it into lines.  If no more
than one empty line comes before the request line, its header lines are the end-to-end lines of the
client, then the offer to keep the connection, then the headers that the proxy adds
(`RequestHead.headerLines_forwarded`).
-/

namespace ReverseProxy.Message

open Octet (IsLineEnd)
open Text (IsLine)

/-- The octets of a header that is added, without the end of the line. -/
def Header.line (x : Header) : Bytes := Utf8.encode (x.name ++ ": " ++ x.value)

namespace RequestHead

/-- The line that offers to keep the connection. -/
def keepAliveLine : Bytes := Utf8.encode "Connection: keep-alive"

/-- The header lines of a head: those after the first, up to the first empty one. -/
def headerLines (head : Bytes) : List Bytes :=
  (lines head).tail.takeWhile fun line => decide (line ≠ [])

/-- The lines `ls` that are put together are found again. -/
theorem lines_flatMap {ls : List Bytes} (h : ∀ line ∈ ls, IsLine line) (rest : Bytes) :
    lines (ls.flatMap (· ++ [Octet.cr, Octet.lf]) ++ rest) = ls ++ lines rest := by
  induction ls with
  | nil => rfl
  | cons line ls ih =>
    obtain ⟨hline, hls⟩ := List.forall_mem_cons.1 h
    rw [List.flatMap_cons, List.append_assoc, List.append_assoc,
      lines_line hline (.inr rfl), ih hls, List.cons_append]

/-! ### The lines that go on -/

/-- Octets without a line end, decoded and encoded again, have no line feed. -/
theorem lf_notMem_encode_decodeLossy {w : Bytes} {p : UInt8 → Bool} (hw : ∀ b ∈ w, p b = true)
    (hlf : p Octet.lf = false) : Octet.lf ∉ Utf8.encode (Utf8.decodeLossy w) := by
  intro h
  have hmem := Utf8.mem_of_mem_encode_decodeLossy h (by decide) (by decide)
  rw [hw _ hmem] at hlf
  cases hlf

/-- The request line that goes on is one line. -/
theorem isLine_requestLine {l : RequestLines} {es : List Bytes} {octets : Bytes}
    (h : RequestLayout l es octets) :
    IsLine (Utf8.encode
      (Utf8.decodeLossy l.method ++ " " ++ Utf8.decodeLossy l.target ++ " HTTP/1.1")) := by
  have hmethod := lf_notMem_encode_decodeLossy h.isToken (by decide)
  have htarget := lf_notMem_encode_decodeLossy h.isTarget (by decide)
  have hsp : Octet.lf ∉ Utf8.encode " " := by decide
  have hversion : Octet.lf ∉ Utf8.encode " HTTP/1.1" := by decide +kernel
  have hlast : (Utf8.encode " HTTP/1.1").getLast? = some 49 := by decide +kernel
  constructor
  · simp only [Utf8.encode_append, List.mem_append, not_or]
    exact ⟨⟨⟨hmethod, hsp⟩, htarget⟩, hversion⟩
  · rw [Utf8.encode_append, List.getLast?_append, hlast]
    simp [Octet.cr]

theorem isLine_keepAliveLine : IsLine keepAliveLine := ⟨by decide +kernel, by decide +kernel⟩

theorem Header.line_ne_nil (x : Header) : x.line ≠ [] := by
  rw [Header.line, Utf8.encode_append, Utf8.encode_append]
  exact List.append_ne_nil_of_left_ne_nil (List.append_ne_nil_of_right_ne_nil _ (by decide)) _

/-- Cut into lines, the head that goes on is what goes on of the lines after the first, then
`keepAliveLine` and what the proxy adds. -/
theorem headerLines_forwarded_of_isLine {raw : Bytes} {h : RequestHead}
    {ls : List Bytes} {extra : List Header}
    (hfirst : IsLine (Utf8.encode (h.method ++ " " ++ h.path ++ " HTTP/1.1")))
    (hafter : linesAfterFirst (raw.take h.length) = ls) (hls : ∀ line ∈ ls, IsLine line ∧ line ≠ [])
    (hextra : ∀ x ∈ extra, IsLine x.line) :
    headerLines (h.forwarded raw extra) =
      (ls.filter fun line => !isHopByHop (Header.connectionOptions h.headers) (lineName line)) ++
        keepAliveLine :: extra.map Header.line := by
  let keep := ls.filter fun line => !isHopByHop (Header.connectionOptions h.headers) (lineName line)
  let rest := keep ++ keepAliveLine :: extra.map Header.line
  have hrest : ∀ line ∈ rest, IsLine line ∧ line ≠ [] := by
    intro line hline
    rcases List.mem_append.1 hline with hline | hline
    · exact hls line (List.mem_filter.1 hline).1
    rcases List.mem_cons.1 hline with rfl | hline
    · exact ⟨isLine_keepAliveLine, by decide⟩
    · obtain ⟨x, hx, rfl⟩ := List.mem_map.1 hline
      exact ⟨hextra x hx, Header.line_ne_nil x⟩
  have heq : h.forwarded raw extra =
      (Utf8.encode (h.method ++ " " ++ h.path ++ " HTTP/1.1") :: rest).flatMap
      (· ++ [Octet.cr, Octet.lf]) ++
        [Octet.cr, Octet.lf] := by
    simp only [forwarded, hafter, textLine, rest, keep, keepAliveLine,
      Header.line, List.flatMap_cons, List.flatMap_append, List.flatMap_map, List.append_assoc]
  have hend : lines [Octet.cr, Octet.lf] = [[], []] := by decide
  rw [headerLines, heq,
    lines_flatMap (List.forall_mem_cons.2 ⟨hfirst, fun line hline => (hrest line hline).1⟩), hend,
    List.cons_append, List.tail_cons, List.takeWhile_append_of_pos fun line hline =>
      decide_eq_true (hrest line hline).2]
  simp [rest, keep]

/-- If there is at most one empty line before the request line, the header lines of the head that
goes on are the end-to-end lines of the client, `keepAliveLine` and the lines of `extra`; after an
empty line the request line may be one more. -/
theorem headerLines_forwarded {raw : Bytes} {h : RequestHead} (hp : parse raw = .ok (some h))
    (hfirst : emptyLinesBefore raw ≤ 1) {extra : List Header}
    (hextra : ∀ x ∈ extra, IsLine x.line) :
    ∃ lines es octets rest, RequestGrammar.head raw = .complete lines rest ∧
      RequestLayout lines es octets ∧ ofLines lines octets.length = .ok h ∧
      ∃ before, (∀ line ∈ before, line = lines.firstLine) ∧
        headerLines (h.forwarded raw extra) = before ++
          ((h.endToEnd lines).map HeaderLine.octets ++ keepAliveLine :: extra.map Header.line) := by
  obtain ⟨lines, es, octets, rest, hhead, hlayout, rfl, hof⟩ := layout_of_parse hp
  refine ⟨lines, es, octets, rest, hhead, hlayout, hof, ?_⟩
  obtain ⟨hmethod, hpath, -, hlength, -⟩ := ofLines_eq_ok hof
  have hrequest := isLine_requestLine hlayout
  rw [← hmethod, ← hpath] at hrequest
  have htake : (octets ++ rest).take h.length = octets := by rw [hlength, List.take_left]
  have hheaders : ∀ line ∈ lines.headers.map HeaderLine.octets, IsLine line ∧ line ≠ [] := by
    intro line hline
    obtain ⟨l, hl, rfl⟩ := List.mem_map.1 hline
    exact ⟨(hlayout.isRegular l hl).isLine, l.octets_ne_nil⟩
  rw [hlayout.emptyLinesBefore_eq rest] at hfirst
  have hafter := hlayout.linesAfterFirst_eq
  rw [← htake] at hafter
  match hes : es.length with
  | 0 =>
    rw [hes] at hafter
    refine ⟨[], List.forall_mem_nil _, ?_⟩
    rw [headerLines_forwarded_of_isLine hrequest hafter hheaders hextra,
      filter_headers hlayout.isRegular, List.nil_append]
  | 1 =>
    rw [hes] at hafter
    have hls :=
      List.forall_mem_cons.2 ⟨⟨hlayout.isLine_firstLine, hlayout.firstLine_ne_nil⟩, hheaders⟩
    refine ⟨[lines.firstLine].filter fun line =>
      !isHopByHop (Header.connectionOptions h.headers) (lineName line), fun line hline => ?_, ?_⟩
    · exact List.mem_singleton.1 (List.mem_filter.1 hline).1
    · rw [headerLines_forwarded_of_isLine hrequest hafter hls hextra, ← List.singleton_append,
        List.filter_append, filter_headers hlayout.isRegular, List.append_assoc]
  | n + 2 => omega

end RequestHead

end ReverseProxy.Message
