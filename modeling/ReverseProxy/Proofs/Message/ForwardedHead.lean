import ReverseProxy.Message.Forwarding
import ReverseProxy.Proofs.Message.RequestLayout
import ReverseProxy.Proofs.Text.Ascii
import ReverseProxy.Proofs.Text.Cutting

/-!
# What of a request head goes on to the backend

The head that goes to the backend is to have every header line of the client's head that does not
speak of the client's connection, and no other line: `RequestHead.faithful` says so by the header
lines that have been read.  `RequestHead.forwarded` takes the lines from the octets once more, and
takes the first line for the request line.  The grammar allows empty lines before it.
`forwarded_eq_faithful_iff` says when the two agree.
-/

namespace ReverseProxy.Message

open Octet (IsLineEnd)
open Text (IsLine)

namespace RequestHead

/-! ### The lines of a head -/

/-- The lines that octets consist of, without their ends. -/
def lines (bs : Bytes) : List Bytes := (Text.pieces Octet.lf bs).map dropCr

/-- The number of empty lines before the first that is not empty. -/
def emptyLinesBefore (bs : Bytes) : Nat :=
  ((lines bs).takeWhile fun line => decide (line = [])).length

/-- The first line that is not empty. -/
def firstLine (bs : Bytes) : Bytes := ((lines bs).dropWhile fun line => decide (line = [])).headD []

theorem linesAfterFirst_eq (bs : Bytes) :
    linesAfterFirst bs = (lines bs).tail.takeWhile fun line => decide (line ≠ []) := by
  rw [linesAfterFirst, lines, List.map_tail]

/-- The octets of `line` and its end `e` are cut off as the first line. -/
theorem lines_line {line e : Bytes} (hl : IsLine line) (he : IsLineEnd e) (rest : Bytes) :
    lines (line ++ (e ++ rest)) = line :: lines rest := by
  rcases he with rfl | rfl
  · have hdrop : dropCr line = line := if_neg hl.getLast?_ne
    rw [List.singleton_append, lines, Text.pieces_append_cons hl.lf_notMem,
      List.map_cons, hdrop, ← lines]
  · have hlf : Octet.lf ∉ line ++ [Octet.cr] := by
      rw [List.mem_append, not_or]
      exact ⟨hl.lf_notMem, by decide⟩
    have hdrop : dropCr (line ++ [Octet.cr]) = line := by
      rw [dropCr, if_pos List.getLast?_concat, List.dropLast_concat]
    have happend :
        line ++ ([Octet.cr, Octet.lf] ++ rest) = line ++ [Octet.cr] ++ Octet.lf :: rest := by
      rw [List.append_assoc]
      rfl
    rw [happend, lines, Text.pieces_append_cons hlf, List.map_cons, hdrop, ← lines]

theorem lines_emptyLines {es : List Bytes} (h : ∀ e ∈ es, IsLineEnd e) (rest : Bytes) :
    lines (es.flatten ++ rest) = List.replicate es.length [] ++ lines rest := by
  induction es with
  | nil => rfl
  | cons e es ih =>
    obtain ⟨he, hes⟩ := List.forall_mem_cons.1 h
    have hline := lines_line Text.isLine_nil he (es.flatten ++ rest)
    rw [List.nil_append] at hline
    rw [List.flatten_cons, List.append_assoc, hline, ih hes]
    rfl

end RequestHead

/-! ### The lines of a layout -/

theorem HeaderLine.IsRegular.isLine {l : HeaderLine} (h : l.IsRegular) : IsLine l.octets := by
  apply Text.isLine_of_forall
  intro b hb
  rcases List.mem_append.1 hb with hb | hb
  · exact Text.isEol_eq_false_of (p := Octet.isToken) (by decide) (by decide) (h.isToken b hb)
  rcases List.mem_cons.1 hb with rfl | hb
  · decide
  · exact Text.isEol_eq_false_of (p := RequestGrammar.isValue) (by decide)
      (by decide) (h.isValue b hb)

theorem HeaderLine.octets_ne_nil (l : HeaderLine) : l.octets ≠ [] :=
  List.append_ne_nil_of_right_ne_nil _ (List.cons_ne_nil _ _)

theorem HeaderBlock.lines_eq {ls : List HeaderLine} {block : Bytes} (h : HeaderBlock ls block) :
    RequestHead.lines block = ls.map HeaderLine.octets ++ [[], []] := by
  induction h with
  | last he =>
    have hline := RequestHead.lines_line Text.isLine_nil he []
    rw [List.nil_append, List.append_nil] at hline
    rw [hline]
    rfl
  | line hl he _ ih => rw [RequestHead.lines_line hl.isLine he, ih, List.map_cons, List.cons_append]

namespace RequestLayout

variable {l : RequestLines} {es : List Bytes} {octets : Bytes}

theorem isLine_firstLine (h : RequestLayout l es octets) : IsLine l.firstLine := by
  apply Text.isLine_of_forall
  intro b hb
  rcases List.mem_append.1 hb with hb | hb
  · exact Text.isEol_eq_false_of (p := Octet.isToken) (by decide) (by decide) (h.isToken b hb)
  rcases List.mem_cons.1 hb with rfl | hb
  · decide
  rcases List.mem_append.1 hb with hb | hb
  · exact Text.isEol_eq_false_of (p := RequestGrammar.isTarget) (by decide)
      (by decide) (h.isTarget b hb)
  rcases List.mem_cons.1 hb with rfl | hb
  · decide
  have hversion : ∀ n ≤ 1, ∀ b ∈ Utf8.encode "HTTP/1." ++ [48 + UInt8.ofNat n],
      Octet.isEol b = false := by
    decide +kernel
  exact hversion _ h.minor_le b hb

theorem firstLine_ne_nil (h : RequestLayout l es octets) : l.firstLine ≠ [] :=
  List.append_ne_nil_of_left_ne_nil h.method_ne_nil _

/-- The lines of a head. -/
theorem lines_eq (h : RequestLayout l es octets) :
    RequestHead.lines octets =
      List.replicate es.length [] ++ l.firstLine ::
        (l.headers.map HeaderLine.octets ++ [[], []]) := by
  obtain ⟨e, block, he, hblock, rfl⟩ := h.eq
  rw [RequestHead.lines_emptyLines h.isLineEnd, RequestHead.lines_line h.isLine_firstLine he,
    hblock.lines_eq]

/-- The first lines of a head are the same whatever `rest` comes after it. -/
theorem lines_append (h : RequestLayout l es octets) (rest : Bytes) :
    ∃ more, RequestHead.lines (octets ++ rest) =
      List.replicate es.length [] ++ l.firstLine :: more := by
  obtain ⟨e, block, he, -, rfl⟩ := h.eq
  refine ⟨RequestHead.lines (block ++ rest), ?_⟩
  simp only [List.append_assoc]
  rw [RequestHead.lines_emptyLines h.isLineEnd, RequestHead.lines_line h.isLine_firstLine he]

theorem emptyLinesBefore_eq (h : RequestLayout l es octets) (rest : Bytes) :
    RequestHead.emptyLinesBefore (octets ++ rest) = es.length := by
  obtain ⟨more, hlines⟩ := h.lines_append rest
  rw [RequestHead.emptyLinesBefore, hlines, List.takeWhile_append_of_pos,
    List.takeWhile_cons_of_neg]
  · simp
  · simpa using h.firstLine_ne_nil
  · simp

theorem firstLine_eq (h : RequestLayout l es octets) (rest : Bytes) :
    RequestHead.firstLine (octets ++ rest) = l.firstLine := by
  obtain ⟨more, hlines⟩ := h.lines_append rest
  rw [RequestHead.firstLine, hlines, List.dropWhile_append_of_pos, List.dropWhile_cons_of_neg]
  · rfl
  · simpa using h.firstLine_ne_nil
  · simp

/-- No line of a head before its end is empty, apart from those before the request line. -/
theorem takeWhile_headers (l : RequestLines) :
    (l.headers.map HeaderLine.octets ++ [[], []]).takeWhile (fun line => decide (line ≠ [])) =
      l.headers.map HeaderLine.octets := by
  rw [List.takeWhile_append_of_pos]
  · simp
  · intro line hline
    obtain ⟨x, -, rfl⟩ := List.mem_map.1 hline
    simpa using x.octets_ne_nil

/-- The lines that the proxy takes for headers: after one empty line the request line is one of
them, and after two the second is taken for the end of the head. -/
theorem linesAfterFirst_eq (h : RequestLayout l es octets) :
    RequestHead.linesAfterFirst octets =
      match es.length with
      | 0 => l.headers.map HeaderLine.octets
      | 1 => l.firstLine :: l.headers.map HeaderLine.octets
      | _ + 2 => [] := by
  rw [RequestHead.linesAfterFirst_eq, h.lines_eq]
  match es.length with
  | 0 => exact takeWhile_headers l
  | 1 =>
    have hne : decide (l.firstLine ≠ []) = true := decide_eq_true h.firstLine_ne_nil
    exact (List.takeWhile_cons_of_pos (p := fun line => decide (line ≠ [])) hne).trans
      (congrArg (l.firstLine :: ·) (takeWhile_headers l))
  | n + 2 => rfl

end RequestLayout

namespace RequestHead

/-! ### The head that should go on -/

/-- The header `name` speaks of the client's connection, among these `headers`. -/
def speaksOfConnection (headers : List Header) (name : String) : Bool :=
  connectionHeaders.any (Text.eqIgnoreCase name) ||
    ((Header.connectionOptions headers).any (Text.eqIgnoreCase · name) &&
      !lastingHeaders.any (Text.eqIgnoreCase name))

/-- The header lines of the request that do not speak of its connection. -/
def endToEnd (h : RequestHead) (lines : RequestLines) : List HeaderLine :=
  lines.headers.filter fun l => !speaksOfConnection h.headers (Utf8.decodeLossy l.name)

/-- The head that should go on: the end-to-end header lines, each of them as it came, and what the
proxy adds. -/
def faithful (h : RequestHead) (lines : RequestLines) (extra : List Header) : Bytes :=
  textLine (h.method ++ " " ++ h.path ++ " HTTP/1.1") ++
  (h.endToEnd lines).flatMap (fun l => l.octets ++ [Octet.cr, Octet.lf]) ++
  textLine "Connection: keep-alive" ++
  extra.flatMap (fun x => textLine (x.name ++ ": " ++ x.value)) ++
  [Octet.cr, Octet.lf]

theorem isHopByHop_eq (headers : List Header) (name : String) :
    isHopByHop (Header.connectionOptions headers) name = speaksOfConnection headers name := by
  unfold isHopByHop speaksOfConnection
  split
  · rename_i h
    rw [h, Bool.true_or]
  rename_i h
  rw [Bool.eq_false_iff.2 h, Bool.false_or]
  split
  · rename_i h
    rw [h, Bool.not_true, Bool.and_false]
  · rename_i h
    rw [Bool.eq_false_iff.2 h, Bool.not_false, Bool.and_true]

end RequestHead

/-- The name of a header line is found before the first colon. -/
theorem HeaderLine.IsRegular.lineName_eq {l : HeaderLine} (h : l.IsRegular) :
    RequestHead.lineName l.octets = Utf8.decodeLossy l.name := by
  have hname : Text.before Octet.colon l.octets = l.name := by
    rw [Text.before, HeaderLine.octets, List.takeWhile_append_of_pos, List.takeWhile_cons_of_neg,
      List.append_nil]
    · decide
    · intro b hb
      apply decide_eq_true
      intro hcolon
      have htoken := h.isToken b hb
      rw [hcolon] at htoken
      exact absurd htoken (by decide)
  rw [RequestHead.lineName, hname, Text.trim_token h.isToken]

theorem HeaderBlock.isRegular {ls : List HeaderLine} {block : Bytes} (h : HeaderBlock ls block) :
    ∀ l ∈ ls, l.IsRegular := by
  induction h with
  | last => exact List.forall_mem_nil _
  | line hl _ _ ih => exact List.forall_mem_cons.2 ⟨hl, ih⟩

theorem RequestLayout.isRegular {l : RequestLines} {es : List Bytes} {octets : Bytes}
    (h : RequestLayout l es octets) : ∀ x ∈ l.headers, x.IsRegular := by
  obtain ⟨e, block, -, hblock, -⟩ := h.eq
  exact hblock.isRegular

namespace RequestHead

/-- What has been read of a head that is parsed. -/
theorem lines_of_parse {raw : Bytes} {h : RequestHead} (hp : parse raw = .ok (some h)) :
    ∃ lines rest, RequestGrammar.head raw = .complete lines rest ∧
    h.headers = lines.headers.map HeaderLine.toHeader ∧
      h.length = raw.length - rest.length := by
  obtain ⟨lines, es, octets, rest, hhead, -, rfl, hof⟩ := layout_of_parse hp
  obtain ⟨-, -, hheaders, hlength, -⟩ := ofLines_eq_ok hof
  exact ⟨lines, rest, hhead, hheaders, by rw [hlength, List.length_append, Nat.add_sub_cancel]⟩

/-- The lines of `ls` that go on, with their ends. -/
def kept (h : RequestHead) (ls : List Bytes) : Bytes :=
  (ls.filter fun line => !isHopByHop (Header.connectionOptions h.headers) (lineName line)).flatMap
    (· ++ [Octet.cr, Octet.lf])

theorem kept_cons_of_hop {h : RequestHead} {line : Bytes}
    (hl : speaksOfConnection h.headers (lineName line) = true) (ls : List Bytes) :
    h.kept (line :: ls) = h.kept ls := by
  rw [kept, List.filter_cons_of_neg (by simpa [isHopByHop_eq] using hl), ← kept]

theorem kept_cons_of_not_hop {h : RequestHead} {line : Bytes}
    (hl : ¬speaksOfConnection h.headers (lineName line) = true) (ls : List Bytes) :
    h.kept (line :: ls) = line ++ [Octet.cr, Octet.lf] ++ h.kept ls := by
  rw [kept, List.filter_cons_of_pos (by simpa [isHopByHop_eq] using hl), List.flatMap_cons, ← kept]

/-- Of the header lines that the grammar has read, those that `isHopByHop` lets pass are the
end-to-end ones. -/
theorem filter_headers {h : RequestHead} {lines : RequestLines}
    (hl : ∀ l ∈ lines.headers, l.IsRegular) :
    ((lines.headers.map HeaderLine.octets).filter fun line =>
      !isHopByHop (Header.connectionOptions h.headers) (lineName line)) =
        (h.endToEnd lines).map HeaderLine.octets := by
  have hname : ∀ l ∈ lines.headers,
      (!isHopByHop (Header.connectionOptions h.headers) (lineName l.octets)) =
        !speaksOfConnection h.headers (Utf8.decodeLossy l.name) := fun l hmem => by
    rw [(hl l hmem).lineName_eq, isHopByHop_eq]
  rw [List.filter_map, Function.comp_def, List.filter_congr hname, ← endToEnd]

theorem kept_headers {h : RequestHead} {lines : RequestLines}
    (hl : ∀ l ∈ lines.headers, l.IsRegular) :
    h.kept (lines.headers.map HeaderLine.octets) =
      (h.endToEnd lines).flatMap fun l => l.octets ++ [Octet.cr, Octet.lf] := by
  rw [kept, filter_headers hl, List.flatMap_map]

/-- The head that goes on is `faithful` exactly if the lines that are `kept` are the end-to-end
ones. -/
theorem forwarded_eq_faithful_iff_kept {h : RequestHead} {raw : Bytes}
    {lines : RequestLines} {extra : List Header} :
    h.forwarded raw extra = h.faithful lines extra ↔ h.kept (linesAfterFirst (raw.take h.length)) =
      (h.endToEnd lines).flatMap fun l => l.octets ++ [Octet.cr, Octet.lf] := by
  rw [forwarded, faithful, ← kept, List.append_cancel_right_eq, List.append_cancel_right_eq,
    List.append_cancel_right_eq, List.append_cancel_left_eq]

/-- Lines that go on leave octets. -/
theorem flatMap_octets_eq_nil {ls : List HeaderLine} :
    (ls.flatMap fun l => l.octets ++ [Octet.cr, Octet.lf]) = [] ↔ ls = [] := by
  cases ls with
  | nil => exact ⟨fun _ => rfl, fun _ => rfl⟩
  | cons l ls => simp [HeaderLine.octets]

/-- For a request that `parse` reads, with the `lines` that the grammar gives it: `forwarded` is
`faithful`, with all end-to-end header lines as they came and no other line, exactly if there is no
empty line before the request line, or what is wrong does not show.  After one empty line the
request line goes on as a header line, unless it begins like a header that speaks of the connection;
after more empty lines no header line goes on. -/
theorem forwarded_eq_faithful_iff {raw : Bytes} {h : RequestHead} (hp : parse raw = .ok (some h)) :
    ∃ lines rest, RequestGrammar.head raw = .complete lines rest ∧
      h.headers = lines.headers.map HeaderLine.toHeader ∧
      ∀ extra, h.forwarded raw extra = h.faithful lines extra ↔
        emptyLinesBefore raw = 0 ∨
        emptyLinesBefore raw = 1 ∧ speaksOfConnection h.headers (lineName (firstLine raw)) = true ∨
        1 < emptyLinesBefore raw ∧ h.endToEnd lines = [] := by
  obtain ⟨lines, rest, hhead, hheaders, hlength⟩ := lines_of_parse hp
  refine ⟨lines, rest, hhead, hheaders, fun extra => ?_⟩
  obtain ⟨es, octets, hlayout, rfl⟩ := RequestGrammar.layout_of_head hhead
  have htake : (octets ++ rest).take h.length = octets := by
    rw [hlength, List.length_append, Nat.add_sub_cancel, List.take_left]
  have hkept := kept_headers (h := h) hlayout.isRegular
  rw [forwarded_eq_faithful_iff_kept, htake, hlayout.emptyLinesBefore_eq, hlayout.firstLine_eq,
    hlayout.linesAfterFirst_eq, ← hkept]
  match es.length with
  | 0 => exact ⟨fun _ => .inl rfl, fun _ => rfl⟩
  | 1 =>
    by_cases hhop : speaksOfConnection h.headers (lineName lines.firstLine) = true
    · exact ⟨fun _ => .inr (.inl ⟨rfl, hhop⟩), fun _ => kept_cons_of_hop hhop _⟩
    · constructor
      · -- the request line is a line too many
        intro heq
        have hlen := congrArg List.length heq
        rw [kept_cons_of_not_hop hhop, List.length_append, List.length_append] at hlen
        simp only [List.length_cons] at hlen
        omega
      · rintro (hn | ⟨-, hhop'⟩ | ⟨hn, -⟩)
        · cases hn
        · exact absurd hhop' hhop
        · exact absurd hn (Nat.lt_irrefl 1)
  | n + 2 =>
    rw [hkept]
    constructor
    · intro hnil
      exact .inr (.inr ⟨by omega, flatMap_octets_eq_nil.1 hnil.symm⟩)
    · rintro (hn | ⟨hn, -⟩ | ⟨-, hnil⟩)
      · cases hn
      · cases hn
      · rw [hnil]
        rfl

/-- Results of `parse` are compared by what is parsed. -/
theorem parse_eq_of_toOption {raw : Bytes} {h : RequestHead}
    (hp : (parse raw).toOption = some (some h)) :
    parse raw = .ok (some h) := by
  cases hread : parse raw with
  | error e => rw [hread] at hp; cases hp
  | ok x => rw [hread] at hp; exact congrArg Except.ok (Option.some.inj hp)

/-- A request with an empty line before the request line. -/
def emptyLineFirst : Bytes := Utf8.encode "\r\nGET / HTTP/1.1\r\nHost: a\r\n\r\n"

/-- The head of `emptyLineFirst`. -/
def emptyLineFirstHead : RequestHead where
  method := "GET"
  path := "/"
  minor := 1
  headers := [{ name := "host", value := "a" }]
  length := 29
  body := .none
  keepAlive := true

/-- For `emptyLineFirst` the request line goes on to the backend twice, and not only the headers
that should. -/
theorem forwarded_emptyLineFirst :
    parse emptyLineFirst = .ok (some emptyLineFirstHead) ∧
      emptyLineFirstHead.forwarded emptyLineFirst [] =
        Utf8.encode
          "GET / HTTP/1.1\r\nGET / HTTP/1.1\r\nHost: a\r\nConnection: keep-alive\r\n\r\n" ∧
      ∃ lines rest, RequestGrammar.head emptyLineFirst = .complete lines rest ∧
        emptyLineFirstHead.forwarded emptyLineFirst [] ≠ emptyLineFirstHead.faithful lines [] := by
  have hparse : parse emptyLineFirst = .ok (some emptyLineFirstHead) :=
    parse_eq_of_toOption (by decide +kernel)
  refine ⟨hparse, by decide +kernel, ?_⟩
  obtain ⟨lines, rest, hhead, -, hiff⟩ := forwarded_eq_faithful_iff hparse
  refine ⟨lines, rest, hhead, fun heq => ?_⟩
  have hempty : emptyLinesBefore emptyLineFirst = 1 := by decide +kernel
  have hhop : speaksOfConnection emptyLineFirstHead.headers (lineName (firstLine emptyLineFirst)) =
      false := by
    decide +kernel
  rcases (hiff []).1 heq with h | ⟨-, h⟩ | ⟨h, -⟩
  · rw [hempty] at h
    cases h
  · rw [hhop] at h
    cases h
  · rw [hempty] at h
    exact absurd h (Nat.lt_irrefl 1)

end RequestHead

end ReverseProxy.Message
