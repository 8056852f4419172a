import ReverseProxy.Proofs.Message.ForwardedLines
import ReverseProxy.Proofs.Text.Cutting

/-!
# What a recipient makes of the head that goes on

The backend tells by the header lines where the body of a request ends, and takes what comes after
for another request.  `Recipient.body?` is what a recipient makes of them that takes nothing on
trust: all the codings count, and all the lengths have to be the same digits.  The proxy looks at
the first header of a name only, reads it as text, and sends all of them on.

Such a recipient never finds another body than the one that the proxy forwards.  It finds that one,
or it refuses the request, and it does not refuse it if and only if the header lines of the client
leave no doubt (`Recipient.body?_forwarded`).
-/

namespace ReverseProxy

/-! ### The last piece -/

namespace Text

variable {α : Type} [DecidableEq α]

/-- The piece of `xs` after the last separator, or the whole list if there is none. -/
def lastPiece (sep : α) (xs : List α) : List α := (pieces sep xs).getLastD []

theorem lastPiece_append_sep (sep : α) (xs ys : List α) :
    lastPiece sep (xs ++ sep :: ys) = lastPiece sep ys := by
  obtain ⟨p, hp⟩ :=
    Option.ne_none_iff_exists'.1 (mt List.getLast?_eq_none_iff.1 (pieces_ne_nil sep ys))
  rw [lastPiece, lastPiece, pieces_append_sep, List.getLastD_eq_getLast?, List.getLastD_eq_getLast?,
    List.getLast?_append, hp, Option.some_or]

/-- The last piece of lists that are joined is that of the last of them. -/
theorem lastPiece_intercalate (sep : α) (x : List α) (xs : List (List α)) :
    lastPiece sep ([sep].intercalate (x :: xs)) =
      lastPiece sep ((x :: xs).getLast (List.cons_ne_nil _ _)) := by
  induction xs generalizing x with
  | nil => rw [List.intercalate_singleton, List.getLast_singleton]
  | cons y ys ih =>
    rw [List.intercalate_cons_cons, List.append_assoc, List.singleton_append,
      lastPiece_append_sep, ih, List.getLast_cons_cons]

end Text

namespace Message

open Text (IsLine lastPiece)

/-! ### A recipient -/

namespace Recipient

/-- The comma between codings. -/
def comma : UInt8 := 44

/-- The name of the headers that list codings, in lower case. -/
def transferEncoding : Bytes := Utf8.encode "transfer-encoding"

/-- The name of the headers that announce a length, in lower case. -/
def contentLength : Bytes := Utf8.encode "content-length"

/-- The names of the headers that say where a body ends. -/
def framingNames : List Bytes := [transferEncoding, contentLength]

/-- The coding that delimits a body. -/
def chunkedCoding : Bytes := Utf8.encode "chunked"

/-- The octets `w` without the spaces and tabs around them. -/
def strip (w : Bytes) : Bytes := Text.dropEndWhile Octet.isBlank (w.dropWhile Octet.isBlank)

/-- The name in a header `line`, in lower case, and the value. -/
def field? (line : Bytes) : Option (Bytes × Bytes) :=
  (Text.cut? Octet.colon line).map fun (name, content) => (name.map Octet.lower, strip content)

/-- The value in a header `line` of that name. -/
def value? (name line : Bytes) : Option Bytes :=
  (field? line).bind fun (name', value) => if name' = name then some value else none

/-- The values of the header lines `ls` of that name. -/
def values (name : Bytes) (ls : List Bytes) : List Bytes := ls.filterMap (value? name)

/-- The coding is that of a body in chunks. -/
def isChunked (coding : Bytes) : Bool := decide ((strip coding).map Octet.lower = chunkedCoding)

/-- The number that the digits `v` stand for, if they are digits and there are any. -/
def number? (v : Bytes) : Option Nat :=
  if !v.isEmpty && v.all Octet.isDigit then
    some (v.foldl (fun n b => n * 10 + Octet.digitValue b) 0) else none

/-- The body of so many octets. -/
def ofLength : Nat → RequestBody
  | 0 => .none
  | n => .length n

/-- The body that `codings` and `lengths` announce, if they agree on one.  Codings win over
lengths. -/
def bodyOfValues (codings lengths : List Bytes) : Option RequestBody :=
  match codings, lengths with
  | _ :: _, _ =>
    if isChunked (lastPiece comma ([comma].intercalate codings)) then some .chunked else none
  | [], [] => some .none
  | [], v :: vs => if vs.all (· == v) then (number? v).map ofLength else none

/-- The body that the header lines of `head` announce, if they agree on one. -/
def body? (head : Bytes) : Option RequestBody :=
  bodyOfValues (values transferEncoding (RequestHead.headerLines head))
    (values contentLength (RequestHead.headerLines head))

/-- A line of another name has no value of this one. -/
theorem values_eq_nil {name : Bytes} {ls : List Bytes} (h : ∀ line ∈ ls, value? name line = none) :
    values name ls = [] :=
  List.filterMap_eq_nil_iff.2 h

end Recipient

open Recipient

/-! ### The header lines of the client -/

/-- The values of the header lines of `name`, which is given in lower case. -/
def HeaderLine.values (name : Bytes) (ls : List HeaderLine) : List Bytes :=
  (ls.filter fun l => decide (l.name.map Octet.lower = name)).map HeaderLine.value

/-- The header lines leave no doubt about the body: the last coding that they list is `chunked`, or
they list none and every length that they announce is the same digits. -/
def FramedPlainly (ls : List HeaderLine) : Prop :=
  match (HeaderLine.values transferEncoding ls).getLast? with
  | some codings => isChunked (lastPiece comma codings) = true
  | none => ∃ w, (number? w).isSome ∧ ∀ v ∈ HeaderLine.values contentLength ls, v = w

/-- The `line` of the header is one line, and does not speak of the body. -/
structure Header.IsAside (x : Header) : Prop where
  isLine : IsLine x.line
  value?_line : ∀ name ∈ framingNames, value? name x.line = none

namespace HeaderLine.IsRegular

variable {l : HeaderLine}

theorem colon_notMem (h : l.IsRegular) : Octet.colon ∉ l.name :=
  fun hcolon => absurd (h.isToken Octet.colon hcolon) (by decide)

/-- In a regular line the recipient finds the name and the value that the grammar has read. -/
theorem value?_octets (h : l.IsRegular) (name : Bytes) :
    value? name l.octets = if l.name.map Octet.lower = name then some l.value else none := by
  have hcut :
      Text.cut? Octet.colon (l.name ++ Octet.colon :: l.content) = some (l.name, l.content) :=
    Text.cut?_eq_some_iff.2 ⟨rfl, h.colon_notMem⟩
  rw [value?, field?, HeaderLine.octets, hcut]
  rfl

theorem le_of_mem_name (h : l.IsRegular) : ∀ b ∈ l.name, b ≤ 0x7F := by
  intro b hb
  exact UInt8.le_iff_toNat_le.2
    (Nat.le_trans (Octet.bounds_of_isToken (h.isToken b hb)).2 (by decide))

theorem decodeLossy_name (h : l.IsRegular) :
    Utf8.decodeLossy l.name = String.ofList (l.name.map Utf8.asciiChar) :=
  Utf8.decodeLossy_of_le h.le_of_mem_name

end HeaderLine.IsRegular

/-- In regular lines the recipient finds the `values` that the grammar has read. -/
theorem values_octets {ls : List HeaderLine} (h : ∀ l ∈ ls, l.IsRegular) (name : Bytes) :
    Recipient.values name (ls.map HeaderLine.octets) = HeaderLine.values name ls := by
  induction ls with
  | nil => rfl
  | cons l ls ih =>
    obtain ⟨hl, hls⟩ := List.forall_mem_cons.1 h
    have hvalue := hl.value?_octets name
    rw [List.map_cons, Recipient.values, HeaderLine.values]
    by_cases hname : l.name.map Octet.lower = name
    · rw [if_pos hname] at hvalue
      rw [List.filterMap_cons_some hvalue, ← Recipient.values, ih hls,
        List.filter_cons_of_pos (by simpa using hname), List.map_cons, ← HeaderLine.values]
    · rw [if_neg hname] at hvalue
      rw [List.filterMap_cons_none hvalue, ← Recipient.values, ih hls,
        List.filter_cons_of_neg (by simpa using hname), ← HeaderLine.values]

namespace HeaderLine.IsRegular

variable {l : HeaderLine}

/-- Names of regular lines are compared as texts, or octet by octet. -/
theorem eqIgnoreCase_name (h : l.IsRegular) (w : Bytes) :
    Text.eqIgnoreCase (Utf8.decodeLossy l.name) (String.ofList (w.map Utf8.asciiChar)) =
      decide (l.name.map Octet.lower = w.map Octet.lower) := by
  rw [h.decodeLossy_name, Text.eqIgnoreCase_asciiChar]

theorem eqIgnoreCase_toHeader (h : l.IsRegular) (w : Bytes) :
    Text.eqIgnoreCase l.toHeader.name (String.ofList (w.map Utf8.asciiChar)) =
      decide (l.name.map Octet.lower = w.map Octet.lower) := by
  have hlower : (l.name.map Octet.lower).map Octet.lower = l.name.map Octet.lower := by
    rw [List.map_map]
    exact List.map_congr_left fun b _ => Octet.lower_lower b
  rw [HeaderLine.toHeader, h.decodeLossy_name, Text.lower_ofList_asciiChar,
    Text.eqIgnoreCase_asciiChar, hlower]

/-- The header lines of `framingNames` always go on. -/
theorem speaksOfConnection_eq_false (h : l.IsRegular)
    (hname : l.name.map Octet.lower ∈ framingNames) (headers : List Header) :
    RequestHead.speaksOfConnection headers (Utf8.decodeLossy l.name) = false := by
  have hconnection : RequestHead.connectionHeaders =
      [Utf8.encode "connection", Utf8.encode "keep-alive", Utf8.encode "proxy-connection"].map
        fun w => String.ofList (w.map Utf8.asciiChar) := by decide +kernel
  have hlasting : RequestHead.lastingHeaders =
      [Utf8.encode "host", Utf8.encode "content-length", Utf8.encode "transfer-encoding"].map
        fun w => String.ofList (w.map Utf8.asciiChar) := by decide +kernel
  rw [RequestHead.speaksOfConnection, hconnection, hlasting, List.any_map, List.any_map]
  simp only [Function.comp_def, h.eqIgnoreCase_name]
  have table : ∀ name ∈ framingNames,
      ([Utf8.encode "connection", Utf8.encode "keep-alive", Utf8.encode "proxy-connection"].any
        fun w => decide (name = w.map Octet.lower)) = false ∧
      ([Utf8.encode "host", Utf8.encode "content-length", Utf8.encode "transfer-encoding"].any
        fun w => decide (name = w.map Octet.lower)) = true := by decide +kernel
  obtain ⟨hnot, hlast⟩ := table _ hname
  rw [hnot, hlast, Bool.not_true, Bool.and_false, Bool.or_false]

end HeaderLine.IsRegular

/-- The headers of a `name` are read as text from the header lines of that name. -/
theorem values_toHeader {ls : List HeaderLine} (h : ∀ l ∈ ls, l.IsRegular) {name : Bytes}
    (hname : name.map Octet.lower = name) :
    Header.values (ls.map HeaderLine.toHeader) (String.ofList (name.map Utf8.asciiChar)) =
      (HeaderLine.values name ls).map fun v => Text.trim (Utf8.decodeLossy v) := by
  have hfilter : ∀ l ∈ ls,
    Text.eqIgnoreCase l.toHeader.name (String.ofList (name.map Utf8.asciiChar)) =
      decide (l.name.map Octet.lower = name) := fun l hl => by
    rw [(h l hl).eqIgnoreCase_toHeader, hname]
  rw [Header.values, HeaderLine.values, List.filter_map, List.map_map, List.map_map]
  exact congrArg (List.map _) (List.filter_congr hfilter)

/-- Before the first colon of a request line there is a space. -/
theorem RequestLayout.value?_firstLine {lines : RequestLines} {es : List Bytes} {octets : Bytes}
    (h : RequestLayout lines es octets) {name : Bytes} (hname : Octet.sp ∉ name) :
    value? name lines.firstLine = none := by
  have hpos : ∀ b ∈ lines.method, decide (b ≠ Octet.colon) = true := fun b hb => by
    apply decide_eq_true
    intro hcolon
    have htoken := h.isToken b hb
    rw [hcolon] at htoken
    exact absurd htoken (by decide)
  have hsp : Octet.sp ∈ (lines.firstLine.takeWhile fun b => decide (b ≠ Octet.colon)).map
      Octet.lower := by
    refine List.mem_map.2 ⟨Octet.sp, ?_, by decide⟩
    rw [RequestLines.firstLine, List.takeWhile_append_of_pos hpos,
      List.takeWhile_cons_of_pos (by decide)]
    exact List.mem_append_right _ (List.mem_cons_self ..)
  rw [value?, field?, Text.cut?]
  split
  · rfl
  · refine if_neg fun heq => hname ?_
    rw [← heq]
    exact hsp

/-- Under `framingNames` the recipient finds the lines of the client, and no others. -/
theorem values_forwarded {raw : Bytes} {h : RequestHead} (hp : RequestHead.parse raw = .ok (some h))
    (hfirst : RequestHead.emptyLinesBefore raw ≤ 1) {extra : List Header}
    (hextra : ∀ x ∈ extra, x.IsAside) :
    ∃ lines rest, RequestGrammar.head raw = .complete lines rest ∧
    (∀ l ∈ lines.headers, l.IsRegular) ∧
      h.headers = lines.headers.map HeaderLine.toHeader ∧
      RequestHead.bodyOf h.headers = .ok h.body ∧
      ∀ name ∈ framingNames,
        Recipient.values name (RequestHead.headerLines (h.forwarded raw extra)) =
        HeaderLine.values name lines.headers := by
  obtain ⟨lines, es, octets, rest, hhead, hlayout, hof, before, hbefore, hlines⟩ :=
    RequestHead.headerLines_forwarded hp hfirst fun x hx => (hextra x hx).isLine
  obtain ⟨-, -, hheaders, -, hbody⟩ := RequestHead.ofLines_eq_ok hof
  refine ⟨lines, rest, hhead, hlayout.isRegular, hheaders, hbody, fun name hname => ?_⟩
  have hsp : Octet.sp ∉ name := by
    have table : ∀ name ∈ framingNames, Octet.sp ∉ name := by decide +kernel
    exact table name hname
  have hadded :
      Recipient.values name (RequestHead.keepAliveLine :: extra.map Header.line) = [] := by
    refine values_eq_nil (List.forall_mem_cons.2 ⟨?_, List.forall_mem_map.2 fun x hx => ?_⟩)
    · have table : ∀ name ∈ framingNames, value? name RequestHead.keepAliveLine = none := by
        decide +kernel
      exact table name hname
    · exact (hextra x hx).value?_line name hname
  have hrequest : Recipient.values name before = [] :=
    values_eq_nil fun line hline => hbefore line hline ▸ hlayout.value?_firstLine hsp
  have hkept :
      HeaderLine.values name (h.endToEnd lines) = HeaderLine.values name lines.headers := by
    rw [HeaderLine.values, RequestHead.endToEnd, List.filter_filter, HeaderLine.values]
    refine congrArg _ (List.filter_congr fun l hl => ?_)
    by_cases heq : l.name.map Octet.lower = name
    · rw [(hlayout.isRegular l hl).speaksOfConnection_eq_false (heq ▸ hname),
        Bool.not_false, Bool.and_true]
    · rw [decide_eq_false heq, Bool.false_and]
  have hregular : ∀ l ∈ h.endToEnd lines, l.IsRegular :=
    fun l hl => hlayout.isRegular l (List.mem_filter.1 hl).1
  rw [hlines, Recipient.values, List.filterMap_append, List.filterMap_append, ← Recipient.values,
    ← Recipient.values, ← Recipient.values, hrequest, hadded, values_octets hregular,
    hkept, List.nil_append,
    List.append_nil]

/-! ### Where the recipient finds the end of the body -/

/-- A digit as a character, which is neither white space nor a sign. -/
theorem asciiChar_of_isDigit {b : UInt8} (h : Octet.isDigit b = true) :
    Text.isDigit (Utf8.asciiChar b) = true ∧ Text.isBlank (Utf8.asciiChar b) = false ∧
    Utf8.asciiChar b ≠ '+' := by
  have table : ∀ n < 256, Octet.isDigit (UInt8.ofNat n) = true →
      Text.isDigit (Utf8.asciiChar (UInt8.ofNat n)) = true ∧
        Text.isBlank (Utf8.asciiChar (UInt8.ofNat n)) = false ∧
        Utf8.asciiChar (UInt8.ofNat n) ≠ '+' := by
    decide +kernel
  have hb := table b.toNat b.toNat_lt
  rw [UInt8.ofNat_toNat] at hb
  exact hb h

/-- If the recipient reads `v` as a number, and the proxy does, it is the same. -/
theorem eq_of_number? {v : Bytes} {m n : Nat} (hm : number? v = some m)
    (hn : Text.word? (Text.trim (Utf8.decodeLossy v)) = some n) : m = n := by
  rw [number?, Option.ite_none_right_eq_some, Bool.and_eq_true, List.all_eq_true] at hm
  obtain ⟨⟨-, hdigits⟩, hm⟩ := hm
  have hle : ∀ b ∈ v, b ≤ 0x7F := fun b hb => by
    have hdigit := hdigits b hb
    simp only [Octet.isDigit, Bool.and_eq_true, decide_eq_true_eq] at hdigit
    exact UInt8.le_trans hdigit.2 (by decide)
  have hblank : ∀ c ∈ v.map Utf8.asciiChar, Text.isBlank c = false :=
    List.forall_mem_map.2 fun b hb => (asciiChar_of_isDigit (hdigits b hb)).2.1
  have hsign : ∀ c ∈ v.map Utf8.asciiChar, c ≠ '+' :=
    List.forall_mem_map.2 fun b hb => (asciiChar_of_isDigit (hdigits b hb)).2.2
  have hvalue : Text.digitsValue (v.map Utf8.asciiChar) = m := by
    rw [← Option.some.inj hm, Text.digitsValue, List.foldl_map]
    simp only [Utf8.toNat_asciiChar, Octet.digitValue]
  rw [Utf8.decodeLossy_of_le hle, Text.trim_ofList hblank, Text.word?,
    Text.numeral?, String.toList_ofList] at hn
  obtain ⟨hdigits?, hlt⟩ := Option.filter_eq_some_iff.1 hn
  split at hdigits?
  · rename_i hplus
    exact absurd rfl (hsign '+' (hplus ▸ List.mem_cons_self ..))
  · -- the number is not cut off at the size of a word, for then it would be refused
    rw [Text.digits?, Option.ite_none_right_eq_some, Text.digitsUpTo_eq, hvalue] at hdigits?
    have hmin := Option.some.inj hdigits?.2
    have hword := of_decide_eq_true hlt
    omega

/-- The body that `bodyOf` makes of the lines of `framingNames`. -/
theorem bodyOf_toHeader {ls : List HeaderLine} (hls : ∀ l ∈ ls, l.IsRegular) {body : RequestBody}
    (hbody : RequestHead.bodyOf (ls.map HeaderLine.toHeader) = .ok body) :
    match HeaderLine.values transferEncoding ls, HeaderLine.values contentLength ls with
    | _ :: _, _ => body = .chunked
    | [], [] => body = .none
    | [], v :: _ =>
        ∃ n, Text.word? (Text.trim (Utf8.decodeLossy v)) = some n ∧ body = ofLength n := by
  have hcoding : "transfer-encoding" = String.ofList (transferEncoding.map Utf8.asciiChar) := by
    decide +kernel
  have hlength : "content-length" = String.ofList (contentLength.map Utf8.asciiChar) := by
    decide +kernel
  rw [RequestHead.bodyOf, Header.first?_eq_head?, Header.first?_eq_head?, hcoding, hlength,
    values_toHeader hls (by decide +kernel), values_toHeader hls (by decide +kernel)] at hbody
  cases hT : HeaderLine.values transferEncoding ls with
  | cons t ts =>
    rw [hT] at hbody
    simp only [List.map_cons, List.head?_cons] at hbody
    split at hbody
    · cases hbody
      rfl
    · cases hbody
  | nil =>
    cases hC : HeaderLine.values contentLength ls with
    | nil =>
      rw [hT, hC] at hbody
      cases hbody
      rfl
    | cons v vs =>
      rw [hT, hC] at hbody
      simp only [List.map_nil, List.head?_nil, List.map_cons, List.head?_cons] at hbody
      split at hbody
      · cases hbody
      · rename_i hword
        cases hbody
        exact ⟨0, hword, rfl⟩
      · rename_i n hne hword
        cases hbody
        refine ⟨n, hword, ?_⟩
        cases n with
        | zero => exact absurd rfl hne
        | succ k => rfl

/-- The recipient finds the body that the proxy forwards exactly if the lines are
`FramedPlainly`. -/
theorem bodyOfValues_eq_some {ls : List HeaderLine} (hls : ∀ l ∈ ls, l.IsRegular)
    {body body' : RequestBody}
    (hbody : RequestHead.bodyOf (ls.map HeaderLine.toHeader) = .ok body) :
    bodyOfValues (HeaderLine.values transferEncoding ls) (HeaderLine.values contentLength ls) =
      some body' ↔
      body' = body ∧ FramedPlainly ls := by
  have hproxy := bodyOf_toHeader hls hbody
  rw [FramedPlainly]
  cases hT : HeaderLine.values transferEncoding ls with
  | cons t ts =>
    rw [hT] at hproxy
    obtain rfl : body = .chunked := hproxy
    rw [bodyOfValues, Text.lastPiece_intercalate,
      List.getLast?_eq_some_getLast (List.cons_ne_nil _ _),
      Option.ite_none_right_eq_some, Option.some_inj]
    exact ⟨fun ⟨hchunked, heq⟩ => ⟨heq.symm, hchunked⟩, fun ⟨heq, hchunked⟩ => ⟨hchunked, heq.symm⟩⟩
  | nil =>
    cases hC : HeaderLine.values contentLength ls with
    | nil =>
      rw [hT, hC] at hproxy
      obtain rfl : body = .none := hproxy
      have hplain : ∃ w, (number? w).isSome ∧ ∀ v ∈ ([] : List Bytes), v = w :=
        ⟨[48], by decide, List.forall_mem_nil _⟩
      exact ⟨fun heq => ⟨(Option.some.inj heq).symm, hplain⟩, fun heq => heq.1 ▸ rfl⟩
    | cons v vs =>
      rw [hT, hC] at hproxy
      obtain ⟨n, hword, rfl⟩ := hproxy
      rw [bodyOfValues, Option.ite_none_right_eq_some, Option.map_eq_some_iff, List.all_eq_true]
      constructor
      · rintro ⟨hall, m, hm, rfl⟩
        exact ⟨congrArg ofLength (eq_of_number? hm hword), v, hm ▸ rfl,
          List.forall_mem_cons.2 ⟨rfl, fun w hw => beq_iff_eq.1 (hall w hw)⟩⟩
      · rintro ⟨rfl, w, hw, hall⟩
        obtain ⟨rfl, hvs⟩ := List.forall_mem_cons.1 hall
        obtain ⟨m, hm⟩ := Option.isSome_iff_exists.1 hw
        exact ⟨fun w hw => beq_iff_eq.2 (hvs w hw), m, hm,
          congrArg ofLength (eq_of_number? hm hword)⟩

/-- For a request after at most one empty line, and any `extra` headers that do not speak of the
body, a recipient of the forwarded head finds `h.body` or none at all; and it finds `h.body` exactly
if the client's header lines are `FramedPlainly`. -/
theorem body?_forwarded {raw : Bytes} {h : RequestHead} (hp : RequestHead.parse raw = .ok (some h))
    (hfirst : RequestHead.emptyLinesBefore raw ≤ 1) {extra : List Header}
    (hextra : ∀ x ∈ extra, x.IsAside) :
    ∃ lines rest, RequestGrammar.head raw = .complete lines rest ∧
      h.headers = lines.headers.map HeaderLine.toHeader ∧
      ∀ body, Recipient.body? (h.forwarded raw extra) = some body ↔
        body = h.body ∧ FramedPlainly lines.headers := by
  obtain ⟨lines, rest, hhead, hregular, hheaders, hbody, hvalues⟩ :=
    values_forwarded hp hfirst hextra
  refine ⟨lines, rest, hhead, hheaders, fun body => ?_⟩
  rw [hheaders] at hbody
  rw [Recipient.body?, hvalues _ (List.mem_cons_self ..),
    hvalues _ (List.mem_cons_of_mem _ (List.mem_cons_self ..)), bodyOfValues_eq_some hregular hbody]

/-- A request that announces the same length twice. -/
def sameLengths : Bytes :=
  Utf8.encode "POST / HTTP/1.1\r\nContent-Length: 5\r\nHost: a\r\ncontent-length:5\t\r\n\r\n"

/-- The head of `sameLengths`. -/
def sameLengthsHead : RequestHead where
  method := "POST"
  path := "/"
  minor := 1
  headers := [{ name := "content-length", value := "5" }, { name := "host", value := "a" },
    { name := "content-length", value := "5" }]
  length := 66
  body := .length 5
  keepAlive := true

/-- The header `X-Forwarded-For` of a request. -/
def forwardedFor : Header := { name := "X-Forwarded-For", value := "10.0.0.9" }

/-- For `sameLengths` the recipient finds the body. -/
theorem body?_forwarded_sameLengths :
    RequestHead.parse sameLengths = .ok (some sameLengthsHead) ∧
    RequestHead.emptyLinesBefore sameLengths ≤ 1 ∧
      (∀ x ∈ [forwardedFor], x.IsAside) ∧
      Recipient.body? (sameLengthsHead.forwarded sameLengths [forwardedFor]) = some (.length 5) ∧
      ∃ lines rest, RequestGrammar.head sameLengths = .complete lines rest ∧
      FramedPlainly lines.headers := by
  have hparse : RequestHead.parse sameLengths = .ok (some sameLengthsHead) :=
    RequestHead.parse_eq_of_toOption (by decide +kernel)
  have hfirst : RequestHead.emptyLinesBefore sameLengths ≤ 1 := by decide +kernel
  have hextra : ∀ x ∈ [forwardedFor], x.IsAside :=
    List.forall_mem_singleton.2 ⟨⟨by decide +kernel, by decide +kernel⟩, by decide +kernel⟩
  have hbody :
    Recipient.body? (sameLengthsHead.forwarded sameLengths [forwardedFor]) = some (.length 5) := by
    decide +kernel
  obtain ⟨lines, rest, hhead, -, hiff⟩ := body?_forwarded hparse hfirst hextra
  exact ⟨hparse, hfirst, hextra, hbody, lines, rest, hhead, ((hiff _).1 hbody).2⟩

/-- A request that announces two lengths. -/
def twoLengths : Bytes :=
  Utf8.encode "POST / HTTP/1.1\r\nHost: a\r\nContent-Length: 5\r\nContent-Length: 6\r\n\r\n"

/-- The head of `twoLengths`. -/
def twoLengthsHead : RequestHead where
  method := "POST"
  path := "/"
  minor := 1
  headers := [{ name := "host", value := "a" }, { name := "content-length", value := "5" },
    { name := "content-length", value := "6" }]
  length := 66
  body := .length 5
  keepAlive := true

/-- The request `twoLengths` is forwarded with a body of the first length, and a strict recipient
refuses it. -/
theorem body?_forwarded_twoLengths :
    RequestHead.parse twoLengths = .ok (some twoLengthsHead) ∧ twoLengthsHead.body = .length 5 ∧
      Recipient.body? (twoLengthsHead.forwarded twoLengths []) = none := by
  have hparse : RequestHead.parse twoLengths = .ok (some twoLengthsHead) :=
    RequestHead.parse_eq_of_toOption (by decide +kernel)
  exact ⟨hparse, rfl, by decide +kernel⟩

end Message

end ReverseProxy
