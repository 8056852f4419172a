import ReverseProxy.Message.ResponseHead
import ReverseProxy.Text.Split

/-!
# A response head by its lines

A `ResponseParser` never has more than one octet before it.  What it makes of a text is said here of
the text as a whole: the text is cut into lines, the first of which is the status line and the
others, up to the first that is empty, hold the headers (`outline?`).
-/

namespace ReverseProxy.Message

namespace HeadLines

/-- The lines of `bs`, each with what comes after it.  A line ends with a line feed, with a carriage
return and a line feed, or with a carriage return that has another octet after it. -/
def lines : Bytes → List (Bytes × Bytes)
  | [] => []
  | b :: bs =>
      if b = Octet.lf then ([], bs) :: lines bs
      else if b = Octet.cr then
        match bs with
        | [] => []
        | c :: rest =>
          if c = Octet.lf then ([], rest) :: lines rest else ([], c :: rest) :: lines (c :: rest)
      else
        match lines bs with
        | [] => []
        | (line, rest) :: more => (b :: line, rest) :: more

/-- The octet is not white space within a line. -/
def isInk (b : UInt8) : Bool := !Octet.isBlank b

/-- The number that the digits of a word make; its other octets do not matter. -/
def decimal (word : Bytes) : Nat :=
  (word.filter Octet.isDigit).foldl (fun n b => n * 10 + Octet.digitValue b) 0

/-- The protocol, the status and the message of a status `line`, with white space between them. -/
def statusLine (line : Bytes) : ResponseHead :=
  let afterProtocol := (line.dropWhile isInk).dropWhile Octet.isBlank
  let afterStatus := (afterProtocol.dropWhile isInk).dropWhile Octet.isBlank
  { protocol := Utf8.decodeLossy (line.takeWhile isInk)
    status := UInt16.ofNat (decimal (afterProtocol.takeWhile isInk))
    message := Text.trimEnd (Utf8.decodeLossy afterStatus) }

/-- The header of `name` and `value`, unless the name is blank. -/
def headerOf? (name value : Bytes) : Option Header :=
  let h : Header :=
    { name := Text.trim (Utf8.decodeLossy name), value := Text.trimEnd (Utf8.decodeLossy value) }
  if h.name = "" then none else some h

/-- The header of a `line`: what stands before the first colon, in lower case, and what stands after
it. -/
def header? (line : Bytes) : Option Header :=
  (Text.cut? Octet.colon line).bind fun (name, value) =>
    headerOf? (name.map Octet.lower) (value.dropWhile Octet.isBlank)

/-- The head at the beginning of `bs`, and its length. -/
def outline? (bs : Bytes) : Option (ResponseHead × Nat) :=
  match lines (bs.dropWhile Octet.isEol) with
  | [] => none
  | (status, _) :: more =>
      (more.find? fun l => l.1 = []).map fun blank =>
        ({ statusLine status with
            headers := ((more.takeWhile fun l => l.1 ≠ []).filterMap fun l => header? l.1) },
          bs.length - blank.2.length)

/-- The number of octets of `bs` that are read before its head is known to be complete, or of all of
them. -/
def reach (bs : Bytes) : Nat := ((outline? bs).map Prod.snd).getD bs.length

/-- The header `h` says that the body is sent in chunks. -/
def announcesChunks (h : Header) : Bool := h.name == "transfer-encoding" && endsInChunked h.value

/-- The length that the header `h` announces for the body. -/
def announcedLength? (h : Header) : Option Nat :=
  if h.name = "content-length" then Text.word? (Text.trim h.value) else none

/-! ### The lines, octet by octet -/

/-- The octets without the line feed at their beginning. -/
def dropLf : Bytes → Bytes
  | [] => []
  | b :: bs => if b = Octet.lf then bs else b :: bs

variable {b : UInt8} {bs : Bytes}

theorem isEol_iff : Octet.isEol b = true ↔ b = Octet.cr ∨ b = Octet.lf := by
  simp [Octet.isEol]

theorem lines_lf (bs : Bytes) : lines (Octet.lf :: bs) = ([], bs) :: lines bs := by
  rw [lines.eq_def]
  exact if_pos rfl

theorem lines_cr (b : UInt8) (bs : Bytes) :
    lines (Octet.cr :: b :: bs) = ([], dropLf (b :: bs)) :: lines (dropLf (b :: bs)) := by
  rw [lines, if_neg (by decide), if_pos rfl]
  simp only [dropLf]
  split
  · rfl
  · rfl

theorem lines_cons (h : Octet.isEol b = false) (bs : Bytes) :
    lines (b :: bs) =
      match lines bs with
      | [] => []
      | (line, rest) :: more => (b :: line, rest) :: more := by
  have hne : ¬(b = Octet.cr ∨ b = Octet.lf) := fun hb => Bool.eq_false_iff.1 h (isEol_iff.2 hb)
  rw [lines.eq_def]
  exact (if_neg fun hb => hne (.inr hb)).trans (if_neg fun hb => hne (.inl hb))

/-- What comes after a line is an end of the text. -/
theorem suffix_of_mem_lines (bs : Bytes) : ∀ l ∈ lines bs, l.2 <:+ bs := by
  fun_induction lines bs with
  | case1 | case3 | case6 => exact List.forall_mem_nil _
  | case2 bs ih =>
    have hcons := List.suffix_cons Octet.lf bs
    exact List.forall_mem_cons.2 ⟨hcons, fun l hl => (ih l hl).trans hcons⟩
  | case4 rest _ ih =>
    have hcons := (List.suffix_cons Octet.lf rest).trans (List.suffix_cons Octet.cr _)
    exact List.forall_mem_cons.2 ⟨hcons, fun l hl => (ih l hl).trans hcons⟩
  | case5 c rest _ _ ih =>
    have hcons := List.suffix_cons Octet.cr (c :: rest)
    exact List.forall_mem_cons.2 ⟨hcons, fun l hl => (ih l hl).trans hcons⟩
  | case7 b bs _ _ line rest more hlines ih =>
    have hcons := List.suffix_cons b bs
    rw [hlines, List.forall_mem_cons] at ih
    exact List.forall_mem_cons.2 ⟨ih.1.trans hcons, fun l hl => (ih.2 l hl).trans hcons⟩

end HeadLines

end ReverseProxy.Message
