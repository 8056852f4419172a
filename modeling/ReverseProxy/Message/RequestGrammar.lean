import ReverseProxy.Text.Utf8
import ReverseProxy.Message.Defect
import ReverseProxy.Text.Blank

/-!
# The grammar of a request head

A request head is a request line, header lines and an empty line; lines end with a line feed or with
a carriage return and a line feed, and empty lines may come before the request line.

Reading is a matter of octets that may still be arriving, so that every part of the grammar has
three outcomes (`Reading`): it is complete, it is refused, or the octets end before either is
decided.  A part that is complete or refused stays so whatever comes after.
-/

namespace ReverseProxy.Message

/-- The outcome of reading a part of a head at the front of the octets that have arrived. -/
inductive Reading (α : Type) where
  /-- The octets end before the part does. -/
  | incomplete
  | refused (why : RequestDefect)
  /-- The part, and the octets after it. -/
  | complete (part : α) (rest : Bytes)
deriving DecidableEq, Repr

namespace Reading

variable {α β : Type}

/-- Goes on after a complete part. -/
def andThen : Reading α → (α → Bytes → Reading β) → Reading β
  | incomplete, _ => incomplete
  | refused why, _ => refused why
  | complete a rest, k => k a rest

@[simp] theorem andThen_incomplete (k : α → Bytes → Reading β) :
    (incomplete : Reading α).andThen k = incomplete := rfl
@[simp] theorem andThen_refused (why : RequestDefect) (k : α → Bytes → Reading β) :
    (refused why : Reading α).andThen k = refused why := rfl
@[simp] theorem andThen_complete (a : α) (rest : Bytes) (k : α → Bytes → Reading β) :
    (complete a rest).andThen k = k a rest := rfl

theorem andThen_eq_complete {r : Reading α} {k : α → Bytes → Reading β} {b : β} {rest : Bytes} :
    r.andThen k = complete b rest ↔ ∃ a mid, r = complete a mid ∧ k a mid = complete b rest := by
  cases r with
  | incomplete | refused => simp
  | complete a mid =>
    simp only [andThen_complete, complete.injEq]
    exact ⟨fun h => ⟨a, mid, ⟨rfl, rfl⟩, h⟩, fun ⟨_, _, ⟨ha, hm⟩, h⟩ => ha ▸ hm ▸ h⟩

/-- Replaces the part of a complete reading. -/
def map (f : α → β) (r : Reading α) : Reading β := r.andThen fun a rest => complete (f a) rest

end Reading

/-- A header line: the octets of the name, and all the octets between the colon and the end of the
line. -/
structure HeaderLine where
  name : Bytes
  content : Bytes
deriving DecidableEq, Repr

/-- The value of a header line is its content without the white space around it. -/
def HeaderLine.value (l : HeaderLine) : Bytes :=
  Text.dropEndWhile Octet.isBlank (l.content.dropWhile Octet.isBlank)

/-- The parts of a request head, as octets. -/
structure RequestLines where
  method : Bytes
  target : Bytes
  /-- The digit after `HTTP/1.`. -/
  minor : Nat
  headers : List HeaderLine
deriving DecidableEq, Repr

namespace RequestGrammar

/-- The most headers that a request may have. -/
def maxHeaders : Nat := 96

/-- An octet of the target of a request: anything but white space and control characters. -/
def isTarget (b : UInt8) : Bool := (0x21 ≤ b && b ≤ 0x7E) || 0x80 ≤ b

/-- An octet of a header value: anything but control characters other than the tab. -/
def isValue (b : UInt8) : Bool := b == Octet.htab || (0x20 ≤ b && b ≤ 0x7E) || 0x80 ≤ b

/-- The end of a line; a lone carriage return is refused for the reason `why`. -/
def lineEnd (why : RequestDefect) : Bytes → Reading Unit
  | [] => .incomplete
  | b :: bs =>
      if b = Octet.lf then .complete () bs
      else if b = Octet.cr then
        match bs with
        | [] => .incomplete
        | c :: cs => if c = Octet.lf then .complete () cs else .refused why
      else .refused why

/-- Any number of empty lines, and at least one octet after them. -/
def emptyLines : Bytes → Reading Unit
  | [] => .incomplete
  | b :: bs =>
      if b = Octet.lf then emptyLines bs
      else if b = Octet.cr then
        match bs with
        | [] => .incomplete
        | c :: cs => if c = Octet.lf then emptyLines cs else .refused .newLine
      else .complete () (b :: bs)

/-- One or more octets of a class, ended by `stop`, which is not one of them. -/
def word (isPart : UInt8 → Bool) (stop : UInt8) (why : RequestDefect)
    (bs : Bytes) : Reading Bytes :=
  match bs.dropWhile isPart with
  | [] => .incomplete
  | b :: rest =>
      if b = stop ∧ bs.takeWhile isPart ≠ [] then .complete (bs.takeWhile isPart) rest
      else .refused why

/-- The method, ended by a space. -/
def method (bs : Bytes) : Reading Bytes := word Octet.isToken Octet.sp .token bs

/-- The target, which is well-formed UTF-8, ended by a space. -/
def target (bs : Bytes) : Reading Bytes :=
  (word isTarget Octet.sp .token bs).andThen fun w rest =>
    if Utf8.isWellFormed w then .complete w rest else .refused .token

/-- The octets of a given word; others are refused for the reason `why`. -/
def literal (why : RequestDefect) : Bytes → Bytes → Reading Unit
  | [], bs => .complete () bs
  | _ :: _, [] => .incomplete
  | w :: ws, b :: bs => if w = b then literal why ws bs else .refused why

/-- The version, of which only the last digit varies. -/
def version (bs : Bytes) : Reading Nat :=
  (literal .version (Utf8.encode "HTTP/1.") bs).andThen fun _ rest =>
    match rest with
    | [] => .incomplete
    | b :: rest =>
        if b = 48 then .complete 0 rest else if b = 49 then .complete 1 rest else .refused .version

/-- A header line. -/
def headerLine (bs : Bytes) : Reading HeaderLine :=
  (word Octet.isToken Octet.colon .headerName bs).andThen fun name rest =>
    (lineEnd .headerValue (rest.dropWhile isValue)).andThen fun _ rest' =>
      .complete { name, content := rest.takeWhile isValue } rest'

theorem length_dropWhile_le (p : UInt8 → Bool) (bs : Bytes) : (bs.dropWhile p).length ≤ bs.length :=
  (List.dropWhile_suffix p).length_le

theorem lineEnd_length {why : RequestDefect} {bs rest : Bytes}
    (h : lineEnd why bs = .complete () rest) :
    rest.length < bs.length := by
  unfold lineEnd at h
  split at h
  · cases h
  · split at h
    · cases h; simp
    · split at h
      · split at h
        · cases h
        · split at h
          · cases h; simp only [List.length_cons]; omega
          · cases h
      · cases h

theorem word_length {isPart : UInt8 → Bool} {stop : UInt8} {why : RequestDefect} {bs w rest : Bytes}
    (h : word isPart stop why bs = .complete w rest) : rest.length < bs.length := by
  unfold word at h
  split at h
  · cases h
  · rename_i b rest' hd
    split at h
    · cases h
      have := length_dropWhile_le isPart bs
      rw [hd] at this
      exact this
    · cases h

theorem headerLine_length {bs rest : Bytes} {l : HeaderLine}
    (h : headerLine bs = .complete l rest) :
    rest.length < bs.length := by
  unfold headerLine at h
  cases hw : word Octet.isToken Octet.colon .headerName bs with
  | incomplete => rw [hw] at h; cases h
  | refused why => rw [hw] at h; cases h
  | complete name r =>
    rw [hw, Reading.andThen_complete] at h
    cases hl : lineEnd .headerValue (r.dropWhile isValue) with
    | incomplete => rw [hl] at h; cases h
    | refused why => rw [hl] at h; cases h
    | complete u r' =>
      rw [hl, Reading.andThen_complete] at h
      cases h
      have h1 := word_length hw
      have h2 := lineEnd_length hl
      have h3 := length_dropWhile_le isValue r
      omega

/-- The header lines and the empty line after them; `room` more headers are kept. -/
def headerLines (room : Nat) (bs : Bytes) : Reading (List HeaderLine) :=
  match bs with
  | [] => .incomplete
  | b :: bs =>
      if Octet.isEol b then (lineEnd .newLine (b :: bs)).map fun _ => []
      else
        match _h : headerLine (b :: bs) with
        | .incomplete => .incomplete
        | .refused why => .refused why
        | .complete l rest =>
            match room with
            | 0 => .refused .tooManyHeaders
            | room + 1 => (headerLines room rest).map (l :: ·)
termination_by bs.length
decreasing_by exact headerLine_length _h

/-! ### How much is read -/

theorem emptyLines_length {bs rest : Bytes} (h : emptyLines bs = .complete () rest) :
    rest.length ≤ bs.length := by
  fun_induction emptyLines bs with
  | case1 | case3 | case5 => cases h
  | case2 _ ih => exact Nat.le_succ_of_le (ih h)
  | case4 _ _ ih => exact Nat.le_succ_of_le (Nat.le_succ_of_le (ih h))
  | case6 => cases h; exact Nat.le_refl _

theorem literal_length {why : RequestDefect} {w bs rest : Bytes}
    (h : literal why w bs = .complete () rest) :
    rest.length ≤ bs.length := by
  fun_induction literal why w bs with
  | case1 => cases h; exact Nat.le_refl _
  | case2 => cases h
  | case3 ws b bs ih => exact Nat.le_succ_of_le (ih h)
  | case4 => cases h

theorem target_length {bs rest w : Bytes} (h : target bs = .complete w rest) :
    rest.length < bs.length := by
  obtain ⟨w', mid, hw, h⟩ := Reading.andThen_eq_complete.1 h
  split at h
  · cases h; exact word_length hw
  · cases h

theorem version_length {bs rest : Bytes} {n : Nat} (h : version bs = .complete n rest) :
    rest.length < bs.length := by
  obtain ⟨_, mid, hl, h⟩ := Reading.andThen_eq_complete.1 h
  have := literal_length hl
  split at h
  · cases h
  · simp only [List.length_cons] at this
    split at h
    · cases h; omega
    · split at h
      · cases h; omega
      · cases h

theorem headerLines_length {room : Nat} {bs rest : Bytes} {ls : List HeaderLine}
    (h : headerLines room bs = .complete ls rest) : rest.length < bs.length := by
  fun_induction headerLines room bs generalizing ls with
  | case1 | case3 | case4 | case5 => cases h
  | case2 room b bs _ =>
    obtain ⟨_, mid, hl, h⟩ := Reading.andThen_eq_complete.1 h
    cases h
    exact lineEnd_length hl
  | case6 b bs _ l rest' hl room ih =>
    obtain ⟨_, mid, hm, h⟩ := Reading.andThen_eq_complete.1 h
    cases h
    exact Nat.lt_trans (ih hm) (headerLine_length hl)

/-- A request head. -/
def head (bs : Bytes) : Reading RequestLines :=
  (emptyLines bs).andThen fun _ bs =>
  (method bs).andThen fun method bs =>
  (target bs).andThen fun target bs =>
  (version bs).andThen fun minor bs =>
  (lineEnd .newLine bs).andThen fun _ bs =>
  (headerLines maxHeaders bs).map fun headers => { method, target, minor, headers }

/-- A head is not empty. -/
theorem head_length {bs rest : Bytes} {lines : RequestLines} (h : head bs = .complete lines rest) :
    rest.length < bs.length := by
  obtain ⟨_, a, h1, h⟩ := Reading.andThen_eq_complete.1 h
  obtain ⟨_, b, h2, h⟩ := Reading.andThen_eq_complete.1 h
  obtain ⟨_, c, h3, h⟩ := Reading.andThen_eq_complete.1 h
  obtain ⟨_, d, h4, h⟩ := Reading.andThen_eq_complete.1 h
  obtain ⟨_, e, h5, h⟩ := Reading.andThen_eq_complete.1 h
  obtain ⟨_, f, h6, h⟩ := Reading.andThen_eq_complete.1 h
  cases h
  have := emptyLines_length h1
  have := word_length h2
  have := target_length h3
  have := version_length h4
  have := lineEnd_length h5
  have := headerLines_length h6
  omega

end RequestGrammar

end ReverseProxy.Message
