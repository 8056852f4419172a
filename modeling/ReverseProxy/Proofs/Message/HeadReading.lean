import ReverseProxy.Proofs.Message.Heedfulness
import ReverseProxy.Proofs.Text.Cutting

/-!
# A response head is read by its lines

Whatever place a `ResponseParser` is at, what it will have read at the end of the head can be said
of the lines of what is still to come (`ResponseParser.expected`).  No octet changes this
(`ResponseParser.expected_step`): what an octet puts into the reader it takes from the text, and the
first line of the text that is left is the rest of the line that the reader is in.
-/

namespace ReverseProxy.Message

open HeadLines

/-- The `head` with another header, if there is one. -/
def ResponseHead.with (head : ResponseHead) (h? : Option Header) : ResponseHead :=
  { head with headers := head.headers ++ h?.toList }

namespace ResponseParser

/-! ### To the end of a line -/

/-- The head at the end of the status line, from within its message, of which `token` has been
read. -/
def inMessage (head : ResponseHead) (token line : Bytes) : ResponseHead :=
  { head with message := Text.trimEnd (Utf8.decodeLossy (token.reverse ++ line)) }

/-- The number `code` after the digits of `word`. -/
def codeAfter (code : UInt16) (word : Bytes) : UInt16 :=
  word.foldl (fun n b => if Octet.isDigit b then n * 10 + (b.toUInt16 - 48) else n) code

/-- The head at the end of the status `line`, from within its number. -/
def inCode (head : ResponseHead) (line : Bytes) : ResponseHead :=
  inMessage { head with status := codeAfter head.status (line.takeWhile isInk) } []
    ((line.dropWhile isInk).dropWhile Octet.isBlank)

/-- The head at the end of the status `line`, from within its protocol, of which `token` has been
read. -/
def inProtocol (head : ResponseHead) (token line : Bytes) : ResponseHead :=
  inCode { head with protocol := Utf8.decodeLossy (token.reverse ++ line.takeWhile isInk) }
    ((line.dropWhile isInk).dropWhile Octet.isBlank)

/-- The head at the end of a header `line`, from within the value. -/
def inValue (head : ResponseHead) (name value line : Bytes) : ResponseHead :=
  head.with (headerOf? name.reverse (value.reverse ++ line))

/-- The head at the end of a header `line`, from within the name. -/
def inName (head : ResponseHead) (name line : Bytes) : ResponseHead :=
  match Text.cut? Octet.colon line with
  | none => head
  | some (front, back) =>
      inValue head ((front.map Octet.lower).reverse ++ name) [] (back.dropWhile Octet.isBlank)

/-! ### To the end of the head -/

/-- The head at the first empty line, and what comes after it. -/
def atHeadEnd? (head : ResponseHead) (ls : List (Bytes × Bytes)) : Option (ResponseHead × Bytes) :=
  (ls.find? fun l => l.1 = []).map fun blank =>
    ({ head with
        headers := head.headers ++
          (ls.takeWhile fun l => l.1 ≠ []).filterMap fun l => header? l.1 },
      blank.2)

/-- The head at the first empty line after this line, given by `atEnd` at the end of it. -/
def afterLine? (atEnd : Bytes → ResponseHead) (bs : Bytes) : Option (ResponseHead × Bytes) :=
  match lines bs with
  | [] => none
  | (line, _) :: more => atHeadEnd? (atEnd line) more

/-- The head that the reader `p` will have read in the text `bs`, and what comes after it. -/
def expected (p : ResponseParser) (bs : Bytes) : Option (ResponseHead × Bytes) :=
  match p.place with
  | .leading => afterLine? (inProtocol p.head p.token) (bs.dropWhile Octet.isEol)
  | .protocol => afterLine? (inProtocol p.head p.token) bs
  | .beforeCode => afterLine? (fun line => inCode p.head (line.dropWhile Octet.isBlank)) bs
  | .code => afterLine? (inCode p.head) bs
  | .beforeMessage =>
      afterLine? (fun line => inMessage p.head p.token (line.dropWhile Octet.isBlank)) bs
  | .message => afterLine? (inMessage p.head p.token) bs
  | .statusLf | .headerLf => atHeadEnd? p.head (lines (dropLf bs))
  | .lineStart => atHeadEnd? p.head (lines bs)
  | .name => afterLine? (inName p.head p.name) bs
  | .beforeValue =>
      afterLine? (fun line => inValue p.head p.name p.value (line.dropWhile Octet.isBlank)) bs
  | .value => afterLine? (inValue p.head p.name p.value) bs
  | .blankLf => if bs = [] then none else some (p.head, dropLf bs)
  | .done => some (p.head, bs)

variable {head : ResponseHead} {f g : Bytes → ResponseHead} {b : UInt8} {bs line rest : Bytes}
  {ls : List (Bytes × Bytes)}

@[simp] theorem atHeadEnd?_nil (head : ResponseHead) : atHeadEnd? head [] = none := rfl

@[simp] theorem atHeadEnd?_blank (head : ResponseHead) (rest : Bytes) (ls : List (Bytes × Bytes)) :
    atHeadEnd? head (([], rest) :: ls) = some (head, rest) := by
  simp [atHeadEnd?]

theorem atHeadEnd?_cons (hline : line ≠ []) (head : ResponseHead) (rest : Bytes)
    (ls : List (Bytes × Bytes)) :
    atHeadEnd? head ((line, rest) :: ls) = atHeadEnd? (head.with (header? line)) ls := by
  rw [atHeadEnd?, List.find?_cons_of_neg (by simpa using hline),
    List.takeWhile_cons_of_pos (by simpa using hline), List.filterMap_cons]
  cases hheader : header? line with
  | none => simp [atHeadEnd?, ResponseHead.with]
  | some h => simp [atHeadEnd?, ResponseHead.with]

@[simp] theorem afterLine?_nil (f : Bytes → ResponseHead) : afterLine? f [] = none := rfl

/-- At its end the line has nothing left. -/
theorem afterLine?_eol (hb : Octet.isEol b = true) (f : Bytes → ResponseHead) (bs : Bytes) :
    afterLine? f (b :: bs) =
      atHeadEnd? (f []) (lines (if b = Octet.cr then dropLf bs else bs)) := by
  rcases isEol_iff.1 hb with rfl | rfl
  · rw [if_pos rfl]
    cases bs with
    | nil => rfl
    | cons c bs => rw [afterLine?, lines_cr]
  · rw [if_neg (by decide), afterLine?, lines_lf]

/-- Before its end the line has an octet. -/
theorem afterLine?_cons (hb : Octet.isEol b = false) (f : Bytes → ResponseHead) (bs : Bytes) :
    afterLine? f (b :: bs) = afterLine? (fun line => f (b :: line)) bs := by
  rw [afterLine?, lines_cons hb, afterLine?]
  cases lines bs with
  | nil => rfl
  | cons l ls => rfl

/-- If `f` and `g` agree on lines that begin with `b`, they do for a text that does. -/
theorem afterLine?_congr (hnil : f [] = g []) (hcons : ∀ line, f (b :: line) = g (b :: line))
    (bs : Bytes) :
    afterLine? f (b :: bs) = afterLine? g (b :: bs) := by
  cases hb : Octet.isEol b with
  | true => rw [afterLine?_eol hb, afterLine?_eol hb, hnil]
  | false =>
    rw [afterLine?_cons hb, afterLine?_cons hb]
    exact congrArg (afterLine? · bs) (funext hcons)

/-! ### What the reader holds -/

/-- The reader holds only what belongs to its place. -/
structure Tidy (p : ResponseParser) : Prop where
  token : p.place ≠ .protocol → p.place ≠ .message → p.token = []
  name : p.place ≠ .name → p.place ≠ .beforeValue → p.place ≠ .value → p.name = []
  value : p.place ≠ .value → p.value = []
  message : p.place.inStatusLine = true → p.message = ""

variable {p : ResponseParser}

theorem tidy_new (limit : Nat) : (new limit).Tidy :=
  ⟨fun _ _ => rfl, fun _ _ _ => rfl, fun _ => rfl, fun _ => rfl⟩

theorem head_heed (p : ResponseParser) (h : Header) : (p.heed h).head = p.head := by
  simp only [head, heed]
  split
  · rfl
  split
  · rfl
  split <;> rfl

theorem head_register (p : ResponseParser) :
    p.register.head = inValue p.head p.name p.value [] := by
  rw [inValue, List.append_nil, headerOf?]
  show p.register.head = p.head.with (if p.pending.name = "" then none else some p.pending)
  rw [register_eq]
  split
  · simp [ResponseHead.with, head]
  · have hheed := head_heed { p with name := [], value := [] } p.pending
    rw [head, ResponseHead.mk.injEq] at hheed
    obtain ⟨hprotocol, hstatus, hmessage, -⟩ := hheed
    simp [ResponseHead.with, head, hprotocol, hstatus, hmessage]

theorem tidy_endStatusLine (htoken : p.token = []) (hname : p.name = [])
    (hvalue : p.value = []) (b : UInt8) :
    (p.endStatusLine b).Tidy := by
  unfold endStatusLine
  split
  · exact ⟨fun _ _ => htoken, fun _ _ _ => hname, fun _ => hvalue, (absurd · Bool.false_ne_true)⟩
  · exact ⟨fun _ _ => htoken, fun _ _ _ => hname, fun _ => hvalue, (absurd · Bool.false_ne_true)⟩

theorem tidy_endHeaderLine (htoken : p.token = []) (hname : p.name = [])
    (hvalue : p.value = []) (b : UInt8) :
    (p.endHeaderLine b).Tidy := by
  unfold endHeaderLine
  split
  · exact ⟨fun _ _ => htoken, fun _ _ _ => hname, fun _ => hvalue, (absurd · Bool.false_ne_true)⟩
  · exact ⟨fun _ _ => htoken, fun _ _ _ => hname, fun _ => hvalue, (absurd · Bool.false_ne_true)⟩

theorem holds_heed (p : ResponseParser) (h : Header) :
    (p.heed h).token = p.token ∧ (p.heed h).name = p.name ∧ (p.heed h).value = p.value := by
  unfold heed
  split
  · exact ⟨rfl, rfl, rfl⟩
  split
  · exact ⟨rfl, rfl, rfl⟩
  split <;> exact ⟨rfl, rfl, rfl⟩

/-- Of a header nothing is held after `register`. -/
theorem holds_register (p : ResponseParser) :
    p.register.token = p.token ∧ p.register.name = [] ∧ p.register.value = [] := by
  rw [register_eq]
  generalize p.pending = h
  split
  · exact ⟨rfl, rfl, rfl⟩
  · obtain ⟨htoken, hname, hvalue⟩ := holds_heed { p with name := [], value := [] } h
    exact ⟨htoken, hname, hvalue⟩

theorem Tidy.step (h : p.Tidy) (b : UInt8) : (p.step b).1.Tidy := by
  obtain ⟨htoken, hname, hvalue, hmessage⟩ := h
  cases hp : p.place <;>
    simp only [hp, ne_eq, reduceCtorEq, not_false_eq_true, not_true_eq_false, forall_const,
      false_implies, HeadPlace.inStatusLine, Bool.false_eq_true] at htoken hname hvalue hmessage <;>
    simp only [ResponseParser.step, hp]
  case protocol =>
    split
    · exact ⟨fun _ _ => rfl, fun _ _ _ => hname, fun _ => hvalue, fun _ => hmessage⟩
    split
    · unfold takeProtocol
      refine tidy_endStatusLine ?_ ?_ ?_ b
      · rfl
      · exact hname
      · exact hvalue
    · exact ⟨fun hne => absurd rfl hne, fun _ _ _ => hname, fun _ => hvalue, fun _ => hmessage⟩
  case code =>
    split
    · exact ⟨fun _ _ => htoken, fun _ _ _ => hname, fun _ => hvalue, fun _ => hmessage⟩
    split
    · exact ⟨fun _ _ => htoken, fun _ _ _ => hname, fun _ => hvalue, fun _ => hmessage⟩
    split
    · exact tidy_endStatusLine htoken hname hvalue b
    · exact ⟨fun _ _ => htoken, fun _ _ _ => hname, fun _ => hvalue, fun _ => hmessage⟩
  case message =>
    split
    · unfold takeMessage
      refine tidy_endStatusLine ?_ ?_ ?_ b
      · rfl
      · exact hname
      · exact hvalue
    · exact ⟨fun _ hne => absurd rfl hne, fun _ _ _ => hname, fun _ => hvalue, fun _ => hmessage⟩
  case name =>
    split
    · exact ⟨fun _ _ => htoken, fun _ hne => absurd rfl hne, fun _ => hvalue,
        (absurd · Bool.false_ne_true)⟩
    split
    · exact tidy_endHeaderLine (p := { p with name := [] }) htoken rfl hvalue b
    · exact ⟨fun _ _ => htoken, fun hne => absurd rfl hne, fun _ => hvalue,
        (absurd · Bool.false_ne_true)⟩
  case value =>
    obtain ⟨htoken', hname', hvalue'⟩ := holds_register p
    split
    · exact tidy_endHeaderLine (htoken'.trans htoken) hname' hvalue' b
    · exact ⟨fun _ _ => htoken, fun _ _ hne => absurd rfl hne, fun hne => absurd rfl hne,
        (absurd · Bool.false_ne_true)⟩
  -- at the other places nothing is put down, and nothing is held that the next place does not hold
  all_goals
    (repeat' split) <;> constructor <;> simp_all [HeadPlace.inStatusLine]

/-! ### No octet changes what is expected -/

theorem expected_endStatusLine (p : ResponseParser) (b : UInt8) (bs : Bytes) :
    (p.endStatusLine b).expected bs =
      atHeadEnd? p.head (lines (if b = Octet.cr then dropLf bs else bs)) := by
  by_cases hb : b = Octet.cr
  · simp only [endStatusLine, expected, hb, if_true]
    rfl
  · simp only [endStatusLine, expected, hb, if_false]
    rfl

theorem expected_endHeaderLine (p : ResponseParser) (b : UInt8) (bs : Bytes) :
    (p.endHeaderLine b).expected bs =
      atHeadEnd? p.head (lines (if b = Octet.cr then dropLf bs else bs)) := by
  by_cases hb : b = Octet.cr
  · simp only [endHeaderLine, expected, hb, if_true]
    rfl
  · simp only [endHeaderLine, expected, hb, if_false]
    rfl

/-- A message of white space is none. -/
theorem inMessage_nil (hmessage : head.message = "") : inMessage head [] [] = head := by
  obtain ⟨protocol, status, message, headers⟩ := head
  obtain rfl : message = "" := hmessage
  have hdecode : Utf8.decodeLossy [] = "" := by rw [Utf8.decodeLossy, Utf8.scan]; rfl
  rw [inMessage, List.reverse_nil, List.append_nil, hdecode]
  rfl

theorem inCode_nil (hmessage : head.message = "") : inCode head [] = head := inMessage_nil hmessage

theorem isEol_of_isBlank (hb : Octet.isBlank b = true) : Octet.isEol b = false := by
  simp only [Octet.isBlank, Bool.or_eq_true, beq_iff_eq] at hb
  rcases hb with rfl | rfl
  · rfl
  · rfl

theorem isBlank_of_isDigit (hb : Octet.isDigit b = true) : Octet.isBlank b = false := by
  apply Bool.eq_false_iff.2
  intro hblank
  simp only [Octet.isBlank, Bool.or_eq_true, beq_iff_eq] at hblank
  rcases hblank with rfl | rfl
  · exact Bool.false_ne_true hb
  · exact Bool.false_ne_true hb

theorem isInk_of_isBlank (hb : Octet.isBlank b = true) : ¬isInk b = true := by simp [isInk, hb]

theorem isInk_of_not_isBlank (hb : ¬Octet.isBlank b = true) : isInk b = true := by simp [isInk, hb]

/-- After a step on `b`, the reader expects the same of what the step has left of the text. -/
def Keeps (p : ResponseParser) (b : UInt8) (bs : Bytes) : Prop :=
  p.expected (b :: bs) = (p.step b).1.expected (if (p.step b).2 then bs else b :: bs)

theorem keeps_leading (hp : p.place = .leading) (b : UInt8) (bs : Bytes) : p.Keeps b bs := by
  unfold Keeps
  by_cases heol : Octet.isEol b = true
  · simp only [step, hp, heol, if_true, expected, List.dropWhile_cons_of_pos heol]
  · simp only [step, hp, heol, if_false, Bool.false_eq_true, expected,
      List.dropWhile_cons_of_neg heol]
    rfl

theorem keeps_protocol (hp : p.place = .protocol) (hmessage : p.message = "")
    (b : UInt8) (bs : Bytes) :
    p.Keeps b bs := by
  have hexpected : p.expected (b :: bs) = afterLine? (inProtocol p.head p.token) (b :: bs) := by
    simp only [expected, hp]
  rw [Keeps, hexpected]
  by_cases hblank : Octet.isBlank b = true
  · rw [afterLine?_cons (isEol_of_isBlank hblank)]
    simp only [step, hp, hblank, if_true]
    refine congrArg (afterLine? · bs) (funext fun line => ?_)
    rw [inProtocol, List.takeWhile_cons_of_neg (isInk_of_isBlank hblank),
      List.dropWhile_cons_of_neg (isInk_of_isBlank hblank), List.dropWhile_cons_of_pos hblank,
      List.append_nil]
    rfl
  by_cases heol : Octet.isEol b = true
  · simp only [step, hp, hblank, heol, if_true, if_false, Bool.false_eq_true]
    rw [afterLine?_eol heol, expected_endStatusLine, inProtocol, List.takeWhile_nil,
      List.append_nil]
    exact congrArg (atHeadEnd? · _) (inCode_nil hmessage)
  · rw [afterLine?_cons (Bool.eq_false_iff.2 heol)]
    simp only [step, hp, hblank, heol, if_true, if_false, Bool.false_eq_true]
    refine congrArg (afterLine? · bs) (funext fun line => ?_)
    rw [inProtocol, List.takeWhile_cons_of_pos (isInk_of_not_isBlank hblank),
      List.dropWhile_cons_of_pos (isInk_of_not_isBlank hblank), inProtocol,
      List.reverse_cons, List.append_assoc,
      List.singleton_append]
    rfl

theorem keeps_beforeCode (hp : p.place = .beforeCode) (b : UInt8) (bs : Bytes) : p.Keeps b bs := by
  have hexpected : p.expected (b :: bs) =
      afterLine? (fun line => inCode p.head (line.dropWhile Octet.isBlank)) (b :: bs) := by
    simp only [expected, hp]
  rw [Keeps, hexpected]
  by_cases hblank : Octet.isBlank b = true
  · rw [afterLine?_cons (isEol_of_isBlank hblank)]
    simp only [step, hp, hblank, if_true, expected, List.dropWhile_cons_of_pos hblank]
  · simp only [step, hp, hblank, if_false, Bool.false_eq_true]
    show _ = afterLine? (inCode p.head) (b :: bs)
    refine afterLine?_congr ?_ (fun line => ?_) bs
    · rfl
    · rw [List.dropWhile_cons_of_neg hblank]

theorem keeps_code (hp : p.place = .code) (hmessage : p.message = "") (htoken : p.token = [])
    (b : UInt8) (bs : Bytes) :
    p.Keeps b bs := by
  have hexpected : p.expected (b :: bs) = afterLine? (inCode p.head) (b :: bs) := by
    simp only [expected, hp]
  rw [Keeps, hexpected]
  by_cases hblank : Octet.isBlank b = true
  · have hdigit : ¬Octet.isDigit b = true := fun hb => by
      rw [isBlank_of_isDigit hb] at hblank; cases hblank
    rw [afterLine?_cons (isEol_of_isBlank hblank)]
    simp only [step, hp, hdigit, hblank, if_true, if_false, Bool.false_eq_true]
    refine congrArg (afterLine? · bs) (funext fun line => ?_)
    rw [inCode, List.takeWhile_cons_of_neg (isInk_of_isBlank hblank),
      List.dropWhile_cons_of_neg (isInk_of_isBlank hblank),
      List.dropWhile_cons_of_pos hblank, htoken]
    rfl
  have htake (line : Bytes) : (b :: line).takeWhile isInk = b :: line.takeWhile isInk :=
    List.takeWhile_cons_of_pos (isInk_of_not_isBlank hblank)
  have hdrop (line : Bytes) : (b :: line).dropWhile isInk = line.dropWhile isInk :=
    List.dropWhile_cons_of_pos (isInk_of_not_isBlank hblank)
  by_cases heol : Octet.isEol b = true
  · have hdigit : ¬Octet.isDigit b = true := fun hb => by
      rcases isEol_iff.1 heol with rfl | rfl <;> cases hb
    simp only [step, hp, hdigit, hblank, heol, if_true, if_false, Bool.false_eq_true]
    rw [afterLine?_eol heol, expected_endStatusLine]
    exact congrArg (atHeadEnd? · _) (inCode_nil hmessage)
  rw [afterLine?_cons (Bool.eq_false_iff.2 heol)]
  by_cases hdigit : Octet.isDigit b = true
  · simp only [step, hp, hdigit, if_true]
    refine congrArg (afterLine? · bs) (funext fun line => ?_)
    rw [inCode, htake, hdrop, codeAfter, List.foldl_cons, if_pos hdigit]
    rfl
  · simp only [step, hp, hdigit, hblank, heol, if_true, if_false, Bool.false_eq_true, expected]
    refine congrArg (afterLine? · bs) (funext fun line => ?_)
    rw [inCode, htake, hdrop, codeAfter, List.foldl_cons, if_neg hdigit]
    rfl

theorem keeps_beforeMessage (hp : p.place = .beforeMessage) (b : UInt8)
    (bs : Bytes) : p.Keeps b bs := by
  have hexpected : p.expected (b :: bs) =
      afterLine? (fun line => inMessage p.head p.token (line.dropWhile Octet.isBlank))
      (b :: bs) := by
    simp only [expected, hp]
  rw [Keeps, hexpected]
  by_cases hblank : Octet.isBlank b = true
  · rw [afterLine?_cons (isEol_of_isBlank hblank)]
    simp only [step, hp, hblank, if_true, expected, List.dropWhile_cons_of_pos hblank]
  · simp only [step, hp, hblank, if_false, Bool.false_eq_true]
    show _ = afterLine? (inMessage p.head p.token) (b :: bs)
    refine afterLine?_congr ?_ (fun line => ?_) bs
    · rfl
    · rw [List.dropWhile_cons_of_neg hblank]

theorem keeps_message (hp : p.place = .message) (b : UInt8) (bs : Bytes) : p.Keeps b bs := by
  have hexpected : p.expected (b :: bs) = afterLine? (inMessage p.head p.token) (b :: bs) := by
    simp only [expected, hp]
  rw [Keeps, hexpected]
  by_cases heol : Octet.isEol b = true
  · simp only [step, hp, heol, if_true]
    rw [afterLine?_eol heol, expected_endStatusLine, inMessage, List.append_nil]
    rfl
  · simp only [step, hp, heol, if_false, Bool.false_eq_true]
    rw [afterLine?_cons (Bool.eq_false_iff.2 heol)]
    refine congrArg (afterLine? · bs) (funext fun line => ?_)
    rw [inMessage, inMessage, List.reverse_cons, List.append_assoc, List.singleton_append]
    rfl

theorem keeps_statusLf (hp : p.place = .statusLf ∨ p.place = .headerLf)
    (b : UInt8) (bs : Bytes) : p.Keeps b bs := by
  have hexpected : p.expected (b :: bs) = atHeadEnd? p.head (lines (dropLf (b :: bs))) := by
    rcases hp with hp | hp <;> simp only [expected, hp]
  have hstep : p.step b = ({ p with place := .lineStart }, b == Octet.lf) := by
    rcases hp with hp | hp <;> simp only [step, hp]
  rw [Keeps, hexpected, hstep]
  by_cases hb : b = Octet.lf
  · simp [hb, dropLf]
    rfl
  · simp [hb, dropLf]
    rfl

theorem keeps_blankLf (hp : p.place = .blankLf) (b : UInt8) (bs : Bytes) : p.Keeps b bs := by
  have hstep : p.step b = ({ p with place := .done }, b == Octet.lf) := by simp only [step, hp]
  rw [Keeps, expected, hp, hstep]
  by_cases hb : b = Octet.lf
  · simp [hb, dropLf]
    rfl
  · simp [hb, dropLf]
    rfl

/-- A header line of whose name nothing has been read is read by `header?`. -/
theorem inName_nil (head : ResponseHead) (line : Bytes) :
    inName head [] line = head.with (header? line) := by
  rw [inName, header?]
  cases Text.cut? Octet.colon line with
  | none => simp [ResponseHead.with]
  | some cut => simp [inValue]

theorem keeps_lineStart (hp : p.place = .lineStart) (hname : p.name = [])
    (b : UInt8) (bs : Bytes) : p.Keeps b bs := by
  have hexpected : p.expected (b :: bs) = atHeadEnd? p.head (lines (b :: bs)) := by
    simp only [expected, hp]
  rw [Keeps, hexpected]
  by_cases hcr : b = Octet.cr
  · simp only [step, hp, hcr, if_true]
    cases bs with
    | nil => rfl
    | cons c bs =>
      rw [lines_cr, atHeadEnd?_blank]
      rfl
  by_cases hlf : b = Octet.lf
  · simp only [step, hp, hlf, if_true, if_neg (show Octet.lf ≠ Octet.cr by decide)]
    rw [lines_lf, atHeadEnd?_blank]
    rfl
  have heol : Octet.isEol b = false := Bool.eq_false_iff.2 fun hb => (isEol_iff.1 hb).elim hcr hlf
  simp only [step, hp, hcr, hlf, if_false, Bool.false_eq_true]
  show _ = afterLine? (inName p.head p.name) (b :: bs)
  rw [hname, afterLine?, lines_cons heol]
  cases lines bs with
  | nil => rfl
  | cons l ls =>
    exact (atHeadEnd?_cons (List.cons_ne_nil _ _) ..).trans
      (congrArg (atHeadEnd? · ls) (inName_nil _ _).symm)

theorem keeps_name (hp : p.place = .name) (hvalue : p.value = []) (b : UInt8)
    (bs : Bytes) : p.Keeps b bs := by
  have hexpected : p.expected (b :: bs) = afterLine? (inName p.head p.name) (b :: bs) := by
    simp only [expected, hp]
  rw [Keeps, hexpected]
  by_cases hcolon : b = Octet.colon
  · simp only [step, hp, hcolon, if_true]
    rw [afterLine?_cons (by decide)]
    refine congrArg (afterLine? · bs) (funext fun line => ?_)
    rw [inName, Text.cut?_cons, if_pos rfl, hvalue]
    rfl
  by_cases heol : Octet.isEol b = true
  · simp only [step, hp, hcolon, heol, if_true, if_false]
    rw [afterLine?_eol heol, expected_endHeaderLine]
    rfl
  · simp only [step, hp, hcolon, heol, if_true, if_false, Bool.false_eq_true]
    rw [afterLine?_cons (Bool.eq_false_iff.2 heol)]
    refine congrArg (afterLine? · bs) (funext fun line => ?_)
    rw [inName, inName, Text.cut?_cons, if_neg hcolon]
    cases Text.cut? Octet.colon line with
    | none => rfl
    | some cut =>
      simp only [Option.map_some, List.map_cons, List.reverse_cons, List.append_assoc,
        List.singleton_append]
      rfl

theorem keeps_beforeValue (hp : p.place = .beforeValue) (b : UInt8)
    (bs : Bytes) : p.Keeps b bs := by
  have hexpected : p.expected (b :: bs) =
      afterLine? (fun line => inValue p.head p.name p.value (line.dropWhile Octet.isBlank))
      (b :: bs) := by
    simp only [expected, hp]
  rw [Keeps, hexpected]
  by_cases hblank : Octet.isBlank b = true
  · rw [afterLine?_cons (isEol_of_isBlank hblank)]
    simp only [step, hp, hblank, if_true, expected, List.dropWhile_cons_of_pos hblank]
  · simp only [step, hp, hblank, if_false, Bool.false_eq_true]
    show _ = afterLine? (inValue p.head p.name p.value) (b :: bs)
    refine afterLine?_congr ?_ (fun line => ?_) bs
    · rfl
    · rw [List.dropWhile_cons_of_neg hblank]

theorem keeps_value (hp : p.place = .value) (b : UInt8) (bs : Bytes) : p.Keeps b bs := by
  have hexpected : p.expected (b :: bs) = afterLine? (inValue p.head p.name p.value) (b :: bs) := by
    simp only [expected, hp]
  rw [Keeps, hexpected]
  by_cases heol : Octet.isEol b = true
  · simp only [step, hp, heol, if_true]
    rw [afterLine?_eol heol, expected_endHeaderLine, head_register]
  · simp only [step, hp, heol, if_false, Bool.false_eq_true]
    rw [afterLine?_cons (Bool.eq_false_iff.2 heol)]
    refine congrArg (afterLine? · bs) (funext fun line => ?_)
    rw [inValue, inValue, List.reverse_cons, List.append_assoc, List.singleton_append]
    rfl

/-- Every step `Keeps` what is expected: the octet `b` is taken from the text or left in it. -/
theorem keeps (h : p.Tidy) (hdone : ¬p.isDone = true) (b : UInt8) (bs : Bytes) : p.Keeps b bs := by
  cases hp : p.place with
  | leading => exact keeps_leading hp b bs
  | protocol => exact keeps_protocol hp (h.message (by rw [hp]; rfl)) b bs
  | beforeCode => exact keeps_beforeCode hp b bs
  | code =>
    exact keeps_code hp (h.message (by rw [hp]; rfl))
      (h.token (by rw [hp]; nofun) (by rw [hp]; nofun)) b bs
  | beforeMessage => exact keeps_beforeMessage hp b bs
  | message => exact keeps_message hp b bs
  | statusLf => exact keeps_statusLf (.inl hp) b bs
  | lineStart =>
    exact keeps_lineStart hp
      (h.name (by rw [hp]; nofun) (by rw [hp]; nofun) (by rw [hp]; nofun)) b bs
  | name => exact keeps_name hp (h.value (by rw [hp]; nofun)) b bs
  | beforeValue => exact keeps_beforeValue hp b bs
  | value => exact keeps_value hp b bs
  | headerLf => exact keeps_statusLf (.inr hp) b bs
  | blankLf => exact keeps_blankLf hp b bs
  | done => exact absurd (by rw [isDone, hp]; rfl) hdone

/-! ### The loop -/

theorem Tidy.tick (h : p.Tidy) : p.tick.Tidy := ⟨h.token, h.name, h.value, h.message⟩

theorem expected_tick (p : ResponseParser) (bs : Bytes) : p.tick.expected bs = p.expected bs := rfl

theorem expected_nil (hdone : ¬p.isDone = true) : p.expected [] = none := by
  cases hp : p.place <;> simp only [expected, hp]
  case done => exact absurd (by rw [isDone, hp]; rfl) hdone
  all_goals rfl

theorem expected_of_isDone (hdone : p.isDone = true) (bs : Bytes) :
    p.expected bs = some (p.head, bs) := by
  have hp : p.place = .done := by simpa [isDone] using hdone
  simp only [expected, hp]

theorem suffix_of_atHeadEnd? {e : ResponseHead × Bytes} (h : atHeadEnd? head ls = some e)
    (hls : ∀ l ∈ ls, l.2 <:+ bs) :
    e.2 <:+ bs := by
  obtain ⟨blank, hfind, rfl⟩ := Option.map_eq_some_iff.1 h
  exact hls blank (List.mem_of_find?_eq_some hfind)

theorem suffix_of_afterLine? {e : ResponseHead × Bytes} (h : afterLine? f bs = some e) :
    e.2 <:+ bs := by
  have hlines := suffix_of_mem_lines bs
  rw [afterLine?] at h
  cases hls : lines bs with
  | nil => rw [hls] at h; cases h
  | cons l ls =>
    rw [hls] at h hlines
    exact suffix_of_atHeadEnd? h fun l hl => hlines l (List.mem_cons_of_mem _ hl)

theorem dropLf_suffix (bs : Bytes) : dropLf bs <:+ bs := by
  cases bs with
  | nil => exact List.suffix_refl _
  | cons b bs =>
    rw [dropLf]
    split
    · exact List.suffix_cons _ _
    · exact List.suffix_refl _

/-- What comes after the head is an end of the text. -/
theorem suffix_of_expected {e : ResponseHead × Bytes} (h : p.expected bs = some e) :
    e.2 <:+ bs := by
  cases hp : p.place <;> simp only [expected, hp] at h
  case leading => exact (suffix_of_afterLine? h).trans (List.dropWhile_suffix _)
  case statusLf => exact (suffix_of_atHeadEnd? h (suffix_of_mem_lines _)).trans (dropLf_suffix bs)
  case headerLf => exact (suffix_of_atHeadEnd? h (suffix_of_mem_lines _)).trans (dropLf_suffix bs)
  case lineStart => exact suffix_of_atHeadEnd? h (suffix_of_mem_lines _)
  case blankLf =>
    split at h
    · cases h
    · cases h
      exact dropLf_suffix bs
  case done =>
    cases h
    exact List.suffix_refl _
  all_goals exact suffix_of_afterLine? h

/-- The number of octets that the reader will have consumed when it knows the head to be complete,
or when the text is at its end. -/
def reachFrom (p : ResponseParser) (bs : Bytes) : Nat :=
  p.consumed + ((p.expected bs).map fun e => bs.length - e.2.length).getD bs.length

theorem expected_of_used {p' : ResponseParser} (h : p.Tidy) (hdone : ¬p.isDone = true)
    (hs : p.step b = (p', true)) (bs : Bytes) : p.expected (b :: bs) = p'.expected bs := by
  have hkeeps := keeps h hdone b bs
  rwa [Keeps, hs] at hkeeps

theorem expected_of_kept {p' : ResponseParser} (h : p.Tidy) (hdone : ¬p.isDone = true)
    (hs : p.step b = (p', false)) (bs : Bytes) : p.expected (b :: bs) = p'.expected (b :: bs) := by
  have hkeeps := keeps h hdone b bs
  rwa [Keeps, hs] at hkeeps

theorem Tidy.of_step {p' : ResponseParser} {used : Bool} (h : p.Tidy)
    (hs : p.step b = (p', used)) : p'.Tidy := by
  have hstep := h.step b
  rwa [hs] at hstep

theorem reachFrom_tick {p' : ResponseParser} (h : p.Tidy) (hdone : ¬p.isDone = true)
    (hs : p.step b = (p', true)) (bs : Bytes) : p'.tick.reachFrom bs = p.reachFrom (b :: bs) := by
  have hconsumed : p'.tick.consumed = p.consumed + 1 :=
    congrArg (· + 1) (counts_of_step hs).consumed
  rw [reachFrom, reachFrom, expected_tick, expected_of_used h hdone hs, hconsumed]
  cases hexpected : p'.expected bs with
  | none => simp only [Option.map_none, Option.getD_none, List.length_cons]; omega
  | some e =>
    have hle := (suffix_of_expected hexpected).length_le
    simp only [Option.map_some, Option.getD_some, List.length_cons]
    omega

/-- The outcome of reading a text, of which `seen` octets of the piece come before it, is what is
expected. -/
def Meets (p : ResponseParser) (bs : Bytes) (seen : Nat)
    (outcome : Except Defect (Option Nat) × ResponseParser) :
    Prop :=
  match p.expected bs with
  | none => outcome.1 = .ok none
  | some (head, rest) =>
      outcome.1 = .ok (some (seen + (bs.length - rest.length))) ∧ outcome.2.isDone = true ∧
        outcome.2.head = head ∧
        outcome.2.headerLength = p.consumed + (bs.length - rest.length)

theorem meets_of_isDone (hdone : p.isDone = true) (seen : Nat) (bs : Bytes) :
    p.Meets bs seen (.ok (some seen), p.finish) := by
  rw [Meets, expected_of_isDone hdone]
  show _ = _ ∧ _
  rw [Nat.sub_self]
  exact ⟨rfl, hdone, rfl, rfl⟩

/-- If a step uses `b`, what `Meets` the expectation after it does before, with one more octet for
the piece and for the head. -/
theorem Meets.of_used {p' : ResponseParser} {seen : Nat}
    {outcome : Except Defect (Option Nat) × ResponseParser}
    (h : p.Tidy) (hdone : ¬p.isDone = true) (hs : p.step b = (p', true))
    (hrest : p'.tick.Meets bs (seen + 1) outcome) :
    p.Meets (b :: bs) seen outcome := by
  have hconsumed : p'.tick.consumed = p.consumed + 1 :=
    congrArg (· + 1) (counts_of_step hs).consumed
  rw [Meets, expected_tick] at hrest
  rw [Meets, expected_of_used h hdone hs]
  cases he : p'.expected bs with
  | none =>
    rw [he] at hrest
    exact hrest
  | some e =>
    rw [he] at hrest
    obtain ⟨hanswer, hend, hhead, hlength⟩ := hrest
    have hle : e.2.length ≤ bs.length := (suffix_of_expected he).length_le
    have hsub : (b :: bs).length - e.2.length = bs.length - e.2.length + 1 := Nat.sub_add_comm hle
    refine ⟨?_, hend, hhead, ?_⟩
    · rw [hanswer, hsub, Nat.add_assoc, Nat.add_comm 1]
    · rw [hlength, hconsumed, hsub, Nat.add_assoc, Nat.add_comm 1]

/-- If a step passes `b` on, what `Meets` the expectation at the next place does at this one. -/
theorem Meets.of_kept {p' : ResponseParser} {seen : Nat}
    {outcome : Except Defect (Option Nat) × ResponseParser}
    (h : p.Tidy) (hdone : ¬p.isDone = true) (hs : p.step b = (p', false))
    (hrest : p'.Meets (b :: bs) seen outcome) :
    p.Meets (b :: bs) seen outcome := by
  have hconsumed : p'.consumed = p.consumed := (counts_of_step hs).consumed
  rwa [Meets, ← expected_of_kept h hdone hs, hconsumed] at hrest

/-- By `feedFrom` what is expected is read, if it stays below the limit. -/
theorem meets_feedFrom (h : p.Tidy) (hdone : ¬p.isDone = true) (hreach : p.reachFrom bs < p.limit)
    (seen : Nat) :
    p.Meets bs seen (p.feedFrom seen bs) := by
  fun_induction feedFrom seen p bs with
  | case1 seen p =>
    rw [Meets, expected_nil hdone]
  | case2 seen p b rest hd => exact absurd hd hdone
  | case3 seen p b rest hd p₁ hs p₂ hd₂ =>
    exact .of_used h hd hs (meets_of_isDone (p := p₂) hd₂ (seen + 1) rest)
  | case4 seen p b rest hd p₁ hs p₂ hd₂ hl =>
    have hr : p₂.reachFrom rest < p.limit := by rwa [← reachFrom_tick h hd hs] at hreach
    have hlimit : p₂.limit = p.limit := (counts_of_step hs).limit
    rw [reachFrom] at hr
    omega
  | case5 seen p b rest hd p₁ hs p₂ hd₂ hl ih =>
    have hlimit : p₂.limit = p.limit := (counts_of_step hs).limit
    have hr : p₂.reachFrom rest < p₂.limit := by rwa [← reachFrom_tick h hd hs, ← hlimit] at hreach
    exact .of_used h hd hs (ih (h.of_step hs).tick hd₂ hr)
  | case6 seen p b rest hd p₁ hs hd₁ =>
    exact .of_kept h hd hs (meets_of_isDone hd₁ seen (b :: rest))
  | case7 seen p b rest hd p₁ hs hd₁ ih =>
    obtain ⟨hlimit, hconsumed⟩ := counts_of_step hs
    have hr : p₁.reachFrom (b :: rest) < p₁.limit := by
      rwa [reachFrom, hlimit, hconsumed, ← expected_of_kept h hd hs rest]
    exact .of_kept h hd hs (ih (h.of_step hs) hd₁ hr)

/-! ### From the beginning -/

/-- The value of a digit is the same as a number of sixteen bits. -/
theorem toUInt16_sub_of_isDigit (hb : Octet.isDigit b = true) :
    b.toUInt16 - 48 = UInt16.ofNat (Octet.digitValue b) := by
  rw [Octet.isDigit, Bool.and_eq_true, decide_eq_true_eq, decide_eq_true_eq, UInt8.le_iff_toNat_le,
    UInt8.le_iff_toNat_le] at hb
  have hge : 48 ≤ b.toNat := hb.1
  have hlt := b.toNat_lt
  apply UInt16.toNat_inj.1
  rw [UInt16.toNat_sub_of_le _ _
    (UInt16.le_iff_toNat_le.2 (by rw [UInt8.toNat_toUInt16]; exact hge)),
    UInt8.toNat_toUInt16, UInt16.toNat_ofNat', Octet.digitValue]
  show b.toNat - 48 = _
  omega

theorem codeAfter_ofNat (word : Bytes) (n : Nat) :
    codeAfter (UInt16.ofNat n) word =
      UInt16.ofNat
        ((word.filter Octet.isDigit).foldl (fun n b => n * 10 + Octet.digitValue b) n) := by
  induction word generalizing n with
  | nil => rfl
  | cons b word ih =>
    rw [codeAfter, List.foldl_cons, ← codeAfter]
    by_cases hdigit : Octet.isDigit b = true
    · rw [if_pos hdigit, List.filter_cons_of_pos hdigit, List.foldl_cons, ← ih,
        UInt16.ofNat_add, UInt16.ofNat_mul, toUInt16_sub_of_isDigit hdigit]
      rfl
    · rw [if_neg hdigit, List.filter_cons_of_neg hdigit, ih]

theorem inProtocol_new (line : Bytes) : inProtocol {} [] line = statusLine line := by
  rw [inProtocol, inCode, inMessage, statusLine, decimal, ← codeAfter_ofNat]
  rfl

/-- A new reader expects the `outline?` of the text. -/
theorem expected_new (limit : Nat) (bs : Bytes) :
    ((new limit).expected bs).map (fun e => (e.1, bs.length - e.2.length)) = outline? bs := by
  have hexpected :
      (new limit).expected bs = afterLine? (inProtocol {} []) (bs.dropWhile Octet.isEol) := rfl
  rw [hexpected, afterLine?, outline?]
  cases lines (bs.dropWhile Octet.isEol) with
  | nil => rfl
  | cons l ls =>
    simp only [atHeadEnd?, Option.map_map, inProtocol_new]
    rfl

theorem reachFrom_new (limit : Nat) (bs : Bytes) : (new limit).reachFrom bs = reach bs := by
  rw [reach, ← expected_new limit, Option.map_map]
  exact Nat.zero_add _

/-- Reading a response head octet by octet is reading its lines, in whatever `pieces` it comes, as
long as its `reach` is below the `limit`.  If the octets have an `outline?`, the reader comes to its
end and has the head of it; if they have none, the reader asks for more.  Its `chunked` and
`contentLength` are what the headers announce. -/
theorem feed_eq_outline (limit : Nat) (pieces : List Bytes)
    (hreach : reach pieces.flatten < limit) :
    let r := Pieces.readPieces feed (new limit) pieces
    r.1 = .ok ((outline? pieces.flatten).map Prod.snd) ∧
      r.2.isDone = (outline? pieces.flatten).isSome ∧
      ∀ head length, outline? pieces.flatten = some (head, length) →
        r.2.head = head ∧ r.2.headerLength = length ∧
          r.2.chunked = head.headers.any announcesChunks ∧
          r.2.contentLength = head.headers.reverse.findSome? announcedLength? ∧
          r.2.connectionClose = Header.hasConnectionOption head.headers "close" ∧
          r.2.connectionKeepAlive = Header.hasConnectionOption head.headers "keep-alive" ∧
          (r.2.keepAlive = true ↔ Header.hasConnectionOption head.headers "close" = false ∧
            (Text.eqIgnoreCase head.protocol "HTTP/1.0" = true →
              Header.hasConnectionOption head.headers "keep-alive" = true)) := by
  intro r
  have hnew : ¬(new limit).isDone = true := Bool.false_ne_true
  have hr : r = (new limit).feedFrom 0 pieces.flatten :=
    (feed_continues.readPieces_eq_read_flatten (waits_new limit) pieces).trans
      (feed_of_not_isDone hnew _)
  have hmeets := meets_feedFrom (tidy_new limit) hnew (by rwa [reachFrom_new]) 0
  have hheedful := (heedful_new limit).feedFrom 0 pieces.flatten
  rw [← expected_new limit]
  rw [← hr] at hmeets hheedful
  cases he : (new limit).expected pieces.flatten with
  | none =>
    rw [Meets, he] at hmeets
    have hnone : (new limit).feedFrom 0 pieces.flatten = (.ok none, r.2) :=
      Prod.ext (hr ▸ hmeets) (hr ▸ rfl)
    exact ⟨hmeets, Bool.eq_false_iff.2 (isDone_of_feedFrom_eq_none hnew hnone), nofun⟩
  | some e =>
    rw [Meets, he] at hmeets
    obtain ⟨hanswer, hdone, hhead, hlength⟩ := hmeets
    refine ⟨?_, hdone, ?_⟩
    · rw [hanswer]
      simp
    · intro head length h
      cases h
      have hheaders : e.1.headers = r.2.headers.reverse := hhead ▸ rfl
      refine ⟨hhead, ?_, ?_, ?_, ?_, ?_, ?_⟩
      · rw [hlength]
        exact Nat.zero_add _
      · rw [← hhead, hheedful.chunked_eq]
      · rw [← hhead, hheedful.contentLength_eq]
      · rw [hheaders, Header.hasConnectionOption_reverse, hheedful.close]
      · rw [hheaders, Header.hasConnectionOption_reverse, hheedful.keepAlive]
      · rw [← hhead]
        exact hheedful.keepAlive_iff

/-- A head with little order in it, in two pieces: an empty line before it, letters in the status, a
header without a name and one with white space around it, and carriage returns that stand alone. -/
def disorderly : List Bytes := [Utf8.encode "\nH 2x04 \r:a\nAb ", Utf8.encode ":\tc \r\rrest"]

theorem feed_eq_outline_disorderly :
    reach disorderly.flatten < 24 ∧
      (Pieces.readPieces feed (new 24) disorderly).1 = .ok (some 21) ∧
      (Pieces.readPieces feed (new 24) disorderly).2.head =
        { protocol := "H", status := 204, message := "",
          headers := [{ name := "ab", value := "c" }] } := by
  have hreach : reach disorderly.flatten < 24 := by decide +kernel
  have houtline : outline? disorderly.flatten =
      some
        ({ protocol := "H", status := 204, message := "",
           headers := [{ name := "ab", value := "c" }] }, 21) := by
    decide +kernel
  obtain ⟨hanswer, -, hread⟩ := feed_eq_outline 24 disorderly hreach
  exact ⟨hreach, by rw [hanswer, houtline]; rfl, (hread _ _ houtline).1⟩

end ResponseParser

end ReverseProxy.Message
