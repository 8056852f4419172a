import ReverseProxy.Message.Forwarding
import ReverseProxy.Proofs.Message.RequestLayout

/-!
# A request head is read from its own octets

Octets that come after a request head may have arrived with it or not.  A part of the grammar is
`Local` if what it has read does not depend on them.  Parts that are put together stay so, and
therefore the whole head is (`RequestHead.parse_take_append`).
-/

namespace ReverseProxy.Message

open Octet (IsLineEnd)

variable {α β : Type}

/-- What `read` reads is read again from the octets that were taken for it, whatever comes after
them. -/
def Local (read : Bytes → Reading α) : Prop :=
  ∀ bs a rest, read bs = .complete a rest → ∃ w, bs = w ++ rest ∧
    ∀ more, read (w ++ more) = .complete a more

/-- If `read` and `next` are local, so is `andThen`. -/
theorem Local.andThen {read : Bytes → Reading α} {next : α → Bytes → Reading β} (h : Local read)
    (hnext : ∀ a, Local (next a)) : Local fun bs => (read bs).andThen next := by
  intro bs b rest hread
  obtain ⟨a, mid, ha, hb⟩ := Reading.andThen_eq_complete.1 hread
  obtain ⟨v, rfl, hv⟩ := h _ _ _ ha
  obtain ⟨w, rfl, hw⟩ := hnext a _ _ _ hb
  refine ⟨v ++ w, (List.append_assoc ..).symm, fun more => ?_⟩
  rw [List.append_assoc]
  exact (congrArg (Reading.andThen · next) (hv _)).trans (hw more)

theorem local_complete (a : α) : Local fun bs => .complete a bs := by
  rintro bs _ rest ⟨⟩
  exact ⟨[], rfl, fun _ => rfl⟩

theorem Local.map {read : Bytes → Reading α} (h : Local read) (f : α → β) :
    Local fun bs => (read bs).map f :=
  h.andThen fun a => local_complete (f a)

namespace RequestGrammar

/-! ### The parts of a head -/

theorem lineEnd_append (why : RequestDefect) {e : Bytes} (he : IsLineEnd e) (more : Bytes) :
    lineEnd why (e ++ more) = .complete () more := by
  rcases he with rfl | rfl <;> rfl

theorem local_lineEnd (why : RequestDefect) : Local (lineEnd why) := by
  intro bs _ rest h
  obtain ⟨e, he, rfl⟩ := isLineEnd_of_lineEnd h
  exact ⟨e, rfl, lineEnd_append why he⟩

theorem local_word {isPart : UInt8 → Bool} {stop : UInt8} (hstop : ¬isPart stop = true)
    (why : RequestDefect) :
    Local (word isPart stop why) := by
  intro bs w rest h
  obtain ⟨hne, hpart, rfl⟩ := word_eq h
  refine ⟨w ++ [stop], by rw [List.append_assoc, List.singleton_append], fun more => ?_⟩
  have hdrop : (w ++ stop :: more).dropWhile isPart = stop :: more := by
    rw [List.dropWhile_append_of_pos hpart, List.dropWhile_cons_of_neg hstop]
  have htake : (w ++ stop :: more).takeWhile isPart = w := by
    rw [List.takeWhile_append_of_pos hpart, List.takeWhile_cons_of_neg hstop, List.append_nil]
  rw [List.append_assoc, List.singleton_append, word, hdrop, htake]
  exact if_pos ⟨rfl, hne⟩

theorem local_literal (why : RequestDefect) (w : Bytes) : Local (literal why w) := by
  intro bs _ rest h
  refine ⟨w, literal_eq h, fun more => ?_⟩
  clear h
  induction w with
  | nil => rfl
  | cons b w ih => rw [List.cons_append, literal, if_pos rfl, ih]

theorem local_target : Local target := by
  refine (local_word (by decide) _).andThen fun w => ?_
  by_cases hw : Utf8.isWellFormed w = true
  · simp only [if_pos hw]
    exact local_complete w
  · simp only [if_neg hw]
    rintro _ _ _ ⟨⟩

theorem local_version : Local version := by
  refine (local_literal _ _).andThen fun _ => ?_
  rintro (_ | ⟨b, bs⟩) n rest h
  · cases h
  refine ⟨[b], ?_⟩
  simp only [List.singleton_append, List.cons.injEq, true_and] at h ⊢
  split at h
  · cases h
    exact ⟨rfl, fun _ => if_pos ‹_›⟩
  split at h
  · cases h
    exact ⟨rfl, fun _ => (if_neg ‹_›).trans (if_pos ‹_›)⟩
  · cases h

/-- The content of a header line ends where the line ends. -/
theorem local_headerLine : Local headerLine := by
  refine (local_word (by decide) _).andThen fun name => ?_
  intro bs l rest h
  obtain ⟨_, rest', hend, h⟩ := Reading.andThen_eq_complete.1 h
  cases h
  obtain ⟨e, he, hrest⟩ := isLineEnd_of_lineEnd hend
  have hvalue : ∀ b ∈ bs.takeWhile isValue, isValue b = true :=
    List.all_eq_true.1 List.all_takeWhile
  refine ⟨bs.takeWhile isValue ++ e, ?_, fun more => ?_⟩
  · rw [List.append_assoc, ← hrest, List.takeWhile_append_dropWhile]
  · have hstart :
        (e ++ more).dropWhile isValue = e ++ more ∧ (e ++ more).takeWhile isValue = [] := by
      rcases he with rfl | rfl
      · exact ⟨List.dropWhile_cons_of_neg (by decide), List.takeWhile_cons_of_neg (by decide)⟩
      · exact ⟨List.dropWhile_cons_of_neg (by decide), List.takeWhile_cons_of_neg (by decide)⟩
    simp only [List.append_assoc, List.dropWhile_append_of_pos hvalue,
      List.takeWhile_append_of_pos hvalue, hstart.1,
      hstart.2, lineEnd_append _ he, List.append_nil, Reading.andThen_complete]

theorem headerLines_end {room : Nat} {b : UInt8} {bs : Bytes} (hb : Octet.isEol b = true) :
    headerLines room (b :: bs) = (lineEnd .newLine (b :: bs)).map fun _ => [] := by
  rw [headerLines, if_pos hb]

theorem headerLines_line {room : Nat} {b : UInt8} {bs rest : Bytes} {l : HeaderLine}
    (hb : ¬Octet.isEol b = true) (h : headerLine (b :: bs) = .complete l rest) :
    headerLines (room + 1) (b :: bs) = (headerLines room rest).map (l :: ·) := by
  rw [headerLines, if_neg hb]
  split <;> rename_i h' <;> cases h'.symm.trans h
  rfl

/-- If anything is taken from `b :: bs`, it begins with `b`. -/
theorem cons_of_append {b : UInt8} {bs w rest : Bytes} (h : b :: bs = w ++ rest)
    (hlt : rest.length < (b :: bs).length) : ∃ w', w = b :: w' := by
  cases w with
  | nil => rw [h, List.nil_append] at hlt; exact absurd hlt (Nat.lt_irrefl _)
  | cons c w' => exact ⟨w', by rw [(List.cons.inj h).1]⟩

theorem local_headerLines (room : Nat) : Local (headerLines room) := by
  intro bs ls rest h
  fun_induction headerLines room bs generalizing ls with
  | case1 | case3 | case4 | case5 => cases h
  | case2 room b bs hb =>
    obtain ⟨w, hbs, hw⟩ := (local_lineEnd .newLine).map (fun _ => []) _ _ _ h
    obtain ⟨_, mid, hend, hcomplete⟩ := Reading.andThen_eq_complete.1 h
    cases hcomplete
    obtain ⟨w, rfl⟩ := cons_of_append hbs (lineEnd_length hend)
    exact ⟨b :: w, hbs, fun more => (headerLines_end hb).trans (hw more)⟩
  | case6 b bs hb l rest' hl room ih =>
    obtain ⟨ls', mid, hls, hcomplete⟩ := Reading.andThen_eq_complete.1 h
    cases hcomplete
    obtain ⟨v, hbs, hv⟩ := local_headerLine _ _ _ hl
    obtain ⟨w, rfl, hw⟩ := ih _ hls
    obtain ⟨v, rfl⟩ := cons_of_append hbs (headerLine_length hl)
    refine ⟨b :: v ++ w, by rw [hbs, List.append_assoc], fun more => ?_⟩
    rw [List.append_assoc]
    refine (headerLines_line hb (hv (w ++ more))).trans ?_
    rw [hw]
    rfl

/-- Empty lines are left behind only when an octet `b` comes after them that is no line end. -/
theorem emptyLines_append {bs rest : Bytes} (h : emptyLines bs = .complete () rest) :
    ∃ w b rest', bs = w ++ rest ∧ rest = b :: rest' ∧ ∀ more,
      emptyLines (w ++ b :: more) = .complete () (b :: more) ∧
      emptyLines (b :: more) = .complete () (b :: more) := by
  fun_induction emptyLines bs with
  | case1 | case3 | case5 => cases h
  | case2 bs ih =>
    obtain ⟨w, b, rest', rfl, hrest, hw⟩ := ih h
    refine ⟨Octet.lf :: w, b, rest', rfl, hrest, fun more => ⟨?_, (hw more).2⟩⟩
    rw [List.cons_append, emptyLines.eq_def]
    exact (if_pos rfl).trans (hw more).1
  | case4 cs hne ih =>
    obtain ⟨w, b, rest', rfl, hrest, hw⟩ := ih h
    refine ⟨Octet.cr :: Octet.lf :: w, b, rest', rfl, hrest, fun more => ⟨?_, (hw more).2⟩⟩
    rw [List.cons_append, List.cons_append, emptyLines.eq_def]
    exact (if_neg (by decide)).trans ((if_pos rfl).trans ((if_pos rfl).trans (hw more).1))
  | case6 b bs hlf hcr =>
    cases h
    have hstart : ∀ more, emptyLines (b :: more) = .complete () (b :: more) := fun more => by
      rw [emptyLines.eq_def]
      exact (if_neg hlf).trans (if_neg hcr)
    exact ⟨[], b, bs, rfl, rfl, fun more => ⟨hstart more, hstart more⟩⟩

/-- The head of a request does not depend on what comes after it. -/
theorem local_head : Local head := by
  intro bs lines rest h
  have hrest :
      Local fun bs => (method bs).andThen fun method bs => (target bs).andThen fun target bs =>
      (version bs).andThen fun minor bs => (lineEnd .newLine bs).andThen fun _ bs =>
      (headerLines maxHeaders bs).map fun headers =>
        ({ method, target, minor, headers } : RequestLines) :=
    (local_word (by decide) _).andThen fun _ => local_target.andThen fun _ =>
      local_version.andThen fun _ =>
      (local_lineEnd _).andThen fun _ => (local_headerLines _).map _
  obtain ⟨_, afterEmpty, hempty, hread⟩ := Reading.andThen_eq_complete.1 h
  obtain ⟨v, b, bs', rfl, rfl, hv⟩ := emptyLines_append hempty
  obtain ⟨w, hbs, hw⟩ := hrest _ _ _ hread
  -- the head has octets after the empty lines, and so these end where they did
  have hlt : rest.length < (b :: bs').length := by
    have hown : head (b :: bs') = .complete lines rest := by
      rw [head, (hv bs').2]
      exact hread
    exact head_length hown
  obtain ⟨w, rfl⟩ := cons_of_append hbs hlt
  refine ⟨v ++ b :: w, by rw [hbs, List.append_assoc], fun more => ?_⟩
  rw [List.append_assoc, List.cons_append, head, (hv _).1]
  exact hw more

end RequestGrammar

namespace RequestHead

/-- A head that `parse` reads is read from its own octets, whatever `more` comes after them. -/
theorem parse_take_append {bs : Bytes} {h : RequestHead} (hp : parse bs = .ok (some h))
    (more : Bytes) :
    parse (bs.take h.length ++ more) = .ok (some h) := by
  obtain ⟨lines, es, octets, rest, hhead, -, rfl, hof⟩ := layout_of_parse hp
  obtain ⟨-, -, -, hlength, -⟩ := ofLines_eq_ok hof
  obtain ⟨w, hw, hread⟩ := RequestGrammar.local_head _ _ _ hhead
  obtain rfl := List.append_cancel_right hw
  rw [hlength, List.take_left, parse, hread]
  simp only [List.length_append, Nat.add_sub_cancel, hof]

/-- The head that goes on depends on the octets of `raw` up to `h.length` only. -/
theorem forwarded_take (h : RequestHead) (raw : Bytes) (extra : List Header) :
    h.forwarded (raw.take h.length) extra = h.forwarded raw extra := by
  rw [forwarded, forwarded, List.take_take, Nat.min_self]

end RequestHead

end ReverseProxy.Message
