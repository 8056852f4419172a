import ReverseProxy.Proofs.Message.HeadLocality

/-!
# What has been made of a request head stands

While a request head arrives it is parsed again and again, each time from its beginning, and each
time from more octets.  Once that comes to an answer, more octets do not change it
(`RequestHead.parse_append`): a head stays the head that it is, and what is refused stays refused,
for the same reason.

Of a part of the grammar that is complete this is its locality.  Of a part that is refused it is
said here: the part is `Firm`.  That parts which are put together are firm takes both, since the
second part may be refused only after the first is complete.
-/

namespace ReverseProxy.Message

variable {α β : Type}

/-- What `read` refuses it refuses for the same reason whatever comes after it. -/
def Firm (read : Bytes → Reading α) : Prop :=
  ∀ bs why, read bs = .refused why → ∀ more, read (bs ++ more) = .refused why

theorem firm_complete (a : α) : Firm fun bs => .complete a bs := by
  intro bs why h
  cases h

theorem firm_refused (why : RequestDefect) : Firm fun _ => (.refused why : Reading α) :=
  fun _ _ h _ => h

/-- What a local `read` has read it reads again when more octets have come, and they are left. -/
theorem Local.append {read : Bytes → Reading α} (h : Local read) {bs rest : Bytes} {a : α}
    (hread : read bs = .complete a rest) (more : Bytes) :
    read (bs ++ more) = .complete a (rest ++ more) := by
  obtain ⟨w, rfl, hw⟩ := h _ _ _ hread
  rw [List.append_assoc]
  exact hw (rest ++ more)

theorem Reading.andThen_eq_refused {r : Reading α} {k : α → Bytes → Reading β}
    {why : RequestDefect} :
    r.andThen k = refused why ↔
      r = refused why ∨ ∃ a mid, r = complete a mid ∧ k a mid = refused why := by
  cases r with
  | incomplete | refused => simp
  | complete a mid =>
    simp only [andThen_complete, complete.injEq, reduceCtorEq, false_or]
    exact ⟨fun h => ⟨a, mid, ⟨rfl, rfl⟩, h⟩, fun ⟨_, _, ⟨ha, hm⟩, h⟩ => ha ▸ hm ▸ h⟩

/-- If `read` is firm, and is read again when more octets have come, `andThen` is firm for a firm
`next`. -/
theorem Firm.andThen_of_append {read : Bytes → Reading α} {next : α → Bytes → Reading β}
    (h : Firm read)
    (happend : ∀ bs a rest, read bs = .complete a rest → ∀ more,
      read (bs ++ more) = .complete a (rest ++ more))
    (hnext : ∀ a, Firm (next a)) : Firm fun bs => (read bs).andThen next := by
  intro bs why hread more
  show (read (bs ++ more)).andThen next = .refused why
  obtain hrefused | ⟨a, rest, ha, hrefused⟩ := Reading.andThen_eq_refused.1 hread
  · rw [h _ _ hrefused more, Reading.andThen_refused]
  · rw [happend _ _ _ ha more, Reading.andThen_complete]
    exact hnext a _ _ hrefused more

/-- If `read` is firm and local and `next` is firm, so is `andThen`. -/
theorem Firm.andThen {read : Bytes → Reading α} {next : α → Bytes → Reading β}
    (h : Firm read) (hlocal : Local read)
    (hnext : ∀ a, Firm (next a)) : Firm fun bs => (read bs).andThen next :=
  h.andThen_of_append (fun _ _ _ hread => hlocal.append hread) hnext

theorem Firm.map {read : Bytes → Reading α} (h : Firm read) (hlocal : Local read) (f : α → β) :
    Firm fun bs => (read bs).map f :=
  h.andThen hlocal fun a => firm_complete (f a)

namespace RequestGrammar

/-! ### The parts of a head -/

theorem firm_lineEnd (why : RequestDefect) : Firm (lineEnd why) := by
  intro bs why' h more
  fun_cases lineEnd why bs with
  | case1 | case2 | case3 | case4 => cases h
  | case5 c cs hc hlf => simpa only [List.cons_append, lineEnd, hlf, hc, if_true, if_false] using h
  | case6 b bs hlf hcr => simpa only [List.cons_append, lineEnd, hlf, hcr, if_false] using h

/-- Octets that end what is dropped still end it when more have come. -/
theorem dropWhile_append_of_ne_nil {isPart : UInt8 → Bool} {bs : Bytes}
    (h : bs.dropWhile isPart ≠ []) (more : Bytes) :
    (bs ++ more).dropWhile isPart = bs.dropWhile isPart ++ more ∧
      (bs ++ more).takeWhile isPart = bs.takeWhile isPart := by
  induction bs with
  | nil => exact absurd rfl h
  | cons b bs ih =>
    by_cases hb : isPart b = true
    · rw [List.dropWhile_cons_of_pos hb] at h
      obtain ⟨hdrop, htake⟩ := ih h
      rw [List.cons_append, List.dropWhile_cons_of_pos hb, List.dropWhile_cons_of_pos hb,
        List.takeWhile_cons_of_pos hb, List.takeWhile_cons_of_pos hb, hdrop, htake]
      exact ⟨rfl, rfl⟩
    · rw [List.cons_append, List.dropWhile_cons_of_neg hb, List.dropWhile_cons_of_neg hb,
        List.takeWhile_cons_of_neg hb, List.takeWhile_cons_of_neg hb]
      exact ⟨rfl, rfl⟩

theorem firm_word (isPart : UInt8 → Bool) (stop : UInt8) (why : RequestDefect) :
    Firm (word isPart stop why) := by
  intro bs why' h more
  have hne : bs.dropWhile isPart ≠ [] := by
    intro hnil
    rw [word, hnil] at h
    cases h
  obtain ⟨hdrop, htake⟩ := dropWhile_append_of_ne_nil hne more
  obtain ⟨b, rest, hb⟩ := List.exists_cons_of_ne_nil hne
  rw [word, hb] at h
  rw [word, hdrop, htake, hb]
  -- whether the word is refused shows in the first octet that is left and in the word
  show (if b = stop ∧ bs.takeWhile isPart ≠ [] then
    Reading.complete (bs.takeWhile isPart) (rest ++ more)
    else .refused why) = .refused why'
  simp only at h
  split at h
  · cases h
  · rw [if_neg ‹_›]
    exact h

theorem firm_literal (why : RequestDefect) (w : Bytes) : Firm (literal why w) := by
  intro bs why' h more
  fun_induction literal why w bs with
  | case1 | case2 => cases h
  | case3 ws b bs ih => exact (if_pos rfl).trans (ih h)
  | case4 w ws b bs hne => exact (if_neg hne).trans h

theorem firm_target : Firm target := by
  refine (firm_word _ _ _).andThen (local_word (by decide) _) fun w => ?_
  by_cases hw : Utf8.isWellFormed w = true
  · simp only [if_pos hw]
    exact firm_complete w
  · simp only [if_neg hw]
    exact firm_refused _

theorem firm_version : Firm version := by
  refine (firm_literal _ _).andThen (local_literal _ _) fun _ => ?_
  rintro (_ | ⟨b, bs⟩) why h more
  · cases h
  simp only [List.cons_append] at h ⊢
  split at h
  · cases h
  rw [if_neg ‹_›]
  split at h
  · cases h
  exact (if_neg ‹_›).trans h

theorem firm_headerLine : Firm headerLine := by
  refine (firm_word _ _ _).andThen (local_word (by decide) _) fun name => ?_
  intro bs why h more
  obtain hend | ⟨_, _, -, hcomplete⟩ := Reading.andThen_eq_refused.1 h
  · have hne : bs.dropWhile isValue ≠ [] := by
      intro hnil
      rw [hnil] at hend
      cases hend
    have hdrop := (dropWhile_append_of_ne_nil hne more).1
    exact Reading.andThen_eq_refused.2 (.inl (by rw [hdrop, firm_lineEnd _ _ _ hend more]))
  · cases hcomplete

theorem firm_headerLines (room : Nat) : Firm (headerLines room) := by
  intro bs why h more
  fun_induction headerLines room bs with
  | case1 | case3 => cases h
  | case2 room b bs hb =>
    rw [List.cons_append, headerLines_end hb]
    exact (firm_lineEnd .newLine).map (local_lineEnd .newLine) (fun _ => []) (b :: bs) why h more
  | case4 room b bs hb why' hl =>
    cases h
    rw [List.cons_append, headerLines, if_neg hb]
    have hl := firm_headerLine _ _ hl more
    split <;> rename_i h' <;> cases h'.symm.trans hl
    rfl
  | case5 b bs hb l rest hl =>
    rw [List.cons_append, headerLines, if_neg hb]
    have hl := local_headerLine.append hl more
    split <;> rename_i h' <;> cases h'.symm.trans hl
    exact h
  | case6 b bs hb l rest hl room ih =>
    obtain hlines | ⟨_, _, -, hcomplete⟩ := Reading.andThen_eq_refused.1 h
    · refine (headerLines_line hb (local_headerLine.append hl more)).trans ?_
      exact Reading.andThen_eq_refused.2 (.inl (ih hlines))
    · cases hcomplete

theorem firm_emptyLines : Firm emptyLines := by
  intro bs why h more
  fun_induction emptyLines bs with
  | case1 | case3 | case6 => cases h
  | case2 bs ih =>
    rw [List.cons_append, emptyLines.eq_def]
    exact (if_pos rfl).trans (ih h)
  | case4 cs hne ih =>
    rw [List.cons_append, List.cons_append, emptyLines.eq_def]
    exact (if_neg hne).trans ((if_pos rfl).trans ((if_pos rfl).trans (ih h)))
  | case5 c cs hc hne =>
    rw [List.cons_append, List.cons_append, emptyLines.eq_def]
    exact (if_neg hne).trans ((if_pos rfl).trans ((if_neg hc).trans h))

/-- A head that is refused is refused whatever comes after it. -/
theorem firm_head : Firm head := by
  refine firm_emptyLines.andThen_of_append ?_ fun _ =>
      (firm_word _ _ _).andThen (local_word (by decide) _) fun _ =>
    firm_target.andThen local_target fun _ => firm_version.andThen local_version fun _ =>
    (firm_lineEnd _).andThen (local_lineEnd _) fun _ =>
      (firm_headerLines _).map (local_headerLines _) _
  intro bs _ rest h more
  obtain ⟨w, b, rest', rfl, rfl, hw⟩ := emptyLines_append h
  rw [List.append_assoc, List.cons_append]
  exact (hw (rest' ++ more)).1

end RequestGrammar

namespace RequestHead

/-- The errors of `parse` are those of requests. -/
theorem request_of_parse {bs : Bytes} {e : Defect} (h : parse bs = .error e) :
    ∃ why, e = .request why := by
  unfold parse at h
  split at h
  · cases h
  · cases h
    exact ⟨_, rfl⟩
  · split at h <;> cases h
    exact ⟨_, rfl⟩

/-- The result of `parse` is final: there is a head, or there will be none. -/
def isDecided (bs : Bytes) : Bool :=
  match parse bs with
  | .ok none => false
  | _ => true

theorem isDecided_iff {bs : Bytes} : isDecided bs = true ↔ parse bs ≠ .ok none := by
  unfold isDecided
  rcases parse bs with _ | _ | _ <;> simp

/-- Once `parse` has come to an answer, more octets do not change it. -/
theorem parse_append {bs : Bytes} (h : parse bs ≠ .ok none) (more : Bytes) :
    parse (bs ++ more) = parse bs := by
  unfold parse at h ⊢
  cases hread : RequestGrammar.head bs with
  | incomplete => exact absurd (by rw [hread]) h
  | refused why => rw [RequestGrammar.firm_head _ _ hread more]
  | complete lines rest =>
    rw [RequestGrammar.local_head.append hread more]
    simp only [List.length_append, Nat.add_sub_add_right]

/-- Prefixes `p` and `q` of the same octets on which `parse` comes to an answer have the same
one. -/
theorem parse_eq_of_beginnings {p q s : Bytes} (hp : p <+: s) (hq : q <+: s)
    (hdecided : parse p ≠ .ok none) (hdecided' : parse q ≠ .ok none) : parse p = parse q := by
  obtain ⟨more, rfl⟩ := hp
  obtain ⟨more', heq⟩ := hq
  rw [← parse_append hdecided more, ← parse_append hdecided' more', heq]

/-- While `parse` has no answer to `s`, it has none to a prefix. -/
theorem parse_of_beginning {p s : Bytes} (hp : p <+: s) (h : parse s = .ok none) :
    parse p = .ok none := by
  by_cases hdecided : parse p = .ok none
  · exact hdecided
  · obtain ⟨more, rfl⟩ := hp
    rw [← parse_append hdecided more]
    exact h

end RequestHead

end ReverseProxy.Message
