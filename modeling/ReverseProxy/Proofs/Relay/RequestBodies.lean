import Mathlib.Control.Monad.Basic
import ReverseProxy.Proofs.Relay.RequestStream
import ReverseProxy.Proofs.Relay.ResponseBody

/-!
# The body of a request is forwarded exactly

Octets of the body are written to the backend as they arrive, and the forwarding may fail at any
time: because the client sends no more, because the backend takes no more, or because the framing of
the body is invalid.  `Ends` says what each end is, with what has been written until then.  In any
case it is the beginning of one body (`Framing.Begins`), so that nothing of the next request gets to
the backend.

In which pieces a body arrives does not matter: what is written, and what forwarding comes to, is as
if all that is due were written at once (`Ends.eq_of_ready`).  The exception is a body whose framing
is invalid, of which more or less has been forwarded when that is found
(`written_depends_on_pieces`).
-/

namespace ReverseProxy.Relay

open Message Wire
open Message.Pieces

namespace RequestBodyRelay

variable {τ : Type} {w : Writer τ} {framing : Framing} {last : Received}
    {before a b : Bytes} {t t' : BodyTracker}
  {r r₁ r₂ r' : RequestBodyRelay τ} {x : Except ExchangeFailure Nat × RequestBodyRelay τ}

/-! ### What has been forwarded -/

/-- The client sends nothing but octets until a reading comes to `last`, and the buffer can hold
some. -/
structure Ready (last : Received) (r : RequestBodyRelay τ) : Prop where
  client : r.client.Until last
  capacity : 0 < r.buffer.capacity

/-- From one moment to another `part` has been forwarded, and counted. -/
structure Carries (w : Writer τ) (r : RequestBodyRelay τ) (part : Bytes)
    (r' : RequestBodyRelay τ) : Prop extends
    Forwards w r part r' where
  sent : r'.sent = r.sent + part.length
  ready : ∀ last, r.Ready last → r'.Ready last

theorem Carries.refl (w : Writer τ) (r : RequestBodyRelay τ) : Carries w r [] r :=
  ⟨.refl w r, rfl, fun _ hr => hr⟩

theorem Carries.trans (h₁ : Carries w r a r₁) (h₂ : Carries w r₁ b r₂) :
    Carries w r (a ++ b) r₂ where
  toForwards := h₁.toForwards.trans h₂.toForwards
  sent := by rw [h₂.sent, h₁.sent, List.length_append, Nat.add_assoc]
  ready last hr := h₂.ready last (h₁.ready last hr)

/-- The octets `before` are not a whole body yet. -/
def IsPending (framing : Framing) (before : Bytes) : Prop :=
  ((BodyTracker.ofFraming framing).advance before).1 = .ok none ∨ before = []

theorem IsPending.begins (h : IsPending framing before) : framing.Begins before := by
  rcases h with h | rfl
  · exact .inl h
  · exact framing.begins_nil

/-- How the forwarding of a body can end after `before` has been forwarded of it. -/
inductive Ends (w : Writer τ) (framing : Framing) (before : Bytes) (r : RequestBodyRelay τ) :
    Except ExchangeFailure Nat × RequestBodyRelay τ → Prop
  /-- All of the body has been forwarded, in `before` and `part`. -/
  | complete {part : Bytes} {r' : RequestBodyRelay τ} : Carries w r part r' →
      framing = .empty ∨ before ++ r.stream ≠ [] →
      ((BodyTracker.ofFraming framing).advance (before ++ part)).1 =
        .ok (some (before ++ part).length) →
      Ends w framing before r (.ok r'.sent, r')
  /-- The framing was found to be invalid, with the error `e`, when `part` had been forwarded. -/
  | refused {part : Bytes} {e : Defect} {r' : RequestBodyRelay τ} : Carries w r part r' →
      framing.Begins (before ++ part) →
      ((BodyTracker.ofFraming framing).advance (before ++ r.stream)).1 = .error e →
      Ends w framing before r (.error (.defect e), r')
  /-- The backend has taken `part`, and has not taken all of the piece after it. -/
  | unwritten {part piece : Bytes} {s : τ} {f : Fault} {r' : RequestBodyRelay τ} :
      w.Writes r.backend part s →
      w.writeAll piece s = (.error f, r'.backend) → part ++ piece <+: r.stream →
      framing.Begins (before ++ (part ++ piece)) →
      Ends w framing before r (.error (failureOfFault .backend f), r')
  /-- The body goes on after `part`, and nothing more could be read from the client. -/
  | unread {part : Bytes} {got : Received} {r' : RequestBodyRelay τ} :
      Forwards w r part r' → framing ≠ .empty →
      IsPending framing (before ++ part) → (∀ last, r.Ready last → got = last ∧ part = r.stream) →
      Ends w framing before r (.error (failureOfReceived .client got), r')

/-- Forwarding that `Carries` the part `a` and then ends, ends so as a whole. -/
theorem Ends.after (h₁ : Carries w r a r₁) (h₂ : Ends w framing (before ++ a) r₁ x) :
    Ends w framing before r x := by
  have hstream : before ++ a ++ r₁.stream = before ++ r.stream :=
    by rw [List.append_assoc, h₁.stream]
  cases h₂ with
  | complete hpart hne hend =>
    rw [hstream] at hne
    rw [List.append_assoc] at hend
    exact .complete (h₁.trans hpart) hne hend
  | refused hpart hbegins hrefused =>
    rw [hstream] at hrefused
    rw [List.append_assoc] at hbegins
    exact .refused (h₁.trans hpart) hbegins hrefused
  | unwritten hpart hpiece hprefix hbegins =>
    rw [List.append_assoc, ← List.append_assoc a] at hbegins
    refine .unwritten (h₁.written.trans hpart) hpiece ?_ hbegins
    rw [List.append_assoc, ← h₁.stream]
    exact (List.prefix_append_right_inj a).2 hprefix
  | unread hpart hframing hpending hgot =>
    rw [List.append_assoc] at hpending
    refine .unread (h₁.toForwards.trans hpart) hframing hpending fun last hr => ?_
    obtain ⟨hlast, hall⟩ := hgot last (h₁.ready last hr)
    exact ⟨hlast, by rw [hall, h₁.stream]⟩

/-! ### One reading, one writing -/

/-- A reading into an empty buffer gets octets as long as the client has any, and then comes to
`last`. -/
theorem Ready.receive {got : Received} {client : Client} {buffer : Buffer} (hr : r.Ready last)
    (hdata : r.buffer.data = []) (h : r.buffer.receiveClient r.client = (got, client, buffer)) :
    (∃ x xs, got = .octets (x :: xs)) ∧
    ({ r with client, buffer } : RequestBodyRelay τ).Ready last ∨
      got = last ∧ r.stream = [] := by
  rcases Buffer.receiveClient_until hr.client
    (Buffer.not_isFull_of_data_eq_nil hdata hr.capacity) h with
    ⟨hoctets, hclient⟩ | ⟨hlast, hnone⟩
  · refine .inl ⟨hoctets, hclient, ?_⟩
    rw [(Buffer.data_receiveClient h).2.2]
    exact hr.capacity
  · refine .inr ⟨hlast, ?_⟩
    rw [stream, hdata, hnone, List.append_nil]

/-- A reading that gets octets carries none. -/
theorem carries_receive {x : UInt8} {xs : Bytes} {client : Client} {buffer : Buffer}
    (hdata : r.buffer.data = [])
    (h : r.buffer.receiveClient r.client = (.octets (x :: xs), client, buffer)) :
    Carries w r [] { r with client, buffer } := by
  refine ⟨forwards_receive h, rfl, fun last hr => ?_⟩
  rcases hr.receive hdata h with ⟨-, hready⟩ | ⟨-, hnone⟩
  · exact hready
  · have hstream := (forwards_receive (w := w) h).stream
    rw [List.nil_append, hnone, stream, (Buffer.data_receiveClient h).2.1, hdata] at hstream
    cases hstream

/-- What `pass` may do after `before` has been forwarded of the body. -/
def PassOutcome (w : Writer τ) (framing : Framing) (before : Bytes) (r : RequestBodyRelay τ) :
    Except ExchangeFailure (Bool × BodyTracker) × RequestBodyRelay τ → Prop
  | (.error e, r') => Ends w framing before r (.error e, r')
  | (.ok (true, _), r') => Ends w framing before r (.ok r'.sent, r')
  | (.ok (false, t), r') => ∃ part, Carries w r part r' ∧
      (BodyTracker.ofFraming framing).advance (before ++ part) = (.ok none, t) ∧ r'.buffer.data = []

/-- `pass` may come after a part of the body has been forwarded. -/
theorem PassOutcome.after {y : Except ExchangeFailure (Bool × BodyTracker) × RequestBodyRelay τ}
    (h₁ : Carries w r a r₁) (h₂ : PassOutcome w framing (before ++ a) r₁ y) :
    PassOutcome w framing before r y := by
  obtain ⟨e | ⟨_ | _, t⟩, r'⟩ := y
  · exact Ends.after h₁ h₂
  · obtain ⟨part, hpart, hnext, hempty⟩ := h₂
    rw [List.append_assoc] at hnext
    exact ⟨a ++ part, h₁.trans hpart, hnext, hempty⟩
  · exact Ends.after h₁ h₂

/-- A write of octets from the front of the buffer carries them. -/
theorem carries_write {part : Bytes} {s : τ} (hpart : part <+: r.buffer.data)
    (h : w.writeAll part r.backend = (.ok (), s)) :
    Carries w r part
      { r with
        backend := s, buffer := r.buffer.consume part.length,
        sent := r.sent + part.length } := by
  obtain ⟨rest, hdata⟩ := hpart
  refine ⟨⟨.piece h, ?_, rfl⟩, rfl, fun last hr => ⟨hr.client, ?_⟩⟩
  · rw [stream, stream, Buffer.data_consume, ← hdata, List.drop_left, List.append_assoc]
  · rw [Buffer.capacity_consume]
    exact hr.capacity

/-- A write of octets from the front of the buffer that fails ends the forwarding. -/
theorem ends_unwritten {part : Bytes} {s : τ} {f : Fault} (hpart : part <+: r.buffer.data)
    (hbegins : framing.Begins (before ++ part)) (h : w.writeAll part r.backend = (.error f, s)) :
    Ends w framing before r (.error (failureOfFault .backend f), { r with backend := s }) := by
  refine .unwritten (.nil r.backend) h ?_ ?_ <;> rw [List.nil_append]
  · exact hpart.trans (List.prefix_append _ _)
  · exact hbegins

/-- A `pass` forwards what is in the buffer, as far as it belongs to the body. -/
theorem passOutcome_pass (ht : Follows framing before t) (hpending : IsPending framing before)
    (hdata : r.buffer.data ≠ []) : PassOutcome w framing before r (r.pass w t) := by
  have hnext := ht r.buffer.data
  unfold pass
  rcases hadvance : t.advance r.buffer.data with ⟨e | _ | n, t₁⟩ <;> rw [hadvance] at hnext
  · rw [later_error] at hnext
    refine .refused (.refl w r) ?_ ?_
    · rw [List.append_nil]
      exact hpending.begins
    · rw [stream, ← List.append_assoc, BodyTracker.advance_continues, hnext, andThen_error]
  · rw [later_none] at hnext
    have hall : r.buffer.data.take r.buffer.size = r.buffer.data := List.take_length
    simp only [Option.getD_none, hall]
    rcases hwrite : w.writeAll r.buffer.data r.backend with ⟨f | _, s⟩
    · exact ends_unwritten (List.prefix_refl _) (.inl (congrArg Prod.fst hnext)) hwrite
    · exact ⟨r.buffer.data, carries_write (List.prefix_refl _) hwrite,
        hnext, Buffer.data_consume_size _⟩
  · rw [later_some] at hnext
    have hlength : (r.buffer.data.take n).length = n :=
      List.length_take_of_le (BodyTracker.le_length_of_advance hadvance)
    have hend := BodyTracker.advance_take hnext
    rw [List.take_length_add_append, ← hlength, ← List.length_append, hlength] at hend
    have hpart := List.take_prefix n r.buffer.data
    simp only [Option.getD_some]
    rcases hwrite : w.writeAll (r.buffer.data.take n) r.backend with ⟨f | _, s⟩
    · exact ends_unwritten hpart (.inr hend) hwrite
    · have hcarries := carries_write hpart hwrite
      rw [hlength] at hcarries
      have hstream : before ++ r.stream ≠ [] := by simp [stream, hdata]
      exact .complete hcarries (.inr hstream) hend

/-! ### The whole body -/

/-- A `pass` after a reading forwards what it got, as far as it belongs to the body. -/
theorem passOutcome_received (w : Writer τ) {x : UInt8} {xs : Bytes} {client : Client}
    {buffer : Buffer} (ht : Follows framing before t) (hpending : IsPending framing before)
    (hdata : r.buffer.data = [])
    (h : r.buffer.receiveClient r.client = (.octets (x :: xs), client, buffer)) :
    PassOutcome w framing before r (({ r with client, buffer }).pass w t) := by
  apply PassOutcome.after (carries_receive hdata h)
  rw [List.append_nil]
  apply passOutcome_pass ht hpending
  have hreceived : buffer.data = r.buffer.data ++ x :: xs := (Buffer.data_receiveClient h).2.1
  simp [hreceived]

/-- A `forwardRest` with nothing in the buffer ends in one of the ways of `Ends`. -/
theorem ends_forwardRest (hframing : framing ≠ .empty) (ht : Follows framing before t)
    (hpending : IsPending framing before) (hdata : r.buffer.data = []) :
    Ends w framing before r (r.forwardRest w t) := by
  fun_induction forwardRest w t r generalizing before with
  | case1 t r b bs client buffer hreceive e r' hpass =>
    have hpassed := passOutcome_received w ht hpending hdata hreceive
    rw [hpass] at hpassed
    exact hpassed
  | case2 t r b bs client buffer hreceive t₁ r' hpass =>
    have hpassed := passOutcome_received w ht hpending hdata hreceive
    rw [hpass] at hpassed
    exact hpassed
  | case3 t r b bs client buffer hreceive t₁ r' hpass ih =>
    have hpassed := passOutcome_received w ht hpending hdata hreceive
    rw [hpass] at hpassed
    obtain ⟨part, hpart, hnext, hempty⟩ := hpassed
    exact .after hpart (ih (follows_of_advance hnext) (.inl (congrArg Prod.fst hnext)) hempty)
  | case4 t r got client buffer hgot hreceive =>
    refine .unread (forwards_receive hreceive) hframing (by rwa [List.append_nil]) fun last hr => ?_
    rcases hr.receive hdata hreceive with ⟨⟨b, bs, hoctets⟩, -⟩ | ⟨hlast, hstream⟩
    · exact absurd hoctets (hgot b bs)
    · exact ⟨hlast, hstream.symm⟩

/-- A `run` ends in one of the ways of `Ends`, with nothing forwarded before. -/
theorem ends_run (body : RequestBody) (hsent : r.sent = 0) :
    Ends w body.framing [] r (r.run w body) := by
  unfold run
  split
  · rename_i hnone
    obtain rfl : body = .none := by cases body <;> first | rfl | cases hnone
    have hnothing : Ends w .empty [] r (.ok r.sent, r) := .complete (.refl w r) (.inl rfl) rfl
    rwa [hsent] at hnothing
  rename_i t hsome
  have hframing : body.framing ≠ .empty := by
    cases body with
    | none => cases hsome
    | length | chunked => exact Framing.noConfusion
  have ht : Follows body.framing [] t := eq_ofFraming hsome ▸ follows_nil _
  have hpending : IsPending body.framing [] := .inr rfl
  split
  · rename_i hempty
    exact ends_forwardRest hframing ht hpending (List.isEmpty_iff.1 hempty)
  · rename_i hne
    have hpassed := passOutcome_pass (w := w) ht hpending (mt List.isEmpty_iff.2 hne)
    rcases hpass : r.pass w t with ⟨e | ⟨_ | _, t₁⟩, r₁⟩ <;> rw [hpass] at hpassed
    · exact hpassed
    · obtain ⟨part, hpart, hnext, hempty⟩ := hpassed
      have hpending : IsPending body.framing ([] ++ part) := .inl (congrArg Prod.fst hnext)
      exact .after hpart (ends_forwardRest hframing (follows_of_advance hnext) hpending hempty)
    · exact hpassed

/-- A `run` that succeeds has forwarded a body as `body.framing` announces it, and nothing else. -/
theorem forwards_run {body : RequestBody} {n : Nat} (hsent : r.sent = 0)
    (h : r.run w body = (.ok n, r')) :
    ∃ part, Forwards w r part r' ∧ body.framing.IsBody part := by
  have hends : Ends w body.framing [] r (.ok n, r') := h ▸ ends_run body hsent
  cases hends with
  | complete hpart _ hend => exact ⟨_, hpart.toForwards, BodyTracker.isBody_of_end hend⟩

/-! ### As if all were written at once -/

/-- The octets of the stream `s` that are due to the backend: the body, or all of them if they end
before it does. -/
def due (framing : Framing) (s : Bytes) : Bytes :=
  match ((BodyTracker.ofFraming framing).advance s).1 with
  | .ok (some n) => s.take n
  | _ => s

/-- What forwarding comes to on a stream of which a reading comes to `last` after `s`, if all that
is due is written. -/
def answer (framing : Framing) (last : Received) (s : Bytes) : Except ExchangeFailure Nat :=
  if s = [] ∧ framing ≠ .empty then .error (failureOfReceived .client last)
  else match ((BodyTracker.ofFraming framing).advance s).1 with
    | .ok (some n) => .ok n
    | .ok none => .error (failureOfReceived .client last)
    | .error e => .error (.defect e)

/-- What forwarding comes to, and what the backend has taken then, if all that is `due` is written
at once. -/
def outcome (framing : Framing) (last : Received) (s : Bytes) (backend : Sink) :
    Except ExchangeFailure Nat × Bytes :=
  (match (backend.writeAll (due framing s)).1 with
    | .ok () => answer framing last s
    | .error f => .error (failureOfFault .backend f),
    (backend.writeAll (due framing s)).2.written)

section

variable {s p : Bytes} {backend : Sink} {body : RequestBody} {r r₁ r₂ : RequestBodyRelay Sink}
  {x : Except ExchangeFailure Nat × RequestBodyRelay Sink}

theorem due_of_end (h : ((BodyTracker.ofFraming framing).advance p).1 = .ok (some p.length))
    (s : Bytes) :
    due framing (p ++ s) = p := by
  rw [due, BodyTracker.advance_append_of_end h]
  exact List.take_left

theorem due_of_pending (h : IsPending framing s) : due framing s = s := by
  unfold due
  rcases h with h | rfl
  · rw [h]
  · split <;> simp

/-- A prefix of the stream that begins a body is `due`. -/
theorem prefix_due (hf : framing.isDelimited = true) (hbegins : framing.Begins p) (hp : p <+: s) :
    p <+: due framing s := by
  unfold due
  split
  · rename_i n hend
    have hbody := BodyTracker.isBody_of_advance (Prod.ext hend rfl)
    exact hbegins.prefix_body hf hbody hp (List.take_prefix n s)
  · exact hp

theorem isDelimited_framing (body : RequestBody) : body.framing.isDelimited = true :=
  by cases body <;> rfl

/-- If it does not fail on the framing, the forwarding comes to the `outcome` of its stream and its
`last` reading. -/
theorem Ends.eq_of_ready (h : Ends Sink.writer framing [] r x) (hf : framing.isDelimited = true)
    (hsent : r.sent = 0) (hr : r.Ready last) (hvalid : ∀ e, x.1 ≠ .error (.defect e)) :
    (x.1, x.2.backend.written) = outcome framing last r.stream r.backend := by
  cases h with
  | @complete part r' hpart hne hend =>
    have hdue := due_of_end hend r'.stream
    rw [List.nil_append, hpart.stream] at hdue
    have hanswer : answer framing last r.stream = .ok part.length := by
      have hadvance := BodyTracker.advance_append_of_end hend r'.stream
      rw [List.nil_append, hpart.stream] at hadvance
      rw [answer, if_neg fun ⟨hs, hframing⟩ => hne.elim hframing fun hne => hne hs, hadvance]
    obtain ⟨hok, hwritten⟩ := Sink.writeAll_eq_of_writes hpart.written
    rw [outcome, hdue, hok, hwritten, hanswer, hpart.sent, hsent, Nat.zero_add]
  | refused => exact absurd rfl (hvalid _)
  | @unwritten part piece mid f r' hpart hpiece hprefix hbegins =>
    have hpiece : mid.writeAll piece = (.error f, r'.backend) := hpiece
    obtain ⟨hanswer, hwritten⟩ := Sink.writeAll_of_writes hpart piece
    rw [hpiece] at hanswer hwritten
    obtain ⟨hanswer', hwritten'⟩ := Sink.writeAll_of_prefix hanswer (prefix_due hf hbegins hprefix)
    rw [outcome, hanswer', hwritten', hwritten]
  | unread hpart hframing hpending hgot =>
    obtain ⟨hlast, rfl⟩ := hgot last hr
    rw [List.nil_append] at hpending
    have hanswer : answer framing last r.stream = .error (failureOfReceived .client last) := by
      unfold answer
      split
      · rfl
      · rename_i hne
        rcases hpending with hpending | hnil
        · rw [hpending]
        · exact absurd ⟨hnil, hframing⟩ hne
    obtain ⟨hok, hwritten⟩ := Sink.writeAll_eq_of_writes hpart.written
    rw [outcome, due_of_pending hpending, hok, hwritten, hanswer, hlast]

/-- A forwarding that fails on the framing does so with the error that the tracker has for the
stream. -/
theorem Ends.advance_of_defect (h : Ends Sink.writer framing [] r x) {e : Defect}
    (hx : x.1 = .error (.defect e)) :
    ((BodyTracker.ofFraming framing).advance r.stream).1 = .error e := by
  cases h with
  | complete | unwritten => cases hx
  | @unread _ got =>
    cases got <;> cases hx
  | refused hpart hbegins hrefused =>
    cases hx
    exact hrefused

theorem answer_of_error {e : Defect} (h : ((BodyTracker.ofFraming framing).advance s).1 = .error e)
    (last : Received) :
    answer framing last s = .error (.defect e) := by
  have hne : s ≠ [] := by
    rintro rfl
    rcases framing.begins_nil with hnil | hnil <;> cases h.symm.trans hnil
  rw [answer, if_neg fun hs => hne hs.1, h]

/-- With a backend that takes everything, the forwarding comes to the `answer`, in whatever pieces
the stream arrives. -/
theorem Ends.fst_eq_answer (h : Ends Sink.writer framing [] r x) (hf : framing.isDelimited = true)
    (hsent : r.sent = 0)
    (hr : r.Ready last) (hroom : r.backend.room = none) : x.1 = answer framing last r.stream := by
  by_cases hdefect : ∃ e, x.1 = .error (.defect e)
  · obtain ⟨e, he⟩ := hdefect
    rw [he, answer_of_error (h.advance_of_defect he)]
  · have hall : (r.backend.writeAll (due framing r.stream)).1 = .ok () := by
      rw [Sink.writeAll, Sink.accepts, hroom]
      exact if_neg (Nat.lt_irrefl _)
    have houtcome := congrArg Prod.fst (h.eq_of_ready hf hsent hr (not_exists.1 hdefect))
    rwa [outcome, hall] at houtcome

/-- The backend has taken a `part` that begins a body, from the front of the stream; all of the body
if the forwarding succeeds. -/
theorem Ends.written (h : Ends Sink.writer framing [] r x) :
    ∃ part, x.2.backend.written = r.backend.written ++ part ∧ part <+: r.stream ∧
    framing.Begins part ∧
      ∀ n, x.1 = .ok n → x.2.sent = n ∧ Carries Sink.writer r part x.2 ∧ framing.IsBody part := by
  cases h with
  | complete hpart hne hend =>
    refine ⟨_, Sink.written_of_writes hpart.written, hpart.prefix_stream, .inr hend, fun n hn => ?_⟩
    cases hn
    exact ⟨rfl, hpart, BodyTracker.isBody_of_end hend⟩
  | refused hpart hbegins =>
    exact ⟨_, Sink.written_of_writes hpart.written, hpart.prefix_stream,
      hbegins, fun n hn => nomatch hn⟩
  | unread hpart _ hpending =>
    exact ⟨_, Sink.written_of_writes hpart.written, hpart.prefix_stream,
      hpending.begins, fun n hn => nomatch hn⟩
  | @unwritten part piece mid f r' hpart hpiece hprefix hbegins =>
    obtain ⟨taken, htaken, hwritten, -⟩ := Sink.written_writeAll hpiece
    have hbeginning : part ++ taken <+: part ++ piece :=
      (List.prefix_append_right_inj part).2 htaken
    refine ⟨_, ?_, hbeginning.trans hprefix, hbegins.of_prefix hbeginning, fun n hn => nomatch hn⟩
    rw [hwritten, Sink.written_of_writes hpart, List.append_assoc]

/-! ### Exactness -/

/-- What has been written of a body when its forwarding came to `x` is `part`, and is exact. -/
structure Exact (body : RequestBody) (r : RequestBodyRelay Sink)
    (x : Except ExchangeFailure Nat × RequestBodyRelay Sink) (part : Bytes) : Prop where
  written : x.2.backend.written = r.backend.written ++ part
  prefix_stream : part <+: r.stream
  /-- If `x` is a success, `part` is the body, and what comes after it is left in the stream. -/
  of_ok : ∀ n, x.1 = .ok n → part.length = n ∧ body.framing.IsBody part ∧
    x.2.stream = r.stream.drop n
  /-- Nothing is written of what comes after a `whole` body. -/
  within : ∀ whole, body.framing.IsBody whole → whole <+: r.stream → part <+: whole
  /-- If `x` fails on the framing, nothing is written of the offending octet `b`, nor of what comes
  after it, and no body goes on with it. -/
  of_defect : ∀ e, x.1 = .error (.defect e) → body = .chunked ∧
    ∃ good b rest, r.stream = good ++ b :: rest ∧ ChunkTracker.Offends good b ∧ part <+: good ∧
      ∀ more, ¬ChunkedBody (good ++ b :: more)

/-- Only the framing of a chunked body can be invalid. -/
theorem observe_of_refused {e : Defect}
    (h : ((BodyTracker.ofFraming body.framing).advance s).1 = .error e) :
    body = .chunked ∧ (ChunkTracker.observe {} s).1 = .error e := by
  cases body with
  | none => cases h
  | length n =>
    rcases Nat.lt_or_ge s.length n with hn | hn
    · cases (congrArg Prod.fst (BodyTracker.advance_remaining_of_lt hn)).symm.trans h
    · cases (congrArg Prod.fst (BodyTracker.advance_remaining_of_le hn)).symm.trans h
  | chunked => exact ⟨rfl, h⟩

/-- The beginning of a chunked body is not refused. -/
theorem ok_of_begins (h : Framing.chunked.Begins p) : ∃ answer,
    (ChunkTracker.observe {} p).1 = .ok answer := by
  rcases h with h | h
  · exact ⟨_, h⟩
  · exact ⟨_, h⟩

theorem Ends.exact (h : Ends Sink.writer body.framing [] r x) (hsent : r.sent = 0) :
    ∃ part, Exact body r x part := by
  obtain ⟨part, hwritten, hprefix, hbegins, hok⟩ := h.written
  refine ⟨part, hwritten, hprefix, fun n hn => ?_, fun whole hwhole hstream => ?_, fun e he => ?_⟩
  · obtain ⟨rfl, hpart, hbody⟩ := hok n hn
    have hlength : x.2.sent = part.length := by rw [hpart.sent, hsent, Nat.zero_add]
    exact ⟨hlength.symm, hbody, by rw [hlength, ← hpart.stream, List.drop_left]⟩
  · exact hbegins.prefix_body (isDelimited_framing body) hwhole hprefix hstream
  · obtain ⟨rfl, hrefused⟩ := observe_of_refused (h.advance_of_defect he)
    obtain ⟨good, b, rest, hstream, hoffends⟩ := ChunkTracker.exists_offends hrefused
    obtain ⟨answer, hread⟩ := ok_of_begins hbegins
    have hgood : part <+: good := hoffends.prefix_of_ok (hstream ▸ hprefix) hread
    exact ⟨rfl, good, b, rest, hstream, hoffends, hgood, hoffends.not_chunkedBody⟩

end

/-- The body of a request is forwarded exactly.  From every relay `r`, `run` writes a `part` that is
`Exact`: it begins a body and stands at the front of the stream; if `run` succeeds it is the whole
body, and the rest of the stream is left.  Two relays `r₁` and `r₂` with the same stream, the same
`last` reading and the same backend come to the same answer and write the same, in whatever pieces
the stream arrives, unless they fail on the framing; and they come to the same answer in any case if
the backend takes everything. -/
theorem run_body_exact (body : RequestBody) :
    (∀ r : RequestBodyRelay Sink, r.sent = 0 → ∃ part, Exact body r (r.run Sink.writer body) part) ∧
      ∀ (last : Received) (r₁ r₂ : RequestBodyRelay Sink), r₁.sent = 0 →
      r₂.sent = 0 → r₁.Ready last → r₂.Ready last →
        r₁.stream = r₂.stream → r₁.backend = r₂.backend →
        let x₁ := r₁.run Sink.writer body
        let x₂ := r₂.run Sink.writer body
        (x₁.1 = x₂.1 ∧ x₁.2.backend.written = x₂.2.backend.written ∨
          ∃ e, x₁.1 = .error (.defect e) ∨ x₂.1 = .error (.defect e)) ∧
        (r₁.backend.room = none → x₁.1 = x₂.1) := by
  refine ⟨fun r hsent => (ends_run body hsent).exact hsent, ?_⟩
  intro last r₁ r₂ hsent₁ hsent₂ hr₁ hr₂ hstream hbackend x₁ x₂
  have hf := isDelimited_framing body
  have hends₁ : Ends Sink.writer body.framing [] r₁ x₁ := ends_run body hsent₁
  have hends₂ : Ends Sink.writer body.framing [] r₂ x₂ := ends_run body hsent₂
  refine ⟨?_, fun hroom => ?_⟩
  · by_cases hdefect : ∃ e, x₁.1 = .error (.defect e) ∨ x₂.1 = .error (.defect e)
    · exact .inr hdefect
    · have hvalid := not_exists.1 hdefect
      have houtcome₁ := hends₁.eq_of_ready hf hsent₁ hr₁ fun e he => hvalid e (.inl he)
      have houtcome₂ := hends₂.eq_of_ready hf hsent₂ hr₂ fun e he => hvalid e (.inr he)
      rw [hstream, hbackend, ← houtcome₂] at houtcome₁
      exact .inl (Prod.mk.inj houtcome₁)
  · have hroom₂ : r₂.backend.room = none := hbackend ▸ hroom
    have hanswer₁ := hends₁.fst_eq_answer hf hsent₁ hr₁ hroom
    have hanswer₂ := hends₂.fst_eq_answer hf hsent₂ hr₂ hroom₂
    rw [hstream, ← hanswer₂] at hanswer₁
    exact hanswer₁

/-- A relay with the octets `buffered` in its buffer, and `pieces` to come from the client. -/
def ofPieces (buffered : Bytes) (pieces : List Bytes) (backend : Sink) : RequestBodyRelay Sink where
  client := { incoming := pieces.map fun piece => .arrival (.octets piece) }
  buffer := (Buffer.ofCapacity 64).write buffered
  backend

theorem ready_ofPieces (buffered : Bytes) {pieces : List Bytes} (backend : Sink)
    (h : ∀ piece ∈ pieces, piece ≠ []) :
    (ofPieces buffered pieces backend).Ready (.octets []) where
  client := by
    induction pieces with
    | nil => exact .last rfl fun _ => rfl
    | cons piece pieces ih =>
      obtain ⟨b, bs, rfl⟩ := List.exists_cons_of_ne_nil (h piece List.mem_cons_self)
      exact .octets (ih fun piece hpiece => h piece (List.mem_cons_of_mem _ hpiece))
  capacity := by
    rw [ofPieces, Buffer.capacity_write, Buffer.capacity_ofCapacity]
    decide

/-- A chunked body and the beginning of the next request. -/
def pipelined : Bytes := ChunkTracker.oneChunk ++ [71, 69, 84]

/-- The body of `pipelined` is forwarded up to its last octet from any pieces, and the next request
is left. -/
theorem run_body_exact_pipelined :
    let r := ofPieces (pipelined.take 4) [(pipelined.drop 4).take 9, pipelined.drop 13] {}
    (r.run Sink.writer .chunked).1 = .ok 16 ∧
      (r.run Sink.writer .chunked).2.backend.written = ChunkTracker.oneChunk ∧
      (r.run Sink.writer .chunked).2.stream = [71, 69, 84] := by
  intro r
  obtain ⟨hexact, hsame⟩ := run_body_exact .chunked
  have hready : (ofPieces pipelined [] {}).Ready (.octets []) :=
    ready_ofPieces _ _ (List.forall_mem_nil _)
  have hr : r.Ready (.octets []) := ready_ofPieces _ _ (by decide)
  have hanswer : answer .chunked (.octets []) pipelined = .ok 16 := by
    obtain ⟨t, ht⟩ :=
      ChunkTracker.observe_chunkedBody ChunkTracker.chunkedBody_oneChunk [71, 69, 84]
    have hadvance : ((BodyTracker.ofFraming .chunked).advance pipelined).1 = .ok (some 16) :=
      congrArg Prod.fst ht
    rw [answer, if_neg fun h => absurd h.1 (by decide), hadvance]
  have hwhole : ((ofPieces pipelined [] {}).run Sink.writer .chunked).1 = .ok 16 :=
    ((ends_run .chunked rfl).fst_eq_answer rfl rfl hready rfl).trans hanswer
  have hpieces : (r.run Sink.writer .chunked).1 = .ok 16 :=
    ((hsame _ _ r rfl rfl hready hr rfl rfl).2 rfl).symm.trans hwhole
  obtain ⟨part, hpart⟩ := hexact r rfl
  obtain ⟨hlength, -, hrest⟩ := hpart.of_ok 16 hpieces
  refine ⟨hpieces, ?_, hrest⟩
  rw [hpart.written, List.prefix_iff_eq_take.1 hpart.prefix_stream, hlength]
  rfl

/-- A body with an octet in the place of the line end after its data: `3\r\nabcX`. -/
def unterminated : Bytes := [51, 13, 10, 97, 98, 99, 88]

/-- With the `unterminated` body, the pieces make a difference to how much has been written when the
framing is found to be invalid; and if the backend cannot take so much, to what the forwarding comes
to. -/
theorem written_depends_on_pieces :
    let whole := ofPieces unterminated []
    let pieces := ofPieces (unterminated.take 3) [unterminated.drop 3]
    ((whole {}).Ready (.octets []) ∧ (pieces {}).Ready (.octets []) ∧
      (whole {}).stream = (pieces {}).stream) ∧
      (((whole {}).run Sink.writer .chunked).1 = .error (.defect .chunkFraming) ∧
        ((pieces {}).run Sink.writer .chunked).1 = .error (.defect .chunkFraming)) ∧
      (((whole {}).run Sink.writer .chunked).2.backend.written = [] ∧
        ((pieces {}).run Sink.writer .chunked).2.backend.written = [51, 13, 10]) ∧
      ((whole { room := some 2 }).run Sink.writer .chunked).1 = .error (.defect .chunkFraming) ∧
        ((pieces { room := some 2 }).run Sink.writer .chunked).1 =
          .error (.transport (.timedOut .backend)) := by
  refine ⟨⟨?_, ?_, rfl⟩, ?_⟩
  · exact ready_ofPieces _ _ (List.forall_mem_nil _)
  · exact ready_ofPieces _ _ (by decide)
  · decide +kernel

end RequestBodyRelay

end ReverseProxy.Relay
