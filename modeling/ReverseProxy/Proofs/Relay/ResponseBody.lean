import ReverseProxy.Proofs.Message.BodyPieces
import ReverseProxy.Proofs.Relay.Passing

/-!
# The body of a response

The body is relayed piece by piece while a tracker looks for its end.  `readBody` finds the end in a
stream as if all of it had arrived at once.  At any time the tracker is where it would be if it had
been given in one piece what has been relayed of the body so far (`Follows`), and so the relay finds
the same end.
-/

namespace ReverseProxy.Relay

open Message Wire
open Message.Pieces

/-- The length of a body in a stream that is closed after `s`. -/
def readBody (framing : Framing) (s : Bytes) : Except ExchangeFailure Nat :=
  match ((BodyTracker.ofFraming framing).advance s).1 with
  | .error e => .error (.defect e)
  | .ok (some n) => .ok n
  | .ok none => if framing.isDelimited then .error (.transport (.closed .backend)) else .ok s.length

/-- The tracker goes on where one that has read `before` would go on. -/
def Follows (framing : Framing) (before : Bytes) (t : BodyTracker) : Prop :=
  ∀ next, (BodyTracker.ofFraming framing).advance (before ++ next) =
    later before.length (t.advance next)

section

variable {framing : Framing} {before s : Bytes} {t t' : BodyTracker}

theorem follows_nil (framing : Framing) : Follows framing [] (BodyTracker.ofFraming framing) :=
  fun _ => (later_zero _).symm

theorem follows_of_advance (h : (BodyTracker.ofFraming framing).advance before = (.ok none, t)) :
    Follows framing before t := by
  intro next
  rw [BodyTracker.advance_continues, h, andThen_none]

/-- If the tracker finds the end of the body within `before`, `readBody` finds it there, whatever
`s` follows. -/
theorem readBody_append {n : Nat}
    (h : (BodyTracker.ofFraming framing).advance before = (.ok (some n), t)) (s : Bytes) :
    readBody framing (before ++ s) = .ok n := by
  rw [readBody, BodyTracker.advance_continues, h, andThen_some]

/-- If the tracker refuses `before`, `readBody` refuses it, whatever `s` follows. -/
theorem readBody_append_error {e : Defect}
    (h : (BodyTracker.ofFraming framing).advance before = (.error e, t))
    (s : Bytes) : readBody framing (before ++ s) = .error (.defect e) := by
  rw [readBody, BodyTracker.advance_continues, h, andThen_error]

/-- If the stream closes after `before`, within the body, `readBody` fails, unless the framing is by
the end of the connection. -/
theorem readBody_closed (h : (BodyTracker.ofFraming framing).advance before = (.ok none, t)) :
    readBody framing before =
      if framing.isDelimited then .error (.transport (.closed .backend))
      else .ok before.length := by
  rw [readBody, h]

end

namespace ResponseRelay

/-- From one moment to another the relay has passed on the first `head` octets of the buffer, and
octets of the body after them. -/
structure RelaysBody (head : Nat) (r : ResponseRelay) (part : Bytes)
    (r' : ResponseRelay) : Prop extends
    Relays r (r.buffer.data.take head ++ part) r' where
  body : r'.body = r.body + part.length
  parser : r'.parser = r.parser

/-- What `passBody` may do after `before` has been relayed of the body. -/
def PassOutcome (framing : Framing) (before : Bytes) (head : Nat) (r : ResponseRelay) :
    Except ExchangeFailure (Bool × BodyTracker) × ResponseRelay → Prop
  | (.error e, r') =>
      Fails r r' ∧ (r.Calm → readBody framing (before ++ r.stream.drop head) = .error e)
  | (.ok (true, _), r') => ∃ part, RelaysBody head r part r' ∧ framing.IsBody (before ++ part) ∧
      readBody framing (before ++ r.stream.drop head) = .ok (before.length + part.length)
  | (.ok (false, t), r') => ∃ part, RelaysBody head r part r' ∧
      (BodyTracker.ofFraming framing).advance (before ++ part) = (.ok none, t) ∧ r'.buffer.data = []

/-- What `relayBody` may do after `before` has been relayed of the body. -/
def BodyOutcome (framing : Framing) (before : Bytes) (r : ResponseRelay) :
    Except ExchangeFailure Unit × ResponseRelay → Prop
  | (.error e, r') => Fails r r' ∧ (r.Calm → readBody framing (before ++ r.stream) = .error e)
  | (.ok (), r') => ∃ part, RelaysBody 0 r part r' ∧ framing.IsBody (before ++ part) ∧
      (r.Calm → readBody framing (before ++ r.stream) = .ok (before.length + part.length))

/-- A relay of the body in two steps is one of `a ++ b`. -/
theorem RelaysBody.trans {head : Nat} {r r₁ r₂ : ResponseRelay} {a b : Bytes}
    (h₁ : RelaysBody head r a r₁) (h₂ : RelaysBody 0 r₁ b r₂) : RelaysBody head r (a ++ b) r₂ where
  toRelays := by
    have h := h₁.toRelays.trans h₂.toRelays
    rwa [List.take_zero, List.nil_append, List.append_assoc] at h
  body := by rw [h₂.body, h₁.body, List.length_append, Nat.add_assoc]
  parser := h₂.parser.trans h₁.parser

theorem RelaysBody.relays {r r' : ResponseRelay} {part : Bytes} (h : RelaysBody 0 r part r') :
    Relays r part r' :=
  h.toRelays

/-- The stream after the head is the `part` passed on and what is still to come. -/
theorem RelaysBody.drop_stream {head : Nat} {r r' : ResponseRelay} {part : Bytes}
    (h : RelaysBody head r part r')
    (hhead : head ≤ r.buffer.size) : r.stream.drop head = part ++ r'.stream := by
  rw [← h.stream, List.append_assoc, List.drop_left' (List.length_take_of_le hhead)]

/-- A reading passes nothing on of the body. -/
theorem relaysBody_receive {r : ResponseRelay} {got : Received} {backend : Source} {buffer : Buffer}
    (hb : ¬r.buffer.isFull = true) (h : r.buffer.receive r.backend = (got, backend, buffer)) :
    RelaysBody 0 r [] { r with backend, buffer } :=
  ⟨relays_receive hb h, rfl, rfl⟩

/-- A relay that passes `a` on and then comes to a `BodyOutcome`, comes to it as a whole. -/
theorem BodyOutcome.after {framing : Framing} {before a : Bytes} {r r₁ : ResponseRelay}
    {x : Except ExchangeFailure Unit × ResponseRelay} (h₁ : RelaysBody 0 r a r₁)
    (h₂ : BodyOutcome framing (before ++ a) r₁ x) : BodyOutcome framing before r x := by
  have hstream : before ++ a ++ r₁.stream = before ++ r.stream :=
    by rw [List.append_assoc, h₁.relays.stream]
  obtain ⟨e | _, r₂⟩ := x
  · obtain ⟨hfails, hread⟩ := h₂
    exact ⟨h₁.relays.trans_fails hfails, fun hr => hstream ▸ hread (h₁.calm hr)⟩
  · obtain ⟨part, h₂, hbody, hread⟩ := h₂
    refine ⟨a ++ part, h₁.trans h₂, by rwa [← List.append_assoc], fun hr => ?_⟩
    rw [← hstream, hread (h₁.calm hr), List.length_append, List.length_append, Nat.add_assoc]

/-- A `pass` of the head and `n` octets relays these of the body. -/
theorem relaysBody_pass {head n : Nat} {r r' : ResponseRelay} (hn : head + n ≤ r.buffer.size)
    (h : r.pass (head + n) = (.ok (), r')) :
    RelaysBody head r ((r.buffer.data.drop head).take n) { r' with body := r'.body + n } ∧
      r'.buffer.data = r.buffer.data.drop (head + n) := by
  obtain ⟨hrelays, hdata⟩ := relays_pass hn h
  have hbody := body_pass (head + n) r
  have hparser := parser_pass (head + n) r
  rw [h] at hbody hparser
  have hlen : ((r.buffer.data.drop head).take n).length = n := by
    rw [Buffer.size] at hn
    rw [List.length_take, List.length_drop]
    omega
  have hcounted : Relays r' [] { r' with body := r'.body + n } := .of_eq rfl rfl rfl rfl
  have hall := hrelays.trans hcounted
  rw [List.append_nil, List.take_add] at hall
  exact ⟨⟨hall, by rw [hlen, hbody], hparser⟩, hdata⟩

/-- A `passBody` passes on what is in the buffer, as far as it belongs to the body. -/
theorem passOutcome_passBody {framing : Framing} {before : Bytes} {t : BodyTracker}
    {head : Nat} {r : ResponseRelay}
    (ht : Follows framing before t) (hhead : head ≤ r.buffer.size) :
    PassOutcome framing before head r (r.passBody head t) := by
  have hstream : r.stream.drop head = r.buffer.data.drop head ++ r.backend.octets :=
    List.drop_append_of_le_length hhead
  have hnext := ht (r.buffer.data.drop head)
  unfold passBody
  rcases hadvance : t.advance (r.buffer.data.drop head) with ⟨e | _ | n, t'⟩
  · rw [hadvance, later_error] at hnext
    refine ⟨(Relays.refl r).fails, fun _ => ?_⟩
    rw [hstream, ← List.append_assoc]
    exact readBody_append_error hnext _
  · rw [hadvance, later_none] at hnext
    have hsize : r.buffer.size = head + (r.buffer.data.drop head).length := by
      rw [List.length_drop, ← Buffer.size, Nat.add_sub_cancel' hhead]
    simp only [Option.map_none, Option.getD_none]
    rw [hsize]
    rcases hpass : r.pass (head + (r.buffer.data.drop head).length) with ⟨e | _, r'⟩
    · obtain ⟨hfails, hcalm⟩ := fails_pass hpass
      exact ⟨hfails, fun hr => absurd hr hcalm⟩
    · obtain ⟨hrelays, hdata⟩ := relaysBody_pass (Nat.le_of_eq hsize.symm) hpass
      rw [List.take_length] at hrelays
      rw [Nat.add_sub_cancel_left]
      refine ⟨_, hrelays, hnext, ?_⟩
      rw [hdata, ← hsize, Buffer.size, List.drop_length]
  · rw [hadvance, later_some] at hnext
    have hlen : n ≤ (r.buffer.data.drop head).length := BodyTracker.le_length_of_advance hadvance
    have hn : head + n ≤ r.buffer.size := by
      rw [List.length_drop, ← Buffer.size] at hlen
      omega
    simp only [Option.map_some, Option.getD_some]
    rcases hpass : r.pass (head + n) with ⟨e | _, r'⟩
    · obtain ⟨hfails, hcalm⟩ := fails_pass hpass
      exact ⟨hfails, fun hr => absurd hr hcalm⟩
    · obtain ⟨hrelays, -⟩ := relaysBody_pass hn hpass
      rw [Nat.add_sub_cancel_left]
      refine ⟨_, hrelays, ?_, ?_⟩
      · have hbody := BodyTracker.isBody_of_advance hnext
        rwa [List.take_length_add_append] at hbody
      · rw [hstream, ← List.append_assoc, readBody_append hnext, List.length_take_of_le hlen]

/-- A `relayBody` with nothing in the buffer passes on the rest of the body as it arrives. -/
theorem bodyOutcome_relayBody {framing : Framing} {before : Bytes} {t : BodyTracker}
    {r : ResponseRelay} (ht : (BodyTracker.ofFraming framing).advance before = (.ok none, t))
    (hdata : r.buffer.data = []) (hc : 0 < r.buffer.capacity) :
    BodyOutcome framing before r (r.relayBody framing.isDelimited t) := by
  have hroom := Buffer.not_isFull_of_data_eq_nil hdata hc
  fun_induction relayBody framing.isDelimited t r generalizing before with
  | case1 t r b bs backend buffer hreceive e r' hpass =>
    have hpassed :=
      passOutcome_passBody (r := { r with backend, buffer }) (follows_of_advance ht) (Nat.zero_le _)
    rw [hpass] at hpassed
    refine .after (relaysBody_receive hroom hreceive) ?_
    rw [List.append_nil]
    exact hpassed
  | case2 t r b bs backend buffer hreceive t' r' hpass =>
    have hpassed :=
      passOutcome_passBody (r := { r with backend, buffer }) (follows_of_advance ht) (Nat.zero_le _)
    rw [hpass] at hpassed
    obtain ⟨part, hrelays, hbody, hread⟩ := hpassed
    refine .after (relaysBody_receive hroom hreceive) ?_
    rw [List.append_nil]
    exact ⟨part, hrelays, hbody, fun _ => hread⟩
  | case3 t r b bs backend buffer hreceive t' r' hpass ih =>
    have hpassed :=
      passOutcome_passBody (r := { r with backend, buffer }) (follows_of_advance ht) (Nat.zero_le _)
    rw [hpass] at hpassed
    obtain ⟨part, hrelays, hnext, hempty⟩ := hpassed
    have hreceived := relaysBody_receive hroom hreceive
    have hcapacity : 0 < r'.buffer.capacity := by rwa [hrelays.capacity, hreceived.capacity]
    have hrest := ih hnext hempty hcapacity (Buffer.not_isFull_of_data_eq_nil hempty hcapacity)
    refine .after hreceived ?_
    rw [List.append_nil]
    exact .after hrelays hrest
  | case4 t r backend buffer hreceive r' =>
    rename_i hdelimited
    have hreceived := relaysBody_receive hroom hreceive
    refine ⟨hreceived.fails, fun hr => ?_⟩
    obtain ⟨-, ⟨x, xs, hx⟩ | ⟨-, hnil, -⟩⟩ := Buffer.receive_steady hr.backend hroom hreceive
    · cases hx
    · rw [stream, hdata, hnil, Source.octets_nil, List.append_nil, List.append_nil,
        readBody_closed ht, if_pos hdelimited]
  | case5 t r backend buffer hreceive r' =>
    rename_i hdelimited
    have hreceived := relaysBody_receive hroom hreceive
    have hframing : framing = .untilClose := by
      cases framing <;> first | rfl | exact absurd rfl hdelimited
    refine ⟨[], hreceived, hframing ▸ trivial, fun hr => ?_⟩
    obtain ⟨-, ⟨x, xs, hx⟩ | ⟨-, hnil, -⟩⟩ := Buffer.receive_steady hr.backend hroom hreceive
    · cases hx
    · rw [stream, hdata, hnil, Source.octets_nil, List.append_nil, List.append_nil,
        readBody_closed ht, if_neg hdelimited]
      rfl
  | case6 t r got backend buffer hgot hgot' hreceive =>
    have hreceived := relaysBody_receive hroom hreceive
    refine ⟨hreceived.fails, fun hr => ?_⟩
    obtain ⟨-, ⟨x, xs, hx⟩ | ⟨hx, -, -⟩⟩ := Buffer.receive_steady hr.backend hroom hreceive
    · exact absurd hx (hgot x xs)
    · exact absurd hx hgot'

end ResponseRelay

end ReverseProxy.Relay
