import Mathlib.Control.Monad.Basic
import ReverseProxy.Proofs.Relay.ResponseBody
import ReverseProxy.Proofs.Relay.ResponseHeads

/-!
# A response is relayed exactly

The client receives what the backend sends, octet for octet, up to the end of the body, and how the
octets were cut on their way makes no difference.  What the relay has to answer is said of the
stream as a whole: `Interims` reads the heads of interim responses, up to the first response that is
none (`IsFinal`), and `readFinal` reads that one.  `runOutcome_run` says that the relay does the
same with the pieces.
-/

namespace ReverseProxy.Relay

open Message Wire

/-- A result that is mapped to a success is a success. -/
theorem exists_eq_ok_of_map {ε α β : Type} {f : α → β} {x : Except ε α} {b : β}
    (h : x.map f = .ok b) : ∃ a, x = .ok a ∧ f a = b := by
  cases x with
  | error e => cases h
  | ok a => exact ⟨a, rfl, Except.ok.inj h⟩

/-- The final response of a stream that is closed after `s`: the length of its head, the reader at
the end of it, and the length of its body. -/
def readFinal (limit : Nat) (headRequest : Bool) (s : Bytes) :
    Except ExchangeFailure (Nat × ResponseParser × Nat) :=
  match readHead limit s with
  | .error e => .error e
  | .ok (n, p) =>
      match readBody (framingOf p headRequest) (s.drop n) with
      | .error e => .error e
      | .ok m => .ok (n, p, m)

theorem readFinal_of_head_error {limit : Nat} {s : Bytes} {e : ExchangeFailure}
    (h : readHead limit s = .error e)
    (headRequest : Bool) : readFinal limit headRequest s = .error e := by
  rw [readFinal, h]

theorem readFinal_of_body_error {limit n : Nat} {p : ResponseParser}
    {headRequest : Bool} {s : Bytes} {e : ExchangeFailure} (hhead : readHead limit s = .ok (n, p))
    (hbody : readBody (framingOf p headRequest) (s.drop n) = .error e) :
    readFinal limit headRequest s = .error e := by
  simp only [readFinal, hhead, hbody]

theorem readFinal_of_body {limit n m : Nat} {p : ResponseParser} {headRequest : Bool} {s : Bytes}
    (hhead : readHead limit s = .ok (n, p))
    (hbody : readBody (framingOf p headRequest) (s.drop n) = .ok m) :
    readFinal limit headRequest s = .ok (n, p, m) := by
  simp only [readFinal, hhead, hbody]

theorem readHead_of_readFinal {limit n m : Nat} {p : ResponseParser}
    {headRequest : Bool} {s : Bytes}
    (h : readFinal limit headRequest s = .ok (n, p, m)) : readHead limit s = .ok (n, p) := by
  unfold readFinal at h
  rcases hhead : readHead limit s with e | ⟨n', p'⟩ <;> rw [hhead] at h
  · cases h
  · simp only at h
    split at h <;> cases h
    rfl

/-- The head that `readHead` finds is that of the final response, if its status is not interim. -/
theorem isFinal_of_readHead {limit n : Nat} {p : ResponseParser} {s : Bytes}
    (h : readHead limit s = .ok (n, p)) (hp : isInterim p.status = false) : IsFinal limit s := by
  intro n' p' h'
  cases h.symm.trans h'
  rw [← isInterim_iff, hp]
  exact Bool.false_ne_true

/-! ### Which body a response has -/

section

variable {p : ResponseParser} {headRequest : Bool} {body : Bytes}

/-- A response to `HEAD` has no body, and one with status 204 or 304 has none. -/
theorem eq_nil_of_isBody (h : (framingOf p headRequest).IsBody body) (hs : p.status ≠ 101)
    (hb : headRequest = true ∨ p.status = 204 ∨ p.status = 304) :
    framingOf p headRequest = .empty ∧ body = [] := by
  have hf := framingOf_eq_empty_iff.2 ⟨hs, hb⟩
  rw [hf] at h
  exact ⟨hf, h⟩

/-- Another response that announces chunks has a `ChunkedBody`. -/
theorem chunkedBody_of_isBody (h : (framingOf p headRequest).IsBody body) (hs : p.status ≠ 101)
    (hb : ¬(headRequest = true ∨ p.status = 204 ∨ p.status = 304)) (hc : p.chunked = true) :
    framingOf p headRequest = .chunked ∧ ChunkedBody body := by
  have hf := framingOf_eq_chunked_iff.2 ⟨hs, hb, hc⟩
  rw [hf] at h
  exact ⟨hf, h⟩

/-- Another response without chunks has a body of the length `n` that it announces. -/
theorem length_eq_of_isBody {n : Nat} (h : (framingOf p headRequest).IsBody body)
    (hs : p.status ≠ 101) (hb : ¬(headRequest = true ∨ p.status = 204 ∨ p.status = 304))
    (hc : p.chunked = false) (hn : p.contentLength = some n) :
    framingOf p headRequest = .contentLength n ∧ body.length = n := by
  have hf := framingOf_eq_contentLength_iff.2 ⟨hs, hb, hc, hn⟩
  rw [hf] at h
  exact ⟨hf, h⟩

end

namespace ResponseRelay

/-- The relay is at its beginning: it has relayed nothing, and nothing is in its buffer. -/
structure Ready (r : ResponseRelay) : Prop where
  buffer : r.buffer.data = []
  parser : r.parser = .new r.buffer.capacity
  total : r.total = 0
  body : r.body = 0

/-- From `r` to `r'` a response has been relayed: the `heads` of interim responses, the `head` of
the final one, and its `body`. -/
structure RelaysResponse (headRequest : Bool) (r : ResponseRelay) (heads : List Bytes)
    (head body : Bytes)
    (r' : ResponseRelay) : Prop extends Relays r (heads.flatten ++ (head ++ body)) r' where
  interims : Interims r.buffer.capacity r.stream heads (head ++ (body ++ r'.stream))
  readHead : readHead r.buffer.capacity (head ++ (body ++ r'.stream)) = .ok (head.length, r'.parser)
  final : isInterim r'.parser.status = false
  isBody : (framingOf r'.parser headRequest).IsBody body
  counted : r'.body = r.body + body.length
  ended : r.Calm → readBody (framingOf r'.parser headRequest) (body ++ r'.stream) = .ok body.length

/-- What `run` may do. -/
def RunOutcome (headRequest : Bool) (r : ResponseRelay) :
    Except ExchangeFailure Relayed × ResponseRelay → Prop
  | (.error e, r') =>
      Fails r r' ∧ (r.Calm → ∃ heads rest, Interims r.buffer.capacity r.stream heads rest ∧
        IsFinal r.buffer.capacity rest ∧ readFinal r.buffer.capacity headRequest rest = .error e)
  | (.ok done, r') =>
      (∃ heads head body, RelaysResponse headRequest r heads head body r') ∧
        done = { framing := framingOf r'.parser headRequest, body := r'.body, total := r'.total,
                 excess := !r'.buffer.isEmpty }

section

variable {headRequest : Bool} {n : Nat} {heads : List Bytes} {head body : Bytes}
  {r r' r₁ r₂ : ResponseRelay}

theorem RelaysResponse.not_interim (h : RelaysResponse headRequest r heads head body r') :
    ¬(100 ≤ r'.parser.status ∧ r'.parser.status ≤ 199 ∧ r'.parser.status ≠ 101) := by
  rw [← isInterim_iff, h.final]
  exact Bool.false_ne_true

/-- After a body framed by the end of the connection nothing is to come. -/
theorem RelaysResponse.stream_eq_nil (h : RelaysResponse headRequest r heads head body r')
    (hr : r.Calm) (hf : framingOf r'.parser headRequest = .untilClose) : r'.stream = [] := by
  have hended := h.ended hr
  rw [hf] at hended
  have hlength : (body ++ r'.stream).length = body.length := Except.ok.inj hended
  rw [List.length_append, Nat.add_eq_left] at hlength
  exact List.eq_nil_of_length_eq_zero hlength

/-- Relaying the `heads` and then the body relays the response. -/
theorem relaysResponse_of_body (hl : 0 < r.buffer.capacity)
    (hheads : RelaysInterims r.buffer.capacity r heads r₁)
    (hfinal : AtFinalHead r.buffer.capacity n r₁)
    (hpart : RelaysBody n { r₁ with streaming := true } body r₂)
    (hbody : (framingOf r₁.parser headRequest).IsBody body)
    (hended : r₁.Calm →
      readBody (framingOf r₁.parser headRequest) (r₁.stream.drop n) = .ok body.length) :
    RelaysResponse headRequest r heads (r₁.buffer.data.take n) body r₂ := by
  have hstreaming : Relays r₁ [] { r₁ with streaming := true } := .of_eq rfl rfl rfl rfl
  have hn : n ≤ r₁.buffer.size := ResponseParser.le_length_of_feed hfinal.parser
  have hlen : (r₁.buffer.data.take n).length = n := List.length_take_of_le hn
  have hstream : r₁.buffer.data.take n ++ (body ++ r₂.stream) = r₁.stream := by
    rw [← List.append_assoc]
    exact hpart.stream
  have hrest : r₁.stream.drop n = body ++ r₂.stream := hpart.drop_stream hn
  have hparser : r₂.parser = r₁.parser := hpart.parser
  refine ⟨hheads.toRelays.trans (hstreaming.trans hpart.toRelays), ?_, ?_, ?_, ?_, ?_, fun hr => ?_⟩
  · rw [hstream]
    exact hheads.interims
  · rw [hstream, hlen, hparser]
    exact readHead_append hl hfinal.parser _
  · rw [hparser, hfinal.final]
  · rwa [hparser]
  · exact hpart.body.trans (congrArg (· + body.length) hheads.body)
  · rw [hparser, ← hrest]
    exact hended (hheads.calm hr)

/-- If the relay fails in the body, after the `heads`, it fails as a whole, as the stream is not a
response or the client does not take it. -/
theorem runOutcome_of_body_error {e : ExchangeFailure} (hl : 0 < r.buffer.capacity)
    (hheads : RelaysInterims r.buffer.capacity r heads r₁)
    (hfinal : AtFinalHead r.buffer.capacity n r₁) (hfails : Fails r₁ r₂)
    (hrefused : r₁.Calm →
      readBody (framingOf r₁.parser headRequest) (r₁.stream.drop n) = .error e) :
    RunOutcome headRequest r (.error e, r₂) := by
  have hread : readHead r.buffer.capacity r₁.stream = .ok (n, r₁.parser) :=
    readHead_append hl hfinal.parser _
  refine ⟨hheads.trans_fails hfails, fun hr => ?_⟩
  exact ⟨heads, r₁.stream, hheads.interims, isFinal_of_readHead hread hfinal.final,
    readFinal_of_body_error hread (hrefused (hheads.calm hr))⟩

/-- At the end of the body, the outcome of the relay is that of the `flush`. -/
theorem runOutcome_flush {framing : Framing} (h : RelaysResponse headRequest r heads head body r₂)
    (hframing : framing = framingOf r₂.parser headRequest) :
    RunOutcome headRequest r
      (match r₂.client.flush with
      | (.error f, client) => (.error (failureOfFault .client f), { r₂ with client })
      | (.ok (), client) =>
          (.ok { framing, body := r₂.body, total := r₂.total, excess := !r₂.buffer.isEmpty },
            { r₂ with client })) := by
  subst hframing
  unfold Sink.flush
  cases hf : r₂.client.flushFault with
  | none => exact ⟨⟨heads, head, body, h⟩, rfl⟩
  | some f => exact ⟨h.fails, fun hr => nomatch hf.symm.trans (h.calm hr).client.flush⟩

end

/-- A `run` of a ready relay has a `RunOutcome`. -/
theorem runOutcome_run (headRequest : Bool) {r : ResponseRelay} (h : r.Ready) :
    RunOutcome headRequest r (r.run headRequest) := by
  have hheads := headsOutcome_awaitHead_new rfl h.parser
  unfold run
  rcases hawait : r.awaitHead 0 with ⟨e | n, r₁⟩ <;> rw [hawait] at hheads
  · obtain ⟨hfails, hrefused⟩ := hheads
    refine ⟨hfails, fun hr => ?_⟩
    obtain ⟨heads, rest, hinterims, hread⟩ := hrefused hr
    exact ⟨heads, rest, hinterims, isFinal_of_error hread,
      readFinal_of_head_error hread headRequest⟩
  · obtain ⟨heads, hheads, hfinal⟩ := hheads
    have hl : 0 < r.buffer.capacity := by
      apply Nat.pos_of_ne_zero
      intro hz
      rw [awaitHead_of_capacity_eq_zero hz] at hawait
      cases hawait
    have hn : n ≤ r₁.buffer.size := ResponseParser.le_length_of_feed hfinal.parser
    have hstreaming : Relays r₁ [] { r₁ with streaming := true } := .of_eq rfl rfl rfl rfl
    have hpass := passOutcome_passBody (r := { r₁ with streaming := true })
      (follows_nil (framingOf r₁.parser headRequest)) hn
    simp only
    rcases hpassed : ({ r₁ with streaming := true } : ResponseRelay).passBody n
      (.ofFraming (framingOf r₁.parser headRequest)) with ⟨e | ⟨_ | _, t⟩, r₂⟩ <;>
      rw [hpassed] at hpass
    · obtain ⟨hfails, hrefused⟩ := hpass
      exact runOutcome_of_body_error hl hheads hfinal (hstreaming.trans_fails hfails) fun hr =>
        hrefused (hstreaming.calm hr)
    · obtain ⟨before, hbefore, hnext, hempty⟩ := hpass
      have hc : 0 < r₂.buffer.capacity := by rwa [hbefore.capacity, hheads.capacity]
      have hsofar := hstreaming.trans hbefore.toRelays
      have hrest : r₁.stream.drop n = before ++ r₂.stream := hbefore.drop_stream hn
      have hbody := bodyOutcome_relayBody hnext hempty hc
      simp only
      rcases hrelayed : r₂.relayBody (framingOf r₁.parser headRequest).isDelimited t
        with ⟨e | _, r₃⟩ <;>
        rw [hrelayed] at hbody
      · obtain ⟨hfails, hrefused⟩ := hbody
        refine runOutcome_of_body_error hl hheads hfinal (hsofar.trans_fails hfails) fun hr => ?_
        rw [hrest]
        exact hrefused (hsofar.calm hr)
      · obtain ⟨part, hpart, hbody, hended⟩ := hbody
        have hall :=
            relaysResponse_of_body hl hheads hfinal (hbefore.trans hpart) hbody fun hr => by
          rw [hrest, List.length_append]
          exact hended (hsofar.calm hr)
        have hparser : r₃.parser = r₁.parser := (hbefore.trans hpart).parser
        exact runOutcome_flush hall (by rw [hparser])
    · obtain ⟨body, hpart, hbody, hended⟩ := hpass
      have hended :
          readBody (framingOf r₁.parser headRequest) (r₁.stream.drop n) = .ok body.length := by
        rw [← Nat.zero_add body.length]
        exact hended
      have hparser : r₂.parser = r₁.parser := hpart.parser
      exact runOutcome_flush (relaysResponse_of_body hl hheads hfinal hpart hbody fun _ => hended)
        (by rw [hparser])

/-! ### Exactness -/

/-- What can be told of a relay that has ended: the error, or else the framing, the length of the
body, the total, the reader at the end of the final head, and what the client has received. -/
def report : Except ExchangeFailure Relayed × ResponseRelay →
    Except ExchangeFailure (Framing × Nat × Nat × ResponseParser × Bytes)
  | (.error e, _) => .error e
  | (.ok done, r) => .ok (done.framing, done.body, done.total, r.parser, r.client.written)

theorem Ready.stream_eq {r : ResponseRelay} (h : r.Ready) : r.stream = r.backend.octets := by
  rw [stream, h.buffer, List.nil_append]

/-- The report on a final response with head `n`, reader `p` and body `m`, which comes after
`heads`. -/
def reportOn (headRequest : Bool) (written : Bytes) (heads : List Bytes) (rest : Bytes) :
    Nat × ResponseParser × Nat → Framing × Nat × Nat × ResponseParser × Bytes
  | (n, p, m) => (framingOf p headRequest, m, heads.flatten.length + (n + m), p,
      written ++ (heads.flatten ++ rest.take (n + m)))

/-- If no connection fails, the report of `run` is what `readFinal` makes of the stream after the
`heads` of interim responses. -/
theorem report_run (headRequest : Bool) {r : ResponseRelay} (h : r.Ready) (hr : r.Calm) :
    ∃ heads rest, Interims r.buffer.capacity r.backend.octets heads rest ∧
    IsFinal r.buffer.capacity rest ∧
      report (r.run headRequest) = (readFinal r.buffer.capacity headRequest rest).map
        (reportOn headRequest r.client.written heads rest) := by
  have hrun := runOutcome_run headRequest h
  rw [← h.stream_eq]
  rcases hend : r.run headRequest with ⟨e | done, r'⟩ <;> rw [hend] at hrun
  · obtain ⟨heads, rest, hinterims, hfinal, hread⟩ := hrun.2 hr
    exact ⟨heads, rest, hinterims, hfinal, by rw [hread]; rfl⟩
  · obtain ⟨⟨heads, head, body, hall⟩, hdone⟩ := hrun
    have hread : readFinal r.buffer.capacity headRequest (head ++ (body ++ r'.stream)) =
        .ok (head.length, r'.parser, body.length) :=
      readFinal_of_body hall.readHead (by rw [List.drop_left]; exact hall.ended hr)
    refine ⟨heads, _, hall.interims, isFinal_of_readHead hall.readHead hall.final, ?_⟩
    have htake : (head ++ (body ++ r'.stream)).take (head.length + body.length) = head ++ body := by
      rw [← List.append_assoc, ← List.length_append, List.take_left]
    rw [hread, hdone]
    simp only [report, Except.map, reportOn, htake, hall.written, hall.counted,
      hall.total, h.body, h.total, Nat.zero_add, List.length_append]

/-- If no connection fails and `readFinal` finds a final response after the `heads` of interim ones,
`run` succeeds, with the reader `p` of that response. -/
theorem exists_run_of_readFinal {headRequest : Bool} {r : ResponseRelay} {heads : List Bytes}
    {rest : Bytes} {n m : Nat} {p : ResponseParser} (h : r.Ready) (hr : r.Calm)
    (hi : Interims r.buffer.capacity r.backend.octets heads rest)
    (hread : readFinal r.buffer.capacity headRequest rest = .ok (n, p, m))
    (hp : isInterim p.status = false) :
    ∃ done r', r.run headRequest = (.ok done, r') ∧ r'.parser = p := by
  obtain ⟨heads', rest', hi', hfinal, hreport⟩ := report_run headRequest h hr
  obtain ⟨rfl, rfl⟩ :=
    hi'.unique hi hfinal (isFinal_of_readHead (readHead_of_readFinal hread) hp)
  rw [hread, Except.map] at hreport
  rcases hrun : r.run headRequest with ⟨e | done, r'⟩ <;> rw [hrun] at hreport
  · cases hreport
  · simp only [report, reportOn, Except.ok.injEq, Prod.mk.injEq] at hreport
    exact ⟨done, r', rfl, hreport.2.2.2.1⟩

/-- However the octets of a response are cut into pieces on their way from the backend, `run` comes
to the same `report`.  When it succeeds, the client has received the beginning of what the backend
sends: the `heads` of interim responses, each with a status from 100 to 199 but not 101, the `head`
of the first response with another status, and the `body` of that one.  There is no body after a
request with `HEAD` or a status of 204 or 304; else a body in chunks goes up to its last line, one
with a `Content-Length` has that many octets, and any other is all that comes until the backend
closes.  Chunks and lengths are what the headers of `head` announce.  The buffer holds what has been
read beyond.  When `run` fails, on whichever side and after whichever octet, the client has received
the beginning of what the backend sends, and nothing else. -/
theorem run_exact (headRequest : Bool) :
    (∀ r₁ r₂ : ResponseRelay, r₁.Ready → r₂.Ready → r₁.Calm → r₂.Calm →
      r₁.buffer.capacity = r₂.buffer.capacity → r₁.backend.octets = r₂.backend.octets →
      r₁.client.written = r₂.client.written →
      report (r₁.run headRequest) = report (r₂.run headRequest)) ∧
    (∀ (r r' : ResponseRelay) (done : Relayed), r.Ready → r.Calm →
      r.run headRequest = (.ok done, r') →
      ∃ heads head body rest, r.backend.octets = heads.flatten ++ (head ++ (body ++ rest)) ∧
        Interims r.buffer.capacity r.backend.octets heads (head ++ (body ++ rest)) ∧
        (∀ before interim after, heads = before ++ interim :: after → ∃ p : ResponseParser,
          readHead r.buffer.capacity (interim ++ (after.flatten ++ (head ++ (body ++ rest)))) =
            .ok (interim.length, p) ∧ 100 ≤ p.status ∧ p.status ≤ 199 ∧ p.status ≠ 101) ∧
        readHead r.buffer.capacity (head ++ (body ++ rest)) = .ok (head.length, r'.parser) ∧
        ¬(100 ≤ r'.parser.status ∧ r'.parser.status ≤ 199 ∧ r'.parser.status ≠ 101) ∧
        isInterim r'.parser.status = false ∧
        r'.parser.chunked = r'.parser.head.headers.any HeadLines.announcesChunks ∧
        r'.parser.contentLength =
          r'.parser.head.headers.reverse.findSome? HeadLines.announcedLength? ∧
        (r'.parser.status ≠ 101 →
          headRequest = true ∨ r'.parser.status = 204 ∨ r'.parser.status = 304 →
          done.framing = .empty ∧ body = []) ∧
        (r'.parser.status ≠ 101 →
          ¬(headRequest = true ∨ r'.parser.status = 204 ∨ r'.parser.status = 304) →
          r'.parser.chunked = true → done.framing = .chunked ∧ ChunkedBody body) ∧
        (∀ n, r'.parser.status ≠ 101 →
          ¬(headRequest = true ∨ r'.parser.status = 204 ∨ r'.parser.status = 304) →
          r'.parser.chunked = false → r'.parser.contentLength = some n →
          done.framing = .contentLength n ∧ body.length = n) ∧
        (r'.parser.status = 101 ∨
          ¬(headRequest = true ∨ r'.parser.status = 204 ∨ r'.parser.status = 304) ∧
            r'.parser.chunked = false ∧ r'.parser.contentLength = none →
          done.framing = .untilClose ∧ rest = []) ∧
        done.framing = framingOf r'.parser headRequest ∧ done.framing.IsBody body ∧
        (done.framing = .untilClose → rest = []) ∧
        r'.client.written = r.client.written ++ (heads.flatten ++ (head ++ body)) ∧
        done.total = (heads.flatten ++ (head ++ body)).length ∧ done.body = body.length ∧
        rest = r'.buffer.data ++ r'.backend.octets ∧
        (done.excess = true ↔ r'.buffer.data ≠ [])) ∧
    ∀ r : ResponseRelay, r.Ready → ∃ part, part <+: r.backend.octets ∧
      (r.run headRequest).2.client.written = r.client.written ++ part := by
  refine ⟨?same, ?done, ?always⟩
  case same =>
    intro r₁ r₂ h₁ h₂ hr₁ hr₂ hcapacity hoctets hwritten
    obtain ⟨heads₁, rest₁, hi₁, hf₁, he₁⟩ := report_run headRequest h₁ hr₁
    obtain ⟨heads₂, rest₂, hi₂, hf₂, he₂⟩ := report_run headRequest h₂ hr₂
    rw [← hcapacity, ← hoctets] at hi₂
    rw [← hcapacity] at hf₂
    obtain ⟨rfl, rfl⟩ := hi₁.unique hi₂ hf₁ hf₂
    rw [he₁, he₂, hcapacity, hwritten]
  case done =>
    intro r r' done h hr hrun
    have hout := runOutcome_run headRequest h
    rw [hrun] at hout
    obtain ⟨⟨heads, head, body, hall⟩, rfl⟩ := hout
    have hstream := hall.stream
    have hinterims := hall.interims
    rw [h.stream_eq] at hstream hinterims
    have huntil := hall.stream_eq_nil hr
    have hheedful := (heedful_of_readHead hall.readHead).1
    refine ⟨heads, head, body, r'.stream, ?_, hinterims, fun _ _ _ => hinterims.readHead,
      hall.readHead, hall.not_interim, hall.final, hheedful.chunked_eq, hheedful.contentLength_eq,
      eq_nil_of_isBody hall.isBody,
      chunkedBody_of_isBody hall.isBody, fun _ => length_eq_of_isBody hall.isBody,
      fun hp => have hf := framingOf_eq_untilClose_iff.2 hp; ⟨hf, huntil hf⟩,
      rfl, hall.isBody, huntil, hall.written, ?_, ?_, rfl, ?_⟩
    · rw [← hstream, List.append_assoc, List.append_assoc]
    · exact hall.total.trans (by rw [h.total, Nat.zero_add])
    · exact hall.counted.trans (by rw [h.body, Nat.zero_add])
    · simp [Buffer.isEmpty]
  case always =>
    intro r h
    have hout := runOutcome_run headRequest h
    rw [← h.stream_eq]
    rcases hend : r.run headRequest with ⟨e | done, r'⟩ <;> rw [hend] at hout
    · exact hout.1
    · obtain ⟨⟨heads, head, body, hall⟩, -⟩ := hout
      exact hall.fails

/-- A relay about to begin with a response that arrives in `pieces`. -/
def ofPieces (capacity : Nat) (pieces : List Bytes) : ResponseRelay :=
  { backend := pieces.map .octets, client := {}, buffer := .ofCapacity capacity,
    parser := .new capacity }

theorem ready_ofPieces (capacity : Nat) (pieces : List Bytes) : (ofPieces capacity pieces).Ready :=
  ⟨rfl, congrArg ResponseParser.new (Buffer.capacity_ofCapacity capacity).symm, rfl, rfl⟩

theorem calm_ofPieces (capacity : Nat) (pieces : List Bytes) (h : ∀ piece ∈ pieces, piece ≠ []) :
    (ofPieces capacity pieces).Calm := by
  refine ⟨fun a ha => ?_, ⟨rfl, rfl⟩⟩
  obtain ⟨piece, hpiece, rfl⟩ := List.mem_map.1 ha
  exact ⟨piece, h piece hpiece, rfl⟩

/-- A response without a body, and an octet too many. -/
def noContent : Bytes := Utf8.encode "HTTP/1.1 204 \n\n!"

/-- The relay of `noContent` ends well. -/
theorem exists_run_noContent : ∃ done r', (ofPieces 64 [noContent]).run false = (.ok done, r') := by
  have hcapacity : (ofPieces 64 [noContent]).buffer.capacity = 64 := Buffer.capacity_ofCapacity 64
  have hoctets : (ofPieces 64 [noContent]).backend.octets = noContent := List.append_nil noContent
  have hread :
      (readFinal 64 false noContent).map (fun a => isInterim a.2.1.status) = .ok false := by
    decide +kernel
  obtain ⟨⟨n, p, m⟩, hfinal, hstatus⟩ := exists_eq_ok_of_map hread
  obtain ⟨done, r', hrun, -⟩ := exists_run_of_readFinal (ready_ofPieces 64 [noContent])
    (calm_ofPieces 64 _ (by decide)) (.nil _) (by rw [hcapacity, hoctets, hfinal]) hstatus
  exact ⟨done, r', hrun⟩

/-- An interim response, a response with a body of two octets, and an octet too many. -/
def continued : Bytes :=
  Utf8.encode "HTTP/1.1 100 \n\nHTTP/1.1 200 \nContent-Length: 2\n\nok!"

/-- `continued` begins with the head of an interim response, 15 octets of it. -/
theorem interims_continued : Interims 64 continued [continued.take 15] (continued.drop 15) := by
  have hread : (readHead 64 continued).map (fun a => (a.1, a.2.status)) = .ok (15, 100) := by
    decide +kernel
  obtain ⟨⟨n, p⟩, hhead, hread⟩ := exists_eq_ok_of_map hread
  obtain ⟨rfl, hstatus⟩ := Prod.mk.inj hread
  have hstatus : p.status = 100 := hstatus
  exact .cons hhead (by rw [hstatus]; decide) (.nil _)

/-- The reader at the end of the final head of `continued`. -/
def afterLengthHead : ResponseParser :=
  { limit := 64, place := .done, protocol := "HTTP/1.1", code := 200,
    headers := [⟨"content-length", "2"⟩], consumed := 33, headerLength := 33,
    contentLength := some 2 }

/-- After its interim response, `continued` has the final one, with a body of two octets. -/
theorem readFinal_continued :
    readFinal 64 false (continued.drop 15) = .ok (33, afterLengthHead, 2) := by
  decide +kernel

/-- The relay of `continued` ends well, at the end of the final head. -/
theorem exists_run_continued : ∃ done r', (ofPieces 64 [continued]).run false = (.ok done, r') ∧
    r'.parser = afterLengthHead := by
  have hcapacity : (ofPieces 64 [continued]).buffer.capacity = 64 := Buffer.capacity_ofCapacity 64
  have hoctets : (ofPieces 64 [continued]).backend.octets = continued := List.append_nil continued
  have hinterims := interims_continued
  rw [← hoctets, ← hcapacity] at hinterims
  have hread := readFinal_continued
  rw [← hcapacity] at hread
  exact exists_run_of_readFinal (ready_ofPieces 64 [continued]) (calm_ofPieces 64 _ (by decide))
    hinterims hread (by decide)

/-- The response in `continued` is relayed from two pieces as it is from one, with the interim head
and the two octets of its body.  The octet that does not belong to it stays in the buffer. -/
theorem run_exact_continued :
    report ((ofPieces 64 [continued]).run false) =
        report ((ofPieces 64 [continued.take 9, continued.drop 9]).run false) ∧
      (∃ (done : Relayed) (r' : ResponseRelay) (heads : List Bytes) (head body rest : Bytes),
        (ofPieces 64 [continued]).run false = (.ok done, r') ∧
        continued = heads.flatten ++ (head ++ (body ++ rest)) ∧
        heads = [continued.take 15] ∧ done.framing = .contentLength 2 ∧ body.length = 2 ∧
        r'.client.written = heads.flatten ++ (head ++ body) ∧
        rest = r'.buffer.data ++ r'.backend.octets) ∧
      ∃ part, part <+: continued ∧
        ((ofPieces 64 [continued]).run false).2.client.written = part := by
  have hready := ready_ofPieces 64 [continued]
  have hcalm := calm_ofPieces 64 [continued] (by decide)
  obtain ⟨hsame, hdone, hpart⟩ := run_exact false
  refine ⟨?_, ?_, ?_⟩
  · exact hsame _ _ hready (ready_ofPieces 64 _) hcalm (calm_ofPieces 64 _ (by decide)) rfl
      (by decide) rfl
  · obtain ⟨done, r', hrun, hparser⟩ := exists_run_continued
    obtain ⟨heads, head, body, rest, hoctets, hinterims, -, hread, -, hfinal, -, -, -, -, hcounted,
      -, -, -, -, hwritten, -, -, hrest, -⟩ := hdone _ _ _ hready hcalm hrun
    have hcapacity : (ofPieces 64 [continued]).buffer.capacity = 64 := Buffer.capacity_ofCapacity 64
    have hstream : (ofPieces 64 [continued]).backend.octets = continued :=
      List.append_nil continued
    rw [hcapacity, hstream] at hinterims
    rw [hcapacity] at hread
    rw [hparser] at hread hfinal hcounted
    obtain ⟨hheads, -⟩ := hinterims.unique interims_continued (isFinal_of_readHead hread hfinal)
      (isFinal_of_readHead (readHead_of_readFinal readFinal_continued) hfinal)
    obtain ⟨hframing, hbody⟩ := hcounted 2 (by decide) (by decide) rfl rfl
    exact ⟨done, r', heads, head, body, rest, hrun, hoctets, hheads, hframing, hbody, hwritten,
      hrest⟩
  · exact hpart _ hready

end ResponseRelay

end ReverseProxy.Relay
