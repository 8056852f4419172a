import ReverseProxy.Proofs.Relay.ClientSession
import ReverseProxy.Proofs.Relay.ResponseExactness

/-!
# Connections are given back in step

A connection that is given back is used for another request, and whatever was left on it would be
taken for the response to that.  So it is given back only if the exchange has sent a whole request
over it and has read from it one whole response and nothing else (`Exchange.InStep`).  What there is
to read is told by `Exchange.Responds`, which cuts what the backend sends into the response, what
has been read beyond it, and what has not been read.

The relay finds the end of a head within the buffer only because the limit of the parser is the
capacity of the buffer (`Exchange.Fits`), and so it is for every exchange on a client connection
(`Session.fits`).
-/

namespace ReverseProxy.Relay

open Message Wire

variable {σ : Type} {net : Network σ} {peer : HostAddress} {request : RequestHead} {x x' : Exchange}
  {c c' : Conversation σ}

namespace Exchange

/-! ### The buffer and the parser of an exchange -/

/-- The limit of the parser of `x` is the capacity of its buffer. -/
def Fits (x : Exchange) : Prop := x.parser.limit = x.slab.buffer.capacity

theorem fits_lease {pool : BufferPool} (h : pool.Sound) : (lease pool).1.Fits := h.take.2.1.symm

/-- The exchange of an opening `Fits`. -/
theorem fits_opening {proxy : Operation.Proxy} (h : proxy.buffers.Sound)
    (client : Client) (network : σ) :
    (opening client proxy network).1.Fits := fits_lease h.take.2.2

theorem Fits.reset (h : x.Fits) : x.reset.Fits := Eq.trans h (Buffer.capacity_clear _).symm

/-- A response to an exchange that `Fits` begins with a ready relay. -/
theorem Fits.ready (h : x.Fits) (backend : Source) (client : Sink) :
    ResponseRelay.Ready
      { backend, client, buffer := x.slab.buffer.clear, parser := x.parser.recycle } :=
  ⟨rfl, congrArg ResponseParser.new (h.trans (Buffer.capacity_clear _).symm), rfl, rfl⟩

/-! ### The response of an exchange -/

/-- The backend has sent the `heads` of interim responses, the `head` of the final response and its
`body`, and these are what the client has received.  What has been read beyond them is in the buffer
of `x'`, and the rest has not been read.  Which body the response has is told by its status, by the
request, and by what the headers of `head` announce, which the parser of `x'` has read. -/
structure Responds (net : Network σ) (request : RequestHead) (x : Exchange) (c : Conversation σ)
    (d : Course σ) (heads : List Bytes) (head body : Bytes) (outcome : Outcome) (x' : Exchange)
    (c' : Conversation σ) : Prop where
  octets : (net.incoming d.connection.link d.sent).octets =
    heads.flatten ++ (head ++ (body ++ (x'.slab.buffer.data ++ d.relay.backend.octets)))
  interims : Interims x.slab.buffer.capacity (net.incoming d.connection.link d.sent).octets heads
    (head ++ (body ++ (x'.slab.buffer.data ++ d.relay.backend.octets)))
  readHead : readHead x.slab.buffer.capacity
    (head ++ (body ++ (x'.slab.buffer.data ++ d.relay.backend.octets))) =
      .ok (head.length, x'.parser)
  final : isInterim x'.parser.status = false
  not_interim : ¬(100 ≤ x'.parser.status ∧ x'.parser.status ≤ 199 ∧ x'.parser.status ≠ 101)
  announcesChunks : x'.parser.chunked = x'.parser.head.headers.any HeadLines.announcesChunks
  announcedLength : x'.parser.contentLength =
    x'.parser.head.headers.reverse.findSome? HeadLines.announcedLength?
  framing : outcome.framing = framingOf x'.parser request.isHead
  isBody : outcome.framing.IsBody body
  empty : x'.parser.status ≠ 101 →
    request.isHead = true ∨ x'.parser.status = 204 ∨ x'.parser.status = 304 →
    outcome.framing = .empty ∧ body = []
  chunked : x'.parser.status ≠ 101 →
    ¬(request.isHead = true ∨ x'.parser.status = 204 ∨ x'.parser.status = 304) →
    x'.parser.chunked = true → outcome.framing = .chunked ∧ ChunkedBody body
  contentLength : ∀ n, x'.parser.status ≠ 101 →
    ¬(request.isHead = true ∨ x'.parser.status = 204 ∨ x'.parser.status = 304) →
    x'.parser.chunked = false → x'.parser.contentLength = some n →
    outcome.framing = .contentLength n ∧ body.length = n
  untilClose : x'.parser.status = 101 ∨
      ¬(request.isHead = true ∨ x'.parser.status = 204 ∨ x'.parser.status = 304) ∧
        x'.parser.chunked = false ∧ x'.parser.contentLength = none →
    outcome.framing = .untilClose
  written : c'.reading.client.outgoing.written =
    c.reading.client.outgoing.written ++ (heads.flatten ++ (head ++ body))

/-- The next octet on the connection will be the first one after the response: the response says
where it ends, its head does not announce the end of the connection, and nothing has been read
beyond it. -/
structure InStep (request : RequestHead) (outcome : Outcome) (x' : Exchange) : Prop where
  delimited : outcome.framing.isDelimited = true
  ends : x'.parser.status ≠ 101 ∧ (request.isHead = true ∨ x'.parser.status = 204 ∨
    x'.parser.status = 304 ∨ x'.parser.chunked = true ∨ x'.parser.contentLength ≠ none)
  stays : Header.hasConnectionOption x'.parser.head.headers "close" = false
  offered : Text.eqIgnoreCase x'.parser.head.protocol "HTTP/1.0" = true →
    Header.hasConnectionOption x'.parser.head.headers "keep-alive" = true
  relayed : x'.slab.buffer.data = []

section

variable {d : Course σ} {outcome : Outcome}

/-- The relay of an exchange that succeeds has relayed a response. -/
theorem Succeeds.relayOutcome (h : x.Succeeds net peer request c d outcome x' c') (hx : x.Fits) :
    ∃ heads head body, ResponseRelay.RelaysResponse request.isHead
        { backend := net.incoming d.connection.link d.sent, client := c.reading.client.outgoing,
          buffer := x.slab.buffer.clear, parser := x.parser.recycle } heads head body d.relay ∧
      d.relayed.framing = framingOf d.relay.parser request.isHead ∧
        d.relayed.excess = !d.relay.buffer.isEmpty := by
  have hrun := ResponseRelay.runOutcome_run request.isHead
    (hx.ready (net.incoming d.connection.link d.sent) c.reading.client.outgoing)
  rw [h.relays] at hrun
  obtain ⟨⟨heads, head, body, hresponse⟩, hrelayed⟩ := hrun
  exact ⟨heads, head, body, hresponse, congrArg Relayed.framing hrelayed,
    congrArg Relayed.excess hrelayed⟩

/-- An exchange that succeeds has a backend that `Responds`. -/
theorem Succeeds.responds (h : x.Succeeds net peer request c d outcome x' c') (hx : x.Fits) :
    ∃ heads head body, Responds net request x c d heads head body outcome x' c' := by
  obtain ⟨heads, head, body, hresponse, hframing, -⟩ := h.relayOutcome hx
  have hready := hx.ready (net.incoming d.connection.link d.sent) c.reading.client.outgoing
  have hinterims := hresponse.interims
  have hread := hresponse.readHead
  have hstream := hresponse.stream
  rw [hready.stream_eq] at hinterims hstream
  rw [Buffer.capacity_clear] at hinterims hread
  rw [ResponseRelay.stream, ← h.buffer] at hinterims hread hstream
  have hframing : outcome.framing = framingOf d.relay.parser request.isHead := by
    rw [h.framing, hframing]
  have hfinal := hresponse.final
  have hnot := hresponse.not_interim
  have hbody := hresponse.isBody
  rw [← h.parser] at hread hframing hfinal hnot hbody
  have hheedful := (heedful_of_readHead hread).1
  refine ⟨heads, head, body, ?_⟩
  exact {
    octets := by rw [← hstream, List.append_assoc, List.append_assoc]
    interims := hinterims
    readHead := hread
    final := hfinal
    not_interim := hnot
    announcesChunks := hheedful.chunked_eq
    announcedLength := hheedful.contentLength_eq
    framing := hframing
    isBody := hframing ▸ hbody
    empty := hframing ▸ eq_nil_of_isBody hbody
    chunked := hframing ▸ chunkedBody_of_isBody hbody
    contentLength := fun _ => hframing ▸ length_eq_of_isBody hbody
    untilClose := fun hp => hframing.trans (framingOf_eq_untilClose_iff.2 hp)
    written := by rw [h.outgoing, hresponse.written] }

/-- The connection is given back exactly if it is `InStep`. -/
theorem Succeeds.recycled_iff (h : x.Succeeds net peer request c d outcome x' c') (hx : x.Fits) :
    outcome.backendRecycled = true ↔ InStep request outcome x' := by
  obtain ⟨heads, head, body, hresponds⟩ := h.responds hx
  obtain ⟨-, -, -, -, -, hexcess⟩ := h.relayOutcome hx
  have hkeep := (heedful_of_readHead hresponds.readHead).1.keepAlive_iff
  have hempty : d.relayed.excess = false ↔ x'.slab.buffer.data = [] := by
    rw [hexcess, h.buffer, Buffer.isEmpty, Bool.not_eq_false', List.isEmpty_iff]
  rw [h.recycled, ← h.parser, isReusable, Bool.and_eq_true, Bool.and_eq_true,
    Bool.not_eq_true', hempty, hkeep, ← h.framing]
  have hends : outcome.framing.isDelimited = true ↔ _ :=
    hresponds.framing ▸ isDelimited_framingOf_iff
  constructor
  · rintro ⟨⟨hdelimited, hstays, hoffered⟩, hrelayed⟩
    exact ⟨hdelimited, hends.1 hdelimited, hstays, hoffered, hrelayed⟩
  · rintro ⟨hdelimited, -, hstays, hoffered, hrelayed⟩
    exact ⟨⟨hdelimited, hstays, hoffered⟩, hrelayed⟩

/-- An exchange that succeeds `Fits` afterwards if it did before. -/
theorem Succeeds.fits (h : x.Succeeds net peer request c d outcome x' c')
    (hx : x.Fits) : x'.Fits := by
  obtain ⟨heads, head, body, hresponse, -, -⟩ := h.relayOutcome hx
  have hlimit := (heedful_of_readHead hresponse.readHead).2
  rw [Fits, h.parser, h.buffer, hlimit, hresponse.capacity]

end

end Exchange

/-- Every exchange of a session `Fits` if the first does. -/
theorem Session.fits {turns : List (Turn σ)} {episodes : List Episode}
    (h : Session net peer x c turns episodes x' c') (hx : x.Fits) : ∀ t ∈ turns,
      t.exchange.Fits := by
  induction h with
  | ended | unreadable => exact List.forall_mem_nil _
  | last t => exact List.forall_mem_singleton.2 hx
  | more t _ _ hrun hon _ ih =>
    obtain ⟨outcome, hresult, -⟩ := hon
    rw [hresult] at hrun
    obtain ⟨d, hdone⟩ := Exchange.run_eq_ok hrun
    exact List.forall_mem_cons.2 ⟨hx, ih (hdone.fits hx).reset⟩

namespace Exchange

/-- A connection is given back only in step.  An exchange that fails gives none back: its queues are
those that `connect` left.  An exchange that succeeds has the data `d` of a node and a connection:
it has sent the head as it is forwarded and the body, all of both; the backend `Responds` with some
`heads`, `head` and `body`, which the client has received; and the connection goes back to the pool
exactly if it is `InStep`, so that the next octet to be read from it is the first one after the
response. -/
theorem run_recycles_inStep (net : Network σ) (peer : HostAddress) (request : RequestHead)
    (c : Conversation σ) (hx : x.Fits) :
    (∀ e x' c', x.run net peer request c = (.error e, x', c') →
      c'.proxy.idle = (x.connect net request c).2.2.proxy.idle) ∧
    ∀ outcome x' c', x.run net peer request c = (.ok outcome, x', c') →
      ∃ d heads head body, x.Succeeds net peer request c d outcome x' c' ∧
        Responds net request x c d heads head body outcome x' c' ∧
        (outcome.backendRecycled = true ↔ InStep request outcome x') ∧
        (outcome.backendRecycled = true → (net.incoming d.connection.link d.sent).octets =
          heads.flatten ++ (head ++ (body ++ d.relay.backend.octets))) ∧
        c'.proxy.idle =
          if outcome.backendRecycled then d.connected.proxy.idle.recycle
            (net.isOpen c'.network) d.node d.connection
          else d.connected.proxy.idle := by
  refine ⟨fun e x' c' h => idle_of_error h, fun outcome x' c' h => ?_⟩
  obtain ⟨d, hdone⟩ := run_eq_ok h
  obtain ⟨heads, head, body, hresponds⟩ := hdone.responds hx
  have hrecycled := hdone.recycled_iff hx
  refine ⟨d, heads, head, body, hdone, hresponds, hrecycled, fun h => ?_, ?_⟩
  · have hoctets := hresponds.octets
    rwa [(hrecycled.1 h).relayed, List.nil_append] at hoctets
  · rw [hdone.idle, hdone.recycled]

/-- A response that is nothing but a head. -/
def bareHead : Bytes := Utf8.encode "HTTP/1.1 204 \n\n"

theorem length_bareHead : bareHead.length = 15 := by decide

/-- The head that is read of `bareHead`. -/
theorem exists_readHead_bareHead :
    ∃ p, readHead 64 bareHead = .ok (15, p) ∧ p.status = 204 ∧ p.keepAlive = true := by
  have hread : (readHead 64 bareHead).map (fun a => (a.1, a.2.status, a.2.keepAlive)) =
      .ok (15, 204, true) := by decide +kernel
  obtain ⟨⟨n, p⟩, hhead, hread⟩ := exists_eq_ok_of_map hread
  obtain ⟨rfl, hread⟩ := Prod.mk.inj hread
  exact ⟨p, hhead, Prod.mk.inj hread⟩

/-- A backend that sends `bareHead` can be relayed. -/
theorem exists_run_bareHead {r : ResponseRelay} (h : r.Ready) (hr : r.Calm)
    (hcapacity : r.buffer.capacity = 64)
    (hoctets : r.backend.octets = bareHead) : ∃ relayed r', r.run false = (.ok relayed, r') := by
  obtain ⟨p, hread, hstatus, -⟩ := exists_readHead_bareHead
  have hbody : readBody (framingOf p false) (bareHead.drop 15) = .ok 0 := by
    rw [framingOf, hstatus]
    rfl
  have hfinal : readFinal r.buffer.capacity false r.backend.octets = .ok (15, p, 0) := by
    rw [hcapacity, hoctets]
    exact readFinal_of_body hread hbody
  obtain ⟨relayed, r', hrun, -⟩ :=
    ResponseRelay.exists_run_of_readFinal h hr (.nil _) hfinal (by rw [hstatus]; decide)
  exact ⟨relayed, r', hrun⟩

/-- After `bareHead` the connection is in step. -/
theorem Responds.inStep_of_bareHead {c c' : Conversation Bytes} {d : Course Bytes}
    {heads : List Bytes} {head body : Bytes} {outcome : Outcome}
    (h : Responds (.answering bareHead) request x c d heads head body outcome x' c')
    (hx : x.slab.buffer.capacity = 64) : InStep request outcome x' := by
  obtain ⟨p, hread, hstatus, hkeep⟩ := exists_readHead_bareHead
  have hoctets :
      ((Network.answering bareHead).incoming d.connection.link d.sent).octets = bareHead :=
    List.append_nil bareHead
  have hinterims := h.interims
  have hfirst := h.readHead
  rw [hoctets, hx] at hinterims
  rw [hx] at hfirst
  obtain ⟨-, hall⟩ := hinterims.unique (.nil _) (isFinal_of_readHead hfirst h.final)
    (isFinal_of_readHead hread (by rw [hstatus]; decide))
  rw [hall, hread] at hfirst
  obtain ⟨hlength, rfl⟩ := Prod.mk.inj (Except.ok.inj hfirst)
  -- the head is all that there is
  have hrest : body ++ (x'.slab.buffer.data ++ d.relay.backend.octets) = [] := by
    apply List.eq_nil_of_length_eq_zero
    have hsum := congrArg List.length hall
    rw [List.length_append, ← hlength, length_bareHead] at hsum
    exact Nat.add_eq_left.1 hsum
  obtain ⟨hstays, hoffered⟩ := (heedful_of_readHead hread).1.keepAlive_iff.1 hkeep
  have hends : x'.parser.status ≠ 101 ∧ (request.isHead = true ∨ x'.parser.status = 204 ∨
      x'.parser.status = 304 ∨ x'.parser.chunked = true ∨ x'.parser.contentLength ≠ none) := by
    rw [hstatus]
    exact ⟨by decide, .inr (.inl rfl)⟩
  refine ⟨?_, hends, hstays, hoffered,
    (List.append_eq_nil_iff.1 (List.append_eq_nil_iff.1 hrest).2).1⟩
  rw [h.framing]
  exact isDelimited_framingOf_iff.2 hends

/-- After the response `bareHead` the connection is given back. -/
theorem run_recycles_inStep_bareHead :
    eagerOpening.1.Fits ∧ ∃ c outcome x' c',
      eagerOpening.1.run (.answering bareHead) (.v4 []) firstHead c =
        (.ok outcome, x', c') ∧ outcome.backendRecycled = true ∧ InStep firstHead outcome x' ∧
      ∃ d : Course Bytes, c'.proxy.idle =
        d.connected.proxy.idle.recycle (Network.isOpen (.answering bareHead) c'.network)
          d.node d.connection := by
  have hx : eagerOpening.1.Fits := fits_opening (BufferPool.sound_new 64) eager []
  obtain ⟨reading, -, houtgoing⟩ := next_eagerOpening
  obtain ⟨n, connection, x₁, c₁, hconnect⟩ := exists_connect_firstHead bareHead reading
  have hrelay : ∀ s, ∃ relayed r, ResponseRelay.run false
      { backend := (Network.answering bareHead).incoming connection.link s,
        client := reading.client.outgoing,
        buffer := eagerOpening.1.slab.buffer.clear, parser := eagerOpening.1.parser.recycle } =
        (.ok relayed, r) := by
    intro s
    refine exists_run_bareHead (hx.ready _ _) ⟨?_, ?_⟩ rfl (List.append_nil bareHead)
    · exact List.forall_mem_singleton.2 ⟨bareHead, by decide, rfl⟩
    · rw [houtgoing]
      exact ⟨rfl, rfl⟩
  obtain ⟨outcome, x', c', hrun⟩ := exists_run_eq_ok (.v4 []) hconnect rfl (fun _ _ => ⟨_, rfl⟩)
    (fun _ => ⟨_, rfl⟩) hrelay
  obtain ⟨d, heads, head, body, -, hresponds, hrecycled, -, hidle⟩ :=
    (run_recycles_inStep (.answering bareHead) (.v4 []) firstHead _ hx).2 outcome x' c' hrun
  have hstep : InStep firstHead outcome x' := hresponds.inStep_of_bareHead rfl
  rw [if_pos (hrecycled.2 hstep)] at hidle
  exact ⟨hx, _, outcome, x', c', hrun, hrecycled.2 hstep, hstep, d, hidle⟩

end Exchange

end ReverseProxy.Relay
