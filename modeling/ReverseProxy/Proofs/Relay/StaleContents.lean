import ReverseProxy.Proofs.Relay.AlikeRelays
import ReverseProxy.Proofs.Relay.ClientSession

/-!
# Nothing leaks through what is used again

Buffers come from a pool and go back to it, and the reader of an exchange is used for one response
after another.  Nothing of that is wiped.  Still nobody can tell: a proxy whose buffers were used
for anything before and one whose buffers were used for something else serve a client in the same
way, as far as the client, the backends and the registry are concerned (`serve_alike`).  The same
holds of an exchange between two requests, which may have been left in the middle of a response, and
a new one.

The relation that is kept is `Alike`, for everything that has a buffer in it.
-/

namespace ReverseProxy.Relay

open Fleet Message Wire

variable {σ : Type} {net : Network σ}

namespace Transfer

variable {t t' t₁ : Transfer σ} {link : LinkId}

/-- The transfers `t` and `t'` differ in nothing but in what cannot be seen of their two buffers. -/
def Alike (t t' : Transfer σ) : Prop :=
  ∃ b b', t.reading.buffer.Alike b ∧ t.buffer.Alike b' ∧
    t' = { t with reading := { t.reading with buffer := b }, buffer := b' }

theorem Alike.dropHead (h : t.Alike t') (n : Nat) : (t.dropHead n).Alike (t'.dropHead n) := by
  obtain ⟨b, b', hb, hb', rfl⟩ := h
  exact ⟨b.consume n, b', hb.consume n, hb', rfl⟩

theorem Alike.send (h : t.Alike t') {bs : Bytes} {answer : Except ExchangeFailure Unit}
    (hs : t.send net link bs = (answer, t₁)) :
    ∃ t₁', t'.send net link bs = (answer, t₁') ∧ t₁.Alike t₁' := by
  obtain ⟨b, b', hb, hb', rfl⟩ := h
  unfold Transfer.send at hs ⊢
  simp only
  split at hs <;> cases hs <;> exact ⟨_, rfl, b, b', hb, hb', rfl⟩

theorem Alike.flush (h : t.Alike t') {answer : Except ExchangeFailure Unit}
    (hf : t.flush net link = (answer, t₁)) :
    ∃ t₁', t'.flush net link = (answer, t₁') ∧ t₁.Alike t₁' := by
  obtain ⟨b, b', hb, hb', rfl⟩ := h
  unfold Transfer.flush at hf ⊢
  simp only
  split at hf <;> cases hf <;> exact ⟨_, rfl, b, b', hb, hb', rfl⟩

theorem Alike.sendBody (h : t.Alike t') {body : RequestBody} {answer : Except ExchangeFailure Nat}
    (hs : t.sendBody net link body = (answer, t₁)) :
    ∃ t₁', t'.sendBody net link body = (answer, t₁') ∧ t₁.Alike t₁' := by
  obtain ⟨b, b', hb, hb', rfl⟩ := h
  have hrelay : RequestBodyRelay.Alike
      { client := t.reading.client, buffer := t.reading.buffer, backend := t.network }
      { client := t.reading.client, buffer := b, backend := t.network } := ⟨b, hb, rfl⟩
  unfold Transfer.sendBody at hs ⊢
  rcases hrun : RequestBodyRelay.run (net.writer link) body
    { client := t.reading.client, buffer := t.reading.buffer, backend := t.network }
    with ⟨result, r⟩
  obtain ⟨r', hrun', b₁, hb₁, rfl⟩ := hrelay.run hrun
  rw [hrun] at hs
  rw [hrun']
  cases hs
  exact ⟨_, rfl, b₁, b', hb₁, hb', rfl⟩

theorem Alike.receive (h : t.Alike t') {headRequest : Bool}
    {answer : Except ExchangeFailure Relayed} (hr : t.receive net link headRequest = (answer, t₁)) :
    ∃ t₁', t'.receive net link headRequest = (answer, t₁') ∧ t₁.Alike t₁' := by
  obtain ⟨b, b', hb, hb', rfl⟩ := h
  have hrelay : ResponseRelay.Alike
      { backend := net.incoming link t.network, client := t.reading.client.outgoing,
        buffer := t.buffer.clear, parser := t.parser.recycle }
      { backend := net.incoming link t.network, client := t.reading.client.outgoing,
        buffer := b'.clear, parser := t.parser.recycle } := ⟨b'.clear, hb'.clear, rfl⟩
  unfold Transfer.receive at hr ⊢
  rcases hrun : ResponseRelay.run headRequest
    { backend := net.incoming link t.network, client := t.reading.client.outgoing,
      buffer := t.buffer.clear, parser := t.parser.recycle } with ⟨result, r⟩
  obtain ⟨r', hrun', b₁, hb₁, rfl⟩ := hrelay.run hrun
  rw [hrun] at hr
  rw [hrun']
  cases hr
  exact ⟨_, rfl, b, b₁, hb, hb₁, rfl⟩

/-- Alike transfers send the same request and relay the same response, or fail with the same error:
`run` has the same `answer`, and leaves them alike. -/
theorem Alike.run (h : t.Alike t') {head : Bytes} {request : RequestHead}
    {answer : Except ExchangeFailure Relayed} (hr : t.run net link head request = (answer, t₁)) :
    ∃ t₁', t'.run net link head request = (answer, t₁') ∧ t₁.Alike t₁' := by
  unfold Transfer.run at hr ⊢
  split at hr <;> rename_i hsend <;> obtain ⟨t₂', hsend', h₂⟩ := (h.dropHead _).send hsend <;>
    simp only [hsend']
  · cases hr
    exact ⟨t₂', rfl, h₂⟩
  split at hr <;> rename_i hbody <;> obtain ⟨t₃', hbody', h₃⟩ := h₂.sendBody hbody <;>
    simp only [hbody']
  · cases hr
    exact ⟨t₃', rfl, h₃⟩
  split at hr <;> rename_i hflush <;> obtain ⟨t₄', hflush', h₄⟩ :=
    h₃.flush hflush <;> simp only [hflush']
  · cases hr
    exact ⟨t₄', rfl, h₄⟩
  · exact h₄.receive hr

end Transfer

/-- The conversations `c` and `c'` differ in nothing but in the pool of buffers, and in what cannot
be seen of the buffer of the client.  In particular the client has been sent the same in both, the
network has gone through the same, and the registry and the idle connections are the same. -/
def Conversation.Alike (c c' : Conversation σ) : Prop :=
  ∃ b buffers, c.reading.buffer.Alike b ∧
    c' = { c with reading := { c.reading with buffer := b }, proxy := { c.proxy with buffers } }

/-- Alike conversations read the same request. -/
theorem Conversation.Alike.next {c c' : Conversation σ} (h : c.Alike c')
    {answer : Except ExchangeFailure (Option RequestHead)} {reading : RequestReading}
    (hn : c.reading.next = (answer, reading)) :
    ∃ reading', c'.reading.next = (answer, reading') ∧
      Conversation.Alike { c with reading } { c' with reading := reading' } := by
  obtain ⟨b, buffers, hb, rfl⟩ := h
  have hreading : c.reading.Alike { c.reading with buffer := b } := ⟨b, hb, rfl⟩
  obtain ⟨reading', hn', hr⟩ := hreading.next
  rw [hn] at hn' hr
  obtain ⟨b₁, hb₁, rfl⟩ := hr
  exact ⟨_, hn', b₁, buffers, hb₁, rfl⟩

/-- The pool of buffers has no part in `checkout`: with other `buffers` the same connection is got,
and they are left as they were. -/
theorem Network.checkout_withBuffers {n : Node} {p p₁ : Operation.Proxy} {s s₁ : σ}
    {answer : Except ConnectFailure (Connection × Bool)} (h : net.checkout n p s = (answer, p₁, s₁))
    (buffers : BufferPool) :
    net.checkout n { p with buffers } s = (answer, { p₁ with buffers }, s₁) := by
  unfold Network.checkout at h ⊢
  simp only at h ⊢
  split at h
  · cases h
    rfl
  split at h
  · cases h
    rfl
  split at h <;> cases h <;> rfl

namespace Exchange

variable {x x' x₁ : Exchange} {c c' c₁ : Conversation σ} {peer : HostAddress}
    {request : RequestHead}

/-- The exchanges `x` and `x'` differ in nothing but in their allocations, and in what cannot be
seen of their buffers. -/
def Alike (x x' : Exchange) : Prop := ∃ slab, x.slab.buffer.Alike slab.buffer ∧ x' = { x with slab }

/-- Alike exchanges `connect` to the same node over the same connection. -/
theorem Alike.connect (hx : x.Alike x') (hc : c.Alike c')
    {answer : Except ExchangeFailure (Node × Connection)}
    (h : x.connect net request c = (answer, x₁, c₁)) :
    ∃ x₁' c₁', x'.connect net request c' = (answer, x₁', c₁') ∧ x₁.Alike x₁' ∧ c₁.Alike c₁' := by
  obtain ⟨slab, hslab, rfl⟩ := hx
  obtain ⟨b, buffers, hb, rfl⟩ := hc
  unfold Exchange.connect at h ⊢
  simp only
  split at h
  · cases h
    exact ⟨_, _, rfl, ⟨slab, hslab, rfl⟩, b, buffers, hb, rfl⟩
  · rename_i n registry _
    simp only at h ⊢
    split at h <;> rename_i hcheckout <;> have hcheckout' :=
      Network.checkout_withBuffers hcheckout buffers <;>
      simp only [hcheckout'] <;> cases h <;>
      exact ⟨_, _, rfl, ⟨slab, hslab, rfl⟩, b, buffers, hb, rfl⟩

/-- Alike exchanges send the same request and relay the same response, or fail with the same error:
`transfer` has the same `answer`. -/
theorem Alike.transfer (hx : x.Alike x') (hc : c.Alike c') {n : Node} {link : LinkId}
    {answer : Except ExchangeFailure Relayed}
    (h : x.transfer net peer request n link c = (answer, x₁, c₁)) :
    ∃ x₁' c₁', x'.transfer net peer request n link c' = (answer, x₁', c₁') ∧
    x₁.Alike x₁' ∧ c₁.Alike c₁' := by
  obtain ⟨slab, hslab, rfl⟩ := hx
  obtain ⟨b, buffers, hb, rfl⟩ := hc
  unfold Exchange.transfer at h ⊢
  simp only [← hb.data] at h ⊢
  -- the request is named by the network, and its head is taken from the buffer of the client: both
  -- are the same
  generalize (if (request.header? requestIdHeader).isSome then ("", c.network)
    else net.requestId c.network) = named at h ⊢
  generalize request.forwarded c.reading.buffer.data (extraHeaders request n peer named.1) = head
    at h ⊢
  have ht : Transfer.Alike
      { reading := c.reading, network := named.2, buffer := x.slab.buffer, parser := x.parser }
      { reading := { c.reading with buffer := b }, network := named.2,
        buffer := slab.buffer, parser := x.parser } :=
    ⟨b, slab.buffer, hb, hslab, rfl⟩
  rcases hrun : Transfer.run net link head request
    { reading := c.reading, network := named.2, buffer := x.slab.buffer, parser := x.parser }
    with ⟨result, t⟩
  obtain ⟨t', hrun', b₁, b₂, hb₁, hb₂, rfl⟩ := ht.run hrun
  rw [hrun] at h
  rw [hrun']
  cases h
  exact ⟨_, _, rfl, ⟨{ slab with buffer := b₂ }, hb₂, rfl⟩, b₁, buffers, hb₁, rfl⟩

/-- Alike exchanges `settle` alike: the connection is put back from both or from neither, and both
report the same. -/
theorem Alike.settle (hx : x.Alike x') (hc : c.Alike c') (net : Network σ)
    (request : RequestHead) (n : Node) (connection : Connection) (relayed : Relayed) :
    (x'.settle net request n connection relayed c').1 =
      (x.settle net request n connection relayed c).1 ∧
      (x.settle net request n connection relayed c).2.Alike
        (x'.settle net request n connection relayed c').2 := by
  obtain ⟨slab, hslab, rfl⟩ := hx
  obtain ⟨b, buffers, hb, rfl⟩ := hc
  exact ⟨rfl, b, buffers, hb, rfl⟩

theorem Alike.inPhase (hx : x.Alike x') (phase : Phase) :
    Alike { x with phase } { x' with phase } := by
  obtain ⟨slab, hslab, rfl⟩ := hx
  exact ⟨slab, hslab, rfl⟩

/-- Alike exchanges have the same outcome, or fail with the same error: `run` has the same `answer`,
and leaves them and their conversations alike. -/
theorem Alike.run (hx : x.Alike x') (hc : c.Alike c') {answer : Except ExchangeFailure Outcome}
    (h : x.run net peer request c = (answer, x₁, c₁)) :
    ∃ x₁' c₁', x'.run net peer request c' = (answer, x₁', c₁') ∧ x₁.Alike x₁' ∧ c₁.Alike c₁' := by
  unfold Exchange.run at h ⊢
  split at h <;> rename_i hconnect <;> obtain ⟨x₂', c₂', hconnect', hx₂, hc₂⟩ :=
    hx.connect hc hconnect <;>
    simp only [hconnect']
  · cases h
    exact ⟨_, _, rfl, hx₂.inPhase .failed, hc₂⟩
  split at h <;> rename_i htransfer <;> obtain ⟨x₃', c₃', htransfer', hx₃, hc₃⟩ :=
    hx₂.transfer hc₂ htransfer <;>
    simp only [htransfer']
  · cases h
    exact ⟨_, _, rfl, hx₃.inPhase .failed, hc₃⟩
  · cases h
    rename_i n connection _ _ _ relayed x₃ c₃
    obtain ⟨hsettle, hc₄⟩ := hx₃.settle hc₃ net request n connection relayed
    exact ⟨_, _, by rw [hsettle]; rfl, hx₃.inPhase .done, hc₄⟩

theorem Alike.reset (hx : x.Alike x') : x.reset.Alike x'.reset := by
  obtain ⟨slab, hslab, rfl⟩ := hx
  exact ⟨{ slab with buffer := slab.buffer.clear }, hslab.clear, rfl⟩

/-- The exchange that a new reader and a buffer in a new allocation make of `x`. -/
def renewed (x : Exchange) : Exchange :=
  { slab := { x.slab with buffer := .ofCapacity x.slab.buffer.capacity },
    parser := .new x.parser.limit }

/-- However the reader and the buffer of `x` were left, `reset` makes it alike to `renewed`. -/
theorem reset_alike_renewed (x : Exchange) : x.reset.Alike x.renewed :=
  ⟨x.renewed.slab, x.slab.buffer.clear_alike_ofCapacity,
    by rw [reset, ResponseParser.recycle_eq_new]; rfl⟩

end Exchange

/-! ### A client connection -/

variable {x x' x₁ : Exchange} {c c' c₁ : Conversation σ} {peer : HostAddress}
    {episodes : List Episode}

/-- One step of `serveRequests`. -/
theorem serveRequests_eq_match (net : Network σ) (peer : HostAddress) (x : Exchange)
    (c : Conversation σ) :
    serveRequests net peer x c = match c.reading.next with
      | (.error e, reading) => ([.unreadable e], x, { c with reading })
      | (.ok none, reading) => ([], x, { c with reading })
      | (.ok (some request), reading) =>
          match x.run net peer request { c with reading } with
          | (.error e, x₁, c₁) => ([.exchange (.error e) x₁.node x₁.phase], x₁, c₁)
          | (.ok outcome, x₁, c₁) =>
              if outcome.clientKeepAlive then
                (.exchange (.ok outcome) x₁.node x₁.phase :: (serveRequests net peer x₁.reset c₁).1,
                  (serveRequests net peer x₁.reset c₁).2)
              else ([.exchange (.ok outcome) x₁.node x₁.phase], x₁, c₁) := by
  rw [serveRequests]
  split <;> rename_i hnext <;> simp only [hnext]
  split <;> rename_i hrun <;> simp only [hrun]

/-- Alike exchanges serve the same requests in the same way, to the end: `serveRequests` gives the
same `episodes`. -/
theorem Exchange.Alike.serveRequests (hx : x.Alike x') (hc : c.Alike c')
    (h : serveRequests net peer x c = (episodes, x₁, c₁)) :
    ∃ x₁' c₁', serveRequests net peer x' c' = (episodes, x₁', c₁') ∧ x₁.Alike x₁' ∧
    c₁.Alike c₁' := by
  fun_induction Relay.serveRequests net peer x c generalizing x' c' episodes with
  | case1 x c e reading hnext | case2 x c reading hnext =>
    cases h
    obtain ⟨reading', hnext', hc₁⟩ := hc.next hnext
    rw [serveRequests_eq_match, hnext']
    exact ⟨x', _, rfl, hx, hc₁⟩
  | case3 x c request reading hnext e x₂ c₂ hrun =>
    cases h
    obtain ⟨reading', hnext', hc₁⟩ := hc.next hnext
    obtain ⟨x₂', c₂', hrun', ⟨slab, hslab, rfl⟩, hc₂⟩ := hx.run hc₁ hrun
    rw [serveRequests_eq_match, hnext']
    simp only [hrun']
    exact ⟨_, c₂', rfl, ⟨slab, hslab, rfl⟩, hc₂⟩
  | case4 x c request reading hnext outcome x₂ c₂ hrun episode hkeep later last hrest =>
    rename_i ih
    cases h
    obtain ⟨reading', hnext', hc₁⟩ := hc.next hnext
    obtain ⟨x₂', c₂', hrun', hx₂, hc₂⟩ := hx.run hc₁ hrun
    obtain ⟨x₃', c₃', hlater, hx₃, hc₃⟩ := ih hx₂.reset hc₂ hrest
    rw [serveRequests_eq_match, hnext']
    simp only [hrun', if_pos hkeep, hlater]
    obtain ⟨slab, hslab, rfl⟩ := hx₂
    exact ⟨x₃', c₃', rfl, hx₃, hc₃⟩
  | case5 x c request reading hnext outcome x₂ c₂ hrun episode =>
    rename_i hkeep
    cases h
    obtain ⟨reading', hnext', hc₁⟩ := hc.next hnext
    obtain ⟨x₂', c₂', hrun', ⟨slab, hslab, rfl⟩, hc₂⟩ := hx.run hc₁ hrun
    rw [serveRequests_eq_match, hnext']
    simp only [hrun', if_neg hkeep]
    exact ⟨_, c₂', rfl, ⟨slab, hslab, rfl⟩, hc₂⟩

/-- Running an exchange leaves it its allocation. -/
theorem Exchange.id_run (net : Network σ) (peer : HostAddress) (request : RequestHead)
    (x : Exchange) (c : Conversation σ) : (x.run net peer request c).2.1.slab.id = x.slab.id := by
  have hid : (x.connect net request c).2.1.slab.id = x.slab.id := by
    unfold connect
    split
    · rfl
    · simp only
      split <;> rfl
  unfold run
  rcases hconnect : x.connect net request c with ⟨e | ⟨n, connection⟩, x₁, c₁⟩ <;>
    rw [hconnect] at hid
  · exact hid
  have hslab : (x₁.transfer net peer request n connection.link c₁).2.1.slab.id = x₁.slab.id := rfl
  simp only
  rcases htransfer : x₁.transfer net peer request n connection.link c₁
    with ⟨e | relayed, x₂, c₂⟩ <;>
    rw [htransfer] at hslab <;> exact hslab.trans hid

theorem Session.id_slab {turns : List (Turn σ)} (h : Session net peer x c turns episodes x' c') :
    x'.slab.id = x.slab.id := by
  induction h with
  | ended | unreadable => rfl
  | last t _ _ hrun _ =>
    have hid := Exchange.id_run net peer t.request t.exchange t.before
    rwa [hrun] at hid
  | more t _ _ hrun _ _ ih =>
    have hid := Exchange.id_run net peer t.request t.exchange t.before
    rw [hrun] at hid
    exact ih.trans hid

/-- With `Clean` pools for buffers of one size, `opening` gives alike exchanges and
conversations. -/
theorem alike_opening {proxy : Operation.Proxy} {buffers : BufferPool}
    (h : proxy.buffers.Clean) (h' : buffers.Clean)
    (hsize : proxy.buffers.bufferSize = buffers.bufferSize) (client : Client) (network : σ) :
    (opening client proxy network).1.Alike (opening client { proxy with buffers } network).1 ∧
      (opening client proxy network).2.Alike (opening client { proxy with buffers } network).2 := by
  obtain ⟨hclient, hrest⟩ := h.take
  obtain ⟨hclient', hrest'⟩ := h'.take
  have hbackend := hrest.take.1
  have hbackend' := hrest'.take.1
  rw [BufferPool.bufferSize_take] at hbackend hbackend'
  rw [← hsize] at hclient' hbackend'
  refine ⟨⟨buffers.take.2.take.1, hbackend.trans hbackend'.symm, ?_⟩,
    ⟨buffers.take.1.buffer, buffers.take.2.take.2, hclient.trans hclient'.symm, rfl⟩⟩
  simp only [opening, Exchange.lease, BufferPool.bufferSize_take, hsize]

/-- The `pool` after a client has been served: two buffers have been handed out, and the `backend`
slab and the one of the `client` have been taken back. -/
def returned (pool : BufferPool) (backend : Slab) (client : Buffer) : BufferPool :=
  (pool.take.2.take.2.release backend).release { pool.take.1 with buffer := client }

theorem clean_returned {pool : BufferPool} (h : pool.Clean) (backend : Slab) (client : Buffer) :
    (returned pool backend client).Clean :=
  (h.take.2.take.2.release _).release _

theorem inStep_returned {p p' : BufferPool} (h : p.InStep p') (hsize : p.bufferSize = p'.bufferSize)
    {backend backend' : Slab} (hid : backend.id = p.take.2.take.1.id)
    (hid' : backend'.id = p'.take.2.take.1.id)
    (hbackend : backend.buffer.Alike backend'.buffer) {client client' : Buffer}
    (hclient : client.Alike client') :
    (returned p backend client).InStep (returned p' backend' client') := by
  obtain ⟨hfirst, hrest⟩ := h.take
  obtain ⟨hsecond, hrest⟩ := hrest.take
  have hsizes : p.take.2.take.2.bufferSize = p'.take.2.take.2.bufferSize := by
    simp only [BufferPool.bufferSize_take, hsize]
  refine (hrest.release hsizes (hid.trans (hsecond.trans hid'.symm)) hbackend).release
    ?_ hfirst hclient
  rw [BufferPool.bufferSize_release, BufferPool.bufferSize_release, hsizes]

/-- The result of `serve`, in terms of what `serveRequests` ends with. -/
theorem serve_eq_of_serveRequests {client : Client} {proxy : Operation.Proxy} {network : σ}
    (h : serveRequests net peer (opening client proxy network).1 (opening client proxy network).2 =
      (episodes, x₁, c₁)) :
    x₁.slab.id = proxy.buffers.take.2.take.1.id ∧
      serve net peer client proxy network = (episodes, { c₁ with proxy :=
        { c₁.proxy with buffers := returned proxy.buffers x₁.slab c₁.reading.buffer } }) := by
  obtain ⟨turns, hsession⟩ :=
    exists_session net peer (opening client proxy network).1 (opening client proxy network).2
  have hserve : ∀ served, serveRequests net peer (opening client proxy network).1
    (opening client proxy network).2 =
      served → serve net peer client proxy network = (served.1, { served.2.2 with
        proxy := { served.2.2.proxy with
          buffers := (served.2.2.proxy.buffers.release served.2.1.slab).release
            { proxy.buffers.take.1 with buffer := served.2.2.reading.buffer } } }) := by
    rintro _ rfl
    rfl
  rw [h] at hsession
  have hbuffers : c₁.proxy.buffers = proxy.buffers.take.2.take.2 := hsession.buffers
  refine ⟨hsession.id_slab, ?_⟩
  rw [hserve _ h, returned, ← hbuffers]

/-- Serving a client does not depend on what the buffers of the pool were used for.  With two
`Clean` pools for buffers of one size, `serve` gives the same `episodes`, and ends with the same
client, network, registry and idle connections, and with pools that are `Clean` again, and `InStep`
if they were.  An exchange `x` that was `reset`, wherever in a response it was left, runs as
`renewed` does and gives the same answers; and so do all exchanges that follow it.  Of the backends
nothing is assumed but that both runs have the same `net` and `network`. -/
theorem serve_alike (net : Network σ) (peer : HostAddress) (client : Client)
    (network : σ) (proxy : Operation.Proxy)
    (buffers : BufferPool) (h : proxy.buffers.Clean) (h' : buffers.Clean)
    (hsize : proxy.buffers.bufferSize = buffers.bufferSize) :
    (∃ episodes c c', serve net peer client proxy network = (episodes, c) ∧
      serve net peer client { proxy with buffers } network = (episodes, c') ∧ c.Alike c' ∧
      c.proxy.buffers.Clean ∧ c'.proxy.buffers.Clean ∧
      (proxy.buffers.InStep buffers → c.proxy.buffers.InStep c'.proxy.buffers)) ∧
    ∀ (x : Exchange) (c : Conversation σ),
      (∀ request, ∃ answer x₁ x₁' c₁ c₁', x.reset.run net peer request c = (answer, x₁, c₁) ∧
        x.renewed.run net peer request c = (answer, x₁', c₁') ∧ x₁.Alike x₁' ∧ c₁.Alike c₁') ∧
      ∃ episodes x₁ x₁' c₁ c₁', serveRequests net peer x.reset c = (episodes, x₁, c₁) ∧
        serveRequests net peer x.renewed c = (episodes, x₁', c₁') ∧ x₁.Alike x₁' ∧
        c₁.Alike c₁' := by
  constructor
  · obtain ⟨hx, hc⟩ := alike_opening h h' hsize client network
    rcases hrequests : serveRequests net peer (opening client proxy network).1
      (opening client proxy network).2 with
      ⟨episodes, x₁, c₁⟩
    obtain ⟨x₁', c₁', hrequests', ⟨slab, hslab, rfl⟩, b, buffers', hb, rfl⟩ :=
      hx.serveRequests hc hrequests
    obtain ⟨hid, hserve⟩ := serve_eq_of_serveRequests hrequests
    obtain ⟨hid', hserve'⟩ := serve_eq_of_serveRequests hrequests'
    exact ⟨episodes, _, _, hserve, hserve', ⟨b, _, hb, rfl⟩, clean_returned h _ _,
      clean_returned h' _ _,
      fun hstep => inStep_returned hstep hsize hid hid' hslab hb⟩
  · intro x c
    have hc : c.Alike c := ⟨c.reading.buffer, c.proxy.buffers, .refl _, rfl⟩
    constructor
    · intro request
      rcases hrun : x.reset.run net peer request c with ⟨answer, x₁, c₁⟩
      obtain ⟨x₁', c₁', hrun', hx₁, hc₁⟩ := x.reset_alike_renewed.run hc hrun
      exact ⟨answer, x₁, x₁', c₁, c₁', rfl, hrun', hx₁, hc₁⟩
    · rcases hserve : serveRequests net peer x.reset c with ⟨episodes, x₁, c₁⟩
      obtain ⟨x₁', c₁', hserve', hx₁, hc₁⟩ := x.reset_alike_renewed.serveRequests hc hserve
      exact ⟨episodes, x₁, x₁', c₁, c₁', rfl, hserve', hx₁, hc₁⟩

/-- The pool with one buffer that has held the octets `bs`. -/
def usedPool (bs : Bytes) : BufferPool :=
  let (slab, pool) := ({ bufferSize := 64 } : BufferPool).take
  pool.release { slab with buffer := slab.buffer.write bs }

theorem clean_usedPool (bs : Bytes) : (usedPool bs).Clean :=
  (BufferPool.clean_new 64).take.2.release _

/-- From two pools with different octets left in them a client is served in the same way. -/
theorem serve_alike_usedPool :
    usedPool [1, 2, 3] ≠ usedPool [4, 5] ∧ (usedPool [1, 2, 3]).Clean ∧ (usedPool [4, 5]).Clean ∧
      ∃ episodes c c',
        serve (.answering ResponseRelay.noContent)
          (.v4 []) eager { oneNode with buffers := usedPool [1, 2, 3] } [] =
          (episodes, c) ∧
        serve (.answering ResponseRelay.noContent)
          (.v4 []) eager { oneNode with buffers := usedPool [4, 5] } [] =
          (episodes, c') ∧
        c.reading.client.outgoing = c'.reading.client.outgoing ∧ c.network = c'.network ∧
        c.proxy.buffers.InStep c'.proxy.buffers := by
  refine ⟨by decide, clean_usedPool _, clean_usedPool _, ?_⟩
  obtain ⟨⟨episodes, c, c', hserve, hserve', ⟨b, buffers, -, rfl⟩, -, -, hstep⟩, -⟩ :=
    serve_alike (.answering ResponseRelay.noContent) (.v4 []) eager []
      { oneNode with buffers := usedPool [1, 2, 3] } (usedPool [4, 5])
      (clean_usedPool _) (clean_usedPool _) rfl
  exact ⟨episodes, c, _, hserve, hserve', rfl, rfl, hstep ⟨rfl, rfl⟩⟩

end ReverseProxy.Relay
