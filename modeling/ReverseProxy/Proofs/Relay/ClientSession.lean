import Mathlib.Data.List.Forall2
import ReverseProxy.Proofs.Message.HeadLocality
import ReverseProxy.Proofs.Relay.ExchangeSteps
import ReverseProxy.Proofs.Relay.ResponseExactness
import ReverseProxy.Proofs.Wire.PooledBuffers
import ReverseProxy.Relay.Serving

/-!
# What becomes of the requests of a client

A client may send its requests one after another without waiting for the responses.  `Session` tells
what happens on its connection exchange by exchange, and each exchange is a `Turn`.  One that
succeeds takes one message from the stream of the client, the head of a request and the body that it
announces, and sends that message to its backend (`Turn.Forwards`).  `Accounts` is the account of
several exchanges: the stream is the messages they have taken, one behind another, and what comes
after them.
-/

namespace ReverseProxy.Relay

open Message Wire

variable {σ : Type}

/-- The octets of a request. -/
structure RequestOctets where
  head : Bytes
  body : Bytes

/-- The octets of a request: the `head`, and behind it the `body`. -/
def RequestOctets.octets (m : RequestOctets) : Bytes := m.head ++ m.body

/-- One exchange on a client connection. -/
structure Turn (σ : Type) where
  request : RequestHead
  exchange : Exchange
  /-- The conversation when the head of the request has been read. -/
  before : Conversation σ
  result : Except ExchangeFailure Outcome
  finished : Exchange
  after : Conversation σ

namespace Turn

/-- The `Episode` that reports the exchange. -/
def episode (t : Turn σ) : Episode := .exchange t.result t.finished.node t.finished.phase

/-- The exchange has succeeded. -/
def Succeeded (t : Turn σ) : Prop := ∃ outcome, t.result = .ok outcome

/-- The exchange has succeeded and the client may send another request. -/
def GoesOn (t : Turn σ) : Prop := ∃ outcome, t.result = .ok outcome ∧ outcome.clientKeepAlive = true

/-- The exchange has forwarded the octets `m`: their head is that of the request and their body is
what it announces, and to the backend went the head as it is forwarded and `m.body`, and nothing
else. -/
structure Forwards (net : Network σ) (peer : HostAddress) (t : Turn σ)
    (m : RequestOctets) : Prop where
  head : RequestHead.parse m.head = .ok (some t.request)
  length : t.request.length = m.head.length
  body : t.request.body.framing.IsBody m.body
  sends : ∃ n connection x c s unread, t.exchange.connect net t.request t.before =
    (.ok (n, connection), x, c) ∧
    net.Sends connection.link (Exchange.requestName net t.request c.network).2
      (t.request.forwarded m.head
        (Exchange.extraHeaders t.request n peer (Exchange.requestName net t.request c.network).1) ++
        m.body) s ∧
    t.after.network = net.setIncoming connection.link unread s

end Turn

/-- The turns that a connection takes from an exchange and a conversation on, the episodes that
report them, and what they lead to. -/
inductive Session (net : Network σ) (peer : HostAddress) :
    Exchange → Conversation σ → List (Turn σ) → List Episode → Exchange → Conversation σ → Prop
  /-- The connection ends between two requests. -/
  | ended {x : Exchange} {c : Conversation σ} {reading : RequestReading} :
      c.reading.next = (.ok none, reading) →
      Session net peer x c [] [] x { c with reading }
  /-- The next request cannot be read. -/
  | unreadable {x : Exchange} {c : Conversation σ} {reading : RequestReading}
      {e : ExchangeFailure} :
      c.reading.next = (.error e, reading) →
      Session net peer x c [] [.unreadable e] x { c with reading }
  /-- An exchange that is not followed by another, as it does not go on. -/
  | last {c : Conversation σ} {reading : RequestReading} (t : Turn σ) :
      c.reading.next = (.ok (some t.request), reading) → t.before = { c with reading } →
      t.exchange.run net peer t.request t.before = (t.result, t.finished, t.after) → ¬t.GoesOn →
      Session net peer t.exchange c [t] [t.episode] t.finished t.after
  /-- An exchange that goes on, and what happens after it. -/
  | more {c c' : Conversation σ} {reading : RequestReading} {x' : Exchange} {turns : List (Turn σ)}
      {episodes : List Episode} (t : Turn σ) :
      c.reading.next = (.ok (some t.request), reading) → t.before = { c with reading } →
      t.exchange.run net peer t.request t.before = (t.result, t.finished, t.after) → t.GoesOn →
      Session net peer t.finished.reset t.after turns episodes x' c' →
      Session net peer t.exchange c (t :: turns) (t.episode :: episodes) x' c'

/-- The `turns` have taken the `messages` from the `stream` of the client, one each, in this order
and without a gap; each has forwarded its own, and has left the later ones and `rest`. -/
structure Accounts (net : Network σ) (peer : HostAddress) (stream : Bytes) (turns : List (Turn σ))
    (messages : List RequestOctets) (rest : Bytes) : Prop where
  stream : stream = messages.flatMap RequestOctets.octets ++ rest
  forwards : List.Forall₂ (Turn.Forwards net peer) turns messages
  left : ∀ i t, turns[i]? = some t →
    t.after.reading.stream = (messages.drop (i + 1)).flatMap RequestOctets.octets ++ rest

section

variable {net : Network σ} {peer : HostAddress} {x x' : Exchange} {c c' : Conversation σ}
    {turns : List (Turn σ)}
  {episodes : List Episode}

/-! ### One exchange -/

/-- A turn that succeeds forwards one message `m`, with which the stream began, and leaves the
rest. -/
theorem Turn.forwards_of_run {t : Turn σ} {reading : RequestReading} {outcome : Outcome}
    (hnext : c.reading.next = (.ok (some t.request), reading))
    (hbefore : t.before = { c with reading })
    (hrun : t.exchange.run net peer t.request t.before = (t.result, t.finished, t.after))
    (hresult : t.result = .ok outcome) :
    ∃ m, t.Forwards net peer m ∧ c.reading.stream = m.octets ++ t.after.reading.stream := by
  rw [hresult] at hrun
  obtain ⟨d, hdone⟩ := Exchange.run_eq_ok hrun
  obtain ⟨x₁, hconnects⟩ := hdone.connects
  have hreading : t.before.reading = reading := by rw [hbefore]
  have hparse : RequestHead.parse t.before.reading.buffer.data = .ok (some t.request) := by
    rw [hreading]
    exact RequestReading.parse_of_next hnext
  obtain ⟨-, hle⟩ := RequestHead.length_of_parse hparse
  have hsends := hdone.sends
  rw [← RequestHead.forwarded_take] at hsends
  refine ⟨⟨t.before.reading.buffer.data.take t.request.length, d.body⟩,
    ⟨?_, ?_, hdone.isBody, ?_⟩, ?_⟩
  · have hown := RequestHead.parse_take_append hparse []
    rwa [List.append_nil] at hown
  · exact (List.length_take_of_le hle).symm
  · exact ⟨d.node, d.connection, x₁, d.connected, d.sent, d.relay.backend,
      hconnects, hsends, hdone.network⟩
  · -- to read the head has used nothing
    have hstream := (RequestReading.next_eq c.reading).1
    rw [hnext] at hstream
    rw [← hstream, ← hreading, ← hdone.stream, RequestOctets.octets, List.append_assoc]

/-! ### Any number of exchanges -/

/-- The run of `serveRequests` is a `Session`. -/
theorem exists_session (net : Network σ) (peer : HostAddress) (x : Exchange) (c : Conversation σ) :
    ∃ turns, Session net peer x c turns (serveRequests net peer x c).1
      (serveRequests net peer x c).2.1
      (serveRequests net peer x c).2.2 := by
  fun_induction serveRequests net peer x c with
  | case1 x c e reading hnext => exact ⟨[], .unreadable hnext⟩
  | case2 x c reading hnext => exact ⟨[], .ended hnext⟩
  | case3 x c request reading hnext e x' c' hrun =>
    exact ⟨_, .last ⟨request, x, _, .error e, x', c'⟩ hnext rfl hrun nofun⟩
  | case4 x c request reading hnext outcome x' c' hrun episode hkeep episodes last hrest ih =>
    obtain ⟨turns, hturns⟩ := ih
    rw [hrest] at hturns
    exact ⟨_, .more ⟨request, x, _, .ok outcome, x', c'⟩ hnext rfl hrun
      ⟨outcome, rfl, hkeep⟩ hturns⟩
  | case5 x c request reading hnext outcome x' c' hrun episode hkeep =>
    refine ⟨_, .last ⟨request, x, _, .ok outcome, x', c'⟩ hnext rfl hrun ?_⟩
    rintro ⟨_, ⟨⟩, h⟩
    exact hkeep h

/-- If `next` reads a request, the session begins with the turn that serves it. -/
theorem Session.exists_of_next {request : RequestHead} {reading : RequestReading}
    (h : Session net peer x c turns episodes x' c')
    (hnext : c.reading.next = (.ok (some request), reading)) :
    ∃ t later, turns = t :: later ∧ t.request = request ∧
      x.run net peer request { c with reading } = (t.result, t.finished, t.after) := by
  cases h with
  | ended h | unreadable h => cases h.symm.trans hnext
  | last t h hbefore hrun _ | more t h hbefore hrun _ _ =>
    cases h.symm.trans hnext
    rw [hbefore] at hrun
    exact ⟨t, _, rfl, rfl, hrun⟩

theorem accounts_nil (net : Network σ) (peer : HostAddress) (stream : Bytes) :
    Accounts net peer stream [] [] stream :=
  ⟨rfl, .nil, fun _ _ h => nomatch List.getElem?_nil.symm.trans h⟩

/-- A turn takes its message `m` in front of the `messages` of later turns. -/
theorem Accounts.cons {t : Turn σ} {m : RequestOctets} {stream rest : Bytes}
    {messages : List RequestOctets}
    (h : Accounts net peer t.after.reading.stream turns messages rest) (hm : t.Forwards net peer m)
    (hstream : stream = m.octets ++ t.after.reading.stream) :
    Accounts net peer stream (t :: turns) (m :: messages) rest where
  stream := by rw [hstream, h.stream, List.flatMap_cons, List.append_assoc]
  forwards := .cons hm h.forwards
  left := by
    rintro (_ | i) t' ht'
    · cases ht'
      exact h.stream
    · exact h.left i t' ht'

/-- A turn that succeeds takes some message in front of the `messages` of later turns. -/
theorem exists_accounts_cons {t : Turn σ} {reading : RequestReading}
    (hnext : c.reading.next = (.ok (some t.request), reading))
    (hbefore : t.before = { c with reading })
    (hrun : t.exchange.run net peer t.request t.before = (t.result, t.finished, t.after))
    (ht : t.Succeeded)
    (h : ∃ messages rest, Accounts net peer t.after.reading.stream turns messages rest) :
    ∃ messages rest, Accounts net peer c.reading.stream (t :: turns) messages rest := by
  obtain ⟨outcome, hresult⟩ := ht
  obtain ⟨m, hm, hstream⟩ := Turn.forwards_of_run hnext hbefore hrun hresult
  obtain ⟨messages, rest, hrest⟩ := h
  exact ⟨m :: messages, rest, hrest.cons hm hstream⟩

/-- As long as the turns of a session succeed, each takes one message from the stream. -/
theorem Session.accounts (h : Session net peer x c turns episodes x' c')
    {done later : List (Turn σ)}
    (hturns : turns = done ++ later) (hdone : ∀ t ∈ done, t.Succeeded) :
    ∃ messages rest, Accounts net peer c.reading.stream done messages rest := by
  induction h generalizing done with
  | ended | unreadable =>
    obtain ⟨rfl, -⟩ := List.append_eq_nil_iff.1 hturns.symm
    exact ⟨[], _, accounts_nil net peer _⟩
  | last t hnext hbefore hrun _ =>
    cases done with
    | nil => exact ⟨[], _, accounts_nil net peer _⟩
    | cons t' done =>
      obtain ⟨rfl, hnil⟩ := List.cons.inj hturns
      obtain ⟨rfl, -⟩ := List.append_eq_nil_iff.1 hnil.symm
      exact exists_accounts_cons hnext hbefore hrun (hdone t (List.mem_cons_self ..))
        ⟨[], _, accounts_nil net peer _⟩
  | more t hnext hbefore hrun _ _ ih =>
    cases done with
    | nil => exact ⟨[], _, accounts_nil net peer _⟩
    | cons t' done =>
      obtain ⟨rfl, htail⟩ := List.cons.inj hturns
      obtain ⟨ht, hdone⟩ := List.forall_mem_cons.1 hdone
      exact exists_accounts_cons hnext hbefore hrun ht (ih htail hdone)

/-- A turn that does not go on is the last of its session. -/
theorem Session.ends (h : Session net peer x c turns episodes x' c') {done later : List (Turn σ)}
    {t : Turn σ} (hturns : turns = done ++ t :: later) (ht : ¬t.GoesOn) :
    later = [] ∧ episodes = turns.map Turn.episode ∧ c' = t.after := by
  induction h generalizing done with
  | ended | unreadable => cases done <;> cases hturns
  | last t' =>
    cases done with
    | nil => cases hturns; exact ⟨rfl, rfl, rfl⟩
    | cons => cases (List.append_eq_nil_iff.1 (List.cons.inj hturns).2.symm).2
  | more t' _ _ _ hon _ ih =>
    cases done with
    | nil => cases hturns; exact absurd hon ht
    | cons t'' done =>
      obtain ⟨rfl, htail⟩ := List.cons.inj hturns
      obtain ⟨hlater, hepisodes, hc⟩ := ih htail
      exact ⟨hlater, congrArg (t'.episode :: ·) hepisodes, hc⟩

end

/-! ### A client connection -/

/-- The exchange and the conversation that `serve` begins with: the conversation has one buffer of
the pool for what the client sends, and the exchange another. -/
def opening (client : Client) (proxy : Operation.Proxy) (network : σ) : Exchange × Conversation σ :=
  let (slab, buffers) := proxy.buffers.take
  let (x, buffers) := Exchange.lease buffers
  (x, { reading := { client, buffer := slab.buffer }, proxy := { proxy with buffers }, network })

/-- The run of `serve` is a session from the `opening` on. -/
theorem exists_session_serve (net : Network σ) (peer : HostAddress) (client : Client)
    (proxy : Operation.Proxy) (network : σ) :
    ∃ turns x c, Session net peer (opening client proxy network).1
      (opening client proxy network).2 turns
      (serve net peer client proxy network).1 x c ∧
      c.network = (serve net peer client proxy network).2.network := by
  obtain ⟨turns, hturns⟩ :=
    exists_session net peer (opening client proxy network).1 (opening client proxy network).2
  exact ⟨turns, _, _, hturns, rfl⟩

/-- A session leaves the pool of buffers as it is. -/
theorem Session.buffers {net : Network σ} {peer : HostAddress} {x x' : Exchange}
    {c c' : Conversation σ} {turns : List (Turn σ)} {episodes : List Episode}
    (h : Session net peer x c turns episodes x' c') :
    c'.proxy.buffers = c.proxy.buffers := by
  have key : ∀ {t : Turn σ} {c : Conversation σ} {reading : RequestReading},
    t.before = { c with reading } →
      t.exchange.run net peer t.request t.before = (t.result, t.finished, t.after) →
      t.after.proxy.buffers = c.proxy.buffers := by
    intro t c reading hbefore hrun
    have hbuffers := Exchange.buffers_run net peer t.request t.exchange t.before
    rwa [hrun, hbefore] at hbuffers
  induction h with
  | ended | unreadable => rfl
  | last t _ hbefore hrun _ => exact key hbefore hrun
  | more t _ hbefore hrun _ _ ih => exact ih.trans (key hbefore hrun)

/-- The pool is `Sound` again after a client has been served. -/
theorem sound_serve {proxy : Operation.Proxy} (h : proxy.buffers.Sound)
    (net : Network σ) (peer : HostAddress) (client : Client) (network : σ) :
    (serve net peer client proxy network).2.proxy.buffers.Sound := by
  obtain ⟨turns, hturns⟩ :=
    exists_session net peer (opening client proxy network).1 (opening client proxy network).2
  have hopening : (opening client proxy network).2.proxy.buffers.Sound := h.take.2.2.take.2.2
  rw [← hturns.buffers] at hopening
  exact (hopening.release _).release _

/-- With a `Sound` pool, the stream of the opening conversation is all that the client sends. -/
theorem stream_opening {proxy : Operation.Proxy} (h : proxy.buffers.Sound)
    (client : Client) (network : σ) :
    (opening client proxy network).2.reading.stream = client.octets :=
  congrArg (· ++ client.octets) h.take.1

/-- The requests of a client are forwarded one after another, each exactly as it stands in
`client.octets`, however these arrive and whatever the backends do.  The `turns` of the session are
such that if the first ones, `done`, all succeed, then they account for as many `messages` at the
beginning of the stream: each turn has forwarded its message to the backend, and has left the
`messages` after it and `rest`.  A turn that does not go on, as it failed or the client may not send
more, has no turn after it: nothing else is reported, and nothing more is done on the network. -/
theorem serve_forwards (net : Network σ) (peer : HostAddress) (client : Client)
    (proxy : Operation.Proxy) (network : σ) (hpool : proxy.buffers.Sound) :
    ∃ turns x c, Session net peer (opening client proxy network).1
      (opening client proxy network).2 turns
        (serve net peer client proxy network).1 x c ∧
      (∀ done later, turns = done ++ later → (∀ t ∈ done, t.Succeeded) →
        ∃ messages rest, Accounts net peer client.octets done messages rest) ∧
      ∀ done t later, turns = done ++ t :: later → ¬t.GoesOn →
        later = [] ∧ (serve net peer client proxy network).1 = turns.map Turn.episode ∧
          (serve net peer client proxy network).2.network = t.after.network := by
  obtain ⟨turns, x, c, hsession, hnetwork⟩ := exists_session_serve net peer client proxy network
  refine ⟨turns, x, c, hsession, ?_, ?_⟩
  · intro done later hturns hdone
    rw [← stream_opening hpool client network]
    exact hsession.accounts hturns hdone
  · intro done t later hturns ht
    obtain ⟨hlater, hepisodes, hc⟩ := hsession.ends hturns ht
    exact ⟨hlater, hepisodes, by rw [← hnetwork, hc]⟩

/-- The network that takes what is written to it, and always answers `response`. -/
def Network.answering (response : Bytes) : Network Bytes where
  connect _ s := (.ok 0, s)
  writer _ := { writeAll := fun bs s => (.ok (), s ++ bs), flush := fun s => (.ok (), s) }
  incoming _ _ := [.octets response]
  setIncoming _ _ s := s
  requestId s := ("r", s)

/-- A proxy with one node. -/
def oneNode : Operation.Proxy :=
  { registry := .ofRecords [] [{ route := "a", host := "h", port := 2 }]
    buffers := { bufferSize := 64 } }

/-- A request, and another one that is sent with it. -/
def firstRequest : Bytes := Utf8.encode "GET / HTTP/1.1\nHost: a\n\n"
def secondRequest : Bytes := Utf8.encode "GET /b HTTP/1.1\n\n"

/-- The head of the first request. -/
def firstHead : RequestHead :=
  { method := "GET", path := "/", minor := 1, headers := [{ name := "host", value := "a" }],
    length := 24,
    body := .none, keepAlive := true }

/-- A client that sends both requests at once. -/
def eager : Client := { incoming := [.arrival (.octets (firstRequest ++ secondRequest))] }

theorem octets_eager : eager.octets = firstRequest ++ secondRequest := List.append_nil _

/-- The beginning of its connection. -/
def eagerOpening : Exchange × Conversation Bytes := opening eager oneNode []

theorem next_eagerOpening :
    ∃ reading, eagerOpening.2.reading.next = (.ok (some firstHead), reading) ∧
    reading.client.outgoing = {} := by
  have hnext : eagerOpening.2.reading.next.1 = .ok (some firstHead) := by decide +kernel
  exact ⟨_, Prod.ext hnext rfl, (RequestReading.next_eq _).2⟩

/-- The node of `oneNode` can be reached. -/
theorem exists_connect_firstHead (response : Bytes) (reading : RequestReading) :
    ∃ n connection x c, eagerOpening.1.connect (.answering response) firstHead
      { eagerOpening.2 with reading } = (.ok (n, connection), x, c) := by
  exact ⟨_, _, _, _, rfl⟩

/-- Of the two requests of `eager`, the exchange of the first forwards the first, and leaves the
second. -/
theorem serve_forwards_firstRequest :
    oneNode.buffers.Sound ∧ ∃ turns x c,
      Session (.answering ResponseRelay.noContent) (.v4 []) eagerOpening.1 eagerOpening.2 turns
        (serve (.answering ResponseRelay.noContent) (.v4 []) eager oneNode []).1 x c ∧
      ∃ t later, turns = t :: later ∧ t.Succeeded ∧
      Accounts (.answering ResponseRelay.noContent) (.v4 [])
        (firstRequest ++ secondRequest) [t] [⟨firstRequest, []⟩] secondRequest := by
  have hpool : oneNode.buffers.Sound := BufferPool.sound_new 64
  obtain ⟨turns, x, c, hsession, hforwards, -⟩ :=
    serve_forwards (.answering ResponseRelay.noContent) (.v4 []) eager oneNode [] hpool
  obtain ⟨reading, hnext, houtgoing⟩ := next_eagerOpening
  obtain ⟨t, later, hturns, hrequest, hrun⟩ := hsession.exists_of_next hnext
  obtain ⟨n, connection, x₁, c₁, hconnect⟩ :=
    exists_connect_firstHead ResponseRelay.noContent reading
  obtain ⟨outcome, x₂, c₂, hok⟩ :=
    Exchange.exists_run_eq_ok (.v4 []) hconnect rfl (fun _ _ => ⟨_, rfl⟩)
    (fun _ => ⟨_, rfl⟩) fun _ => houtgoing ▸ ResponseRelay.exists_run_noContent
  have hsucceeded : t.Succeeded := ⟨outcome, (congrArg Prod.fst (hok.symm.trans hrun)).symm⟩
  obtain ⟨messages, rest, haccounts⟩ :=
    hforwards [t] later hturns (List.forall_mem_singleton.2 hsucceeded)
  rw [octets_eager] at haccounts
  refine ⟨hpool, turns, x, c, hsession, t, later, hturns, hsucceeded, ?_⟩
  have hall := haccounts.forwards
  rcases messages with _ | ⟨m, messages⟩
  · cases hall
  obtain ⟨hm, hnil⟩ := List.forall₂_cons.1 hall
  cases hnil
  -- the message has the length that the head tells, and no body
  have hlength : firstRequest.length = m.head.length := by
    rw [← hm.length, hrequest]
    decide
  have hbody : m.body = [] := by
    have hisBody := hm.body
    rw [hrequest] at hisBody
    exact hisBody
  have hstream : firstRequest ++ secondRequest = m.head ++ rest := by
    have hoctets : m.octets = m.head := by rw [RequestOctets.octets, hbody, List.append_nil]
    rw [haccounts.stream, List.flatMap_singleton, hoctets]
  obtain ⟨hhead, hrest⟩ := List.append_inj hstream hlength
  obtain rfl : m = ⟨firstRequest, []⟩ := by rw [hhead, ← hbody]
  rwa [← hrest] at haccounts

end ReverseProxy.Relay
