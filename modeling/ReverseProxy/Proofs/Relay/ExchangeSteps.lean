import ReverseProxy.Proofs.Relay.RequestBodies
import ReverseProxy.Relay.Exchange

/-!
# What an exchange has done

An exchange that succeeds has gone through all of its steps, and one that fails has stopped at one
of them.  What the steps have done is said once: `Transfer.Succeeds` for a request that was sent and
the response that was relayed, and `Exchange.Succeeds` for the exchange as a whole.  Of the network
nothing is assumed; `Network.Sends` says which octets were written to a connection between two of
its states.
-/

namespace ReverseProxy.Relay

open Fleet Message Operation Wire

variable {σ : Type}

/-- From `s` to `s'` the octets `bs` were written to the connection `link` and flushed, and nothing
else was done. -/
def Network.Sends (net : Network σ) (link : LinkId) (s : σ) (bs : Bytes) (s' : σ) : Prop :=
  ∃ sent, (net.writer link).Writes s bs sent ∧ (net.writer link).flush sent = (.ok (), s')

namespace Transfer

/-- The relay of the response at its beginning, when the network has come to the state `s`. -/
def relay (net : Network σ) (link : LinkId) (s : σ) (t : Transfer σ) : ResponseRelay :=
  { backend := net.incoming link s, client := t.reading.client.outgoing, buffer := t.buffer.clear,
    parser := t.parser.recycle }

/-- A transfer has succeeded: the head and the body were sent and the network had come to the state
`s`, and then the response was relayed up to the state `r` of the relay. -/
structure Succeeds (net : Network σ) (link : LinkId) (head : Bytes) (request : RequestHead)
    (t : Transfer σ)
    (body : Bytes) (s : σ) (relayed : Relayed) (r : ResponseRelay) (t' : Transfer σ) : Prop where
  sends : net.Sends link t.network (head ++ body) s
  isBody : request.body.framing.IsBody body
  stream : t.reading.buffer.data.take request.length ++ (body ++ t'.reading.stream) =
    t.reading.stream
  relays : (t.relay net link s).run request.isHead = (.ok relayed, r)
  network : t'.network = net.setIncoming link r.backend s
  buffer : t'.buffer = r.buffer
  parser : t'.parser = r.parser
  outgoing : t'.reading.client.outgoing = r.client

section

variable {net : Network σ} {link : LinkId} {t t' : Transfer σ}

theorem send_eq_ok {bs : Bytes} (h : t.send net link bs = (.ok (), t')) :
    ∃ network, (net.writer link).writeAll bs t.network = (.ok (), network) ∧
    t' = { t with network } := by
  unfold send at h
  rcases hwrite : (net.writer link).writeAll bs t.network with ⟨f | _, network⟩ <;>
    rw [hwrite] at h <;> cases h
  exact ⟨network, rfl, rfl⟩

theorem flush_eq_ok (h : t.flush net link = (.ok (), t')) :
    ∃ network, (net.writer link).flush t.network = (.ok (), network) ∧ t' = { t with network } := by
  unfold flush at h
  rcases hflush : (net.writer link).flush t.network with ⟨f | _, network⟩ <;>
    rw [hflush] at h <;> cases h
  exact ⟨network, rfl, rfl⟩

/-- When `sendBody` succeeds, the octets it writes are those it takes from the client, and they are
a body as the request frames it. -/
theorem sendBody_eq_ok {body : RequestBody} {n : Nat} (h : t.sendBody net link body = (.ok n, t')) :
    ∃ part reading network, t' = { t with reading, network } ∧
    (net.writer link).Writes t.network part network ∧
      body.framing.IsBody part ∧ part ++ reading.stream = t.reading.stream ∧
      reading.client.outgoing = t.reading.client.outgoing := by
  unfold sendBody at h
  rcases hrun : RequestBodyRelay.run (net.writer link) body
    { client := t.reading.client, buffer := t.reading.buffer, backend := t.network }
    with ⟨e | m, r⟩ <;>
    rw [hrun] at h <;> cases h
  obtain ⟨part, hpart, hbody⟩ := RequestBodyRelay.forwards_run rfl hrun
  exact ⟨part, _, _, rfl, hpart.written, hbody, hpart.stream, hpart.outgoing⟩

theorem stream_dropHead (n : Nat) (t : Transfer σ) :
    t.reading.buffer.data.take n ++ (t.dropHead n).reading.stream = t.reading.stream := by
  rw [dropHead, RequestReading.stream, Buffer.data_consume, ← List.append_assoc,
    List.take_append_drop, RequestReading.stream]

/-- A request without a body is transferred if what is written is taken and the relay succeeds. -/
theorem exists_run_eq_ok {request : RequestHead} (head : Bytes) (hbody : request.body = .none)
    (hwrite : ∀ bs s, ∃ s', (net.writer link).writeAll bs s = (.ok (), s'))
    (hflush : ∀ s, ∃ s', (net.writer link).flush s = (.ok (), s'))
    (hrelay : ∀ s, ∃ relayed r, (t.relay net link s).run request.isHead = (.ok relayed, r)) :
    ∃ relayed t', t.run net link head request = (.ok relayed, t') := by
  obtain ⟨s₁, hs₁⟩ := hwrite head t.network
  obtain ⟨s₂, hs₂⟩ := hflush s₁
  obtain ⟨relayed, r, hr⟩ := hrelay s₂
  have hsend : (t.dropHead request.length).send net link head =
      (.ok (), { t.dropHead request.length with network := s₁ }) := by
    rw [send, show (t.dropHead request.length).network = t.network from rfl, hs₁]
  have hnone : Transfer.sendBody net link request.body
    { t.dropHead request.length with network := s₁ } =
      (.ok 0, { t.dropHead request.length with network := s₁ }) := by
    rw [hbody]
    rfl
  have hflushed : Transfer.flush net link { t.dropHead request.length with network := s₁ } =
      (.ok (), { t.dropHead request.length with network := s₂ }) := by
    rw [flush, hs₂]
  have hreceive :
    (Transfer.receive net link request.isHead { t.dropHead request.length with network := s₂ }).1 =
      .ok relayed := congrArg Prod.fst hr
  rw [run, hsend]
  simp only
  rw [hnone]
  simp only
  rw [hflushed]
  exact ⟨relayed, _, Prod.ext hreceive rfl⟩

/-- A transfer that succeeds `Succeeds` with some body, network and relay. -/
theorem run_eq_ok {head : Bytes} {request : RequestHead} {relayed : Relayed}
    (h : t.run net link head request = (.ok relayed, t')) :
    ∃ body s r, t.Succeeds net link head request body s relayed r t' := by
  unfold run at h
  rcases hsend : (t.dropHead request.length).send net link head with ⟨e | _, t₁⟩ <;> rw [hsend] at h
  · cases h
  obtain ⟨s₁, hwrite, rfl⟩ := send_eq_ok hsend
  simp only at h
  rcases hbody : Transfer.sendBody net link request.body
    { t.dropHead request.length with network := s₁ } with
    ⟨e | n, t₂⟩ <;> rw [hbody] at h
  · cases h
  obtain ⟨body, reading, s₂, rfl, hwrites, hisBody, hstream, houtgoing⟩ := sendBody_eq_ok hbody
  simp only at h
  rcases hflush : Transfer.flush net link
    { t.dropHead request.length with reading, network := s₂ } with
    ⟨e | _, t₃⟩ <;> rw [hflush] at h
  · cases h
  obtain ⟨s₃, hflushed, rfl⟩ := flush_eq_ok hflush
  have houtgoing : reading.client.outgoing = t.reading.client.outgoing := houtgoing
  simp only [receive, houtgoing] at h
  rcases hrelays : (t.relay net link s₃).run request.isHead with ⟨result, r⟩
  rw [relay] at hrelays
  simp only [dropHead, hrelays] at h
  obtain ⟨rfl, rfl⟩ := Prod.mk.inj h
  have hall := stream_dropHead request.length t
  rw [← hstream] at hall
  exact ⟨body, s₃, r, ⟨s₂, .cons hwrite hwrites, hflushed⟩, hisBody, hall,
    hrelays, rfl, rfl, rfl, rfl⟩

end

end Transfer

namespace Exchange

/-- The name under which a request is reported: none if the client has sent one, and else one that
the network gives. -/
def requestName (net : Network σ) (request : RequestHead) (s : σ) : String × σ :=
  if (request.header? requestIdHeader).isSome then ("", s) else net.requestId s

/-- The data of an exchange that succeeds: its node, its connection, and what was sent and
relayed. -/
structure Course (σ : Type) where
  node : Node
  connection : Connection
  /-- The conversation when there is a connection. -/
  connected : Conversation σ
  /-- The body of the request. -/
  body : Bytes
  /-- The network when the request has been sent. -/
  sent : σ
  relayed : Relayed
  /-- The relay when the response has come to its end. -/
  relay : ResponseRelay

/-- The exchange has succeeded with the data `d`: it has sent the request to `d.node`, relayed the
response, and left what follows of the stream. -/
structure Succeeds (net : Network σ) (peer : HostAddress) (request : RequestHead)
    (x : Exchange) (c : Conversation σ)
    (d : Course σ) (outcome : Outcome) (x' : Exchange) (c' : Conversation σ) : Prop where
  connects : ∃ x₁, x.connect net request c = (.ok (d.node, d.connection), x₁, d.connected)
  sends : net.Sends d.connection.link (requestName net request d.connected.network).2
    (request.forwarded c.reading.buffer.data
      (extraHeaders request d.node peer (requestName net request d.connected.network).1) ++ d.body)
      d.sent
  isBody : request.body.framing.IsBody d.body
  stream : c.reading.buffer.data.take request.length ++ (d.body ++ c'.reading.stream) =
    c.reading.stream
  relays : ResponseRelay.run request.isHead
    { backend := net.incoming d.connection.link d.sent, client := c.reading.client.outgoing,
      buffer := x.slab.buffer.clear, parser := x.parser.recycle } = (.ok d.relayed, d.relay)
  network : c'.network = net.setIncoming d.connection.link d.relay.backend d.sent
  outgoing : c'.reading.client.outgoing = d.relay.client
  buffer : x'.slab.buffer = d.relay.buffer
  parser : x'.parser = d.relay.parser
  framing : outcome.framing = d.relayed.framing
  recycled : outcome.backendRecycled = isReusable d.relayed d.relay.parser
  idle : c'.proxy.idle =
    if isReusable d.relayed d.relay.parser then
      d.connected.proxy.idle.recycle (net.isOpen c'.network) d.node d.connection
    else d.connected.proxy.idle

section

variable {net : Network σ} {peer : HostAddress} {request : RequestHead}
    {x x' : Exchange} {c c' : Conversation σ}

/-- Finding a connection leaves the slab and the parser as they are. -/
theorem connect_eq (net : Network σ) (request : RequestHead) (x : Exchange) (c : Conversation σ) :
    (x.connect net request c).2.1.slab = x.slab ∧
    (x.connect net request c).2.1.parser = x.parser := by
  unfold connect
  split
  · exact ⟨rfl, rfl⟩
  · simp only
    split <;> exact ⟨rfl, rfl⟩

/-- Finding a connection leaves the pool of buffers as it is. -/
theorem buffers_connect (net : Network σ) (request : RequestHead) (x : Exchange)
    (c : Conversation σ) :
    (x.connect net request c).2.2.proxy.buffers = c.proxy.buffers := by
  have hcheckout :
      ∀ (n : Node) (p : Proxy) (s : σ), (net.checkout n p s).2.1.buffers = p.buffers := by
    intro n p s
    unfold Network.checkout
    simp only
    (repeat' split) <;> rfl
  unfold connect
  split
  · rfl
  rename_i n registry _
  have hbuffers := hcheckout n { c.proxy with registry } c.network
  simp only
  split <;> rename_i hc <;> rw [hc] at hbuffers <;> exact hbuffers

/-- Running an exchange leaves the pool of buffers as it is. -/
theorem buffers_run (net : Network σ) (peer : HostAddress) (request : RequestHead) (x : Exchange)
    (c : Conversation σ) : (x.run net peer request c).2.2.proxy.buffers = c.proxy.buffers := by
  have hbuffers := buffers_connect net request x c
  unfold run
  rcases hconnect : x.connect net request c with ⟨e | ⟨n, connection⟩, x₁, c₁⟩ <;>
    rw [hconnect] at hbuffers
  · exact hbuffers
  have hproxy : (x₁.transfer net peer request n connection.link c₁).2.2.proxy = c₁.proxy := rfl
  simp only
  rcases htransfer : x₁.transfer net peer request n connection.link c₁
    with ⟨e | relayed, x₂, c₂⟩ <;>
    rw [htransfer] at hproxy <;> exact (congrArg Proxy.buffers hproxy).trans hbuffers

theorem transfer_eq_ok {n : Node} {link : LinkId} {relayed : Relayed}
    (h : x.transfer net peer request n link c = (.ok relayed, x', c')) :
    ∃ body s r t', Transfer.Succeeds net link
        (request.forwarded c.reading.buffer.data
          (extraHeaders request n peer (requestName net request c.network).1))
        request
        { reading := c.reading, network := (requestName net request c.network).2,
          buffer := x.slab.buffer, parser := x.parser }
        body s relayed r t' ∧
      x' = { x with slab := { x.slab with buffer := t'.buffer }, parser := t'.parser } ∧
      c' = { c with reading := t'.reading, network := t'.network } := by
  rcases hrun : Transfer.run net link
    (request.forwarded c.reading.buffer.data
      (extraHeaders request n peer (requestName net request c.network).1)) request
    { reading := c.reading, network := (requestName net request c.network).2,
      buffer := x.slab.buffer, parser := x.parser } with ⟨result, t'⟩
  have htransfer : x.transfer net peer request n link c =
      (result, { x with slab := { x.slab with buffer := t'.buffer }, parser := t'.parser },
        { c with reading := t'.reading, network := t'.network }) := by
    rw [← show _ = result from congrArg Prod.fst hrun, ← show _ = t' from congrArg Prod.snd hrun]
    rfl
  cases htransfer.symm.trans h
  obtain ⟨body, s, r, hsucceeds⟩ := Transfer.run_eq_ok hrun
  exact ⟨body, s, r, t', hsucceeds, rfl, rfl⟩

/-- An exchange that succeeds `Succeeds` with some data `d`. -/
theorem run_eq_ok {outcome : Outcome} (h : x.run net peer request c = (.ok outcome, x', c')) :
    ∃ d, x.Succeeds net peer request c d outcome x' c' := by
  have hreading := reading_connect net request x c
  have hexchange := connect_eq net request x c
  unfold run at h
  rcases hconnect : x.connect net request c with ⟨e | ⟨n, connection⟩, x₁, c₁⟩ <;>
    rw [hconnect] at h hreading hexchange
  · cases h
  obtain ⟨hslab, hparser⟩ := hexchange
  simp only at h hreading hslab hparser
  rcases htransfer : x₁.transfer net peer request n connection.link c₁
    with ⟨e | relayed, x₂, c₂⟩ <;>
    rw [htransfer] at h
  · cases h
  obtain ⟨body, s, r, t', hdone, rfl, rfl⟩ := transfer_eq_ok htransfer
  obtain ⟨hsends, hisBody, hstream, hrelays, hnetwork, hbuffer, hparser', houtgoing⟩ := hdone
  simp only [Transfer.relay, hreading, hslab, hparser] at hsends hstream hrelays
  cases h
  refine ⟨⟨n, connection, c₁, body, s, relayed, r⟩, ⟨x₁, hconnect⟩, hsends,
    hisBody, hstream, hrelays, hnetwork,
    houtgoing, hbuffer, hparser', rfl, ?_, ?_⟩
  · exact congrArg (isReusable relayed) hparser'
  · rw [← hparser']
    rfl

/-- An exchange of a request without a body succeeds if `connect` finds a connection, what is
written to that is taken, and a response can be relayed from it. -/
theorem exists_run_eq_ok (peer : HostAddress) {n : Node} {connection : Connection} {x₁ : Exchange}
    {c₁ : Conversation σ} (hconnect : x.connect net request c = (.ok (n, connection), x₁, c₁))
    (hbody : request.body = .none)
    (hwrite : ∀ bs s, ∃ s', (net.writer connection.link).writeAll bs s = (.ok (), s'))
    (hflush : ∀ s, ∃ s', (net.writer connection.link).flush s = (.ok (), s'))
    (hrelay : ∀ s, ∃ relayed r, ResponseRelay.run request.isHead
      { backend := net.incoming connection.link s, client := c.reading.client.outgoing,
        buffer := x.slab.buffer.clear, parser := x.parser.recycle } = (.ok relayed, r)) :
    ∃ outcome x' c', x.run net peer request c = (.ok outcome, x', c') := by
  have hreading := reading_connect net request x c
  obtain ⟨hslab, hparser⟩ := connect_eq net request x c
  rw [hconnect] at hreading hslab hparser
  simp only at hreading hslab hparser
  rw [← hreading, ← hslab, ← hparser] at hrelay
  obtain ⟨relayed, t', hrun⟩ := Transfer.exists_run_eq_ok
    (t :=
      { reading := c₁.reading, network := (requestName net request c₁.network).2,
        buffer := x₁.slab.buffer, parser := x₁.parser })
    (request.forwarded c₁.reading.buffer.data
      (extraHeaders request n peer (requestName net request c₁.network).1))
    hbody hwrite hflush hrelay
  have htransfer : (x₁.transfer net peer request n connection.link c₁).1 = .ok relayed :=
    congrArg Prod.fst hrun
  unfold run
  rw [hconnect]
  simp only
  rcases hend : x₁.transfer net peer request n connection.link c₁ with ⟨e | relayed', x₂, c₂⟩ <;>
    rw [hend] at htransfer
  · cases htransfer
  · exact ⟨_, _, _, rfl⟩

/-- An exchange that fails gives no connection back: its queues are those that `connect` left. -/
theorem idle_of_error {e : ExchangeFailure} (h : x.run net peer request c = (.error e, x', c')) :
    c'.proxy.idle = (x.connect net request c).2.2.proxy.idle := by
  unfold run at h
  rcases hconnect : x.connect net request c with ⟨e | ⟨n, connection⟩, x₁, c₁⟩ <;>
    rw [hconnect] at h
  · cases h
    rfl
  simp only at h
  have hproxy : (x₁.transfer net peer request n connection.link c₁).2.2.proxy = c₁.proxy := rfl
  rcases htransfer : x₁.transfer net peer request n connection.link c₁
    with ⟨e | relayed, x₂, c₂⟩ <;>
    rw [htransfer] at h hproxy <;> cases h
  exact congrArg (·.idle) hproxy

end

end Exchange

end ReverseProxy.Relay
