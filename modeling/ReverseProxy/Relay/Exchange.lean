import ReverseProxy.Message.Forwarding
import ReverseProxy.Operation.Proxy
import ReverseProxy.Relay.Network
import ReverseProxy.Relay.RequestBodyRelay
import ReverseProxy.Relay.RequestReading
import ReverseProxy.Relay.ResponseRelay
import ReverseProxy.Wire.SocketAddress

/-!
# Exchanges

An exchange forwards one request to a node and relays the response.  It has three parts: it finds a
node and a connection to it (`Exchange.connect`), it transfers the request and the response
(`Exchange.transfer`), and it puts the connection back if the node can be expected to serve another
request on it (`Exchange.settle`).  Membership may change between the parts.

An exchange that fails closes its connection to the backend.
-/

namespace ReverseProxy.Relay

open Fleet Message Operation Wire

variable {σ : Type}

/-- A client connection, the proxy that serves it and the network behind the proxy. -/
structure Conversation (σ : Type) where
  reading : RequestReading
  proxy : Proxy
  network : σ

/-- A connection to `n`: one that waits in the idle pool and is still open, or a new one, made
`secure`. The answer says whether the connection has been used before, as its second component. -/
def Network.checkout (net : Network σ) (n : Node) (p : Proxy) (s : σ) :
    Except ConnectFailure (Connection × Bool) × Proxy × σ :=
  let (waiting?, idle) := p.idle.take (net.isOpen s) n
  let p := { p with idle }
  match waiting? with
  | some connection => (.ok (connection, true), p, s)
  | none =>
      match net.connect n s with
      | (.error e, s) => (.error e, p, s)
      | (.ok link, s) =>
          match net.secure n p.trustRoots link s with
          | (.error e, s) => (.error e, p, s)
          | (.ok (), s) => (.ok (n.connection link, false), p, s)

/-- How far an exchange has come. -/
inductive Phase where
  | waiting
  | done
  | failed
deriving DecidableEq, Repr

/-- What is needed for the exchanges on a client connection, one after another. -/
structure Exchange where
  phase : Phase := .waiting
  /-- The node that was chosen for the request. -/
  node : Option Node := none
  /-- The buffer for what arrives from the backend. -/
  slab : Slab
  parser : ResponseParser
deriving DecidableEq, Repr

/-- What an exchange did. -/
structure Outcome where
  route : String
  status : Nat
  framing : Framing
  /-- How many octets of the body were relayed, `Relayed.body`. -/
  body : Nat
  headerLength : Nat
  /-- The client may send another request: the request allows it, the `framing` is delimited, and
  the response does not close the connection. -/
  clientKeepAlive : Bool
  /-- The connection was offered to the idle pool, see `isReusable`. -/
  backendRecycled : Bool
deriving DecidableEq, Repr

/-- The connections and buffers of a transfer. -/
structure Transfer (σ : Type) where
  reading : RequestReading
  network : σ
  /-- What has arrived from the backend and not been relayed to the client. -/
  buffer : Buffer
  parser : ResponseParser

namespace Transfer

/-- Drops the head of the request, `n` octets, from the buffer. -/
def dropHead (n : Nat) (t : Transfer σ) : Transfer σ :=
  { t with reading := { t.reading with buffer := t.reading.buffer.consume n } }

/-- Writes the octets `bs` to the backend on `link`. -/
def send (net : Network σ) (link : LinkId) (bs : Bytes) (t : Transfer σ) :
    Except ExchangeFailure Unit × Transfer σ :=
  match (net.writer link).writeAll bs t.network with
  | (.error f, network) => (.error (failureOfFault .backend f), { t with network })
  | (.ok (), network) => (.ok (), { t with network })

/-- Forwards the body of the request on `link`, and answers how many octets it has. -/
def sendBody (net : Network σ) (link : LinkId) (body : RequestBody) (t : Transfer σ) :
    Except ExchangeFailure Nat × Transfer σ :=
  let (result, r) := RequestBodyRelay.run (net.writer link) body
    { client := t.reading.client, buffer := t.reading.buffer, backend := t.network }
  (result, { t with reading := { client := r.client, buffer := r.buffer }, network := r.backend })

/-- Makes sure that what was written on `link` is on its way. -/
def flush (net : Network σ) (link : LinkId) (t : Transfer σ) :
    Except ExchangeFailure Unit × Transfer σ :=
  match (net.writer link).flush t.network with
  | (.error f, network) => (.error (failureOfFault .backend f), { t with network })
  | (.ok (), network) => (.ok (), { t with network })

/-- Relays the response that arrives on `link`. -/
def receive (net : Network σ) (link : LinkId) (headRequest : Bool) (t : Transfer σ) :
    Except ExchangeFailure Relayed × Transfer σ :=
  let (result, r) := ResponseRelay.run headRequest
    { backend := net.incoming link t.network, client := t.reading.client.outgoing,
      buffer := t.buffer.clear, parser := t.parser.recycle }
  (result, {
    reading := { t.reading with client := { t.reading.client with outgoing := r.client } }
    network := net.setIncoming link r.backend t.network
    buffer := r.buffer
    parser := r.parser })

/-- Forwards a request, with `head` in place of the head that stands at the front of the buffer, and
relays the response. -/
def run (net : Network σ) (link : LinkId) (head : Bytes) (request : RequestHead) (t : Transfer σ) :
    Except ExchangeFailure Relayed × Transfer σ :=
  match (t.dropHead request.length).send net link head with
  | (.error e, t) => (.error e, t)
  | (.ok (), t) =>
      match t.sendBody net link request.body with
      | (.error e, t) => (.error e, t)
      | (.ok _, t) =>
          match t.flush net link with
          | (.error e, t) => (.error e, t)
          | (.ok (), t) => t.receive net link request.isHead

/-! ### What is left to read -/

@[simp] theorem reading_send (net : Network σ) (link : LinkId) (bs : Bytes) (t : Transfer σ) :
    (t.send net link bs).2.reading = t.reading := by
  unfold send
  split <;> rfl

@[simp] theorem reading_flush (net : Network σ) (link : LinkId) (t : Transfer σ) :
    (t.flush net link).2.reading = t.reading := by
  unfold flush
  split <;> rfl

theorem remaining_sendBody_le (net : Network σ) (link : LinkId) (body : RequestBody)
    (t : Transfer σ) :
    (t.sendBody net link body).2.reading.remaining ≤ t.reading.remaining :=
  RequestBodyRelay.remaining_run_le (net.writer link) body
    { client := t.reading.client, buffer := t.reading.buffer, backend := t.network }

@[simp] theorem remaining_receive (net : Network σ) (link : LinkId) (headRequest : Bool)
    (t : Transfer σ) :
    (t.receive net link headRequest).2.reading.remaining = t.reading.remaining := rfl

theorem remaining_dropHead (n : Nat) (t : Transfer σ) :
    (t.dropHead n).reading.remaining = t.reading.client.weight + (t.reading.buffer.size - n) := by
  simp [dropHead, RequestReading.remaining, Buffer.size_consume]

/-- A transfer uses at least the `request.length` octets of the head up. -/
theorem remaining_run_le (net : Network σ) (link : LinkId) (head : Bytes)
    (request : RequestHead) (t : Transfer σ) :
    (t.run net link head request).2.reading.remaining ≤
      t.reading.client.weight + (t.reading.buffer.size - request.length) := by
  rw [← remaining_dropHead]
  unfold run
  have h1 :=
    congrArg RequestReading.remaining (reading_send net link head (t.dropHead request.length))
  split
  · rename_i hs
    rw [hs] at h1
    exact Nat.le_of_eq h1
  · rename_i t1 hs
    rw [hs] at h1
    have h2 := remaining_sendBody_le net link request.body t1
    split
    · rename_i hb
      rw [hb] at h2
      exact h1 ▸ h2
    · rename_i t2 hb
      rw [hb] at h2
      have h3 := congrArg RequestReading.remaining (reading_flush net link t2)
      split <;> rename_i hf <;> rw [hf] at h3 <;> exact h1 ▸ h3 ▸ h2

end Transfer

namespace Exchange

/-- The name under which a request is reported. -/
def requestIdHeader : String := "X-Request-Id"

/-- The headers that the proxy adds to a request: `X-Forwarded-For`, and unless the client has sent
them `X-Request-Id` and `Host`. -/
def extraHeaders (request : RequestHead) (n : Node) (peer : HostAddress)
    (requestId : String) : List Header :=
  [{ name := "X-Forwarded-For", value := peer.write }] ++
  (if (request.header? requestIdHeader).isSome then []
    else [{ name := requestIdHeader, value := requestId }]) ++
  (if (request.header? "host").isSome then [] else [{ name := "Host", value := n.address }])

/-- A new exchange, with a buffer from the pool and a parser with the limit `pool.bufferSize`. -/
def lease (pool : BufferPool) : Exchange × BufferPool :=
  let (slab, pool') := pool.take
  ({ slab, parser := .new pool.bufferSize }, pool')

/-- The exchange made ready for the next request: it keeps its buffer and its parser, emptied. -/
def reset (x : Exchange) : Exchange :=
  { phase := .waiting, node := none, slab := { x.slab with buffer := x.slab.buffer.clear },
    parser := x.parser.recycle }

/-- Resolves the node for a request, and checks a connection to it out. A node for which that fails
is marked down. -/
def connect (net : Network σ) (request : RequestHead) (x : Exchange) (c : Conversation σ) :
    Except ExchangeFailure (Node × Connection) × Exchange × Conversation σ :=
  match c.proxy.registry.resolve request with
  | (.error e, registry) =>
      (.error (.selection e), x, { c with proxy := { c.proxy with registry } })
  | (.ok n, registry) =>
      let x := { x with node := some n }
      match net.checkout n { c.proxy with registry } c.network with
      | (.error e, proxy, network) =>
          let proxy := { proxy with registry := (proxy.registry.markDown n).2 }
          (.error (.connection e), x, { c with proxy, network })
      | (.ok (connection, _), proxy, network) => (.ok (n, connection), x, { c with proxy, network })

/-- Transfers a request and its response over the connection `link` to `n`. -/
def transfer (net : Network σ) (peer : HostAddress) (request : RequestHead)
    (n : Node) (link : LinkId) (x : Exchange) (c : Conversation σ) :
    Except ExchangeFailure Relayed × Exchange × Conversation σ :=
  let (requestId, network) :=
    if (request.header? requestIdHeader).isSome then ("", c.network) else net.requestId c.network
  let head := request.forwarded c.reading.buffer.data (extraHeaders request n peer requestId)
  let (result, t) := Transfer.run net link head request
    { reading := c.reading, network, buffer := x.slab.buffer, parser := x.parser }
  (result, { x with slab := { x.slab with buffer := t.buffer }, parser := t.parser },
    { c with reading := t.reading, network := t.network })

/-- Another request can be sent on a connection after `relayed`: the body was delimited, the backend
keeps the connection open, and nothing has arrived beyond the end. -/
def isReusable (relayed : Relayed) (parser : ResponseParser) : Bool :=
  relayed.framing.isDelimited && parser.keepAlive && !relayed.excess

/-- Puts the connection back if it `isReusable`, and says what the exchange did. -/
def settle (net : Network σ) (request : RequestHead) (n : Node) (connection : Connection)
    (relayed : Relayed) (x : Exchange) (c : Conversation σ) : Outcome × Conversation σ :=
  let reusable := isReusable relayed x.parser
  let idle :=
    if reusable then c.proxy.idle.recycle (net.isOpen c.network) n connection else c.proxy.idle
  ({ route := n.route
     status := x.parser.status
     framing := relayed.framing
     body := relayed.body
     headerLength := x.parser.headerLength
     clientKeepAlive :=
       request.keepAlive && relayed.framing.isDelimited && !x.parser.connectionClose
     backendRecycled := reusable },
    { c with proxy := { c.proxy with idle } })

/-- Forwards a request, the head of which stands at the front of the buffer, and relays the
response: `connect`, `transfer`, `settle`, the first two of which may fail. -/
def run (net : Network σ) (peer : HostAddress) (request : RequestHead)
    (x : Exchange) (c : Conversation σ) :
    Except ExchangeFailure Outcome × Exchange × Conversation σ :=
  match x.connect net request c with
  | (.error e, x, c) => (.error e, { x with phase := .failed }, c)
  | (.ok (n, connection), x, c) =>
      match x.transfer net peer request n connection.link c with
      | (.error e, x, c) => (.error e, { x with phase := .failed }, c)
      | (.ok relayed, x, c) =>
          let (outcome, c) := x.settle net request n connection relayed c
          (.ok outcome, { x with phase := .done }, c)

/-! ### What is left to read -/

@[simp] theorem reading_connect (net : Network σ) (request : RequestHead)
    (x : Exchange) (c : Conversation σ) :
    (x.connect net request c).2.2.reading = c.reading := by
  unfold connect
  split
  · rfl
  · simp only
    split <;> rfl

theorem remaining_transfer_le (net : Network σ) (peer : HostAddress)
    (request : RequestHead) (n : Node) (link : LinkId) (x : Exchange) (c : Conversation σ) :
    (x.transfer net peer request n link c).2.2.reading.remaining ≤
      c.reading.client.weight + (c.reading.buffer.size - request.length) :=
  Transfer.remaining_run_le net link _ request
    { reading := c.reading, network := _, buffer := _, parser := _ }

/-- An exchange that succeeds uses at least the `request.length` octets of the head up. -/
theorem remaining_run_le {net : Network σ} {peer : HostAddress} {request : RequestHead}
    {x x' : Exchange} {c c' : Conversation σ} {outcome : Outcome}
    (h : x.run net peer request c = (.ok outcome, x', c')) :
    c'.reading.remaining ≤ c.reading.client.weight + (c.reading.buffer.size - request.length) := by
  unfold run at h
  have h1 := reading_connect net request x c
  split at h
  · simp at h
  · rename_i n connection x1 c1 hc
    rw [hc] at h1
    simp only at h1
    have h2 := remaining_transfer_le net peer request n connection.link x1 c1
    split at h
    · simp at h
    · rename_i relayed x2 c2 ht
      rw [ht, h1] at h2
      simp only [Prod.mk.injEq] at h
      obtain ⟨_, _, rfl⟩ := h
      exact h2

end Exchange

end ReverseProxy.Relay
