import ReverseProxy.Relay.Exchange

/-!
# Serving a client

Requests are taken from a client connection and served one after another, until the connection ends,
a request cannot be read, an exchange fails, or either side does not want to go on.
-/

namespace ReverseProxy.Relay

open Fleet Message Wire

variable {σ : Type}

/-- What happened on a client connection. -/
inductive Episode where
  /-- A request was served, or failed to be. -/
  | exchange (result : Except ExchangeFailure Outcome) (node : Option Node) (phase : Phase)
  /-- A request could not be read. -/
  | unreadable (e : ExchangeFailure)

/-- Serves the requests of a client with `x`, which is ready for the first of them. -/
def serveRequests (net : Network σ) (peer : HostAddress) (x : Exchange) (c : Conversation σ) :
    List Episode × Exchange × Conversation σ :=
  match _hn : c.reading.next with
  | (.error e, reading) => ([.unreadable e], x, { c with reading })
  | (.ok none, reading) => ([], x, { c with reading })
  | (.ok (some request), reading) =>
      match _hr : x.run net peer request { c with reading } with
      | (.error e, x, c) => ([.exchange (.error e) x.node x.phase], x, c)
      | (.ok outcome, x', c') =>
          let episode := Episode.exchange (.ok outcome) x'.node x'.phase
          if outcome.clientKeepAlive then
            let (episodes, last) := serveRequests net peer x'.reset c'
            (episode :: episodes, last)
          else ([episode], x', c')
termination_by c.reading.remaining
decreasing_by
  have h1 := c.reading.remaining_next_le
  rw [_hn] at h1
  have h2 := RequestReading.next_eq_some _hn
  have h3 := Exchange.remaining_run_le _hr
  simp only [RequestReading.remaining, Buffer.size] at h1 h3 ⊢
  omega

/-- Serves a client connection, with one buffer of the pool for what arrives on it and an exchange
that `lease`s another. Both go back to the pool at the end; what has arrived from the client and was
not used is lost. -/
def serve (net : Network σ) (peer : HostAddress) (client : Client) (proxy : Operation.Proxy)
    (network : σ) :
    List Episode × Conversation σ :=
  let (slab, buffers) := proxy.buffers.take
  let (x, buffers) := Exchange.lease buffers
  let (episodes, x, c) := serveRequests net peer x
    { reading := { client, buffer := slab.buffer }, proxy := { proxy with buffers }, network }
  let buffers := (c.proxy.buffers.release x.slab).release { slab with buffer := c.reading.buffer }
  (episodes, { c with proxy := { c.proxy with buffers } })

end ReverseProxy.Relay
