import ReverseProxy.Fleet.IdlePool
import ReverseProxy.Relay.Failure
import ReverseProxy.Settings.TrustRoots

/-!
# The network behind the proxy

The proxy reaches its backends through a `Network`: it opens connections, writes to them and reads
from them.  What the backends do about what is written to them, and when they close connections, is
up to the network; a state of type `σ` holds everything about it that changes.
-/

namespace ReverseProxy.Relay

open Fleet Settings Wire

/-- How the backends are reached. What is outside the proxy is a state of type `σ`. -/
structure Network (σ : Type) where
  /-- Opens a connection to where a node is. -/
  connect : Node → σ → Except ConnectFailure LinkId × σ
  /-- Agrees on the encryption of a new connection to a node, for which one of the trusted has to
  vouch.  It fails with `.serverName` when nobody can vouch for the host of the node. -/
  handshake : Node → TrustRoots → LinkId → σ → Except ConnectFailure Unit × σ :=
    fun _ _ _ s => (.ok (), s)
  /-- The writing side of the connection `LinkId`. -/
  writer : LinkId → Writer σ
  /-- What arrives on a connection from now on. The last `.silence` stands for a connection that
  stays open. -/
  incoming : LinkId → σ → Source
  /-- Leaves the `Source` as what has not been read on a connection. -/
  setIncoming : LinkId → Source → σ → σ
  /-- A name for a request that has none. Names are not given twice. -/
  requestId : σ → String × σ

namespace Network

variable {σ : Type}

/-- Makes a new connection ready for use.  A node that is `.secure` can be reached only if there are
`trustRoots`. -/
def secure (net : Network σ) (n : Node) (trustRoots : Option TrustRoots) (link : LinkId) (s : σ) :
    Except ConnectFailure Unit × σ :=
  match n.protocol, trustRoots with
  | .plain, _ => (.ok (), s)
  | .secure, none => (.error (.noTrustRoots n.route), s)
  | .secure, some roots => net.handshake n roots link s

/-- The connection `link` can be used for another request: nothing has arrived on it, and neither
has its end. -/
def isOpen (net : Network σ) (s : σ) (link : LinkId) : Bool :=
  match net.incoming link s with
  | .silence :: _ => true
  | _ => false

end Network

end ReverseProxy.Relay
