import ReverseProxy.Fleet.Election
import ReverseProxy.Message.Defect
import ReverseProxy.Wire.Source
import ReverseProxy.Wire.Sink

/-!
# How an exchange fails

An exchange of a request for a response fails because there is no node for it, because the node
cannot be reached, because one of the two connections fails, or because a message is malformed.
-/

namespace ReverseProxy.Relay

open Wire

/-- The two connections of an exchange. -/
inductive Side where
  | client
  | backend
deriving DecidableEq, Repr

/-- How a side is called in messages. -/
def Side.name : Side → String
  | .client => "client"
  | .backend => "backend"

/-- How a connection fails. -/
inductive TransportFailure where
  | failed (side : Side) (text : String)
  | timedOut (side : Side)
  /-- The connection was closed in the middle of a message. -/
  | closed (side : Side)
deriving DecidableEq, Repr

namespace TransportFailure

/-- The connection that failed. -/
def side : TransportFailure → Side
  | .failed side _ | .timedOut side | .closed side => side

/-- The wording of a failure, which names its `side`. -/
def message : TransportFailure → String
  | .failed side text => side.name ++ " I/O error: " ++ text
  | .timedOut side => side.name ++ " timed out"
  | .closed side => side.name ++ " closed the connection mid-message"

/-- The failure of a connection on which writing ended in a `Fault`. -/
def ofFault (side : Side) : Fault → TransportFailure
  | .failed text => .failed side text
  | .timedOut => .timedOut side

end TransportFailure

/-- Why a node cannot be reached. -/
inductive ConnectFailure where
  | failed (address text : String)
  | timedOut (address : String)
  /-- The connection was opened, and its encryption could not be agreed on. -/
  | handshake (address text : String)
  /-- The host of a node that is reached by an encrypted connection is no name of a server. -/
  | serverName (host : String)
  /-- The connection would have to be encrypted, and nobody is trusted to vouch for the node. -/
  | noTrustRoots (route : String)
deriving DecidableEq, Repr

/-- The wording of a failure, which names the address, the host or the route that could not be
used. -/
def ConnectFailure.message : ConnectFailure → String
  | .failed address text => "connect to " ++ address ++ " failed: " ++ text
  | .timedOut address => "connect to " ++ address ++ " timed out"
  | .handshake address text => "TLS handshake with " ++ address ++ " failed: " ++ text
  | .serverName host => "invalid TLS server name '" ++ host ++ "'"
  | .noTrustRoots route => "secure node '" ++ route ++ "' requires backend_tls.ca_path"

/-- Why an exchange fails. -/
inductive ExchangeFailure where
  | selection (e : Fleet.SelectionFailure)
  | connection (e : ConnectFailure)
  | transport (e : TransportFailure)
  | defect (e : Message.Defect)
deriving DecidableEq, Repr

/-- The wording of a failure. -/
def ExchangeFailure.message : ExchangeFailure → String
  | .selection e => e.message
  | .connection e => e.message
  | .transport e => e.message
  | .defect e => "protocol error: " ++ e.message

/-- The failure of a reading on `side` that got no octets. Octets here are the empty string that
ends a connection. -/
def failureOfReceived (side : Side) : Received → ExchangeFailure
  | .octets _ => .transport (.closed side)
  | .failed text => .transport (.failed side text)
  | .timedOut => .transport (.timedOut side)

/-- The failure of writing to `side`. -/
def failureOfFault (side : Side) (f : Fault) : ExchangeFailure := .transport (.ofFault side f)

end ReverseProxy.Relay
