import ReverseProxy.Data.Datum

/-!
# Records of nodes and balancers

A backend is registered by a `NodeRecord`.  A `BalancerRecord` says how the requests of a session
find the node that the session is bound to; nodes refer to it by name.  Both are read from data and
written as data.
-/

namespace ReverseProxy.Fleet

/-- The balancer of a node that names none. -/
def defaultBalancer : String := "mycluster"

/-- What is known of a backend. -/
structure NodeRecord where
  /-- The name under which sessions are bound to the node. -/
  route : String
  host : String
  port : Nat
  /-- The name of the balancer that the node belongs to. -/
  balancer : String := defaultBalancer
  /-- The connection to the node is encrypted. -/
  secure : Bool := false
  /-- The capacity that the node advertises: twice the `load`, twice the share. -/
  load : Nat := 100
  /-- Small writes to the node go out at once. -/
  flushPackets : Bool := false
  /-- Advertised by the node and kept with it. -/
  pingSecs : Nat := 10
  /-- Advertised by the node and kept with it. -/
  ttlSecs : Nat := 60
  /-- The time allowed for one read or write; zero for the general one. -/
  timeoutSecs : Nat := 0
deriving DecidableEq, Repr

namespace NodeRecord

/-- Takes over the field `name`. -/
def put (r : NodeRecord) (name : String) (d : Datum) : Except Misfit NodeRecord :=
  match name with
  | "route" => d.asText.map fun route => { r with route }
  | "host" => d.asText.map fun host => { r with host }
  | "port" => (d.asNat 65536).map fun port => { r with port }
  | "balancer" => d.asText.map fun balancer => { r with balancer }
  | "secure" => d.asBool.map fun secure => { r with secure }
  | "load" => (d.asNat 4294967296).map fun load => { r with load }
  | "flush_packets" => d.asBool.map fun flushPackets => { r with flushPackets }
  | "ping_secs" => (d.asNat 18446744073709551616).map fun pingSecs => { r with pingSecs }
  | "ttl_secs" => (d.asNat 18446744073709551616).map fun ttlSecs => { r with ttlSecs }
  | "timeout_secs" => (d.asNat 18446744073709551616).map fun timeoutSecs => { r with timeoutSecs }
  | _ => d.skip.map fun _ => r

/-- How a node record is written down. -/
def shape : RecordShape NodeRecord where
  names := ["route", "host", "port", "balancer", "secure", "load", "flush_packets",
    "ping_secs", "ttl_secs", "timeout_secs"]
  required := 3
  initial := { route := "", host := "", port := 0 }
  put := put

/-- The record with all its fields. -/
def toDatum (r : NodeRecord) : Datum :=
  .record [("route", .text r.route), ("host", .text r.host), ("port", .ofNat r.port),
    ("balancer", .text r.balancer), ("secure", .bool r.secure), ("load", .ofNat r.load),
    ("flush_packets", .bool r.flushPackets), ("ping_secs", .ofNat r.pingSecs),
    ("ttl_secs", .ofNat r.ttlSecs), ("timeout_secs", .ofNat r.timeoutSecs)]

end NodeRecord

/-- A policy for the sessions of a group of nodes. -/
structure BalancerRecord where
  name : String := defaultBalancer
  /-- Sessions are bound to nodes. -/
  sticky : Bool := true
  /-- The cookie that carries the session value. -/
  cookie : String := "JSESSIONID"
  /-- The path parameter that carries the session value if there is no cookie. -/
  path : String := "jsessionid"
  /-- A request of a session whose node is down fails. -/
  force : Bool := false
  maxAttempts : Nat := 1
deriving DecidableEq, Repr

namespace BalancerRecord

/-- The policy of a balancer of which only the name is known. -/
def named (name : String) : BalancerRecord := { name }

/-- Takes over the field `name`. -/
def put (r : BalancerRecord) (name : String) (d : Datum) : Except Misfit BalancerRecord :=
  match name with
  | "name" => d.asText.map fun name => { r with name }
  | "sticky_session" => d.asBool.map fun sticky => { r with sticky }
  | "sticky_session_cookie" => d.asText.map fun cookie => { r with cookie }
  | "sticky_session_path" => d.asText.map fun path => { r with path }
  | "sticky_session_force" => d.asBool.map fun force => { r with force }
  | "max_attempts" => (d.asNat 4294967296).map fun maxAttempts => { r with maxAttempts }
  | _ => d.skip.map fun _ => r

/-- How a balancer record is written down. -/
def shape : RecordShape BalancerRecord where
  names := ["name", "sticky_session", "sticky_session_cookie", "sticky_session_path",
    "sticky_session_force", "max_attempts"]
  required := 0
  initial := {}
  put := put

/-- The record with all its fields. -/
def toDatum (r : BalancerRecord) : Datum :=
  .record [("name", .text r.name), ("sticky_session", .bool r.sticky),
    ("sticky_session_cookie", .text r.cookie),
    ("sticky_session_path", .text r.path), ("sticky_session_force", .bool r.force),
    ("max_attempts", .ofNat r.maxAttempts)]

end BalancerRecord

end ReverseProxy.Fleet
