import ReverseProxy.Operation.Mode
import ReverseProxy.Operation.Proxy

/-!
# Reports

What administrators are shown of the proxy at work.
-/

namespace ReverseProxy.Admin

open Fleet Operation

/-- The proxy and the mode of its endpoint. -/
structure State where
  proxy : Proxy
  mode : Mode := .running

/-- The version of the proxy. -/
def version : String := "0.1.0"

/-- How a mode is called. -/
def modeName : Mode → String
  | .running => "running"
  | .paused => "paused"
  | .stopped => "stopped"

/-- How a status is called. -/
def statusName : Status → String
  | .up => "UP"
  | .down => "DOWN"

/-- How a protocol is called. -/
def protocolName : Protocol → String
  | .plain => "plain"
  | .secure => "secure"

/-- The proxy as a whole. -/
def State.report (s : State) : Datum :=
  let nodes := s.proxy.registry.nodes
  .record [("version", .text version), ("endpoint", .text (modeName s.mode)),
    ("nodes", .ofNat nodes.length),
    ("nodes_up", .ofNat (nodes.filter s.proxy.registry.isUp).length),
    ("idle_backend_connections", .ofNat s.proxy.idle.totalIdle),
    ("buffers_allocated", .ofNat s.proxy.buffers.allocated),
    ("buffers_idle", .ofNat s.proxy.buffers.idle)]

/-- The node `n` and its state, for an administrator. -/
def reportNode (p : Proxy) (n : Node) : Datum :=
  let state := p.registry.stateOf n.id
  .record [("id", .ofNat n.id), ("route", .text n.route), ("host", .text n.record.host),
    ("port", .ofNat n.record.port), ("balancer", .text n.record.balancer),
    ("protocol", .text (protocolName n.protocol)), ("status", .text (statusName state.status)),
    ("load", .ofNat n.record.load), ("elected", .ofNat state.elected),
    ("lb_status", .ofNat (p.registry.pressure n)),
    ("idle_connections", .ofNat (p.idle.idleCount n.id))]

/-- The balancer `b`, for an administrator. -/
def reportBalancer (b : BalancerRecord) : Datum :=
  .record [("name", .text b.name), ("sticky_session", .bool b.sticky),
    ("sticky_session_cookie", .text b.cookie),
    ("sticky_session_force", .bool b.force), ("max_attempts", .ofNat b.maxAttempts)]

/-- The node `n` after a mark, and whether its status `changed`. -/
def reportChange (r : Registry) (n : Node) (changed : Bool) : Datum :=
  .record [("route", .text n.route), ("status", .text (statusName (r.stateOf n.id).status)),
    ("changed", .bool changed)]

end ReverseProxy.Admin
