import ReverseProxy.Settings.Schema
import ReverseProxy.Text.Blank
import ReverseProxy.Wire.SocketAddress

/-!
# Validation of settings

Settings that can be read may still make no sense.  All that is wrong is reported, in the order of
the settings.
-/

namespace ReverseProxy.Settings

open Fleet

/-- What can be wrong with settings. Problems with a node name its route. -/
inductive Problem where
  | bindAddress (address : String)
  | zeroBufferSize
  | zeroMaxConnections
  | zeroHealthInterval
  | emptyRoute
  | duplicateRoute (route : String)
  | duplicateBalancer (name : String)
  | emptyHost (route : String)
  | zeroPort (route : String)
deriving DecidableEq, Repr

/-- The wording of a problem. -/
def Problem.message : Problem → String
  | .bindAddress address => "invalid bind address '" ++ address ++ "'"
  | .zeroBufferSize => "buffers.buffer_size must be > 0"
  | .zeroMaxConnections => "listener.max_connections must be > 0"
  | .zeroHealthInterval => "health_check.interval_secs must be > 0"
  | .emptyRoute => "node route must not be empty"
  | .duplicateRoute route => "duplicate node route '" ++ route ++ "'"
  | .duplicateBalancer name => "duplicate balancer '" ++ name ++ "'"
  | .emptyHost route => "node '" ++ route ++ "' has an empty host"
  | .zeroPort route => "node '" ++ route ++ "' has port 0"

/-- A problem, if there is one. -/
def problemIf (b : Bool) (p : Problem) : List Problem := if b then [p] else []

/-- What is wrong with an address to receive connections at, which `SocketAddress.parse?` has to
read. -/
def addressProblems (address : String) : List Problem :=
  problemIf (Wire.SocketAddress.parse? address).isNone (.bindAddress address)

/-- What is wrong with a node, its route apart. -/
def nodeProblems (n : NodeRecord) : List Problem :=
  problemIf (Text.isAllBlank n.host) (.emptyHost n.route) ++
    problemIf (n.port == 0) (.zeroPort n.route)

/-- The names of balancers that are in `seen` or were used by an earlier balancer. -/
def balancerProblems : List String → List BalancerRecord → List Problem
  | _, [] => []
  | seen, b :: bs =>
      problemIf (seen.contains b.name) (.duplicateBalancer b.name) ++
      balancerProblems (b.name :: seen) bs

/-- What is wrong with the route of a node, given the routes in `seen`. -/
def routeProblems (seen : List String) (route : String) : List Problem :=
  if route = "" then [.emptyRoute] else problemIf (seen.contains route) (.duplicateRoute route)

/-- What is wrong with nodes, given the routes in `seen`. -/
def nodesProblems : List String → List NodeRecord → List Problem
  | _, [] => []
  | seen, n :: ns =>
      routeProblems seen n.route ++ nodeProblems n ++ nodesProblems (n.route :: seen) ns

/-- All that is wrong with settings. -/
def problems (c : Config) : List Problem :=
  addressProblems c.listener.bindAddress ++ addressProblems c.admin.bindAddress ++
  (if c.observability.metricsEnabled then addressProblems c.observability.metricsAddress else []) ++
  problemIf (c.buffers.bufferSize == 0) .zeroBufferSize ++
  problemIf (c.listener.maxConnections == 0) .zeroMaxConnections ++
  problemIf (c.healthCheck.intervalSecs == 0) .zeroHealthInterval ++
  balancerProblems [] c.balancers ++ nodesProblems [] c.nodes

end ReverseProxy.Settings
