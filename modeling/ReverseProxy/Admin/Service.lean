import ReverseProxy.Admin.MediaType
import ReverseProxy.Admin.Report
import ReverseProxy.Admin.Resource
import ReverseProxy.Data.Json
import ReverseProxy.Settings.Validation

/-!
# The administration service

Nodes and balancers are registered and the endpoint is controlled by HTTP requests, each of which
carries a key.  A request that is not answered with success changes nothing: everything that can be
wrong with it is found before anything is done.
-/

namespace ReverseProxy.Admin

open Fleet Operation

/-- A request to the administration service. -/
structure Request where
  method : String
  address : String
  /-- The value of the first `Authorization` header. -/
  authorization : Option Bytes := none
  /-- The value of the `Content-Type` header. -/
  contentType : Option Bytes := none
  body : Bytes := []
deriving DecidableEq, Repr

/-- What the service answers: a status code, and what it says in so many words. -/
structure Reply where
  code : Nat
  content : Option Datum := none

namespace Reply

/-- The reply to a request that was served, with the datum `d` to show. -/
def shows (d : Datum) : Reply := { code := 200, content := some d }

/-- A request was served. -/
def done : Reply := { code := 204 }

/-- The reply to a request that was not served, with the `reason`. -/
def refused (code : Nat) (reason : String) : Reply :=
  { code, content := some (.record [("error", .text reason)]) }

/-- The code of the reply is one of success, from 200 to 299. -/
def isSuccess (r : Reply) : Bool := 200 ≤ r.code && r.code < 300

end Reply

/-- A header value as text, if it consists of visible characters, spaces and tabs. -/
def visibleText? (value : Bytes) : Option String :=
  if value.all fun b => (32 ≤ b && b < 127) || b == Octet.htab then Utf8.decode? value else none

/-- The request carries the `key`, as a `Bearer` in its authorization. -/
def Request.isAuthorized (r : Request) (key : String) : Bool :=
  (r.authorization.bind visibleText?) == some ("Bearer " ++ key)

/-- The `Content-Type` of the request says that its body is JSON. -/
def Request.announcesJson (r : Request) : Bool :=
  ((r.contentType.bind visibleText?).bind MediaType.parse?).any MediaType.isJson

/-- The most octets that the body of a request may have. -/
def bodyLimit : Nat := 2097152

/-- Reads a record of this `shape` from the body of a request. -/
def Request.record {α : Type} (r : Request) (shape : RecordShape α) : Except Reply α :=
  if !r.announcesJson then .error { code := 415 }
  else if bodyLimit < r.body.length then .error { code := 413 }
  else
    let (d, complete) := Json.read r.body
    match shape.read (some .malformed) d with
    | .error .malformed => .error { code := 400 }
    | .error .unfit => .error { code := 422 }
    | .ok record => if complete then .ok record else .error { code := 400 }

/-- What can be asked of the service. -/
inductive Command where
  | showStatus
  | listNodes
  | putNode
  | removeNode (segment : String)
  | mark (status : Status) (segment : String)
  | listBalancers
  | putBalancer
  | control (segment : String)
deriving DecidableEq, Repr

namespace Command

/-- The command that a `method` asks of a resource. -/
def of? (method : String) : Resource → Option Command
  | .status => if method = "GET" then some .showStatus else none
  | .nodes =>
      if method = "GET" then some .listNodes
      else if method = "POST" then some .putNode
      else none
  | .node name => if method = "DELETE" then some (.removeNode name) else none
  | .nodeDown name => if method = "POST" then some (.mark .down name) else none
  | .nodeUp name => if method = "POST" then some (.mark .up name) else none
  | .balancers =>
      if method = "GET" then some .listBalancers
      else if method = "POST" then some .putBalancer
      else none
  | .endpointAction name => if method = "POST" then some (.control name) else none

end Command

namespace State

/-- Does `f` with the name that `segment` stands for; a segment that stands for none is a bad
request. -/
def withName (s : State) (segment : String) (f : String → Reply × State) : Reply × State :=
  match decodeSegment? segment with
  | none => ({ code := 400 }, s)
  | some name => f name

/-- The reply where there is no node of `route`. -/
def unknownNode (route : String) : Reply := .refused 404 ("unknown node '" ++ route ++ "'")

/-- Registers a node with `record`, if that has an address. -/
def putNode (s : State) (record : NodeRecord) : Reply × State :=
  match Settings.nodeProblems record with
  | [] =>
      let (node, membership) := s.proxy.toMembership.putNode record
      let proxy := { s.proxy with toMembership := membership }
      (.shows (reportNode proxy node), { s with proxy })
  | ps => (.refused 400 ("; ".intercalate (ps.map Settings.Problem.message)), s)

/-- Ends the registration of the node of `route`. -/
def removeNode (s : State) (route : String) : Reply × State :=
  match s.proxy.toMembership.removeNode route with
  | some (_, membership) => (.done, { s with proxy := { s.proxy with toMembership := membership } })
  | none => (unknownNode route, s)

/-- Marks the node of `route` up or down. -/
def mark (s : State) (status : Status) (route : String) : Reply × State :=
  match s.proxy.registry.node? route with
  | none => (unknownNode route, s)
  | some n =>
      let (changed, registry) := match status with
        | .up => s.proxy.registry.markUp n
        | .down => s.proxy.registry.markDown n
      (.shows (reportChange registry n changed), { s with proxy := { s.proxy with registry } })

/-- Adds or replaces the balancer `b`, if it has a name. -/
def putBalancer (s : State) (b : BalancerRecord) : Reply × State :=
  if Text.isAllBlank b.name then (.refused 400 "balancer name must not be empty", s)
  else (.done, { s with proxy := { s.proxy with registry := s.proxy.registry.putBalancer b } })

/-- Pauses, resumes or stops the endpoint. -/
def control (s : State) (action : String) : Reply × State :=
  let result : Option (Bool × Mode) := match action with
    | "pause" => some s.mode.pause
    | "resume" => some s.mode.resume
    | "stop" => some (true, .stopped)
    | _ => none
  match result with
  | none => (.refused 404 ("unknown action '" ++ action ++ "'"), s)
  | some (changed, mode) =>
      (.shows (.record [("state", .text (modeName mode)), ("changed", .bool changed)]),
        { s with mode })

/-- The reply to a command, and the state after it. -/
def perform (s : State) (r : Request) : Command → Reply × State
  | .showStatus => (.shows s.report, s)
  | .listNodes => (.shows (.list (s.proxy.registry.nodes.map (reportNode s.proxy))), s)
  | .putNode => match r.record NodeRecord.shape with
    | .error reply => (reply, s)
    | .ok record => s.putNode record
  | .removeNode segment => s.withName segment s.removeNode
  | .mark status segment => s.withName segment (s.mark status)
  | .listBalancers => (.shows (.list (s.proxy.registry.sortedBalancers.map reportBalancer)), s)
  | .putBalancer => match r.record BalancerRecord.shape with
    | .error reply => (reply, s)
    | .ok b => s.putBalancer b
  | .control segment => s.withName segment s.control

/-- Answers a request, which has to carry the key.  `HEAD` asks what `GET` asks and is shown
nothing. -/
def answer (key : String) (s : State) (r : Request) : Reply × State :=
  if !r.isAuthorized key then ({ code := 401 }, s)
  else match Resource.ofAddress? r.address with
    | none => ({ code := 404 }, s)
    | some resource =>
        let method := if r.method = "HEAD" then "GET" else r.method
        match Command.of? method resource with
        | none => ({ code := 405 }, s)
        | some command =>
            let (reply, s) := s.perform r command
            (if r.method = "HEAD" then { reply with content := none } else reply, s)

end State

end ReverseProxy.Admin
