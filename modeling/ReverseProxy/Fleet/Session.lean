import ReverseProxy.Fleet.Record
import ReverseProxy.Message.RequestHead

/-!
# Sessions

A session value ends in a dot and the route of the node that the session is bound to.
-/

namespace ReverseProxy.Fleet

/-- The route in a session `value`: what follows the last dot, if that is something. -/
def routeOfSession? (value : String) : Option String :=
  match Text.cutLast? '.' value.toList with
  | some (_, c :: route) => some (String.ofList (c :: route))
  | _ => none

/-- The session value that the balancer `b` finds in a request: the cookie, or else the path
parameter. -/
def BalancerRecord.sessionValue? (b : BalancerRecord) (request : Message.RequestHead) :
    Option String :=
  if b.sticky then (request.cookieValue? b.cookie).or (request.pathParameter? b.path) else none

end ReverseProxy.Fleet
