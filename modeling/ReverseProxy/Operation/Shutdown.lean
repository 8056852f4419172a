/-!
# The end of operation

The end of operation is announced once, to everybody who has asked for it before.  Who asks
afterwards hears nothing, and can only see that it was announced.
-/

namespace ReverseProxy.Operation

/-- Whether the end of operation has been announced. -/
structure Shutdown where
  triggered : Bool := false
deriving DecidableEq, Repr

/-- Somebody who asked for the announcement. -/
structure Subscriber where
  /-- The announcement is not news any more: it was heard, or made before the subscriber asked. -/
  informed : Bool
deriving DecidableEq, Repr

/-- What a subscriber finds. -/
inductive Notice where
  | announced
  | nothing
deriving DecidableEq, Repr

namespace Shutdown

/-- Asks for the announcement. A subscriber that comes after `trigger` will not find one. -/
def subscribe (s : Shutdown) : Subscriber := { informed := s.triggered }

/-- Announces the end, unless that was done before. -/
def trigger (_ : Shutdown) : Shutdown := { triggered := true }

/-- Looks for the announcement, which a subscriber finds once. -/
def look (s : Shutdown) (x : Subscriber) : Notice × Subscriber :=
  if s.triggered && !x.informed then (.announced, { informed := true }) else (.nothing, x)

@[simp] theorem triggered_trigger (s : Shutdown) : s.trigger.triggered = true := rfl

end Shutdown

end ReverseProxy.Operation
