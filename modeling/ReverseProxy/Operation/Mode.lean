/-!
# The mode of an endpoint

An endpoint runs, pauses or has stopped.  It can be paused and resumed; once stopped it stays so.  A
client connection watches the mode (`Watch`): it ends when the endpoint stops, if it has no request
under way.
-/

namespace ReverseProxy.Operation

/-- Whether an endpoint takes connections. -/
inductive Mode where
  | running
  | paused
  | stopped
deriving DecidableEq, Repr

namespace Mode

/-- Moves from `source` to `target`, and answers whether the mode was `source`. -/
def move (m source target : Mode) : Bool × Mode := if m = source then (true, target) else (false, m)

/-- Stops taking connections for a time. -/
def pause (m : Mode) : Bool × Mode := m.move .running .paused

/-- Takes connections again. -/
def resume (m : Mode) : Bool × Mode := m.move .paused .running

@[simp] theorem pause_stopped : pause .stopped = (false, .stopped) := rfl
@[simp] theorem resume_stopped : resume .stopped = (false, .stopped) := rfl

end Mode

/-- What a connection may hear about the `Mode` of its endpoint. -/
inductive Signal where
  | mode (m : Mode)
  /-- Nobody is left to change the mode. -/
  | gone
deriving DecidableEq, Repr

/-- What a connection knows about the `Mode` of its endpoint. -/
structure Watch where
  mode : Mode := .running
  /-- The mode was set since the connection last took notice. -/
  changed : Bool := false
  /-- The mode may still be set. -/
  live : Bool := true
deriving DecidableEq, Repr

namespace Watch

/-- Hears a signal. Once the watch is not `live` there are none. -/
def hear (w : Watch) : Signal → Watch
  | .mode m => if w.live then { w with mode := m, changed := true } else w
  | .gone => { w with live := false }

end Watch

end ReverseProxy.Operation
