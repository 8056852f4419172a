/-!
# Open connections

The clients that are connected are counted, so that an endpoint which stops can wait until the last
of them is gone.  Every connection has a number of its own, under which it is reported.
-/

namespace ReverseProxy.Operation

/-- The number of a client connection, from one on. -/
structure ConnectionId where
  number : Nat
deriving DecidableEq, Repr

/-- How a connection is called in reports. -/
def ConnectionId.display (id : ConnectionId) : String := "c" ++ toString id.number

/-- The count of the open connections. -/
structure ConnectionTracker where
  /-- How many connections there have been. -/
  opened : Nat := 0
  /-- How many of them are open. -/
  active : Nat := 0
deriving DecidableEq, Repr

namespace ConnectionTracker

/-- Counts a new connection. -/
def track (t : ConnectionTracker) : ConnectionId × ConnectionTracker :=
  ({ number := t.opened + 1 }, { opened := t.opened + 1, active := t.active + 1 })

/-- A connection is gone. -/
def leave (t : ConnectionTracker) : ConnectionTracker := { t with active := t.active - 1 }

/-- No connection is open, so that there is nothing to wait for. -/
def isIdle (t : ConnectionTracker) : Bool := t.active == 0

@[simp] theorem leave_track (t : ConnectionTracker) : t.track.2.leave.active = t.active := rfl

end ConnectionTracker

end ReverseProxy.Operation
