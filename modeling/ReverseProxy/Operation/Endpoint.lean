import ReverseProxy.Operation.Mode
import ReverseProxy.Operation.Proxy
import ReverseProxy.Operation.Tracker

/-!
# Endpoints

An endpoint takes clients while it runs, up to a number that may be connected at once.  When it
stops it waits for the clients that are still connected, and then closes the connections to backends
that nobody uses any more.
-/

namespace ReverseProxy.Operation

/-- An endpoint, and the clients that are connected to it. -/
structure Endpoint where
  mode : Mode := .running
  connections : ConnectionTracker := {}
  /-- How many clients may be connected at once. -/
  maxConnections : Nat
deriving DecidableEq, Repr

namespace Endpoint

/-- A client that connects is taken in the mode `.running`, if there are fewer than
`maxConnections`; otherwise it has to wait. -/
def isAccepting (e : Endpoint) : Bool :=
  e.mode == .running && decide (e.connections.active < e.maxConnections)

/-- Stops taking clients for a time, and answers whether that changed anything. -/
def pause (e : Endpoint) : Bool × Endpoint := (e.mode.pause.1, { e with mode := e.mode.pause.2 })

/-- Takes clients again, and answers whether that changed anything. -/
def resume (e : Endpoint) : Bool × Endpoint := (e.mode.resume.1, { e with mode := e.mode.resume.2 })

/-- Stops for good. -/
def stop (e : Endpoint) : Endpoint := { e with mode := .stopped }

/-- The endpoint has stopped and its clients are gone: the connections in `p.idle` are closed. -/
def finish (e : Endpoint) (p : Proxy) : Endpoint × Proxy :=
  (e.stop, { p with idle := p.idle.closeAll.2 })

@[simp] theorem isAccepting_stop (e : Endpoint) : e.stop.isAccepting = false := rfl

end Endpoint

end ReverseProxy.Operation
