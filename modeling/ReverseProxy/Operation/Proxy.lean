import ReverseProxy.Fleet.Membership
import ReverseProxy.Settings.Schema
import ReverseProxy.Settings.TrustRoots
import ReverseProxy.Wire.BufferPool

/-!
# The proxy

What all client connections share: the nodes with their idle connections, and the buffers.  It is
built from settings that make sense.
-/

namespace ReverseProxy.Operation

open Fleet Settings Wire

/-- What all client connections share. -/
structure Proxy extends Membership where
  buffers : BufferPool
  timeouts : Timeouts := {}
  /-- Who is trusted to vouch for backends that are reached by encrypted connections. -/
  trustRoots : Option TrustRoots := none

namespace Proxy

/-- Builds the proxy that the settings describe, with all its nodes up and nothing in use.  The
trust roots are read from `files` by `library`. -/
def ofConfig (files : Files) (c : Config) (library : TrustLibrary := .absent) :
    Except TrustFailure Proxy := do
  let trustRoots ← c.backendTls.caPath.mapM (TrustRoots.load library files)
  return {
    registry := .ofRecords c.balancers c.nodes
    buffers := { bufferSize := c.buffers.bufferSize }
    timeouts := c.timeouts
    trustRoots }

end Proxy

end ReverseProxy.Operation
