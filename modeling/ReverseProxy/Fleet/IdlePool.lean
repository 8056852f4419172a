import ReverseProxy.Fleet.Node

/-!
# Idle connections

A connection to a backend that has served its request waits for the next one in the queue of its
node.  The queue of a node exists from the first request for a connection to the node on, until the
node is removed or moves; a connection that comes back after that is closed.  Whether a connection
is still open, the network knows.
-/

namespace ReverseProxy.Fleet

/-- A connection, as the network knows it. -/
abbrev LinkId := Nat

/-- A connection to a backend, with what was known of the node when it was opened. -/
structure Connection where
  link : LinkId
  nodeId : Nat
  route : String
  address : String
  protocol : Protocol
deriving DecidableEq, Repr

/-- The connection over the new `link` to the node. -/
def Node.connection (n : Node) (link : LinkId) : Connection :=
  { link, nodeId := n.id, route := n.route, address := n.address, protocol := n.protocol }

/-- The connection was opened to the identity, the address and the protocol that `n` has. -/
def Connection.fits (c : Connection) (n : Node) : Bool :=
  c.nodeId == n.id && c.address == n.address && c.protocol == n.protocol

/-- The queues of the nodes, by identity. -/
structure IdlePool where
  queues : List (Nat × List Connection) := []
deriving DecidableEq, Repr

namespace IdlePool

/-- The queue of the node `id`, the connection that has waited longest first. -/
def queue? (p : IdlePool) (id : Nat) : Option (List Connection) := p.queues.lookup id

/-- The pool without the queue of the node `id`. -/
def erase (p : IdlePool) (id : Nat) : IdlePool := { queues := p.queues.filter fun q => q.1 != id }

/-- The pool with this `queue` for the node `id`. -/
def setQueue (p : IdlePool) (id : Nat) (queue : List Connection) : IdlePool :=
  if (p.queue? id).isSome then
    { queues := p.queues.map fun q => if q.1 = id then (id, queue) else q }
  else { queues := p.queues ++ [(id, queue)] }

/-- The number of connections that wait for the node `id`. -/
def idleCount (p : IdlePool) (id : Nat) : Nat := ((p.queue? id).getD []).length

/-- How many connections wait. -/
def totalIdle (p : IdlePool) : Nat := p.queues.foldr (fun q n => q.2.length + n) 0

/-- The first connection of a queue that `isOpen`, and what is behind it.  Those in front of it are
closed. -/
def firstOpen (isOpen : LinkId → Bool) : List Connection → Option Connection × List Connection
  | [] => (none, [])
  | c :: rest => if isOpen c.link then (some c, rest) else firstOpen isOpen rest

/-- Takes the connection that has waited longest for `n`, if one is open.  From now on the node has
a queue. -/
def take (isOpen : LinkId → Bool) (n : Node) (p : IdlePool) : Option Connection × IdlePool :=
  let (c, rest) := firstOpen isOpen ((p.queue? n.id).getD [])
  (c, p.setQueue n.id rest)

/-- Takes the connection `c` back: if it is open, if it fits `n` and if its node has a queue.
Otherwise the connection is closed. -/
def recycle (isOpen : LinkId → Bool) (n : Node) (c : Connection) (p : IdlePool) : IdlePool :=
  match p.queue? c.nodeId with
  | some queue => if c.fits n && isOpen c.link then p.setQueue c.nodeId (queue ++ [c]) else p
  | none => p

/-- Closes the connections that wait for the node `id`, and answers how many there were. -/
def close (id : Nat) (p : IdlePool) : Nat × IdlePool := (p.idleCount id, p.erase id)

/-- Closes all connections that wait, and answers how many there were. -/
def closeAll (p : IdlePool) : Nat × IdlePool := (p.totalIdle, {})

end IdlePool

end ReverseProxy.Fleet
