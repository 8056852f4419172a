import ReverseProxy.Relay.Network
import ReverseProxy.Text.Split

/-!
# Backends that answer by a script

A network on which a proxy can be tried without any backends.  Every address has a backend that
gives the replies of its script one after another, whichever connections the requests come on, and
the last of them from then on.
-/

namespace ReverseProxy.Relay

open Fleet Wire

/-- One reply of a backend. -/
structure ScriptedReply where
  /-- The reply is given when `trigger` has been received since the last one. -/
  trigger : Bytes
  octets : Bytes
  /-- The connection is closed after the reply. -/
  closes : Bool := false
deriving DecidableEq, Repr

/-- A connection to a backend. -/
structure ScriptedLink where
  address : String
  /-- All that was received. -/
  received : Bytes := []
  /-- What was received since the last reply. -/
  fresh : Bytes := []
  /-- What arrives at the proxy before the end, or before the silence of a connection that is not
  `closed`. -/
  incoming : Source := []
  /-- The backend has closed the connection. -/
  closed : Bool := false
deriving DecidableEq, Repr

/-- The backends, and the connections to them in the order in which they were opened. -/
structure ScriptedNetwork where
  /-- The replies that are still to be given, by the address of the backend. -/
  replies : List (String × List ScriptedReply)
  links : List ScriptedLink := []
  /-- How many names were given to requests. -/
  named : Nat := 0
deriving DecidableEq, Repr

namespace ScriptedNetwork

/-- What follows the first occurrence of `word` in a text. -/
def afterWord? (word : Bytes) : Bytes → Option Bytes
  | [] => none
  | b :: bs =>
    if word.isPrefixOf (b :: bs) then some ((b :: bs).drop word.length) else afterWord? word bs

/-- What is left of `fresh` after it has triggered a reply, if it does. An empty `trigger` takes
all. -/
def triggered? (trigger fresh : Bytes) : Option Bytes :=
  if fresh = [] then none else if trigger = [] then some [] else afterWord? trigger fresh

theorem afterWord?_length {word bs rest : Bytes} (hw : word ≠ [])
    (h : afterWord? word bs = some rest) :
    rest.length < bs.length := by
  have hpos := List.length_pos_iff.2 hw
  induction bs with
  | nil => cases h
  | cons b bs ih =>
    unfold afterWord? at h
    split at h
    · cases h
      simp only [List.length_drop, List.length_cons]
      omega
    · exact Nat.lt_succ_of_lt (ih h)

theorem triggered?_length {trigger fresh rest : Bytes} (h : triggered? trigger fresh = some rest) :
    rest.length < fresh.length := by
  unfold triggered? at h
  split at h
  · cases h
  · rename_i hf
    split at h
    · cases h
      exact List.length_pos_iff.2 hf
    · rename_i ht
      exact afterWord?_length ht h

/-- The replies that `l` gives to what it has received, and the replies that are left. -/
def reply (replies : List ScriptedReply) (l : ScriptedLink) : List ScriptedReply × ScriptedLink :=
  match replies with
  | [] => ([], l)
  | r :: rest =>
      if l.closed then (r :: rest, l)
      else
        match _h : triggered? r.trigger l.fresh with
        | none => (r :: rest, l)
        | some fresh =>
            reply (if rest.isEmpty then [r] else rest)
              { l with fresh, incoming := l.incoming ++ [.octets r.octets], closed := r.closes }
termination_by l.fresh.length
decreasing_by exact triggered?_length _h

/-- The replies of the backend of an address. -/
def repliesOf (n : ScriptedNetwork) (address : String) : List ScriptedReply :=
  (n.replies.lookup address).getD []

/-- Changes a connection. -/
def modify (n : ScriptedNetwork) (link : LinkId) (f : ScriptedLink → ScriptedLink) :
    ScriptedNetwork :=
  { n with links := n.links.modify link f }

/-- The backend of `link` receives the octets `bs`, and gives the replies that are due. -/
def deliver (link : LinkId) (bs : Bytes) (n : ScriptedNetwork) : ScriptedNetwork :=
  match n.links[link]? with
  | none => n
  | some l =>
      let (replies, l) :=
        reply (n.repliesOf l.address)
          { l with received := l.received ++ bs, fresh := l.fresh ++ bs }
      { n with
        replies := n.replies.map fun x => if x.1 = l.address then (x.1, replies) else x
        links := n.links.set link l }

/-- The backend at `address` closes all its connections. -/
def closeAll (n : ScriptedNetwork) (address : String) : ScriptedNetwork :=
  { n with
    links := n.links.map fun l => if l.address = address then { l with closed := true } else l }

/-- What arrives on a connection. -/
def incomingOf (link : LinkId) (n : ScriptedNetwork) : Source :=
  match n.links[link]? with
  | none => []
  | some l => if l.closed then l.incoming else l.incoming ++ [.silence]

/-- A source without the `.silence` at its end. -/
def dropSilence (s : Source) : Source := if s.getLast? = some .silence then s.dropLast else s

/-- The network: a connection opens where there is a backend, and takes everything that is
written. -/
def network : Network ScriptedNetwork where
  connect node n :=
    if (n.repliesOf node.address).isEmpty then
      (.error (.failed node.address "Connection refused (os error 111)"), n)
    else (.ok n.links.length, { n with links := n.links ++ [{ address := node.address }] })
  writer link :=
    { writeAll := fun bs n => (.ok (), n.deliver link bs), flush := fun n => (.ok (), n) }
  incoming := incomingOf
  setIncoming link s n := n.modify link fun l => { l with incoming := dropSilence s }
  requestId n := ("request-" ++ toString n.named, { n with named := n.named + 1 })

end ScriptedNetwork

end ReverseProxy.Relay
