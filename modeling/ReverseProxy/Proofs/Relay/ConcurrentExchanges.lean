import ReverseProxy.Proofs.Fleet.IdleConnections
import ReverseProxy.Relay.Exchange

/-!
# Exchanges at the same time

Many exchanges are under way at the same time, and while they are, nodes come, move and go.
`Traffic` is what they have in common and how far each of them has come; an `Action` is what one of
them does with the membership, or what is done to the membership from outside, and actions follow
one another in any order.  What one exchange does by itself are three of them
(`Traffic.exists_acts_eq_run`).

An exchange keeps the version of the node that was chosen for it, and gives its connection back with
that version, whatever has become of the node (`Traffic.IsStale`).  That is the one way for a
connection to wait that does not lead to where its node is.  Without it, everything that is done
keeps waiting connections in line with the nodes (`Traffic.sound_act`); with it, one of them is out
of line at once (`Traffic.not_matches_act`).
-/

namespace ReverseProxy.Relay

open Fleet Message Operation Wire

/-- How far an exchange has come with its node. -/
inductive Visit where
  /-- The version `n` of the node was chosen. -/
  | chosen (n : Node)
  /-- The exchange holds the connection `c` to the node `n`. -/
  | holding (n : Node) (c : Connection)
  | over
deriving DecidableEq, Repr

/-- The membership, and the exchanges that there have been, in the order in which they began. -/
structure Traffic where
  members : Membership
  visits : List Visit := []

/-- What changes the membership, and the steps of exchanges. -/
inductive Action where
  | put (record : NodeRecord)
  | remove (route : String)
  | reconcile (balancers : List BalancerRecord) (nodes : List NodeRecord)
  /-- An exchange begins, and a node is chosen for its `request` by asking the balancers in the
  order of `enumeration`. -/
  | resolve (enumeration : List BalancerRecord) (request : RequestHead)
  /-- The exchange gets a connection that waits, or else `opened`, the link opened for it, if there
  is one. -/
  | checkout (visit : Nat) (isOpen : LinkId → Bool) (opened : Option LinkId)
  /-- The exchange ends, and gives its connection back. -/
  | recycle (visit : Nat) (isOpen : LinkId → Bool)
  /-- The exchange ends, and closes its connection. -/
  | discard (visit : Nat)

namespace Traffic

/-- The traffic without the node of the route, if it was registered. -/
def remove (t : Traffic) (route : String) : Traffic :=
  match t.members.removeNode route with
  | some (_, members) => { t with members }
  | none => t

/-- The traffic after an exchange began, if there is a node for its `request`. -/
def resolve (t : Traffic) (enumeration : List BalancerRecord) (request : RequestHead) : Traffic :=
  match t.members.registry.resolveAmong enumeration request with
  | (.ok n, registry) =>
      { members := { t.members with registry }, visits := t.visits ++ [.chosen n] }
  | (.error _, registry) => { t with members := { t.members with registry } }

/-- The traffic after the exchange `i` asked for a connection to `n`.  The node is marked down if
there is none. -/
def checkout (t : Traffic) (i : Nat) (n : Node) (isOpen : LinkId → Bool)
    (opened : Option LinkId) : Traffic :=
  match t.members.idle.take isOpen n, opened with
  | (some c, idle), _ =>
      { members := { t.members with idle }, visits := t.visits.set i (.holding n c) }
  | (none, idle), some link =>
      { members := { t.members with idle },
        visits := t.visits.set i (.holding n (n.connection link)) }
  | (none, idle), none =>
      { members := { registry := (t.members.registry.markDown n).2, idle },
        visits := t.visits.set i .over }

/-- The traffic after the exchange `i` gave the connection `c` back, with the version `n` of its
node. -/
def recycle (t : Traffic) (i : Nat) (n : Node) (c : Connection)
    (isOpen : LinkId → Bool) : Traffic :=
  { members := { t.members with idle := t.members.idle.recycle isOpen n c },
    visits := t.visits.set i .over }

/-- The traffic after one action.  An exchange that has not come so far, or is over, does
nothing. -/
def act (t : Traffic) : Action → Traffic
  | .put record => { t with members := (t.members.putNode record).2 }
  | .remove route => t.remove route
  | .reconcile balancers nodes => { t with members := t.members.reconcile balancers nodes }
  | .resolve enumeration request => t.resolve enumeration request
  | .checkout i isOpen opened =>
      match t.visits[i]? with
      | some (.chosen n) => t.checkout i n isOpen opened
      | _ => t
  | .recycle i isOpen =>
      match t.visits[i]? with
      | some (.holding n c) => t.recycle i n c isOpen
      | _ => t
  | .discard i => { t with visits := t.visits.set i .over }

/-- The traffic after `actions`, one after another. -/
def acts (t : Traffic) (actions : List Action) : Traffic := actions.foldl act t

/-- The action gives back a connection that is accepted, although the node is not registered any
more with the address and the protocol under which the exchange knows it. -/
def IsStale (t : Traffic) : Action → Prop
  | .recycle i isOpen =>
      ∃ n c, t.visits[i]? = some (.holding n c) ∧ t.members.idle.Accepts isOpen n c ∧
      ¬∃ current ∈ t.members.registry.nodes,
        current.id = n.id ∧ current.address = n.address ∧ current.protocol = n.protocol
  | _ => False

/-! ### What an action keeps -/

variable {t : Traffic} {a : Action}

theorem sound_remove (h : t.members.Sound) (route : String) : (t.remove route).members.Sound := by
  unfold remove
  split
  · rename_i n members hremove
    exact h.removeNode hremove
  · exact h

theorem sound_resolve (h : t.members.Sound) (enumeration : List BalancerRecord)
    (request : RequestHead) :
    (t.resolve enumeration request).members.Sound := by
  have hnodes := Registry.nodes_resolveAmong enumeration t.members.registry request
  unfold resolve
  split <;> rename_i hresolve <;> rw [hresolve] at hnodes
  · exact h.of_waits hnodes.1 hnodes.2 fun _ _ hc => hc
  · exact h.of_waits hnodes.1 hnodes.2 fun _ _ hc => hc

theorem sound_checkout (h : t.members.Sound) (i : Nat) (n : Node) (isOpen : LinkId → Bool)
    (opened : Option LinkId) :
    (t.checkout i n isOpen opened).members.Sound := by
  unfold checkout
  split
  · rename_i c idle htake
    exact h.of_waits rfl rfl (IdlePool.waits_take htake).1
  · rename_i idle link htake
    exact h.of_waits rfl rfl (IdlePool.waits_take htake).1
  · rename_i idle htake
    obtain ⟨hnodes, hnext⟩ := Registry.nodes_markDown t.members.registry n
    exact h.of_waits hnodes hnext (IdlePool.waits_take htake).1

/-- If `n` is current whenever `c` is accepted, giving `c` back keeps the membership `Sound`. -/
theorem sound_recycle (h : t.members.Sound) {i : Nat} {n : Node} {c : Connection}
    {isOpen : LinkId → Bool}
    (hcurrent : t.members.idle.Accepts isOpen n c → ∃ current ∈ t.members.registry.nodes,
      current.id = n.id ∧ current.address = n.address ∧ current.protocol = n.protocol) :
    (t.recycle i n c isOpen).members.Sound := by
  refine ⟨h.wellFormed, fun id c' hc' => ?_⟩
  rcases IdlePool.waits_recycle hc' with hc' | ⟨haccepts, rfl, rfl⟩
  · exact h.leads id c' hc'
  · obtain ⟨current, hmem, hid, haddress, hprotocol⟩ := hcurrent haccepts
    obtain ⟨hnode, hto, hby⟩ := Connection.fits_iff.1 haccepts.1
    exact ⟨current, hmem, hid.trans hnode.symm,
      Connection.fits_iff.2 ⟨hnode.trans hid.symm, hto.trans haddress.symm,
        hby.trans hprotocol.symm⟩⟩

/-- An action that is not stale keeps the membership `Sound`. -/
theorem sound_act (h : t.members.Sound) (hstale : ¬t.IsStale a) : (t.act a).members.Sound := by
  cases a with
  | put record => exact h.putNode record
  | remove route => exact sound_remove h route
  | reconcile balancers nodes => exact h.reconcile balancers nodes
  | resolve enumeration request => exact sound_resolve h enumeration request
  | checkout i isOpen opened =>
    simp only [act]
    split
    · exact sound_checkout h ..
    · exact h
  | recycle i isOpen =>
    simp only [act]
    split
    · rename_i n c hvisit
      exact sound_recycle h fun haccepts => Decidable.byContradiction fun hcurrent =>
        hstale ⟨n, c, hvisit, haccepts, hcurrent⟩
    · exact h
  | discard i => exact h

/-- After a stale action a connection waits that does not lead to where its node is. -/
theorem not_matches_act (hstale : t.IsStale a) : ¬(t.act a).members.Matches := by
  intro hmatches
  cases a with
  | recycle i isOpen =>
    obtain ⟨n, c, hvisit, haccepts, hcurrent⟩ := hstale
    simp only [act, recycle, hvisit] at hmatches
    obtain ⟨current, hmem, hid, hfits⟩ := hmatches _ _ haccepts.waits
    obtain ⟨-, haddress, hprotocol⟩ := Connection.fits_iff.1 hfits
    obtain ⟨hnode, hto, hby⟩ := Connection.fits_iff.1 haccepts.1
    exact hcurrent ⟨current, hmem, hid.trans hnode, haddress.symm.trans hto,
      hprotocol.symm.trans hby⟩
  | _ => exact hstale

/-! ### Runs -/

@[simp] theorem acts_concat (t : Traffic) (actions : List Action) (a : Action) :
    t.acts (actions ++ [a]) = (t.acts actions).act a := by
  rw [acts, List.foldl_append]
  rfl

/-- No action of the run is stale when its turn comes. -/
def Prompt (t : Traffic) (actions : List Action) : Prop :=
  ∀ before a after, actions = before ++ a :: after → ¬(t.acts before).IsStale a

theorem Prompt.of_append {before after : List Action} (h : t.Prompt (before ++ after)) :
    t.Prompt before := by
  rintro front a back rfl
  exact h front a (back ++ after) (by rw [List.append_assoc, List.cons_append])

theorem sound_acts (h : t.members.Sound) {actions : List Action} (hprompt : t.Prompt actions) :
    (t.acts actions).members.Sound := by
  induction actions generalizing t with
  | nil => exact h
  | cons a actions ih =>
    apply ih (sound_act h (hprompt [] a actions rfl))
    intro before b after heq
    exact hprompt (a :: before) b after (congrArg (a :: ·) heq)

/-- The traffic of a proxy that was just started with these records. -/
def start (balancers : List BalancerRecord) (nodes : List NodeRecord) : Traffic :=
  { members := { registry := .ofRecords balancers nodes } }

theorem sound_start (balancers : List BalancerRecord) (nodes : List NodeRecord) :
    (start balancers nodes).members.Sound :=
  ⟨Registry.wellFormed_ofRecords balancers nodes, fun _ _ ⟨_, hmem, _⟩ => nomatch hmem⟩

/-- The connection that `checkout` gives for a registered node leads to where the node is. -/
theorem fits_checkout (h : t.members.Sound) {i : Nat} {n n' : Node} {c : Connection}
    {isOpen : LinkId → Bool} {opened : Option LinkId} (hvisit : t.visits[i]? = some (.chosen n))
    (hn : n ∈ t.members.registry.nodes)
    (hgot : (t.checkout i n isOpen opened).visits[i]? = some (.holding n' c)) :
    n' = n ∧ c.fits n = true := by
  have hlt : i < t.visits.length := (List.getElem?_eq_some_iff.1 hvisit).1
  unfold checkout at hgot
  split at hgot <;> rw [List.getElem?_set_self hlt] at hgot <;> cases hgot
  · rename_i idle htake
    exact ⟨rfl, h.fits hn ((IdlePool.waits_take htake).2 c rfl)⟩
  · exact ⟨rfl, n.fits_connection _⟩

/-- In every state of a run the waiting connections lead to where their nodes are, exactly if the
run is `Prompt`: in it no exchange gives back a connection to a place that its node has left.  In a
`Prompt` run an exchange that asks for a connection to `n`, while `n` is registered so, gets one to
the address of `n`. -/
theorem matches_iff_prompt (balancers : List BalancerRecord) (nodes : List NodeRecord)
    (actions : List Action) :
    ((∀ before after, actions = before ++ after →
      ((start balancers nodes).acts before).members.Matches) ↔
      (start balancers nodes).Prompt actions) ∧
    ((start balancers nodes).Prompt actions →
      ∀ before i isOpen opened after, actions = before ++ .checkout i isOpen opened :: after →
      ∀ n ∈ ((start balancers nodes).acts before).members.registry.nodes,
        ((start balancers nodes).acts before).visits[i]? = some (.chosen n) →
      ∀ n' c,
        ((start balancers nodes).acts (before ++ [.checkout i isOpen opened])).visits[i]? =
          some (.holding n' c) →
        c.address = n.address ∧ c.protocol = n.protocol) := by
  have hstart := sound_start balancers nodes
  refine ⟨⟨?_, ?_⟩, ?_⟩
  · -- a late return is seen as soon as it has happened
    rintro hmatches before a after rfl hstale
    apply not_matches_act hstale
    have hmatch := hmatches (before ++ [a]) after (by rw [List.append_assoc, List.singleton_append])
    rwa [acts_concat] at hmatch
  · rintro hprompt before after rfl
    exact (sound_acts hstart hprompt.of_append).leads
  · rintro hprompt before i isOpen opened after rfl n hn hvisit n' c hgot
    have hsound := sound_acts hstart hprompt.of_append
    simp only [acts_concat, act, hvisit] at hgot
    obtain ⟨-, hfits⟩ := fits_checkout hsound hvisit hn hgot
    obtain ⟨-, haddress, hprotocol⟩ := Connection.fits_iff.1 hfits
    exact ⟨haddress, hprotocol⟩

/-- The run in which the node moves while an exchange has a connection to it, another exchange gets
a connection to the new place, and the first gives its connection back. -/
def lateReturn : List Action :=
  let request : RequestHead :=
    { method := "GET", path := "/", minor := 1, headers := [], length := 18,
      body := .none, keepAlive := true }
  [.resolve [] request, .checkout 0 (fun _ => true) (some 0),
    .put { route := "a", host := "h", port := 2 },
    .resolve [] request, .checkout 1 (fun _ => true) (some 1), .recycle 0 (fun _ => true),
    .resolve [] request, .checkout 2 (fun _ => true) none]

/-- After `lateReturn` the next exchange has the node where it is, and a connection to where it
was. -/
theorem checkout_after_lateReturn :
    let t := (start [] [{ route := "a", host := "h", port := 1 }]).acts lateReturn
    let n : Node := { id := 1, record := { route := "a", host := "h", port := 2 } }
    let c : Connection :=
      { link := 0, nodeId := 1, route := "a", address := "h:1", protocol := .plain }
    t.members.registry.nodes = [n] ∧ t.visits[2]? = some (.holding n c) ∧ n.address = "h:2" := by
  decide +kernel

/-! ### What an exchange does with the membership -/

section

variable {σ : Type} (net : Network σ) (request : RequestHead) (x : Exchange) {c : Conversation σ}

/-- An exchange's `connect` is a `resolve` and a `checkout`. -/
theorem exists_acts_eq_connect (ht : t.members = c.proxy.toMembership) :
    ∃ isOpen opened,
      let t' :=
  t.acts [.resolve t.members.registry.balancers request, .checkout t.visits.length isOpen opened]
      t'.members = (x.connect net request c).2.2.proxy.toMembership ∧
        ∀ n connection, (x.connect net request c).1 = .ok (n, connection) →
          t'.visits[t.visits.length]? = some (.holding n connection) := by
  obtain ⟨members, visits⟩ := t
  obtain rfl : members = c.proxy.toMembership := ht
  refine ⟨net.isOpen c.network, ?_⟩
  rcases hresolve : c.proxy.registry.resolveAmong c.proxy.registry.balancers request
    with ⟨_ | n, registry⟩
  · exact ⟨none, by simp [acts, act, resolve, Exchange.connect, Registry.resolve, hresolve]⟩
  rcases htake : c.proxy.idle.take (net.isOpen c.network) n with ⟨_ | waiting, idle⟩
  · rcases hconnect : net.connect n c.network with ⟨_ | link, network⟩
    · refine ⟨none, ?_⟩
      simp [acts, act, resolve, checkout, Exchange.connect, Network.checkout,
        Registry.resolve, hresolve, htake, hconnect]
    · rcases hsecure : net.secure n c.proxy.trustRoots link network with ⟨_ | _, later⟩
      · refine ⟨none, ?_⟩
        simp [acts, act, resolve, checkout, Exchange.connect, Network.checkout, Registry.resolve,
          hresolve, htake, hconnect, hsecure]
      · refine ⟨some link, ?_⟩
        simp [acts, act, resolve, checkout, Exchange.connect, Network.checkout, Registry.resolve,
          hresolve, htake, hconnect, hsecure]
  · refine ⟨none, ?_⟩
    simp [acts, act, resolve, checkout, Exchange.connect, Network.checkout,
      Registry.resolve, hresolve, htake]

/-- The action ends the exchange `i`. -/
def IsEnd (i : Nat) (a : Action) : Prop := a = .discard i ∨ ∃ isOpen, a = .recycle i isOpen

/-- An exchange's `settle` is one action that ends it. -/
theorem exists_act_eq_settle {n : Node} {connection : Connection} (relayed : Relayed) {i : Nat}
    (ht : t.members = c.proxy.toMembership) (hvisit : t.visits[i]? = some (.holding n connection)) :
    ∃ a, IsEnd i a ∧
    (t.act a).members = (x.settle net request n connection relayed c).2.proxy.toMembership := by
  obtain ⟨members, visits⟩ := t
  obtain rfl : members = c.proxy.toMembership := ht
  by_cases hreusable : Exchange.isReusable relayed x.parser = true
  · refine ⟨.recycle i (net.isOpen c.network), .inr ⟨_, rfl⟩, ?_⟩
    have hvisit : visits[i]? = some (.holding n connection) := hvisit
    simp [act, hvisit, recycle, Exchange.settle, hreusable]
  · refine ⟨.discard i, .inl rfl, ?_⟩
    simp [act, Exchange.settle, hreusable]

/-- What the `run` of an exchange does with the membership are three actions, and others can come
between them. -/
theorem exists_acts_eq_run (peer : HostAddress) (ht : t.members = c.proxy.toMembership) :
    ∃ isOpen opened last, IsEnd t.visits.length last ∧
      (t.acts [.resolve t.members.registry.balancers request,
        .checkout t.visits.length isOpen opened,
        last]).members = (x.run net peer request c).2.2.proxy.toMembership := by
  obtain ⟨isOpen, opened, hmembers, hvisit⟩ := exists_acts_eq_connect net request x ht
  refine ⟨isOpen, opened, ?_⟩
  rcases hconnect : x.connect net request c with ⟨_ | ⟨n, connection⟩, x₁, c₁⟩ <;>
    rw [hconnect] at hmembers hvisit
  · refine ⟨.discard t.visits.length, .inl rfl, ?_⟩
    simp only [Exchange.run, hconnect]
    exact hmembers
  have hproxy : (x₁.transfer net peer request n connection.link c₁).2.2.proxy = c₁.proxy := rfl
  rcases htransfer : x₁.transfer net peer request n connection.link c₁
    with ⟨_ | relayed, x₂, c₂⟩ <;>
    rw [htransfer] at hproxy <;>
    rw [show c₁.proxy = c₂.proxy from hproxy.symm] at hmembers
  · refine ⟨.discard t.visits.length, .inl rfl, ?_⟩
    simp only [Exchange.run, hconnect, htransfer]
    exact hmembers
  · obtain ⟨last, hlast, hsettle⟩ :=
      exists_act_eq_settle net request x₂ relayed hmembers (hvisit n connection rfl)
    refine ⟨last, hlast, ?_⟩
    simp only [Exchange.run, hconnect, htransfer]
    exact hsettle

end

end Traffic

end ReverseProxy.Relay
