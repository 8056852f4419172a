import ReverseProxy.Proofs.Fleet.MembershipRuns
import ReverseProxy.Proofs.Fleet.Resolution
import ReverseProxy.Proofs.Relay.ExchangeSteps
import ReverseProxy.Proofs.Relay.ResponseHeads

/-!
# What an exchange that fails has done

An exchange fails when no node is chosen for its request, when the node cannot be reached, or later,
when one of the two connections fails or a message is malformed (`ExchangeFailure.IsLate`).  Which
of the three it was can be told from the failure (`Exchange.transfer_eq_error`), and with it what
the exchange has done up to then (`Exchange.Fails`).  So whatever it is that fails, no connection
comes to wait that has not waited before, and a node is marked down only if it could not be reached
(`Exchange.run_error_effects`).
-/

namespace ReverseProxy.Relay

open Fleet Message Operation Wire

variable {σ : Type}

/-- The failure came after `connect`: it is one of a connection that there was, or of a message that
came over it. -/
def ExchangeFailure.IsLate : ExchangeFailure → Prop
  | .selection _ | .connection _ => False
  | .transport _ | .defect _ => True

/-! ### Failures on the way of a message -/

theorem isLate_failureOfReceived (side : Side) (got : Received) :
    (failureOfReceived side got).IsLate := by
  cases got <;> exact trivial

namespace RequestBodyRelay

variable {τ : Type} {w : Writer τ} {t : BodyTracker} {r r' : RequestBodyRelay τ}
    {e : ExchangeFailure}

theorem isLate_of_pass (h : r.pass w t = (.error e, r')) : e.IsLate := by
  unfold pass at h
  split at h
  · cases h
    exact trivial
  · simp only at h
    split at h <;> cases h
    exact trivial

theorem isLate_of_forwardRest (h : r.forwardRest w t = (.error e, r')) : e.IsLate := by
  fun_induction forwardRest w t r with
  | case1 t r _ _ client buffer _ e' r₁ hpass =>
    cases h
    exact isLate_of_pass hpass
  | case2 => cases h
  | case3 t r _ _ client buffer _ t₁ r₁ _ ih => exact ih h
  | case4 =>
    cases h
    exact isLate_failureOfReceived ..

theorem isLate_of_run {body : RequestBody} (h : r.run w body = (.error e, r')) : e.IsLate := by
  unfold run at h
  split at h
  · cases h
  split at h
  · exact isLate_of_forwardRest h
  split at h
  · rename_i hpass
    cases h
    exact isLate_of_pass hpass
  · cases h
  · exact isLate_of_forwardRest h

end RequestBodyRelay

namespace ResponseRelay

variable {r r' : ResponseRelay} {e : ExchangeFailure}

theorem isLate_of_pass {n : Nat} (h : r.pass n = (.error e, r')) : e.IsLate := by
  unfold pass at h
  split at h <;> cases h
  exact trivial

theorem isLate_of_readHeads {fed : Nat} (h : r.readHeads fed = (.error e, r')) : e.IsLate := by
  fun_induction readHeads fed r with
  | case1 | case3 | case6 => cases h
  | case2 =>
    cases h
    exact trivial
  | case4 fed r _ _ _ n parser _ _ e' r₁ hpass =>
    cases h
    exact isLate_of_pass hpass
  | case5 fed r _ _ _ n parser _ _ r₁ _ ih => exact ih h

theorem isLate_of_awaitHead {fed : Nat} (h : r.awaitHead fed = (.error e, r')) : e.IsLate := by
  fun_induction awaitHead fed r with
  | case1 fed r e' r₁ hread =>
    cases h
    exact isLate_of_readHeads hread
  | case2 => cases h
  | case3 =>
    cases h
    exact trivial
  | case4 fed r r₁ _ _ _ _ backend buffer _ ih => exact ih h
  | case5 =>
    cases h
    exact isLate_failureOfReceived ..

theorem isLate_of_passBody {head : Nat} {t : BodyTracker} (h : r.passBody head t = (.error e, r')) :
    e.IsLate := by
  unfold passBody at h
  split at h
  · cases h
    exact trivial
  · simp only at h
    split at h
    · rename_i hpass
      cases h
      exact isLate_of_pass hpass
    · cases h

theorem isLate_of_relayBody {delimited : Bool} {t : BodyTracker}
    (h : r.relayBody delimited t = (.error e, r')) :
    e.IsLate := by
  fun_induction relayBody delimited t r with
  | case1 t r _ _ backend buffer _ e' r₁ hpass =>
    cases h
    exact isLate_of_passBody hpass
  | case2 => cases h
  | case3 t r _ _ backend buffer _ t₁ r₁ _ ih => exact ih h
  | case4 =>
    obtain ⟨he, -⟩ := Prod.mk.inj h
    cases he
    exact trivial
  | case5 => cases (Prod.mk.inj h).1
  | case6 =>
    cases h
    exact isLate_failureOfReceived ..

theorem isLate_of_run {headRequest : Bool} (h : r.run headRequest = (.error e, r')) : e.IsLate := by
  unfold run at h
  split at h
  · rename_i hawait
    cases h
    exact isLate_of_awaitHead hawait
  simp only at h
  split at h
  · rename_i hpass
    cases h
    exact isLate_of_passBody hpass
  · split at h <;> cases h
    exact trivial
  · split at h
    · rename_i hrelay
      cases h
      exact isLate_of_relayBody hrelay
    · split at h <;> cases h
      exact trivial

end ResponseRelay

namespace Transfer

variable {net : Network σ} {link : LinkId} {t t' : Transfer σ} {e : ExchangeFailure}

theorem isLate_of_send {bs : Bytes} (h : t.send net link bs = (.error e, t')) : e.IsLate := by
  unfold send at h
  split at h <;> cases h
  exact trivial

theorem isLate_of_sendBody {body : RequestBody} (h : t.sendBody net link body = (.error e, t')) :
    e.IsLate := by
  have hrun : (RequestBodyRelay.run (net.writer link) body
    { client := t.reading.client, buffer := t.reading.buffer, backend := t.network }).1 =
    .error e :=
      congrArg Prod.fst h
  exact RequestBodyRelay.isLate_of_run (Prod.ext hrun rfl)

theorem isLate_of_flush (h : t.flush net link = (.error e, t')) : e.IsLate := by
  unfold flush at h
  split at h <;> cases h
  exact trivial

theorem isLate_of_receive {headRequest : Bool}
    (h : t.receive net link headRequest = (.error e, t')) : e.IsLate := by
  have hrun : ((t.relay net link t.network).run headRequest).1 = .error e := congrArg Prod.fst h
  exact ResponseRelay.isLate_of_run (Prod.ext hrun rfl)

theorem isLate_of_run {head : Bytes} {request : RequestHead}
    (h : t.run net link head request = (.error e, t')) :
    e.IsLate := by
  unfold run at h
  split at h
  · rename_i hsend
    cases h
    exact isLate_of_send hsend
  split at h
  · rename_i hbody
    cases h
    exact isLate_of_sendBody hbody
  split at h
  · rename_i hflush
    cases h
    exact isLate_of_flush hflush
  · exact isLate_of_receive h

end Transfer

/-! ### What the registry makes of it -/

section

variable {r : Registry} {n : Node}

theorem stateOf_elect (h : r.Consistent) (hn : n ∈ r.nodes) (id : Nat) :
    (r.elect n).stateOf id = if id = n.id then (r.stateOf id).elect else r.stateOf id := by
  split
  · rename_i hid
    subst hid
    exact Registry.stateOf_updateState_self (h.id_pos n hn) (h.id_lt n hn) _
  · rename_i hid
    exact Registry.stateOf_updateState_of_ne hid _

/-- The states after a node that was up has been elected and then marked down, as it could not be
reached. -/
theorem stateOf_markDown_elect (h : r.Consistent) (hn : n ∈ r.nodes) (hup : r.isUp n = true)
    (id : Nat) :
    ((r.elect n).markDown n).2.stateOf id =
      if id = n.id then { (r.stateOf id).elect with status := .down } else r.stateOf id := by
  have helected : (r.elect n).Consistent := h.changes (Registry.changes_elect r n)
  have hn' : n ∈ (r.elect n).nodes := (Registry.nodes_elect r n).1.symm ▸ hn
  have hstatus : (r.stateOf n.id).elect.status = .up := eq_of_beq hup
  have hself := stateOf_elect h hn n.id
  rw [if_pos rfl] at hself
  have hup' : (r.elect n).isUp n = true := by
    rw [Registry.isUp, hself]
    exact beq_iff_eq.2 hstatus
  have hdown (id : Nat) : ((r.elect n).markDown n).2.stateOf id =
      ((r.elect n).updateState n.id (·.move .up .down)).stateOf id := by
    rw [Registry.markDown, if_pos hup']
    cases id <;> rfl
  rw [hdown]
  split
  · rename_i hid
    subst hid
    rw [Registry.stateOf_updateState_self (helected.id_pos n hn') (helected.id_lt n hn'),
      hself, NodeState.move, if_pos hstatus]
  · rename_i hid
    rw [Registry.stateOf_updateState_of_ne hid, stateOf_elect h hn, if_neg hid]

end

namespace Exchange

variable {net : Network σ} {peer : HostAddress} {request : RequestHead}
    {x x' : Exchange} {c c' : Conversation σ}
  {e : ExchangeFailure}

/-- A `checkout` changes nothing of the proxy but the queues, whether there is a connection or
not. -/
theorem checkout_eq (net : Network σ) (n : Node) (p : Proxy) (s : σ) :
    (net.checkout n p s).2.1 = { p with idle := (p.idle.take (net.isOpen s) n).2 } := by
  unfold Network.checkout
  simp only
  (repeat' split) <;> rfl

/-- The ways in which an exchange fails: there was no node for its request; or there was, but it
could not be reached and was marked down; or there was a connection to it, which is closed. -/
inductive Fails (net : Network σ) (request : RequestHead) (x : Exchange) (c : Conversation σ) :
    ExchangeFailure → Exchange → Conversation σ → Prop
  | selection (f : SelectionFailure) :
      Fails net request x c (.selection f) { x with phase := .failed } c
  | connection (f : ConnectFailure) (n : Node) (network : σ) :
      n ∈ c.proxy.registry.nodes → c.proxy.registry.isUp n = true →
      (c.proxy.registry.resolve request).1 = .ok n →
      Fails net request x c (.connection f) { x with phase := .failed, node := some n }
        { reading := c.reading, network
          proxy := { c.proxy with
            registry := ((c.proxy.registry.elect n).markDown n).2
            idle := (c.proxy.idle.take (net.isOpen c.network) n).2 } }
  | late {e : ExchangeFailure} {x' : Exchange} (n : Node) (reading : RequestReading) (network : σ) :
      n ∈ c.proxy.registry.nodes → c.proxy.registry.isUp n = true →
      (c.proxy.registry.resolve request).1 = .ok n → e.IsLate → x'.node = some n →
      Fails net request x c e x'
        { reading, network
          proxy := { c.proxy with
            registry := c.proxy.registry.elect n
            idle := (c.proxy.idle.take (net.isOpen c.network) n).2 } }

/-- When a transfer fails, the failure is late, and the node of the exchange and the proxy are as
they were. -/
theorem transfer_eq_error {n : Node} {link : LinkId}
    (h : x.transfer net peer request n link c = (.error e, x', c')) :
    e.IsLate ∧ x'.node = x.node ∧ c'.proxy = c.proxy := by
  have hrun : (Transfer.run net link
    (request.forwarded c.reading.buffer.data
      (extraHeaders request n peer (requestName net request c.network).1)) request
    { reading := c.reading, network := (requestName net request c.network).2,
      buffer := x.slab.buffer, parser := x.parser }).1 = .error e := congrArg Prod.fst h
  have hnode : (x.transfer net peer request n link c).2.1.node = x.node := rfl
  have hproxy : (x.transfer net peer request n link c).2.2.proxy = c.proxy := rfl
  rw [h] at hnode hproxy
  exact ⟨Transfer.isLate_of_run (Prod.ext hrun rfl), hnode, hproxy⟩

/-- An exchange that fails does so in one of the ways of `Fails`. -/
theorem fails_of_run (hr : c.proxy.registry.Consistent)
    (h : x.run net peer request c = (.error e, x', c')) :
    Fails net request x c e x' c' := by
  unfold run connect at h
  rcases hr.resolveAmong_cases (fun _ hb => hb) request
    with ⟨n, hn, hup, hresolve⟩ | ⟨f, hresolve⟩ <;>
    rw [Registry.resolve, hresolve] at h
  · have hchosen : (c.proxy.registry.resolve request).1 = .ok n := congrArg Prod.fst hresolve
    simp only at h
    have hproxy := checkout_eq net n { c.proxy with registry := c.proxy.registry.elect n } c.network
    rcases hcheckout : net.checkout n { c.proxy with registry := c.proxy.registry.elect n }
      c.network with
      ⟨f | ⟨connection, reused⟩, proxy, network⟩ <;> rw [hcheckout] at h hproxy <;>
        simp only at h hproxy <;>
      subst hproxy
    · cases h
      exact .connection f n network hn hup hchosen
    · rcases htransfer : transfer net peer request n connection.link { x with node := some n }
        { c with proxy := _, network } with ⟨f | relayed, x₁, c₁⟩ <;> rw [htransfer] at h
      · cases h
        obtain ⟨hlate, hnode, hproxy⟩ := transfer_eq_error htransfer
        obtain ⟨reading, proxy, network⟩ := c'
        subst hproxy
        exact .late n reading network hn hup hchosen hlate hnode
      · cases h
  · cases h
    exact .selection f

/-- The effects of an exchange that fails with `e`, after any `actions` on the membership and
whatever the client and the backends do.  Every queue of waiting connections is a suffix of what it
was.  A node changes its status exactly if `e` is a `connection` failure and the exchange had chosen
that node, and then it was up and is down.  If `e` is a `selection` failure, nothing at all has been
done; if it is a `connection` failure, nothing was read from the client or sent to it.  If a node
was chosen, it was elected once, and no other was. -/
theorem run_error_effects (balancers : List BalancerRecord) (nodes : List NodeRecord)
    (actions : List Membership.Action) (net : Network σ) (peer : HostAddress)
    (request : RequestHead) (x : Exchange) (c : Conversation σ)
    (hc : c.proxy.toMembership = (Membership.start balancers nodes).run actions)
    (e : ExchangeFailure) (x' : Exchange) (c' : Conversation σ)
    (h : x.run net peer request c = (.error e, x', c')) :
    (∀ id, (c'.proxy.idle.queue? id).getD [] <:+ (c.proxy.idle.queue? id).getD []) ∧
    (∀ id, (c'.proxy.registry.stateOf id).status ≠ (c.proxy.registry.stateOf id).status →
      (c.proxy.registry.stateOf id).status = .up ∧ (c'.proxy.registry.stateOf id).status = .down) ∧
    (∀ id, (c'.proxy.registry.stateOf id).status ≠ (c.proxy.registry.stateOf id).status ↔
      (∃ f, e = .connection f) ∧ ∃ n, x'.node = some n ∧ n.id = id) ∧
    (∀ f, e = .selection f → c' = c) ∧
    (∀ f, e = .connection f → c'.reading = c.reading) ∧
    ((∀ f, e ≠ .selection f) → ∃ n ∈ c.proxy.registry.nodes,
      (c.proxy.registry.resolve request).1 = .ok n ∧ x'.node = some n ∧ ∀ id,
        (c'.proxy.registry.stateOf id).elected =
          (c.proxy.registry.stateOf id).elected + if id = n.id then 1 else 0) := by
  have hr : c.proxy.registry.Consistent := by
    rw [hc]
    exact Membership.consistent_registry_run balancers nodes actions
  cases fails_of_run hr h with
  | selection f =>
    refine ⟨fun _ => List.suffix_refl _, fun _ hne => absurd rfl hne, ?_, fun _ _ => rfl, nofun,
      fun hne => absurd rfl (hne f)⟩
    exact fun id => ⟨fun hne => absurd rfl hne, fun ⟨⟨_, he⟩, _⟩ => nomatch he⟩
  | connection f n network hn hup hchosen =>
    have hstate := stateOf_markDown_elect hr hn hup
    have hstatus : (c.proxy.registry.stateOf n.id).status = .up := eq_of_beq hup
    refine ⟨c.proxy.idle.suffix_take _ n, ?_, ?_, nofun, fun _ _ => rfl,
      fun _ => ⟨n, hn, hchosen, rfl, ?_⟩⟩ <;> intro id <;>
      simp only [hstate] <;> split
    · rename_i hid
      exact fun _ => ⟨hid ▸ hstatus, rfl⟩
    · exact fun hne => absurd rfl hne
    · rename_i hid
      rw [hid, hstatus]
      exact ⟨fun _ => ⟨⟨f, rfl⟩, n, rfl, rfl⟩, fun _ => nofun⟩
    · rename_i hid
      exact ⟨fun hne => absurd rfl hne, fun ⟨_, n', hn', hid'⟩ =>
        absurd (Option.some.inj hn' ▸ hid'.symm) hid⟩
    · rfl
    · rfl
  | late n reading network hn hup hchosen hlate hnode =>
    have hstate := stateOf_elect hr hn
    have hstatus (id : Nat) : ((c.proxy.registry.elect n).stateOf id).status =
        (c.proxy.registry.stateOf id).status := by
      rw [hstate]
      split <;> rfl
    refine ⟨c.proxy.idle.suffix_take _ n, fun id hne => absurd (hstatus id) hne,
      fun id => ?_, ?_, ?_,
      fun _ => ⟨n, hn, hchosen, hnode, fun id => ?_⟩⟩
    · refine ⟨fun hne => absurd (hstatus id) hne, ?_⟩
      rintro ⟨⟨f, rfl⟩, -⟩
      exact hlate.elim
    · rintro f rfl
      exact hlate.elim
    · rintro f rfl
      exact hlate.elim
    · simp only [hstate]
      split <;> rfl

end Exchange

/-- The network in which no node can be reached, and all connections that there were have been
closed. -/
def Network.unreachable : Network Unit where
  connect n s := (.error (.timedOut n.address), s)
  writer _ := { writeAll := fun _ s => (.error .timedOut, s), flush := fun s => (.ok (), s) }
  incoming _ _ := []
  setIncoming _ _ s := s
  requestId s := ("r", s)

namespace Exchange

/-- A node for which a connection is waiting. -/
def waitingNode : Node := { id := 1, record := { route := "a", host := "h", port := 2 } }

/-- The actions that leave a connection waiting for `waitingNode`. -/
def oneWaiting : List Membership.Action :=
  [.take (fun _ => true) waitingNode,
    .recycle (fun _ => true) waitingNode (waitingNode.connection 0)]

/-- A client of a proxy that has `waitingNode`. -/
def unlucky : Conversation Unit :=
  { reading := { client := {}, buffer := .ofCapacity 64 }
    proxy :=
      { (Membership.start [] [waitingNode.record]).run oneWaiting with
        buffers := { bufferSize := 64 } }
    network := () }

/-- The node of `unlucky` cannot be reached: the connection that waited for it was closed, the node
is down and was elected once, and of the client nothing was taken. -/
theorem run_error_effects_unreachable :
    let x : Exchange := { slab := { id := .pooled 1, buffer := .ofCapacity 64 }, parser := .new 64 }
    let request : RequestHead :=
      { method := "GET", path := "/", minor := 1, headers := [], length := 18,
        body := .none, keepAlive := true }
    unlucky.proxy.idle.queue? 1 = some [waitingNode.connection 0] ∧ ∃ x' c',
      x.run .unreachable (.v4 []) request unlucky =
        (.error (.connection (.timedOut "h:2")), x', c') ∧
      (c'.proxy.idle.queue? 1).getD [] <:+ [waitingNode.connection 0] ∧
      ((c'.proxy.registry.stateOf 1).status ≠ .up ↔ ∃ n, x'.node = some n ∧ n.id = 1) ∧
      c'.reading = unlucky.reading ∧ (c'.proxy.registry.stateOf 1).elected = 1 := by
  intro x request
  have hfails :
      (x.run .unreachable (.v4 []) request unlucky).1 = .error (.connection (.timedOut "h:2")) := by
    decide +kernel
  have hwaits : unlucky.proxy.idle.queue? 1 = some [waitingNode.connection 0] := by decide +kernel
  have hnodes : unlucky.proxy.registry.nodes = [waitingNode] := by decide +kernel
  have hstate : unlucky.proxy.registry.stateOf 1 = {} := by decide +kernel
  rcases hrun : x.run .unreachable (.v4 []) request unlucky with ⟨result, x', c'⟩
  rw [hrun] at hfails
  obtain rfl : result = _ := hfails
  obtain ⟨hqueue, -, hstatus, -, hreading, helected⟩ :=
    run_error_effects [] [waitingNode.record] oneWaiting .unreachable
      (.v4 []) request x unlucky rfl _ x' c' hrun
  obtain ⟨n, hn, -, -, hcount⟩ := helected nofun
  obtain rfl : n = waitingNode := List.mem_singleton.1 (hnodes ▸ hn)
  refine ⟨hwaits, x', c', rfl, ?_, ?_, hreading _ rfl, ?_⟩
  · have hqueue := hqueue 1
    rwa [hwaits, Option.getD_some] at hqueue
  · have hstatus := hstatus 1
    rw [hstate] at hstatus
    exact hstatus.trans ⟨And.right, fun hnode => ⟨⟨_, rfl⟩, hnode⟩⟩
  · rw [hcount, hstate]
    rfl

end Exchange

end ReverseProxy.Relay
