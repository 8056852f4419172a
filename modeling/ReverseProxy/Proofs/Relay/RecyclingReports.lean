import ReverseProxy.Proofs.Fleet.IdleQueues
import ReverseProxy.Proofs.Relay.ReusedConnections

/-!
# What an exchange reports of its connection

An exchange reports that it has given its connection back if the response was one after which a
backend serves another request.  Whether the connection then waits for another request is up to the
idle pool, and the pool looks at something else: at the version of the node, at the connection
itself, and at whether the node still has a queue.  All of these may have changed while the exchange
was under way (`Exchange.runAmid`).

So the report is right if and only if the pool takes the connection, or none is reported
(`Exchange.backendRecycled_iff_gains`).
-/

namespace ReverseProxy

open Fleet Message Operation Wire

namespace Fleet.IdlePool

variable {p p' : IdlePool} {isOpen : LinkId → Bool} {n : Node} {c : Connection}

/-- From `p` to `p'` the connection `c` has come to wait for the node `n`, behind all others. -/
def Gains (p : IdlePool) (n : Node) (c : Connection) (p' : IdlePool) : Prop :=
  p'.waitingFor n.id = p.waitingFor n.id ++ [c]

theorem not_gains_self (p : IdlePool) (n : Node) (c : Connection) : ¬p.Gains n c p := fun h =>
  absurd (List.self_eq_append_right.1 h) (List.cons_ne_nil _ _)

/-- The pool gains the connection by `recycle` exactly if it accepts it. -/
theorem gains_recycle_iff : p.Gains n c (p.recycle isOpen n c) ↔ p.Accepts isOpen n c := by
  constructor
  · intro hgains
    by_contra haccepts
    rw [recycle_eq, if_neg haccepts] at hgains
    exact not_gains_self p n c hgains
  · intro haccepts
    have hid : n.id = c.nodeId := (((Connection.fits_iff ..).1 haccepts.1).1).symm
    rw [Gains, waitingFor_recycle, if_pos ⟨hid, haccepts⟩]

end Fleet.IdlePool

namespace Relay

variable {σ : Type} {net : Network σ} {peer : HostAddress} {request : RequestHead} {x x' : Exchange}
  {c c' : Conversation σ}

/-- What happens beside an exchange: to the `members`, and on the `network`. -/
structure Meanwhile (σ : Type) where
  members : Membership → Membership := id
  network : σ → σ := id

/-- The conversation `c` after `m` has happened beside it. -/
def Conversation.after (c : Conversation σ) (m : Meanwhile σ) : Conversation σ :=
  { c with
    proxy := { c.proxy with toMembership := m.members c.proxy.toMembership },
    network := m.network c.network }

namespace Exchange

/-- Finds the node for a request, and a connection to it, while `m` happens between the two. -/
def connectAmid (net : Network σ) (request : RequestHead) (m : Meanwhile σ)
    (x : Exchange) (c : Conversation σ) :
    Except ExchangeFailure (Node × Connection) × Exchange × Conversation σ :=
  match c.proxy.registry.resolve request with
  | (.error e, registry) =>
      (.error (.selection e), x, { c with proxy := { c.proxy with registry } })
  | (.ok n, registry) =>
      let x := { x with node := some n }
      let c := Conversation.after { c with proxy := { c.proxy with registry } } m
      match net.checkout n c.proxy c.network with
      | (.error e, proxy, network) =>
          let proxy := { proxy with registry := (proxy.registry.markDown n).2 }
          (.error (.connection e), x, { c with proxy, network })
      | (.ok (connection, _), proxy, network) => (.ok (n, connection), x, { c with proxy, network })

/-- Forwards a request and relays the response, while `chosen` happens after the node has been
chosen, `connected` when there is a connection to it, and `relayed` when the response has been
relayed. -/
def runAmid (net : Network σ) (peer : HostAddress) (request : RequestHead)
    (chosen connected relayed : Meanwhile σ) (x : Exchange) (c : Conversation σ) :
    Except ExchangeFailure Outcome × Exchange × Conversation σ :=
  match x.connectAmid net request chosen c with
  | (.error e, x, c) => (.error e, { x with phase := .failed }, c)
  | (.ok (n, connection), x, c) =>
      match x.transfer net peer request n connection.link (c.after connected) with
      | (.error e, x, c) => (.error e, { x with phase := .failed }, c)
      | (.ok response, x, c) =>
          let (outcome, c) := x.settle net request n connection response (c.after relayed)
          (.ok outcome, { x with phase := .done }, c)

theorem connect_eq_connectAmid (net : Network σ) (request : RequestHead)
    (x : Exchange) (c : Conversation σ) :
    x.connect net request c = x.connectAmid net request {} c := rfl

/-- With nothing beside it, `runAmid` is `run`. -/
theorem run_eq_runAmid (net : Network σ) (peer : HostAddress) (request : RequestHead) (x : Exchange)
    (c : Conversation σ) : x.run net peer request c = x.runAmid net peer request {} {} {} c := rfl

/-- The idle pool at the end of an exchange that had the conversation `c` when there was a
connection. -/
def poolAtEnd (connected relayed : Meanwhile σ) (c : Conversation σ) : IdlePool :=
  ((c.after connected).after relayed).proxy.idle

/-- The connection is offered to the pool exactly if `backendRecycled` is reported. -/
theorem idle_runAmid {chosen connected relayed : Meanwhile σ} {outcome : Outcome}
    (h : x.runAmid net peer request chosen connected relayed c = (.ok outcome, x', c')) :
    ∃ n connection x₁ c₁, x.connectAmid net request chosen c = (.ok (n, connection), x₁, c₁) ∧
      c'.proxy.idle =
        if outcome.backendRecycled then
          (poolAtEnd connected relayed c₁).recycle (net.isOpen c'.network) n connection
        else poolAtEnd connected relayed c₁ := by
  unfold runAmid at h
  rcases hconnect : x.connectAmid net request chosen c with ⟨e | ⟨n, connection⟩, x₁, c₁⟩ <;>
    rw [hconnect] at h
  · cases h
  simp only at h
  -- a transfer has nothing to do with the membership
  have hproxy : (x₁.transfer net peer request n connection.link (c₁.after connected)).2.2.proxy =
      (c₁.after connected).proxy := rfl
  rcases htransfer : x₁.transfer net peer request n connection.link (c₁.after connected) with
    ⟨e | response, x₂, c₂⟩ <;> rw [htransfer] at h hproxy <;> cases h
  have hproxy : c₂.proxy = (c₁.after connected).proxy := hproxy
  refine ⟨n, connection, x₁, c₁, rfl, ?_⟩
  simp only [settle, poolAtEnd, Conversation.after, hproxy]

/-- What the report of an exchange is worth, whatever has happened while it was under way.  With
`pool` for the idle pool at the end of the exchange, the pool gains the connection if
`backendRecycled` is reported and `pool` accepts it, and only then; otherwise it stays as it is.  So
the report is right exactly if `pool` accepts the connection or `backendRecycled` is not
reported. -/
theorem backendRecycled_iff_gains {chosen connected relayed : Meanwhile σ} {outcome : Outcome}
    (h : x.runAmid net peer request chosen connected relayed c = (.ok outcome, x', c')) :
    ∃ n connection x₁ c₁, x.connectAmid net request chosen c = (.ok (n, connection), x₁, c₁) ∧
      let pool := poolAtEnd connected relayed c₁
      let accepts := pool.Accepts (net.isOpen c'.network) n connection
      (pool.Gains n connection c'.proxy.idle ↔ outcome.backendRecycled = true ∧ accepts) ∧
      (¬(outcome.backendRecycled = true ∧ accepts) → c'.proxy.idle = pool) ∧
      ((outcome.backendRecycled = true ↔ pool.Gains n connection c'.proxy.idle) ↔
        (outcome.backendRecycled = true → accepts)) := by
  obtain ⟨n, connection, x₁, c₁, hconnect, hidle⟩ := idle_runAmid h
  refine ⟨n, connection, x₁, c₁, hconnect, ?_⟩
  intro pool accepts
  have hgains :
      pool.Gains n connection c'.proxy.idle ↔ outcome.backendRecycled = true ∧ accepts := by
    rw [hidle]
    split
    · rename_i hrecycled
      rw [IdlePool.gains_recycle_iff, and_iff_right hrecycled]
    · rename_i hkept
      exact iff_of_false (IdlePool.not_gains_self pool n connection) fun hboth => hkept hboth.1
  refine ⟨hgains, fun hneither => ?_, ?_⟩
  · rw [hidle]
    split
    · rename_i hrecycled
      rw [IdlePool.recycle_eq, if_neg fun haccepts => hneither ⟨hrecycled, haccepts⟩]
    · rfl
  · rw [hgains, iff_self_and]

/-- The exchange with a backend that answers with `bareHead` succeeds, and reports that the
connection went back. -/
theorem exists_run_firstHead_bareHead :
    ∃ c outcome x' c' n connection x₁ c₁,
      eagerOpening.1.run (.answering bareHead) (.v4 []) firstHead c = (.ok outcome, x', c') ∧
      eagerOpening.1.connect (.answering bareHead) firstHead c = (.ok (n, connection), x₁, c₁) ∧
      outcome.backendRecycled = true := by
  have hx : eagerOpening.1.Fits := fits_opening (BufferPool.sound_new 64) eager []
  obtain ⟨reading, -, houtgoing⟩ := next_eagerOpening
  obtain ⟨n, connection, x₁, c₁, hconnect⟩ := exists_connect_firstHead bareHead reading
  have hrelay : ∀ s, ∃ relayed r, ResponseRelay.run false
      { backend := (Network.answering bareHead).incoming connection.link s,
        client := reading.client.outgoing,
        buffer := eagerOpening.1.slab.buffer.clear, parser := eagerOpening.1.parser.recycle } =
        (.ok relayed, r) := by
    intro s
    refine exists_run_bareHead (hx.ready _ _) ⟨?_, ?_⟩ rfl (List.append_nil bareHead)
    · exact List.forall_mem_singleton.2 ⟨bareHead, by decide, rfl⟩
    · rw [houtgoing]
      exact ⟨rfl, rfl⟩
  obtain ⟨outcome, x', c', hrun⟩ := exists_run_eq_ok (.v4 []) hconnect rfl (fun _ _ => ⟨_, rfl⟩)
    (fun _ => ⟨_, rfl⟩) hrelay
  obtain ⟨d, hdone⟩ := run_eq_ok hrun
  obtain ⟨heads, head, body, hresponds⟩ := hdone.responds hx
  exact ⟨_, outcome, x', c', n, connection, x₁, c₁, hrun, hconnect,
    (hdone.recycled_iff hx).2 (hresponds.inStep_of_bareHead rfl)⟩

/-- If another head that nobody has asked for has arrived by then, the pool has not taken the
connection. -/
theorem backendRecycled_iff_gains_unasked :
    ∃ c outcome x' c' n connection x₁ c₁,
      eagerOpening.1.run (.answering bareHead) (.v4 []) firstHead c = (.ok outcome, x', c') ∧
      eagerOpening.1.connect (.answering bareHead) firstHead c = (.ok (n, connection), x₁, c₁) ∧
      outcome.backendRecycled = true ∧ c'.proxy.idle = c₁.proxy.idle ∧
      ¬c₁.proxy.idle.Gains n connection c'.proxy.idle := by
  obtain ⟨c, outcome, x', c', n, connection, x₁, c₁, hrun, hconnect, hrecycled⟩ :=
    exists_run_firstHead_bareHead
  obtain ⟨n', connection', x₂, c₂, hconnect', hgains, hkept, -⟩ :=
    backendRecycled_iff_gains ((run_eq_runAmid ..).symm.trans hrun)
  cases hconnect.symm.trans ((connect_eq_connectAmid ..).trans hconnect')
  -- what has arrived keeps the connection from being used again
  have hclosed : ¬(outcome.backendRecycled = true ∧
      c₁.proxy.idle.Accepts (Network.isOpen (.answering bareHead) c'.network) n connection) :=
    fun h => Bool.false_ne_true h.2.2.1
  exact ⟨c, outcome, x', c', n, connection, x₁, c₁, hrun, hconnect, hrecycled,
      hkept hclosed, fun h =>
    hclosed (hgains.1 h)⟩

end Exchange

end Relay

end ReverseProxy
