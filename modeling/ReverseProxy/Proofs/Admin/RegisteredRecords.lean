import ReverseProxy.Admin.Service
import ReverseProxy.Proofs.Fleet.IdleConnections
import ReverseProxy.Proofs.Fleet.Reconciliation
import ReverseProxy.Proofs.Operation.ProxyFromSettings

/-!
# The records of registered nodes

Nodes are registered by settings, when the proxy is built and whenever the settings document
changes, and by administrators.  An `Action` is one or the other, and actions follow one another in
any order.

All the nodes that are ever registered have routes of their own and an address.  That they have a
route at all, as settings demand it, is another matter: it is so exactly as long as no administrator
registers a node with an empty one (`State.isValid_iff_no_emptyRoute`), which is not refused
(`State.emptyRoute_registered`).
-/

namespace ReverseProxy

open Fleet

namespace Admin

open Operation

/-- The request `q` registers `record`: it is authorized, asks to put a node, brings the record, and
this has an address. -/
structure Request.Registers (key : String) (q : Request) (record : NodeRecord) : Prop where
  isAuthorized : q.isAuthorized key = true
  method_eq : q.method = "POST"
  resource_eq : Resource.ofAddress? q.address = some .nodes
  record_eq : q.record NodeRecord.shape = .ok record
  hasAddress : record.HasAddress

/-- What happens to a proxy at work. -/
inductive Action where
  /-- The settings document was changed, and reads so now. -/
  | reload (document : String)
  /-- An administrator makes the request `q`. -/
  | ask (q : Request)

namespace State

/-- The state after the document was changed: if its settings make sense, they are reconciled with
the membership. -/
def reload (s : State) (document : String) : State :=
  match Settings.parse document with
  | .ok c =>
      { s with
        proxy :=
        { s.proxy with toMembership := s.proxy.toMembership.reconcile c.balancers c.nodes } }
  | .error _ => s

/-- The state after an action. -/
def handle (key : String) (s : State) : Action → State
  | .reload document => s.reload document
  | .ask q => (s.answer key q).2

/-- The state after `actions`, one after another. -/
def handleAll (key : String) (s : State) (actions : List Action) : State :=
  actions.foldl (handle key) s

variable {key : String} {s s' : State} {q : Request} {record : NodeRecord}

/-! ### What a request does to the registered nodes -/

/-- From `s` to `s'` no node is registered or gets another record. -/
structure Keeps (s s' : State) : Prop where
  changes : Relation.ReflTransGen Registry.Change s.proxy.registry s'.proxy.registry
  nodes_subset : ∀ n ∈ s'.proxy.registry.nodes, n ∈ s.proxy.registry.nodes

theorem Keeps.refl (s : State) : Keeps s s := ⟨.refl, fun _ hn => hn⟩

theorem Keeps.of_nodes_eq
    (hchanges : Relation.ReflTransGen Registry.Change s.proxy.registry s'.proxy.registry)
    (hnodes : s'.proxy.registry.nodes = s.proxy.registry.nodes) : Keeps s s' :=
  ⟨hchanges, fun _ hn => hnodes ▸ hn⟩

theorem keeps_withName {f : String → Reply × State} (hf : ∀ name, Keeps s (f name).2)
    (segment : String) :
    Keeps s (s.withName segment f).2 := by
  unfold withName
  split
  · exact .refl s
  · exact hf _

theorem keeps_removeNode (s : State) (route : String) : Keeps s (s.removeNode route).2 := by
  unfold removeNode
  split
  · rename_i n m hremove
    obtain ⟨⟨n', registry⟩, hr, heq⟩ := Option.map_eq_some_iff.1 hremove
    cases heq
    exact ⟨.single (.removeNode hr), fun _ => Registry.mem_of_mem_removeNode hr⟩
  · exact .refl s

theorem keeps_mark (s : State) (status : Status) (route : String) :
    Keeps s (s.mark status route).2 := by
  unfold mark
  split
  · exact .refl s
  · rename_i n hn
    cases status with
    | up => exact .of_nodes_eq (Registry.changes_markUp _ n) (Registry.nodes_markUp ..).1
    | down => exact .of_nodes_eq (Registry.changes_markDown _ n) (Registry.nodes_markDown ..).1

theorem keeps_putBalancer (s : State) (b : BalancerRecord) : Keeps s (s.putBalancer b).2 := by
  unfold putBalancer
  split
  · exact .refl s
  · exact .of_nodes_eq (.single (.putBalancer b)) (Registry.nodes_putBalancer b)

theorem keeps_control (s : State) (action : String) : Keeps s (s.control action).2 := by
  have hproxy : (s.control action).2.proxy = s.proxy := by
    unfold control
    split <;> rfl
  exact .of_nodes_eq (by rw [hproxy]) (by rw [hproxy])

/-- A record with an address is registered by `putNode`. -/
theorem putNode_of_hasAddress (h : record.HasAddress) :
    (s.putNode record).2 = { s with proxy := { s.proxy with
      toMembership := (s.proxy.toMembership.putNode record).2 } } := by
  unfold putNode
  rw [Settings.nodeProblems_eq_nil_iff.2 h]

theorem putNode_of_not_hasAddress (h : ¬record.HasAddress) : (s.putNode record).2 = s := by
  unfold putNode
  split
  · rename_i hproblems
    exact absurd (Settings.nodeProblems_eq_nil_iff.1 hproblems) h
  · rfl

/-- The command `putNode` is that of one method on one resource. -/
theorem of?_eq_putNode_iff {method : String} {resource : Resource} :
    Command.of? method resource = some .putNode ↔ method = "POST" ∧ resource = .nodes := by
  constructor
  · intro h
    cases resource with
    | nodes =>
      simp only [Command.of?] at h
      split at h
      · cases h
      · split at h
        · rename_i hpost
          exact ⟨hpost, rfl⟩
        · cases h
    | balancers =>
      simp only [Command.of?] at h
      split at h
      · cases h
      · split at h <;> cases h
    | status | node | nodeDown | nodeUp | endpointAction => simp [Command.of?] at h
  · rintro ⟨rfl, rfl⟩
    rfl

theorem answer_of_registers (h : q.Registers key record) :
    (s.answer key q).2 = { s with proxy := { s.proxy with
      toMembership := (s.proxy.toMembership.putNode record).2 } } := by
  obtain ⟨hkey, hmethod, hresource, hrecord, haddress⟩ := h
  have hcommand : Command.of? "POST" .nodes = some .putNode := of?_eq_putNode_iff.2 ⟨rfl, rfl⟩
  have hhead : ("POST" : String) ≠ "HEAD" := by decide
  simp only [answer, hkey, hresource, hmethod, if_neg hhead, hcommand, perform, hrecord]
  exact putNode_of_hasAddress haddress

/-- After a request that `Registers` the record, a node with it is registered. -/
theorem exists_mem_answer (h : q.Registers key record) :
    ∃ n ∈ (s.answer key q).2.proxy.registry.nodes, n.record = record := by
  rw [answer_of_registers h]
  exact Registry.exists_mem_putNode s.proxy.registry record

theorem keeps_answer (h : ∀ record, ¬q.Registers key record) : Keeps s (s.answer key q).2 := by
  unfold answer
  split
  · exact .refl s
  rename_i hkey
  split
  · exact .refl s
  rename_i resource hresource
  simp only
  split
  · exact .refl s
  rename_i command hcommand
  simp only
  cases command with
  | showStatus => exact .refl s
  | listNodes => exact .refl s
  | putNode =>
    obtain ⟨hmethod, rfl⟩ := of?_eq_putNode_iff.1 hcommand
    simp only [perform]
    split
    · exact .refl s
    · rename_i record hrecord
      have hpost : q.method = "POST" := by
        split at hmethod
        · exact absurd hmethod (by decide)
        · exact hmethod
      have hauthorized : q.isAuthorized key = true := by simpa using hkey
      have haddress : ¬record.HasAddress := fun haddress =>
        h record ⟨hauthorized, hpost, hresource, hrecord, haddress⟩
      rw [putNode_of_not_hasAddress haddress]
      exact .refl s
  | removeNode segment => exact keeps_withName (keeps_removeNode s) segment
  | mark status segment => exact keeps_withName (keeps_mark s status) segment
  | listBalancers => exact .refl s
  | putBalancer =>
    simp only [perform]
    split
    · exact .refl s
    · exact keeps_putBalancer s _
  | control segment => exact keeps_withName (keeps_control s) segment

/-! ### What an action keeps -/

theorem changes_handle (s : State) (a : Action) :
    Relation.ReflTransGen Registry.Change s.proxy.registry (s.handle key a).proxy.registry := by
  cases a with
  | reload document =>
    simp only [handle, reload]
    split
    · rename_i c hparse
      show Relation.ReflTransGen _ _ (s.proxy.toMembership.reconcile c.balancers c.nodes).registry
      rw [Membership.registry_reconcile]
      exact (Registry.changes_foldl Registry.changes_applyNode c.nodes _).trans
        (Registry.changes_reconcile ..)
    · exact .refl
  | ask q =>
    by_cases h : ∃ record, q.Registers key record
    · obtain ⟨record, h⟩ := h
      rw [handle, answer_of_registers h]
      exact .single (.putNode record)
    · exact (keeps_answer (not_exists.1 h)).changes

/-- If the records of settings and of administrators satisfy `P`, so do those of registered
nodes. -/
theorem allRecords_handle {P : NodeRecord → Prop} (hvalid : ∀ record, record.IsValid → P record)
    {a : Action} (hask : ∀ q record, a = .ask q → q.Registers key record → P record)
    (h : Registry.AllRecords P s.proxy.registry) :
    Registry.AllRecords P (s.handle key a).proxy.registry := by
  cases a with
  | reload document =>
    simp only [handle, reload]
    split
    · rename_i c hparse
      have hrecords : ∀ record ∈ c.nodes, P record := fun record hrecord =>
        hvalid record (Settings.isValid_of_parse hparse record hrecord)
      show Registry.AllRecords P (s.proxy.toMembership.reconcile c.balancers c.nodes).registry
      rw [Membership.registry_reconcile]
      exact Registry.allRecords_reconcile (Registry.allRecords_applyNodes h hrecords) _ hrecords
    · exact h
  | ask q =>
    by_cases hq : ∃ record, q.Registers key record
    · obtain ⟨record, hq⟩ := hq
      rw [handle, answer_of_registers hq]
      exact Registry.allRecords_putNode h (hask q record rfl hq)
    · exact fun n hn => h n ((keeps_answer (not_exists.1 hq)).nodes_subset n hn)

/-! ### Runs -/

theorem handleAll_concat (key : String) (s : State) (actions : List Action) (a : Action) :
    s.handleAll key (actions ++ [a]) = (s.handleAll key actions).handle key a := by
  rw [handleAll, List.foldl_append]
  rfl

theorem changes_handleAll (actions : List Action) (s : State) :
    Relation.ReflTransGen Registry.Change s.proxy.registry
      (s.handleAll key actions).proxy.registry := by
  induction actions generalizing s with
  | nil => exact .refl
  | cons a actions ih => exact (changes_handle s a).trans (ih (s.handle key a))

theorem allRecords_handleAll {P : NodeRecord → Prop} (hvalid : ∀ record, record.IsValid → P record)
    {actions : List Action}
    (hask : ∀ q record, .ask q ∈ actions → q.Registers key record → P record)
    (h : Registry.AllRecords P s.proxy.registry) :
    Registry.AllRecords P (s.handleAll key actions).proxy.registry := by
  induction actions generalizing s with
  | nil => exact h
  | cons a actions ih =>
    apply ih
    · exact fun q record hq => hask q record (List.mem_cons_of_mem _ hq)
    · apply allRecords_handle hvalid _ h
      rintro q record rfl
      exact hask q record (List.mem_cons_self ..)

/-- The routes of a proxy built from a settings document, after any `actions`.  No two nodes have
one route, and every node `HasAddress`.  All nodes of all states on the way are valid exactly if no
administrator `Registers` a record with an empty route. -/
theorem isValid_iff_no_emptyRoute {files : Settings.Files} {document : String} {c : Settings.Config}
    {library : Settings.TrustLibrary} {proxy : Proxy} (hparse : Settings.parse document = .ok c)
    (hproxy : Proxy.ofConfig files c library = .ok proxy) (key : String) (actions : List Action) :
    let after (actions : List Action) : Registry :=
      (State.handleAll key { proxy } actions).proxy.registry
    ((after actions).nodes.map Node.route).Nodup ∧
    (∀ n ∈ (after actions).nodes, n.record.HasAddress) ∧
    ((∀ before, before <+: actions → ∀ n ∈ (after before).nodes, n.record.IsValid) ↔
      ∀ q record, .ask q ∈ actions → q.Registers key record → record.route ≠ "") := by
  intro after
  have hregistry : proxy.registry = .ofRecords c.balancers c.nodes := Proxy.registry_ofConfig hproxy
  have hvalid := Settings.isValid_of_parse hparse
  have hstart {P : NodeRecord → Prop} (hP : ∀ record, record.IsValid → P record) :
      Registry.AllRecords P proxy.registry := by
    rw [hregistry]
    exact Registry.allRecords_ofRecords c.balancers fun record hrecord =>
      hP record (hvalid record hrecord)
  refine ⟨?_, ?_, ?_, ?_⟩
  · have hconsistent : proxy.registry.Consistent := by
      rw [hregistry]
      exact Registry.consistent_empty.changes (Registry.changes_ofRecords ..)
    exact (hconsistent.changes (changes_handleAll actions { proxy })).routes_nodup
  · exact allRecords_handleAll (fun record h => h.toHasAddress) (fun q record _ h => h.hasAddress)
      (hstart fun record h => h.toHasAddress)
  · intro hall q record hq hregisters
    obtain ⟨before, rest, rfl⟩ := List.append_of_mem hq
    have hprefix : before ++ [.ask q] <+: before ++ .ask q :: rest :=
      ⟨rest, by rw [List.append_assoc]; rfl⟩
    have hlast : after (before ++ [.ask q]) =
        ((handleAll key { proxy } before).answer key q).2.proxy.registry :=
      congrArg (·.proxy.registry) (handleAll_concat key { proxy } before (.ask q))
    obtain ⟨n, hn, rfl⟩ := exists_mem_answer (s := handleAll key { proxy } before) hregisters
    exact (hall _ hprefix n (hlast ▸ hn)).route_ne
  · intro hask before hbefore
    apply allRecords_handleAll (fun _ h => h) _ (hstart fun _ h => h)
    intro q record hq hregisters
    exact ⟨hregisters.hasAddress, hask q record (hbefore.subset hq) hregisters⟩

/-- An administrator registers a node with an empty route. -/
def emptyRoute : Request where
  method := "POST"
  address := "/admin/nodes"
  authorization := some (Utf8.encode "Bearer secret")
  contentType := some (Utf8.encode "application/json")
  body := Utf8.encode "\x7b\"route\": \"\", \"host\": \"h\", \"port\": 2\x7d"

/-- The request `emptyRoute` is not refused, and then a node is registered that settings would not
have been allowed to name. -/
theorem emptyRoute_registered :
    let c : Settings.Config := { nodes := [{ route := "a", host := "h", port := 1 }] }
    let proxy : Proxy :=
      { registry := .ofRecords c.balancers c.nodes,
        buffers := { bufferSize := c.buffers.bufferSize } }
    Settings.parse "nodes = [[\"a\", \"h\", 1]]" = .ok c ∧
      Proxy.ofConfig (fun _ => .error "") c = .ok proxy ∧
      (State.answer "secret" { proxy } emptyRoute).1.code = 200 ∧
      ¬∀ before, before <+: [Action.ask emptyRoute] →
        ∀ n ∈ (State.handleAll "secret" { proxy } before).proxy.registry.nodes,
          n.record.IsValid := by
  intro c proxy
  have hparse : Settings.parse "nodes = [[\"a\", \"h\", 1]]" = .ok c := by decide +kernel
  have hproxy : Proxy.ofConfig (fun _ => .error "") c = .ok proxy := rfl
  have hrecord :
      emptyRoute.record NodeRecord.shape = .ok { route := "", host := "h", port := 2 } := by
    have hread : (emptyRoute.record NodeRecord.shape).toOption =
        some { route := "", host := "h", port := 2 } := by
      decide +kernel
    cases hr : emptyRoute.record NodeRecord.shape with
    | error reply => rw [hr] at hread; cases hread
    | ok record => rw [hr] at hread; exact congrArg Except.ok (Option.some.inj hread)
  have hregisters : emptyRoute.Registers "secret" { route := "", host := "h", port := 2 } :=
    { isAuthorized := by decide +kernel
      method_eq := rfl
      resource_eq := by decide +kernel
      record_eq := hrecord
      hasAddress := ⟨⟨'h', by decide, by decide⟩, by decide⟩ }
  have hiff := (isValid_iff_no_emptyRoute hparse hproxy "secret" [.ask emptyRoute]).2.2
  exact ⟨hparse, hproxy, by decide +kernel, fun hvalid =>
    hiff.1 hvalid _ _ (List.mem_singleton.2 rfl) hregisters rfl⟩

end State

end Admin

end ReverseProxy
