import ReverseProxy.Fleet.Election
import ReverseProxy.Proofs.Fleet.RegistryRuns
import ReverseProxy.Proofs.Text.Cutting

/-!
# Which node a request goes to

A request is bound to a node by a balancer that finds its session value (`Registry.Qualifies`), and
otherwise goes to the node that has been chosen least (`Registry.IsLeastPressed`).  What
`Registry.resolveAmong` makes of this does not depend on the order in which the balancers are asked,
unless the request is bound to several nodes (`Registry.resolveAmong_qualified_or_least`).

A balancer that forces sessions to their nodes does so only where the node of the session is
registered (`Registry.resolve_forced_iff_registered`): if it is not, the request goes to another
node.
-/

namespace ReverseProxy.Fleet

open Message (RequestHead)

/-! ### Session values -/

/-- The session `value` ends in a dot and the `route` of a node. -/
def NamesRoute (value route : String) : Prop :=
  ∃ session, value.toList = session ++ '.' :: route.toList ∧ '.' ∉ route.toList ∧ route ≠ ""

theorem routeOfSession?_eq_some_iff {value route : String} :
    routeOfSession? value = some route ↔ NamesRoute value route := by
  constructor
  · intro h
    unfold routeOfSession? at h
    split at h
    · rename_i session c cs hcut
      cases h
      obtain ⟨hvalue, hdot⟩ := Text.cutLast?_eq_some_iff.1 hcut
      refine ⟨session, ?_, ?_, ?_⟩
      · rw [String.toList_ofList, hvalue]
      · rwa [String.toList_ofList]
      · intro hempty
        have hnil : (String.ofList (c :: cs)).toList = [] := congrArg String.toList hempty
        rw [String.toList_ofList] at hnil
        cases hnil
    · cases h
  · rintro ⟨session, hvalue, hdot, hne⟩
    have hcut : Text.cutLast? '.' value.toList = some (session, route.toList) :=
      Text.cutLast?_eq_some_iff.2 ⟨hvalue, hdot⟩
    unfold routeOfSession?
    rw [hcut]
    cases hroute : route.toList with
    | nil => exact absurd (String.toList_eq_nil_iff.1 hroute) hne
    | cons c cs =>
      show some (String.ofList (c :: cs)) = some route
      rw [← hroute, String.ofList_toList]

/-- A session value names one route. -/
theorem NamesRoute.unique {value route route' : String} (h : NamesRoute value route)
    (h' : NamesRoute value route') :
    route = route' :=
  Option.some.inj ((routeOfSession?_eq_some_iff.2 h).symm.trans (routeOfSession?_eq_some_iff.2 h'))

namespace Registry

/-! ### The first of the least -/

section

variable {α : Type} {measure : α → Nat} {xs : List α} {x : α}

/-- No element has a smaller `measure` than `x`, and those in front of it have a larger one. -/
def IsFirstLeast (measure : α → Nat) (xs : List α) (x : α) : Prop :=
  ∃ front back, xs = front ++ x :: back ∧ (∀ y ∈ front, measure x < measure y) ∧
    ∀ y ∈ back, measure x ≤ measure y

theorem firstLeast_eq_none_iff : firstLeast measure xs = none ↔ xs = [] := by
  cases xs with
  | nil => exact ⟨fun _ => rfl, fun _ => rfl⟩
  | cons y ys =>
    refine ⟨fun h => ?_, nofun⟩
    unfold firstLeast at h
    split at h
    · cases h
    · split at h <;> cases h

theorem firstLeast_eq_some_iff : firstLeast measure xs = some x ↔ IsFirstLeast measure xs x := by
  induction xs generalizing x with
  | nil =>
    constructor
    · intro h
      cases h
    · rintro ⟨front, back, h, -⟩
      cases front <;> cases h
  | cons y ys ih =>
    unfold firstLeast
    constructor
    · intro h
      split at h
      · rename_i hnone
        cases h
        obtain rfl := firstLeast_eq_none_iff.1 hnone
        exact ⟨[], [], rfl, List.forall_mem_nil _, List.forall_mem_nil _⟩
      · rename_i z hz
        obtain ⟨front, back, rfl, hfront, hback⟩ := ih.1 hz
        split at h
        · rename_i hle
          cases h
          refine ⟨[], _, rfl, List.forall_mem_nil _, ?_⟩
          rw [List.forall_mem_append, List.forall_mem_cons]
          exact ⟨fun w hw => Nat.le_trans hle (Nat.le_of_lt (hfront w hw)), hle,
            fun w hw => Nat.le_trans hle (hback w hw)⟩
        · rename_i hlt
          cases h
          exact ⟨y :: front, back, rfl, List.forall_mem_cons.2 ⟨Nat.lt_of_not_le hlt, hfront⟩,
            hback⟩
    · rintro ⟨front, back, heq, hfront, hback⟩
      cases front with
      | nil =>
        cases heq
        split
        · rfl
        · rename_i z hz
          obtain ⟨front, back, rfl, -⟩ := ih.1 hz
          rw [if_pos (hback z (List.mem_append_right _ (List.mem_cons_self ..)))]
      | cons w front =>
        cases heq
        obtain ⟨hy, hfront⟩ := List.forall_mem_cons.1 hfront
        rw [ih.2 ⟨front, back, rfl, hfront, hback⟩]
        exact if_neg (Nat.not_le_of_lt hy)

end

variable {r r' : Registry} {request : RequestHead} {b : BalancerRecord} {n : Node}

/-- The node `n` is up, and is the first in the order of the registry that has the least pressure of
those that are. -/
def IsLeastPressed (r : Registry) (n : Node) : Prop :=
  ∃ front back, r.nodes = front ++ n :: back ∧ r.isUp n = true ∧
    (∀ m ∈ front, r.isUp m = true → r.pressure n < r.pressure m) ∧
    ∀ m ∈ back, r.isUp m = true → r.pressure n ≤ r.pressure m

theorem leastPressed?_eq_some_iff : r.leastPressed? = some n ↔ r.IsLeastPressed n := by
  rw [leastPressed?, firstLeast_eq_some_iff]
  constructor
  · rintro ⟨front, back, hfilter, hfront, hback⟩
    obtain ⟨front', rest, hnodes, rfl, hrest⟩ := List.filter_eq_append_iff.1 hfilter
    obtain ⟨skipped, back', rfl, hskipped, hup, rfl⟩ := List.filter_eq_cons_iff.1 hrest
    refine ⟨front' ++ skipped, back', by rw [hnodes, List.append_assoc], hup, ?_, ?_⟩
    · intro m hm hmup
      rcases List.mem_append.1 hm with hm | hm
      · exact hfront m (List.mem_filter.2 ⟨hm, hmup⟩)
      · exact absurd hmup (hskipped m hm)
    · intro m hm hmup
      exact hback m (List.mem_filter.2 ⟨hm, hmup⟩)
  · rintro ⟨front, back, hnodes, hup, hfront, hback⟩
    refine ⟨front.filter r.isUp, back.filter r.isUp, ?_, ?_, ?_⟩
    · rw [hnodes, List.filter_append, List.filter_cons_of_pos hup]
    · intro m hm
      obtain ⟨hm, hmup⟩ := List.mem_filter.1 hm
      exact hfront m hm hmup
    · intro m hm
      obtain ⟨hm, hmup⟩ := List.mem_filter.1 hm
      exact hback m hm hmup

theorem leastPressed?_eq_none_iff : r.leastPressed? = none ↔ ∀ n ∈ r.nodes, ¬r.isUp n = true := by
  rw [leastPressed?, firstLeast_eq_none_iff, List.filter_eq_nil_iff]

theorem IsLeastPressed.mem (h : r.IsLeastPressed n) : n ∈ r.nodes := by
  obtain ⟨front, back, hnodes, -⟩ := h
  rw [hnodes]
  exact List.mem_append_right _ (List.mem_cons_self ..)

theorem IsLeastPressed.isUp (h : r.IsLeastPressed n) : r.isUp n = true := by
  obtain ⟨-, -, -, hup, -⟩ := h
  exact hup

/-! ### Elections -/

/-- From `r` to `r'` the node `n` was elected once, and nothing else changed. -/
structure ElectedOnce (r : Registry) (n : Node) (r' : Registry) : Prop where
  nodes_eq : r'.nodes = r.nodes
  balancers_eq : r'.balancers = r.balancers
  wake_eq : r'.wake = r.wake
  nextId_eq : r'.nextId = r.nextId
  elected_eq : r'.stateOf n.id = { r.stateOf n.id with elected := (r.stateOf n.id).elected + 1 }
  others_eq : ∀ id, id ≠ n.id → r'.stateOf id = r.stateOf id

theorem Consistent.electedOnce_elect (h : r.Consistent) (hn : n ∈ r.nodes) :
    ElectedOnce r n (r.elect n) where
  nodes_eq := (nodes_updateState ..).1
  balancers_eq := balancers_updateState ..
  wake_eq := wake_updateState ..
  nextId_eq := (nodes_updateState ..).2
  elected_eq := stateOf_updateState_self (h.id_pos n hn) (h.id_lt n hn) _
  others_eq _ hid := stateOf_updateState_of_ne hid _

/-! ### Balancers that bind a request -/

/-- The balancer `b` binds the request to the node `n`: it is sticky, the request has a session
value for it, in a cookie or else in the path, and the value names the route of `n`, which belongs
to it. -/
structure Qualifies (r : Registry) (request : RequestHead) (b : BalancerRecord)
    (n : Node) : Prop where
  registered : b ∈ r.balancers
  sticky : b.sticky = true
  session : ∃ value, (request.cookieValue? b.cookie).or (request.pathParameter? b.path) =
    some value ∧
    NamesRoute value n.route
  node_mem : n ∈ r.nodes
  belongs : n.record.balancer = b.name

theorem WellFormed.boundNode?_eq_some_iff (h : r.WellFormed) (hb : b ∈ r.balancers) :
    r.boundNode? request b = some n ↔ r.Qualifies request b n := by
  constructor
  · intro hbound
    simp only [boundNode?, Option.bind_eq_bind, Option.bind_eq_some_iff] at hbound
    obtain ⟨value, hvalue, route, hroute, n', hfind, hbelongs⟩ := hbound
    obtain ⟨hmem, rfl⟩ := mem_of_node?_eq_some hfind
    unfold BalancerRecord.sessionValue? at hvalue
    split at hvalue
    · rename_i hsticky
      split at hbelongs
      · rename_i hname
        cases hbelongs
        exact ⟨hb, hsticky, ⟨value, hvalue, routeOfSession?_eq_some_iff.1 hroute⟩, hmem, hname⟩
      · cases hbelongs
    · cases hvalue
  · rintro ⟨-, hsticky, ⟨value, hvalue, hroute⟩, hmem, hname⟩
    have hsession : b.sessionValue? request = some value := by
      rw [BalancerRecord.sessionValue?, if_pos hsticky, hvalue]
    simp only [boundNode?, Option.bind_eq_bind, hsession, Option.bind_some,
      routeOfSession?_eq_some_iff.2 hroute, h.node?_eq_some hmem]
    exact if_pos hname

/-- The balancer `b` decides for `n` exactly if `n` qualifies and is up. -/
theorem WellFormed.decision?_eq_ok_iff (h : r.WellFormed) (hb : b ∈ r.balancers) :
    r.decision? request b = some (.ok n) ↔ r.Qualifies request b n ∧ r.isUp n = true := by
  rw [← h.boundNode?_eq_some_iff hb]
  unfold decision?
  constructor
  · intro hd
    split at hd
    · cases hd
    · rename_i n' hn'
      split at hd
      · rename_i hup
        cases hd
        exact ⟨hn', hup⟩
      · split at hd <;> cases hd
  · rintro ⟨hbound, hup⟩
    rw [hbound]
    exact if_pos hup

/-- The balancer `b` refuses exactly if it forces sessions and the node that qualifies is down. -/
theorem WellFormed.decision?_eq_error_iff (h : r.WellFormed) (hb : b ∈ r.balancers)
    {e : SelectionFailure} :
    r.decision? request b = some (.error e) ↔
      ∃ n, r.Qualifies request b n ∧ ¬r.isUp n = true ∧ b.force = true ∧
      e = .stickyNodeDown n.route := by
  simp only [← h.boundNode?_eq_some_iff hb]
  unfold decision?
  constructor
  · intro hd
    split at hd
    · cases hd
    · rename_i n hn
      split at hd
      · cases hd
      · rename_i hdown
        split at hd
        · rename_i hforce
          cases hd
          exact ⟨n, hn, hdown, hforce, rfl⟩
        · cases hd
  · rintro ⟨n, hbound, hdown, hforce, rfl⟩
    rw [hbound]
    simp only [hdown, hforce, Bool.false_eq_true, if_true, if_false]

/-- If `b` decides anything, some node qualifies. -/
theorem WellFormed.exists_qualifies (h : r.WellFormed) (hb : b ∈ r.balancers)
    (hd : r.decision? request b ≠ none) :
    ∃ n, r.Qualifies request b n := by
  rcases hdecision : r.decision? request b with _ | _ | n
  · exact absurd hdecision hd
  · obtain ⟨n, hn, -⟩ := (h.decision?_eq_error_iff hb).1 hdecision
    exact ⟨n, hn⟩
  · exact ⟨n, ((h.decision?_eq_ok_iff hb).1 hdecision).1⟩

/-! ### Resolution -/

section

variable {enumeration : List BalancerRecord}

/-- If no balancer decides, `resolveAmong` elects the least pressed node. -/
theorem resolveAmong_of_undecided (h : ∀ b ∈ enumeration, r.decision? request b = none) :
    r.resolveAmong enumeration request =
      match r.leastPressed? with
      | some n => (.ok n, r.elect n)
      | none => (.error .noNode, r) := by
  unfold resolveAmong select
  rw [List.findSome?_eq_none_iff.2 h]
  cases r.leastPressed? <;> rfl

theorem resolveAmong_of_undecided_iff (h : ∀ b ∈ enumeration, r.decision? request b = none) :
    (∀ n, (r.resolveAmong enumeration request).1 = .ok n ↔ r.IsLeastPressed n) ∧
      ((r.resolveAmong enumeration request).1 = .error .noNode ↔ ∀ n ∈ r.nodes,
        ¬r.isUp n = true) := by
  rw [resolveAmong_of_undecided h, ← leastPressed?_eq_none_iff]
  cases hleast : r.leastPressed? with
  | none => simp [← leastPressed?_eq_some_iff, hleast]
  | some n => simp [← leastPressed?_eq_some_iff, hleast]

/-- If `f` decides for one element at most, `findSome?` does not depend on the order. -/
theorem findSome?_eq_of_unique {α β : Type} {f : α → Option β} {xs ys : List α}
    (hmem : ∀ x, x ∈ xs ↔ x ∈ ys) (hunique : ∀ x ∈ xs, ∀ y ∈ xs, f x ≠ none → f y ≠ none → x = y) :
    xs.findSome? f = ys.findSome? f := by
  cases hys : ys.findSome? f with
  | none =>
    rw [List.findSome?_eq_none_iff] at hys ⊢
    exact fun x hx => hys x ((hmem x).1 hx)
  | some d =>
    obtain ⟨y, hy, hd⟩ := List.exists_of_findSome?_eq_some hys
    have hy := (hmem y).2 hy
    have hfy : f y ≠ none := by
      rw [hd]
      exact nofun
    cases hxs : xs.findSome? f with
    | none => exact absurd (List.findSome?_eq_none_iff.1 hxs y hy) hfy
    | some d' =>
      obtain ⟨x, hx, hd'⟩ := List.exists_of_findSome?_eq_some hxs
      have hfx : f x ≠ none := by
        rw [hd']
        exact nofun
      obtain rfl := hunique x hx y hy hfx hfy
      exact hd'.symm.trans hd

/-- By `resolveAmong` a registered node that is up is elected, or nothing changes. -/
theorem Consistent.resolveAmong_cases (h : r.Consistent)
    (henum : ∀ b ∈ enumeration, b ∈ r.balancers) (request : RequestHead) :
    (∃ n ∈ r.nodes, r.isUp n = true ∧ r.resolveAmong enumeration request = (.ok n, r.elect n)) ∨
      ∃ e, r.resolveAmong enumeration request = (.error e, r) := by
  rcases hfind : enumeration.findSome? (r.decision? request) with _ | e | n
  · rw [resolveAmong_of_undecided (List.findSome?_eq_none_iff.1 hfind)]
    cases hleast : r.leastPressed? with
    | none => exact .inr ⟨_, rfl⟩
    | some n =>
      have hn := leastPressed?_eq_some_iff.1 hleast
      exact .inl ⟨n, hn.mem, hn.isUp, rfl⟩
  · refine .inr ⟨e, ?_⟩
    rw [resolveAmong, hfind]
  · obtain ⟨b, hb, hd⟩ := List.exists_of_findSome?_eq_some hfind
    obtain ⟨hn, hup⟩ := (h.wellFormed.decision?_eq_ok_iff (henum b hb)).1 hd
    refine .inl ⟨n, hn.node_mem, hup, ?_⟩
    rw [resolveAmong, hfind]

/-- If a node that is up qualifies, and no balancer would refuse one, `resolveAmong` elects a node
that qualifies. -/
theorem Consistent.exists_resolveAmong_eq_ok (h : r.Consistent)
    (henum : ∀ b, b ∈ enumeration ↔ b ∈ r.balancers)
    (hup : ∃ b n, r.Qualifies request b n ∧ r.isUp n = true)
    (hforce : ∀ b n, r.Qualifies request b n → b.force = true → r.isUp n = true) :
    ∃ b n, r.Qualifies request b n ∧ (r.resolveAmong enumeration request).1 = .ok n := by
  have hw := h.wellFormed
  obtain ⟨b₀, n₀, hn₀, hup₀⟩ := hup
  rcases hfind : enumeration.findSome? (r.decision? request) with _ | e | n
  · have hnone := List.findSome?_eq_none_iff.1 hfind b₀ ((henum b₀).2 hn₀.registered)
    rw [(hw.decision?_eq_ok_iff hn₀.registered).2 ⟨hn₀, hup₀⟩] at hnone
    cases hnone
  · obtain ⟨b, hb, hd⟩ := List.exists_of_findSome?_eq_some hfind
    obtain ⟨n, hn, hdown, hforced, -⟩ := (hw.decision?_eq_error_iff ((henum b).1 hb)).1 hd
    exact absurd (hforce b n hn hforced) hdown
  · obtain ⟨b, hb, hd⟩ := List.exists_of_findSome?_eq_some hfind
    refine ⟨b, n, ((hw.decision?_eq_ok_iff ((henum b).1 hb)).1 hd).1, ?_⟩
    rw [resolveAmong, hfind]

/-- The balancer `b` decides nothing if the nodes that qualify are down and it does not force
sessions. -/
theorem WellFormed.decision?_eq_none (h : r.WellFormed) (hb : b ∈ r.balancers)
    (hdown : ∀ n, r.Qualifies request b n → ¬r.isUp n = true ∧ b.force = false) :
    r.decision? request b = none := by
  rcases hd : r.decision? request b with _ | e | n
  · rfl
  · obtain ⟨n, hn, -, hforce, -⟩ := (h.decision?_eq_error_iff hb).1 hd
    rw [(hdown n hn).2] at hforce
    cases hforce
  · obtain ⟨hn, hup⟩ := (h.decision?_eq_ok_iff hb).1 hd
    exact absurd hup (hdown n hn).1

end

/-- How a request is resolved in any registry `r` that `actions` lead to, whatever the `enumeration`
of its balancers.  On success the node `n` is registered and up, and is elected once; on failure
nothing changes.  If a node that is up qualifies, and no balancer would refuse one, the request goes
to a node that qualifies.  If no node that is up qualifies, and no balancer would refuse, it goes to
the least pressed node, or fails with `noNode` exactly if no node is up.  If at most one balancer
has nodes that qualify, every `enumeration'` gives the same. -/
theorem resolveAmong_qualified_or_least (actions : List Action) (request : RequestHead)
    (enumeration : List BalancerRecord)
    (henum : enumeration.Perm (({} : Registry).run actions).balancers) :
    let r := ({} : Registry).run actions
    (∀ n, (r.resolveAmong enumeration request).1 = .ok n →
      n ∈ r.nodes ∧ r.isUp n = true ∧ r.ElectedOnce n (r.resolveAmong enumeration request).2) ∧
    (∀ e, (r.resolveAmong enumeration request).1 = .error e →
      (r.resolveAmong enumeration request).2 = r) ∧
    ((∃ b n, r.Qualifies request b n ∧ r.isUp n = true) →
      (∀ b n, r.Qualifies request b n → b.force = true → r.isUp n = true) →
      ∃ b n, r.Qualifies request b n ∧ (r.resolveAmong enumeration request).1 = .ok n) ∧
    ((∀ b n, r.Qualifies request b n → ¬r.isUp n = true ∧ b.force = false) →
      (∀ n, (r.resolveAmong enumeration request).1 = .ok n ↔ r.IsLeastPressed n) ∧
      ((r.resolveAmong enumeration request).1 = .error .noNode ↔ ∀ n ∈ r.nodes, ¬r.isUp n = true)) ∧
    ((∀ b n b' n', r.Qualifies request b n → r.Qualifies request b' n' → b = b') →
      ∀ enumeration' : List BalancerRecord, enumeration'.Perm r.balancers →
        r.resolveAmong enumeration' request = r.resolveAmong enumeration request) := by
  intro r
  have hr : r.Consistent := consistent_empty.changes (changes_run actions {})
  have hmem (b : BalancerRecord) : b ∈ enumeration ↔ b ∈ r.balancers := henum.mem_iff
  have hcases := hr.resolveAmong_cases (fun b => (hmem b).1) request
  refine ⟨?_, ?_, hr.exists_resolveAmong_eq_ok hmem, ?_, ?_⟩
  · intro n hn
    rcases hcases with ⟨n', hn', hup, heq⟩ | ⟨e, heq⟩ <;> rw [heq] at hn ⊢ <;> cases hn
    exact ⟨hn', hup, hr.electedOnce_elect hn'⟩
  · intro e he
    rcases hcases with ⟨n', hn', hup, heq⟩ | ⟨e', heq⟩ <;> rw [heq] at he ⊢
    cases he
  · intro hdown
    apply resolveAmong_of_undecided_iff
    intro b hb
    exact hr.wellFormed.decision?_eq_none ((hmem b).1 hb) (hdown b)
  · intro hunique enumeration' henum'
    have hfind : enumeration'.findSome? (r.decision? request) =
        enumeration.findSome? (r.decision? request) := by
      apply findSome?_eq_of_unique fun b => (henum'.trans henum.symm).mem_iff
      intro b hb b' hb' hd hd'
      obtain ⟨n, hn⟩ := hr.wellFormed.exists_qualifies (henum'.mem_iff.1 hb) hd
      obtain ⟨n', hn'⟩ := hr.wellFormed.exists_qualifies (henum'.mem_iff.1 hb') hd'
      exact hunique b n b' n' hn hn'
    rw [resolveAmong, hfind, resolveAmong]

/-- Two balancers, each with a cookie and a node of its own, of which the first node has been
elected less. -/
def twoBalancers : List Action :=
  [.putBalancer { name := "web" }, .putBalancer { name := "app", cookie := "APP" },
    .putNode { route := "a", host := "h", port := 1, balancer := "web" },
    .putNode { route := "b", host := "h", port := 2, balancer := "app" },
    .elect { id := 2, record := { route := "b", host := "h", port := 2, balancer := "app" } }]

/-- A request with one cookie. -/
def requestWithCookie (cookie : String) : RequestHead where
  method := "GET"
  path := "/"
  minor := 1
  headers := [{ name := "cookie", value := cookie }]
  length := 0
  body := .none
  keepAlive := true

/-- A request with the cookie of the second of `twoBalancers` goes to its node, in either order of
the balancers. -/
theorem resolveAmong_twoBalancers :
    let r := ({} : Registry).run twoBalancers
    let web : BalancerRecord := { name := "web" }
    let app : BalancerRecord := { name := "app", cookie := "APP" }
    let n : Node :=
      { id := 2, record := { route := "b", host := "h", port := 2, balancer := "app" } }
    let request := requestWithCookie "JSESSIONID=s.b; APP=s.b"
    [app, web].Perm r.balancers ∧ (r.resolveAmong [app, web] request).1 = .ok n ∧
      r.ElectedOnce n (r.resolveAmong [app, web] request).2 := by
  intro r web app n request
  have hperm : [app, web].Perm r.balancers := by decide +kernel
  have hok : (r.resolveAmong [app, web] request).1 = .ok n := by decide +kernel
  exact ⟨hperm, hok,
    ((resolveAmong_qualified_or_least twoBalancers request [app, web] hperm).1 n hok).2.2⟩

/-! ### Forced sessions -/

section

variable {value route : String}

/-- With `b` as the only balancer, the node that qualifies is the one of the route that the session
names, if there is one. -/
theorem Consistent.qualifies_iff (h : r.Consistent) (hb : r.balancers = [b])
    (hsticky : b.sticky = true)
    (hvalue : (request.cookieValue? b.cookie).or (request.pathParameter? b.path) = some value)
    (hroute : NamesRoute value route) :
    r.Qualifies request b n ↔ n ∈ r.nodes ∧ n.route = route := by
  constructor
  · rintro ⟨-, -, ⟨value', hvalue', hroute'⟩, hmem, -⟩
    obtain rfl := Option.some.inj (hvalue.symm.trans hvalue')
    exact ⟨hmem, hroute'.unique hroute⟩
  · rintro ⟨hmem, rfl⟩
    have hknown := isSome_balancer?_iff.1 (h.balancer_known n hmem)
    rw [hb, List.map_singleton, List.mem_singleton] at hknown
    exact ⟨hb ▸ List.mem_singleton.2 rfl, hsticky, ⟨value, hvalue, hroute⟩, hmem, hknown⟩

/-- With `b` as the only balancer, a session that names an unknown route decides nothing, forced or
not. -/
theorem Consistent.undecided_of_unknown (h : r.Consistent) (hb : r.balancers = [b])
    (hsticky : b.sticky = true)
    (hvalue : (request.cookieValue? b.cookie).or (request.pathParameter? b.path) = some value)
    (hroute : NamesRoute value route) (hunknown : ∀ n ∈ r.nodes, n.route ≠ route) :
    ∀ b' ∈ r.balancers, r.decision? request b' = none := by
  intro b' hb'
  obtain rfl : b' = b := List.mem_singleton.1 (hb ▸ hb')
  apply h.wellFormed.decision?_eq_none hb'
  intro n hn
  obtain ⟨hmem, hn⟩ := (h.qualifies_iff hb hsticky hvalue hroute).1 hn
  exact absurd hn (hunknown n hmem)

/-- If no balancer decides, `resolve` refuses no session. -/
theorem resolve_ne_stickyNodeDown (h : ∀ b ∈ r.balancers, r.decision? request b = none) :
    (r.resolve request).1 ≠ .error (.stickyNodeDown route) := by
  rw [resolve, resolveAmong_of_undecided h]
  cases r.leastPressed? <;> exact nofun

end

/-- With a forcing balancer `b` that is the only one, and a session `value` that names `route`: the
request goes to the node of the route if that is up.  It fails with `stickyNodeDown` whenever no
node of the route is up, exactly if the route is registered; with an unknown route it goes to the
least pressed node. -/
theorem resolve_forced_iff_registered (actions : List Action) (request : RequestHead)
    (b : BalancerRecord)
    (hb : (({} : Registry).run actions).balancers = [b]) (hsticky : b.sticky = true)
    (hforce : b.force = true) (value route : String)
    (hvalue : (request.cookieValue? b.cookie).or (request.pathParameter? b.path) = some value)
    (hroute : NamesRoute value route) :
    let r := ({} : Registry).run actions
    (∀ n ∈ r.nodes, n.route = route → r.isUp n = true → r.resolve request = (.ok n, r.elect n)) ∧
    (((¬∃ n ∈ r.nodes, n.route = route ∧ r.isUp n = true) →
        r.resolve request = (.error (.stickyNodeDown route), r)) ↔ ∃ n ∈ r.nodes, n.route = route) ∧
    ((∀ n ∈ r.nodes, n.route ≠ route) →
      (∀ n, (r.resolve request).1 = .ok n ↔ r.IsLeastPressed n) ∧
      ((r.resolve request).1 = .error .noNode ↔ ∀ n ∈ r.nodes, ¬r.isUp n = true)) := by
  intro r
  have hr : r.Consistent := consistent_empty.changes (changes_run actions {})
  have hbr : b ∈ r.balancers := by
    rw [hb]
    exact List.mem_singleton.2 rfl
  have hbound {n : Node} : r.Qualifies request b n ↔ n ∈ r.nodes ∧ n.route = route :=
    hr.qualifies_iff hb hsticky hvalue hroute
  have hdecides : r.balancers.findSome? (r.decision? request) = r.decision? request b := by
    rw [hb, List.findSome?_singleton]
  have hundecided := hr.undecided_of_unknown hb hsticky hvalue hroute
  refine ⟨?_, ⟨?_, ?_⟩, fun hunknown => resolveAmong_of_undecided_iff (hundecided hunknown)⟩
  · intro n hmem hn hup
    have hd := (hr.wellFormed.decision?_eq_ok_iff hbr).2 ⟨hbound.2 ⟨hmem, hn⟩, hup⟩
    rw [resolve, resolveAmong, hdecides, hd]
  · intro hfails
    by_contra hnone
    have hunknown : ∀ n ∈ r.nodes, n.route ≠ route := fun n hmem hn => hnone ⟨n, hmem, hn⟩
    have hfails := hfails fun ⟨n, hmem, hn, _⟩ => hunknown n hmem hn
    exact resolve_ne_stickyNodeDown (hundecided hunknown) (congrArg Prod.fst hfails)
  · rintro ⟨n, hmem, rfl⟩ hdown
    have hn := hbound.2 ⟨hmem, rfl⟩
    have hd := (hr.wellFormed.decision?_eq_error_iff hbr).2
      ⟨n, hn, fun hup => hdown ⟨n, hmem, rfl, hup⟩, hforce, rfl⟩
    rw [resolve, resolveAmong, hdecides, hd]

/-- The session of the request names a route that is not registered.  The request does not fail,
although sessions are forced to their nodes: it goes to the other node. -/
theorem resolve_forced_unknownRoute :
    let b : BalancerRecord := { force := true }
    let n : Node := { id := 1, record := { route := "a", host := "h", port := 1 } }
    let r := ({} : Registry).run [.putBalancer b, .putNode n.record]
    let request := requestWithCookie "JSESSIONID=s.gone"
    r.balancers = [b] ∧
      (request.cookieValue? b.cookie).or (request.pathParameter? b.path) = some "s.gone" ∧
      (r.resolve request).1 = .ok n ∧
      ¬((¬∃ n ∈ r.nodes, n.route = "gone" ∧ r.isUp n = true) →
        r.resolve request = (.error (.stickyNodeDown "gone"), r)) := by
  intro b n r request
  have hb : r.balancers = [b] := by decide +kernel
  have hvalue :
      (request.cookieValue? b.cookie).or (request.pathParameter? b.path) = some "s.gone" := by
    decide +kernel
  have hroute : NamesRoute "s.gone" "gone" := ⟨['s'], by decide, by decide, by decide⟩
  have hunknown : ∀ n ∈ r.nodes, n.route ≠ "gone" := by decide +kernel
  obtain ⟨-, hregistered, hfallback⟩ :=
    resolve_forced_iff_registered [.putBalancer b, .putNode n.record] request b hb
    rfl rfl "s.gone" "gone" hvalue hroute
  refine ⟨hb, hvalue, ?_, ?_⟩
  · exact ((hfallback hunknown).1 n).2 (leastPressed?_eq_some_iff.1 (by decide +kernel))
  · intro hfails
    obtain ⟨n, hn, hgone⟩ := hregistered.1 hfails
    exact hunknown n hn hgone

end Registry

end ReverseProxy.Fleet
