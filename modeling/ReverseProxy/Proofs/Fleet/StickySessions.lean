import ReverseProxy.Proofs.Fleet.Reconciliation
import ReverseProxy.Proofs.Fleet.Resolution
import ReverseProxy.Proofs.Message.Cookies
import ReverseProxy.Proofs.Settings.ValidNodes

/-!
# Sticky sessions

A cookie binds a session to the node whose route it ends in.  The route is what follows the last dot
of the cookie, so that a request is taken to its node whenever there is no dot in the route
(`NamesRoute.of_dotless`).  But settings accept routes with dots.  The cookie of a session with such
a node names the rest of the route after its last dot (`namesRoute_iff_of_dotted`), and the request
goes to the node of that route, or to any node (`Registry.resolve_sticky_session`).
-/

namespace ReverseProxy.Fleet

open Message

/-! ### What a cookie names -/

/-- A value that ends in a dot and a `route` without a dot names that route. -/
theorem NamesRoute.of_dotless {route : String} (h : '.' ∉ route.toList)
    (hne : route ≠ "") (session : String) :
    NamesRoute (session ++ "." ++ route) route := by
  refine ⟨session.toList, ?_, h, hne⟩
  rw [String.toList_append, String.toList_append, List.append_assoc]
  rfl

/-- In a value that ends in a `route` with a dot, the session does not matter: it names what `route`
names. -/
theorem namesRoute_iff_of_dotted {route : String} (h : '.' ∈ route.toList)
    (session route' : String) :
    NamesRoute (session ++ "." ++ route) route' ↔ NamesRoute route route' := by
  obtain ⟨front, back, hroute, hback⟩ : ∃ front back, route.toList = front ++ '.' :: back ∧
    '.' ∉ back := by
    obtain ⟨front, back, hroute, hback⟩ := List.eq_append_cons_of_mem (List.mem_reverse.2 h)
    refine ⟨back.reverse, front.reverse, ?_, fun hmem => hback (List.mem_reverse.1 hmem)⟩
    rw [← List.reverse_reverse route.toList, hroute]
    simp
  have hvalue :
      (session ++ "." ++ route).toList = (session.toList ++ '.' :: front) ++ '.' :: back := by
    rw [String.toList_append, String.toList_append, hroute]
    simp
  constructor
  · rintro ⟨session', hsplit, hdot, hne⟩
    have hcut := Text.cutLast?_eq_some_iff.2 ⟨hsplit, hdot⟩
    rw [Text.cutLast?_eq_some_iff.2 ⟨hvalue, hback⟩] at hcut
    obtain ⟨-, rfl⟩ := Prod.mk.inj (Option.some.inj hcut)
    exact ⟨front, hroute, hdot, hne⟩
  · rintro ⟨session', hsplit, hdot, hne⟩
    refine ⟨session.toList ++ '.' :: session', ?_, hdot, hne⟩
    rw [String.toList_append, String.toList_append, hsplit]
    simp

/-- A `route` with a dot names another route. -/
theorem NamesRoute.ne_of_dotted {route route' : String} (h : NamesRoute route route')
    (hdot : '.' ∈ route.toList) :
    route' ≠ route := by
  rintro rfl
  obtain ⟨-, -, hdotless, -⟩ := h
  exact hdotless hdot

namespace Registry

variable {r : Registry}

/-! ### Registries with routes -/

/-- The action registers no node without a route. -/
def Action.NamesRoutes : Action → Prop
  | .putNode record => record.route ≠ ""
  | .reconcile _ nodes => ∀ record ∈ nodes, record.route ≠ ""
  | _ => True

/-- No action of that kind brings a node without a route. -/
theorem route_ne_perform (h : AllRecords (·.route ≠ "") r) {a : Action} (ha : a.NamesRoutes) :
    AllRecords (·.route ≠ "") (r.perform a) := by
  have hnodes {r' : Registry} (heq : r'.nodes = r.nodes) : AllRecords (·.route ≠ "") r' :=
    fun n hn => h n (heq ▸ hn)
  cases a with
  | putNode record => exact allRecords_putNode h ha
  | reconcile balancers nodes => exact allRecords_reconcile h balancers ha
  | removeNode route =>
    rcases hr : r.removeNode route with _ | ⟨n, r'⟩ <;> simp only [perform, hr]
    · exact h
    · exact fun n hn => h n (mem_of_mem_removeNode hr hn)
  | putBalancer b => exact hnodes (nodes_putBalancer b)
  | select => exact hnodes (nodes_select r).1
  | selectSticky value => exact hnodes (nodes_selectSticky r value).1
  | resolve enumeration request => exact hnodes (nodes_resolveAmong enumeration r request).1
  | markDown n => exact hnodes (nodes_markDown r n).1
  | markUp n => exact hnodes (nodes_markUp r n).1
  | elect n => exact hnodes (nodes_elect r n).1
  | roll n => exact hnodes (nodes_updateState ..).1

/-- A registry built from valid settings has no node without a route after `actions` that bring
none. -/
theorem route_ne_run {c : Settings.Config} (hc : Settings.problems c = []) {actions : List Action}
    (h : ∀ a ∈ actions, a.NamesRoutes) :
    AllRecords (·.route ≠ "") ((ofRecords c.balancers c.nodes).run actions) := by
  rw [Settings.problems, List.append_eq_nil_iff] at hc
  refine List.foldlRecOn actions perform ?_ fun r hr a ha => route_ne_perform hr (h a ha)
  exact allRecords_ofRecords c.balancers fun record hrecord =>
    (Settings.isValid_of_nodesProblems hc.2 record hrecord).route_ne

/-! ### One sticky balancer -/

section

variable {request : RequestHead} {b : BalancerRecord} {value : String}
    {enumeration : List BalancerRecord}

/-- The nodes that qualify by a cookie are those of the balancer `b` that its value names. -/
theorem qualifies_iff_of_cookie (hb : b ∈ r.balancers) (hsticky : b.sticky = true)
    (hvalue : request.cookieValue? b.cookie = some value) {n : Node} :
    r.Qualifies request b n ↔
      n ∈ r.nodes ∧ n.record.balancer = b.name ∧ NamesRoute value n.route := by
  constructor
  · rintro ⟨-, -, ⟨value', hvalue', hroute⟩, hmem, hbelongs⟩
    rw [hvalue, Option.some_or] at hvalue'
    obtain rfl := Option.some.inj hvalue'
    exact ⟨hmem, hbelongs, hroute⟩
  · rintro ⟨hmem, hbelongs, hroute⟩
    exact ⟨hb, hsticky, ⟨value, by rw [hvalue, Option.some_or], hroute⟩, hmem, hbelongs⟩

/-- If only `b` is sticky, what it decides is decided, in whatever order the balancers are asked. -/
theorem findSome?_decision? (hunique : ∀ b' ∈ r.balancers, b'.sticky = true → b' = b)
    (hb : b ∈ r.balancers) (henum : enumeration.Perm r.balancers) :
    enumeration.findSome? (r.decision? request) = r.decision? request b := by
  have hsticky (b' : BalancerRecord) (hb' : b' ∈ r.balancers) (hd : r.decision? request b' ≠ none) :
      b' = b := by
    refine hunique b' hb' (by_contra fun hloose => hd ?_)
    have hbound : r.boundNode? request b' = none := by
      simp only [boundNode?, BalancerRecord.sessionValue?, if_neg hloose]
      rfl
    rw [decision?, hbound]
  have hmem := henum.mem_iff.2 hb
  cases hd : r.decision? request b with
  | none =>
    rw [List.findSome?_eq_none_iff]
    intro b' hb'
    by_contra hne
    exact hne (hsticky b' (henum.mem_iff.1 hb') hne ▸ hd)
  | some d =>
    have hne : enumeration.findSome? (r.decision? request) ≠ none := by
      rw [Ne, List.findSome?_eq_none_iff]
      intro hnone
      rw [hnone b hmem] at hd
      cases hd
    obtain ⟨d', hd'⟩ := Option.ne_none_iff_exists'.1 hne
    obtain ⟨b', hb', hdecides⟩ := List.exists_of_findSome?_eq_some hd'
    have heq : b' = b := hsticky b' (henum.mem_iff.1 hb') (hdecides ▸ Option.some_ne_none d')
    rw [hd', ← hdecides, heq, hd]

end

/-- In a registry built from valid settings, after any `actions`, let `b` be the only sticky
balancer, and `n` one of its nodes that is up, and let the cookie of the request be `session`, a dot
and the route of `n`.  If the route has no dot, the request goes to `n`, in whatever order the
balancers are asked.  If it has one, what follows its last dot decides: if a node of `b` has that
route, the request goes to this one, or is refused if it is down and `b` forces sessions; otherwise
it goes to the least pressed node. -/
theorem resolve_sticky_session (c : Settings.Config) (hc : Settings.problems c = [])
    (actions : List Action)
    (hactions : ∀ a ∈ actions, a.NamesRoutes) (b : BalancerRecord) (n : Node) (session : String)
    (request : RequestHead) (pairs : List CookiePair) (enumeration : List BalancerRecord)
    (hb : b ∈ ((ofRecords c.balancers c.nodes).run actions).balancers) (hsticky : b.sticky = true)
    (hunique : ∀ b' ∈ ((ofRecords c.balancers c.nodes).run actions).balancers,
      b'.sticky = true → b' = b)
    (hn : n ∈ ((ofRecords c.balancers c.nodes).run actions).nodes)
    (hbelongs : n.record.balancer = b.name)
    (hup : ((ofRecords c.balancers c.nodes).run actions).isUp n = true)
    (hcookies : request.CarriesCookies pairs) (hpair : ∃ p ∈ pairs, p.name = b.cookie)
    (hvalue : ∀ p ∈ pairs, p.name = b.cookie → p.value = session ++ "." ++ n.route)
    (henum : enumeration.Perm ((ofRecords c.balancers c.nodes).run actions).balancers) :
    let r := (ofRecords c.balancers c.nodes).run actions
    ('.' ∉ n.route.toList → r.resolveAmong enumeration request = (.ok n, r.elect n)) ∧
    ('.' ∈ n.route.toList →
      (∀ m ∈ r.nodes, m.record.balancer = b.name → NamesRoute n.route m.route →
        m ≠ n ∧ (r.isUp m = true → r.resolveAmong enumeration request = (.ok m, r.elect m)) ∧
        (¬r.isUp m = true → b.force = true →
          r.resolveAmong enumeration request = (.error (.stickyNodeDown m.route), r))) ∧
      ((∀ m ∈ r.nodes, m.record.balancer = b.name → NamesRoute n.route m.route →
          ¬r.isUp m = true ∧ b.force = false) →
        ∀ m, (r.resolveAmong enumeration request).1 = .ok m ↔ r.IsLeastPressed m)) := by
  intro r
  have hr : r.Consistent := consistent_empty.changes
    ((changes_ofRecords c.balancers c.nodes).trans
      (changes_run actions (ofRecords c.balancers c.nodes)))
  have hbound {m : Node} : r.Qualifies request b m ↔
      m ∈ r.nodes ∧ m.record.balancer = b.name ∧ NamesRoute (session ++ "." ++ n.route) m.route :=
    qualifies_iff_of_cookie hb hsticky (hcookies.cookieValue?_eq hpair hvalue)
  have hdecides : enumeration.findSome? (r.decision? request) = r.decision? request b :=
    findSome?_decision? hunique hb henum
  have hgoes {m : Node} (hm : r.Qualifies request b m) (hmup : r.isUp m = true) :
      r.resolveAmong enumeration request = (.ok m, r.elect m) := by
    rw [resolveAmong, hdecides, (hr.wellFormed.decision?_eq_ok_iff hb).2 ⟨hm, hmup⟩]
  constructor
  · intro hdotless
    have hne : n.route ≠ "" := route_ne_run hc hactions n hn
    exact hgoes (hbound.2 ⟨hn, hbelongs, NamesRoute.of_dotless hdotless hne session⟩) hup
  · intro hdotted
    have hbound {m : Node} : r.Qualifies request b m ↔
        m ∈ r.nodes ∧ m.record.balancer = b.name ∧ NamesRoute n.route m.route := by
      rw [hbound, namesRoute_iff_of_dotted hdotted]
    constructor
    · intro m hm hmbelongs hnames
      have hqualifies := hbound.2 ⟨hm, hmbelongs, hnames⟩
      refine ⟨?_, hgoes hqualifies, ?_⟩
      · rintro rfl
        exact hnames.ne_of_dotted hdotted rfl
      · intro hdown hforce
        have hd := (hr.wellFormed.decision?_eq_error_iff hb).2 ⟨m, hqualifies, hdown, hforce, rfl⟩
        rw [resolveAmong, hdecides, hd]
    · intro hnone
      have hundecided : r.decision? request b = none := by
        apply hr.wellFormed.decision?_eq_none hb
        intro m hm
        obtain ⟨hm, hmbelongs, hnames⟩ := hbound.1 hm
        exact hnone m hm hmbelongs hnames
      apply (resolveAmong_of_undecided_iff _).1
      rw [hundecided, List.findSome?_eq_none_iff] at hdecides
      exact hdecides

/-- Two nodes, of which the second has the route that the rest of the first one's is after the
dot. -/
def dottedSettings : Settings.Config :=
  { balancers := [{}]
    nodes :=
    [{ route := "a.b", host := "h", port := 80 }, { route := "b", host := "h", port := 81 }] }

/-- The cookie of a session with the first node of `dottedSettings`. -/
def dottedCookie : CookiePair where
  name := "JSESSIONID"
  value := "s.a.b"
  name_safe := List.all_eq_true.1 (by decide)
  equals_notMem := by decide
  value_safe := List.all_eq_true.1 (by decide)
  blank := List.forall_mem_nil _

/-- In `dottedSettings` there is no problem and both nodes are up, and the request of a session with
the first node goes to the second one. -/
theorem resolve_dottedCookie :
    let r := ofRecords dottedSettings.balancers dottedSettings.nodes
    let first : Node := { id := 1, record := { route := "a.b", host := "h", port := 80 } }
    let second : Node := { id := 2, record := { route := "b", host := "h", port := 81 } }
    let request := requestWithCookie "JSESSIONID=s.a.b"
    Settings.problems dottedSettings = [] ∧ request.CarriesCookies [dottedCookie] ∧
      r.isUp first = true ∧
      dottedCookie.value = "s" ++ "." ++ first.route ∧ second ≠ first ∧
      r.resolve request = (.ok second, r.elect second) := by
  intro r first second request
  have hc : Settings.problems dottedSettings = [] := by decide +kernel
  have hup : r.isUp first = true := by decide +kernel
  have hb : r.balancers = [{}] := by decide +kernel
  have hfirst : first ∈ r.nodes := by decide +kernel
  have hsecond : second ∈ r.nodes := by decide +kernel
  have hcookies : request.CarriesCookies [dottedCookie] :=
    ⟨[[dottedCookie]], rfl, by decide +kernel⟩
  have hunique : ∀ b' ∈ r.balancers, b'.sticky = true → b' = {} := by
    rw [hb]
    exact fun b' hb' _ => List.mem_singleton.1 hb'
  obtain ⟨-, hdotted⟩ :=
    resolve_sticky_session dottedSettings hc [] (List.forall_mem_nil _) {} first "s" request
    [dottedCookie] r.balancers (hb ▸ List.mem_singleton.2 rfl) rfl hunique hfirst rfl hup hcookies
    ⟨dottedCookie, List.mem_singleton.2 rfl, rfl⟩
    (List.forall_mem_singleton.2 fun _ => rfl) (.refl _)
  have hnames : NamesRoute first.route second.route := ⟨['a'], by decide, by decide, by decide⟩
  obtain ⟨hne, hgoes, -⟩ := (hdotted (by decide)).1 second hsecond rfl hnames
  exact ⟨hc, hcookies, hup, rfl, hne, hgoes (by decide +kernel)⟩

end Registry

end ReverseProxy.Fleet
