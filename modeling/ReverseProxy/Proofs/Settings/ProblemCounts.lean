import Mathlib.Data.List.Nodup
import ReverseProxy.Proofs.Settings.ValidNodes

/-!
# How often a problem is reported

Whoever mends settings by what is reported about them wants each problem to be named as often as it
is there.  `Config.faults` counts what is wrong with settings, problem by problem, and without the
memory of what came before that the search for problems has: of names and routes that occur several
times, all but one are too many.  The main statement is that each problem is reported as often as it
is counted.
-/

namespace ReverseProxy.Settings

open Fleet

/-- The addresses to be bound: those for clients and for administrators, and the one for
measurements if it is used. -/
def Config.addresses (c : Config) : List String :=
  [c.listener.bindAddress, c.admin.bindAddress] ++
    if c.observability.metricsEnabled then [c.observability.metricsAddress] else []

/-- The number of times that each problem is there in `c`. -/
def Config.faults (c : Config) : Problem → Nat
  | .bindAddress address =>
    if (Wire.SocketAddress.parse? address).isNone then c.addresses.count address else 0
  | .zeroBufferSize => if c.buffers.bufferSize = 0 then 1 else 0
  | .zeroMaxConnections => if c.listener.maxConnections = 0 then 1 else 0
  | .zeroHealthInterval => if c.healthCheck.intervalSecs = 0 then 1 else 0
  | .emptyRoute => (c.nodes.map NodeRecord.route).count ""
  | .duplicateRoute route =>
    if route = "" then 0 else (c.nodes.map NodeRecord.route).count route - 1
  | .duplicateBalancer name => (c.balancers.map BalancerRecord.name).count name - 1
  | .emptyHost route =>
      c.nodes.countP fun n => n.route = route ∧ n.host.toList.all Text.isBlank = true
  | .zeroPort route => c.nodes.countP fun n => n.route = route ∧ n.port = 0

/-! ### The parts of settings -/

theorem count_problemIf (b : Bool) (q p : Problem) :
    (problemIf b q).count p = if b = true ∧ q = p then 1 else 0 := by
  cases b <;> simp [problemIf, List.count_singleton]

/-- The number of uses of `name` that are too many: all in `names` but the first, and that too if it
is in `seen`. -/
def surplus (seen names : List String) (name : String) : Nat :=
  names.count name - if name ∈ seen then 0 else 1

theorem surplus_nil (names : List String) (name : String) :
    surplus [] names name = names.count name - 1 := by
  simp [surplus]

/-- A name in `seen` is in surplus wherever it is used; one that is not there is from its first use
on. -/
theorem surplus_cons (seen names : List String) (first name : String) :
    surplus seen (first :: names) name =
      (if seen.contains first = true ∧ first = name then 1 else 0) +
        surplus (first :: seen) names name := by
  simp only [surplus, List.count_cons, List.contains_iff_mem, List.mem_cons]
  by_cases hname : first = name
  · subst hname
    by_cases hseen : first ∈ seen
    · simp only [hseen, beq_self_eq_true, if_true, and_self, or_true]
      omega
    · simp [hseen]
  · simp [hname, Ne.symm hname]

theorem count_balancerProblems (seen : List String) (bs : List BalancerRecord) (p : Problem) :
    (balancerProblems seen bs).count p =
      match p with
      | .duplicateBalancer name => surplus seen (bs.map BalancerRecord.name) name
      | _ => 0 := by
  induction bs generalizing seen with
  | nil => cases p <;> simp [balancerProblems, surplus]
  | cons b bs ih =>
    rw [balancerProblems, List.count_append, count_problemIf, ih]
    cases p with
    | duplicateBalancer name =>
      simp only [List.map_cons, surplus_cons, Problem.duplicateBalancer.injEq]
    | _ => simp

theorem count_routeProblems (seen : List String) (route : String) (p : Problem) :
    (routeProblems seen route).count p =
      match p with
      | .emptyRoute => if route = "" then 1 else 0
      | .duplicateRoute route' =>
        if route' = "" then 0 else if seen.contains route = true ∧ route = route' then 1 else 0
      | _ => 0 := by
  unfold routeProblems
  split
  · rename_i hroute
    cases p with
    | duplicateRoute route' =>
      by_cases h : route' = ""
      · simp [h]
      · simp [hroute, h, Ne.symm h]
    | _ => simp
  · rename_i hroute
    rw [count_problemIf]
    cases p with
    | duplicateRoute route' =>
      by_cases h : route' = ""
      · simp [h, hroute]
      · simp [h]
    | _ => simp

theorem count_nodeProblems (n : NodeRecord) (p : Problem) :
    (nodeProblems n).count p =
      match p with
      | .emptyHost route => if n.route = route ∧ n.host.toList.all Text.isBlank = true then 1 else 0
      | .zeroPort route => if n.route = route ∧ n.port = 0 then 1 else 0
      | _ => 0 := by
  rw [nodeProblems, List.count_append, count_problemIf, count_problemIf, Text.isAllBlank]
  cases p with
  | emptyHost route => simp [and_comm]
  | zeroPort route => simp [and_comm]
  | _ => simp

theorem count_nodesProblems (seen : List String) (ns : List NodeRecord) (p : Problem) :
    (nodesProblems seen ns).count p =
      match p with
      | .emptyRoute => (ns.map NodeRecord.route).count ""
      | .duplicateRoute route =>
        if route = "" then 0 else surplus seen (ns.map NodeRecord.route) route
      | .emptyHost route =>
          ns.countP fun n => n.route = route ∧ n.host.toList.all Text.isBlank = true
      | .zeroPort route => ns.countP fun n => n.route = route ∧ n.port = 0
      | _ => 0 := by
  induction ns generalizing seen with
  | nil => cases p <;> simp [nodesProblems, surplus]
  | cons n ns ih =>
    rw [nodesProblems, List.count_append, List.count_append, count_routeProblems,
      count_nodeProblems, ih]
    cases p with
    | emptyRoute => simp [List.count_cons, Nat.add_comm]
    | duplicateRoute route =>
      by_cases h : route = ""
      · simp [h]
      · simp [h, surplus_cons]
    | emptyHost route => simp [List.countP_cons, Nat.add_comm]
    | zeroPort route => simp [List.countP_cons, Nat.add_comm]
    | _ => rfl

/-! ### All of it -/

theorem count_flatMap_addressProblems (addresses : List String) (p : Problem) :
    (addresses.flatMap addressProblems).count p =
      match p with
      | .bindAddress address =>
        if (Wire.SocketAddress.parse? address).isNone then addresses.count address else 0
      | _ => 0 := by
  induction addresses with
  | nil => cases p <;> simp
  | cons address addresses ih =>
    rw [List.flatMap_cons, List.count_append, ih, addressProblems, count_problemIf]
    cases p with
    | bindAddress address' =>
      by_cases h : address = address'
      · subst h
        by_cases hparse : (Wire.SocketAddress.parse? address).isNone = true <;>
          simp [hparse, Nat.add_comm]
      · simp [h]
    | _ => simp

theorem count_problems (c : Config) (p : Problem) : (problems c).count p = c.faults p := by
  have haddresses :
      (addressProblems c.listener.bindAddress ++ addressProblems c.admin.bindAddress ++
        if c.observability.metricsEnabled then addressProblems c.observability.metricsAddress
        else []) =
      c.addresses.flatMap addressProblems := by
    unfold Config.addresses
    split <;> simp
  rw [problems, haddresses]
  simp only [List.count_append, count_flatMap_addressProblems, count_problemIf,
    count_balancerProblems, count_nodesProblems, surplus_nil]
  cases p <;> simp [Config.faults]

theorem problems_eq_nil_iff {c : Config} : problems c = [] ↔ ∀ p, c.faults p = 0 := by
  simp only [← count_problems, List.count_eq_zero, List.eq_nil_iff_forall_not_mem]

/-- In settings in which nothing is wrong, every balancer has a name of its own. -/
theorem nodup_names_of_problems {c : Config} (h : problems c = []) :
    (c.balancers.map BalancerRecord.name).Nodup := by
  rw [List.nodup_iff_count_le_one]
  intro name
  exact Nat.le_of_sub_eq_zero (problems_eq_nil_iff.1 h (.duplicateBalancer name))

/-- In settings in which nothing is wrong, every node has a route of its own. -/
theorem nodup_routes_of_problems {c : Config} (h : problems c = []) :
    (c.nodes.map NodeRecord.route).Nodup := by
  have hfaults := problems_eq_nil_iff.1 h
  rw [List.nodup_iff_count_le_one]
  intro route
  by_cases hroute : route = ""
  · rw [hroute]
    exact Nat.le_succ_of_le (Nat.le_of_eq (hfaults .emptyRoute))
  · have hduplicate := hfaults (.duplicateRoute route)
    rw [Config.faults, if_neg hroute] at hduplicate
    exact Nat.le_of_sub_eq_zero hduplicate

/-- The problems of settings are reported each as often as it is there.  For every problem `p`, its
count in `problems c` is `c.faults p`; `validate` accepts `c` exactly if all of these are zero, and
else it fails with all the problems. -/
theorem validate_reports_once (c : Config) :
    (∀ p, (problems c).count p = c.faults p) ∧
    (validate c = .ok c ↔ ∀ p, c.faults p = 0) ∧
    ∀ failure, validate c = .error failure ↔
      failure = .problems (problems c) ∧ ∃ p, 0 < c.faults p := by
  refine ⟨count_problems c, ?_, ?_⟩
  · rw [validate_eq_ok_iff, problems_eq_nil_iff, and_iff_left rfl]
  · intro failure
    have hsome : (∃ p, 0 < c.faults p) ↔ problems c ≠ [] := by
      simp only [ne_eq, problems_eq_nil_iff, not_forall, Nat.pos_iff_ne_zero]
    rw [hsome]
    unfold validate
    cases problems c with
    | nil => simp
    | cons p ps => simp [eq_comm]

/-- Of two nodes of one route, the second of which has no address, three things are reported. -/
example :
    problems
      { nodes := [{ route := "n", host := "h", port := 1 },
          { route := "n", host := " ", port := 0 }] } =
      [.duplicateRoute "n", .emptyHost "n", .zeroPort "n"] := by decide +kernel

end ReverseProxy.Settings
