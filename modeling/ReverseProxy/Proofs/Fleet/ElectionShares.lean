import Mathlib.Algebra.BigOperators.Group.Finset.Basic
import Mathlib.Algebra.GroupWithZero.Nat
import Mathlib.Data.Multiset.Basic
import ReverseProxy.Proofs.Fleet.Resolution

/-!
# Shares of the elections

Each election goes to the node that has been chosen least as measured by its load.  Over elections
in a row (`Registry.selections`) every node gets a share in proportion to its load: before its last
election a node was no more pressed than any other is afterwards.  `Registry.Fair` is what one
election keeps of this (`Fair.elect`), and `Registry.selections_proportional` is what follows for
any number of elections.

Pressures are rounded down, so that the shares of two nodes are compared after rounding, and a node
without load has the largest pressure there is.  Both are told apart as long as the elections are so
few that no pressure reaches the end of a 64-bit word.
-/

namespace ReverseProxy.Fleet.Registry

variable {r r₁ r' : Registry} {n m : Node} {ns ms : List Node} {k : Nat}

/-- The nodes that the next `k` elections choose, one after the other, and the registry after
them. -/
def selections : Nat → Registry → List Node × Registry
  | 0, r => ([], r)
  | k + 1, r => (r.select.1.toList ++ (selections k r.select.2).1, (selections k r.select.2).2)

/-! ### What elections change -/

/-- From `r` to `r'` the nodes `ns` were elected, all of them up, and nothing else happened to any
node. -/
structure Elected (r : Registry) (ns : List Node) (r' : Registry) : Prop where
  nodes_eq : r'.nodes = r.nodes
  mem : ∀ n ∈ ns, n ∈ r.nodes ∧ r.isUp n = true
  state_eq : ∀ n ∈ r.nodes,
    r'.stateOf n.id = { r.stateOf n.id with elected := (r.stateOf n.id).elected + ns.count n }

theorem Elected.refl (r : Registry) : Elected r [] r := ⟨rfl, List.forall_mem_nil _, fun _ _ => rfl⟩

theorem Elected.isUp_eq (h : Elected r ns r') (hn : n ∈ r.nodes) : r'.isUp n = r.isUp n := by
  rw [isUp, h.state_eq n hn, isUp]

theorem Elected.trans (h₁ : Elected r ns r₁) (h₂ : Elected r₁ ms r') : Elected r (ns ++ ms) r' where
  nodes_eq := h₂.nodes_eq.trans h₁.nodes_eq
  mem := by
    rw [List.forall_mem_append]
    refine ⟨h₁.mem, fun n hn => ?_⟩
    obtain ⟨hmem, hup⟩ := h₂.mem n hn
    rw [h₁.nodes_eq] at hmem
    exact ⟨hmem, h₁.isUp_eq hmem ▸ hup⟩
  state_eq n hn := by
    rw [h₂.state_eq n (h₁.nodes_eq ▸ hn), h₁.state_eq n hn, List.count_append, Nat.add_assoc]

/-- One election is one more for `n`, and no other node has its identity. -/
theorem WellFormed.elected_singleton (hw : r.WellFormed) (hn : n ∈ r.nodes) (hup : r.isUp n = true)
    (h : ElectedOnce r n r') : Elected r [n] r' where
  nodes_eq := h.nodes_eq
  mem := List.forall_mem_singleton.2 ⟨hn, hup⟩
  state_eq m hm := by
    by_cases hid : m.id = n.id
    · obtain rfl := hw.id_inj m hm n hn hid
      rw [h.elected_eq, List.count_singleton_self]
    · have hne : m ≠ n := fun hmn => hid (congrArg Node.id hmn)
      rw [h.others_eq m.id hid, List.count_singleton, if_neg (by simpa using hne.symm),
        Nat.add_zero]

/-- A `select` elects a least pressed node, or none is up. -/
theorem Consistent.select_cases (h : r.Consistent) :
    (∃ n, r.IsLeastPressed n ∧ r.select.1 = some n ∧ Elected r [n] r.select.2) ∨
      (∀ n ∈ r.nodes, ¬r.isUp n = true) ∧ r.select = (none, r) := by
  rw [select]
  cases hleast : r.leastPressed? with
  | none => exact .inr ⟨leastPressed?_eq_none_iff.1 hleast, rfl⟩
  | some n =>
    have hn := leastPressed?_eq_some_iff.1 hleast
    exact .inl
      ⟨n, hn, rfl, h.wellFormed.elected_singleton hn.mem hn.isUp (h.electedOnce_elect hn.mem)⟩

theorem Consistent.select (h : r.Consistent) : r.select.2.Consistent := h.changes (changes_select r)

/-- Elections in a row elect the nodes that `selections` lists. -/
theorem Consistent.elected_selections (h : r.Consistent) (k : Nat) :
    Elected r (r.selections k).1 (r.selections k).2 := by
  induction k generalizing r with
  | zero => exact .refl r
  | succ k ih =>
    have hrest := ih h.select
    rw [selections]
    rcases h.select_cases with ⟨n, -, hchoice, hone⟩ | ⟨-, hnone⟩
    · rw [hchoice]
      exact hone.trans hrest
    · rw [hnone] at hrest ⊢
      exact hrest

/-- As long as a node is up, each of `k` elections chooses one. -/
theorem Consistent.length_selections (h : r.Consistent)
    (hup : ∃ n ∈ r.nodes, r.isUp n = true) (k : Nat) :
    (r.selections k).1.length = k := by
  induction k generalizing r with
  | zero => rfl
  | succ k ih =>
    obtain ⟨m, hm, hmup⟩ := hup
    rcases h.select_cases with ⟨n, -, hchoice, hone⟩ | ⟨hdown, -⟩
    · have hrest := ih h.select ⟨m, hone.nodes_eq ▸ hm, (hone.isUp_eq hm).trans hmup⟩
      rw [selections, hchoice, List.length_append, hrest]
      exact Nat.add_comm 1 k
    · exact absurd hmup (hdown m hm)

/-- The counts in `ns` of the `nodes` that it is chosen from sum up to its length. -/
theorem sum_map_count {nodes : List Node} (hnodes : nodes.Nodup) (hns : ∀ n ∈ ns, n ∈ nodes) :
    (nodes.map ns.count).sum = ns.length := by
  have hcard :=
      Multiset.sum_count_eq_card (s := nodes.toFinset) (m := (ns : Multiset Node)) fun n hn =>
    List.mem_toFinset.2 (hns n hn)
  rw [← List.sum_toFinset _ hnodes]
  simpa using hcard

/-! ### How pressed a node is -/

/-- The number of elections of `n` since the last health cycle. -/
def tally (r : Registry) (n : Node) : Nat :=
  (r.stateOf n.id).elected - (r.stateOf n.id).previousElected

theorem Consistent.tally_elected (hc : r.Consistent) (h : Elected r ns r') (hn : n ∈ r.nodes) :
    r'.tally n = r.tally n + ns.count n := by
  have hprevious := hc.previous_le n.id
  rw [tally, h.state_eq n hn, tally]
  exact Nat.sub_add_comm hprevious

theorem pressure_of_loadless (hload : n.record.load = 0) : r.pressure n = NodeState.ceiling :=
  if_pos hload

/-- As long as the `tally` is that small, the pressure of a node is what its elections come to for
its load. -/
theorem pressure_of_lt (hload : 0 < n.record.load) (h : 1000 * r.tally n < NodeState.ceiling) :
    r.pressure n = 1000 * r.tally n / n.record.load := by
  have hmin : min (r.tally n * 1000) NodeState.ceiling = 1000 * r.tally n := by
    rw [Nat.mul_comm]
    exact Nat.min_eq_left (Nat.le_of_lt h)
  rw [pressure, NodeState.pressure, if_neg (Nat.ne_of_gt hload)]
  exact congrArg (· / n.record.load) hmin

theorem IsLeastPressed.pressure_le (h : r.IsLeastPressed n) (hm : m ∈ r.nodes)
    (hup : r.isUp m = true) :
    r.pressure n ≤ r.pressure m := by
  obtain ⟨front, back, hnodes, -, hfront, hback⟩ := h
  rw [hnodes, List.mem_append, List.mem_cons] at hm
  rcases hm with hm | rfl | hm
  · exact Nat.le_of_lt (hfront m hm hup)
  · exact Nat.le_refl _
  · exact hback m hm hup

/-! ### Fair shares -/

/-- The elections since the last health cycle, of which there were no more than `k`, were shared out
fairly: before its last one, no node was more pressed than any other is now, and nodes without load
were left out if they could be. -/
structure Fair (r : Registry) (k : Nat) : Prop where
  tally_le : ∀ i ∈ r.nodes, r.tally i ≤ k
  proportional : ∀ i ∈ r.nodes, ∀ j ∈ r.nodes, r.isUp i = true → r.isUp j = true →
    0 < i.record.load →
    0 < j.record.load → 0 < r.tally i →
    1000 * (r.tally i - 1) / i.record.load ≤ 1000 * r.tally j / j.record.load
  loadless : ∀ i ∈ r.nodes, i.record.load = 0 → 0 < r.tally i → ∀ j ∈ r.nodes, r.isUp j = true →
    j.record.load = 0

/-- At the beginning of a health cycle, shares are `Fair`. -/
theorem fair_of_tally_eq_zero (h : ∀ n ∈ r.nodes, r.tally n = 0) : r.Fair 0 where
  tally_le i hi := Nat.le_of_eq (h i hi)
  proportional i hi _ _ _ _ _ _ hpos := absurd (h i hi) (Nat.ne_of_gt hpos)
  loadless i hi _ hpos := absurd (h i hi) (Nat.ne_of_gt hpos)

/-- An election of a least pressed node keeps shares `Fair`.  The node that is elected is no more
pressed before that than any other, and no other node has more elections afterwards. -/
theorem Fair.elect (h : r.Fair k) (hc : r.Consistent) (hk : 1000 * k < NodeState.ceiling)
    (hn : r.IsLeastPressed n) (he : Elected r [n] r') : r'.Fair (k + 1) := by
  have hsmall {i : Node} (hi : i ∈ r.nodes) : 1000 * r.tally i < NodeState.ceiling :=
    Nat.lt_of_le_of_lt (Nat.mul_le_mul_left 1000 (h.tally_le i hi)) hk
  have htally {i : Node} (hi : i ∈ r.nodes) : r'.tally i = r.tally i + [n].count i :=
    hc.tally_elected he hi
  have hself : r'.tally n = r.tally n + 1 := by rw [htally hn.mem, List.count_singleton_self]
  have hother {i : Node} (hi : i ∈ r.nodes) (hne : i ≠ n) : r'.tally i = r.tally i := by
    rw [htally hi, List.count_singleton, if_neg (by simpa using hne.symm), Nat.add_zero]
  refine ⟨?_, ?_, ?_⟩ <;> rw [he.nodes_eq]
  · intro i hi
    rw [htally hi]
    have hone : [n].count i ≤ 1 := List.count_le_length
    exact Nat.add_le_add (h.tally_le i hi) hone
  · intro i hi j hj hiup hjup hiload hjload hpos
    rw [he.isUp_eq hi] at hiup
    rw [he.isUp_eq hj] at hjup
    have hgrows : 1000 * r.tally j / j.record.load ≤ 1000 * r'.tally j / j.record.load := by
      rw [htally hj]
      exact Nat.div_le_div_right (Nat.mul_le_mul_left 1000 (Nat.le_add_right _ _))
    refine Nat.le_trans ?_ hgrows
    by_cases hin : i = n
    · subst hin
      rw [hself, Nat.add_sub_cancel, ← pressure_of_lt hiload (hsmall hi),
        ← pressure_of_lt hjload (hsmall hj)]
      exact hn.pressure_le hj hjup
    · rw [hother hi hin] at hpos ⊢
      exact h.proportional i hi j hj hiup hjup hiload hjload hpos
  · intro i hi hiload hpos j hj hjup
    rw [he.isUp_eq hj] at hjup
    by_cases hin : i = n
    · subst hin
      by_contra hjload
      have hle : NodeState.ceiling ≤ 1000 * r.tally j := by
        calc NodeState.ceiling = r.pressure i := (pressure_of_loadless hiload).symm
          _ ≤ r.pressure j := hn.pressure_le hj hjup
          _ = 1000 * r.tally j / j.record.load :=
          pressure_of_lt (Nat.pos_of_ne_zero hjload) (hsmall hj)
          _ ≤ 1000 * r.tally j := Nat.div_le_self _ _
      exact absurd (hsmall hj) (Nat.not_lt_of_le hle)
    · rw [hother hi hin] at hpos
      exact h.loadless i hi hiload hpos j hj hjup

theorem Fair.mono (h : r.Fair k) : r.Fair (k + 1) where
  tally_le i hi := Nat.le_succ_of_le (h.tally_le i hi)
  proportional := h.proportional
  loadless := h.loadless

/-- Elections in a row keep shares `Fair`, as long as no pressure can reach the end of a word. -/
theorem Fair.selections {before : Nat} (h : r.Fair before) (hc : r.Consistent) (k : Nat)
    (hk : 1000 * (before + k) < 2 ^ 64) : (r.selections k).2.Fair (before + k) := by
  induction k generalizing r before with
  | zero => exact h
  | succ k ih =>
    have hstep : r.select.2.Fair (before + 1) := by
      rcases hc.select_cases with ⟨n, hn, -, he⟩ | ⟨-, hnone⟩
      · have hceiling : 1000 * before < NodeState.ceiling := by
          rw [NodeState.ceiling]
          omega
        exact h.elect hc hceiling hn he
      · rw [hnone]
        exact h.mono
    have hnext : before + 1 + k = before + (k + 1) := by omega
    have hrest := ih hstep hc.select (hnext ▸ hk)
    rwa [hnext] at hrest

/-- Numbers that are in order after rounding are in order before, but for one unit. -/
theorem mul_lt_of_div_le_div {a b x y : Nat} (hx : 0 < x) (hy : 0 < y) (h : a / x ≤ b / y) :
    a * y < b * x + x * y := by
  calc a * y < x * (a / x + 1) * y := Nat.mul_lt_mul_of_pos_right (Nat.lt_mul_div_succ a hx) hy
    _ ≤ x * (b / y + 1) * y := Nat.mul_le_mul_right y (Nat.mul_le_mul_left x (Nat.succ_le_succ h))
    _ = x * (b / y * y) + x * y := by rw [Nat.mul_assoc, Nat.succ_mul, Nat.mul_add]
    _ ≤ x * b + x * y := Nat.add_le_add_right (Nat.mul_le_mul_left x (Nat.div_mul_le_self b y)) _
    _ = b * x + x * y := by rw [Nat.mul_comm x b]

/-- Whatever was done with the registry before: elections that begin with a health cycle, and are so
few that no pressure reaches the end of a word, are shared out by load.  With `d` for how often they
choose a node: nothing happens to the nodes but that each is elected `d` times; every election
chooses a node, if one is up, and none that is down; before its last election, a node with a load is
no more pressed, after rounding, than any other is in the end, and so it is ahead of the other by
less than one election of each; and a node without load is chosen only if no node that is up has
one. -/
theorem selections_proportional (actions : List Action) (k : Nat) (hk : 1000 * k < 2 ^ 64)
    (hstart : ∀ n ∈ (({} : Registry).run actions).nodes,
      ((({} : Registry).run actions).stateOf n.id).elected =
        ((({} : Registry).run actions).stateOf n.id).previousElected) :
    let r := ({} : Registry).run actions
    let d (n : Node) : Nat := (r.selections k).1.count n
    Elected r (r.selections k).1 (r.selections k).2 ∧
    ((∃ n ∈ r.nodes, r.isUp n = true) → ((r.nodes.filter r.isUp).map d).sum = k) ∧
    (∀ n ∈ r.nodes, ¬r.isUp n = true → d n = 0) ∧
    (∀ i ∈ r.nodes, ∀ j ∈ r.nodes, r.isUp i = true → r.isUp j = true →
      0 < i.record.load → 0 < j.record.load → 1 ≤ d i →
        1000 * (d i - 1) / i.record.load ≤ 1000 * d j / j.record.load ∧
        1000 * (d i - 1) * j.record.load <
          1000 * d j * i.record.load + i.record.load * j.record.load) ∧
    (∀ i ∈ r.nodes, i.record.load = 0 → 1 ≤ d i → ∀ j ∈ r.nodes, r.isUp j = true →
      j.record.load = 0) := by
  intro r d
  have hr : r.Consistent := consistent_empty.changes (changes_run actions {})
  have he : Elected r (r.selections k).1 (r.selections k).2 := hr.elected_selections k
  have hzero : ∀ n ∈ r.nodes, r.tally n = 0 :=
    fun n hn => Nat.sub_eq_zero_of_le (Nat.le_of_eq (hstart n hn))
  have hfair : (r.selections k).2.Fair k := by
    have hfair := (fair_of_tally_eq_zero hzero).selections hr k (by rwa [Nat.zero_add])
    rwa [Nat.zero_add] at hfair
  have htally {n : Node} (hn : n ∈ r.nodes) : (r.selections k).2.tally n = d n := by
    rw [hr.tally_elected he hn, hzero n hn, Nat.zero_add]
  refine ⟨he, ?_, ?_, ?_, ?_⟩
  · intro hup
    have hnodup : (r.nodes.filter r.isUp).Nodup := (hr.routes_nodup.of_map _).filter _
    have hmem : ∀ n ∈ (r.selections k).1, n ∈ r.nodes.filter r.isUp :=
      fun n hn => List.mem_filter.2 (he.mem n hn)
    exact (sum_map_count hnodup hmem).trans (hr.length_selections hup k)
  · intro n _ hdown
    exact List.count_eq_zero.2 fun hn => hdown (he.mem n hn).2
  · intro i hi j hj hiup hjup hiload hjload hpos
    have hi' : i ∈ (r.selections k).2.nodes := he.nodes_eq ▸ hi
    have hj' : j ∈ (r.selections k).2.nodes := he.nodes_eq ▸ hj
    have hle := hfair.proportional i hi' j hj' ((he.isUp_eq hi).trans hiup)
      ((he.isUp_eq hj).trans hjup) hiload hjload
    rw [htally hi, htally hj] at hle
    have hle := hle hpos
    exact ⟨hle, mul_lt_of_div_le_div hiload hjload hle⟩
  · intro i hi hiload hpos j hj hjup
    have hi' : i ∈ (r.selections k).2.nodes := he.nodes_eq ▸ hi
    have hj' : j ∈ (r.selections k).2.nodes := he.nodes_eq ▸ hj
    exact hfair.loadless i hi' hiload (htally hi ▸ hpos) j hj' ((he.isUp_eq hj).trans hjup)

/-- Two nodes, one with twice the load of the other, one without load, and one that is down. -/
def unevenNodes : List Action :=
  [.putNode { route := "idle", host := "h", port := 1, load := 0 },
    .putNode { route := "large", host := "h", port := 2 },
    .putNode { route := "small", host := "h", port := 3, load := 50 },
    .putNode { route := "down", host := "h", port := 4 },
    .markDown { id := 4, record := { route := "down", host := "h", port := 4 } }]

/-- Of three elections in `unevenNodes` two go to the node with the larger load, and the others get
no more than they have to. -/
theorem selections_proportional_unevenNodes :
    let r := ({} : Registry).run unevenNodes
    let large : Node := { id := 2, record := { route := "large", host := "h", port := 2 } }
    let small : Node :=
      { id := 3, record := { route := "small", host := "h", port := 3, load := 50 } }
    (r.selections 3).1 = [large, small, large] ∧
      ((r.nodes.filter r.isUp).map (r.selections 3).1.count).sum = 3 ∧
      1000 * ((r.selections 3).1.count large - 1) / 100 ≤
        1000 * (r.selections 3).1.count small / 50 := by
  intro r large small
  have hstart : ∀ n ∈ r.nodes, (r.stateOf n.id).elected = (r.stateOf n.id).previousElected := by
    decide +kernel
  have hlarge : large ∈ r.nodes ∧ r.isUp large = true := by decide +kernel
  have hsmall : small ∈ r.nodes ∧ r.isUp small = true := by decide +kernel
  have hchoices : (r.selections 3).1 = [large, small, large] := by decide +kernel
  obtain ⟨-, hsum, -, hshares, -⟩ := selections_proportional unevenNodes 3 (by decide) hstart
  refine ⟨hchoices, hsum ⟨large, hlarge⟩, ?_⟩
  exact (hshares large hlarge.1 small hsmall.1 hlarge.2 hsmall.2 (by decide)
    (by decide) (by decide +kernel)).1

end ReverseProxy.Fleet.Registry
