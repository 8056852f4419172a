import ReverseProxy.Settings.Document

/-!
# Valid nodes

What settings demand of a node is that it has a route and an address (`NodeRecord.IsValid`).
Settings that are read from a document keep this (`isValid_of_parse`).  The check that is made of a
single record, outside of settings, is about the address alone (`nodeProblems_eq_nil_iff`).
-/

namespace ReverseProxy

open Fleet

/-- A node can be reached: its host is not blank, and its port is not zero. -/
structure Fleet.NodeRecord.HasAddress (record : NodeRecord) : Prop where
  host_visible : ∃ c ∈ record.host.toList, Text.isBlank c = false
  port_ne : record.port ≠ 0

/-- A node can be reached, and sessions can be bound to it. -/
structure Fleet.NodeRecord.IsValid (record : NodeRecord) : Prop extends record.HasAddress where
  route_ne : record.route ≠ ""

namespace Settings

theorem problemIf_eq_nil_iff {b : Bool} {p : Problem} : problemIf b p = [] ↔ b = false := by
  cases b <;> simp [problemIf]

theorem nodeProblems_eq_nil_iff {record : NodeRecord} :
    nodeProblems record = [] ↔ record.HasAddress := by
  rw [nodeProblems, List.append_eq_nil_iff, problemIf_eq_nil_iff, problemIf_eq_nil_iff,
    Text.isAllBlank, List.all_eq_false, beq_eq_false_iff_ne]
  simp only [Bool.not_eq_true]
  exact ⟨fun ⟨hhost, hport⟩ => ⟨hhost, hport⟩, fun ⟨hhost, hport⟩ => ⟨hhost, hport⟩⟩

theorem route_ne_of_routeProblems {seen : List String} {route : String}
    (h : routeProblems seen route = []) :
    route ≠ "" := by
  rintro rfl
  cases h

theorem isValid_of_nodesProblems {seen : List String} {records : List NodeRecord}
    (h : nodesProblems seen records = []) : ∀ record ∈ records, record.IsValid := by
  induction records generalizing seen with
  | nil => exact List.forall_mem_nil _
  | cons record records ih =>
    rw [nodesProblems, List.append_eq_nil_iff, List.append_eq_nil_iff] at h
    obtain ⟨⟨hroute, hnode⟩, hrest⟩ := h
    rw [List.forall_mem_cons]
    exact ⟨⟨nodeProblems_eq_nil_iff.1 hnode, route_ne_of_routeProblems hroute⟩, ih hrest⟩

theorem validate_eq_ok_iff {c c' : Config} : validate c = .ok c' ↔ problems c = [] ∧ c = c' := by
  unfold validate
  cases problems c with
  | nil => simp
  | cons p ps => simp

/-- The settings that `parse` reads from a document have no problems. -/
theorem problems_of_parse {text : String} {c : Config} (h : parse text = .ok c) :
    problems c = [] := by
  unfold parse at h
  split at h
  · cases h
  · split at h
    · cases h
    · obtain ⟨hproblems, rfl⟩ := validate_eq_ok_iff.1 h
      exact hproblems

/-- The nodes in settings that `parse` reads from a document are valid. -/
theorem isValid_of_parse {text : String} {c : Config} (h : parse text = .ok c) :
    ∀ record ∈ c.nodes, record.IsValid := by
  have hproblems := problems_of_parse h
  rw [problems, List.append_eq_nil_iff] at hproblems
  exact isValid_of_nodesProblems hproblems.2

end Settings

end ReverseProxy
