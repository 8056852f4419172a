import ReverseProxy.Proofs.Admin.RegisteredRecords
import ReverseProxy.Proofs.Text.Ascii

/-!
# Refused requests

A request to the administration service can be wrong in many ways, and is found to be so before
anything is done.  For each operation `ServedIff` says what has to be right for it to be answered
with success, and that nothing changes otherwise; `State.Grants` collects what has to be right for a
command.  So a request that is not answered with success leaves no trace
(`State.answer_of_refused`), and those who do not have the key may ask what they want, whenever they
want (`State.handleAll_filter_isAuthorized`).
-/

namespace ReverseProxy.Admin

open Fleet Operation

variable {key : String} {s : State} {q : Request}

/-! ### The key -/

/-- A header value of visible characters is the encoding of the `text` that it is read as. -/
theorem encode_of_visibleText? {value : Bytes} {text : String}
    (h : visibleText? value = some text) :
    Utf8.encode text = value := by
  unfold visibleText? at h
  split at h
  · rename_i hvisible
    have hascii : ∀ b ∈ value, b ≤ 0x7F := by
      intro b hb
      have hb := List.all_eq_true.1 hvisible b hb
      simp only [Bool.or_eq_true, Bool.and_eq_true, decide_eq_true_eq,
        beq_iff_eq, UInt8.lt_iff_toNat_lt] at hb
      rcases hb with ⟨-, hb⟩ | rfl
      · exact UInt8.le_iff_toNat_le.2 (Nat.le_of_lt hb)
      · decide
    rw [Utf8.decode?_of_le hascii] at h
    obtain rfl := Option.some.inj h
    exact Utf8.encode_ofList_asciiChar hascii
  · cases h

/-- An authorized request carries `Bearer` and the key, in exactly these octets. -/
theorem Request.authorization_of_isAuthorized (h : q.isAuthorized key = true) :
    q.authorization = some (Utf8.encode ("Bearer " ++ key)) := by
  rw [isAuthorized, beq_iff_eq] at h
  obtain ⟨value, hvalue, htext⟩ := Option.bind_eq_some_iff.1 h
  rw [hvalue, encode_of_visibleText? htext]

/-- The action has the key, if it needs one: changing the settings document needs none. -/
def Action.isAuthorized (key : String) : Action → Bool
  | .reload _ => true
  | .ask q => q.isAuthorized key

/-! ### What is needed to be served -/

/-- The answer is a success exactly if the request is `granted`, and leaves the state `s` if it is
not. -/
structure ServedIff (granted : Prop) (s : State) (answer : Reply × State) : Prop where
  isSuccess_iff : answer.1.isSuccess = true ↔ granted
  eq_of_not : ¬granted → answer.2 = s

theorem ServedIff.served {granted : Prop} {answer : Reply × State} (hgranted : granted)
    (hsuccess : answer.1.isSuccess = true) : ServedIff granted s answer :=
  ⟨iff_of_true hsuccess hgranted, fun h => absurd hgranted h⟩

theorem ServedIff.refused {granted : Prop} {reply : Reply} (hgranted : ¬granted)
    (hreply : reply.isSuccess = false) :
    ServedIff granted s (reply, s) :=
  ⟨iff_of_false (Bool.eq_false_iff.1 hreply) hgranted, fun _ => rfl⟩

theorem ServedIff.eq_of_isSuccess {granted : Prop} {answer : Reply × State}
    (h : ServedIff granted s answer) (hrefused : answer.1.isSuccess = false) : answer.2 = s :=
  h.eq_of_not fun hgranted => Bool.eq_false_iff.1 hrefused (h.isSuccess_iff.2 hgranted)

/-- A body that cannot be read as a record is never answered with success. -/
theorem Request.isSuccess_of_record {α : Type} {shape : RecordShape α} {reply : Reply}
    (h : q.record shape = .error reply) : reply.isSuccess = false := by
  unfold record at h
  split at h
  · cases h; rfl
  split at h
  · cases h; rfl
  simp only at h
  split at h
  · cases h; rfl
  · cases h; rfl
  · split at h
    · cases h
    · cases h; rfl

/-- If the record is what decides about the request, a body that is not read as one is refused. -/
theorem ServedIff.of_record {α : Type} {shape : RecordShape α} {P : α → Prop}
    {answer : Reply × State} (herror : ∀ reply, q.record shape = .error reply → answer = (reply, s))
    (hok : ∀ record, q.record shape = .ok record → ServedIff (P record) s answer) :
    ServedIff (∃ record, q.record shape = .ok record ∧ P record) s answer := by
  cases h : q.record shape with
  | error reply =>
    rw [herror reply h]
    exact .refused (fun ⟨_, h, _⟩ => nomatch h) (Request.isSuccess_of_record h)
  | ok record =>
    simp only [Except.ok.injEq, exists_eq_left']
    exact hok record h

namespace State

/-- If the name is what decides about the request, a segment that stands for none is refused. -/
theorem servedIff_withName {P : String → Prop} {f : String → Reply × State}
    (hf : ∀ name, ServedIff (P name) s (f name)) (segment : String) :
    ServedIff (∃ name, decodeSegment? segment = some name ∧ P name) s (s.withName segment f) := by
  unfold withName
  cases h : decodeSegment? segment with
  | none => exact .refused (fun ⟨_, h, _⟩ => nomatch h) rfl
  | some name =>
    simp only [Option.some.injEq, exists_eq_left']
    exact hf name

theorem servedIff_putNode (record : NodeRecord) :
    ServedIff record.HasAddress s (s.putNode record) := by
  unfold putNode
  split
  · rename_i h
    exact .served (Settings.nodeProblems_eq_nil_iff.1 h) rfl
  · rename_i h
    exact .refused (mt Settings.nodeProblems_eq_nil_iff.2 h) rfl

theorem servedIff_removeNode (route : String) :
    ServedIff (∃ n, s.proxy.registry.node? route = some n) s (s.removeNode route) := by
  rw [removeNode, Membership.removeNode, Registry.removeNode]
  cases s.proxy.registry.node? route with
  | none => exact .refused (fun ⟨_, h⟩ => nomatch h) rfl
  | some n => exact .served ⟨n, rfl⟩ rfl

theorem servedIff_mark (status : Status) (route : String) :
    ServedIff (∃ n, s.proxy.registry.node? route = some n) s (s.mark status route) := by
  unfold mark
  cases s.proxy.registry.node? route with
  | none => exact .refused (fun ⟨_, h⟩ => nomatch h) rfl
  | some n => exact .served ⟨n, rfl⟩ rfl

theorem servedIff_putBalancer (b : BalancerRecord) :
    ServedIff (Text.isAllBlank b.name = false) s (s.putBalancer b) := by
  unfold putBalancer
  split
  · rename_i h
    exact .refused (by rw [h]; exact Bool.noConfusion) rfl
  · rename_i h
    exact .served (Bool.eq_false_iff.2 h) rfl

theorem servedIff_control (action : String) :
    ServedIff (action ∈ ["pause", "resume", "stop"]) s (s.control action) := by
  unfold control
  split
  · rcases s.mode.pause with ⟨changed, mode⟩
    exact .served (by decide) rfl
  · rcases s.mode.resume with ⟨changed, mode⟩
    exact .served (by decide) rfl
  · exact .served (by decide) rfl
  · rename_i hpause hresume hstop
    refine .refused (fun haction => ?_) rfl
    simp only [List.mem_cons, List.not_mem_nil, or_false] at haction
    rcases haction with h | h | h
    · exact hpause h
    · exact hresume h
    · exact hstop h

/-- The command can be carried out in the state `s`: what it names exists, and what it brings can be
read and makes sense. -/
def Grants (s : State) (q : Request) : Command → Prop
  | .showStatus => True
  | .listNodes => True
  | .putNode => ∃ record, q.record NodeRecord.shape = .ok record ∧ record.HasAddress
  | .removeNode segment =>
      ∃ route, decodeSegment? segment = some route ∧ ∃ n, s.proxy.registry.node? route = some n
  | .mark _ segment =>
      ∃ route, decodeSegment? segment = some route ∧ ∃ n, s.proxy.registry.node? route = some n
  | .listBalancers => True
  | .putBalancer => ∃ b, q.record BalancerRecord.shape = .ok b ∧ Text.isAllBlank b.name = false
  | .control segment =>
      ∃ action, decodeSegment? segment = some action ∧ action ∈ ["pause", "resume", "stop"]

theorem servedIff_perform (s : State) (q : Request) (command : Command) :
    ServedIff (s.Grants q command) s (s.perform q command) := by
  cases command with
  | showStatus => exact .served trivial rfl
  | listNodes => exact .served trivial rfl
  | putNode =>
    refine .of_record (fun reply h => ?_) fun record h => ?_
    · rw [perform, h]
    · rw [perform, h]
      exact servedIff_putNode record
  | removeNode segment => exact servedIff_withName servedIff_removeNode segment
  | mark status segment => exact servedIff_withName (servedIff_mark status) segment
  | listBalancers => exact .served trivial rfl
  | putBalancer =>
    refine .of_record (fun reply h => ?_) fun b h => ?_
    · rw [perform, h]
    · rw [perform, h]
      exact servedIff_putBalancer b
  | control segment => exact servedIff_withName servedIff_control segment

/-- The request carries the `key`, and asks by a method of a resource for a command that `s`
grants. -/
def GrantsRequest (key : String) (s : State) (q : Request) : Prop :=
  q.isAuthorized key = true ∧ ∃ resource command, Resource.ofAddress? q.address = some resource ∧
    Command.of? (if q.method = "HEAD" then "GET" else q.method) resource = some command ∧
    s.Grants q command

theorem answer_of_not_isAuthorized (h : q.isAuthorized key = false) (s : State) :
    s.answer key q = ({ code := 401 }, s) := by
  rw [answer, h]
  rfl

theorem servedIff_answer (key : String) (s : State) (q : Request) :
    ServedIff (s.GrantsRequest key q) s (s.answer key q) := by
  unfold answer
  split
  · rename_i h
    exact .refused (fun ⟨hkey, _⟩ => by simp [hkey] at h) rfl
  rename_i hkey
  split
  · rename_i hresource
    exact .refused (fun ⟨_, _, _, h, _⟩ => by simp [hresource] at h) rfl
  rename_i resource hresource
  simp only
  split
  · rename_i hcommand
    refine .refused (fun ⟨_, _, _, hresource', hcommand', _⟩ => ?_) rfl
    obtain rfl := Option.some.inj (hresource.symm.trans hresource')
    simp [hcommand] at hcommand'
  rename_i command hcommand
  have hperform := servedIff_perform s q command
  have hiff : s.GrantsRequest key q ↔ s.Grants q command := by
    constructor
    · rintro ⟨-, resource', command', hresource', hcommand', hgrants⟩
      obtain rfl := Option.some.inj (hresource.symm.trans hresource')
      obtain rfl := Option.some.inj (hcommand.symm.trans hcommand')
      exact hgrants
    · exact fun hgrants => ⟨by simpa using hkey, resource, command, hresource, hcommand, hgrants⟩
  rw [hiff]
  refine ⟨?_, hperform.eq_of_not⟩
  rw [← hperform.isSuccess_iff]
  simp only
  split <;> rfl

/-! ### What is left of refused requests -/

/-- Refusals change nothing.  A request `q` without the `key` is answered with 401 in every state
`s`, and leaves it.  Any request whose answer is not a success, with the key or without, leaves the
state as it was. -/
theorem answer_of_refused (key : String) (q : Request) :
    (q.authorization ≠ some (Utf8.encode ("Bearer " ++ key)) → ∀ s : State,
      s.answer key q = ({ code := 401 }, s)) ∧
      ∀ s : State, (s.answer key q).1.isSuccess = false → (s.answer key q).2 = s := by
  constructor
  · intro hne
    exact answer_of_not_isAuthorized
      (Bool.eq_false_iff.2 (mt Request.authorization_of_isAuthorized hne))
  · exact fun s => (servedIff_answer key s q).eq_of_isSuccess

/-- One request asks with half a key for a node to be removed, another with the key for a node that
is not there.  With the key the first would have been served. -/
theorem answer_of_refused_removals :
    let s : State :=
      { proxy :=
          { registry := .ofRecords [] [{ route := "a", host := "h", port := 1 }],
            buffers := { bufferSize := 1024 } } }
    let first : Request :=
      { method := "DELETE", address := "/admin/nodes/a",
        authorization := some (Utf8.encode "Bearer sec") }
    let second : Request :=
      { method := "DELETE", address := "/admin/nodes/b",
        authorization := some (Utf8.encode "Bearer secret") }
    s.answer "secret" first = ({ code := 401 }, s) ∧
      ((s.answer "secret" second).1.code = 404 ∧ (s.answer "secret" second).2 = s) ∧
      (s.proxy.registry.nodes.map Node.route = ["a"] ∧
        (s.answer "secret"
          { first with authorization := second.authorization }).2.proxy.registry.nodes = []) := by
  intro s first second
  have hfirst : first.authorization ≠ some (Utf8.encode ("Bearer " ++ "secret")) := by
    decide +kernel
  have hsecond : (s.answer "secret" second).1.isSuccess = false := by decide +kernel
  exact ⟨(answer_of_refused "secret" first).1 hfirst s,
    ⟨by decide +kernel, (answer_of_refused "secret" second).2 s hsecond⟩,
    by decide +kernel, by decide +kernel⟩

/-- A run of `actions` leads where it leads without the requests that are not authorized. -/
theorem handleAll_filter_isAuthorized (key : String) (s : State) (actions : List Action) :
    s.handleAll key (actions.filter (Action.isAuthorized key)) = s.handleAll key actions := by
  induction actions generalizing s with
  | nil => rfl
  | cons a actions ih =>
    cases h : a.isAuthorized key with
    | true =>
      rw [List.filter_cons_of_pos h]
      exact ih (s.handle key a)
    | false =>
      have hhandle : s.handle key a = s := by
        cases a with
        | reload document => cases h
        | ask q => rw [handle, answer_of_not_isAuthorized h]
      rw [List.filter_cons_of_neg (Bool.eq_false_iff.1 h), ih]
      exact congrArg (handleAll key · actions) hhandle.symm

/-- Requests none of which would be answered with success right now are refused all along, in
whatever order they come. -/
theorem handleAll_of_refused {requests : List Request}
    (h : ∀ q ∈ requests, (s.answer key q).1.isSuccess = false) :
    s.handleAll key (requests.map .ask) = s := by
  induction requests with
  | nil => rfl
  | cons q requests ih =>
    obtain ⟨hq, hrest⟩ := List.forall_mem_cons.1 h
    have hhandle : s.handle key (.ask q) = s := (servedIff_answer key s q).eq_of_isSuccess hq
    rw [List.map_cons]
    exact (congrArg (handleAll key · (requests.map .ask)) hhandle).trans (ih hrest)

end State

end ReverseProxy.Admin
