import ReverseProxy.Proofs.Message.AddedHeaders
import ReverseProxy.Proofs.Relay.ClientSession

/-!
# What a backend learns of a request

Beside the headers of the client the backend is told who the client is, which host the request is
for, and under what name the request is reported.  What to add is decided by the headers that the
client has sent, and what to leave out by the options that its `Connection` headers list.  For the
host this makes no difference, since that header always goes on.  It does for the name of the
request: if a client sends one, and lists its header as an option, the backend is told none
(`Exchange.values_headSent`).
-/

namespace ReverseProxy

open Fleet Message Operation Wire

namespace Message.Recipient

/-- The names of the headers that tell the host, the name of the request and the clients, in lower
case. -/
def hostName : Bytes := Utf8.encode "host"
def requestIdName : Bytes := Utf8.encode "x-request-id"
def forwardedForName : Bytes := Utf8.encode "x-forwarded-for"

end Message.Recipient

namespace Relay.Exchange

open Recipient (strip hostName requestIdName forwardedForName)

variable {σ : Type} {net : Network σ} {request : RequestHead} {n : Node}

/-! ### The head that an exchange sends -/

/-- The head that goes to the node `n`. -/
def headSent (net : Network σ) (peer : HostAddress) (request : RequestHead)
    (n : Node) (c : Conversation σ) : Bytes :=
  request.forwarded c.reading.buffer.data
    (extraHeaders request n peer (requestName net request c.network).1)

/-- Transfers the request with `head` for its head, and the response. -/
def transferHead (net : Network σ) (request : RequestHead) (head : Bytes)
    (link : LinkId) (x : Exchange)
    (c : Conversation σ) : Except ExchangeFailure Relayed × Exchange × Conversation σ :=
  let (result, t) := Transfer.run net link head request
    { reading := c.reading, network := (requestName net request c.network).2,
      buffer := x.slab.buffer, parser := x.parser }
  (result, { x with slab := { x.slab with buffer := t.buffer }, parser := t.parser },
    { c with reading := t.reading, network := t.network })

theorem transfer_eq_transferHead (net : Network σ) (peer : HostAddress)
    (request : RequestHead) (n : Node) (link : LinkId) (x : Exchange) (c : Conversation σ) :
    x.transfer net peer request n link c =
      x.transferHead net request (headSent net peer request n c) link c := rfl

/-! ### What is added -/

/-- The address of a node is one line, if its host has no line feed. -/
theorem isLine_address (hhost : '\n' ∉ n.record.host.toList) :
    Text.IsLine (Utf8.encode n.address) := by
  have hport : Text.IsVisible (":" ++ toString n.record.port) :=
    Text.IsVisible.append (by decide +kernel) (Text.IsVisible.toDigits (by decide) (by decide) _)
  have haddress : Utf8.encode n.address =
      Utf8.encode n.record.host ++ Utf8.encode (":" ++ toString n.record.port) := by
    rw [Node.address, String.append_assoc, Utf8.encode_append]
  rw [haddress]
  constructor
  · rw [List.mem_append, not_or]
    refine ⟨fun hlf => ?_, hport.isLine.lf_notMem⟩
    obtain ⟨c, hc, heq⟩ := Utf8.mem_of_mem_encode hlf (by decide)
    obtain rfl : c = '\n' := Char.toNat_inj.1 heq
    exact hhost hc
  · rw [List.getLast?_append]
    cases hlast : (Utf8.encode (":" ++ toString n.record.port)).getLast? with
    | none =>
      rw [List.getLast?_eq_none_iff, Utf8.encode_append] at hlast
      cases hlast
    | some b =>
      rw [Option.some_or, ← hlast]
      exact hport.isLine.getLast?_ne

/-- Each of the `extraHeaders` is one line. -/
theorem isLine_extraHeaders (peer : HostAddress) {id : String} (hid : Text.IsVisible id)
    (hhost : '\n' ∉ n.record.host.toList) :
    ∀ x ∈ extraHeaders request n peer id, Text.IsLine x.line := by
  intro x hx
  rcases List.mem_append.1 hx with hx | hx
  · rcases List.mem_append.1 hx with hx | hx
    · obtain rfl := List.mem_singleton.1 hx
      exact Header.isLine_line (by decide +kernel) peer.isVisible_write.isLine
    · split at hx
      · cases hx
      · obtain rfl := List.mem_singleton.1 hx
        exact Header.isLine_line (by decide +kernel) hid.isLine
  · split at hx
    · cases hx
    · obtain rfl := List.mem_singleton.1 hx
      exact Header.isLine_line (by decide +kernel) (isLine_address hhost)

/-- The values that the lines of the proxy have under `name`. -/
theorem values_extraHeaders (request : RequestHead) (n : Node) (peer : HostAddress)
    (id : String) {name : Bytes} (hname : Recipient.value? name RequestHead.keepAliveLine = none) :
    Recipient.values name
        (RequestHead.keepAliveLine :: (extraHeaders request n peer id).map Header.line) =
      (if forwardedForName = name then [strip (Utf8.encode peer.write)] else []) ++
      (if (request.header? requestIdHeader).isSome then []
        else if requestIdName = name then [strip (Utf8.encode id)] else []) ++
      (if (request.header? "host").isSome then []
        else if hostName = name then [strip (Utf8.encode n.address)] else []) := by
  have hlower : (Utf8.encode "X-Forwarded-For").map Octet.lower = forwardedForName ∧
      (Utf8.encode requestIdHeader).map Octet.lower = requestIdName ∧
      (Utf8.encode "Host").map Octet.lower = hostName := by decide +kernel
  have hkeep : Recipient.values name [RequestHead.keepAliveLine] = [] :=
    Recipient.values_eq_nil (List.forall_mem_singleton.2 hname)
  have hnil : Recipient.values name [] = [] := rfl
  have hcolon : ∀ added ∈ ["X-Forwarded-For", requestIdHeader, "Host"],
    Octet.colon ∉ Utf8.encode added := by decide
  have hfor := Recipient.values_line (hcolon "X-Forwarded-For" (by decide)) peer.write name
  have hid := Recipient.values_line (hcolon requestIdHeader (by decide)) id name
  have hhost := Recipient.values_line (hcolon "Host" (by decide)) n.address name
  rw [hlower.1] at hfor
  rw [hlower.2.1] at hid
  rw [hlower.2.2] at hhost
  rw [← List.singleton_append, extraHeaders, List.map_append, List.map_append,
    Recipient.values_append,
    Recipient.values_append, Recipient.values_append, hkeep, List.nil_append,
    List.map_singleton, hfor]
  congr 1
  · congr 1
    split
    · rfl
    · exact hid
  · split
    · rfl
    · exact hhost

/-- The option to withhold a header does not apply to `Host`. -/
theorem speaksOfConnection_host (headers : List Header) :
    RequestHead.speaksOfConnection headers (String.ofList (hostName.map Utf8.asciiChar)) =
      false := by
  have hname : String.ofList (hostName.map Utf8.asciiChar) = "host" := by decide +kernel
  have hconnection : RequestHead.connectionHeaders.any (Text.eqIgnoreCase "host") = false := by
    decide
  have hlasting : RequestHead.lastingHeaders.any (Text.eqIgnoreCase "host") = true := by decide
  rw [hname, RequestHead.speaksOfConnection, hconnection, hlasting, Bool.not_true,
    Bool.and_false, Bool.or_false]

/-- The header `X-Request-Id` is for the proxy alone exactly if `Connection` lists it. -/
theorem speaksOfConnection_requestId (headers : List Header) :
    RequestHead.speaksOfConnection headers (String.ofList (requestIdName.map Utf8.asciiChar)) =
      Header.hasConnectionOption headers "x-request-id" := by
  have hname : String.ofList (requestIdName.map Utf8.asciiChar) = "x-request-id" := by
    decide +kernel
  have hconnection :
    RequestHead.connectionHeaders.any (Text.eqIgnoreCase "x-request-id") = false := by
    decide
  have hlasting : RequestHead.lastingHeaders.any (Text.eqIgnoreCase "x-request-id") = false := by
    decide
  rw [hname, RequestHead.speaksOfConnection, hconnection, hlasting, Bool.not_false,
    Bool.and_true, Bool.false_or, Header.hasConnectionOption]

/-- The name that goes with a request is visible, if those of the network are. -/
theorem isVisible_requestName (hid : ∀ s, Text.IsVisible (net.requestId s).1) (s : σ) :
    Text.IsVisible (requestName net request s).1 := by
  unfold requestName
  split
  · exact fun c hc => absurd hc (by simp)
  · exact hid s

/-- Under each of the three names the backend finds the client's values, unless `Connection`
withholds them, and then what the proxy says. -/
theorem values_headSent_eq (peer : HostAddress) {c : Conversation σ}
    (hp : RequestHead.parse c.reading.buffer.data = .ok (some request))
    (hfirst : RequestHead.emptyLinesBefore c.reading.buffer.data ≤ 1)
    (hid : ∀ s, Text.IsVisible (net.requestId s).1) (hhost : '\n' ∉ n.record.host.toList) :
    ∃ lines rest, RequestGrammar.head c.reading.buffer.data = .complete lines rest ∧
      ((request.header? "host").isSome ↔ HeaderLine.values hostName lines.headers ≠ []) ∧
      ((request.header? requestIdHeader).isSome ↔
        HeaderLine.values requestIdName lines.headers ≠ []) ∧
      ∀ name ∈ [hostName, requestIdName, forwardedForName],
        Recipient.values name (RequestHead.headerLines (headSent net peer request n c)) =
          (if RequestHead.speaksOfConnection request.headers
            (String.ofList (name.map Utf8.asciiChar)) then []
            else HeaderLine.values name lines.headers) ++
          ((if forwardedForName = name then [strip (Utf8.encode peer.write)] else []) ++
            (if (request.header? requestIdHeader).isSome then []
              else if requestIdName = name then
                [strip (Utf8.encode (requestName net request c.network).1)] else []) ++
            (if (request.header? "host").isSome then []
              else if hostName = name then [strip (Utf8.encode n.address)] else [])) := by
  have hextra : ∀ x ∈ extraHeaders request n peer (requestName net request c.network).1,
      Text.IsLine x.line :=
    isLine_extraHeaders peer (isVisible_requestName hid _) hhost
  obtain ⟨lines, rest, hhead, hheaders, hregular, hvalues⟩ :=
    RequestHead.values_headerLines_forwarded hp hfirst hextra
  have hnames : ∀ name ∈ [hostName, requestIdName, forwardedForName], name.map Octet.lower = name ∧
      Octet.sp ∉ name ∧ Recipient.value? name RequestHead.keepAliveLine = none := by decide +kernel
  refine ⟨lines, rest, hhead, ?_, ?_, fun name hname => ?_⟩
  · exact isSome_header?_iff hheaders hregular (hnames hostName (by decide)).1 (by decide +kernel)
  · exact isSome_header?_iff hheaders hregular (hnames requestIdName (by decide)).1
      (by decide +kernel)
  · obtain ⟨hlower, hsp, hkeep⟩ := hnames name hname
    rw [headSent, hvalues name hlower hsp, values_extraHeaders request n peer _ hkeep]

/-- The values that a backend finds in the head that an exchange sends to the node `n`.  Under
`Host` there is one.  Under `X-Request-Id` there are those that the client has sent, or the one that
the network gives if it sent none; but there are none if the client sent one and listed that header
as an option of `Connection`.  The last value of `X-Forwarded-For` is the address of `peer`.  The
names that the network gives have to be visible text, and the host of the node must not have a line
feed. -/
theorem values_headSent (peer : HostAddress) {x x₁ : Exchange} {c c₁ : Conversation σ}
    {connection : Connection} (hconnect : x.connect net request c = (.ok (n, connection), x₁, c₁))
    (hp : RequestHead.parse c.reading.buffer.data = .ok (some request))
    (hfirst : RequestHead.emptyLinesBefore c.reading.buffer.data ≤ 1)
    (hid : ∀ s, Text.IsVisible (net.requestId s).1) (hhost : '\n' ∉ n.record.host.toList) :
    let sent := RequestHead.headerLines (headSent net peer request n c₁)
    ∃ lines rest, RequestGrammar.head c.reading.buffer.data = .complete lines rest ∧
      x₁.transfer net peer request n connection.link c₁ =
        x₁.transferHead net request (headSent net peer request n c₁) connection.link c₁ ∧
      Recipient.values hostName sent ≠ [] ∧
      Recipient.values requestIdName sent =
        (if HeaderLine.values requestIdName lines.headers = [] then
            [Utf8.encode (net.requestId c₁.network).1]
          else if Header.hasConnectionOption request.headers "x-request-id" then []
          else HeaderLine.values requestIdName lines.headers) ∧
      (Recipient.values forwardedForName sent).getLast? = some (Utf8.encode peer.write) := by
  intro sent
  have hreading : c₁.reading = c.reading := by
    have h := reading_connect net request x c
    rwa [hconnect] at h
  rw [← hreading] at hp hfirst ⊢
  obtain ⟨lines, rest, hhead, hhostSome, hidSome, hsent⟩ :=
    values_headSent_eq peer hp hfirst hid hhost
  have hother : forwardedForName ≠ hostName ∧ requestIdName ≠ hostName ∧
      forwardedForName ≠ requestIdName := by
    decide +kernel
  refine ⟨lines, rest, hhead, transfer_eq_transferHead .., ?_, ?_, ?_⟩
  · rw [hsent hostName (by decide), speaksOfConnection_host, if_neg Bool.false_ne_true]
    by_cases hclient : (request.header? "host").isSome = true
    · exact List.append_ne_nil_of_left_ne_nil (hhostSome.1 hclient) _
    · rw [if_neg hclient, if_pos rfl]
      exact List.append_ne_nil_of_right_ne_nil _
        (List.append_ne_nil_of_right_ne_nil _ (List.cons_ne_nil _ _))
  · rw [hsent requestIdName (by decide), speaksOfConnection_requestId,
      if_neg hother.2.2, if_neg hother.2.1.symm, ite_self, List.nil_append, List.append_nil]
    by_cases hclient : (request.header? requestIdHeader).isSome = true
    · rw [if_pos hclient, if_neg (hidSome.1 hclient), List.append_nil]
    · have hnone := Decidable.not_not.1 (mt hidSome.2 hclient)
      have hgiven : requestName net request c₁.network = net.requestId c₁.network := if_neg hclient
      rw [if_neg hclient, if_pos rfl, if_pos hnone, hnone, ite_self, List.nil_append, hgiven,
        Recipient.strip_of_isVisible (hid _)]
  · rw [hsent forwardedForName (by decide), if_pos rfl, if_neg hother.2.2.symm,
      if_neg hother.1.symm, ite_self,
      ite_self, List.append_nil, List.append_nil, List.getLast?_concat,
      Recipient.strip_of_isVisible peer.isVisible_write]

/-- A request with a name, which its `Connection` header withholds. -/
def withheldId : Bytes :=
  Utf8.encode "GET / HTTP/1.1\r\nHost: a\r\nConnection: X-Request-Id\r\nX-Request-Id: r1\r\n\r\n"

/-- The head of `withheldId`. -/
def withheldIdHead : RequestHead where
  method := "GET"
  path := "/"
  minor := 1
  headers := [{ name := "host", value := "a" }, { name := "connection", value := "X-Request-Id" },
    { name := "x-request-id", value := "r1" }]
  length := 71
  body := .none
  keepAlive := true

/-- A client that has sent `withheldId`. -/
def withholding : Conversation Bytes :=
  { eagerOpening.2 with
    reading := { client := {}, buffer := (Buffer.ofCapacity 128).write withheldId } }

/-- For `withheldId` the backend is told no name of the request, neither that of the client nor
another. -/
theorem values_headSent_withheldId :
    ∃ n connection x₁ c₁,
      eagerOpening.1.connect (.answering []) withheldIdHead withholding =
        (.ok (n, connection), x₁, c₁) ∧
      withholding.reading.buffer.data = withheldId ∧
      RequestHead.parse withheldId = .ok (some withheldIdHead) ∧
      withheldIdHead.header? requestIdHeader = some "r1" ∧
      Recipient.values requestIdName
        (RequestHead.headerLines
          (headSent (.answering []) (.v4 [10, 0, 0, 9]) withheldIdHead n c₁)) = [] := by
  have hdata : withholding.reading.buffer.data = withheldId := by decide +kernel
  have hparse : RequestHead.parse withheldId = .ok (some withheldIdHead) :=
    RequestHead.parse_eq_of_toOption (by decide +kernel)
  have hfirst : RequestHead.emptyLinesBefore withheldId ≤ 1 := by decide +kernel
  have hreached : (eagerOpening.1.connect (.answering []) withheldIdHead withholding).1.map
      (fun a => a.1.record.host) = .ok "h" := by decide +kernel
  rcases hconnect : eagerOpening.1.connect (.answering []) withheldIdHead withholding with
    ⟨e | ⟨n, connection⟩, x₁, c₁⟩ <;> rw [hconnect] at hreached
  · cases hreached
  have hhost : n.record.host = "h" := Except.ok.inj hreached
  obtain ⟨lines, rest, hhead, -, -, hid, -⟩ := values_headSent (.v4 [10, 0, 0, 9]) hconnect
    (by rw [hdata]; exact hparse) (by rw [hdata]; exact hfirst)
    (fun _ => (by decide +kernel : Text.IsVisible "r"))
    (by rw [hhost]; decide)
  have hclient : ((RequestGrammar.head withheldId).andThen fun lines rest =>
      .complete (HeaderLine.values requestIdName lines.headers) rest) =
        .complete [Utf8.encode "r1"] [] := by
    decide +kernel
  rw [← hdata, hhead, Reading.andThen_complete] at hclient
  have hclient : HeaderLine.values requestIdName lines.headers = [Utf8.encode "r1"] :=
    (Reading.complete.inj hclient).1
  have hoption : Header.hasConnectionOption withheldIdHead.headers "x-request-id" = true := by
    decide +kernel
  rw [if_neg (by rw [hclient]; exact List.cons_ne_nil _ _), if_pos hoption] at hid
  exact ⟨n, connection, x₁, c₁, rfl, hdata, hparse, by decide +kernel, hid⟩

end Relay.Exchange

end ReverseProxy
