import ReverseProxy.Message.Body
import ReverseProxy.Message.Header
import ReverseProxy.Message.RequestGrammar

/-!
# The head of a request

What the proxy has to know of a request before it forwards it: how the body is delimited, whether
the client stays for another request, and the cookies and path parameters that may name the node of
a session.
-/

namespace ReverseProxy.Message

/-- The head of a request that has arrived in full. -/
structure RequestHead where
  method : String
  path : String
  /-- The digit after `HTTP/1.`. -/
  minor : Nat
  /-- In the order of arrival, names in lower case. -/
  headers : List Header
  /-- How many octets the head has, with the empty lines before it. -/
  length : Nat
  body : RequestBody
  /-- The client stays for another request. -/
  keepAlive : Bool
deriving DecidableEq, Repr

/-- The header that the line `l` stands for. -/
def HeaderLine.toHeader (l : HeaderLine) : Header :=
  { name := Text.lower (Utf8.decodeLossy l.name), value := Text.trim (Utf8.decodeLossy l.value) }

namespace RequestHead

/-- How the body is delimited.  Chunks win over a length, and any other coding at the end is
refused; of several headers of a name the first counts.  A length of zero means that there is no
body. -/
def bodyOf (headers : List Header) : Except RequestDefect RequestBody :=
  match Header.first? headers "transfer-encoding" with
  | some coding => if endsInChunked coding then .ok .chunked else .error (.transferEncoding coding)
  | none =>
      match Header.first? headers "content-length" with
      | none => .ok .none
      | some value =>
          match Text.word? value with
          | none => .error (.contentLength value)
          | some 0 => .ok .none
          | some n => .ok (.length n)

/-- The client stays for another request: unless it says `close`, and with HTTP/1.0 only if it says
so. -/
def keepsAlive (minor : Nat) (headers : List Header) : Bool :=
  if Header.hasConnectionOption headers "close" then false
  else if minor = 0 then Header.hasConnectionOption headers "keep-alive"
  else true

/-- The head that consists of `lines` and has `length` octets. -/
def ofLines (lines : RequestLines) (length : Nat) : Except RequestDefect RequestHead :=
  let headers := lines.headers.map HeaderLine.toHeader
  (bodyOf headers).map fun body =>
    { method := Utf8.decodeLossy lines.method
      path := Utf8.decodeLossy lines.target
      minor := lines.minor
      headers
      length
      body
      keepAlive := keepsAlive lines.minor headers }

/-- Reads the head at the front of the octets `bs`; nothing if it is not complete yet. -/
def parse (bs : Bytes) : Except Defect (Option RequestHead) :=
  match RequestGrammar.head bs with
  | .incomplete => .ok none
  | .refused why => .error (.request why)
  | .complete lines rest =>
      match ofLines lines (bs.length - rest.length) with
      | .ok head => .ok (some head)
      | .error why => .error (.request why)

/-- A head that has arrived is not empty, and no longer than what has arrived. -/
theorem length_of_parse {bs : Bytes} {h : RequestHead} (hp : parse bs = .ok (some h)) :
    0 < h.length ∧ h.length ≤ bs.length := by
  unfold parse at hp
  split at hp
  · cases hp
  · cases hp
  · rename_i lines rest hh
    have hl := RequestGrammar.head_length hh
    split at hp
    · rename_i head ho
      cases hp
      unfold ofLines at ho
      simp only at ho
      cases hb : bodyOf (lines.headers.map HeaderLine.toHeader) with
      | error e => rw [hb] at ho; cases ho
      | ok body =>
        rw [hb] at ho
        cases ho
        exact ⟨by simp only; omega, by simp only; omega⟩
    · cases hp

/-- The value of the first header `name`. -/
def header? (h : RequestHead) (name : String) : Option String := Header.first? h.headers name

/-- The response to this request has no body. -/
def isHead (h : RequestHead) : Bool := Text.eqIgnoreCase h.method "HEAD"

/-- A text without the double quotes at its ends. -/
def unquote (cs : List Char) : List Char := Text.dropEndWhile (· == '"') (cs.dropWhile (· == '"'))

/-- One cookie of a `Cookie` header: a name and a value, which may stand in quotes. -/
def cookie? (pair : List Char) : Option (String × String) :=
  (Text.cut? '=' pair).map fun (name, value) =>
    (Text.trim (String.ofList name),
      String.ofList (unquote (Text.trim (String.ofList value)).toList))

/-- The cookies of all `Cookie` headers, in order. -/
def cookies (h : RequestHead) : List (String × String) :=
  (h.headers.filter fun x => x.name == "cookie").flatMap fun x =>
    (Text.pieces ';' x.value.toList).filterMap cookie?

/-- The value of the first cookie `name`. -/
def cookieValue? (h : RequestHead) (name : String) : Option String :=
  (h.cookies.find? fun c => c.1 == name).map Prod.snd

/-- The value of the first path parameter of a name: what follows `;name=` in the path, before the
query, up to the next slash. -/
def pathParameter? (h : RequestHead) (name : String) : Option String :=
  let parameters := (Text.pieces ';' (Text.before '?' h.path.toList)).tail
  parameters.findSome? fun parameter =>
    match Text.cut? '=' parameter with
    | none => none
    | some (key, value) =>
        if Text.eqIgnoreCase (String.ofList key) name then
          some (String.ofList (Text.before '/' value)) else none

end RequestHead

end ReverseProxy.Message
