import ReverseProxy.Message.RequestHead

/-!
# The head that goes to the backend

The connection to the backend outlives that to the client, so that the request goes on as HTTP/1.1
with an offer to keep the connection.  The headers that speak about the client's connection stay
behind; every other header line goes on as it came, octet for octet, and what the proxy has to add
comes after.
-/

namespace ReverseProxy.Message.RequestHead

/-- The headers that speak about one connection only. -/
def connectionHeaders : List String := ["connection", "keep-alive", "proxy-connection"]

/-- The headers that go on even if a `Connection` header lists them, since the message cannot be
read without. -/
def lastingHeaders : List String := ["host", "content-length", "transfer-encoding"]

/-- The header of a name stays behind, given the options that the `Connection` headers list. -/
def isHopByHop (options : List String) (name : String) : Bool :=
  if connectionHeaders.any (Text.eqIgnoreCase name) then true
  else if lastingHeaders.any (Text.eqIgnoreCase name) then false
  else options.any (Text.eqIgnoreCase · name)

/-- The octets of `line` without the carriage return at its end. -/
def dropCr (line : Bytes) : Bytes := if line.getLast? = some Octet.cr then line.dropLast else line

/-- The name in a header `line`, or the whole line where there is no colon. -/
def lineName (line : Bytes) : String := Text.trim (Utf8.decodeLossy (Text.before Octet.colon line))

/-- The lines after the first, up to the first empty one. -/
def linesAfterFirst (head : Bytes) : List Bytes :=
  ((Text.pieces Octet.lf head).tail.map dropCr).takeWhile fun line => decide (line ≠ [])

/-- The octets of the text `s` and of the end of a line. -/
def textLine (s : String) : Bytes := Utf8.encode s ++ [Octet.cr, Octet.lf]

/-- The head to send to the backend.  `raw` begins with the head as it was received, and `extra` are
the headers that the proxy adds. -/
def forwarded (h : RequestHead) (raw : Bytes) (extra : List Header) : Bytes :=
  let options := Header.connectionOptions h.headers
  textLine (h.method ++ " " ++ h.path ++ " HTTP/1.1") ++
  ((linesAfterFirst (raw.take h.length)).filter fun line =>
    !isHopByHop options (lineName line)).flatMap
    (· ++ [Octet.cr, Octet.lf]) ++
  textLine "Connection: keep-alive" ++
  extra.flatMap (fun x => textLine (x.name ++ ": " ++ x.value)) ++
  [Octet.cr, Octet.lf]

end ReverseProxy.Message.RequestHead
