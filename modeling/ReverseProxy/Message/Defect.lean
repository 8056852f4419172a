/-!
# What can be wrong with a message

The causes for which a message is refused, and the wording of each.
-/

namespace ReverseProxy.Message

/-- Why the head of a request is refused. -/
inductive RequestDefect where
  /-- A header line has no name that is a token followed by a colon. -/
  | headerName
  /-- A header value holds a control character. -/
  | headerValue
  /-- A carriage return is not followed by a line feed, or a line goes on where it has to end. -/
  | newLine
  /-- The method or the target is malformed. -/
  | token
  /-- There are more headers than are kept. -/
  | tooManyHeaders
  /-- The version is neither of the two understood. -/
  | version
  /-- The body is announced in a coding other than chunks. -/
  | transferEncoding (value : String)
  /-- The announced length of the body is not a number. -/
  | contentLength (value : String)
deriving DecidableEq, Repr

/-- The wording of a reason to refuse a request. -/
def RequestDefect.message : RequestDefect → String
  | .headerName => "invalid header name"
  | .headerValue => "invalid header value"
  | .newLine => "invalid new line"
  | .token => "invalid token"
  | .tooManyHeaders => "too many headers"
  | .version => "invalid HTTP version"
  | .transferEncoding value => "unsupported transfer-encoding '" ++ value ++ "'"
  | .contentLength value => "invalid content-length '" ++ value ++ "'"

/-- Why a message is refused. -/
inductive Defect where
  /-- The head has not ended within `limit` octets. -/
  | headTooLarge (limit : Nat)
  /-- An octet does not fit the framing of a chunked body. -/
  | chunkFraming
  /-- The head of a request is malformed. -/
  | request (reason : RequestDefect)
deriving DecidableEq, Repr

/-- The wording of a reason to refuse a message. -/
def Defect.message : Defect → String
  | .headTooLarge limit => "header block exceeds " ++ toString limit ++ " bytes"
  | .chunkFraming => "invalid chunked framing"
  | .request reason => "invalid request: " ++ reason.message

end ReverseProxy.Message
