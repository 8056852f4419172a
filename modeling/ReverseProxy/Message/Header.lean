import ReverseProxy.Text.Numeral

/-!
# Headers

The headers of a message are a list in the order of arrival; a name may occur more than once.  Names
are kept in lower case and asked for in any case.
-/

namespace ReverseProxy.Message

/-- One header of a message. -/
structure Header where
  name : String
  value : String
deriving DecidableEq, Repr

namespace Header

/-- The values of the headers `name`, in order. -/
def values (headers : List Header) (name : String) : List String :=
  (headers.filter fun h => Text.eqIgnoreCase h.name name).map Header.value

/-- The value of the first header `name`. -/
def first? (headers : List Header) (name : String) : Option String :=
  (headers.find? fun h => Text.eqIgnoreCase h.name name).map Header.value

theorem first?_eq_head? (headers : List Header) (name : String) :
    first? headers name = (values headers name).head? := by
  simp [first?, values, List.head?_filter]

/-- The options that the `Connection` headers list. -/
def connectionOptions (headers : List Header) : List String :=
  (headers.filter fun h => h.name == "connection").flatMap fun h => Text.elements h.value

/-- The `Connection` headers list the `option`. -/
def hasConnectionOption (headers : List Header) (option : String) : Bool :=
  (connectionOptions headers).any (Text.eqIgnoreCase · option)

end Header

/-- A value of a `Transfer-Encoding` header says that the message is sent in chunks: its last coding
is `chunked`. -/
def endsInChunked (value : String) : Bool := Text.eqIgnoreCase (Text.lastElement value) "chunked"

end ReverseProxy.Message
