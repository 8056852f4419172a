import ReverseProxy.Text.Utf8
import ReverseProxy.Message.Defect
import ReverseProxy.Message.Header

/-!
# The head of a response

The head is read from whatever pieces the backend's octets come in.  `ResponseParser.step` says what
one octet does; some octets end what came before them without being part of it, and are then looked
at again in the place that follows (`ResponseParser.step` answers whether the octet was used).
`ResponseParser.feed` runs over a piece.

Reading is lenient: a status that is no number is whatever digits it has, a line without a colon is
no header.  The one thing that is refused is a head longer than the limit.
-/

namespace ReverseProxy.Message

/-- The status line and the headers of a response. -/
structure ResponseHead where
  protocol : String := ""
  status : UInt16 := 0
  message : String := ""
  /-- In the order of arrival, names in lower case. -/
  headers : List Header := []
deriving DecidableEq, Repr

/-- Where in a response head the next octet stands. -/
inductive HeadPlace where
  /-- Among line ends before the status line. -/
  | leading
  | protocol
  | beforeCode
  | code
  | beforeMessage
  | message
  /-- After the carriage return of the status line. -/
  | statusLf
  /-- At the beginning of a header line, or of the empty line that ends the head. -/
  | lineStart
  | name
  | beforeValue
  | value
  /-- After the carriage return of a header line. -/
  | headerLf
  /-- After the carriage return of the empty line. -/
  | blankLf
  /-- After the head. -/
  | done
deriving DecidableEq, Repr

namespace HeadPlace

/-- The place belongs to the status line. -/
def inStatusLine : HeadPlace → Bool
  | leading | protocol | beforeCode | code | beforeMessage | message => true
  | _ => false

/-- How many times an octet may still be passed on from a place before `step` uses it. -/
def patience : HeadPlace → Nat
  | statusLf | headerLf => 2
  | leading | beforeCode | beforeMessage | lineStart | beforeValue | blankLf => 1
  | protocol | code | message | name | value | done => 0

theorem patience_lt (place : HeadPlace) : place.patience < 3 := by
  cases place <;> decide

end HeadPlace

/-- A reader of one response head after another. -/
structure ResponseParser where
  /-- The most octets that a head may have. `feed` refuses a head that reaches the limit and has not
  ended. -/
  limit : Nat
  place : HeadPlace := .leading
  protocol : String := ""
  code : UInt16 := 0
  message : String := ""
  /-- The headers that have been read, the last one first. -/
  headers : List Header := []
  /-- The word of the status line being read, the last octet first. -/
  token : Bytes := []
  /-- The header name being read, in lower case, the last octet first. -/
  name : Bytes := []
  /-- The header value being read, the last octet first. -/
  value : Bytes := []
  /-- How many octets of this head have been used. -/
  consumed : Nat := 0
  /-- The length of the head, once it is complete. -/
  headerLength : Nat := 0
  /-- The body is sent in chunks. -/
  chunked : Bool := false
  /-- The length of the body that was announced last. -/
  contentLength : Option Nat := none
  /-- The backend will close the connection. -/
  connectionClose : Bool := false
  /-- The backend offers to keep the connection open. -/
  connectionKeepAlive : Bool := false
deriving DecidableEq, Repr

namespace ResponseParser

/-- A reader at the beginning of its first head. -/
def new (limit : Nat) : ResponseParser := { limit }

/-- The reader at the beginning of the next head, with the same `limit`. -/
def recycle (p : ResponseParser) : ResponseParser :=
  { p with
    place := .leading
    protocol := ""
    code := 0
    message := ""
    headers := []
    token := []
    name := []
    value := []
    consumed := 0
    headerLength := 0
    chunked := false
    contentLength := none
    connectionClose := false
    connectionKeepAlive := false }

/-- Nothing of the last head remains: `recycle` is `new`. -/
theorem recycle_eq_new (p : ResponseParser) : p.recycle = new p.limit := rfl

/-- The head is complete. -/
def isDone (p : ResponseParser) : Bool := p.place == .done

/-- What has been read of the head. -/
def head (p : ResponseParser) : ResponseHead :=
  { protocol := p.protocol, status := p.code, message := p.message, headers := p.headers.reverse }

/-- The status that has been read. -/
def status (p : ResponseParser) : Nat := p.code.toNat

@[simp] theorem recycle_new (limit : Nat) : (new limit).recycle = new limit := rfl
@[simp] theorem limit_recycle (p : ResponseParser) : p.recycle.limit = p.limit := rfl
@[simp] theorem place_recycle (p : ResponseParser) : p.recycle.place = .leading := rfl
@[simp] theorem isDone_recycle (p : ResponseParser) : p.recycle.isDone = false := rfl

/-- The backend connection may be used again after this response, as far as its head tells:
`Connection` does not say `close`, and a response in `HTTP/1.0` says `keep-alive`. -/
def keepAlive (p : ResponseParser) : Bool :=
  if p.connectionClose then false
  else if Text.eqIgnoreCase p.protocol "HTTP/1.0" then p.connectionKeepAlive
  else true

/-- The end of the status line by the octet `b`. -/
def endStatusLine (p : ResponseParser) (b : UInt8) : ResponseParser :=
  { p with place := if b = Octet.cr then .statusLf else .lineStart }

/-- The end of a header line by the octet `b`. -/
def endHeaderLine (p : ResponseParser) (b : UInt8) : ResponseParser :=
  { p with place := if b = Octet.cr then .headerLf else .lineStart }

/-- The `token` being read becomes the protocol. -/
def takeProtocol (p : ResponseParser) : ResponseParser :=
  { p with protocol := Utf8.decodeLossy p.token.reverse, token := [] }

/-- The `token` being read becomes the message. -/
def takeMessage (p : ResponseParser) : ResponseParser :=
  { p with message := Text.trimEnd (Utf8.decodeLossy p.token.reverse), token := [] }

/-- Takes notice of `Transfer-Encoding`, `Content-Length` and `Connection`; no other header says how
the body ends or whether the connection stays open. -/
def heed (p : ResponseParser) (h : Header) : ResponseParser :=
  if h.name = "transfer-encoding" then { p with chunked := p.chunked || endsInChunked h.value }
  else if h.name = "content-length" then
    { p with contentLength := (Text.word? (Text.trim h.value)).or p.contentLength }
  else if h.name = "connection" then
    { p with
      connectionClose := p.connectionClose || Header.hasConnectionOption [h] "close"
      connectionKeepAlive := p.connectionKeepAlive || Header.hasConnectionOption [h] "keep-alive" }
  else p

/-- The `name` and the `value` being read become a header, unless the name is blank. -/
def register (p : ResponseParser) : ResponseParser :=
  let h : Header :=
    { name := Text.trim (Utf8.decodeLossy p.name.reverse)
      value := Text.trimEnd (Utf8.decodeLossy p.value.reverse) }
  let p := { p with name := [], value := [] }
  if h.name = "" then p
  else { p.heed h with headers := h :: p.headers }

/-- What the octet `b` does, and whether it was used; one that was not is looked at again. -/
def step (p : ResponseParser) (b : UInt8) : ResponseParser × Bool :=
  match p.place with
  | .leading => if Octet.isEol b then (p, true) else ({ p with place := .protocol }, false)
  | .protocol =>
      if Octet.isBlank b then ({ p.takeProtocol with place := .beforeCode }, true)
      else if Octet.isEol b then (p.takeProtocol.endStatusLine b, true)
      else ({ p with token := b :: p.token }, true)
  | .beforeCode => if Octet.isBlank b then (p, true) else ({ p with place := .code }, false)
  | .code =>
      if Octet.isDigit b then
        ({ p with code := p.code * 10 + (b.toUInt16 - 48) }, true)
      else if Octet.isBlank b then ({ p with place := .beforeMessage }, true)
      else if Octet.isEol b then (p.endStatusLine b, true)
      else (p, true)
  | .beforeMessage => if Octet.isBlank b then (p, true) else ({ p with place := .message }, false)
  | .message =>
      if Octet.isEol b then (p.takeMessage.endStatusLine b, true)
      else ({ p with token := b :: p.token }, true)
  | .statusLf | .headerLf => ({ p with place := .lineStart }, b == Octet.lf)
  | .lineStart =>
      if b = Octet.cr then ({ p with place := .blankLf }, true)
      else if b = Octet.lf then ({ p with place := .done }, true)
      else ({ p with place := .name }, false)
  | .name =>
      if b = Octet.colon then ({ p with place := .beforeValue }, true)
      else if Octet.isEol b then ({ p with name := [] }.endHeaderLine b, true)
      else ({ p with name := Octet.lower b :: p.name }, true)
  | .beforeValue => if Octet.isBlank b then (p, true) else ({ p with place := .value }, false)
  | .value =>
      if Octet.isEol b then (p.register.endHeaderLine b, true)
      else ({ p with value := b :: p.value }, true)
  | .blankLf => ({ p with place := .done }, b == Octet.lf)
  | .done => (p, false)

/-- An octet that is passed on is met by a place with less `patience`, unless the head is
complete. -/
theorem patience_step_lt {p : ResponseParser} {b : UInt8} (hp : p.isDone = false)
    (h : (p.step b).2 = false) :
    (p.step b).1.place.patience < p.place.patience := by
  unfold step at *
  cases hplace : p.place <;> simp only [hplace] at h ⊢
  case done => simp [isDone, hplace] at hp
  all_goals
    repeat' split at h
    all_goals simp_all [HeadPlace.patience]

/-- Reads `chunk`, the first octet of which is number `seen` of the piece.  The answer is the number
of octets of the piece that belong to the head, if it ends among them. -/
def feedFrom (seen : Nat) (p : ResponseParser) (chunk : Bytes) :
    Except Defect (Option Nat) × ResponseParser :=
  match chunk with
  | [] => (.ok none, p)
  | b :: rest =>
      if _hp : p.isDone then (.ok (some seen), p)
      else
        match _hs : p.step b with
        | (p', true) =>
            let p' := { p' with consumed := p'.consumed + 1 }
            if p'.isDone then (.ok (some (seen + 1)), { p' with headerLength := p'.consumed })
            else if p'.limit ≤ p'.consumed then (.error (.headTooLarge p'.limit), p')
            else feedFrom (seen + 1) p' rest
        | (p', false) =>
            if p'.isDone then (.ok (some seen), { p' with headerLength := p'.consumed })
            else feedFrom seen p' (b :: rest)
termination_by 3 * chunk.length + p.place.patience
decreasing_by
  · refine Nat.lt_of_lt_of_le (Nat.add_lt_add_left (HeadPlace.patience_lt _) _) ?_
    rw [List.length_cons]
    omega
  · have h := patience_step_lt (p := p) (b := b) (by simpa using _hp) (by rw [_hs])
    rw [_hs] at h
    exact Nat.add_lt_add_left h _

/-- Reads the next piece of a response.  The answer is `some n` if the head ends after `n` octets of
it, `none` if more are needed, and a defect once the head reaches the limit without having ended.  A
reader whose head is complete uses nothing. -/
def feed (p : ResponseParser) (chunk : Bytes) : Except Defect (Option Nat) × ResponseParser :=
  if p.isDone then (.ok (some 0), p) else p.feedFrom 0 chunk

theorem le_of_feedFrom {seen : Nat} {p p' : ResponseParser} {bs : Bytes} {n : Nat}
    (h : p.feedFrom seen bs = (.ok (some n), p')) : seen ≤ n := by
  fun_induction feedFrom seen p bs with
  | case1 => simp at h
  | case2 => simp at h; omega
  | case3 => simp at h; omega
  | case4 => simp at h
  | case5 _ _ _ _ _ _ _ _ _ _ ih => exact Nat.le_of_succ_le (ih h)
  | case6 => simp at h; omega
  | case7 _ _ _ _ _ _ _ _ ih => exact ih h

theorem lt_of_feedFrom {seen : Nat} {p p' : ResponseParser} {bs : Bytes} {n : Nat}
    (hp : p.place = .leading ∨ p.place = .protocol) (h : p.feedFrom seen bs = (.ok (some n), p')) :
    seen < n := by
  fun_induction feedFrom seen p bs with
  | case1 => simp at h
  | case2 seen p b rest hd => rcases hp with hp | hp <;> simp [isDone, hp] at hd
  | case3 => simp at h; omega
  | case4 => simp at h
  | case5 => exact le_of_feedFrom h
  | case6 seen p b rest hnd p₁ hs hd =>
    simp only [isDone, beq_iff_eq] at hd
    rcases hp with hp | hp <;> simp only [step, hp] at hs
    · split at hs <;> simp only [Prod.mk.injEq] at hs
      · simp at hs
      · obtain ⟨rfl, _⟩ := hs
        simp at hd
    · split at hs
      · simp at hs
      · split at hs <;> simp at hs
  | case7 seen p b rest hnd p₁ hs hd ih =>
    refine ih ?_ h
    rcases hp with hp | hp <;> simp only [step, hp] at hs
    · split at hs <;> simp only [Prod.mk.injEq] at hs
      · simp at hs
      · obtain ⟨rfl, _⟩ := hs
        exact .inr rfl
    · split at hs
      · simp at hs
      · split at hs <;> simp at hs

/-- A reader that has read nothing finds the end of a head only after at least one octet: `feed`
answers no `some 0`. -/
theorem feed_leading_pos {p p' : ResponseParser} {bs : Bytes} {n : Nat} (hp : p.place = .leading)
    (h : p.feed bs = (.ok (some n), p')) : 0 < n := by
  unfold feed at h
  split at h
  · rename_i hd
    simp [isDone, hp] at hd
  · exact lt_of_feedFrom (.inl hp) h

end ResponseParser

end ReverseProxy.Message
