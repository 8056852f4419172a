import ReverseProxy.Message.Body
import ReverseProxy.Message.ResponseHead
import ReverseProxy.Relay.Failure

/-!
# Relaying a response

A response is relayed octet for octet.  Its head is held back until it is complete, since nothing is
relayed of a head that cannot be read; interim responses are relayed as soon as they are complete,
and the next head begins after them.  The body is relayed as it arrives, up to its end; what arrives
beyond stays in the buffer.
-/

namespace ReverseProxy.Relay

open Message Wire

/-- A response on its way from the backend to the client. -/
structure ResponseRelay where
  /-- What arrives from the backend. -/
  backend : Source
  client : Sink
  /-- What has arrived and not been relayed. -/
  buffer : Buffer
  parser : ResponseParser
  /-- How many octets have been relayed. -/
  total : Nat := 0
  /-- How many of the `total` belong to the body of the final response. -/
  body : Nat := 0
  /-- The head of the final response is complete. -/
  streaming : Bool := false
deriving DecidableEq, Repr

/-- What has been relayed when a response has come to its end. -/
structure Relayed where
  framing : Framing
  body : Nat
  total : Nat
  /-- Octets have arrived beyond the end. -/
  excess : Bool
deriving DecidableEq, Repr

/-- The status announces another response to the same request: it is 1xx, but not 101. -/
def isInterim (status : Nat) : Bool := 100 ≤ status && status < 200 && status != 101

/-- How the body of a response is delimited. A response with status 101 changes the protocol;
responses to `HEAD` and those with status 204 or 304 have no body; chunks win over a length. -/
def framingOf (parser : ResponseParser) (headRequest : Bool) : Framing :=
  if parser.status = 101 then .untilClose
  else if headRequest || parser.status == 204 || parser.status == 304 then .empty
  else if parser.chunked then .chunked
  else match parser.contentLength with
    | some n => .contentLength n
    | none => .untilClose

/-- The statuses of interim responses are those from 100 to 199, but not 101, after which the
protocol is another one. -/
theorem isInterim_iff {status : Nat} :
    isInterim status = true ↔ 100 ≤ status ∧ status ≤ 199 ∧ status ≠ 101 := by
  simp only [isInterim, Bool.and_eq_true, decide_eq_true_eq, bne_iff_ne]
  omega

section

variable {parser : ResponseParser} {headRequest : Bool}

/-- The framing is `.empty` exactly for a response to `HEAD` and for one with status 204 or 304. -/
theorem framingOf_eq_empty_iff : framingOf parser headRequest = .empty ↔ parser.status ≠ 101 ∧
    (headRequest = true ∨ parser.status = 204 ∨ parser.status = 304) := by
  unfold framingOf
  repeat' split
  all_goals simp_all [or_assoc]

/-- The framing is `.chunked` exactly if there may be a body and the head announces chunks. -/
theorem framingOf_eq_chunked_iff : framingOf parser headRequest = .chunked ↔
    parser.status ≠ 101 ∧ ¬(headRequest = true ∨ parser.status = 204 ∨ parser.status = 304) ∧
      parser.chunked = true := by
  unfold framingOf
  repeat' split
  all_goals simp_all [or_assoc]

/-- The framing is `.contentLength n` exactly if there may be a body, the head announces no chunks,
and the length that it announces is `n`. -/
theorem framingOf_eq_contentLength_iff {n : Nat} : framingOf parser headRequest = .contentLength n ↔
    parser.status ≠ 101 ∧ ¬(headRequest = true ∨ parser.status = 204 ∨ parser.status = 304) ∧
      parser.chunked = false ∧ parser.contentLength = some n := by
  unfold framingOf
  repeat' split
  all_goals simp_all [or_assoc]

/-- The framing is `.untilClose` exactly if the protocol changes, or if there may be a body and the
head announces neither chunks nor a length. -/
theorem framingOf_eq_untilClose_iff : framingOf parser headRequest = .untilClose ↔
    parser.status = 101 ∨ ¬(headRequest = true ∨ parser.status = 204 ∨ parser.status = 304) ∧
      parser.chunked = false ∧ parser.contentLength = none := by
  unfold framingOf
  repeat' split
  all_goals simp_all [or_assoc]

/-- The framing is delimited exactly if the status is not 101 and the status, the request or the
head tells the length of the body. -/
theorem isDelimited_framingOf_iff : (framingOf parser headRequest).isDelimited = true ↔
    parser.status ≠ 101 ∧ (headRequest = true ∨ parser.status = 204 ∨ parser.status = 304 ∨
      parser.chunked = true ∨ parser.contentLength ≠ none) := by
  rw [← Bool.not_eq_false, Framing.isDelimited_eq_false_iff, framingOf_eq_untilClose_iff]
  grind

end

namespace ResponseRelay

/-- Relays the first `n` octets of the buffer. -/
def pass (n : Nat) (r : ResponseRelay) : Except ExchangeFailure Unit × ResponseRelay :=
  match r.client.writeAll (r.buffer.data.take n) with
  | (.error f, client) => (.error (failureOfFault .client f), { r with client })
  | (.ok (), client) =>
      (.ok (), { r with client, total := r.total + n, buffer := r.buffer.consume n })

@[simp] theorem backend_pass (n : Nat) (r : ResponseRelay) : (r.pass n).2.backend = r.backend := by
  unfold pass; split <;> rfl

theorem buffer_pass {n : Nat} {r r' : ResponseRelay} (h : r.pass n = (.ok (), r')) :
    r'.buffer = r.buffer.consume n := by
  unfold pass at h
  split at h
  · simp at h
  · simp only [Prod.mk.injEq] at h
    rw [← h.2]

/-- Reads heads in the buffer, of the first `fed` octets of which the parser has taken notice, and
relays those of interim responses.  The answer is the length of the head of the final response, if
it is complete. -/
def readHeads (fed : Nat) (r : ResponseRelay) :
    Except ExchangeFailure (Option Nat) × ResponseRelay :=
  match _hd : r.buffer.data.drop fed with
  | [] => (.ok none, r)
  | b :: rest =>
      match _hf : r.parser.feed (b :: rest) with
      | (.error e, parser) => (.error (.defect e), { r with parser })
      | (.ok none, parser) => (.ok none, { r with parser })
      | (.ok (some n), parser) =>
          if isInterim parser.status then
            match _hw : ({ r with parser }).pass (fed + n) with
            | (.error e, r) => (.error e, r)
            | (.ok (), r') => readHeads 0 { r' with parser := parser.recycle }
          else (.ok (some (fed + n)), { r with parser })
termination_by 2 * r.buffer.size + if r.parser.place = .leading then 0 else 1
decreasing_by
  have hb : r'.buffer.size = r.buffer.size - (fed + n) :=
    by rw [buffer_pass _hw, Buffer.size_consume]
  have hs : 0 < r.buffer.size := by
    have := congrArg List.length _hd
    rw [List.length_drop, List.length_cons] at this
    rw [Buffer.size]
    omega
  simp only [ResponseParser.place_recycle, if_true, hb]
  by_cases hlead : r.parser.place = .leading
  · have hn := ResponseParser.feed_leading_pos hlead _hf
    omega
  · rw [if_neg hlead]
    omega

@[simp] theorem backend_readHeads (fed : Nat) (r : ResponseRelay) :
    (r.readHeads fed).2.backend = r.backend := by
  fun_induction readHeads fed r with
  | case1 | case2 | case3 | case6 => rfl
  | case4 fed r _ _ _ n parser _ _ e r' hw =>
    have := backend_pass (fed + n) { r with parser }
    rwa [hw] at this
  | case5 fed r _ _ _ n parser _ _ r' hw ih =>
    have := backend_pass (fed + n) { r with parser }
    rw [hw] at this
    exact ih.trans this

/-- Reads from the backend until the head of the final response is complete, and answers its length.
The parser has taken notice of the first `fed` octets of the buffer. -/
def awaitHead (fed : Nat) (r : ResponseRelay) : Except ExchangeFailure Nat × ResponseRelay :=
  match _hr : r.readHeads fed with
  | (.error e, r) => (.error e, r)
  | (.ok (some n), r) => (.ok n, r)
  | (.ok none, r') =>
      if r'.buffer.isFull then (.error (.defect (.headTooLarge r'.buffer.capacity)), r')
      else
        match _h : r'.buffer.receive r'.backend with
        | (.octets (_ :: _), backend, buffer) =>
            awaitHead r'.buffer.size { r' with backend, buffer }
        | (failure, backend, buffer) =>
            (.error (failureOfReceived .backend failure), { r' with backend, buffer })
termination_by r.backend.weight
decreasing_by
  have hb : r'.backend = r.backend := by
    have := backend_readHeads fed r
    rwa [_hr] at this
  have := Buffer.weight_receive_lt _h
  rwa [hb] at this

/-- Relays what is in the buffer of the head, the first `head` octets of it, and of the body.  The
answer is whether the body has come to its end. -/
def passBody (head : Nat) (t : BodyTracker) (r : ResponseRelay) :
    Except ExchangeFailure (Bool × BodyTracker) × ResponseRelay :=
  match t.advance (r.buffer.data.drop head) with
  | (.error e, _) => (.error (.defect e), r)
  | (.ok stop, t) =>
      let n := (stop.map (head + ·)).getD r.buffer.size
      match r.pass n with
      | (.error e, r) => (.error e, r)
      | (.ok (), r) => (.ok (stop.isSome, t), { r with body := r.body + (n - head) })

@[simp] theorem backend_passBody (head : Nat) (t : BodyTracker) (r : ResponseRelay) :
    (r.passBody head t).2.backend = r.backend := by
  unfold passBody
  split
  · rfl
  · rename_i stop t' _
    have := backend_pass ((stop.map (head + ·)).getD r.buffer.size) r
    simp only
    split <;> rename_i hp <;> rw [hp] at this <;> exact this

/-- Reads the rest of the body from the backend and relays it.  A body that is not delimited comes
to its end with the connection. -/
def relayBody (delimited : Bool) (t : BodyTracker) (r : ResponseRelay) :
    Except ExchangeFailure Unit × ResponseRelay :=
  match _h : r.buffer.receive r.backend with
  | (.octets (_ :: _), backend, buffer) =>
      match _hp : ({ r with backend, buffer }).passBody 0 t with
      | (.error e, r) => (.error e, r)
      | (.ok (true, _), r) => (.ok (), r)
      | (.ok (false, t'), r') => relayBody delimited t' r'
  | (.octets [], backend, buffer) =>
      let r := { r with backend, buffer }
      if delimited then (.error (.transport (.closed .backend)), r) else (.ok (), r)
  | (failure, backend, buffer) =>
      (.error (failureOfReceived .backend failure), { r with backend, buffer })
termination_by r.backend.weight
decreasing_by
  have hb := backend_passBody 0 t { r with backend, buffer }
  rw [_hp] at hb
  rw [hb]
  exact Buffer.weight_receive_lt _h

/-- Relays one response. `buffer` is empty and `parser` at the beginning of a head. -/
def run (headRequest : Bool) (r : ResponseRelay) : Except ExchangeFailure Relayed × ResponseRelay :=
  match r.awaitHead 0 with
  | (.error e, r) => (.error e, r)
  | (.ok head, r) =>
      let framing := framingOf r.parser headRequest
      let finish (r : ResponseRelay) : Except ExchangeFailure Relayed × ResponseRelay :=
        match r.client.flush with
        | (.error f, client) => (.error (failureOfFault .client f), { r with client })
        | (.ok (), client) =>
            (.ok { framing, body := r.body, total := r.total, excess := !r.buffer.isEmpty },
              { r with client })
      match ({ r with streaming := true }).passBody head (.ofFraming framing) with
      | (.error e, r) => (.error e, r)
      | (.ok (true, _), r) => finish r
      | (.ok (false, t), r) =>
          match r.relayBody framing.isDelimited t with
          | (.error e, r) => (.error e, r)
          | (.ok (), r) => finish r

end ResponseRelay

end ReverseProxy.Relay
