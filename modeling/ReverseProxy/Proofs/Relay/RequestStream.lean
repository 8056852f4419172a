import ReverseProxy.Proofs.Wire.ClientStream
import ReverseProxy.Relay.RequestBodyRelay
import ReverseProxy.Relay.RequestReading

/-!
# Requests in the stream of a client

The octets of a client's requests go through one buffer, whether they are read in search of a head
or forwarded as a body.  `stream` is what has not been used of them: the octets in the buffer and
those to come.  To read a head uses nothing (`RequestReading.next_eq`), and to forward octets of a
body uses just those that are written to the backend (`RequestBodyRelay.Forwards`).
-/

namespace ReverseProxy.Message

/-- The framing of the body of a request, in the terms of that of a response. -/
def RequestBody.framing : RequestBody → Framing
  | .none => .empty
  | .length n => .contentLength n
  | .chunked => .chunked

end ReverseProxy.Message

namespace ReverseProxy.Relay

open Message Wire

/-! ### Reading a head -/

namespace RequestReading

/-- What has not been used: the octets in the buffer, and those to come from the client. -/
def stream (r : RequestReading) : Bytes := r.buffer.data ++ r.client.octets

/-- A wait leaves the `stream` as it is, and what is `outgoing`. -/
theorem wait_eq {idle : Bool} {r r' : RequestReading} {a : Awaited} (h : r.wait idle = (a, r')) :
    r'.stream = r.stream ∧ r'.client.outgoing = r.client.outgoing := by
  obtain ⟨hgot, hbuffer⟩ := wait_cases h
  -- with and without a watch on the mode the same is got from the client
  have key : a.bytes ++ r'.client.octets = r.client.octets ∧
    a.bytes.length ≤ r.buffer.makeRoom.room ∧
      r'.client.outgoing = r.client.outgoing := by
    obtain ⟨-, hawait⟩ | ⟨-, got, rfl, hreceive⟩ := hgot
    · exact Client.await_eq hawait
    · exact Client.receive_eq hreceive
  obtain ⟨hoctets, hle, houtgoing⟩ := key
  refine ⟨?_, houtgoing⟩
  obtain ⟨bs, rfl, hwritten⟩ | ⟨hnone, hwritten⟩ := hbuffer
  · have hle : bs.length ≤ r.buffer.makeRoom.room := hle
    rw [stream, hwritten, Buffer.data_write_makeRoom hle, List.append_assoc, stream, ← hoctets]
    rfl
  · have hbytes : a.bytes = [] := by
      cases a with
      | received got =>
        cases got with
        | octets bs => exact absurd rfl (hnone bs)
        | failed | timedOut => rfl
      | notified | abandoned => rfl
    rw [stream, hwritten, Buffer.data_makeRoom, stream, ← hoctets, hbytes, List.nil_append]

theorem stream_shift (r : RequestReading) :
    ({ r with buffer := r.buffer.shift } : RequestReading).stream = r.stream := by
  rw [stream, Buffer.data_shift, stream]

/-- Looking for a head with `next` leaves the `stream` as it is, whatever becomes of it. -/
theorem next_eq (r : RequestReading) :
    r.next.2.stream = r.stream ∧ r.next.2.client.outgoing = r.client.outgoing := by
  fun_induction next r with
  | case1 r start | case2 r start | case3 r start => exact ⟨stream_shift r, rfl⟩
  | case4 r start _ _ _ _ r' hw ih | case5 r start _ _ r' hw ih =>
    obtain ⟨hstream, houtgoing⟩ := wait_eq hw
    exact ⟨ih.1.trans (hstream.trans (stream_shift r)), ih.2.trans houtgoing⟩
  | case6 r start _ _ r' hw | case7 r start _ _ _ r' _ hw =>
    obtain ⟨hstream, houtgoing⟩ := wait_eq hw
    exact ⟨hstream.trans (stream_shift r), houtgoing⟩

theorem parse_of_buffered? {r : RequestReading} {head : RequestHead}
    (h : r.buffered? = .ok (some head)) :
    RequestHead.parse r.buffer.data = .ok (some head) := by
  unfold buffered? at h
  split at h
  · cases h
  split at h
  · cases h
  · rename_i hp
    cases h
    exact hp
  · split at h <;> cases h

/-- A head that `next` finds is what `parse` makes of the buffer. -/
theorem parse_of_next {r r' : RequestReading} {head : RequestHead}
    (h : r.next = (.ok (some head), r')) :
    RequestHead.parse r'.buffer.data = .ok (some head) := by
  fun_induction next r with
  | case1 | case3 | case6 => cases h
  | case2 r start head' hb =>
    obtain ⟨hhead, rfl⟩ := Prod.mk.inj h
    cases hhead
    exact parse_of_buffered? hb
  | case4 r start _ _ _ _ r'' hw ih | case5 r start _ _ r'' hw ih => exact ih h
  | case7 r start _ _ x r'' hw =>
    have hending := (Prod.mk.inj h).1
    unfold ending at hending
    split at hending <;> cases hending

end RequestReading

/-! ### Forwarding a body -/

namespace RequestBodyRelay

variable {τ : Type} {w : Writer τ} {a b : Bytes} {t : BodyTracker} {r r₁ r₂ r' : RequestBodyRelay τ}

/-- What has not been used: the octets in the buffer, and those to come from the client. -/
def stream (r : RequestBodyRelay τ) : Bytes := r.buffer.data ++ r.client.octets

/-- From one moment to another the octets `part` have been taken from the stream and written to the
backend. -/
structure Forwards (w : Writer τ) (r : RequestBodyRelay τ) (part : Bytes)
    (r' : RequestBodyRelay τ) : Prop where
  written : w.Writes r.backend part r'.backend
  stream : part ++ r'.stream = r.stream
  outgoing : r'.client.outgoing = r.client.outgoing

theorem Forwards.refl (w : Writer τ) (r : RequestBodyRelay τ) : Forwards w r [] r :=
  ⟨.nil _, rfl, rfl⟩

theorem Forwards.trans (h₁ : Forwards w r a r₁) (h₂ : Forwards w r₁ b r₂) :
    Forwards w r (a ++ b) r₂ where
  written := h₁.written.trans h₂.written
  stream := by rw [List.append_assoc, h₂.stream, h₁.stream]
  outgoing := h₂.outgoing.trans h₁.outgoing

theorem Forwards.prefix_stream (h : Forwards w r a r') : a <+: r.stream := ⟨_, h.stream⟩

/-- A reading forwards nothing. -/
theorem forwards_receive {got : Received} {client : Client} {buffer : Buffer}
    (h : r.buffer.receiveClient r.client = (got, client, buffer)) :
    Forwards w r [] { r with client, buffer } :=
  ⟨.nil _, (Buffer.receiveClient_eq h).1, (Buffer.receiveClient_eq h).2⟩

/-- One step of `forwardRest`. -/
theorem forwardRest_eq_match (w : Writer τ) (t : BodyTracker) (r : RequestBodyRelay τ) :
    r.forwardRest w t = match r.buffer.receiveClient r.client with
      | (.octets (_ :: _), client, buffer) =>
          match ({ r with client, buffer }).pass w t with
          | (.error e, r₁) => (.error e, r₁)
          | (.ok (true, _), r₁) => (.ok r₁.sent, r₁)
          | (.ok (false, t'), r₁) => r₁.forwardRest w t'
      | (failure, client, buffer) =>
          (.error (failureOfReceived .client failure), { r with client, buffer }) := by
  rw [RequestBodyRelay.forwardRest]
  split <;> rename_i hreceive <;> simp only [hreceive]
  split <;> rename_i hpass <;> simp only [hpass]

/-- The tracker of the body of a request is that of its framing. -/
theorem eq_ofFraming {body : RequestBody} (h : BodyTracker.ofRequestBody? body = some t) :
    t = .ofFraming body.framing := by
  cases body <;> cases h <;> rfl

end RequestBodyRelay

end ReverseProxy.Relay
