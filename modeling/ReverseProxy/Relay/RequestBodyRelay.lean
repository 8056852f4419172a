import ReverseProxy.Message.Body
import ReverseProxy.Relay.Failure
import ReverseProxy.Wire.Client

/-!
# Forwarding the body of a request

The body of a request is forwarded octet for octet.  What has arrived with the head goes first; what
arrives beyond the end of the body stays in the buffer, for it belongs to the next request.
-/

namespace ReverseProxy.Relay

open Message Wire

/-- The body of a request on its way from the client to the backend, to which it is written in a
state of type `τ`. -/
structure RequestBodyRelay (τ : Type) where
  client : Client
  /-- What has arrived and not been forwarded. -/
  buffer : Buffer
  backend : τ
  /-- How many octets have been forwarded. -/
  sent : Nat := 0

namespace RequestBodyRelay

variable {τ : Type}

/-- Forwards what is in the buffer of the body, as `t` tells. The answer is whether the body has
come to its end. -/
def pass (w : Writer τ) (t : BodyTracker) (r : RequestBodyRelay τ) :
    Except ExchangeFailure (Bool × BodyTracker) × RequestBodyRelay τ :=
  match t.advance r.buffer.data with
  | (.error e, _) => (.error (.defect e), r)
  | (.ok stop, t) =>
      let n := stop.getD r.buffer.size
      match w.writeAll (r.buffer.data.take n) r.backend with
      | (.error f, backend) => (.error (failureOfFault .backend f), { r with backend })
      | (.ok (), backend) =>
          (.ok (stop.isSome, t),
            { r with backend, buffer := r.buffer.consume n, sent := r.sent + n })

@[simp] theorem client_pass (w : Writer τ) (t : BodyTracker) (r : RequestBodyRelay τ) :
    (r.pass w t).2.client = r.client := by
  unfold pass
  split
  · rfl
  · simp only
    split <;> rfl

/-- Reads the rest of the body from the client and forwards it. A reading that gets no octets is a
failure, see `failureOfReceived`. -/
def forwardRest (w : Writer τ) (t : BodyTracker) (r : RequestBodyRelay τ) :
    Except ExchangeFailure Nat × RequestBodyRelay τ :=
  match _h : r.buffer.receiveClient r.client with
  | (.octets (_ :: _), client, buffer) =>
      match _hp : ({ r with client, buffer }).pass w t with
      | (.error e, r) => (.error e, r)
      | (.ok (true, _), r) => (.ok r.sent, r)
      | (.ok (false, t'), r') => forwardRest w t' r'
  | (failure, client, buffer) =>
      (.error (failureOfReceived .client failure), { r with client, buffer })
termination_by r.client.weight
decreasing_by
  have hc := client_pass w t { r with client, buffer }
  rw [_hp] at hc
  rw [hc]
  exact Buffer.weight_receiveClient_lt _h

/-- Forwards `body`, which begins at the front of the buffer, and answers how many octets it has. -/
def run (w : Writer τ) (body : RequestBody) (r : RequestBodyRelay τ) :
    Except ExchangeFailure Nat × RequestBodyRelay τ :=
  match BodyTracker.ofRequestBody? body with
  | none => (.ok 0, r)
  | some t =>
      if r.buffer.isEmpty then r.forwardRest w t
      else
        match r.pass w t with
        | (.error e, r) => (.error e, r)
        | (.ok (true, _), r) => (.ok r.sent, r)
        | (.ok (false, t), r) => r.forwardRest w t

/-! ### What is left to read -/

/-- A measure of what has not been used: what is in `buffer` and what is still to happen to
`client`. -/
def remaining (r : RequestBodyRelay τ) : Nat := r.client.weight + r.buffer.size

theorem remaining_pass_le (w : Writer τ) (t : BodyTracker) (r : RequestBodyRelay τ) :
    (r.pass w t).2.remaining ≤ r.remaining := by
  unfold pass remaining
  split
  · exact Nat.le_refl _
  · simp only
    split
    · exact Nat.le_refl _
    · simp only [Buffer.size_consume]; omega

theorem remaining_forwardRest_le (w : Writer τ) (t : BodyTracker) (r : RequestBodyRelay τ) :
    (r.forwardRest w t).2.remaining ≤ r.remaining := by
  fun_induction forwardRest w t r with
  | case1 t r _ _ client buffer h _ _ hp | case2 t r _ _ client buffer h _ _ hp =>
    have h1 := r.buffer.weight_receiveClient_le r.client
    rw [h] at h1
    have h2 := remaining_pass_le w t { r with client, buffer }
    rw [hp] at h2
    exact Nat.le_trans h2 h1
  | case3 t r _ _ client buffer h _ r' hp ih =>
    have h1 := r.buffer.weight_receiveClient_le r.client
    rw [h] at h1
    have h2 := remaining_pass_le w t { r with client, buffer }
    rw [hp] at h2
    exact Nat.le_trans ih (Nat.le_trans h2 h1)
  | case4 t r _ client buffer _ h =>
    have h1 := r.buffer.weight_receiveClient_le r.client
    rw [h] at h1
    exact h1

/-- Forwarding a body leaves no more than there was, whatever the writer `w` does. -/
theorem remaining_run_le (w : Writer τ) (body : RequestBody) (r : RequestBodyRelay τ) :
    (r.run w body).2.remaining ≤ r.remaining := by
  unfold run
  split
  · exact Nat.le_refl _
  · rename_i t _
    split
    · exact remaining_forwardRest_le w t r
    · have h := remaining_pass_le w t r
      split <;> rename_i hp <;> rw [hp] at h
      · exact h
      · exact h
      · exact Nat.le_trans (remaining_forwardRest_le w _ _) h

end RequestBodyRelay

end ReverseProxy.Relay
