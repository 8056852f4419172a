import ReverseProxy.Proofs.Wire.Transfer
import ReverseProxy.Relay.ResponseRelay

/-!
# What a relay has passed on

Whatever a relay does, octets go from the backend into the buffer and from the front of the buffer
to the client.  `Relays` compares the relay at two moments: so many octets have been passed on
between them, and these are what the stream has lost at its front.  `Fails` is what is left of that
when an operation fails: the client has received the beginning of the stream, and nothing else.
Each operation of the relay has one lemma in these terms.
-/

namespace ReverseProxy.Relay.ResponseRelay

open Wire

/-- What is still to be relayed: the octets in the buffer, and those to come from the backend. -/
def stream (r : ResponseRelay) : Bytes := r.buffer.data ++ r.backend.octets

/-- Neither of the two connections fails. -/
structure Calm (r : ResponseRelay) : Prop where
  backend : r.backend.Steady
  client : r.client.Steady

/-- From one moment to another the relay has passed on the octets `passed`. -/
structure Relays (r : ResponseRelay) (passed : Bytes) (r' : ResponseRelay) : Prop where
  written : r'.client.written = r.client.written ++ passed
  stream : passed ++ r'.stream = r.stream
  total : r'.total = r.total + passed.length
  capacity : r'.buffer.capacity = r.buffer.capacity
  calm : r.Calm → r'.Calm

/-- From `r` to `r'` the client has received some prefix of the stream, and nothing else. -/
def Fails (r r' : ResponseRelay) : Prop :=
  ∃ part, part <+: r.stream ∧ r'.client.written = r.client.written ++ part

/-- From `r` to `r'` nothing has been passed on, if they differ only in what they know of the
response. -/
theorem Relays.of_eq {r r' : ResponseRelay} (hbackend : r'.backend = r.backend)
    (hclient : r'.client = r.client)
    (hbuffer : r'.buffer = r.buffer) (htotal : r'.total = r.total) : Relays r [] r' where
  written := by rw [hclient, List.append_nil]
  stream := by rw [List.nil_append, ResponseRelay.stream, ResponseRelay.stream, hbuffer, hbackend]
  total := by rw [htotal, List.length_nil, Nat.add_zero]
  capacity := by rw [hbuffer]
  calm h := ⟨hbackend ▸ h.backend, hclient ▸ h.client⟩

theorem Relays.refl (r : ResponseRelay) : Relays r [] r := .of_eq rfl rfl rfl rfl

theorem Relays.trans {r r₁ r₂ : ResponseRelay} {a b : Bytes} (h₁ : Relays r a r₁)
    (h₂ : Relays r₁ b r₂) :
    Relays r (a ++ b) r₂ where
  written := by rw [h₂.written, h₁.written, List.append_assoc]
  stream := by rw [List.append_assoc, h₂.stream, h₁.stream]
  total := by rw [h₂.total, h₁.total, List.length_append, Nat.add_assoc]
  capacity := h₂.capacity.trans h₁.capacity
  calm h := h₂.calm (h₁.calm h)

/-- The octets `passed` are the beginning of the stream. -/
theorem Relays.fails {r r' : ResponseRelay} {passed : Bytes} (h : Relays r passed r') :
    Fails r r' :=
  ⟨passed, ⟨r'.stream, h.stream⟩, h.written⟩

/-- A relay that has passed octets on and then fails has failed as a whole. -/
theorem Relays.trans_fails {r r₁ r₂ : ResponseRelay} {passed : Bytes} (h₁ : Relays r passed r₁)
    (h₂ : Fails r₁ r₂) : Fails r r₂ := by
  obtain ⟨part, ⟨rest, hrest⟩, hwritten⟩ := h₂
  refine ⟨passed ++ part, ⟨rest, ?_⟩, ?_⟩
  · rw [List.append_assoc, hrest, h₁.stream]
  · rw [hwritten, h₁.written, List.append_assoc]

/-! ### The operations -/

/-- A reading passes nothing on. -/
theorem relays_receive {r : ResponseRelay} {got : Received} {backend : Source} {buffer : Buffer}
    (hb : ¬r.buffer.isFull = true) (h : r.buffer.receive r.backend = (got, backend, buffer)) :
    Relays r [] { r with backend, buffer } where
  written := (List.append_nil _).symm
  stream := Buffer.data_append_octets_receive h
  total := rfl
  capacity := (Buffer.data_receive h).2.2
  calm hr := ⟨(Buffer.receive_steady hr.backend hb h).1, hr.client⟩

/-- A `pass` that succeeds passes on the first `n` octets of the buffer. -/
theorem relays_pass {n : Nat} {r r' : ResponseRelay} (hn : n ≤ r.buffer.size)
    (h : r.pass n = (.ok (), r')) :
    Relays r (r.buffer.data.take n) r' ∧ r'.buffer.data = r.buffer.data.drop n := by
  unfold pass at h
  rcases hw : r.client.writeAll (r.buffer.data.take n) with ⟨f | _, client⟩ <;>
    simp only [hw] at h <;> cases h
  obtain ⟨part, -, hwritten, hall⟩ := Sink.written_writeAll hw
  have hdata := Buffer.data_consume r.buffer n
  refine ⟨⟨?_, ?_, ?_, Buffer.capacity_consume _ _, fun hr => ⟨hr.backend, ?_⟩⟩, hdata⟩
  · rw [hwritten, hall rfl]
  · rw [stream, hdata, ← List.append_assoc, List.take_append_drop, stream]
  · rw [List.length_take_of_le hn]
  · obtain ⟨client', hw', hsteady⟩ := hr.client.writeAll (r.buffer.data.take n)
    cases hw.symm.trans hw'
    exact hsteady

@[simp] theorem body_pass (n : Nat) (r : ResponseRelay) : (r.pass n).2.body = r.body := by
  unfold pass
  split <;> rfl

@[simp] theorem parser_pass (n : Nat) (r : ResponseRelay) : (r.pass n).2.parser = r.parser := by
  unfold pass
  split <;> rfl

/-- A `pass` that fails leaves the client with a part of the first octets of the buffer, and some
connection has failed. -/
theorem fails_pass {n : Nat} {r r' : ResponseRelay} {e : ExchangeFailure}
    (h : r.pass n = (.error e, r')) :
    Fails r r' ∧ ¬r.Calm := by
  unfold pass at h
  rcases hw : r.client.writeAll (r.buffer.data.take n) with ⟨f | _, client⟩ <;>
    simp only [hw] at h <;> cases h
  obtain ⟨part, hpart, hwritten, -⟩ := Sink.written_writeAll hw
  refine ⟨⟨part, ?_, hwritten⟩, fun hr => ?_⟩
  · exact hpart.trans ((List.take_prefix n _).trans (List.prefix_append _ _))
  · obtain ⟨client', hw', -⟩ := hr.client.writeAll (r.buffer.data.take n)
    cases hw.symm.trans hw'

end ReverseProxy.Relay.ResponseRelay
