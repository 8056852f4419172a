import ReverseProxy.Proofs.Relay.FailedExchanges
import ReverseProxy.Proofs.Relay.RequestStream
import ReverseProxy.Proofs.Relay.ResponseHeads
import ReverseProxy.Proofs.Wire.AlikeBuffers

/-!
# Relaying tells nothing of an allocation

The parts of an exchange work on a buffer each.  Two states of a part are `Alike` if they differ in
nothing but that buffer, and the buffers are alike.  Whatever is done in one of two such states can
be done in the other: it gives the same answer, writes the same, and leaves states that are alike
again.  A run of several steps is followed step by step, along the recursion of the run.
-/

namespace ReverseProxy.Relay

open Message Wire

/-! ### Reading the head of a request -/

namespace RequestReading

/-- The readings `r` and `r'` differ in nothing but in what cannot be seen of their buffers. -/
def Alike (r r' : RequestReading) : Prop := ∃ b, r.buffer.Alike b ∧ r' = { r with buffer := b }

variable {r r' r₁ : RequestReading}

theorem Alike.client_eq (h : r.Alike r') : r'.client = r.client := by
  obtain ⟨b, -, rfl⟩ := h
  rfl

theorem Alike.isEmpty_eq (h : r.Alike r') : r'.buffer.isEmpty = r.buffer.isEmpty := by
  obtain ⟨b, hb, rfl⟩ := h
  exact hb.isEmpty_eq.symm

theorem Alike.buffered?_eq (h : r.Alike r') : r'.buffered? = r.buffered? := by
  obtain ⟨b, hb, rfl⟩ := h
  simp only [buffered?, hb.isEmpty_eq, hb.data, hb.isFull_eq, hb.capacity]

theorem Alike.wait (h : r.Alike r') {idle : Bool} {a : Awaited} (hw : r.wait idle = (a, r₁)) :
    ∃ r₁', r'.wait idle = (a, r₁') ∧ r₁.Alike r₁' := by
  obtain ⟨b, hb, rfl⟩ := h
  unfold RequestReading.wait at hw ⊢
  simp only [← hb.makeRoom.room_eq]
  simp only at hw
  split at hw <;> cases hw
  · exact ⟨_, rfl, _, hb.makeRoom.write _, rfl⟩
  · exact ⟨_, rfl, _, hb.makeRoom, rfl⟩

/-- The reading with what has arrived at the front of the buffer. -/
def aligned (r : RequestReading) : RequestReading := { r with buffer := r.buffer.shift }

theorem Alike.aligned (h : r.Alike r') : r.aligned.Alike r'.aligned := by
  obtain ⟨b, hb, rfl⟩ := h
  exact ⟨b.shift, hb.shift, rfl⟩

/-- One step of `next`. -/
theorem next_eq_match (r : RequestReading) :
    r.next = match r.aligned.buffered? with
      | .error e => (.error e, r.aligned)
      | .ok (some head) => (.ok (some head), r.aligned)
      | .ok none =>
          if r.aligned.buffer.isEmpty && r.aligned.client.watch.mode == .stopped then
            (.ok none, r.aligned)
          else
            match r.aligned.wait r.aligned.buffer.isEmpty with
            | (.received (.octets (_ :: _)), r₁) => r₁.next
            | (.notified, r₁) => r₁.next
            | (.abandoned, r₁) => (.ok none, r₁)
            | (.received x, r₁) => (ending r.aligned.buffer.isEmpty x, r₁) := by
  rw [RequestReading.next, show ({ r with buffer := r.buffer.shift } : RequestReading) =
    r.aligned from rfl]
  congr
  funext
  congr
  split <;> rename_i hw <;> simp only [hw]

/-- Alike readings find the same head, or their connection ends or fails with the same error. -/
theorem Alike.next (h : r.Alike r') : ∃ r₁', r'.next = (r.next.1, r₁') ∧ r.next.2.Alike r₁' := by
  revert r'
  -- along the one reading; the other is alike at the beginning of every step, once both are aligned
  fun_induction RequestReading.next r with
  | case1 r start x | case2 r start x =>
    rename_i hbuffered
    intro r' h
    have hs : start.Alike r'.aligned := h.aligned
    refine ⟨_, ?_, hs⟩
    rw [next_eq_match, hs.buffered?_eq, hbuffered]
  | case3 r start hbuffered =>
    rename_i hstop
    intro r' h
    have hs : start.Alike r'.aligned := h.aligned
    refine ⟨_, ?_, hs⟩
    rw [next_eq_match, hs.buffered?_eq, hbuffered, hs.isEmpty_eq, hs.client_eq]
    exact if_pos hstop
  | case4 r start hbuffered hstop _ _ r₁ hw | case5 r start hbuffered hstop r₁ hw =>
    rename_i ih
    intro r' h
    have hs : start.Alike r'.aligned := h.aligned
    obtain ⟨r₁', hw', h₁⟩ := hs.wait hw
    obtain ⟨r₂', hn, h₂⟩ := ih h₁
    refine ⟨r₂', ?_, h₂⟩
    rw [next_eq_match, hs.buffered?_eq, hbuffered, hs.isEmpty_eq, hs.client_eq, ← hn]
    simp only [if_neg hstop, hw']
  | case6 r start hbuffered hstop r₁ | case7 r start hbuffered hstop _ r₁ _ =>
    rename_i hw
    intro r' h
    have hs : start.Alike r'.aligned := h.aligned
    obtain ⟨r₁', hw', h₁⟩ := hs.wait hw
    refine ⟨r₁', ?_, h₁⟩
    rw [next_eq_match, hs.buffered?_eq, hbuffered, hs.isEmpty_eq, hs.client_eq]
    simp only [if_neg hstop, hw']

end RequestReading

/-! ### Forwarding the body of a request -/

namespace RequestBodyRelay

variable {τ : Type} {w : Writer τ} {r r' r₁ : RequestBodyRelay τ}

/-- The forwardings `r` and `r'` differ in nothing but in what cannot be seen of their buffers. -/
def Alike (r r' : RequestBodyRelay τ) : Prop := ∃ b, r.buffer.Alike b ∧ r' = { r with buffer := b }

theorem Alike.isEmpty_eq (h : r.Alike r') : r'.buffer.isEmpty = r.buffer.isEmpty := by
  obtain ⟨b, hb, rfl⟩ := h
  exact hb.isEmpty_eq.symm

/-- Alike forwardings `pass` the same octets. -/
theorem Alike.pass (h : r.Alike r') {t : BodyTracker}
    {answer : Except ExchangeFailure (Bool × BodyTracker)}
    (hp : r.pass w t = (answer, r₁)) : ∃ r₁', r'.pass w t = (answer, r₁') ∧ r₁.Alike r₁' := by
  obtain ⟨b, hb, rfl⟩ := h
  unfold RequestBodyRelay.pass at hp ⊢
  simp only [← hb.data, ← hb.size_eq]
  split at hp
  · cases hp
    exact ⟨_, rfl, b, hb, rfl⟩
  · simp only at hp
    split at hp <;> cases hp
    · exact ⟨_, rfl, b, hb, rfl⟩
    · exact ⟨_, rfl, _, hb.consume _, rfl⟩

theorem Alike.receiveClient (h : r.Alike r') {client : Client} {buffer : Buffer} {got : Received}
    (hr : r.buffer.receiveClient r.client = (got, client, buffer)) :
    ∃ buffer', r'.buffer.receiveClient r'.client = (got, client, buffer') ∧
      Alike { r with client, buffer } { r' with client, buffer := buffer' } := by
  obtain ⟨b, hb, rfl⟩ := h
  obtain ⟨b', hr', hb'⟩ := hb.receiveClient hr
  exact ⟨b', hr', b', hb', rfl⟩

/-- Alike forwardings have the same `forwardRest`. -/
theorem Alike.forwardRest (h : r.Alike r') {t : BodyTracker} {answer : Except ExchangeFailure Nat}
    (hf : r.forwardRest w t = (answer, r₁)) :
    ∃ r₁', r'.forwardRest w t = (answer, r₁') ∧ r₁.Alike r₁' := by
  fun_induction RequestBodyRelay.forwardRest w t r generalizing r' with
  | case1 t r _ _ client buffer hreceive e r₂ hpass =>
    cases hf
    obtain ⟨buffer', hreceive', h₁⟩ := h.receiveClient hreceive
    obtain ⟨r₂', hpass', h₂⟩ := h₁.pass hpass
    refine ⟨r₂', ?_, h₂⟩
    rw [forwardRest_eq_match, hreceive']
    simp only [hpass']
  | case2 t r _ _ client buffer hreceive t₂ r₂ hpass =>
    cases hf
    obtain ⟨buffer', hreceive', h₁⟩ := h.receiveClient hreceive
    obtain ⟨r₂', hpass', h₂⟩ := h₁.pass hpass
    refine ⟨r₂', ?_, h₂⟩
    obtain ⟨b, -, rfl⟩ := h₂
    rw [forwardRest_eq_match, hreceive']
    simp only [hpass']
  | case3 t r _ _ client buffer hreceive t₂ r₂ hpass ih =>
    obtain ⟨buffer', hreceive', h₁⟩ := h.receiveClient hreceive
    obtain ⟨r₂', hpass', h₂⟩ := h₁.pass hpass
    obtain ⟨r₁', hf', h₃⟩ := ih h₂ hf
    refine ⟨r₁', ?_, h₃⟩
    rw [forwardRest_eq_match, hreceive', ← hf']
    simp only [hpass']
  | case4 t r got client buffer hgot hreceive =>
    cases hf
    obtain ⟨buffer', hreceive', h₁⟩ := h.receiveClient hreceive
    refine ⟨_, ?_, h₁⟩
    rw [forwardRest_eq_match]
    simp only [hreceive']

/-- Alike forwardings `run` with the same `answer`: the same body is forwarded, or both fail with
the same error. -/
theorem Alike.run (h : r.Alike r') {body : RequestBody} {answer : Except ExchangeFailure Nat}
    (hrun : r.run w body = (answer, r₁)) : ∃ r₁', r'.run w body = (answer, r₁') ∧ r₁.Alike r₁' := by
  unfold RequestBodyRelay.run at hrun ⊢
  rw [h.isEmpty_eq]
  split at hrun
  · cases hrun
    exact ⟨r', rfl, h⟩
  rename_i t _
  split at hrun <;> rename_i he
  · rw [if_pos he]
    exact h.forwardRest hrun
  · rw [if_neg he]
    split at hrun
    all_goals
      rename_i hpass
      obtain ⟨r₂', hpass', h₂⟩ := h.pass hpass
      simp only [hpass']
    · cases hrun
      exact ⟨_, rfl, h₂⟩
    · cases hrun
      obtain ⟨b, hb, rfl⟩ := h₂
      exact ⟨_, rfl, b, hb, rfl⟩
    · exact h₂.forwardRest hrun

end RequestBodyRelay

/-! ### Relaying a response -/

namespace ResponseRelay

variable {r r' r₁ : ResponseRelay}

/-- The relayings `r` and `r'` differ in nothing but in what cannot be seen of their buffers. -/
def Alike (r r' : ResponseRelay) : Prop := ∃ b, r.buffer.Alike b ∧ r' = { r with buffer := b }

theorem Alike.parser_eq (h : r.Alike r') : r'.parser = r.parser := by
  obtain ⟨b, -, rfl⟩ := h
  rfl

theorem Alike.data_eq (h : r.Alike r') : r'.buffer.data = r.buffer.data := by
  obtain ⟨b, hb, rfl⟩ := h
  exact hb.data.symm

theorem Alike.isFull_eq (h : r.Alike r') : r'.buffer.isFull = r.buffer.isFull := by
  obtain ⟨b, hb, rfl⟩ := h
  exact hb.isFull_eq.symm

theorem Alike.capacity_eq (h : r.Alike r') : r'.buffer.capacity = r.buffer.capacity := by
  obtain ⟨b, hb, rfl⟩ := h
  exact hb.capacity.symm

theorem Alike.size_eq (h : r.Alike r') : r'.buffer.size = r.buffer.size :=
  congrArg List.length h.data_eq

/-- Alike relayings `pass` the same octets. -/
theorem Alike.pass (h : r.Alike r') {n : Nat} {answer : Except ExchangeFailure Unit}
    (hp : r.pass n = (answer, r₁)) : ∃ r₁', r'.pass n = (answer, r₁') ∧ r₁.Alike r₁' := by
  obtain ⟨b, hb, rfl⟩ := h
  unfold ResponseRelay.pass at hp ⊢
  simp only [← hb.data]
  split at hp <;> cases hp
  · exact ⟨_, rfl, b, hb, rfl⟩
  · exact ⟨_, rfl, _, hb.consume n, rfl⟩

theorem Alike.receive (h : r.Alike r') {backend : Source} {buffer : Buffer} {got : Received}
    (hr : r.buffer.receive r.backend = (got, backend, buffer)) :
    ∃ buffer', r'.buffer.receive r'.backend = (got, backend, buffer') ∧
      Alike { r with backend, buffer } { r' with backend, buffer := buffer' } := by
  obtain ⟨b, hb, rfl⟩ := h
  obtain ⟨b', hr', hb'⟩ := hb.receive hr
  exact ⟨b', hr', b', hb', rfl⟩

theorem Alike.withParser (h : r.Alike r') (parser : ResponseParser) :
    Alike { r with parser } { r' with parser } := by
  obtain ⟨b, hb, rfl⟩ := h
  exact ⟨b, hb, rfl⟩

/-- One step of `readHeads`. -/
theorem readHeads_eq_match (fed : Nat) (r : ResponseRelay) :
    r.readHeads fed = match r.buffer.data.drop fed with
      | [] => (.ok none, r)
      | b :: rest =>
          match r.parser.feed (b :: rest) with
          | (.error e, parser) => (.error (.defect e), { r with parser })
          | (.ok none, parser) => (.ok none, { r with parser })
          | (.ok (some n), parser) =>
              if isInterim parser.status then
                match ({ r with parser }).pass (fed + n) with
                | (.error e, r) => (.error e, r)
                | (.ok (), r') => readHeads 0 { r' with parser := parser.recycle }
              else (.ok (some (fed + n)), { r with parser }) := by
  rw [ResponseRelay.readHeads]
  split
  · rename_i hd
    rw [hd]
  · rename_i hd
    rw [hd]
    simp only
    split <;> rename_i hf <;> simp only [hf]
    split
    · split <;> rename_i hp <;> simp only [hp]
    · rfl

/-- Alike relayings read the same heads in `readHeads`, and relay those of interim responses. -/
theorem Alike.readHeads (h : r.Alike r') {fed : Nat} {answer : Except ExchangeFailure (Option Nat)}
    (hr : r.readHeads fed = (answer, r₁)) :
    ∃ r₁', r'.readHeads fed = (answer, r₁') ∧ r₁.Alike r₁' := by
  fun_induction ResponseRelay.readHeads fed r generalizing r' with
  | case1 fed r hd =>
    cases hr
    refine ⟨r', ?_, h⟩
    rw [readHeads_eq_match, h.data_eq, hd]
  | case2 fed r b rest hd e parser hf | case3 fed r b rest hd parser hf =>
    cases hr
    refine ⟨_, ?_, h.withParser parser⟩
    rw [readHeads_eq_match, h.data_eq, h.parser_eq, hd]
    simp only [hf]
  | case4 fed r b rest hd n parser hf hinterim e r₂ hpass =>
    cases hr
    obtain ⟨r₂', hpass', h₂⟩ := (h.withParser parser).pass hpass
    refine ⟨r₂', ?_, h₂⟩
    rw [readHeads_eq_match, h.data_eq, h.parser_eq, hd]
    simp only [hf, if_pos hinterim, hpass']
  | case5 fed r b rest hd n parser hf hinterim r₂ hpass ih =>
    obtain ⟨r₂', hpass', h₂⟩ := (h.withParser parser).pass hpass
    obtain ⟨r₁', hr', h₁⟩ := ih (h₂.withParser _) hr
    refine ⟨r₁', ?_, h₁⟩
    rw [readHeads_eq_match, h.data_eq, h.parser_eq, hd, ← hr']
    simp only [hf, if_pos hinterim, hpass']
  | case6 fed r b rest hd n parser hf hinterim =>
    cases hr
    refine ⟨_, ?_, h.withParser parser⟩
    rw [readHeads_eq_match, h.data_eq, h.parser_eq, hd]
    simp only [hf, if_neg hinterim]

/-- One step of `awaitHead`. -/
theorem awaitHead_eq_match (fed : Nat) (r : ResponseRelay) :
    r.awaitHead fed = match r.readHeads fed with
      | (.error e, r) => (.error e, r)
      | (.ok (some n), r) => (.ok n, r)
      | (.ok none, r') =>
          if r'.buffer.isFull then (.error (.defect (.headTooLarge r'.buffer.capacity)), r')
          else
            match r'.buffer.receive r'.backend with
            | (.octets (_ :: _), backend, buffer) =>
                awaitHead r'.buffer.size { r' with backend, buffer }
            | (failure, backend, buffer) =>
                (.error (failureOfReceived .backend failure), { r' with backend, buffer }) := by
  rw [ResponseRelay.awaitHead]
  split <;> rename_i hr <;> rw [hr]
  simp only
  split
  · rfl
  split <;> rename_i hreceive <;> simp only [hreceive]

/-- Alike relayings find the final head at the same place, or fail with the same error. -/
theorem Alike.awaitHead (h : r.Alike r') {fed : Nat} {answer : Except ExchangeFailure Nat}
    (hr : r.awaitHead fed = (answer, r₁)) :
    ∃ r₁', r'.awaitHead fed = (answer, r₁') ∧ r₁.Alike r₁' := by
  fun_induction ResponseRelay.awaitHead fed r generalizing r' with
  | case1 fed r e r₂ hread | case2 fed r n r₂ hread =>
    cases hr
    obtain ⟨r₂', hread', h₂⟩ := h.readHeads hread
    refine ⟨r₂', ?_, h₂⟩
    rw [awaitHead_eq_match, hread']
  | case3 fed r r₂ hread hfull =>
    cases hr
    obtain ⟨r₂', hread', h₂⟩ := h.readHeads hread
    refine ⟨r₂', ?_, h₂⟩
    rw [awaitHead_eq_match, hread']
    simp only [h₂.isFull_eq, h₂.capacity_eq, if_pos hfull]
  | case4 fed r r₂ hread hfull b bs backend buffer hreceive ih =>
    obtain ⟨r₂', hread', h₂⟩ := h.readHeads hread
    obtain ⟨buffer', hreceive', h₃⟩ := h₂.receive hreceive
    obtain ⟨r₁', hr', h₁⟩ := ih h₃ hr
    refine ⟨r₁', ?_, h₁⟩
    rw [awaitHead_eq_match, hread', ← hr']
    simp only [h₂.isFull_eq, h₂.size_eq, if_neg hfull, hreceive']
  | case5 fed r r₂ hread hfull got backend buffer hgot hreceive =>
    cases hr
    obtain ⟨r₂', hread', h₂⟩ := h.readHeads hread
    obtain ⟨buffer', hreceive', h₃⟩ := h₂.receive hreceive
    refine ⟨_, ?_, h₃⟩
    rw [awaitHead_eq_match, hread']
    simp only [h₂.isFull_eq, if_neg hfull, hreceive']

/-- Alike relayings relay the same part of the body in `passBody`. -/
theorem Alike.passBody (h : r.Alike r') {head : Nat} {t : BodyTracker}
    {answer : Except ExchangeFailure (Bool × BodyTracker)} (hp : r.passBody head t = (answer, r₁)) :
    ∃ r₁', r'.passBody head t = (answer, r₁') ∧ r₁.Alike r₁' := by
  unfold ResponseRelay.passBody at hp ⊢
  rw [h.data_eq]
  simp only [h.size_eq]
  split at hp
  · cases hp
    exact ⟨r', rfl, h⟩
  · simp only at hp
    split at hp <;> rename_i hpass <;> obtain ⟨r₂', hpass', b, hb, rfl⟩ :=
      h.pass hpass <;> cases hp <;>
      simp only [hpass']
    · exact ⟨_, rfl, b, hb, rfl⟩
    · exact ⟨_, rfl, b, hb, rfl⟩

/-- One step of `relayBody`. -/
theorem relayBody_eq_match (delimited : Bool) (t : BodyTracker) (r : ResponseRelay) :
    r.relayBody delimited t = match r.buffer.receive r.backend with
      | (.octets (_ :: _), backend, buffer) =>
          match ({ r with backend, buffer }).passBody 0 t with
          | (.error e, r) => (.error e, r)
          | (.ok (true, _), r) => (.ok (), r)
          | (.ok (false, t'), r') => relayBody delimited t' r'
      | (.octets [], backend, buffer) =>
          let r := { r with backend, buffer }
          if delimited then (.error (.transport (.closed .backend)), r) else (.ok (), r)
      | (failure, backend, buffer) =>
          (.error (failureOfReceived .backend failure), { r with backend, buffer }) := by
  rw [ResponseRelay.relayBody]
  split <;> rename_i hreceive <;> simp only [hreceive]
  split <;> rename_i hpass <;> simp only [hpass]

/-- Alike relayings have the same `relayBody`. -/
theorem Alike.relayBody (h : r.Alike r') {delimited : Bool} {t : BodyTracker}
    {answer : Except ExchangeFailure Unit} (hr : r.relayBody delimited t = (answer, r₁)) :
    ∃ r₁', r'.relayBody delimited t = (answer, r₁') ∧ r₁.Alike r₁' := by
  fun_induction ResponseRelay.relayBody delimited t r generalizing r' with
  | case1 t r _ _ backend buffer hreceive e r₂ hpass
  | case2 t r _ _ backend buffer hreceive t₂ r₂ hpass =>
    cases hr
    obtain ⟨buffer', hreceive', h₁⟩ := h.receive hreceive
    obtain ⟨r₂', hpass', h₂⟩ := h₁.passBody hpass
    refine ⟨r₂', ?_, h₂⟩
    rw [relayBody_eq_match, hreceive']
    simp only [hpass']
  | case3 t r _ _ backend buffer hreceive t₂ r₂ hpass ih =>
    obtain ⟨buffer', hreceive', h₁⟩ := h.receive hreceive
    obtain ⟨r₂', hpass', h₂⟩ := h₁.passBody hpass
    obtain ⟨r₁', hr', h₃⟩ := ih h₂ hr
    refine ⟨r₁', ?_, h₃⟩
    rw [relayBody_eq_match, hreceive', ← hr']
    simp only [hpass']
  | case4 t r backend buffer hreceive r₂ | case5 t r backend buffer hreceive r₂ =>
    rename_i hdelimited
    obtain ⟨rfl, rfl⟩ := Prod.mk.inj hr
    obtain ⟨buffer', hreceive', h₁⟩ := h.receive hreceive
    refine ⟨_, ?_, h₁⟩
    rw [relayBody_eq_match, hreceive']
    simp only [hdelimited]
    rfl
  | case6 t r got backend buffer hgot hend hreceive =>
    cases hr
    obtain ⟨buffer', hreceive', h₁⟩ := h.receive hreceive
    refine ⟨_, ?_, h₁⟩
    rw [relayBody_eq_match]
    simp only [hreceive']

/-- What `run` does at the end of the body: it flushes the client and reports what was relayed. -/
def finish (framing : Framing) (r : ResponseRelay) :
    Except ExchangeFailure Relayed × ResponseRelay :=
  match r.client.flush with
  | (.error f, client) => (.error (failureOfFault .client f), { r with client })
  | (.ok (), client) =>
      (.ok { framing, body := r.body, total := r.total, excess := !r.buffer.isEmpty },
        { r with client })

theorem Alike.finish (h : r.Alike r') {framing : Framing} {answer : Except ExchangeFailure Relayed}
    (hf : r.finish framing = (answer, r₁)) :
    ∃ r₁', r'.finish framing = (answer, r₁') ∧ r₁.Alike r₁' := by
  obtain ⟨b, hb, rfl⟩ := h
  unfold ResponseRelay.finish at hf ⊢
  simp only [← hb.isEmpty_eq]
  split at hf <;> cases hf <;> exact ⟨_, rfl, b, hb, rfl⟩

theorem run_eq_match (headRequest : Bool) (r : ResponseRelay) :
    r.run headRequest = match r.awaitHead 0 with
      | (.error e, r) => (.error e, r)
      | (.ok head, r) =>
          match ({ r with streaming := true }).passBody head
            (.ofFraming (framingOf r.parser headRequest)) with
          | (.error e, r₁) => (.error e, r₁)
          | (.ok (true, _), r₁) => r₁.finish (framingOf r.parser headRequest)
          | (.ok (false, t), r₁) =>
              match r₁.relayBody (framingOf r.parser headRequest).isDelimited t with
              | (.error e, r₂) => (.error e, r₂)
              | (.ok (), r₂) => r₂.finish (framingOf r.parser headRequest) := rfl

/-- Alike relayings `run` with the same `answer`: the same response is relayed, or both fail with
the same error. -/
theorem Alike.run (h : r.Alike r') {headRequest : Bool} {answer : Except ExchangeFailure Relayed}
    (hr : r.run headRequest = (answer, r₁)) :
    ∃ r₁', r'.run headRequest = (answer, r₁') ∧ r₁.Alike r₁' := by
  rw [run_eq_match] at hr ⊢
  split at hr
  · rename_i hawait
    cases hr
    obtain ⟨r₂', hawait', h₂⟩ := h.awaitHead hawait
    rw [hawait']
    exact ⟨r₂', rfl, h₂⟩
  rename_i head r₂ hawait
  obtain ⟨r₂', hawait', b, hb, rfl⟩ := h.awaitHead hawait
  rw [hawait']
  have hs : Alike { r₂ with streaming := true } { r₂ with buffer := b, streaming := true } :=
    ⟨b, hb, rfl⟩
  simp only
  split at hr <;> rename_i hpass <;> obtain ⟨r₃', hpass', h₃⟩ := hs.passBody hpass <;>
    simp only [hpass']
  · cases hr
    exact ⟨r₃', rfl, h₃⟩
  · exact h₃.finish hr
  · split at hr <;> rename_i hbody <;> obtain ⟨r₄', hbody', h₄⟩ :=
      h₃.relayBody hbody <;> simp only [hbody']
    · cases hr
      exact ⟨r₄', rfl, h₄⟩
    · exact h₄.finish hr

end ResponseRelay

end ReverseProxy.Relay
