import ReverseProxy.Proofs.Message.HeadLoop
import ReverseProxy.Proofs.Relay.AlikeRelays
import ReverseProxy.Proofs.Relay.RequestBodies
import ReverseProxy.Proofs.Relay.ResponseExactness

/-!
# Loops that read until the end

A response is relayed by two loops, one that looks for the final head and one that relays the body,
and the body of a request is forwarded by one.  They are defined by recursion on what is still to
arrive, and so come to an end; here they are taken iteration by iteration (`ResponseRelay.iterate`,
`RequestBodyRelay.iterate`), with a note of every reading (`Intake`).

A reading never asks for octets without room for them, so that it gets none only when the connection
has been closed.  The loop over the heads may go on without reading, with what came after the head
of an interim response.  It has fed that to the parser, or passed it on, before it comes back to the
same place: an octet of the stream that has not been fed is good for two iterations, and one that
has been fed and not passed on for one (`ResponseRelay.Left`).
-/

namespace ReverseProxy

open Message Wire

/-! ### One reading -/

namespace Wire

/-- A reading: the `room` for octets, the `source` still to arrive, and what it `got`. -/
structure Intake where
  room : Nat
  source : Source
  got : Received
deriving DecidableEq, Repr

/-- The reading has room for octets, and gets none only if the `source` is at its end. -/
structure Intake.Sound (i : Intake) : Prop where
  room_pos : 0 < i.room
  got_nil_iff : i.got = .octets [] ↔ i.source = []

/-- The loop returns after at most `n` iterations and `m` readings, each of which is sound. -/
def ReturnsWithin {σ ρ : Type} (f : Loop σ Intake ρ) (start : ρ ⊕ σ) (n m : Nat) (x : ρ) : Prop :=
  ∃ iterations intakes, f.Returns start iterations intakes x ∧ iterations ≤ n ∧ intakes.length ≤ m ∧
    ∀ i ∈ intakes, i.Sound

/-- A reading that gets octets leaves fewer to come. -/
theorem Source.length_octets_receive_lt {s s' : Source} {room : Nat} {b : UInt8} {bs : Bytes}
    (h : s.receive room = (.octets (b :: bs), s')) : s'.octets.length < s.octets.length := by
  have hlength := congrArg List.length (bytes_append_octets_receive h)
  rw [Received.bytes, List.length_append, List.length_cons] at hlength
  omega

namespace Buffer

/-- A reading that gets octets adds to what is in the buffer. -/
theorem size_receive_lt {b b' : Buffer} {s s' : Source} {x : UInt8} {xs : Bytes}
    (h : b.receive s = (.octets (x :: xs), s', b')) : b.size < b'.size := by
  rw [size, size, (data_receive h).2.1, List.length_append, Received.bytes, List.length_cons]
  omega

/-- The reading into the buffer `b`, which makes room first. -/
def intake (b : Buffer) (s : Source) : Intake :=
  { room := b.makeRoom.room, source := s, got := (b.receive s).1 }

/-- The reading from the client `c` into the buffer `b`, of which only the arrivals count. -/
def clientIntake (b : Buffer) (c : Client) : Intake :=
  { room := b.makeRoom.room, source := c.arrivals, got := (b.receiveClient c).1 }

theorem clientIntake_eq (b : Buffer) (c : Client) : b.clientIntake c = b.intake c.arrivals := by
  rcases hclient : b.receiveClient c with ⟨got, c', b'⟩
  rcases hsource : b.receive c.arrivals with ⟨got', s', b''⟩
  have hsame :=
    (data_receive hsource).1.symm.trans (Client.receive_arrivals (data_receiveClient hclient).1)
  rw [clientIntake, intake, hclient, hsource, congrArg Prod.fst hsame]

/-- The connection is steady, the buffer can hold octets, and after at most `m` readings the
connection has come to its end. -/
structure Drains (m : Nat) (b : Buffer) (s : Source) : Prop where
  steady : s.Steady
  capacity_pos : 0 < b.capacity
  octets_lt : s.octets.length < m

variable {m : Nat} {b b' : Buffer} {s s' : Source}

theorem Drains.pos (h : Drains m b s) : 0 < m := Nat.zero_lt_of_lt h.octets_lt

/-- A reading into a buffer that is not full is `Sound`, as long as there is one left. -/
theorem Drains.sound_intake (h : Drains m b s) (hb : ¬b.isFull = true) : (b.intake s).Sound := by
  refine ⟨room_makeRoom_pos hb, fun hgot => ?_, fun hnil => ?_⟩
  · obtain ⟨-, ⟨x, xs, hoctets⟩ | ⟨-, hnil, -⟩⟩ := receive_steady h.steady hb (b := b) (s := s) rfl
    · cases hoctets.symm.trans hgot
    · exact hnil
  · cases hnil
    rfl

/-- A reading that gets octets leaves one reading less to come. -/
theorem Drains.receive {x : UInt8} {xs : Bytes} (h : Drains (m + 1) b s) (hb : ¬b.isFull = true)
    (hs : s.receive b.makeRoom.room = (.octets (x :: xs), s'))
    (hcapacity : b'.capacity = b.capacity) :
    Drains m b' s' := by
  have hless := Source.length_octets_receive_lt hs
  have hlt := h.octets_lt
  exact ⟨(h.steady.receive_cases (room_makeRoom_pos hb) hs).1, hcapacity ▸ h.capacity_pos, by omega⟩

end Buffer

end Wire

namespace Relay

/-! ### Relaying a response -/

namespace ResponseRelay

/-- Where the relaying of a response stands between two iterations. -/
inductive Stage where
  /-- The parser has been fed the first `fed` octets of the buffer, and needs more. -/
  | head (fed : Nat) (r : ResponseRelay)
  /-- The body goes on, with the tracker `t`, after all that was in the buffer. -/
  | body (framing : Framing) (t : BodyTracker) (r : ResponseRelay)

/-- What the relaying of a response comes to, and the relay then. -/
abbrev Relaying := Except ExchangeFailure Relayed × ResponseRelay

/-- The first `head` octets of the buffer are the head of the final response, and are relayed with
what there is of the body. -/
def enterBody (headRequest : Bool) (head : Nat) (r : ResponseRelay) : Relaying ⊕ Stage :=
  let framing := framingOf r.parser headRequest
  match ({ r with streaming := true }).passBody head (.ofFraming framing) with
  | (.error e, r) => .inl (.error e, r)
  | (.ok (true, _), r) => .inl (r.finish framing)
  | (.ok (false, t), r) => .inr (.body framing t r)

/-- The parser is fed what comes after the first `fed` octets of the buffer. -/
def feedHead (headRequest : Bool) (fed : Nat) (r : ResponseRelay) : Relaying ⊕ Stage :=
  match r.parser.feed (r.buffer.data.drop fed) with
  | (.error e, parser) => .inl (.error (.defect e), { r with parser })
  | (.ok none, parser) => .inr (.head r.buffer.size { r with parser })
  | (.ok (some n), parser) =>
      if isInterim parser.status then
        match ({ r with parser }).pass (fed + n) with
        | (.error e, r) => .inl (.error e, r)
        | (.ok (), r) => .inr (.head 0 { r with parser := parser.recycle })
      else enterBody headRequest (fed + n) { r with parser }

/-- One iteration, and its reading if there is one.  In a head nothing is read as long as the buffer
has octets after the first `fed`. -/
def iterate (headRequest : Bool) : Loop Stage Intake Relaying
  | .head fed r =>
      if fed < r.buffer.size then ([], feedHead headRequest fed r)
      else if r.buffer.isFull then
        ([], .inl (.error (.defect (.headTooLarge r.buffer.capacity)), r))
      else
        ([r.buffer.intake r.backend],
          match r.buffer.receive r.backend with
          | (.octets (_ :: _), backend, buffer) =>
              feedHead headRequest fed { r with backend, buffer }
          | (failure, backend, buffer) =>
              .inl (.error (failureOfReceived .backend failure), { r with backend, buffer }))
  | .body framing t r =>
      ([r.buffer.intake r.backend],
        match r.buffer.receive r.backend with
        | (.octets (_ :: _), backend, buffer) =>
            match ({ r with backend, buffer }).passBody 0 t with
            | (.error e, r) => .inl (.error e, r)
            | (.ok (true, _), r) => .inl (r.finish framing)
            | (.ok (false, t), r) => .inr (.body framing t r)
        | (.octets [], backend, buffer) =>
            let r := { r with backend, buffer }
            .inl (if framing.isDelimited then (.error (.transport (.closed .backend)), r)
              else r.finish framing)
        | (failure, backend, buffer) =>
            .inl (.error (failureOfReceived .backend failure), { r with backend, buffer }))

variable {headRequest : Bool} {fed head : Nat} {framing : Framing} {t t' : BodyTracker}
    {r r' : ResponseRelay}
  {x : Relaying}

/-! #### What the loops come to -/

theorem iterate_head_of_lt (h : fed < r.buffer.size) :
    iterate headRequest (.head fed r) = ([], feedHead headRequest fed r) := if_pos h

theorem iterate_head_of_isFull (hf : r.buffer.isFull = true) :
    iterate headRequest (.head r.buffer.size r) =
      ([], .inl (.error (.defect (.headTooLarge r.buffer.capacity)), r)) := by
  rw [iterate, if_neg (Nat.lt_irrefl _), if_pos hf]

theorem iterate_head_of_receive (hf : ¬r.buffer.isFull = true) :
    iterate headRequest (.head r.buffer.size r) = ([r.buffer.intake r.backend],
      match r.buffer.receive r.backend with
      | (.octets (_ :: _), backend, buffer) =>
          feedHead headRequest r.buffer.size { r with backend, buffer }
      | (failure, backend, buffer) =>
          .inl (.error (failureOfReceived .backend failure), { r with backend, buffer })) := by
  rw [iterate, if_neg (Nat.lt_irrefl _), if_neg hf]

/-- Where the loop stands when `readHeads` has come to an answer. -/
def afterHeads (headRequest : Bool) : Except ExchangeFailure (Option Nat) × ResponseRelay →
    Relaying ⊕ Stage
  | (.error e, r) => .inl (.error e, r)
  | (.ok (some n), r) => enterBody headRequest n r
  | (.ok none, r) => .inr (.head r.buffer.size r)

/-- Where the loop stands when `awaitHead` has come to an answer. -/
def afterAwait (headRequest : Bool) : Except ExchangeFailure Nat × ResponseRelay → Relaying ⊕ Stage
  | (.error e, r) => .inl (.error e, r)
  | (.ok n, r) => enterBody headRequest n r

/-- Octets of the buffer after the first `fed` are fed next. -/
theorem comesTo_head (h : fed < r.buffer.size) :
    (iterate headRequest).ComesTo (.inr (.head fed r)) x ↔
      (iterate headRequest).ComesTo (feedHead headRequest fed r) x := by
  rw [Loop.comesTo_inr, iterate_head_of_lt h]

/-- The loop over the heads does what `readHeads` does until it has to read. -/
theorem comesTo_readHeads (hfed : fed ≤ r.buffer.size)
    (h : (iterate headRequest).ComesTo (afterHeads headRequest (r.readHeads fed)) x) :
    (iterate headRequest).ComesTo (.inr (.head fed r)) x := by
  have hlt : ∀ {fed : Nat} {r : ResponseRelay} {b : UInt8} {rest : Bytes},
    r.buffer.data.drop fed = b :: rest →
      fed < r.buffer.size := by
    intro fed r b rest hd
    have hlength := congrArg List.length hd
    rw [List.length_drop, List.length_cons] at hlength
    rw [Buffer.size]
    omega
  fun_induction readHeads fed r with
  | case1 fed r hd =>
    have hsize : r.buffer.size = fed := Nat.le_antisymm (List.drop_eq_nil_iff.1 hd) hfed
    rwa [afterHeads, hsize] at h
  | case2 fed r b rest hd e parser hf | case3 fed r b rest hd parser hf =>
    rw [comesTo_head (hlt hd), feedHead, hd, hf]
    exact h
  | case4 fed r b rest hd n parser hf hinterim e r₂ hpass =>
    rw [comesTo_head (hlt hd), feedHead, hd, hf]
    simp only [if_pos hinterim, hpass]
    exact h
  | case5 fed r b rest hd n parser hf hinterim r₂ hpass ih =>
    rw [comesTo_head (hlt hd), feedHead, hd, hf]
    simp only [if_pos hinterim, hpass]
    exact ih (Nat.zero_le _) h
  | case6 fed r b rest hd n parser hf hinterim =>
    rw [comesTo_head (hlt hd), feedHead, hd, hf]
    simp only [if_neg hinterim]
    exact h

/-- The loop over the heads does what `awaitHead` does. -/
theorem comesTo_awaitHead (hfed : fed ≤ r.buffer.size)
    (h : (iterate headRequest).ComesTo (afterAwait headRequest (r.awaitHead fed)) x) :
    (iterate headRequest).ComesTo (.inr (.head fed r)) x := by
  fun_induction awaitHead fed r with
  | case1 fed r e r₂ hread | case2 fed r n r₂ hread =>
    apply comesTo_readHeads hfed
    rw [hread]
    exact h
  | case3 fed r r₂ hread hfull =>
    apply comesTo_readHeads hfed
    rw [hread, afterHeads, Loop.comesTo_inr, iterate_head_of_isFull hfull]
    exact h
  | case4 fed r r₂ hread hfull b bs backend buffer hreceive ih =>
    apply comesTo_readHeads hfed
    rw [hread, afterHeads, Loop.comesTo_inr, iterate_head_of_receive hfull, hreceive]
    have hlt := Buffer.size_receive_lt hreceive
    exact (comesTo_head (r := { r₂ with backend, buffer }) hlt).1 (ih (Nat.le_of_lt hlt) h)
  | case5 fed r r₂ hread hfull got backend buffer hgot hreceive =>
    apply comesTo_readHeads hfed
    rw [hread, afterHeads, Loop.comesTo_inr, iterate_head_of_receive hfull, hreceive]
    simp only [afterAwait] at h
    simpa [hgot] using h

/-- What the relaying of a response comes to when `relayBody` has come to an answer. -/
def afterBody (framing : Framing) : Except ExchangeFailure Unit × ResponseRelay → Relaying
  | (.error e, r) => (.error e, r)
  | (.ok (), r) => r.finish framing

/-- The loop over the body does what `relayBody` does. -/
theorem comesTo_relayBody (headRequest : Bool) (framing : Framing) (t : BodyTracker)
    (r : ResponseRelay) :
    (iterate headRequest).ComesTo (.inr (.body framing t r))
      (afterBody framing (r.relayBody framing.isDelimited t)) := by
  generalize hd : framing.isDelimited = delimited
  fun_induction relayBody delimited t r with
  | case1 t r b bs backend buffer hreceive e r' hpass
  | case2 t r b bs backend buffer hreceive t' r' hpass =>
    rw [Loop.comesTo_inr, iterate, hreceive]
    simp only [hpass]
    exact Loop.comesTo_inl _
  | case3 t r b bs backend buffer hreceive t' r' hpass ih =>
    rw [Loop.comesTo_inr, iterate, hreceive]
    simp only [hpass]
    exact ih
  | case4 t r backend buffer hreceive r' hdelimited
  | case5 t r backend buffer hreceive r' hdelimited =>
    rw [Loop.comesTo_inr, iterate, hreceive]
    simp only [hd, hdelimited, if_true]
    exact Loop.comesTo_inl _
  | case6 t r got backend buffer hgot hend hreceive =>
    rw [Loop.comesTo_inr, iterate]
    simp only [hreceive]
    exact Loop.comesTo_inl _

/-- The loops come to what `run` comes to. -/
theorem comesTo_run (headRequest : Bool) (r : ResponseRelay) :
    (iterate headRequest).ComesTo (.inr (.head 0 r)) (r.run headRequest) := by
  apply comesTo_awaitHead (Nat.zero_le _)
  rw [run_eq_match]
  rcases r.awaitHead 0 with ⟨e | head, r₁⟩
  · exact Loop.comesTo_inl _
  simp only [afterAwait, enterBody]
  rcases hpass : ({ r₁ with streaming := true }).passBody head
    (.ofFraming (framingOf r₁.parser headRequest)) with
    ⟨e | ⟨_ | _, t⟩, r₂⟩ <;> simp only [hpass]
  · exact Loop.comesTo_inl _
  · have hbody := comesTo_relayBody headRequest (framingOf r₁.parser headRequest) t r₂
    rcases hrest : r₂.relayBody (framingOf r₁.parser headRequest).isDelimited t with ⟨e | _, r₃⟩ <;>
      rwa [hrest] at hbody
  · exact Loop.comesTo_inl _

/-! #### How long the loops go on -/

/-- A `passBody` after which the body goes on leaves nothing in the buffer. -/
theorem passBody_continues (h : r.passBody head t = (.ok (false, t'), r')) :
    r'.backend = r.backend ∧ r'.buffer.capacity = r.buffer.capacity ∧ r'.buffer.data = [] := by
  have hbackend := backend_passBody head t r
  rw [h] at hbackend
  rw [passBody] at h
  split at h
  · cases h
  · rename_i stop t₁ hadvance
    simp only at h
    split at h
    · cases h
    · rename_i r₁ hpass
      obtain ⟨hanswer, rfl⟩ := Prod.mk.inj h
      cases stop with
      | some n => cases hanswer
      | none =>
        have hbuffer : r₁.buffer = r.buffer.consume r.buffer.size := buffer_pass hpass
        refine ⟨hbackend, ?_, ?_⟩
        · rw [hbuffer, Buffer.capacity_consume]
        · rw [hbuffer, Buffer.data_consume_size]

/-- In a head of which `fed` octets have been fed, at most `n` iterations and `m` readings are
left. -/
structure InHead (n m fed : Nat) (r : ResponseRelay) : Prop where
  drains : r.buffer.Drains m r.backend
  fed_le : fed ≤ r.buffer.size
  leading : fed = 0 → r.parser.place = .leading
  iterations : 2 * r.stream.length < n + fed

/-- In a body of which nothing is in the buffer, at most `n` iterations and `m` readings are
left. -/
structure InBody (n m : Nat) (r : ResponseRelay) : Prop where
  drains : r.buffer.Drains m r.backend
  data_eq_nil : r.buffer.data = []
  iterations : 2 * r.backend.octets.length < n

/-- At most `n` iterations and `m` readings are left. -/
def Left (n m : Nat) : Stage → Prop
  | .head fed r => InHead n m fed r
  | .body _ _ r => InBody n m r

variable {n m : Nat} {next : Stage}

theorem length_stream (r : ResponseRelay) :
    r.stream.length = r.buffer.size + r.backend.octets.length := by
  rw [stream, List.length_append, Buffer.size]

/-- After a `passBody` after which the body goes on, the loop is `InBody`. -/
theorem inBody_passBody (hr : r.buffer.Drains m r.backend) (hn : 2 * r.backend.octets.length < n)
    (h : r.passBody head t = (.ok (false, t'), r')) : InBody n m r' := by
  obtain ⟨hbackend, hcapacity, hdata⟩ := passBody_continues h
  exact { drains := ⟨hbackend ▸ hr.steady, hcapacity ▸ hr.capacity_pos, hbackend ▸ hr.octets_lt⟩
          data_eq_nil := hdata, iterations := hbackend ▸ hn }

theorem left_enterBody (hr : r.buffer.Drains m r.backend) (hn : 2 * r.backend.octets.length < n)
    (h : enterBody headRequest head r = .inr next) : Left n m next := by
  simp only [enterBody] at h
  split at h <;> cases h
  rename_i t r₁ hpass
  exact inBody_passBody (r := { r with streaming := true }) hr hn hpass

/-- After a `pass` of the head of an interim response a new head begins, and at least one octet has
gone. -/
theorem inHead_pass {k : Nat} {parser : ResponseParser} (hr : r.buffer.Drains m r.backend)
    (hlt : fed < r.buffer.size) (hn : 2 * r.stream.length ≤ n + fed) (hk : fed ≤ k) (hpos : 0 < k)
    (h : r.pass k = (.ok (), r')) :
    InHead n m 0 { r' with parser := parser.recycle } := by
  have hbackend : r'.backend = r.backend := by
    have hbackend := backend_pass k r
    rwa [h] at hbackend
  have hbuffer : r'.buffer = r.buffer.consume k := buffer_pass h
  rw [length_stream] at hn
  refine ⟨⟨hbackend ▸ hr.steady, ?_, hbackend ▸ hr.octets_lt⟩, Nat.zero_le _, fun _ => ?_, ?_⟩
  · simp only [hbuffer, Buffer.capacity_consume]
    exact hr.capacity_pos
  · exact ResponseParser.place_recycle _
  · rw [length_stream]
    simp only [hbuffer, hbackend, Buffer.size_consume]
    omega

/-- A `feedHead` takes an iteration, and the octets have been fed or are gone then. -/
theorem left_feedHead (hr : r.buffer.Drains m r.backend) (hlt : fed < r.buffer.size)
    (hleading : fed = 0 → r.parser.place = .leading) (hn : 2 * r.stream.length ≤ n + fed)
    (h : feedHead headRequest fed r = .inr next) : Left n m next := by
  have hlength := length_stream r
  simp only [feedHead] at h
  split at h
  · cases h
  · rename_i parser hfeed
    cases h
    refine ⟨hr, Nat.le_refl _, fun h₀ => absurd h₀ (Nat.ne_of_gt (Nat.zero_lt_of_lt hlt)), ?_⟩
    rw [length_stream]
    simp only
    omega
  · rename_i k parser hfeed
    split at h
    · split at h
      · cases h
      · rename_i r₁ hpass
        cases h
        -- a head that has just begun is not complete without another octet
        have hpos : 0 < fed + k := by
          by_cases hfed : fed = 0
          · exact Nat.add_pos_right _ (ResponseParser.feed_leading_pos (hleading hfed) hfeed)
          · omega
        exact inHead_pass (r := { r with parser }) hr hlt hn (Nat.le_add_right _ _) hpos hpass
    · refine left_enterBody (r := { r with parser }) hr ?_ h
      simp only
      omega

/-- In a head, an iteration feeds what is in the buffer or makes one sound reading. -/
theorem left_iterate_head (headRequest : Bool) (hs : InHead (n + 1) (m + 1) fed r) :
    ∃ m', (iterate headRequest (.head fed r)).1.length + m' ≤ m + 1 ∧
      (∀ i ∈ (iterate headRequest (.head fed r)).1, i.Sound) ∧
      ∀ s', (iterate headRequest (.head fed r)).2 = .inr s' → Left n m' s' := by
  obtain ⟨hdrains, hfed, hleading, hn⟩ := hs
  by_cases hlt : fed < r.buffer.size
  · rw [iterate_head_of_lt hlt]
    exact ⟨m + 1, by simp, by simp, fun s' h => left_feedHead hdrains hlt hleading (by omega) h⟩
  obtain rfl : fed = r.buffer.size := Nat.le_antisymm hfed (Nat.le_of_not_lt hlt)
  by_cases hfull : r.buffer.isFull = true
  · rw [iterate_head_of_isFull hfull]
    exact ⟨m + 1, by simp, by simp, fun _ h => absurd h Sum.inl_ne_inr⟩
  rw [iterate_head_of_receive hfull]
  refine ⟨m, by simp [Nat.add_comm], by simpa using hdrains.sound_intake hfull, fun s' h => ?_⟩
  rcases hreceive : r.buffer.receive r.backend with ⟨got, backend, buffer⟩
  rw [hreceive] at h
  obtain ⟨hsource, -, hcapacity⟩ := Buffer.data_receive hreceive
  have hstream : buffer.data ++ backend.octets = r.stream :=
    Buffer.data_append_octets_receive hreceive
  obtain ⟨-, ⟨b, bs, rfl⟩ | ⟨rfl, -⟩⟩ := Buffer.receive_steady hdrains.steady hfull hreceive
  · refine left_feedHead (r := { r with backend, buffer }) (hdrains.receive hfull hsource hcapacity)
      (Buffer.size_receive_lt hreceive) hleading ?_ h
    rw [stream, hstream]
    omega
  · cases h

/-- In a body, an iteration makes one sound reading, and relays what it gets. -/
theorem left_iterate_body (headRequest : Bool) (framing : Framing) (t : BodyTracker)
    (hs : InBody (n + 1) (m + 1) r) :
    (r.buffer.intake r.backend).Sound ∧
      ∀ s', (iterate headRequest (.body framing t r)).2 = .inr s' → Left n m s' := by
  obtain ⟨hdrains, hdata, hn⟩ := hs
  have hfull := Buffer.not_isFull_of_data_eq_nil hdata hdrains.capacity_pos
  refine ⟨hdrains.sound_intake hfull, fun s' h => ?_⟩
  rcases hreceive : r.buffer.receive r.backend with ⟨got, backend, buffer⟩
  rw [iterate, hreceive] at h
  obtain ⟨hsource, -, hcapacity⟩ := Buffer.data_receive hreceive
  obtain ⟨-, ⟨b, bs, rfl⟩ | ⟨rfl, -⟩⟩ := Buffer.receive_steady hdrains.steady hfull hreceive
  · have hless := Source.length_octets_receive_lt hsource
    simp only at h
    split at h <;> cases h
    rename_i t₁ r₁ hpass
    refine inBody_passBody (r := { r with backend, buffer })
      (hdrains.receive hfull hsource hcapacity) ?_ hpass
    simp only
    omega
  · cases h

/-- The iterations of a relay read once at most, and leave fewer iterations and readings each
time. -/
theorem spends_iterate (headRequest : Bool) : (iterate headRequest).Spends Left Intake.Sound := by
  intro n m s hs
  cases s with
  | head fed r =>
    have hfed := hs.fed_le
    have hn := hs.iterations
    rw [length_stream] at hn
    obtain ⟨n, rfl⟩ := Nat.exists_eq_add_one.2 (show 0 < n by omega)
    obtain ⟨m, rfl⟩ := Nat.exists_eq_add_one.2 hs.drains.pos
    obtain ⟨m', hm', hleft⟩ := left_iterate_head headRequest hs
    exact ⟨n, m', Nat.le_refl _, hm', hleft⟩
  | body framing t r =>
    obtain ⟨n, rfl⟩ := Nat.exists_eq_add_one.2 (Nat.zero_lt_of_lt hs.iterations)
    obtain ⟨m, rfl⟩ := Nat.exists_eq_add_one.2 hs.drains.pos
    obtain ⟨hsound, hleft⟩ := left_iterate_body headRequest framing t hs
    refine ⟨n, m, Nat.le_refl _, ?_, ?_, hleft⟩
    · exact Nat.le_of_eq (Nat.add_comm 1 m)
    · rw [iterate]
      exact List.forall_mem_singleton.2 hsound

/-- A relay with an empty buffer and a new head returns with at most one reading more than the
backend sends octets, and at most two iterations for each, and one. -/
theorem returns_run (headRequest : Bool) (hsteady : r.backend.Steady) (hdata : r.buffer.data = [])
    (hcapacity : 0 < r.buffer.capacity) (hleading : r.parser.place = .leading) :
    ReturnsWithin (iterate headRequest) (.inr (.head 0 r)) (2 * r.backend.octets.length + 1)
      (r.backend.octets.length + 1) (r.run headRequest) := by
  obtain ⟨iterations, intakes, hreturns⟩ := comesTo_run headRequest r
  have hn : 2 * r.stream.length < 2 * r.backend.octets.length + 1 + 0 := by
    rw [stream, hdata, List.nil_append]
    omega
  have hs : Left (2 * r.backend.octets.length + 1) (r.backend.octets.length + 1) (.head 0 r) :=
    { drains := ⟨hsteady, hcapacity, Nat.lt_succ_self _⟩, fed_le := Nat.zero_le _,
      leading := fun _ => hleading,
      iterations := hn }
  exact ⟨iterations, intakes, hreturns, hreturns.within (spends_iterate headRequest) hs⟩

end ResponseRelay

/-! ### Forwarding the body of a request -/

namespace RequestBodyRelay

/-- What the forwarding of a body comes to, and the relay then. -/
abbrev Forwarding (τ : Type) := Except ExchangeFailure Nat × RequestBodyRelay τ

variable {τ : Type}

/-- What is in the buffer is forwarded, as far as it belongs to the body. -/
def forward (w : Writer τ) (t : BodyTracker) (r : RequestBodyRelay τ) :
    Forwarding τ ⊕ BodyTracker × RequestBodyRelay τ :=
  match r.pass w t with
  | (.error e, r) => .inl (.error e, r)
  | (.ok (true, _), r) => .inl (.ok r.sent, r)
  | (.ok (false, t), r) => .inr (t, r)

/-- One iteration, and its reading if there is one.  Nothing is read as long as there are octets in
the buffer. -/
def iterate (w : Writer τ) : Loop (BodyTracker × RequestBodyRelay τ) Intake (Forwarding τ) :=
  fun (t, r) =>
  if r.buffer.isEmpty then
    ([r.buffer.clientIntake r.client],
      match r.buffer.receiveClient r.client with
      | (.octets (_ :: _), client, buffer) => forward w t { r with client, buffer }
      | (failure, client, buffer) =>
          .inl (.error (failureOfReceived .client failure), { r with client, buffer }))
  else ([], forward w t r)

/-- The loop over a body, which is not begun if there is none. -/
def forwarding (body : RequestBody) (r : RequestBodyRelay τ) :
    Forwarding τ ⊕ BodyTracker × RequestBodyRelay τ :=
  match BodyTracker.ofRequestBody? body with
  | none => .inl (.ok 0, r)
  | some t => .inr (t, r)

variable {w : Writer τ} {t t' : BodyTracker} {r r' : RequestBodyRelay τ}

/-! #### What the loop comes to -/

/-- A `pass` after which the body goes on leaves nothing in the buffer. -/
theorem pass_continues (h : r.pass w t = (.ok (false, t'), r')) :
    r'.client = r.client ∧ r'.buffer.capacity = r.buffer.capacity ∧ r'.buffer.data = [] := by
  have hclient := client_pass w t r
  rw [h] at hclient
  rw [pass] at h
  split at h
  · cases h
  · rename_i stop t₁ hadvance
    simp only at h
    split at h
    · cases h
    · obtain ⟨hanswer, rfl⟩ := Prod.mk.inj h
      cases stop with
      | some n => cases hanswer
      | none => exact ⟨hclient, Buffer.capacity_consume _ _, Buffer.data_consume_size _⟩

theorem iterate_of_isEmpty (h : r.buffer.isEmpty = true) :
    iterate w (t, r) = ([r.buffer.clientIntake r.client],
      match r.buffer.receiveClient r.client with
      | (.octets (_ :: _), client, buffer) => forward w t { r with client, buffer }
      | (failure, client, buffer) =>
          .inl (.error (failureOfReceived .client failure), { r with client, buffer })) :=
  if_pos h

theorem iterate_of_not_isEmpty (h : ¬r.buffer.isEmpty = true) :
    iterate w (t, r) = ([], forward w t r) := if_neg h

/-- The loop with an empty buffer does what `forwardRest` does. -/
theorem comesTo_forwardRest (hdata : r.buffer.data = []) :
    (iterate w).ComesTo (.inr (t, r)) (r.forwardRest w t) := by
  fun_induction forwardRest w t r with
  | case1 t r b bs client buffer hreceive e r' hpass
  | case2 t r b bs client buffer hreceive t' r' hpass =>
    rw [Loop.comesTo_inr, iterate_of_isEmpty (List.isEmpty_iff.2 hdata), hreceive]
    simp only [forward, hpass]
    exact Loop.comesTo_inl _
  | case3 t r b bs client buffer hreceive t' r' hpass ih =>
    rw [Loop.comesTo_inr, iterate_of_isEmpty (List.isEmpty_iff.2 hdata), hreceive]
    simp only [forward, hpass]
    exact ih (pass_continues hpass).2.2
  | case4 t r got client buffer hgot hreceive =>
    rw [Loop.comesTo_inr, iterate_of_isEmpty (List.isEmpty_iff.2 hdata)]
    simp only [hreceive]
    exact Loop.comesTo_inl _

/-- The loop comes to what `run` comes to. -/
theorem comesTo_run (w : Writer τ) (body : RequestBody) (r : RequestBodyRelay τ) :
    (iterate w).ComesTo (forwarding body r) (r.run w body) := by
  rw [run, forwarding]
  cases BodyTracker.ofRequestBody? body with
  | none => exact Loop.comesTo_inl _
  | some t =>
  simp only
  by_cases hempty : r.buffer.isEmpty = true
  · rw [if_pos hempty]
    exact comesTo_forwardRest (List.isEmpty_iff.1 hempty)
  · rw [if_neg hempty, Loop.comesTo_inr, iterate_of_not_isEmpty hempty, forward]
    rcases hpass : r.pass w t with ⟨e | ⟨_ | _, t₁⟩, r₁⟩
    · exact Loop.comesTo_inl _
    · exact comesTo_forwardRest (pass_continues hpass).2.2
    · exact Loop.comesTo_inl _

/-! #### How long the loop goes on -/

/-- At most `n` iterations and `m` readings are left. -/
structure Left (n m : Nat) (s : BodyTracker × RequestBodyRelay τ) : Prop where
  drains : s.2.buffer.Drains m s.2.client.arrivals
  iterations : s.2.stream.length < n

variable {n m : Nat} {next : BodyTracker × RequestBodyRelay τ}

/-- After a `forward` after which the body goes on, the loop is `Left` one iteration less. -/
theorem left_forward (hr : r.buffer.Drains m r.client.arrivals) (hn : r.client.octets.length < n)
    (h : forward w t r = .inr next) : Left n m next := by
  rw [forward] at h
  split at h <;> cases h
  rename_i t₁ r₁ hpass
  obtain ⟨hclient, hcapacity, hdata⟩ := pass_continues hpass
  refine ⟨⟨hclient ▸ hr.steady, hcapacity ▸ hr.capacity_pos, hclient ▸ hr.octets_lt⟩, ?_⟩
  rwa [stream, hdata, hclient]

/-- With an empty buffer, an iteration makes one sound reading, and forwards what it gets. -/
theorem left_iterate_empty (w : Writer τ) (t : BodyTracker) (hempty : r.buffer.isEmpty = true)
    (hdrains : r.buffer.Drains (m + 1) r.client.arrivals) (hn : r.client.octets.length < n + 1) :
    (r.buffer.clientIntake r.client).Sound ∧ ∀ s', (iterate w (t, r)).2 = .inr s' →
    Left n m s' := by
  have hfull := Buffer.not_isFull_of_data_eq_nil (List.isEmpty_iff.1 hempty) hdrains.capacity_pos
  refine ⟨Buffer.clientIntake_eq _ _ ▸ hdrains.sound_intake hfull, fun s' h => ?_⟩
  rcases hreceive : r.buffer.receiveClient r.client with ⟨got, client, buffer⟩
  rw [iterate_of_isEmpty hempty, hreceive] at h
  obtain ⟨hclient, -, hcapacity⟩ := Buffer.data_receiveClient hreceive
  have hsource := Client.receive_arrivals hclient
  obtain ⟨-, ⟨b, bs, rfl⟩ | ⟨rfl, -⟩⟩ :=
    hdrains.steady.receive_cases (Buffer.room_makeRoom_pos hfull) hsource
  · have hless := Source.length_octets_receive_lt hsource
    rw [Client.octets_arrivals, Client.octets_arrivals] at hless
    refine left_forward (r := { r with client, buffer })
      (hdrains.receive hfull hsource hcapacity) ?_ h
    simp only
    omega
  · cases h

/-- The iterations of a forwarding read once at most, and leave fewer iterations and readings each
time. -/
theorem spends_iterate (w : Writer τ) : (iterate w).Spends Left Intake.Sound := by
  rintro n m ⟨t, r⟩ ⟨hdrains, hn⟩
  obtain ⟨n, rfl⟩ := Nat.exists_eq_add_one.2 (Nat.zero_lt_of_lt hn)
  obtain ⟨m, rfl⟩ := Nat.exists_eq_add_one.2 hdrains.pos
  have hstream : r.buffer.data.length + r.client.octets.length < n + 1 :=
    by rwa [← List.length_append]
  by_cases hempty : r.buffer.isEmpty = true
  · obtain ⟨hsound, hleft⟩ := left_iterate_empty (n := n) w t hempty hdrains (by omega)
    rw [iterate_of_isEmpty hempty] at hleft ⊢
    exact ⟨n, m, Nat.le_refl _, Nat.le_of_eq (Nat.add_comm 1 m),
      List.forall_mem_singleton.2 hsound, hleft⟩
  · have hpos : 0 < r.buffer.data.length := List.length_pos_iff.2 fun hdata =>
      hempty (List.isEmpty_iff.2 hdata)
    rw [iterate_of_not_isEmpty hempty]
    exact ⟨n, m + 1, Nat.le_refl _, Nat.le_of_eq (Nat.zero_add _), List.forall_mem_nil _,
      fun s' h => left_forward (r := r) hdrains (by omega) h⟩

/-- The forwarding of a body returns with at most one reading more than the client has octets to
send, and as many iterations as the stream has, and one. -/
theorem returns_run (w : Writer τ) (body : RequestBody) (hsteady : r.client.arrivals.Steady)
    (hcapacity : 0 < r.buffer.capacity) :
    ReturnsWithin (iterate w) (forwarding body r) (r.stream.length + 1) (r.client.octets.length + 1)
      (r.run w body) := by
  obtain ⟨iterations, intakes, hreturns⟩ := comesTo_run w body r
  refine ⟨iterations, intakes, hreturns, ?_⟩
  generalize r.run w body = x at hreturns
  rw [forwarding] at hreturns
  split at hreturns
  · cases hreturns
    exact ⟨Nat.zero_le _, Nat.zero_le _, List.forall_mem_nil _⟩
  · refine hreturns.within (spends_iterate w) ⟨⟨hsteady, hcapacity, ?_⟩, Nat.lt_succ_self _⟩
    rw [Client.octets_arrivals]
    exact Nat.lt_succ_self _

end RequestBodyRelay

/-! ### The loops together -/

/-- The loops of the proxy return.  Feeding `chunk` to the parser of a response dispatches on each
octet at most three times.  If nothing but octets arrives until the connection is closed, the relay
of a response makes at most one reading more than the backend sends octets, and so does the
forwarding of a body with those of the client; each reading has room for octets, however they are
cut and however little the buffer can hold.  The loops come to what `feed` and `run` come to. -/
theorem loops_return :
    (∀ (p : ResponseParser) (chunk : Bytes), ∃ numbers,
      ResponseParser.dispatch.Returns (p.feeding chunk) numbers.length numbers (p.feed chunk) ∧
        numbers.Sublist ((List.range chunk.length).flatMap (List.replicate 3)) ∧
        numbers.length ≤ 3 * chunk.length) ∧
    (∀ (headRequest : Bool) (r : ResponseRelay), r.backend.Steady → r.buffer.data = [] →
      0 < r.buffer.capacity → r.parser.place = .leading →
      ReturnsWithin (ResponseRelay.iterate headRequest) (.inr (.head 0 r))
        (2 * r.backend.octets.length + 1) (r.backend.octets.length + 1) (r.run headRequest)) ∧
    (∀ (τ : Type) (w : Writer τ) (body : RequestBody) (r : RequestBodyRelay τ),
      r.client.arrivals.Steady → 0 < r.buffer.capacity →
      ReturnsWithin (RequestBodyRelay.iterate w) (RequestBodyRelay.forwarding body r)
        (r.stream.length + 1) (r.client.octets.length + 1) (r.run w body)) :=
  ⟨ResponseParser.returns_feed,
    fun headRequest _ hsteady hdata hcapacity hleading =>
      ResponseRelay.returns_run headRequest hsteady hdata hcapacity hleading,
    fun _ w body _ hsteady hcapacity => RequestBodyRelay.returns_run w body hsteady hcapacity⟩

/-- An interim response that arrives in one piece with the final one, and a body that arrives in
three pieces, the first of them with the head and the last with the next request. -/
theorem loops_return_pieces :
    let response :=
      ResponseRelay.ofPieces 64 [Utf8.encode "HTTP/1.1 100 \n\n" ++ ResponseRelay.noContent]
    let request := RequestBodyRelay.ofPieces (RequestBodyRelay.pipelined.take 4)
      [(RequestBodyRelay.pipelined.drop 4).take 9, RequestBodyRelay.pipelined.drop 13] {}
    (∃ numbers,
      ResponseParser.dispatch.Returns ((ResponseParser.new 64).feeding ResponseRelay.noContent)
        numbers.length numbers ((ResponseParser.new 64).feed ResponseRelay.noContent) ∧
      numbers.length ≤ 48) ∧
    ReturnsWithin (ResponseRelay.iterate false) (.inr (.head 0 response)) 63 32
      (response.run false) ∧
    ReturnsWithin (RequestBodyRelay.iterate Sink.writer)
      (RequestBodyRelay.forwarding .chunked request) 20 16
      (request.run Sink.writer .chunked) := by
  intro response request
  obtain ⟨hfeed, hresponse, hrequest⟩ := loops_return
  refine ⟨?_, ?_, ?_⟩
  · obtain ⟨numbers, hreturns, -, hlength⟩ := hfeed (.new 64) ResponseRelay.noContent
    exact ⟨numbers, hreturns, hlength⟩
  · exact hresponse false response (ResponseRelay.calm_ofPieces 64 _ (by decide)).1 rfl
      (by decide) rfl
  · refine hrequest Sink Sink.writer .chunked request
      (List.forall_mem_cons.2 ⟨⟨_, ?_, rfl⟩, ?_⟩) (by decide)
    · decide
    · exact List.forall_mem_singleton.2 ⟨_, by decide, rfl⟩

end Relay

end ReverseProxy
