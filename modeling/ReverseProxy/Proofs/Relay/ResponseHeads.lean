import ReverseProxy.Proofs.Message.Heedfulness
import ReverseProxy.Proofs.Relay.Passing

/-!
# The heads of a response

Before the final response there may be interim ones, each of them nothing but a head.  `Interims`
reads a stream as if all of it had arrived at once: which heads of interim responses it begins with,
and what comes after them.  The relay finds the same heads in whatever pieces the stream arrives,
because what it has fed to its parser is at any time the beginning of what is in the buffer
(`Reading`).
-/

namespace ReverseProxy.Relay

open Message Wire
open Message.Pieces

/-- The first head of a stream that is closed after `s`: its length, and the reader at its end. -/
def readHead (limit : Nat) (s : Bytes) : Except ExchangeFailure (Nat × ResponseParser) :=
  if limit = 0 then .error (.defect (.headTooLarge 0))
  else match (ResponseParser.new limit).feed s with
    | (.error e, _) => .error (.defect e)
    | (.ok none, _) => .error (.transport (.closed .backend))
    | (.ok (some n), p) => .ok (n, p)

/-- The stream begins with the `heads` of interim responses, whose statuses are those from 100 to
199 but not 101, and then comes `rest`. -/
inductive Interims (limit : Nat) : Bytes → List Bytes → Bytes → Prop
  | nil (s : Bytes) : Interims limit s [] s
  | cons {s rest : Bytes} {heads : List Bytes} {n : Nat} {p : ResponseParser} :
      readHead limit s = .ok (n, p) → 100 ≤ p.status ∧ p.status ≤ 199 ∧ p.status ≠ 101 →
      Interims limit (s.drop n) heads rest → Interims limit s (s.take n :: heads) rest

/-- The stream `s` does not begin with the head of an interim response. -/
def IsFinal (limit : Nat) (s : Bytes) : Prop :=
  ∀ n p, readHead limit s = .ok (n, p) → ¬(100 ≤ p.status ∧ p.status ≤ 199 ∧ p.status ≠ 101)

/-- After interim responses, `readHead` fails on the stream with the error `e`. -/
def Refused (limit : Nat) (s : Bytes) (e : ExchangeFailure) : Prop :=
  ∃ heads rest, Interims limit s heads rest ∧ readHead limit rest = .error e

/-- A head that `readHead` finds is one that the parser finds. -/
theorem feed_of_readHead {limit n : Nat} {s : Bytes} {p : ResponseParser}
    (h : readHead limit s = .ok (n, p)) :
    (ResponseParser.new limit).feed s = (.ok (some n), p) := by
  unfold readHead at h
  split at h
  · cases h
  · rcases hf : (ResponseParser.new limit).feed s with ⟨e | _ | m, q⟩ <;> rw [hf] at h <;> cases h
    rfl

/-- The reader at the end of a head is `Heedful`, and has the limit that it had. -/
theorem heedful_of_readHead {limit n : Nat} {s : Bytes} {p : ResponseParser}
    (h : readHead limit s = .ok (n, p)) : p.Heedful ∧ p.limit = limit := by
  have hheedful := (ResponseParser.heedful_new limit).feed s
  have hlimit := ResponseParser.limit_feed (.new limit) s
  rw [feed_of_readHead h] at hheedful hlimit
  exact ⟨hheedful, hlimit⟩

/-! ### Interim responses -/

section Interims

variable {limit : Nat} {s s₁ s₂ rest : Bytes} {heads : List Bytes}

/-- The `heads` and `rest` are the stream. -/
theorem Interims.flatten_append (h : Interims limit s heads rest) : heads.flatten ++ rest = s := by
  induction h with
  | nil => rfl
  | cons _ _ _ ih => rw [List.flatten_cons, List.append_assoc, ih, List.take_append_drop]

/-- Each `head` is found at the beginning of what comes from there on, and its status is that of an
interim response. -/
theorem Interims.readHead {before after : List Bytes} {head : Bytes}
    (h : Interims limit s heads rest) (hheads : heads = before ++ head :: after) :
    ∃ p, Relay.readHead limit (head ++ (after.flatten ++ rest)) = .ok (head.length, p) ∧
      100 ≤ p.status ∧ p.status ≤ 199 ∧ p.status ≠ 101 := by
  induction h generalizing before with
  | nil => simp at hheads
  | cons hread hstatus hrest ih =>
    cases before with
    | nil =>
      obtain ⟨rfl, rfl⟩ := List.cons.inj hheads
      have hlength := ResponseParser.le_length_of_feed (feed_of_readHead hread)
      rw [hrest.flatten_append, List.take_append_drop, List.length_take_of_le hlength]
      exact ⟨_, hread, hstatus⟩
    | cons _ before => exact ih (List.cons.inj hheads).2

theorem Interims.append {heads₁ heads₂ : List Bytes} (h₁ : Interims limit s heads₁ s₁)
    (h₂ : Interims limit s₁ heads₂ s₂) : Interims limit s (heads₁ ++ heads₂) s₂ := by
  induction h₁ with
  | nil => exact h₂
  | cons hread hinterim _ ih => exact .cons hread hinterim (ih h₂)

/-- The stream determines the `heads` of interim responses and what comes after them. -/
theorem Interims.unique {heads₁ heads₂ : List Bytes} (h₁ : Interims limit s heads₁ s₁)
    (h₂ : Interims limit s heads₂ s₂) (hs₁ : IsFinal limit s₁) (hs₂ : IsFinal limit s₂) :
    heads₁ = heads₂ ∧ s₁ = s₂ := by
  induction h₁ generalizing heads₂ with
  | nil s =>
    cases h₂ with
    | nil => exact ⟨rfl, rfl⟩
    | cons hread hinterim _ => exact absurd hinterim (hs₁ _ _ hread)
  | cons hread hinterim _ ih =>
    cases h₂ with
    | nil => exact absurd hinterim (hs₂ _ _ hread)
    | cons hread₂ _ h₂ =>
      cases hread.symm.trans hread₂
      obtain ⟨rfl, rfl⟩ := ih h₂ hs₁
      exact ⟨rfl, rfl⟩

/-- A stream on which `readHead` fails does not begin with the head of an interim response. -/
theorem isFinal_of_error {e : ExchangeFailure} (h : readHead limit s = .error e) :
    IsFinal limit s :=
  fun _ _ h' => nomatch h.symm.trans h'

/-- A stream is `Refused` if it is after interim responses. -/
theorem Refused.after {heads : List Bytes} {e : ExchangeFailure} (h₁ : Interims limit s heads s₁)
    (h₂ : Refused limit s₁ e) : Refused limit s e := by
  obtain ⟨heads₂, rest, hi, he⟩ := h₂
  exact ⟨heads ++ heads₂, rest, h₁.append hi, he⟩

end Interims

/-- If the parser finds a head in `a`, `readHead` finds it there, whatever `b` follows. -/
theorem readHead_append {limit n : Nat} {p : ResponseParser} {a : Bytes} (hl : 0 < limit)
    (h : (ResponseParser.new limit).feed a = (.ok (some n), p)) (b : Bytes) :
    readHead limit (a ++ b) = .ok (n, p) := by
  rw [readHead, if_neg (by omega), ResponseParser.feed_continues, h, andThen_some]

/-- If the parser refuses `a`, `readHead` refuses it, whatever `b` follows. -/
theorem readHead_append_error {limit : Nat} {e : Defect} {p : ResponseParser}
    {a : Bytes} (hl : 0 < limit)
    (h : (ResponseParser.new limit).feed a = (.error e, p)) (b : Bytes) :
    readHead limit (a ++ b) = .error (.defect e) := by
  rw [readHead, if_neg (by omega), ResponseParser.feed_continues, h, andThen_error]

/-- If the parser needs more than `a`, a stream closed there has been closed too early. -/
theorem readHead_closed {limit : Nat} {p : ResponseParser} {a : Bytes} (hl : 0 < limit)
    (h : (ResponseParser.new limit).feed a = (.ok none, p)) :
    readHead limit a = .error (.transport (.closed .backend)) := by
  rw [readHead, if_neg (by omega), h]

namespace ResponseRelay

/-- The parser has read the first `fed` octets of the buffer, and needs more. -/
structure Reading (limit fed : Nat) (r : ResponseRelay) : Prop where
  parser : (ResponseParser.new limit).feed (r.buffer.data.take fed) = (.ok none, r.parser)
  fed_le : fed ≤ r.buffer.size

/-- The buffer begins with the head of the final response, `n` octets of it, and the parser is at
its end. -/
structure AtFinalHead (limit n : Nat) (r : ResponseRelay) : Prop where
  parser : (ResponseParser.new limit).feed r.buffer.data = (.ok (some n), r.parser)
  final : isInterim r.parser.status = false

/-- From `r` to `r'` the `heads` of interim responses have been relayed, and nothing of the body. -/
structure RelaysInterims (limit : Nat) (r : ResponseRelay) (heads : List Bytes)
    (r' : ResponseRelay) : Prop extends
    Relays r heads.flatten r' where
  interims : Interims limit r.stream heads r'.stream
  body : r'.body = r.body

/-- What an operation may do that relays heads of interim responses, and has `post` when it
succeeds. -/
def HeadsOutcome {α : Type} (limit : Nat) (post : α → ResponseRelay → Prop) (r : ResponseRelay) :
    Except ExchangeFailure α × ResponseRelay → Prop
  | (.error e, r') => Fails r r' ∧ (r.Calm → Refused limit r.stream e)
  | (.ok a, r') => ∃ heads, RelaysInterims limit r heads r' ∧ post a r'

section

variable {limit : Nat} {r r₁ r₂ : ResponseRelay}

/-- The parser goes on with the octets after the first `fed` as a new one does with all of them. -/
theorem Reading.feed_data {fed : Nat} (h : Reading limit fed r) :
    (ResponseParser.new limit).feed r.buffer.data =
      later fed (r.parser.feed (r.buffer.data.drop fed)) := by
  have hc := ResponseParser.feed_continues (ResponseParser.new limit) (r.buffer.data.take fed)
    (r.buffer.data.drop fed)
  rwa [List.take_append_drop, h.parser, andThen_none, List.length_take_of_le h.fed_le] at hc

/-- At the beginning of a head, the parser has been fed no octets. -/
theorem reading_zero (h : r.parser = ResponseParser.new limit) : Reading limit 0 r :=
  ⟨h ▸ ResponseParser.waits_new limit, Nat.zero_le _⟩

/-- When the parser needs more, it has been fed all of the buffer. -/
theorem reading_size (h : (ResponseParser.new limit).feed r.buffer.data = (.ok none, r.parser)) :
    Reading limit r.buffer.size r :=
  ⟨by rw [Buffer.size, List.take_length, h], Nat.le_refl _⟩

theorem Reading.feed_size (h : Reading limit r.buffer.size r) :
    (ResponseParser.new limit).feed r.buffer.data = (.ok none, r.parser) := by
  have hp := h.parser
  rwa [Buffer.size, List.take_length] at hp

/-- A reading comes after what the parser has been fed. -/
theorem Reading.receive {got : Received} {backend : Source} {buffer : Buffer}
    (h : Reading limit r.buffer.size r)
    (hreceive : r.buffer.receive r.backend = (got, backend, buffer)) :
    Reading limit r.buffer.size { r with backend, buffer } := by
  obtain ⟨-, hdata, -⟩ := Buffer.data_receive hreceive
  constructor
  · rw [hdata, Buffer.size, List.take_left, h.feed_size]
  · rw [Buffer.size, Buffer.size, hdata, List.length_append]
    exact Nat.le_add_right _ _

theorem RelaysInterims.of_eq (hbackend : r₁.backend = r.backend) (hclient : r₁.client = r.client)
    (hbuffer : r₁.buffer = r.buffer) (htotal : r₁.total = r.total) (hbody : r₁.body = r.body) :
    RelaysInterims limit r [] r₁ where
  toRelays := .of_eq hbackend hclient hbuffer htotal
  interims := by
    rw [stream, stream, hbuffer, hbackend]
    exact .nil _
  body := hbody

theorem RelaysInterims.trans {heads₁ heads₂ : List Bytes} (h₁ : RelaysInterims limit r heads₁ r₁)
    (h₂ : RelaysInterims limit r₁ heads₂ r₂) : RelaysInterims limit r (heads₁ ++ heads₂) r₂ where
  toRelays := by
    rw [List.flatten_append]
    exact h₁.toRelays.trans h₂.toRelays
  interims := h₁.interims.append h₂.interims
  body := h₂.body.trans h₁.body

/-- An operation that comes to a `HeadsOutcome` after interim responses, comes to it as a whole. -/
theorem HeadsOutcome.after {α : Type} {post : α → ResponseRelay → Prop} {heads : List Bytes}
    {x : Except ExchangeFailure α × ResponseRelay} (h₁ : RelaysInterims limit r heads r₁)
    (h₂ : HeadsOutcome limit post r₁ x) : HeadsOutcome limit post r x := by
  obtain ⟨e | a, r₂⟩ := x
  · exact ⟨h₁.toRelays.trans_fails h₂.1, fun hr => .after h₁.interims (h₂.2 (h₁.calm hr))⟩
  · obtain ⟨heads₂, h₂, hpost⟩ := h₂
    exact ⟨heads ++ heads₂, h₁.trans h₂, hpost⟩

end

/-! ### The operations -/

/-- What `readHeads` answers: nothing when all that is in the buffer has been read, or the length of
the final head. -/
def HeadFound (limit : Nat) (answer : Option Nat) (r : ResponseRelay) : Prop :=
  match answer with
  | none => Reading limit r.buffer.size r
  | some n => AtFinalHead limit n r

/-- A `pass` of the head of an interim response relays it. -/
theorem relaysInterims_pass {limit n : Nat} {r r' : ResponseRelay} (hl : 0 < limit)
    (hfeed : (ResponseParser.new limit).feed r.buffer.data = (.ok (some n), r.parser))
    (hinterim : isInterim r.parser.status = true) (h : r.pass n = (.ok (), r')) :
    RelaysInterims limit r [r.buffer.data.take n] r' := by
  have hn : n ≤ r.buffer.size := ResponseParser.le_length_of_feed hfeed
  obtain ⟨hrelays, hdata⟩ := relays_pass hn h
  have hbackend := backend_pass n r
  have hbody := body_pass n r
  rw [h] at hbackend hbody
  have htake : r.stream.take n = r.buffer.data.take n := List.take_append_of_le_length hn
  have hdrop : r.stream.drop n = r'.stream := by
    rw [stream, List.drop_append_of_le_length hn, stream, hdata, hbackend]
  refine ⟨by simpa using hrelays, ?_, hbody⟩
  rw [← htake]
  exact .cons (readHead_append hl hfeed _) (isInterim_iff.1 hinterim) (hdrop ▸ .nil _)

/-- In `readHeads` interim responses are relayed, and the head after them is read as far as it is in
the buffer. -/
theorem headsOutcome_readHeads {limit fed : Nat} {r : ResponseRelay} (hl : 0 < limit)
    (h : Reading limit fed r) :
    HeadsOutcome limit (HeadFound limit) r (r.readHeads fed) := by
  fun_induction readHeads fed r with
  | case1 fed r hd =>
    have hle : r.buffer.size ≤ fed := List.drop_eq_nil_iff.1 hd
    have hparser := h.parser
    rw [List.take_of_length_le hle] at hparser
    exact ⟨[], .of_eq rfl rfl rfl rfl rfl, reading_size hparser⟩
  | case2 fed r b rest hd e p hf =>
    have hfeed := h.feed_data
    rw [hd, hf, later_error] at hfeed
    have hfails : Relays r [] { r with parser := p } := .of_eq rfl rfl rfl rfl
    exact ⟨hfails.fails, fun _ => ⟨[], r.stream, .nil _, readHead_append_error hl hfeed _⟩⟩
  | case3 fed r b rest hd p hf =>
    have hfeed := h.feed_data
    rw [hd, hf, later_none] at hfeed
    exact ⟨[], .of_eq rfl rfl rfl rfl rfl, reading_size hfeed⟩
  | case4 fed r b rest hd n p hf hinterim e r' hw =>
    obtain ⟨hfails, hcalm⟩ := fails_pass (r := { r with parser := p }) hw
    exact ⟨hfails, fun hr => absurd ⟨hr.backend, hr.client⟩ hcalm⟩
  | case5 fed r b rest hd n p hf hinterim r' hw ih =>
    have hfeed := h.feed_data
    rw [hd, hf, later_some] at hfeed
    have hp : RelaysInterims limit r [] { r with parser := p } := .of_eq rfl rfl rfl rfl rfl
    have hpass := relaysInterims_pass (r := { r with parser := p }) hl hfeed hinterim hw
    have hnext : RelaysInterims limit r' [] { r' with parser := p.recycle } :=
      .of_eq rfl rfl rfl rfl rfl
    refine .after (hp.trans (hpass.trans hnext)) (ih (reading_zero ?_))
    have hlimit := ResponseParser.limit_feed (ResponseParser.new limit) r.buffer.data
    rw [hfeed] at hlimit
    exact congrArg ResponseParser.new hlimit
  | case6 fed r b rest hd n p hf hinterim =>
    have hfeed := h.feed_data
    rw [hd, hf, later_some] at hfeed
    exact ⟨[], .of_eq rfl rfl rfl rfl rfl, hfeed, by simpa using hinterim⟩

/-- In `awaitHead` the heads are relayed up to the final one, in whatever pieces they arrive. -/
theorem headsOutcome_awaitHead {limit fed : Nat} {r : ResponseRelay} (hl : 0 < limit)
    (hc : r.buffer.capacity = limit) (h : Reading limit fed r) :
    HeadsOutcome limit (AtFinalHead limit) r (r.awaitHead fed) := by
  fun_induction awaitHead fed r with
  | case1 fed r e r' hr =>
    have hread := headsOutcome_readHeads hl h
    rwa [hr] at hread
  | case2 fed r n r' hr =>
    have hread := headsOutcome_readHeads hl h
    rwa [hr] at hread
  | case3 fed r r' hr hfull =>
    have hread := headsOutcome_readHeads hl h
    rw [hr] at hread
    obtain ⟨heads, hrelays, hreading⟩ := hread
    -- the parser refuses a head as long as the buffer before the buffer is full
    have hlt := ResponseParser.length_lt_of_feed_new_eq_none hl hreading.feed_size
    have hsize := Buffer.size_of_isFull hfull
    rw [hrelays.capacity, hc] at hsize
    exact absurd hsize (Nat.ne_of_lt hlt)
  | case4 fed r r' hr hfull b bs backend buffer hreceive ih =>
    have hread := headsOutcome_readHeads hl h
    rw [hr] at hread
    obtain ⟨heads, hrelays, hreading⟩ := hread
    have hreceived := relays_receive hfull hreceive
    have hstep : RelaysInterims limit r' [] { r' with backend, buffer } :=
      ⟨hreceived, hreceived.stream ▸ .nil _, rfl⟩
    have hcapacity := hreceived.capacity.trans (hrelays.capacity.trans hc)
    exact .after (hrelays.trans hstep) (ih hcapacity (hreading.receive hreceive))
  | case5 fed r r' hr hfull got backend buffer hgot hreceive =>
    have hread := headsOutcome_readHeads hl h
    rw [hr] at hread
    obtain ⟨heads, hrelays, hreading⟩ := hread
    have hreceived := relays_receive hfull hreceive
    refine ⟨hrelays.trans_fails hreceived.fails, fun hcalm => .after hrelays.interims ?_⟩
    obtain ⟨-, ⟨x, xs, rfl⟩ | ⟨rfl, hnil, -⟩⟩ :=
      Buffer.receive_steady (hrelays.calm hcalm).backend hfull hreceive
    · exact absurd rfl (hgot x xs)
    · refine ⟨[], r'.stream, .nil _, ?_⟩
      rw [stream, hnil, Source.octets_nil, List.append_nil]
      exact readHead_closed hl hreading.feed_size

/-- With a buffer of no capacity, `awaitHead` fails before anything has been read. -/
theorem awaitHead_of_capacity_eq_zero {r : ResponseRelay} (hc : r.buffer.capacity = 0) :
    r.awaitHead 0 = (.error (.defect (.headTooLarge 0)), r) := by
  have hlen : r.buffer.before.length = 0 ∧ r.buffer.data.length = 0 ∧ r.buffer.after.length = 0 ∧
      r.buffer.untouched = 0 := by
    rw [Buffer.capacity] at hc
    omega
  have hread : r.readHeads 0 = (.ok none, r) := by
    unfold readHeads
    split
    · rfl
    · rename_i hd
      rw [List.drop_zero, List.eq_nil_of_length_eq_zero hlen.2.1] at hd
      cases hd
  have hfull : r.buffer.isFull = true := by
    simp only [Buffer.isFull, Buffer.isExhausted, Bool.and_eq_true, List.isEmpty_iff, beq_iff_eq]
    exact ⟨List.eq_nil_of_length_eq_zero hlen.1,
      List.eq_nil_of_length_eq_zero hlen.2.2.1, hlen.2.2.2⟩
  unfold awaitHead
  split <;> rename_i h <;> cases hread.symm.trans h
  rw [if_pos hfull, hc]

/-- With a new parser, `awaitHead` relays the heads from the beginning of the stream. -/
theorem headsOutcome_awaitHead_new {limit : Nat} {r : ResponseRelay}
    (hc : r.buffer.capacity = limit)
    (hp : r.parser = .new limit) : HeadsOutcome limit (AtFinalHead limit) r (r.awaitHead 0) := by
  by_cases hl : 0 < limit
  · exact headsOutcome_awaitHead hl hc (reading_zero hp)
  · have hz : limit = 0 := by omega
    subst hz
    rw [awaitHead_of_capacity_eq_zero hc]
    exact ⟨(Relays.refl r).fails, fun _ => ⟨[], r.stream, .nil _, if_pos rfl⟩⟩

end ResponseRelay

end ReverseProxy.Relay
