import Mathlib.Data.List.Infix
import ReverseProxy.Proofs.Message.HeadStability
import ReverseProxy.Proofs.Relay.RequestStream
import ReverseProxy.Proofs.Wire.AlikeBuffers

/-!
# A head does not depend on the pieces in which it arrives

The head of a request is looked for after every reading, in all that is in the buffer by then, and
so in a different beginning of the stream whenever the pieces are different.  `answer` reads the
stream as if all of it had arrived at once: it takes the shortest beginning that says whether there
is a head, among those that fit into the buffer.

What the reader sees is one of these beginnings or a longer one, and a longer one says the same
(`RequestHead.parse_append`).  Hence `RequestReading.next` gives that answer for all pieces, and
gives up where none of the beginnings has one.  Signals may come between the pieces, as long as the
endpoint is not stopped.
-/

namespace ReverseProxy.Wire

open Operation

/-! ### A client that is not disturbed -/

/-- Octets, or a setting of the mode that does not stop the endpoint. -/
def ClientEvent.IsCalm : ClientEvent → Prop
  | .arrival a => a.IsData
  | .signal s => ∃ m, m ≠ .stopped ∧ s = .mode m

/-- The client sends octets and then closes the connection; it never falls silent, the connection
does not fail, and the endpoint is not stopped. -/
structure Client.Calm (c : Client) : Prop where
  events : ∀ e ∈ c.incoming, e.IsCalm
  mode : c.watch.mode ≠ .stopped
  live : c.watch.live = true

namespace Client

variable {room : Nat} {c c' : Client} {s : Signal} {e : ClientEvent} {events : List ClientEvent}
    {outgoing : Sink}
  {w : Watch}

theorem Calm.tail (h : Calm { incoming := e :: events, outgoing, watch := w }) :
    Calm { incoming := events, outgoing, watch := w } where
  events e he := h.events e (List.mem_cons_of_mem _ he)
  mode := h.mode
  live := h.live

/-- A signal is heard. -/
theorem Calm.hear (h : Calm { incoming := .signal s :: events, outgoing, watch := w }) :
    Calm { incoming := events, outgoing, watch := w.hear s } := by
  obtain ⟨m, hm, rfl⟩ := h.events _ (List.mem_cons_self ..)
  have hlive : w.live = true := h.live
  have hhear : w.hear (.mode m) = { w with mode := m, changed := true } := if_pos hlive
  rw [hhear]
  exact { events := h.tail.events, mode := hm, live := hlive }

/-- Noticing a setting of the mode leaves a `Calm` client calm. -/
theorem Calm.notice (h : c.Calm) : Calm { c with watch := { c.watch with changed := false } } where
  events := h.events
  mode := h.mode
  live := h.live

/-- A reading from a `Calm` client gets octets until there are none, and then the connection is
closed. -/
theorem Calm.receive {got : Received} (hc : c.Calm) (hroom : 0 < room)
    (h : c.receive room = (got, c')) :
    c'.Calm ∧ ((∃ b bs, got = .octets (b :: bs)) ∨ got = .octets [] ∧ c.octets = []) := by
  obtain ⟨events, outgoing, w⟩ := c
  induction events generalizing w with
  | nil =>
    cases h
    exact ⟨hc, .inr ⟨rfl, rfl⟩⟩
  | cons e events ih =>
    cases e with
    | signal s => exact ih _ hc.hear h
    | arrival a =>
      have hdata : a.IsData := hc.events _ (List.mem_cons_self ..)
      obtain ⟨_ | ⟨b, bs⟩, hne, rfl⟩ := hdata
      · exact absurd rfl hne
      obtain ⟨room, rfl⟩ := Nat.exists_eq_succ_of_ne_zero (Nat.pos_iff_ne_zero.1 hroom)
      cases hleft : bs.drop room with
      | nil =>
        simp only [Client.receive, receiveFrom, Arrival.take, List.drop_succ_cons, hleft] at h
        cases h
        exact ⟨hc.tail, .inl ⟨b, _, rfl⟩⟩
      | cons x left =>
        simp only [Client.receive, receiveFrom, Arrival.take, List.drop_succ_cons, hleft] at h
        cases h
        refine ⟨{ events := ?_, mode := hc.mode, live := hc.live }, .inl ⟨b, _, rfl⟩⟩
        intro e he
        obtain rfl | he := List.mem_cons.1 he
        · exact ⟨x :: left, List.cons_ne_nil _ _, rfl⟩
        · exact hc.tail.events e he

/-- A wait gets what a reading gets, or is given up for a setting of the mode. -/
theorem Calm.await {a : Awaited} (hc : c.Calm) (hroom : 0 < room) (h : c.await room = (a, c')) :
    c'.Calm ∧ (a = .notified ∨ (∃ b bs, a = .received (.octets (b :: bs))) ∨
      a = .received (.octets []) ∧ c.octets = []) := by
  unfold Client.await at h
  split at h
  · cases h
    exact ⟨hc.notice, .inl rfl⟩
  split at h
  · rename_i hgone
    rw [hc.live] at hgone
    cases hgone
  obtain ⟨events, outgoing, w⟩ := c
  split at h
  · rename_i rest he
    cases he
    obtain ⟨m, -, hm⟩ := hc.events _ (List.mem_cons_self ..)
    cases hm
  · rename_i s rest _ he
    cases he
    cases h
    exact ⟨hc.hear.notice, .inl rfl⟩
  · rcases hr : Client.receive room ⟨events, outgoing, w⟩ with ⟨got, c₁⟩
    rw [hr] at h
    cases h
    obtain ⟨hcalm, ⟨b, bs, rfl⟩ | ⟨rfl, hend⟩⟩ := hc.receive hroom hr
    · exact ⟨hcalm, .inr (.inl ⟨b, bs, rfl⟩)⟩
    · exact ⟨hcalm, .inr (.inr ⟨rfl, hend⟩)⟩

end Client

end ReverseProxy.Wire

namespace ReverseProxy.Relay

open Message Wire

namespace RequestReading

/-! ### The answer to a stream -/

/-- The shortest beginning of a stream on which parsing comes to an answer, among those of at most
`limit` octets. -/
def decisive? (limit : Nat) (stream : Bytes) : Option Bytes :=
  (stream.take limit).inits.find? RequestHead.isDecided

/-- What a stream comes to that is read into a buffer of `limit` octets: what parsing makes of the
shortest beginning on which it comes to an answer; if there is none, the stream ends before, in
front of a head or inside it, or it fills the buffer. -/
def answer (limit : Nat) (stream : Bytes) : Except ExchangeFailure (Option RequestHead) :=
  match decisive? limit stream with
  | some p => (RequestHead.parse p).mapError .defect
  | none =>
      if stream = [] then .ok none
      else if stream.length < limit then .error (.transport (.closed .client))
      else .error (.defect (.headTooLarge limit))

variable {limit : Nat} {s p : Bytes} {r r' : RequestReading}

/-- If parsing comes to an answer on some beginning `p` of the stream, within the limit, that is the
`answer` to the stream. -/
theorem answer_of_beginning (hp : p <+: s) (hlimit : p.length ≤ limit)
    (hdecided : RequestHead.parse p ≠ .ok none) :
    answer limit s = (RequestHead.parse p).mapError .defect := by
  have hmem : p ∈ (s.take limit).inits :=
    (List.mem_inits _ _).2 (List.prefix_take_iff.2 ⟨hp, hlimit⟩)
  cases hfind : decisive? limit s with
  | none => exact absurd (RequestHead.isDecided_iff.2 hdecided) (List.find?_eq_none.1 hfind p hmem)
  | some q =>
    have hq : q <+: s :=
      (List.prefix_take_iff.1 ((List.mem_inits _ _).1 (List.mem_of_find?_eq_some hfind))).1
    have hdecided' : RequestHead.parse q ≠ .ok none :=
      RequestHead.isDecided_iff.1 (List.find?_some hfind)
    rw [answer, hfind, RequestHead.parse_eq_of_beginnings hp hq hdecided hdecided']

/-- No beginning of the stream is decisive exactly if parsing has no answer to the longest one. -/
theorem decisive?_eq_none_iff :
    decisive? limit s = none ↔ RequestHead.parse (s.take limit) = .ok none := by
  rw [decisive?, List.find?_eq_none]
  constructor
  · intro h
    have hlongest := h (s.take limit) ((List.mem_inits _ _).2 (List.prefix_refl _))
    rwa [RequestHead.isDecided_iff, not_not] at hlongest
  · intro h q hq
    rw [RequestHead.isDecided_iff, not_not]
    exact RequestHead.parse_of_beginning ((List.mem_inits _ _).1 hq) h

/-- The `answer` to a stream that fills the buffer before parsing has one. -/
theorem answer_of_full (hlimit : 0 < limit) (hlength : limit ≤ s.length)
    (h : RequestHead.parse (s.take limit) = .ok none) :
    answer limit s = .error (.defect (.headTooLarge limit)) := by
  have hne : s ≠ [] := List.length_pos_iff.1 (Nat.lt_of_lt_of_le hlimit hlength)
  rw [answer, decisive?_eq_none_iff.2 h]
  exact (if_neg hne).trans (if_neg (Nat.not_lt.2 hlength))

/-- The `answer` to a stream that ends before parsing has one. -/
theorem answer_of_end (hlength : s.length < limit) (h : RequestHead.parse s = .ok none) :
    answer limit s = if s = [] then .ok none else .error (.transport (.closed .client)) := by
  have hnone : decisive? limit s = none :=
    decisive?_eq_none_iff.2 (by rwa [List.take_of_length_le (Nat.le_of_lt hlength)])
  rw [answer, hnone]
  show (if s = [] then _ else if s.length < limit then _ else _) = _
  rw [if_pos hlength]

/-- For each `answer`, the streams that come to it. -/
theorem answer_cases (hlimit : 0 < limit) (s : Bytes) :
    (∃ why, answer limit s = .error (.defect (.request why))) ∨
    (∃ head, answer limit s = .ok (some head)) ∨
    (answer limit s = .error (.defect (.headTooLarge limit)) ∧ limit ≤ s.length ∧
      RequestHead.parse (s.take limit) = .ok none) ∨
    (answer limit s = .error (.transport (.closed .client)) ∧ s ≠ [] ∧ s.length < limit ∧
      RequestHead.parse s = .ok none) ∨
    (answer limit s = .ok none ∧ s = []) := by
  by_cases hundecided : RequestHead.parse (s.take limit) = .ok none
  · by_cases hlength : s.length < limit
    · rw [List.take_of_length_le (Nat.le_of_lt hlength)] at hundecided
      have hend := answer_of_end hlength hundecided
      by_cases hs : s = []
      · exact .inr (.inr (.inr (.inr ⟨hend.trans (if_pos hs), hs⟩)))
      · exact .inr (.inr (.inr (.inl ⟨hend.trans (if_neg hs), hs, hlength, hundecided⟩)))
    · have hlength := Nat.le_of_not_lt hlength
      exact .inr (.inr (.inl ⟨answer_of_full hlimit hlength hundecided, hlength, hundecided⟩))
  · have hbeginning : s.take limit <+: s := List.take_prefix limit s
    have hlongest := answer_of_beginning hbeginning (List.length_take_le _ _) hundecided
    rcases hparse : RequestHead.parse (s.take limit) with d | _ | head
    · obtain ⟨why, rfl⟩ := RequestHead.request_of_parse hparse
      rw [hparse] at hlongest
      exact .inl ⟨why, hlongest⟩
    · exact absurd hparse hundecided
    · rw [hparse] at hlongest
      exact .inr (.inl ⟨head, hlongest⟩)

theorem answer_eq_tooLarge_iff (hlimit : 0 < limit) :
    answer limit s = .error (.defect (.headTooLarge limit)) ↔
    limit ≤ s.length ∧ RequestHead.parse (s.take limit) = .ok none := by
  constructor
  · intro h
    obtain ⟨_, h'⟩ | ⟨_, h'⟩ | ⟨-, hfull⟩ | ⟨h', -⟩ | ⟨h', -⟩ := answer_cases hlimit s
    case inr.inr.inl => exact hfull
    all_goals cases h.symm.trans h'
  · rintro ⟨hlength, hundecided⟩
    exact answer_of_full hlimit hlength hundecided

theorem answer_eq_closed_iff (hlimit : 0 < limit) :
    answer limit s = .error (.transport (.closed .client)) ↔
    s ≠ [] ∧ s.length < limit ∧ RequestHead.parse s = .ok none := by
  constructor
  · intro h
    obtain ⟨_, h'⟩ | ⟨_, h'⟩ | ⟨h', -⟩ | ⟨-, hend⟩ | ⟨h', -⟩ := answer_cases hlimit s
    case inr.inr.inr.inl => exact hend
    all_goals cases h.symm.trans h'
  · rintro ⟨hne, hlength, hundecided⟩
    exact (answer_of_end hlength hundecided).trans (if_neg hne)

theorem answer_eq_nothing_iff (hlimit : 0 < limit) : answer limit s = .ok none ↔ s = [] := by
  constructor
  · intro h
    obtain ⟨_, h'⟩ | ⟨_, h'⟩ | ⟨h', -⟩ | ⟨h', -⟩ | ⟨-, hnil⟩ := answer_cases hlimit s
    case inr.inr.inr.inr => exact hnil
    all_goals cases h.symm.trans h'
  · rintro rfl
    exact (answer_of_end hlimit rfl).trans (if_pos rfl)

/-! ### What the buffer says of the stream -/

theorem data_prefix_stream (r : RequestReading) : r.buffer.data <+: r.stream :=
  List.prefix_append _ _

/-- A search in the buffer that fails has the `answer` to the stream. -/
theorem answer_of_buffered?_error {e : ExchangeFailure} (h : r.buffered? = .error e) :
    answer r.buffer.capacity r.stream = .error e := by
  unfold buffered? at h
  split at h
  · cases h
  rename_i hne
  split at h
  · rename_i d hparse
    cases h
    rw [answer_of_beginning r.data_prefix_stream r.buffer.size_le_capacity (by simp [hparse]),
      hparse]
    rfl
  · cases h
  · rename_i hparse
    split at h
    · rename_i hfull
      cases h
      have hsize : r.buffer.data.length = r.buffer.capacity := Buffer.size_of_isFull hfull
      have hpos : 0 < r.buffer.capacity := by
        rw [Buffer.isEmpty, List.isEmpty_iff] at hne
        exact hsize ▸ List.length_pos_iff.2 hne
      refine answer_of_full hpos (hsize ▸ r.data_prefix_stream.length_le) ?_
      rw [stream, List.take_left' hsize]
      exact hparse
    · cases h

theorem answer_of_buffered?_some {head : RequestHead} (h : r.buffered? = .ok (some head)) :
    answer r.buffer.capacity r.stream = .ok (some head) := by
  have hparse := parse_of_buffered? h
  rw [answer_of_beginning r.data_prefix_stream r.buffer.size_le_capacity (by simp [hparse]), hparse]
  rfl

theorem parse_of_buffered?_none (h : r.buffered? = .ok none) (hc : 0 < r.buffer.capacity) :
    RequestHead.parse r.buffer.data = .ok none ∧ ¬r.buffer.isFull = true := by
  unfold buffered? at h
  split at h
  · rename_i hempty
    rw [Buffer.isEmpty, List.isEmpty_iff] at hempty
    exact ⟨by rw [hempty]; rfl, Buffer.not_isFull_of_data_eq_nil hempty hc⟩
  split at h
  · cases h
  · cases h
  · rename_i hparse
    split at h
    · cases h
    · exact ⟨hparse, ‹_›⟩

/-- A wait of a `Calm` client gets more of the stream until all of it has been got, as long as the
buffer is not full. -/
theorem wait_calm {idle : Bool} {a : Awaited} (hcalm : r.client.Calm)
    (hfull : ¬r.buffer.isFull = true)
    (h : r.wait idle = (a, r')) : (r'.client.Calm ∧ r'.buffer.capacity = r.buffer.capacity) ∧
      (a = .notified ∨ (∃ b bs, a = .received (.octets (b :: bs))) ∨
        a = .received (.octets []) ∧ r.client.octets = []) := by
  have hroom : 0 < r.buffer.makeRoom.room := Buffer.room_makeRoom_pos hfull
  obtain ⟨hgot, hbuffer⟩ := wait_cases h
  have hcapacity : r'.buffer.capacity = r.buffer.capacity := by
    obtain ⟨bs, -, hwritten⟩ | ⟨-, hwritten⟩ := hbuffer
    · rw [hwritten, Buffer.capacity_write, Buffer.capacity_makeRoom]
    · rw [hwritten, Buffer.capacity_makeRoom]
  obtain ⟨-, hawait⟩ | ⟨-, got, rfl, hreceive⟩ := hgot
  · obtain ⟨hcalm', hgot⟩ := hcalm.await hroom hawait
    exact ⟨⟨hcalm', hcapacity⟩, hgot⟩
  · obtain ⟨hcalm', ⟨b, bs, rfl⟩ | ⟨rfl, hend⟩⟩ := hcalm.receive hroom hreceive
    · exact ⟨⟨hcalm', hcapacity⟩, .inr (.inl ⟨b, bs, rfl⟩)⟩
    · exact ⟨⟨hcalm', hcapacity⟩, .inr (.inr ⟨rfl, hend⟩)⟩

/-- The end of the connection is one between two requests if `idle`, and else one in the middle of a
head. -/
theorem ending_octets (idle : Bool) (bs : Bytes) :
    ending idle (.octets bs) =
      if idle then .ok none else .error (.transport (.closed .client)) := by
  cases idle <;> rfl

/-- With a `Calm` client, `next` comes to the `answer` to the stream. -/
theorem next_eq_answer (hcalm : r.client.Calm) (hc : 0 < r.buffer.capacity) :
    r.next.1 = answer r.buffer.capacity r.stream := by
  fun_induction next r with
  | case1 r start e hb =>
    rw [← Buffer.capacity_shift, ← stream_shift r]
    exact (answer_of_buffered?_error hb).symm
  | case2 r start head hb =>
    rw [← Buffer.capacity_shift, ← stream_shift r]
    exact (answer_of_buffered?_some hb).symm
  | case3 r start hb hstopped =>
    have hmode : r.client.watch.mode = .stopped := by
      simpa using (Bool.and_eq_true_iff.1 hstopped).2
    exact absurd hmode hcalm.mode
  | case4 r start hb _ _ _ r' hw ih | case5 r start hb _ r' hw ih =>
    rw [← Buffer.capacity_shift] at hc
    obtain ⟨-, hfull⟩ := parse_of_buffered?_none hb hc
    obtain ⟨⟨hcalm', hcapacity⟩, -⟩ := wait_calm (r := start) hcalm hfull hw
    rw [ih hcalm' (hcapacity ▸ hc), hcapacity, (wait_eq hw).1, stream_shift, Buffer.capacity_shift]
  | case6 r start hb _ r' hw =>
    rw [← Buffer.capacity_shift] at hc
    obtain ⟨-, hfull⟩ := parse_of_buffered?_none hb hc
    obtain ⟨-, h | ⟨_, _, h⟩ | ⟨h, -⟩⟩ := wait_calm (r := start) hcalm hfull hw <;> cases h
  | case7 r start hb _ x r' hne hw =>
    rw [← Buffer.capacity_shift] at hc
    obtain ⟨hundecided, hfull⟩ := parse_of_buffered?_none hb hc
    obtain ⟨-, h | ⟨b, bs, h⟩ | ⟨h, hend⟩⟩ := wait_calm (r := start) hcalm hfull hw <;> cases h
    · exact absurd rfl (hne b bs)
    -- all of the stream is in the buffer
    have hstream : start.stream = start.buffer.data := by
      rw [stream, show start.client.octets = [] from hend, List.append_nil]
    have hlength : start.stream.length < start.buffer.capacity :=
      hstream ▸ Buffer.size_lt_capacity hfull
    rw [← Buffer.capacity_shift, ← stream_shift, answer_of_end hlength (hstream ▸ hundecided),
      hstream, ending_octets]
    simp only [Buffer.isEmpty, List.isEmpty_iff]

/-- A head that `next` finds stands at the front of the allocation. -/
theorem before_of_next {head : RequestHead} (h : r.next = (.ok (some head), r')) :
    r'.buffer.before = [] := by
  fun_induction next r with
  | case1 | case3 | case6 => cases h
  | case2 r start =>
    obtain ⟨-, rfl⟩ := Prod.mk.inj h
    exact Buffer.before_shift _
  | case4 r start _ _ _ _ r'' hw ih | case5 r start _ _ r'' hw ih => exact ih h
  | case7 r start _ _ x r'' hw =>
    have hending := (Prod.mk.inj h).1
    unfold ending at hending
    split at hending <;> cases hending

/-- With a `Calm` client, `next` comes to the `answer` to the stream and the capacity of the buffer,
in whatever pieces the stream arrives.  Parsing that has an answer to `p` has the same to
`p ++ more`.  The answer is `headTooLarge` exactly if what fills the buffer is not enough for
parsing; it is `none` exactly if the stream is empty, and `closed` exactly if the stream is not
empty, ends before the buffer is full, and parsing has no answer to it.  Nothing of the stream is
used, and a head that is found is what the buffer begins with. -/
theorem next_independent_of_pieces (hcalm : r.client.Calm) (hc : 0 < r.buffer.capacity) :
    r.next.1 = answer r.buffer.capacity r.stream ∧
    (∀ p more, RequestHead.parse p ≠ .ok none →
      RequestHead.parse (p ++ more) = RequestHead.parse p) ∧
    (r.next.1 = .error (.defect (.headTooLarge r.buffer.capacity)) ↔
      r.buffer.capacity ≤ r.stream.length ∧
      RequestHead.parse (r.stream.take r.buffer.capacity) = .ok none) ∧
    (r.next.1 = .ok none ↔ r.stream = []) ∧
    (r.next.1 = .error (.transport (.closed .client)) ↔
      r.stream ≠ [] ∧ r.stream.length < r.buffer.capacity ∧ RequestHead.parse r.stream = .ok none) ∧
    r.next.2.stream = r.stream ∧
    ∀ head, r.next.1 = .ok (some head) → r.next.2.buffer.before = [] ∧
      head.length ≤ r.next.2.buffer.data.length ∧
      RequestHead.parse r.next.2.buffer.data = .ok (some head) := by
  have hanswer := next_eq_answer hcalm hc
  refine ⟨hanswer, fun p more h => RequestHead.parse_append h more, ?_, ?_, ?_, (next_eq r).1, ?_⟩
  · rw [hanswer]
    exact answer_eq_tooLarge_iff hc
  · rw [hanswer]
    exact answer_eq_nothing_iff hc
  · rw [hanswer]
    exact answer_eq_closed_iff hc
  · intro head hhead
    have hnext : r.next = (.ok (some head), r.next.2) := Prod.ext hhead rfl
    exact ⟨before_of_next hnext, (next_eq_some hnext).2, parse_of_next hnext⟩

/-- A request and the beginning of another one, in pieces: one octet is in the buffer, and the
endpoint is paused while the others arrive. -/
def inPieces : RequestReading where
  client :=
    { incoming := [.arrival (.octets (Utf8.encode "ET / HT")), .signal (.mode .paused),
        .arrival (.octets (Utf8.encode "TP/1.1\r\n\r")),
        .arrival (.octets (Utf8.encode "\nGET /b"))] }
  buffer := (Buffer.ofCapacity 32).write (Utf8.encode "G")

/-- The head of the request in `inPieces`. -/
def inPiecesHead : RequestHead where
  method := "GET"
  path := "/"
  minor := 1
  headers := []
  length := 18
  body := .none
  keepAlive := true

/-- From `inPieces` the first head is read, and the other request is left behind it. -/
theorem next_independent_of_pieces_inPieces :
    inPieces.client.Calm ∧ 0 < inPieces.buffer.capacity ∧
    inPieces.next.1 = .ok (some inPiecesHead) ∧
      inPieces.next.2.stream = Utf8.encode "GET / HTTP/1.1\r\n\r\nGET /b" ∧
      RequestHead.parse inPieces.next.2.buffer.data = .ok (some inPiecesHead) := by
  have hcalm : inPieces.client.Calm :=
    { events := by
        simp only [inPieces, List.forall_mem_cons]
        exact ⟨⟨_, by decide, rfl⟩, ⟨.paused, by decide, rfl⟩, ⟨_, by decide, rfl⟩,
          ⟨_, by decide, rfl⟩, by simp⟩
      mode := by decide
      live := rfl }
  have hc : 0 < inPieces.buffer.capacity := by decide +kernel
  obtain ⟨hanswer, -, -, -, -, hstream, hfound⟩ := next_independent_of_pieces hcalm hc
  have hhead : answer inPieces.buffer.capacity inPieces.stream = .ok (some inPiecesHead) := by
    decide +kernel
  have hnext := hanswer.trans hhead
  exact ⟨hcalm, hc, hnext, hstream.trans (by decide +kernel), (hfound _ hnext).2.2⟩

end RequestReading

end ReverseProxy.Relay
