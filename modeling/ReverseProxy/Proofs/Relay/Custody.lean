import ReverseProxy.Proofs.Fleet.IdleQueues
import ReverseProxy.Relay.Exchange

/-!
# Who has a connection

A connection to a backend waits in the queue of its node, or it is held by whoever asked for it, or
it is closed.  `Custody` is the pool together with those who hold connections.  Nobody has to close
a connection: it is closed when it neither waits nor is held any more (`Custody.closed`), and so
what is to be shown is that no connection has two places, and that every operation closes just the
connections that it says it closes.

An operation lets some connections go and opens others (`Custody.Passes`); that is all that matters
for the places of connections (`Sound.of_passes`) and for which of them are closed
(`Sound.mem_closed_of_passes`).
-/

namespace ReverseProxy.Relay

open Fleet Operation Wire

/-- What is in the way of another connection: why it cannot be opened, or why its encryption cannot
be agreed on. -/
structure Obstacle where
  /-- The failure to open it. -/
  opening : Option ConnectFailure := none
  /-- The failure to secure it. -/
  securing : Option ConnectFailure := none

/-- What the pool may notice of the network while it is asked for a connection. -/
structure Lines where
  /-- A connection is still open. -/
  isOpen : LinkId → Bool
  obstacle : Obstacle
  /-- How many connections have been opened. -/
  opened : Nat
  /-- How often it was tried to open one. -/
  attempts : Nat

/-- The network of which no more is known than `Lines`; connections are numbered as they are
opened. -/
def Lines.network : Network Lines where
  connect _ l :=
    match l.obstacle.opening with
    | some e => (.error e, { l with attempts := l.attempts + 1 })
    | none => (.ok l.opened, { l with opened := l.opened + 1, attempts := l.attempts + 1 })
  handshake _ _ _ l :=
    match l.obstacle.securing with
    | some e => (.error e, l)
    | none => (.ok (), l)
  writer _ :=
    { writeAll := fun _ l => (.error .timedOut, l), flush := fun l => (.error .timedOut, l) }
  incoming link l := if l.isOpen link then [.silence] else []
  setIncoming _ _ l := l
  requestId l := ("", l)

@[simp] theorem Lines.isOpen_network (l : Lines) : Lines.network.isOpen l = l.isOpen := by
  funext link
  unfold Network.isOpen Lines.network
  by_cases h : l.isOpen link = true
  · simp [h]
  · simp [h]

@[simp] theorem Lines.connect_network (n : Node) (l : Lines) :
    Lines.network.connect n l =
      match l.obstacle.opening with
      | some e => (.error e, { l with attempts := l.attempts + 1 })
      | none => (.ok l.opened, { l with opened := l.opened + 1, attempts := l.attempts + 1 }) := rfl

/-- Securing a connection changes nothing about the `Lines`. -/
theorem Lines.secure_network (n : Node) (roots : Option Settings.TrustRoots) (link : LinkId)
    (l : Lines) : (∃ e, Lines.network.secure n roots link l = (.error e, l)) ∨
      Lines.network.secure n roots link l = (.ok (), l) := by
  unfold Network.secure
  split
  · exact .inr rfl
  · exact .inl ⟨_, rfl⟩
  · cases hobstacle : l.obstacle.securing with
    | some e => exact .inl ⟨e, by simp [Lines.network, hobstacle]⟩
    | none => exact .inr (by simp [Lines.network, hobstacle])

/-- The pool of a proxy, and the connections that were got from it. -/
structure Custody where
  proxy : Proxy
  held : List Connection := []
  /-- The number of connections opened so far, and the link of the next one. -/
  opened : Nat := 0
  /-- How often it was tried to open one. -/
  attempts : Nat := 0

namespace Custody

/-- The connections that wait in `idle` or are `held`. -/
def owned (s : Custody) : List Connection := s.proxy.idle.waiting ++ s.held

/-- The links below `opened` that no owned connection has. -/
def closed (s : Custody) : List LinkId :=
  (List.range s.opened).filter fun link => link ∉ s.owned.map Connection.link

/-! ### Operations -/

/-- The connection that an answer of `checkout` gives, if it gives one. -/
def granted : Except ConnectFailure (Connection × Bool) → List Connection
  | .ok (c, _) => [c]
  | .error _ => []

/-- Somebody asks for a connection to `n`, and holds the one that is got. -/
def checkout (isOpen : LinkId → Bool) (n : Node) (obstacle : Obstacle) (s : Custody) :
    Except ConnectFailure (Connection × Bool) × Custody :=
  let (answer, proxy, lines) :=
    Lines.network.checkout n s.proxy
      { isOpen, obstacle, opened := s.opened, attempts := s.attempts }
  (answer,
    { proxy, held := s.held ++ granted answer, opened := lines.opened, attempts := lines.attempts })

/-- The held connection at place `i` is given back, with the version `n` of its node. -/
def recycle (isOpen : LinkId → Bool) (i : Nat) (n : Node) (s : Custody) : Custody :=
  match s.held[i]? with
  | none => s
  | some c =>
      { s with
        proxy := { s.proxy with idle := s.proxy.idle.recycle isOpen n c },
        held := s.held.eraseIdx i }

/-- The held connection at place `i` is let go. -/
def drop (i : Nat) (s : Custody) : Custody := { s with held := s.held.eraseIdx i }

/-- The queue of the node `id` is dropped; the answer is how many connections were in it. -/
def close (id : Nat) (s : Custody) : Nat × Custody :=
  let (count, idle) := s.proxy.idle.close id
  (count, { s with proxy := { s.proxy with idle } })

/-- All queues are dropped; the answer is how many connections were in them. -/
def closeAll (s : Custody) : Nat × Custody :=
  let (count, idle) := s.proxy.idle.closeAll
  (count, { s with proxy := { s.proxy with idle } })

/-- What can be done with the pool and with held connections. -/
inductive Action where
  | checkout (n : Node) (obstacle : Obstacle)
  | recycle (i : Nat) (n : Node)
  | drop (i : Nat)
  | close (id : Nat)
  | closeAll

/-- An action, and the connections that are open when it looks at them. -/
structure TimedAction where
  isOpen : LinkId → Bool
  action : Action

/-- The custody after the action `a`. -/
def perform (s : Custody) (a : TimedAction) : Custody :=
  match a.action with
  | .checkout n obstacle => (s.checkout a.isOpen n obstacle).2
  | .recycle i n => s.recycle a.isOpen i n
  | .drop i => s.drop i
  | .close id => (s.close id).2
  | .closeAll => s.closeAll.2

/-- The custody after the `actions`, one after another. -/
def run (s : Custody) (actions : List TimedAction) : Custody := actions.foldl perform s

/-- The start: no connection belongs to the proxy `p` yet. -/
def start (p : Proxy) : Custody := { proxy := { p with idle := {} } }

/-- A connection that has been opened and is not open at one of the actions is not open at a later
one. -/
def Fading (s : Custody) : List TimedAction → Prop
  | [] => True
  | a :: actions =>
      (∀ link < s.opened, a.isOpen link = false → ∀ a' ∈ actions, a'.isOpen link = false) ∧
        Fading (s.perform a) actions

/-! ### Places -/

/-- Every owned connection has one place, in the queue of its node or with its holder, and its link
is below `opened`. -/
structure Sound (s : Custody) : Prop where
  tidy : s.proxy.idle.Tidy
  links_nodup : (s.owned.map Connection.link).Nodup
  link_lt : ∀ c ∈ s.owned, c.link < s.opened

/-- From `s` to `s'` the connections `new` were opened and `gone` were let go, and the others are
still owned. -/
structure Passes (s : Custody) (new gone : List Connection) (s' : Custody) : Prop where
  perm : (s'.owned ++ gone).Perm (s.owned ++ new)
  opened_le : s.opened ≤ s'.opened
  new_nodup : (new.map Connection.link).Nodup
  new_bounds : ∀ c ∈ new, s.opened ≤ c.link ∧ c.link < s'.opened

variable {s s' : Custody} {new gone : List Connection} {link : LinkId}

theorem mem_closed_iff : link ∈ s.closed ↔ link < s.opened ∧ ∀ c ∈ s.owned, c.link ≠ link := by
  simp [closed]

theorem sound_start (p : Proxy) : (start p).Sound :=
  ⟨IdlePool.tidy_empty, .nil, List.forall_mem_nil _⟩

/-- The connections of `s` and those opened on the way to `s'` have distinct links. -/
theorem Sound.nodup_append (h : s.Sound) (hp : Passes s new gone s') :
    ((s'.owned ++ gone).map Connection.link).Nodup := by
  rw [(hp.perm.map _).nodup_iff, List.map_append, List.nodup_append]
  refine ⟨h.links_nodup, hp.new_nodup, ?_⟩
  rintro x hx y hy rfl
  obtain ⟨c, hc, rfl⟩ := List.mem_map.1 hx
  obtain ⟨c', hc', heq⟩ := List.mem_map.1 hy
  exact absurd (h.link_lt c hc) (Nat.not_lt.2 (heq ▸ (hp.new_bounds c' hc').1))

theorem Sound.of_passes (h : s.Sound) (hp : Passes s new gone s')
    (htidy : s'.proxy.idle.Tidy) : s'.Sound where
  tidy := htidy
  links_nodup := by
    have hnodup := h.nodup_append hp
    rw [List.map_append] at hnodup
    exact (List.nodup_append.1 hnodup).1
  link_lt c hc := by
    rcases List.mem_append.1 (hp.perm.subset (List.mem_append_left _ hc)) with hold | hnew
    · exact Nat.lt_of_lt_of_le (h.link_lt c hold) hp.opened_le
    · exact (hp.new_bounds c hnew).2

/-- Of the links of `s`, those are closed in `s'` that were closed in `s` or belong to `gone`. -/
theorem Sound.mem_closed_of_passes (h : s.Sound) (hp : Passes s new gone s')
    (hlt : link < s.opened) :
    link ∈ s'.closed ↔ link ∈ s.closed ∨ link ∈ gone.map Connection.link := by
  rw [mem_closed_iff, mem_closed_iff]
  constructor
  · rintro ⟨-, hnone⟩
    by_cases hold : ∃ c ∈ s.owned, c.link = link
    · obtain ⟨c, hc, rfl⟩ := hold
      rcases List.mem_append.1 (hp.perm.symm.subset (List.mem_append_left _ hc)) with howned | hgone
      · exact absurd rfl (hnone c howned)
      · exact .inr (List.mem_map_of_mem hgone)
    · exact .inl ⟨hlt, fun c hc heq => hold ⟨c, hc, heq⟩⟩
  · rintro (⟨-, hnone⟩ | hgone)
    · refine ⟨Nat.lt_of_lt_of_le hlt hp.opened_le, fun c hc heq => ?_⟩
      rcases List.mem_append.1 (hp.perm.subset (List.mem_append_left _ hc)) with hold | hnew
      · exact hnone c hold heq
      · exact absurd hlt (Nat.not_lt.2 (heq ▸ (hp.new_bounds c hnew).1))
    · refine ⟨Nat.lt_of_lt_of_le hlt hp.opened_le, fun c hc heq => ?_⟩
      have hnodup := h.nodup_append hp
      rw [List.map_append, List.nodup_append] at hnodup
      exact hnodup.2.2 c.link (List.mem_map_of_mem hc) link hgone heq

/-- Every link below `opened` is owned once or closed. -/
theorem Sound.perm_range (h : s.Sound) :
    (s.owned.map Connection.link ++ s.closed).Perm (List.range s.opened) := by
  have hnodup : (s.owned.map Connection.link ++ s.closed).Nodup := by
    refine List.nodup_append.2 ⟨h.links_nodup, List.nodup_range.filter _, ?_⟩
    rintro x hx y hy rfl
    obtain ⟨c, hc, rfl⟩ := List.mem_map.1 hx
    exact (mem_closed_iff.1 hy).2 c hc rfl
  rw [List.perm_ext_iff_of_nodup hnodup List.nodup_range]
  intro link
  rw [List.mem_append, List.mem_range, mem_closed_iff]
  constructor
  · rintro (howned | hclosed)
    · obtain ⟨c, hc, rfl⟩ := List.mem_map.1 howned
      exact h.link_lt c hc
    · exact hclosed.1
  · intro hlt
    by_cases howned : link ∈ s.owned.map Connection.link
    · exact .inl howned
    · exact .inr ⟨hlt, fun c hc heq => howned (heq ▸ List.mem_map_of_mem hc)⟩

/-- If `s'` has opened none, as many links are closed on the way to it as `gone` has connections. -/
theorem Sound.length_closed (h : s.Sound) (hp : Passes s [] gone s') (htidy : s'.proxy.idle.Tidy)
    (hopened : s'.opened = s.opened) : s'.closed.length = s.closed.length + gone.length := by
  have hbefore := h.perm_range.length_eq
  have hafter := (h.of_passes hp htidy).perm_range.length_eq
  have hperm := hp.perm.length_eq
  simp only [List.length_append, List.length_map, List.length_range, List.length_nil]
    at hbefore hafter hperm
  omega

/-! ### What each operation passes on -/

variable {isOpen : LinkId → Bool} {n : Node} {obstacle : Obstacle} {c : Connection} {i id : Nat}

/-- The connections that are no longer open and wait for the node `id` in front of the first that
is. -/
def spent (isOpen : LinkId → Bool) (id : Nat) (s : Custody) : List Connection :=
  (s.proxy.idle.waitingFor id).takeWhile fun c => !isOpen c.link

/-- The open connection that has waited longest for the node `id`. -/
def longest? (isOpen : LinkId → Bool) (id : Nat) (s : Custody) : Option Connection :=
  (s.proxy.idle.waitingFor id).find? fun c => isOpen c.link

/-- The proxy after `IdlePool.take` for `n`. -/
def taken (isOpen : LinkId → Bool) (n : Node) (s : Custody) : Proxy :=
  { s.proxy with idle := (s.proxy.idle.take isOpen n).2 }

/-- If `longest?` finds a connection, `checkout` gives it, and opens none. -/
theorem checkout_of_longest? (h : s.longest? isOpen n.id = some c) (obstacle : Obstacle) :
    s.checkout isOpen n obstacle =
      (.ok (c, true), { s with proxy := s.taken isOpen n, held := s.held ++ [c] }) := by
  have htake : (s.proxy.idle.take isOpen n).1 = some c := by rw [IdlePool.take_eq]; exact h
  simp only [checkout, Network.checkout, Lines.isOpen_network, htake, granted, taken]

/-- If `longest?` finds none, `checkout` tries to open one, once; then it gives that one, or fails
as the `obstacle` says. -/
theorem checkout_of_longest?_eq_none (h : s.longest? isOpen n.id = none) (obstacle : Obstacle) :
    (∃ e, obstacle.opening = some e ∧ s.checkout isOpen n obstacle =
      (.error e, { s with proxy := s.taken isOpen n, attempts := s.attempts + 1 })) ∨
    (∃ e, obstacle.opening = none ∧ s.checkout isOpen n obstacle =
      (.error e,
        { s with proxy := s.taken isOpen n, opened := s.opened + 1, attempts := s.attempts + 1 })) ∨
    (obstacle.opening = none ∧ s.checkout isOpen n obstacle =
      (.ok (n.connection s.opened, false),
        { s with proxy := s.taken isOpen n, held := s.held ++ [n.connection s.opened],
                 opened := s.opened + 1, attempts := s.attempts + 1 })) := by
  have htake : (s.proxy.idle.take isOpen n).1 = none := by rw [IdlePool.take_eq]; exact h
  simp only [checkout, Network.checkout, Lines.isOpen_network, Lines.connect_network, htake, taken]
  cases obstacle.opening with
  | some e => exact .inl ⟨e, rfl, by simp only [granted, List.append_nil]⟩
  | none =>
    rcases Lines.secure_network n s.proxy.trustRoots s.opened
      { isOpen, obstacle, opened := s.opened + 1, attempts := s.attempts + 1 } with
      ⟨e, hsecure⟩ | hsecure
    · exact .inr (.inl ⟨e, rfl, by simp only [hsecure, granted, List.append_nil]⟩)
    · exact .inr (.inr ⟨rfl, by simp only [hsecure, granted]⟩)

/-- What `taken` leaves waiting, what is held with the connection that `longest?` finds, and what
was `spent` are together the owned connections and the `new` ones. -/
theorem Sound.perm_taken (h : s.Sound) (isOpen : LinkId → Bool) (n : Node) (new : List Connection) :
    ((s.taken isOpen n).idle.waiting ++ (s.held ++ ((s.longest? isOpen n.id).toList ++ new)) ++
      s.spent isOpen n.id).Perm (s.owned ++ new) := by
  have htake := h.tidy.perm_take isOpen n
  rw [IdlePool.take_eq] at htake
  simp only [taken, owned, spent, longest?, IdlePool.take_eq]
  rw [List.perm_iff_count] at htake ⊢
  intro c
  have htake := htake c
  simp only [List.count_append] at htake ⊢
  omega

theorem Sound.passes_checkout (h : s.Sound) (isOpen : LinkId → Bool) (n : Node)
    (obstacle : Obstacle) :
    ∃ new, Passes s new (s.spent isOpen n.id) (s.checkout isOpen n obstacle).2 := by
  have hperm := h.perm_taken isOpen n
  cases hlongest : s.longest? isOpen n.id with
  | some c =>
    rw [hlongest] at hperm
    rw [checkout_of_longest? hlongest]
    exact ⟨[], hperm [], Nat.le_refl _, .nil, List.forall_mem_nil _⟩
  | none =>
    rw [hlongest] at hperm
    have hnil := hperm []
    rw [Option.toList_none, List.append_nil, List.append_nil] at hnil
    rcases checkout_of_longest?_eq_none hlongest obstacle with ⟨e, -, heq⟩ | ⟨e, -, heq⟩ | ⟨-, heq⟩
    · rw [heq]
      exact ⟨[], hnil, Nat.le_refl _, .nil, List.forall_mem_nil _⟩
    · rw [heq]
      exact ⟨[], hnil, Nat.le_succ _, .nil, List.forall_mem_nil _⟩
    · rw [heq]
      refine ⟨[n.connection s.opened], hperm _, Nat.le_succ _, List.nodup_singleton _,
        fun c hc => ?_⟩
      rw [List.mem_singleton.1 hc]
      exact ⟨Nat.le_refl _, Nat.lt_succ_self _⟩

theorem perm_eraseIdx (held : List Connection) (i : Nat) :
    (held.eraseIdx i ++ held[i]?.toList).Perm held := by
  cases hi : held[i]? with
  | none =>
    rw [Option.toList_none, List.append_nil,
      List.eraseIdx_of_length_le (List.getElem?_eq_none_iff.1 hi)]
  | some c =>
    obtain ⟨hlt, rfl⟩ := List.getElem?_eq_some_iff.1 hi
    exact (List.perm_append_singleton _ _).trans (List.getElem_cons_eraseIdx_perm hlt)

/-- The held connection at place `i`, if the pool does not accept it back with `n`. -/
def refused (isOpen : LinkId → Bool) (i : Nat) (n : Node) (s : Custody) : List Connection :=
  s.held[i]?.toList.filter fun c => ¬s.proxy.idle.Accepts isOpen n c

theorem Sound.passes_recycle (h : s.Sound) (isOpen : LinkId → Bool) (i : Nat) (n : Node) :
    Passes s [] (s.refused isOpen i n) (s.recycle isOpen i n) := by
  have hheld := perm_eraseIdx s.held i
  unfold recycle refused
  cases hi : s.held[i]? with
  | none =>
    exact ⟨by rw [Option.toList_none, List.filter_nil], Nat.le_refl _, .nil, List.forall_mem_nil _⟩
  | some c =>
    refine ⟨?_, Nat.le_refl _, .nil, List.forall_mem_nil _⟩
    have hidle := h.tidy.perm_recycle isOpen n c
    rw [hi] at hheld
    rw [List.perm_iff_count] at hidle hheld ⊢
    intro c'
    have hidle := hidle c'
    have hheld := hheld c'
    simp only [owned, List.count_append, Option.toList_some, List.count_nil] at hidle hheld ⊢
    by_cases haccepts : s.proxy.idle.Accepts isOpen n c
    · rw [if_pos haccepts] at hidle
      rw [List.filter_cons_of_neg (by simp [haccepts]), List.filter_nil, List.count_nil]
      omega
    · rw [if_neg haccepts, List.count_nil] at hidle
      rw [List.filter_cons_of_pos (by simp [haccepts]), List.filter_nil]
      omega

theorem passes_drop (s : Custody) (i : Nat) : Passes s [] s.held[i]?.toList (s.drop i) where
  perm := by
    rw [List.append_nil, owned, owned, drop, List.append_assoc]
    exact (perm_eraseIdx s.held i).append_left _
  opened_le := Nat.le_refl _
  new_nodup := .nil
  new_bounds := List.forall_mem_nil _

theorem Sound.passes_close (h : s.Sound) (id : Nat) :
    Passes s [] (s.proxy.idle.waitingFor id) (s.close id).2 where
  perm := by
    have herase := h.tidy.perm_erase id
    rw [List.perm_iff_count] at herase ⊢
    intro c
    have herase := herase c
    simp only [owned, close, IdlePool.close, List.count_append, List.count_nil] at herase ⊢
    omega
  opened_le := Nat.le_refl _
  new_nodup := .nil
  new_bounds := List.forall_mem_nil _

theorem passes_closeAll (s : Custody) : Passes s [] s.proxy.idle.waiting s.closeAll.2 where
  perm := by
    rw [List.append_nil]
    exact List.perm_append_comm
  opened_le := Nat.le_refl _
  new_nodup := .nil
  new_bounds := List.forall_mem_nil _

/-! ### Step by step -/

theorem proxy_checkout (s : Custody) (isOpen : LinkId → Bool) (n : Node) (obstacle : Obstacle) :
    (s.checkout isOpen n obstacle).2.proxy = s.taken isOpen n := by
  cases hlongest : s.longest? isOpen n.id with
  | some c => rw [checkout_of_longest? hlongest]
  | none =>
    rcases checkout_of_longest?_eq_none hlongest obstacle
      with ⟨e, -, heq⟩ | ⟨e, -, heq⟩ | ⟨-, heq⟩ <;> rw [heq]

theorem idle_recycle (hc : s.held[i]? = some c) (isOpen : LinkId → Bool) (n : Node) :
    (s.recycle isOpen i n).proxy.idle = s.proxy.idle.recycle isOpen n c := by
  rw [recycle, hc]

/-- Every action `Passes` from one state to the next, and leaves the queues tidy. -/
theorem Sound.passes_perform (h : s.Sound) (a : TimedAction) :
    ∃ new gone, Passes s new gone (s.perform a) ∧ (s.perform a).proxy.idle.Tidy := by
  obtain ⟨isOpen, action⟩ := a
  cases action with
  | checkout n obstacle =>
    obtain ⟨new, hp⟩ := h.passes_checkout isOpen n obstacle
    refine ⟨new, _, hp, ?_⟩
    show (s.checkout isOpen n obstacle).2.proxy.idle.Tidy
    rw [proxy_checkout]
    exact h.tidy.take isOpen n
  | recycle i n =>
    refine ⟨[], _, h.passes_recycle isOpen i n, ?_⟩
    show (s.recycle isOpen i n).proxy.idle.Tidy
    cases hc : s.held[i]? with
    | none =>
      rw [recycle, hc]
      exact h.tidy
    | some c =>
      rw [idle_recycle hc]
      exact h.tidy.recycle isOpen n c
  | drop i => exact ⟨[], _, passes_drop s i, h.tidy⟩
  | close id => exact ⟨[], _, h.passes_close id, h.tidy.erase id⟩
  | closeAll => exact ⟨[], _, passes_closeAll s, IdlePool.tidy_empty⟩

theorem Sound.perform (h : s.Sound) (a : TimedAction) : (s.perform a).Sound :=
  have ⟨_, _, hp, htidy⟩ := h.passes_perform a
  h.of_passes hp htidy

theorem Sound.run (h : s.Sound) (actions : List TimedAction) : (s.run actions).Sound := by
  induction actions generalizing s with
  | nil => exact h
  | cons a actions ih => exact ih (h.perform a)

theorem Sound.opened_le_run (h : s.Sound) (actions : List TimedAction) :
    s.opened ≤ (s.run actions).opened := by
  induction actions generalizing s with
  | nil => exact Nat.le_refl _
  | cons a actions ih =>
    obtain ⟨_, _, hp, -⟩ := h.passes_perform a
    exact Nat.le_trans hp.opened_le (ih (h.perform a))

/-- A closed link stays closed, whatever `actions` follow. -/
theorem Sound.mem_closed_run (h : s.Sound) (hlink : link ∈ s.closed) (actions : List TimedAction) :
    link ∈ (s.run actions).closed := by
  induction actions generalizing s with
  | nil => exact hlink
  | cons a actions ih =>
    obtain ⟨_, _, hp, -⟩ := h.passes_perform a
    exact ih (h.perform a) ((h.mem_closed_of_passes hp (mem_closed_iff.1 hlink).1).2 (.inl hlink))

theorem run_append (s : Custody) (before after : List TimedAction) :
    s.run (before ++ after) = (s.run before).run after :=
  List.foldl_append

/-- In a fading run, a link that is not open at `a` is not open at any `a'` after it. -/
theorem Fading.isOpen_eq_false {before after : List TimedAction} {a : TimedAction}
    (h : Fading s (before ++ a :: after))
    (hlt : link < (s.run before).opened) (hlink : a.isOpen link = false)
    {a' : TimedAction} (ha' : a' ∈ after) :
    a'.isOpen link = false := by
  induction before generalizing s with
  | nil => exact h.1 link hlt hlink a' ha'
  | cons _ before ih => exact ih h.2 hlt

/-! ### What is asked for -/

theorem checkout_eq_ok_true_iff :
    (s.checkout isOpen n obstacle).1 = .ok (c, true) ↔ s.longest? isOpen n.id = some c := by
  cases hlongest : s.longest? isOpen n.id with
  | some c' => simp [checkout_of_longest? hlongest]
  | none =>
    rcases checkout_of_longest?_eq_none hlongest obstacle
      with ⟨e, -, heq⟩ | ⟨e, -, heq⟩ | ⟨-, heq⟩ <;> simp [heq]

theorem attempts_checkout (s : Custody) (isOpen : LinkId → Bool) (n : Node) (obstacle : Obstacle) :
    (s.checkout isOpen n obstacle).2.attempts =
      if s.longest? isOpen n.id = none then s.attempts + 1 else s.attempts := by
  cases hlongest : s.longest? isOpen n.id with
  | some c' => simp [checkout_of_longest? hlongest]
  | none =>
    rcases checkout_of_longest?_eq_none hlongest obstacle
      with ⟨e, -, heq⟩ | ⟨e, -, heq⟩ | ⟨-, heq⟩ <;> simp [heq]

theorem checkout_eq_ok_false (h : (s.checkout isOpen n obstacle).1 = .ok (c, false)) :
    c = n.connection s.opened := by
  cases hlongest : s.longest? isOpen n.id with
  | some c' => simp [checkout_of_longest? hlongest] at h
  | none =>
    rcases checkout_of_longest?_eq_none hlongest obstacle
      with ⟨e, -, heq⟩ | ⟨e, -, heq⟩ | ⟨-, heq⟩ <;>
      simp [heq] at h
    exact h.symm

theorem isOpen_of_longest? (h : s.longest? isOpen id = some c) : isOpen c.link = true :=
  List.find?_some (p := fun c : Connection => isOpen c.link) h

/-- A connection that `checkout` gives is not a closed one. -/
theorem not_mem_closed_of_checkout {reused : Bool}
    (hgot : (s.checkout isOpen n obstacle).1 = .ok (c, reused)) : c.link ∉ s.closed := by
  rw [mem_closed_iff]
  rintro ⟨hlt, hnone⟩
  cases reused with
  | true =>
    have hwaits := List.mem_of_find?_eq_some (checkout_eq_ok_true_iff.1 hgot)
    have hmem := IdlePool.mem_waiting_iff.2 ⟨_, IdlePool.waits_of_mem_getD hwaits⟩
    exact hnone c (List.mem_append_left _ hmem) rfl
  | false =>
    rw [checkout_eq_ok_false hgot] at hlt
    exact Nat.lt_irrefl _ hlt

/-- Connections are conserved.  After any `actions` from `start p`, each link below `opened` has one
place: it waits in the queue of its own node, somebody holds it, or it is `closed`.  From there,
`checkout` gives the open connection that has waited longest and closes the `spent` ones, or tries
once to open another; `recycle` puts the connection back or closes it; `drop` closes one; `close`
and `closeAll` answer how many they close.  No closed link is ever handed out again. -/
theorem run_conserves (p : Proxy) (actions : List TimedAction) :
    let s := (start p).run actions
    ((s.owned.map Connection.link ++ s.closed).Perm (List.range s.opened) ∧
      (s.proxy.idle.queues.map Prod.fst).Nodup ∧ ∀ id c, s.proxy.idle.Waits id c → c.nodeId = id) ∧
    -- who asks for a connection gets the open one that has waited longest, and those in front of it
    -- are closed
    (∀ isOpen n obstacle,
      let answer := (s.checkout isOpen n obstacle).1
      let s' := (s.checkout isOpen n obstacle).2
      (∀ c, answer = .ok (c, true) ↔ s.longest? isOpen n.id = some c) ∧
      (∀ c, answer = .ok (c, false) → c = n.connection s.opened) ∧
      s'.attempts = (if s.longest? isOpen n.id = none then s.attempts + 1 else s.attempts) ∧
      (∀ id, s'.proxy.idle.waitingFor id =
        if id = n.id then ((s.proxy.idle.waitingFor id).dropWhile fun c => !isOpen c.link).tail
        else s.proxy.idle.waitingFor id) ∧
      ∀ link < s.opened, link ∈ s'.closed ↔ link ∈ s.closed ∨ ∃ c ∈ s.spent isOpen n.id,
        c.link = link) ∧
    -- a closed connection stays closed and nobody gets it, nor one that was noticed not to be open
    (∀ link ∈ s.closed, ∀ later, link ∈ (s.run later).closed) ∧
    (∀ isOpen n obstacle c reused, (s.checkout isOpen n obstacle).1 = .ok (c, reused) →
      c.link ∉ s.closed ∧
      ∀ before a after, actions = before ++ a :: after → c.link < ((start p).run before).opened →
        Fading (start p) (actions ++ [⟨isOpen, .checkout n obstacle⟩]) → a.isOpen c.link = true) ∧
    -- a connection that is given back waits behind the others in the queue of its node, or it is
    -- closed
    (∀ isOpen i n c, s.held[i]? = some c →
      (∀ id, (s.recycle isOpen i n).proxy.idle.waitingFor id =
        if id = c.nodeId ∧ s.proxy.idle.Accepts isOpen n c then s.proxy.idle.waitingFor id ++ [c]
        else s.proxy.idle.waitingFor id) ∧
      ∀ link < s.opened, link ∈ (s.recycle isOpen i n).closed ↔
        link ∈ s.closed ∨ link = c.link ∧ ¬s.proxy.idle.Accepts isOpen n c) ∧
    (∀ i c, s.held[i]? = some c → ∀ link < s.opened, link ∈ (s.drop i).closed ↔
      link ∈ s.closed ∨ link = c.link) ∧
    -- the answer when queues are dropped is how many connections are closed
    (∀ id,
      let s' := (s.close id).2
      s'.closed.length = s.closed.length + (s.close id).1 ∧ s'.proxy.idle.idleCount id = 0 ∧
      (∀ id' ≠ id, s'.proxy.idle.waitingFor id' = s.proxy.idle.waitingFor id') ∧
      ∀ link < s.opened, link ∈ s'.closed ↔ link ∈ s.closed ∨ ∃ c ∈ s.proxy.idle.waitingFor id,
        c.link = link) ∧
    let s' := s.closeAll.2
    s'.closed.length = s.closed.length + s.closeAll.1 ∧ s'.proxy.idle.totalIdle = 0 ∧
      ∀ link < s.opened, link ∈ s'.closed ↔ link ∈ s.closed ∨ ∃ c ∈ s.proxy.idle.waiting,
        c.link = link := by
  intro s
  have h : s.Sound := (sound_start p).run actions
  refine ⟨⟨h.perm_range, h.tidy.ids_nodup, h.tidy.nodeId_eq⟩, ?_,
    fun link hlink later => h.mem_closed_run hlink later,
    ?_, ?_, ?_, ?_, ?_⟩
  · intro isOpen n obstacle
    obtain ⟨new, hp⟩ := h.passes_checkout isOpen n obstacle
    refine ⟨fun c => checkout_eq_ok_true_iff, fun c => checkout_eq_ok_false,
      attempts_checkout .., fun id => ?_,
      fun link hlt => ?_⟩
    · rw [proxy_checkout, taken, IdlePool.take_eq, IdlePool.waitingFor_setQueue]
      split
      · rename_i hid
        rw [hid]
      · rfl
    · rw [h.mem_closed_of_passes hp hlt, List.mem_map]
  · intro isOpen n obstacle c reused hgot
    refine ⟨not_mem_closed_of_checkout hgot, ?_⟩
    rintro before a after rfl hlt hfading
    rw [List.append_assoc, List.cons_append] at hfading
    by_contra hclosed
    have hnow := hfading.isOpen_eq_false hlt (Bool.eq_false_iff.2 hclosed)
      (List.mem_append_right _ (List.mem_singleton.2 rfl))
    cases reused with
    | true => exact Bool.eq_false_iff.1 hnow (isOpen_of_longest? (checkout_eq_ok_true_iff.1 hgot))
    | false =>
      have hle := ((sound_start p).run before).opened_le_run (a :: after)
      rw [← run_append] at hle
      rw [checkout_eq_ok_false hgot] at hlt
      exact Nat.lt_irrefl _ (Nat.lt_of_lt_of_le hlt hle)
  · intro isOpen i n c hc
    refine ⟨fun id => ?_, fun link hlt => ?_⟩
    · rw [idle_recycle hc, IdlePool.waitingFor_recycle]
    · rw [h.mem_closed_of_passes (h.passes_recycle isOpen i n) hlt, refused, hc]
      by_cases haccepts : s.proxy.idle.Accepts isOpen n c
      · simp [haccepts]
      · simp [haccepts]
  · intro i c hc link hlt
    rw [h.mem_closed_of_passes (passes_drop s i) hlt, hc, Option.toList_some,
      List.map_singleton, List.mem_singleton]
  · intro id
    have hp := h.passes_close id
    refine ⟨h.length_closed hp (h.tidy.erase id) rfl, ?_, fun id' hne => ?_, fun link hlt => ?_⟩
    · exact congrArg List.length ((IdlePool.waitingFor_erase s.proxy.idle id id).trans (if_pos rfl))
    · exact (IdlePool.waitingFor_erase s.proxy.idle id id').trans (if_neg hne)
    · rw [h.mem_closed_of_passes hp hlt, List.mem_map]
  · have hp := passes_closeAll s
    refine ⟨?_, rfl, fun link hlt => ?_⟩
    · rw [h.length_closed hp IdlePool.tidy_empty rfl, ← IdlePool.totalIdle_eq]
      rfl
    · rw [h.mem_closed_of_passes hp hlt, List.mem_map]

/-- A proxy to which nothing belongs. -/
def bareProxy : Proxy := { registry := {}, buffers := { bufferSize := 1 } }

/-- The node that connections go to. -/
def soleNode : Node := { id := 1, record := { route := "a", host := "h", port := 1 } }

/-- The actions that open two connections and give them back. -/
def twoConnections : List TimedAction :=
  [⟨fun _ => true, .checkout soleNode {}⟩, ⟨fun _ => true, .checkout soleNode {}⟩,
    ⟨fun _ => true, .recycle 0 soleNode⟩, ⟨fun _ => true, .recycle 0 soleNode⟩]

/-- With the first of `twoConnections` no longer open, the next `checkout` closes it and gives the
second. -/
theorem run_conserves_twoConnections :
    let s := (start bareProxy).run twoConnections
    let isOpen : LinkId → Bool := fun link => link != 0
    (s.owned.map Connection.link ++ s.closed).Perm (List.range 2) ∧
      (s.checkout isOpen soleNode {}).1 = .ok (soleNode.connection 1, true) ∧
      Fading (start bareProxy) (twoConnections ++ [⟨isOpen, .checkout soleNode {}⟩]) ∧
      (∀ a, twoConnections[2]? = some a → a.isOpen 1 = true) ∧
      0 ∈ (s.checkout isOpen soleNode {}).2.closed ∧ 1 ∉ s.closed ∧
      (s.close 1).2.closed.length = 2 := by
  intro s isOpen
  obtain ⟨⟨hplaces, -⟩, hcheckout, -, hgot, -, -, hclose, -⟩ :=
    run_conserves bareProxy twoConnections
  obtain ⟨hlongest, -, -, -, hclosed⟩ := hcheckout isOpen soleNode {}
  have hopened : s.opened = 2 := by decide +kernel
  have hwaits : s.longest? isOpen 1 = some (soleNode.connection 1) := by decide +kernel
  have hspent : soleNode.connection 0 ∈ s.spent isOpen 1 := by decide +kernel
  have hok := (hlongest _).2 hwaits
  obtain ⟨hnot, hstayed⟩ := hgot isOpen soleNode {} _ true hok
  have hfading :
      Fading (start bareProxy) (twoConnections ++ [⟨isOpen, .checkout soleNode {}⟩]) := by
    simp [Fading, twoConnections, perform]
  refine ⟨hopened ▸ hplaces, hok, hfading, ?_, (hclosed 0 ?_).2 (.inr ⟨_, hspent, rfl⟩), hnot, ?_⟩
  · intro a ha
    obtain rfl : _ = a := Option.some.inj ha
    exact hstayed (twoConnections.take 2) _ (twoConnections.drop 3) rfl (by decide +kernel) hfading
  · show 0 < s.opened
    rw [hopened]
    exact Nat.zero_lt_two
  · rw [(hclose 1).1]
    decide +kernel

end Custody

end ReverseProxy.Relay
