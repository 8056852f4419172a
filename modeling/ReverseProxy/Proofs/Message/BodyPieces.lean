import ReverseProxy.Message.Body
import ReverseProxy.Proofs.Message.ChunkedEnd

/-!
# A body in pieces

`BodyTracker` finds the end of a body whichever way the body is delimited.  Two pieces are read as
one (`BodyTracker.advance_continues`), and what is read up to the end is a body of the kind that was
announced (`BodyTracker.isBody_of_advance`).  Before the end is found, what has been read is the
beginning of a body (`Framing.Begins`), and does not go beyond it (`Framing.Begins.prefix_body`).
-/

namespace ReverseProxy.Message

/-- The octets `body` are a body as the framing delimits it. -/
def Framing.IsBody : Framing → Bytes → Prop
  | .empty, body => body = []
  | .contentLength n, body => body.length = n
  | .chunked, body => ChunkedBody body
  | .untilClose, _ => True

namespace BodyTracker

open Pieces

/-- A body of `n` octets ends where they are all there. -/
theorem advance_remaining_of_le {n : Nat} {bs : Bytes} (h : n ≤ bs.length) :
    (remaining n).advance bs = (.ok (some n), .remaining 0) := if_pos h

/-- Of a body of `n` octets the rest is still to come if there are fewer. -/
theorem advance_remaining_of_lt {n : Nat} {bs : Bytes} (h : bs.length < n) :
    (remaining n).advance bs = (.ok none, .remaining (n - bs.length)) := if_neg (Nat.not_le.2 h)

/-- Two pieces of a body are read as one. -/
theorem advance_continues : Continues advance := by
  intro t a c
  cases t with
  | empty => rfl
  | unbounded => rfl
  | chunked t =>
    simp only [advance, ChunkTracker.observe_continues t a c]
    rcases t.observe a with ⟨e | _ | n, t'⟩
    · rfl
    · rcases h : t'.observe c with ⟨e | _ | n, t''⟩ <;> simp [h]
    · rfl
  | remaining n =>
    rcases Nat.lt_or_ge a.length n with ha | ha
    · rw [advance_remaining_of_lt ha, andThen_none]
      rcases Nat.lt_or_ge (a.length + c.length) n with hc | hc
      · rw [advance_remaining_of_lt (by simpa using hc),
          advance_remaining_of_lt (by omega), later_none, List.length_append, Nat.sub_sub]
      · rw [advance_remaining_of_le (by simpa using hc),
          advance_remaining_of_le (by omega), later_some, Nat.add_sub_cancel' (Nat.le_of_lt ha)]
    · rw [advance_remaining_of_le ha, advance_remaining_of_le (by simp; omega), andThen_some]

/-- The end of a body is within the octets `bs` that were read. -/
theorem le_length_of_advance {n : Nat} {t t' : BodyTracker} {bs : Bytes}
    (h : t.advance bs = (.ok (some n), t')) :
    n ≤ bs.length := by
  cases t with
  | empty => cases h; exact Nat.zero_le _
  | unbounded => cases h
  | chunked t =>
    obtain ⟨ha, -⟩ := Prod.mk.inj h
    have hl := (ChunkTracker.le_length_of_observeFrom (Prod.ext ha rfl)).2
    rwa [Nat.zero_add] at hl
  | remaining m =>
    rcases Nat.lt_or_ge bs.length m with hm | hm
    · rw [advance_remaining_of_lt hm] at h
      cases h
    · rw [advance_remaining_of_le hm] at h
      cases h
      exact hm

/-- If the end of the body is in `a`, no `b` after it moves it. -/
theorem advance_append_of_end {n : Nat} {t : BodyTracker} {a : Bytes}
    (h : (t.advance a).1 = .ok (some n)) (b : Bytes) : (t.advance (a ++ b)).1 = .ok (some n) := by
  rw [advance_continues, ← Prod.eta (t.advance a), h]
  rfl

/-- What is read up to the end that `advance` finds is a body of the framing. -/
theorem isBody_of_advance {n : Nat} {framing : Framing} {t : BodyTracker} {bs : Bytes}
    (h : (ofFraming framing).advance bs = (.ok (some n), t)) : framing.IsBody (bs.take n) := by
  cases framing with
  | empty => cases h; rfl
  | untilClose => cases h
  | chunked =>
    obtain ⟨ha, -⟩ := Prod.mk.inj h
    exact ChunkTracker.chunkedBody_of_observe (Prod.ext ha rfl)
  | contentLength m =>
    rcases Nat.lt_or_ge bs.length m with hm | hm
    · rw [ofFraming, advance_remaining_of_lt hm] at h
      cases h
    · rw [ofFraming, advance_remaining_of_le hm] at h
      cases h
      exact List.length_take_of_le hm

theorem isBody_of_end {framing : Framing} {bs : Bytes}
    (h : ((ofFraming framing).advance bs).1 = .ok (some bs.length)) : framing.IsBody bs := by
  have hbody := isBody_of_advance (Prod.ext h rfl)
  rwa [List.take_length] at hbody

/-- The end of a `body` is found, whatever `rest` comes after it. -/
theorem advance_of_isBody {framing : Framing} {body : Bytes} (hf : framing.isDelimited = true)
    (h : framing.IsBody body) (rest : Bytes) :
    ((ofFraming framing).advance (body ++ rest)).1 = .ok (some body.length) := by
  cases framing with
  | empty =>
    obtain rfl : body = [] := h
    rfl
  | contentLength n =>
    have hle : n ≤ (body ++ rest).length :=
      by rw [List.length_append, h]; exact Nat.le_add_right _ _
    rw [ofFraming, advance_remaining_of_le hle, h]
  | chunked =>
    obtain ⟨t, ht⟩ := ChunkTracker.observe_chunkedBody h rest
    exact congrArg Prod.fst ht
  | untilClose => cases hf

/-- The octets up to the end of a body are enough to find it. -/
theorem advance_take {n : Nat} {framing : Framing} {t : BodyTracker} {bs : Bytes}
    (h : (ofFraming framing).advance bs = (.ok (some n), t)) :
    ((ofFraming framing).advance (bs.take n)).1 = .ok (some n) := by
  have hf : framing.isDelimited = true := by
    cases framing with
    | untilClose => cases h
    | empty | contentLength | chunked => rfl
  have hbody := advance_of_isBody hf (isBody_of_advance h) []
  rwa [List.append_nil, List.length_take_of_le (le_length_of_advance h)] at hbody

end BodyTracker

/-! ### Beginnings of a body -/

/-- The octets `p` all belong to one body, which ends with them or goes on. -/
def Framing.Begins (framing : Framing) (p : Bytes) : Prop :=
  ((BodyTracker.ofFraming framing).advance p).1 = .ok none ∨
    ((BodyTracker.ofFraming framing).advance p).1 = .ok (some p.length)

namespace Framing

open BodyTracker Pieces

variable {framing : Framing} {p q s body : Bytes}

theorem begins_nil (framing : Framing) : framing.Begins [] := by
  cases framing with
  | empty => exact .inr rfl
  | contentLength n =>
    cases n with
    | zero => exact .inr rfl
    | succ n => exact .inl rfl
  | chunked => exact .inl (congrArg Prod.fst ChunkTracker.waits_new)
  | untilClose => exact .inl rfl

/-- A prefix of octets that begin a body begins one. -/
theorem Begins.of_prefix (h : framing.Begins p) (hq : q <+: p) : framing.Begins q := by
  obtain ⟨x, rfl⟩ := hq
  rcases hadvance : (ofFraming framing).advance q with ⟨e | _ | n, t⟩
  · rw [Begins, advance_continues, hadvance, andThen_error] at h
    rcases h with h | h <;> cases h
  · exact .inl (congrArg Prod.fst hadvance)
  · have hn : n ≤ q.length := le_length_of_advance hadvance
    rw [Begins, advance_continues, hadvance, andThen_some] at h
    rcases h with h | h
    · cases h
    · have hlen : n = (q ++ x).length := Option.some.inj (Except.ok.inj h)
      rw [List.length_append] at hlen
      have hq : n = q.length := by omega
      exact .inr (hq ▸ congrArg Prod.fst hadvance)

/-- If `p` begins a body, it does not go beyond the end of `body`. -/
theorem Begins.prefix_body (hp : framing.Begins p) (hf : framing.isDelimited = true)
    (hbody : framing.IsBody body) (hps : p <+: s) (hbs : body <+: s) : p <+: body := by
  obtain h | ⟨x, rfl⟩ := List.prefix_or_prefix_of_prefix hps hbs
  · exact h
  · rw [Begins, advance_of_isBody hf hbody] at hp
    rcases hp with hp | hp
    · cases hp
    · have hlen : body.length = (body ++ x).length := Option.some.inj (Except.ok.inj hp)
      rw [List.length_append] at hlen
      obtain rfl := List.eq_nil_of_length_eq_zero (l := x) (by omega)
      exact ⟨[], by rw [List.append_nil, List.append_nil]⟩

end Framing

end ReverseProxy.Message
