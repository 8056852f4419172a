import ReverseProxy.Proofs.Message.HeadLines
import ReverseProxy.Proofs.Message.HeadPieces

/-!
# What a response says of its body and of its connection

A `ResponseParser` takes notice of what the headers say of the body and of the connection when it
meets them, and does not look at them again.  That this is as good as to look for it in all of the
headers is an invariant of the reader (`ResponseParser.Heedful`).  What it comes to at the end of a
head is `Heedful.chunked_eq` and `Heedful.contentLength_eq` for the body, and `Heedful.keepAlive_iff`
for the connection.
-/

namespace ReverseProxy.Message

namespace Header

variable {headers : List Header} {h : Header} {option : String}

theorem hasConnectionOption_append (a b : List Header) (option : String) :
    hasConnectionOption (a ++ b) option =
      (hasConnectionOption a option || hasConnectionOption b option) := by
  simp only [hasConnectionOption, connectionOptions, List.filter_append,
    List.flatMap_append, List.any_append]

theorem hasConnectionOption_cons (h : Header) (headers : List Header) (option : String) :
    hasConnectionOption (h :: headers) option =
      (hasConnectionOption [h] option || hasConnectionOption headers option) :=
  hasConnectionOption_append [h] headers option

/-- A header of another name than `Connection` lists no options. -/
theorem hasConnectionOption_of_ne (hname : h.name ≠ "connection") :
    hasConnectionOption [h] option = false := by
  simp [hasConnectionOption, connectionOptions, hname]

/-- The order of the headers makes no difference. -/
theorem hasConnectionOption_reverse (headers : List Header) (option : String) :
    hasConnectionOption headers.reverse option = hasConnectionOption headers option := by
  induction headers with
  | nil => rfl
  | cons h headers ih =>
    rw [List.reverse_cons, hasConnectionOption_append, ih, hasConnectionOption_cons h headers,
      Bool.or_comm]

end Header

namespace ResponseParser

open HeadLines

/-- The reader has taken notice of what its headers say of the body and of the connection.  Of
several lengths the one announced last counts, the first in `p.headers`. -/
structure Heedful (p : ResponseParser) : Prop where
  chunked : p.chunked = p.headers.any announcesChunks
  contentLength : p.contentLength = p.headers.findSome? announcedLength?
  close : p.connectionClose = Header.hasConnectionOption p.headers "close"
  keepAlive : p.connectionKeepAlive = Header.hasConnectionOption p.headers "keep-alive"

variable {p q : ResponseParser}

theorem Heedful.of_untouched (h : p.Heedful) (hq : Untouched p q) : q.Heedful where
  chunked := by rw [hq.chunked, hq.headers, h.chunked]
  contentLength := by rw [hq.contentLength, hq.headers, h.contentLength]
  close := by rw [hq.connectionClose, hq.headers, h.close]
  keepAlive := by rw [hq.connectionKeepAlive, hq.headers, h.keepAlive]

/-- To count octets makes no difference. -/
theorem Heedful.tick (h : p.Heedful) : p.tick.Heedful :=
  ⟨h.chunked, h.contentLength, h.close, h.keepAlive⟩

theorem Heedful.finish (h : p.Heedful) : p.finish.Heedful :=
  ⟨h.chunked, h.contentLength, h.close, h.keepAlive⟩

theorem heedful_new (limit : Nat) : (new limit).Heedful := ⟨rfl, rfl, rfl, rfl⟩

/-- The reader takes notice of a header that announces chunks. -/
theorem chunked_heed (p : ResponseParser) (h : Header) :
    (p.heed h).chunked = (announcesChunks h || p.chunked) := by
  unfold heed announcesChunks
  by_cases hname : h.name = "transfer-encoding"
  · rw [if_pos hname, hname, beq_self_eq_true, Bool.true_and, Bool.or_comm]
  · rw [if_neg hname, beq_false_of_ne hname, Bool.false_and, Bool.false_or]
    split
    · rfl
    split <;> rfl

/-- The reader takes notice of a header that announces a length, in place of one before it. -/
theorem contentLength_heed (p : ResponseParser) (h : Header) :
    (p.heed h).contentLength = (announcedLength? h).or p.contentLength := by
  unfold heed announcedLength?
  by_cases hname : h.name = "content-length"
  · rw [if_neg (by rw [hname]; decide), if_pos hname, if_pos hname]
  · rw [if_neg hname, if_neg hname, Option.none_or]
    split
    · rfl
    split <;> rfl

/-- The reader takes notice of any header as far as `hasConnectionOption` finds options in it. -/
theorem connection_heed (p : ResponseParser) (h : Header) :
    (p.heed h).connectionClose = (Header.hasConnectionOption [h] "close" || p.connectionClose) ∧
      (p.heed h).connectionKeepAlive =
        (Header.hasConnectionOption [h] "keep-alive" || p.connectionKeepAlive) := by
  by_cases hname : h.name = "connection"
  · rw [Bool.or_comm, Bool.or_comm (Header.hasConnectionOption [h] "keep-alive")]
    unfold heed
    rw [if_neg (by rw [hname]; decide), if_neg (by rw [hname]; decide), if_pos hname]
    exact ⟨rfl, rfl⟩
  · rw [Header.hasConnectionOption_of_ne hname, Header.hasConnectionOption_of_ne hname,
      Bool.false_or, Bool.false_or]
    unfold heed
    rw [if_neg hname]
    split
    · exact ⟨rfl, rfl⟩
    split <;> exact ⟨rfl, rfl⟩

theorem Heedful.register (h : p.Heedful) : p.register.Heedful := by
  rw [register_eq]
  generalize p.pending = header
  split
  · exact ⟨h.chunked, h.contentLength, h.close, h.keepAlive⟩
  · obtain ⟨hclose, hkeep⟩ := connection_heed { p with name := [], value := [] } header
    constructor
    · rw [List.any_cons, ← h.chunked]
      exact chunked_heed { p with name := [], value := [] } header
    · have hheed := contentLength_heed { p with name := [], value := [] } header
      rw [List.findSome?_cons, ← h.contentLength]
      cases hlength : announcedLength? header with
      | none => rwa [hlength, Option.none_or] at hheed
      | some n => rwa [hlength, Option.some_or] at hheed
    · rw [Header.hasConnectionOption_cons, ← h.close]
      exact hclose
    · rw [Header.hasConnectionOption_cons, ← h.keepAlive]
      exact hkeep

theorem Heedful.step (h : p.Heedful) (b : UInt8) : (p.step b).1.Heedful := by
  obtain hline | huntouched := step_cases p b
  · rw [hline]
    exact h.register.of_untouched (untouched_endHeaderLine _ b)
  · exact h.of_untouched huntouched

theorem Heedful.feedFrom (h : p.Heedful) (seen : Nat) (bs : Bytes) :
    (p.feedFrom seen bs).2.Heedful :=
  feedFrom_induction (fun _ b h => h.step b) (fun _ h => h.tick) (fun _ h => h.finish) h seen bs

theorem Heedful.feed (h : p.Heedful) (bs : Bytes) : (p.feed bs).2.Heedful := by
  unfold ResponseParser.feed
  split
  · exact h
  · exact h.feedFrom 0 bs

/-- A `Heedful` reader expects a chunked body if a header of the head announces one. -/
theorem Heedful.chunked_eq (h : p.Heedful) : p.chunked = p.head.headers.any announcesChunks :=
  h.chunked.trans List.any_reverse.symm

/-- A `Heedful` reader expects a body of the length that the head announces last. -/
theorem Heedful.contentLength_eq (h : p.Heedful) :
    p.contentLength = p.head.headers.reverse.findSome? announcedLength? := by
  rw [h.contentLength]
  exact congrArg (List.findSome? announcedLength?) p.headers.reverse_reverse.symm

/-- A `Heedful` reader finds that another request can be sent if the head does not list `close`, and
lists `keep-alive` where its protocol needs that. -/
theorem Heedful.keepAlive_iff (h : p.Heedful) :
    p.keepAlive = true ↔ Header.hasConnectionOption p.head.headers "close" = false ∧
      (Text.eqIgnoreCase p.head.protocol "HTTP/1.0" = true →
        Header.hasConnectionOption p.head.headers "keep-alive" = true) := by
  have hclose : Header.hasConnectionOption p.head.headers "close" = p.connectionClose :=
    (Header.hasConnectionOption_reverse _ _).trans h.close.symm
  have hkeep : Header.hasConnectionOption p.head.headers "keep-alive" = p.connectionKeepAlive :=
    (Header.hasConnectionOption_reverse _ _).trans h.keepAlive.symm
  have hprotocol : p.head.protocol = p.protocol := rfl
  rw [hclose, hkeep, hprotocol, ResponseParser.keepAlive]
  cases p.connectionClose with
  | true => simp
  | false =>
    by_cases ht : Text.eqIgnoreCase p.protocol "HTTP/1.0" = true
    · simp [ht]
    · simp [ht]

end ResponseParser

end ReverseProxy.Message
