import ReverseProxy.Message.Defect
import ReverseProxy.Text.Bytes

/-!
# Reading in pieces

The readers of a response head, of a chunked body and of a body in general all have the same shape:
they are given the octets in the pieces in which these arrive, and answer for each piece whether
what they look for ends in it, and after how many octets.  Where the pieces are cut must not matter.
`Continues` says so for one cut: to read two pieces one after the other is to read them as one.
`readPieces_eq_read_flatten` says so for any number of cuts.
-/

namespace ReverseProxy.Message.Pieces

variable {σ : Type}

/-- What a reader answers for a piece, and the reader after it: the number of octets up to the end,
nothing if more octets are needed, or a defect. -/
abbrev Answer (σ : Type) := Except Defect (Option Nat) × σ

/-- An answer for octets that come after `n` others, told from the beginning of those. -/
def later (n : Nat) : Answer σ → Answer σ
  | (.ok (some m), s) => (.ok (some (n + m)), s)
  | r => r

/-- Goes on with what comes after `n` octets, if these were not enough. -/
def andThen (r : Answer σ) (n : Nat) (k : σ → Answer σ) : Answer σ :=
  match r with
  | (.ok none, s) => later n (k s)
  | r => r

@[simp] theorem later_none (n : Nat) (s : σ) : later n (.ok none, s) = (.ok none, s) := rfl
@[simp] theorem later_some (n m : Nat) (s : σ) :
    later n (.ok (some m), s) = (.ok (some (n + m)), s) := rfl
@[simp] theorem later_error (n : Nat) (e : Defect) (s : σ) :
    later n (.error e, s) = (.error e, s) := rfl

@[simp] theorem andThen_none (s : σ) (n : Nat) (k : σ → Answer σ) :
    andThen (.ok none, s) n k = later n (k s) := rfl
@[simp] theorem andThen_some (m : Nat) (s : σ) (n : Nat) (k : σ → Answer σ) :
    andThen (.ok (some m), s) n k = (.ok (some m), s) := rfl
@[simp] theorem andThen_error (e : Defect) (s : σ) (n : Nat) (k : σ → Answer σ) :
    andThen (.error e, s) n k = (.error e, s) := rfl

@[simp] theorem later_zero (r : Answer σ) : later 0 r = r := by
  obtain ⟨e | _ | m, s⟩ := r <;> simp

@[simp] theorem later_eq_none {n : Nat} {r : Answer σ} {s : σ} :
    later n r = (.ok none, s) ↔ r = (.ok none, s) := by
  obtain ⟨e | _ | m, s'⟩ := r <;> simp

@[simp] theorem later_eq_error {n : Nat} {r : Answer σ} {e : Defect} {s : σ} :
    later n r = (.error e, s) ↔ r = (.error e, s) := by
  obtain ⟨e' | _ | m, s'⟩ := r <;> simp

/-- Reading `a` and then `b` is reading `a ++ b`. -/
def Continues (read : σ → Bytes → Answer σ) : Prop :=
  ∀ s a b, read s (a ++ b) = andThen (read s a) a.length fun s' => read s' b

/-- The reader `s` needs more octets. -/
def Waits (read : σ → Bytes → Answer σ) (s : σ) : Prop := read s [] = (.ok none, s)

/-- Reads the pieces one by one, up to the first that is answered by more than a wish for the next.
The answer is told from the beginning of the first piece. -/
def readPieces (read : σ → Bytes → Answer σ) (s : σ) : List Bytes → Answer σ
  | [] => (.ok none, s)
  | piece :: pieces => andThen (read s piece) piece.length fun s' => readPieces read s' pieces

/-- A reader that has asked for more octets waits for them. -/
theorem Continues.waits {read : σ → Bytes → Answer σ} (h : Continues read) {s s' : σ} {bs : Bytes}
    (hr : read s bs = (.ok none, s')) : Waits read s' := by
  have hc := h s bs []
  rw [List.append_nil, hr, andThen_none] at hc
  exact later_eq_none.1 hc.symm

/-- However the octets are cut into `pieces`, the answer is that for all of them at once. -/
theorem Continues.readPieces_eq_read_flatten {read : σ → Bytes → Answer σ}
    (h : Continues read) {s : σ} (hs : Waits read s) (pieces : List Bytes) :
    readPieces read s pieces = read s pieces.flatten := by
  induction pieces generalizing s with
  | nil => exact hs.symm
  | cons piece pieces ih =>
    rw [readPieces, List.flatten_cons, h s piece pieces.flatten]
    rcases hr : read s piece with ⟨e | _ | n, s'⟩
    · rfl
    · rw [andThen_none, andThen_none, ih (h.waits hr)]
    · rfl

/-- A reader that may have nothing left to read answers for the `pieces` as for all of them at once,
if there is any piece. -/
theorem Continues.readPieces_cons {read : σ → Bytes → Answer σ} (h : Continues read)
    (s : σ) (piece : Bytes) (pieces : List Bytes) :
    readPieces read s (piece :: pieces) = read s (piece :: pieces).flatten := by
  rw [readPieces, List.flatten_cons, h s piece pieces.flatten]
  rcases hr : read s piece with ⟨e | _ | n, s'⟩
  · rfl
  · rw [andThen_none, andThen_none, h.readPieces_eq_read_flatten (h.waits hr)]
  · rfl

/-- A prefix of octets stops short of `x`, or goes on after it. -/
theorem prefix_or_eq_append_cons {p good rest : Bytes} {x : UInt8} (h : p <+: good ++ x :: rest) :
    p <+: good ∨ ∃ more, p = good ++ x :: more := by
  obtain hshort | ⟨_ | ⟨c, more⟩, rfl⟩ :=
    List.prefix_or_prefix_of_prefix h (List.prefix_append good (x :: rest))
  · exact .inl hshort
  · exact .inl ⟨[], by rw [List.append_nil, List.append_nil]⟩
  · rw [List.prefix_append_right_inj, List.cons_prefix_cons] at h
    exact .inr ⟨more, by rw [h.1]⟩

/-- Octets `bs` that are refused have a first one, `x`, with which they are, whatever comes after
it. -/
theorem Continues.exists_refused {read : σ → Bytes → Answer σ} (h : Continues read)
    {s s' : σ} (hs : Waits read s) {bs : Bytes} {e : Defect} (hr : read s bs = (.error e, s')) :
    ∃ good x rest s₁, bs = good ++ x :: rest ∧ read s good = (.ok none, s₁) ∧
      ∀ more, read s (good ++ x :: more) = (.error e, s') := by
  induction bs generalizing s with
  | nil =>
    rw [hs] at hr
    cases hr
  | cons b rest ih =>
    have hcut :
        ∀ more, read s (b :: more) = andThen (read s [b]) 1 fun s₁ => read s₁ more := h s [b]
    rw [hcut] at hr
    rcases hb : read s [b] with ⟨e' | _ | n, s₁⟩ <;> rw [hb] at hr
    · refine ⟨[], b, rest, s, rfl, hs, fun more => ?_⟩
      rw [List.nil_append, hcut, hb, andThen_error]
      exact hr
    · obtain ⟨good, x, rest', s₂, rfl, hgood, hrefused⟩ := ih (h.waits hb) (later_eq_error.1 hr)
      refine ⟨b :: good, x, rest', s₂, rfl, ?_, fun more => ?_⟩
      · rw [hcut, hb, andThen_none, hgood, later_none]
      · rw [List.cons_append, hcut, hb, andThen_none, hrefused, later_error]
    · cases hr

end ReverseProxy.Message.Pieces
