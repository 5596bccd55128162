import Diameter.Lib.Bytes

/-!
# Wire.Retry

The writes of a serialized message: `writeRetry` and, for a transport with streams,
`writeStreamRetry`. Both offer what is left of the message until a write succeeds, fails for good
or the retries are used up.

`writeRetry_accepted`: whatever the writer does, it has accepted the first bytes of the message, as
many as are returned.
-/

namespace Diameter.Wire

open Lib

/-- An error of a writer; only a `net.Error` can be a timeout. -/
inductive WriteError where
  | net (timeout : Bool)
  | other
deriving DecidableEq, Repr

/-- Whether the write is tried again. -/
def WriteError.retried : WriteError → Bool
  | .net timeout => timeout
  | .other => false

/-- What one write does with the bytes it is offered: it accepts the first few of them. -/
structure WriteOutcome (b : Bytes) where
  count : Fin (b.length + 1)
  err : Option WriteError

/-- A writer by the number of the call, so that it may do something else each time. -/
abbrev Writer := Nat → (b : Bytes) → WriteOutcome b

/-- A writer with streams. -/
abbrev StreamWriter := Nat → (b : Bytes) → Nat → WriteOutcome b

/-- What a sequence of writes returns, and the bytes the writer has accepted in it. -/
structure Written where
  count : Nat
  err : Option WriteError
  accepted : Bytes

/-- What one write leaves if it is the last. -/
def Writer.once (w : Writer) (call : Nat) (b : Bytes) : Written :=
  ⟨(w call b).count, (w call b).err, b.take (w call b).count⟩

/-- The loop of the two functions. -/
def retryLoop (w : Writer) : Nat → Nat → Bytes → Written
  | 0, call, b => w.once call b
  | retries + 1, call, b =>
    let o := w call b
    if o.err.any WriteError.retried then
      let rest := retryLoop w retries (call + 1) (if 0 < o.count.val then b.drop o.count else b)
      ⟨o.count + rest.count, rest.err, b.take o.count ++ rest.accepted⟩
    else w.once call b

def writeRetry (w : Writer) (b : Bytes) (retries : Nat) : Written := retryLoop w retries 0 b

def writeStreamRetry (w : StreamWriter) (b : Bytes) (stream retries : Nat) : Written :=
  retryLoop (fun call b => w call b stream) retries 0 b

/-- A short write has an error, as `io.Writer` asks for. -/
def Writer.ReportsShort (w : Writer) : Prop :=
  ∀ call b, (w call b).count.val < b.length → (w call b).err ≠ none

/-- A sequence of writes of `b`: no gap, no repetition, and no silent loss. -/
structure Written.Of (r : Written) (w : Writer) (b : Bytes) : Prop where
  bound : r.count ≤ b.length
  accepted : r.accepted = b.take r.count
  complete : w.ReportsShort → r.err = none → r.count = b.length

theorem Writer.once_of (w : Writer) (call : Nat) (b : Bytes) : (w.once call b).Of w b where
  bound := Nat.le_of_lt_succ (w call b).count.isLt
  accepted := rfl
  complete hw herr := by
    have hle : (w.once call b).count ≤ b.length := Nat.le_of_lt_succ (w call b).count.isLt
    rcases Nat.lt_or_eq_of_le hle with hlt | heq
    · exact absurd herr (hw call b hlt)
    · exact heq

theorem Written.Of.resume {w : Writer} {b : Bytes} {n : Nat} {r : Written} (hn : n ≤ b.length)
    (h : r.Of w (b.drop n)) : Written.Of ⟨n + r.count, r.err, b.take n ++ r.accepted⟩ w b where
  bound := by
    have := h.bound
    rw [List.length_drop] at this
    show n + r.count ≤ b.length
    omega
  accepted := by
    show b.take n ++ r.accepted = b.take (n + r.count)
    rw [h.accepted, List.take_add]
  complete hw herr := by
    have := h.complete hw herr
    rw [List.length_drop] at this
    show n + r.count = b.length
    omega

theorem retryLoop_of (w : Writer) (retries call : Nat) (b : Bytes) :
    (retryLoop w retries call b).Of w b := by
  induction retries generalizing call b with
  | zero => exact w.once_of call b
  | succ retries ih =>
    unfold retryLoop
    dsimp only
    split
    · have hoffer : (if 0 < (w call b).count.val then b.drop (w call b).count else b) =
          b.drop (w call b).count := by
        split
        · rfl
        · rw [show (w call b).count.val = 0 by omega, List.drop_zero]
      rw [hoffer]
      exact (ih (call + 1) _).resume (Nat.le_of_lt_succ (w call b).count.isLt)
    · exact w.once_of call b

theorem writeRetry_accepted (b : Bytes) (retries : Nat) :
    (∀ w : Writer, (writeRetry w b retries).Of w b) ∧
    ∀ (w : StreamWriter) (stream : Nat),
      (writeStreamRetry w b stream retries).Of (fun call b => w call b stream) b :=
  ⟨fun w => retryLoop_of w retries 0 b, fun _ _ => retryLoop_of _ retries 0 b⟩

/-- Two bytes, a timeout, and the other two. -/
example : writeRetry (fun call b => if h : call = 0 ∧ 2 ≤ b.length
      then ⟨⟨2, by omega⟩, some (.net true)⟩ else ⟨⟨b.length, by omega⟩, none⟩) [1, 2, 3, 4] 1 =
    ⟨4, none, [1, 2, 3, 4]⟩ := by
  rfl

end Diameter.Wire
