import Diameter.Protocol.Runs
import Diameter.Protocol.Results

/-!
# Protocol.QueuedReply

`CompleteQueuedReply`, the shortcut for the last result of a queued answer. Where it applies, the
general handler does the same: no effects, and the record of the write goes back.
-/

namespace Diameter.Protocol

open Lib BasePackage

/-- A core with the record of a finished write that it keeps for its next one: a record goes back
cleared, so all that is left of it is whether there is one. -/
structure Stored where
  core : Core
  spare : Bool := false

namespace Stored

/-- `CompleteQueuedReply`. -/
def completeQueuedReply (s : Stored) (i : Input) : Bool × Stored :=
  if i.connection ≠ s.core.cfg.connection ∨ i.kind ≠ .writeResult ∨ i.stage ≠ .written ∨
      i.err.isSome then (false, s)
  else
    match s.core.operations.lookup i.token with
    | none => (false, s)
    | some op =>
      if !op.queued || !op.reported || op.control.isSome || op.closeAfter || op.handshake then
        (false, s)
      else if i.bytes ≠ (if i.expectedBytes = 0 then op.length else i.expectedBytes) then (false, s)
      else (true, ⟨{ s.core with operations := s.core.operations.erase i.token }, true⟩)

/-- Whether `writeResult` recycles the record of its operation: with the last result of the write,
a skipped one included. -/
def recycles (s : Stored) (i : Input) : Bool :=
  i.connection = s.core.cfg.connection && (s.core.operations.lookup i.token).any fun op =>
    Batch.isFinal i && !(i.stage = .queue && op.queued)

/-- `Handle` of a write result. None asks for a write, so none takes the spare record. -/
def handleWrite [BasePackage] (s : Stored) (i : Input) : Stored × List Effect :=
  let b := Batch.handleInto { core := s.core } i
  (⟨b.core, s.spare || s.recycles i⟩, b.effects)

/-- What the shortcut looks at. -/
structure Completes (s : Stored) (i : Input) (op : Operation) : Prop where
  connection : i.connection = s.core.cfg.connection
  kind : i.kind = .writeResult
  stage : i.stage = .written
  lookup : s.core.operations.lookup i.token = some op
  reported : op.reported = true
  control : op.control = none
  closeAfter : op.closeAfter = false
  noError : Batch.writeError i op = none

theorem completes {s s' : Stored} {i : Input} (h : s.completeQueuedReply i = (true, s')) :
    (∃ op, s.Completes i op) ∧
      s' = ⟨{ s.core with operations := s.core.operations.erase i.token }, true⟩ := by
  unfold completeQueuedReply at h
  split at h
  · cases h
  rename_i hinput
  simp only [not_or, not_ne_iff, Option.not_isSome_iff_eq_none] at hinput
  obtain ⟨hconn, hkind, hstage, herr⟩ := hinput
  split at h
  · cases h
  rename_i op hop
  split at h
  · cases h
  rename_i hplain
  simp only [Bool.not_eq_true, Bool.or_eq_false_iff, Bool.not_eq_false', Option.isSome_eq_false_iff,
    Option.isNone_iff_eq_none] at hplain
  obtain ⟨⟨⟨⟨-, hreported⟩, hcontrol⟩, hlast⟩, -⟩ := hplain
  by_cases hbytes : i.bytes = if i.expectedBytes = 0 then op.length else i.expectedBytes
  · rw [if_neg (not_ne_iff.2 hbytes)] at h
    cases h
    refine ⟨⟨op, hconn, hkind, hstage, hop, hreported, hcontrol, hlast, ?_⟩, rfl⟩
    simp only [Batch.writeError, herr, hstage]
    exact if_pos hbytes
  · rw [if_pos hbytes] at h
    cases h

end Stored

namespace Batch

variable {b : Batch} {i : Input} {op : Operation}

theorem writeSucceeded_reported [BasePackage] (hc : op.control = none)
    (hl : op.closeAfter = false) (hr : op.reported = true) : b.writeSucceeded i op = b := by
  have hboundary : b.writeBoundary i op = b := by simp [writeBoundary, hl, hr]
  unfold writeSucceeded
  split
  · simp [hc, hboundary]
  · exact hboundary

end Batch

theorem completeQueuedReply_handle [BasePackage] {s : Stored} {i : Input}
    (h : (s.completeQueuedReply i).1 = true) :
    s.handleWrite i = ((s.completeQueuedReply i).2, []) := by
  have hpair : s.completeQueuedReply i = (true, (s.completeQueuedReply i).2) := Prod.ext h rfl
  obtain ⟨⟨op, hc⟩, hleft⟩ := Stored.completes hpair
  have hfinal : Batch.isFinal i = true := by simp [Batch.isFinal, hc.stage]
  have htaken : Batch.taken { core := s.core } i op =
      { core := { s.core with operations := s.core.operations.erase i.token } } := by
    simp [Batch.taken, hfinal, Batch.finishWrite, hc.control, Batch.update]
  have hresult : Batch.writeResult { core := s.core } i =
      { core := { s.core with operations := s.core.operations.erase i.token } } := by
    rw [Batch.writeResult_eq hc.lookup (fun _ => hc.control) (by simp [hc.stage]), htaken,
      hc.noError]
    split
    · rfl
    · exact Batch.writeSucceeded_reported hc.control hc.closeAfter hc.reported
  have hinto : Batch.handleInto { core := s.core } i = Batch.writeResult { core := s.core } i := by
    simp [Batch.handleInto, hc.connection, hc.kind]
  have hrecycles : s.recycles i = true := by
    simp [Stored.recycles, hc.connection, hc.lookup, hc.stage, hfinal]
  rw [hleft]
  simp only [Stored.handleWrite, hinto, hresult, hrecycles, Bool.or_true]

/-- A queued answer of twenty bytes, reported when it was queued. -/
def queuedReply : Stored :=
  { core := { sampleCore false with
      operations := AList.insert 7 { length := 20, queued := true, reported := true } ∅ } }

def queuedResult : Input :=
  { connection := ⟨1, 1⟩, kind := .writeResult, token := 7, stage := .written, bytes := 20 }

theorem queuedReply_handle :
    (queuedReply.completeQueuedReply queuedResult).1 = true ∧
      @Stored.handleWrite samplePackage queuedReply queuedResult =
        ((queuedReply.completeQueuedReply queuedResult).2, []) :=
  ⟨rfl, @completeQueuedReply_handle samplePackage _ _ rfl⟩

end Diameter.Protocol
