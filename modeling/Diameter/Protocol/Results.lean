import Diameter.Protocol.RefineHandle

/-!
# Protocol.Results

What the results for writes are bound to do. The moves of the abstract machine say what a core may
do with a result; the lemmas here say that it does do it: a write that has its last result is off
the table.
-/

namespace Diameter.Protocol

open Lib BasePackage

namespace Batch

variable {b : Batch} {i : Input} {op : Operation}

theorem terminate_reservations (f : Phase) :
    (b.terminate f).core.reservations = b.core.reservations := by
  have h := congrArg (fun s => s.leases.reservations) (terminate_spec b f).1
  exact h.trans (Leases.abandonAll_reservations _)

theorem terminate_operations (f : Phase) :
    (b.terminate f).core.operations = b.core.operations := by
  have h := congrArg (fun s => s.leases.operations) (terminate_spec b f).1
  exact h.trans (Leases.abandonAll_operations _)

/-- The operation once a result has been entered for it. -/
def taken (b : Batch) (i : Input) (op : Operation) : Batch :=
  if isFinal i
  then b.finishWrite i.token op.control (i.stage = .written && (writeError i op).isNone)
  else b.update fun c => c.setOperation i.token { op with queued := true }

/-- A queued write that is reported as such. -/
def entered (b : Batch) (i : Input) (op : Operation) : Batch :=
  if i.stage = .queue
  then b.update fun c => c.setOperation i.token { op with queued := true, reported := true }
  else b

theorem taken_core : ∃ ops h cs, (b.taken i op).core =
    { b.core with operations := ops, heap := h, controls := cs } := by
  unfold taken
  split
  · exact finishWrite_core b _ _ _
  · exact ⟨_, _, _, rfl⟩

theorem finishWrite_operations (t : Nat) (r : Option Nat) (v : Bool) :
    (b.finishWrite t r v).core.operations = b.core.operations.erase t := by
  unfold finishWrite
  dsimp only
  cases r with
  | none => rfl
  | some r =>
    obtain ⟨h, cs, hc⟩ := (drop_freed (b.update fun c => { c with
      operations := c.operations.erase t }) r fun k =>
        { k with writers := k.writers - 1, written := k.written || v }).core
    rw [hc]
    rfl

theorem taken_operations : (b.taken i op).core.operations =
    if isFinal i then b.core.operations.erase i.token
    else b.core.operations.insert i.token { op with queued := true } := by
  unfold taken
  split
  · exact finishWrite_operations _ _ _
  · rfl

theorem exchangePublished_core (r : Nat) : ∃ wd wn n ts, (b.exchangePublished i r).core =
    { b.core with wd := wd, wdNext := wn, serial := n, timers := ts } := by
  unfold exchangePublished
  split
  · exact ⟨_, _, _, _, rfl⟩
  split
  · exact ⟨_, _, _, _, rfl⟩
  split
  · unfold watchdogPublished
    split
    · exact ⟨_, _, _, _, rfl⟩
    split
    · exact ⟨_, _, _, _, rfl⟩
    rename_i next _
    obtain ⟨n, ts, hr, -⟩ := watchdogArm_retimed (b := b.update fun c => { c with
      wd := next, wdNext := none }) (t := i.time) (d := i.interval)
    exact ⟨_, _, n, ts, hr.core⟩
  · split
    · obtain ⟨n, ts, h⟩ := arm_core b .retry i.time b.core.cfg.cerInterval
      exact ⟨_, _, n, ts, h⟩
    · exact ⟨_, _, _, _, rfl⟩
  · exact ⟨_, _, _, _, rfl⟩

theorem writeNotice_core : (b.writeNotice i op).core = b.core := by
  unfold writeNotice
  split <;> rfl

theorem reportWrite_eq : ∃ cb b1, Batch.core b1 = { b.core with callbackReady := cb } ∧
    b.reportWrite i op = match op.control with
      | none => b1
      | some r => b1.exchangePublished i r := by
  have hready : ∃ cb, (if op.handshake && (b.writeNotice i op).core.phase = .opened
      then (b.writeNotice i op).handshakeReady else b.writeNotice i op).core =
      { b.core with callbackReady := cb } := by
    split
    · exact ⟨true, by rw [← @writeNotice_core b i op]; rfl⟩
    · exact ⟨_, writeNotice_core⟩
  obtain ⟨cb, hready⟩ := hready
  exact ⟨cb, _, hready, rfl⟩

theorem reportWrite_core : ∃ cb wd wn n ts, (b.reportWrite i op).core =
    { b.core with callbackReady := cb, wd := wd, wdNext := wn, serial := n, timers := ts } := by
  obtain ⟨cb, b1, hcore, heq⟩ := @reportWrite_eq b i op
  rw [heq]
  split
  · exact ⟨cb, _, _, _, _, hcore⟩
  rename_i r _
  obtain ⟨wd, wn, n, ts, h⟩ := exchangePublished_core (b := b1) (i := i) r
  exact ⟨cb, wd, wn, n, ts, h.trans (by rw [hcore])⟩

theorem failWrite_core {err : ProtocolError} :
    (b.failWrite i op err).core.phase = .closed ∧
      (b.failWrite i op err).core.operations = b.core.operations := by
  have hnotify : ∀ (b : Batch) (n : Notification), (b.notify n).core = b.core := fun _ _ => rfl
  unfold failWrite
  dsimp only
  generalize (op.control.bind b.core.control?).any _ = cer
  have hend : ∀ b' : Batch, b'.core.operations = b.core.operations →
      (b'.terminate .closed).core.phase = .closed ∧
        (b'.terminate .closed).core.operations = b.core.operations :=
    fun b' h => ⟨terminate_phase _ _, (terminate_operations _).trans h⟩
  have hops : (if b.core.cfg.keepCERDeadlineAfterTransportLoss && b.core.phase = .waitCEA && cer
      then b.update fun c => { c with handshake := ⟨some err, none⟩ } else b).core.operations =
        b.core.operations := by
    split <;> rfl
  have h := hend _ hops
  split
  · exact h
  split
  · split
    · exact h
    · exact h
  · exact h

theorem completeDPA_core {j : Input} {code : UInt32} :
    (b.completeDPA j code).core.phase = .closed ∧
      (b.completeDPA j code).core.operations = b.core.operations := by
  unfold completeDPA
  dsimp only
  have h : ((b.update fun c => { c with earlyDPA := none, disconnectWaiting := false }).terminate
      .closed).core.phase = .closed ∧ ((b.update fun c => { c with
        earlyDPA := none, disconnectWaiting := false }).terminate .closed).core.operations =
      b.core.operations := ⟨terminate_phase _ _, terminate_operations _⟩
  split
  · exact h
  · exact h

/-- A success ends the core, or it is reported, unless it is too early or was reported before. -/
theorem writeSucceeded_cases :
    (b.writeSucceeded i op).core.phase.ended = true ∧
      (b.writeSucceeded i op).core.operations = b.core.operations ∨
    b.writeSucceeded i op = if (i.stage = .written ∨ b.core.cfg.queueWrites = true) ∧
        op.reported = false then (b.entered i op).reportWrite i op else b := by
  have hboundary : (b.writeBoundary i op).core.phase.ended = true ∧
      (b.writeBoundary i op).core.operations = b.core.operations ∨
      b.writeBoundary i op = if (i.stage = .written ∨ b.core.cfg.queueWrites = true) ∧
        op.reported = false then (b.entered i op).reportWrite i op else b := by
    unfold writeBoundary
    dsimp only
    by_cases hlast : (op.closeAfter && decide (i.stage = .written)) = true
    · have hstage : i.stage = .written := by
        simp only [Bool.and_eq_true, decide_eq_true_eq] at hlast
        exact hlast.2
      have hend : (b.terminate .closed).core.phase.ended = true := by
        rw [terminate_phase]
        rfl
      rw [if_pos hlast]
      refine .inl ?_
      split
      · exact ⟨hend, terminate_operations _⟩
      rw [if_neg (by simp [hstage])]
      obtain ⟨cb, wd, wn, n, ts, hcore⟩ := @reportWrite_core (b.terminate .closed) i op
      rw [hcore]
      exact ⟨hend, terminate_operations _⟩
    · rw [if_neg hlast]
      refine .inr ?_
      by_cases hgo : (i.stage = .written ∨ b.core.cfg.queueWrites = true) ∧ op.reported = false
      · rw [if_pos hgo, if_neg (by simpa [Decidable.or_iff_not_imp_left] using hgo)]
        rfl
      rw [if_neg hgo, if_pos (by
        simp only [Bool.or_eq_true, Bool.not_eq_true', Bool.or_eq_false_iff,
          decide_eq_false_iff_not]
        by_cases h1 : i.stage = .written ∨ b.core.cfg.queueWrites = true
        · exact .inr (by simpa using fun h => hgo ⟨h1, h⟩)
        · rw [not_or, Bool.not_eq_true] at h1
          exact .inl h1)]
  unfold writeSucceeded
  dsimp only
  split
  · split
    · exact .inl ⟨by rw [completeDPA_core.1]; rfl, completeDPA_core.2⟩
    · exact hboundary
  · exact hboundary

/-- A result that is entered: not the second one for the queue, and not a skipped request. -/
theorem writeResult_eq (hop : b.core.operations.lookup i.token = some op)
    (hskip : i.stage = .skipped → op.control = none) (hq : i.stage = .queue → op.queued = false) :
    b.writeResult i = if (b.taken i op).core.phase.ended then b.taken i op
      else match writeError i op with
        | some err => (b.taken i op).failWrite i op err
        | none => (b.taken i op).writeSucceeded i op := by
  unfold writeResult
  rw [hop]
  dsimp only
  have hgo : ¬ (i.stage = .queue && op.queued) = true := by simpa using hq
  split
  next r hs hr =>
    rw [hskip hs] at hr
    cases hr
  · rw [if_neg hgo]
    rfl

end Batch

end Diameter.Protocol
