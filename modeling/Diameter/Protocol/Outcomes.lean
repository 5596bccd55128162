import Diameter.Protocol.Latch
import Diameter.Protocol.Order

/-!
# Protocol.Outcomes

The outcomes of required replies. A Send of a reply asks for a WriteResult, and what the core has to
say about the reply it says in the batch of such a result:

* `Batch.reports`   — the outcomes a batch reports, in order.
* `Run.reports r t` — those a run reports for the Send with the token `t`.
* `Story r t`       — what has been reported for `t` goes with what the core still knows of it.
-/

namespace Diameter.Protocol

open Lib

variable {c : Core} {e : Effect} {i : Input}
variable {err : ProtocolError}

/-- The outcome of a reply that an effect reports. -/
def Effect.report (e : Effect) : Option ReplyStatus :=
  if e.kind = .notify ∧ e.notification.reply ≠ .none then some e.notification.reply else none

theorem Effect.report_of_kind (h : e.kind ≠ .notify) : e.report = none :=
  if_neg fun hk => h hk.1

theorem reports_of_kind {es : List Effect} (h : ∀ e ∈ es, e.kind ≠ .notify) :
    es.filterMap Effect.report = [] := by
  rw [List.filterMap_eq_nil_iff]
  exact fun e he => Effect.report_of_kind (h e he)

namespace Batch

/-- The outcomes a batch reports. -/
def reports (b : Batch) : List ReplyStatus := b.effects.filterMap Effect.report

variable {b : Batch} {i : Input} {op : Operation}

theorem update_reports (f : Core → Core) : (b.update f).reports = b.reports := rfl

theorem emit_reports (e : Effect) : (b.emit e).reports = b.reports ++ e.report.toList := by
  unfold reports emit
  rw [List.filterMap_append]
  have hsame : Effect.report { e with connection := b.core.cfg.connection } = e.report := rfl
  rw [List.filterMap_cons, hsame]
  cases e.report <;> rfl

theorem emit_silent (h : e.report = none) : (b.emit e).reports = b.reports := by
  rw [emit_reports, h]
  exact List.append_nil _

theorem appended_reports {b' : Batch} {es : List Effect} (h : b'.effects = b.effects ++ es)
    (hes : ∀ e ∈ es, e.kind ≠ .notify) : b'.reports = b.reports := by
  unfold reports
  rw [h, List.filterMap_append, reports_of_kind hes, List.append_nil]

theorem notify_reports (n : Notification) :
    (b.notify n).reports = b.reports ++ if n.reply = .none then [] else [n.reply] := by
  have hreply : (b.core.notify n).notification.reply = n.reply := by
    unfold Core.notify
    dsimp only
    split <;> rfl
  rw [notify, emit_reports]
  unfold Effect.report
  rw [hreply]
  by_cases h : n.reply = .none
  · simp [h]
  · rw [if_pos ⟨rfl, h⟩, if_neg h]
    rfl

theorem Freed.reports {b' : Batch} {l : Leases × List Reservation} (h : Freed b b' l) :
    b'.reports = b.reports := by
  obtain ⟨es, hes, hr⟩ := h.effects
  exact appended_reports hes fun e he => by rw [hr.1 e he]; decide

theorem finishWrite_reports (t : Nat) (r : Option Nat) (v : Bool) :
    (b.finishWrite t r v).reports = b.reports := by
  unfold finishWrite
  cases r with
  | none => rfl
  | some r => exact (drop_freed (b.update fun c => { c with
      operations := c.operations.erase t }) r fun k =>
        { k with writers := k.writers - 1, written := k.written || v }).reports

theorem taken_reports : (b.taken i op).reports = b.reports := by
  unfold taken
  split
  · exact finishWrite_reports _ _ _
  · rfl

theorem stop_reports (k : TimerKind) : (b.stop k).reports = b.reports := by
  unfold stop
  split
  · rfl
  · exact emit_silent rfl

theorem arm_reports (k : TimerKind) (t d : Int) : (b.arm k t d).reports = b.reports := by
  unfold arm
  split
  · rfl
  · exact emit_silent rfl

theorem watchdogArm_reports (t d : Int) : (b.watchdogArm t d).reports = b.reports := by
  unfold watchdogArm
  generalize (if d ≤ 0 then b.core.cfg.watchdogInterval else d) = d'
  dsimp only
  split
  · exact stop_reports _
  refine (emit_silent rfl).trans ?_
  split
  · rfl
  · exact emit_silent rfl

/-! ### The end -/

theorem completeHandshake_reports : b.completeHandshake.reports = b.reports := by
  unfold completeHandshake
  split
  · exact emit_silent rfl
  · rfl

theorem completeDisconnect_reports : b.completeDisconnect.reports = b.reports := by
  unfold completeDisconnect
  split
  · exact emit_silent rfl
  · rfl

theorem terminate_reports (f : Phase) : (b.terminate f).reports = b.reports := by
  have hstop : ∀ b : Batch, b.stopTimers.reports = b.reports := by
    intro b
    obtain ⟨es, -, he, hk⟩ := stopTimers_spec b
    exact appended_reports he fun e h => by rw [hk e h]; decide
  have hcancel : ∀ b : Batch, b.cancelSends.reports = b.reports := by
    intro b
    obtain ⟨es, -, he, hk⟩ := cancelSends_spec b
    exact appended_reports he fun e h => by rw [hk e h]; decide
  have hclose : ∀ b : Batch, (if f = .closed then b.emit { kind := .close } else b).reports =
      b.reports := by
    intro b
    split
    · exact emit_silent rfl
    · rfl
  unfold terminate
  dsimp only
  rw [completeDisconnect_reports, completeHandshake_reports, hclose, hcancel,
    (abandonControls_freed _).reports, hstop, update_reports]

theorem completeDPA_reports {j : Input} {code : UInt32} :
    (b.completeDPA j code).reports = b.reports := by
  unfold completeDPA
  dsimp only
  split
  · rw [emit_silent rfl, terminate_reports, update_reports]
  · rw [notify_reports, emit_silent rfl, terminate_reports, update_reports]
    exact List.append_nil _

/-! ### Results for writes -/

theorem writeNotice_reports : (b.writeNotice i op).reports = b.reports ++
    if op.notice.isSome then [if i.stage = .queue then .queued else .written] else [] := by
  unfold writeNotice
  split
  next h =>
    rw [h]
    exact (List.append_nil _).symm
  next n h =>
    rw [notify_reports, h]
    dsimp only
    split <;> rfl

theorem exchangePublished_reports (r : Nat) : (b.exchangePublished i r).reports = b.reports := by
  unfold exchangePublished
  split
  · rfl
  split
  · rfl
  split
  · unfold watchdogPublished
    split
    · rfl
    split
    · rfl
    · rw [notify_reports, watchdogArm_reports, update_reports]
      exact List.append_nil _
  · split
    · exact arm_reports _ _ _
    · rfl
  · rfl

theorem reportWrite_reports : (b.reportWrite i op).reports = (b.writeNotice i op).reports := by
  have hready : (if op.handshake && (b.writeNotice i op).core.phase = .opened
      then (b.writeNotice i op).handshakeReady else b.writeNotice i op).reports =
      (b.writeNotice i op).reports := by
    split
    · exact emit_silent rfl
    · rfl
  unfold reportWrite
  dsimp only
  split
  · exact hready
  · rw [exchangePublished_reports, hready]

theorem failWrite_reports : (b.failWrite i op err).reports =
    b.reports ++ if op.required then [.failed] else [] := by
  unfold failWrite
  dsimp only
  generalize (op.control.bind b.core.control?).any _ = cer
  have hend : ((if b.core.cfg.keepCERDeadlineAfterTransportLoss && b.core.phase = .waitCEA && cer
      then b.update fun c => { c with handshake := ⟨some err, none⟩ } else b).terminate
        .closed).reports = b.reports := by
    rw [terminate_reports]
    split <;> rfl
  cases op.required with
  | false =>
    rw [if_pos (by rfl), hend]
    exact (List.append_nil _).symm
  | true =>
    rw [if_neg (by decide)]
    split
    · split
      · rw [notify_reports, hend]
        rfl
      · rw [notify_reports, hend]
        rfl
    · rw [notify_reports, hend]
      rfl

theorem skippedControl_reports (r : Nat) : (b.skippedControl i r).reports = b.reports := by
  unfold skippedControl
  split
  · rfl
  rename_i k _
  dsimp only
  have hrelease : ∀ b' : Batch, b'.reports = b.reports → (b'.release r).reports = b.reports :=
    fun b' h => (release_freed b' r).reports.trans h
  split
  · rw [terminate_reports]
    exact hrelease _ rfl
  split
  · split
    · rw [watchdogArm_reports]
      exact hrelease _ rfl
    · exact hrelease _ rfl
  · exact hrelease _ rfl

theorem writeSucceeded_reports : (b.writeSucceeded i op).reports = b.reports ∨
    op.reported = false ∧ (b.writeSucceeded i op).reports =
      b.reports ++ [if i.stage = .queue then .queued else .written] := by
  have hboundary : (b.writeBoundary i op).reports = b.reports ∨ op.reported = false ∧
      (b.writeBoundary i op).reports =
        b.reports ++ [if i.stage = .queue then .queued else .written] := by
    unfold writeBoundary
    dsimp only
    generalize hb1 : (if (op.closeAfter && decide (i.stage = .written)) = true
      then b.terminate .closed else b) = b1
    have h1 : b1.reports = b.reports := by
      rw [← hb1]
      split
      · exact terminate_reports _
      · rfl
    split
    · exact .inl h1
    rename_i hgo
    have hrep : op.reported = false := by
      simp only [Bool.or_eq_true, not_or, Bool.not_eq_true] at hgo
      exact hgo.2
    generalize hb2 : (if i.stage = .queue then b1.update fun c => c.setOperation i.token
      { op with queued := true, reported := true } else b1) = b2
    have h2 : b2.reports = b.reports := by
      rw [← hb2]
      split
      · exact h1
      · exact h1
    rw [reportWrite_reports, writeNotice_reports, h2]
    cases op.notice with
    | none => exact .inl (List.append_nil _)
    | some n => exact .inr ⟨hrep, rfl⟩
  unfold writeSucceeded
  dsimp only
  split
  · split
    · exact .inl completeDPA_reports
    · exact hboundary
  · exact hboundary

theorem writeSucceeded_queued (hs : i.stage = .queue) : b.writeSucceeded i op =
    if b.core.cfg.queueWrites = true ∧ op.reported = false
    then (b.entered i op).reportWrite i op else b := by
  have hboundary : b.writeBoundary i op = if b.core.cfg.queueWrites = true ∧ op.reported = false
      then (b.entered i op).reportWrite i op else b := by
    have hlast : ¬ (op.closeAfter && decide (i.stage = .written)) = true := by simp [hs]
    unfold writeBoundary
    dsimp only
    rw [if_neg hlast]
    unfold entered
    by_cases h1 : b.core.cfg.queueWrites = true
    · by_cases h2 : op.reported = false
      · simp [h1, h2, hs]
      · simp [h1, h2]
    · simp [h1, hs]
  unfold writeSucceeded
  dsimp only
  split
  · rw [if_neg (by simp [hs]), hboundary]
  · exact hboundary

theorem writeSucceeded_written (hs : i.stage ≠ .queue) :
    (b.writeSucceeded i op).core.operations = b.core.operations := by
  have hentered : b.entered i op = b := if_neg hs
  rcases @writeSucceeded_cases b i op with ⟨-, h⟩ | h
  · exact h
  rw [h]
  split
  · obtain ⟨cb, wd, wn, n, ts, hcore⟩ := @reportWrite_core (b.entered i op) i op
    rw [hcore, hentered]
  · rfl

theorem isFinal_of_error (h : writeError i op = some err) :
    isFinal i = true := by
  unfold writeError at h
  unfold isFinal
  split at h <;> simp_all

theorem taken_lookup (hf : isFinal i = true) :
    (b.taken i op).core.operations.lookup i.token = none := by
  rw [taken_operations, if_pos hf]
  exact AList.lookup_erase _ _

theorem writeResult_outcome (hop : b.core.operations.lookup i.token = some op) :
    (b.writeResult i).reports = b.reports ∨
    ((b.writeResult i).reports = b.reports ++ [.failed] ∧
      (b.writeResult i).core.operations.lookup i.token = none) ∨
    (op.reported = false ∧ (b.writeResult i).reports = b.reports ++ [.queued] ∧
      ∀ op', (b.writeResult i).core.operations.lookup i.token = some op' → op'.reported = true) ∨
    (op.reported = false ∧ (b.writeResult i).reports = b.reports ++ [.written] ∧
      (b.writeResult i).core.operations.lookup i.token = none) := by
  by_cases hskip : i.stage = .skipped → op.control = none
  · by_cases hq : i.stage = .queue → op.queued = false
    · rw [writeResult_eq hop hskip hq]
      split
      · exact .inl taken_reports
      split
      next err herr =>
        have hgone : ((b.taken i op).failWrite i op err).core.operations.lookup i.token = none := by
          rw [failWrite_core.2]
          exact taken_lookup (isFinal_of_error herr)
        rw [failWrite_reports, taken_reports]
        split
        · exact .inr (.inl ⟨rfl, hgone⟩)
        · exact .inl (List.append_nil _)
      next herr =>
        by_cases hs : i.stage = .queue
        · rw [writeSucceeded_queued hs]
          split
          next hgo =>
            obtain ⟨cb, wd, wn, n, ts, hcore⟩ :=
              @reportWrite_core ((b.taken i op).entered i op) i op
            rw [reportWrite_reports, writeNotice_reports, hcore]
            have hent : (b.taken i op).entered i op = (b.taken i op).update fun c =>
                c.setOperation i.token { op with queued := true, reported := true } := if_pos hs
            rw [hent, update_reports, taken_reports, if_pos hs]
            split
            · refine .inr (.inr (.inl ⟨hgo.2, rfl, fun op' h => ?_⟩))
              cases (AList.lookup_insert _).symm.trans h
              rfl
            · exact .inl (List.append_nil _)
          · exact .inl taken_reports
        · have hgone : ((b.taken i op).writeSucceeded i op).core.operations.lookup i.token =
              none := by
            rw [writeSucceeded_written hs]
            exact taken_lookup (by simp [isFinal, hs])
          rcases @writeSucceeded_reports (b.taken i op) i op with h | ⟨hrep, h⟩
          · exact .inl (h.trans taken_reports)
          · rw [taken_reports, if_neg hs] at h
            exact .inr (.inr (.inr ⟨hrep, h, hgone⟩))
    · have hsame : b.writeResult i = b := by
        rw [Classical.not_imp, Bool.not_eq_false] at hq
        unfold writeResult
        rw [hop]
        dsimp only
        split
        next hs _ =>
          rw [hq.1] at hs
          cases hs
        · exact if_pos (by simp [hq.1, hq.2])
      exact .inl (congrArg reports hsame)
  · rw [Classical.not_imp] at hskip
    obtain ⟨hs, hctl⟩ := hskip
    obtain ⟨r, hr⟩ := Option.ne_none_iff_exists'.1 hctl
    have hskipped : b.writeResult i = b.skippedControl i r := by
      unfold writeResult
      rw [hop]
      dsimp only
      rw [hs, hr]
    rw [hskipped]
    exact .inl (skippedControl_reports r)

theorem writeResult_progress (hop : b.core.operations.lookup i.token = some op)
    (hs : i.stage = .queue) (herr : i.err = none) :
    ∃ op', (b.writeResult i).core.operations.lookup i.token = some op' ∧
      op'.required = op.required ∧ op'.control = op.control ∧ op'.length = op.length := by
  have hfinal : ¬ isFinal i = true := by simp [isFinal, hs, herr]
  have hnone : writeError i op = none := by simp [writeError, hs, herr]
  have htaken : (b.taken i op).core.operations.lookup i.token = some { op with queued := true } := by
    rw [taken_operations, if_neg hfinal]
    exact AList.lookup_insert _
  by_cases hq : op.queued = false
  · rw [writeResult_eq hop (by simp [hs]) fun _ => hq, hnone]
    dsimp only
    split
    · exact ⟨_, htaken, rfl, rfl, rfl⟩
    rw [writeSucceeded_queued hs]
    split
    · obtain ⟨cb, wd, wn, n, ts, hcore⟩ := @reportWrite_core ((b.taken i op).entered i op) i op
      have hent : (b.taken i op).entered i op = (b.taken i op).update fun c =>
          c.setOperation i.token { op with queued := true, reported := true } := if_pos hs
      rw [hcore, hent]
      exact ⟨_, AList.lookup_insert _, rfl, rfl, rfl⟩
    · exact ⟨_, htaken, rfl, rfl, rfl⟩
  · have hsame : b.writeResult i = b := by
      unfold writeResult
      rw [hop]
      dsimp only
      rw [hs]
      exact if_pos (by simpa using hq)
    rw [hsame]
    exact ⟨op, hop, rfl, rfl, rfl⟩

theorem writeResult_fails (hop : b.core.operations.lookup i.token = some op)
    (hreq : op.required = true) (hctl : op.control = none) (hlive : b.core.phase.ended = false)
    (hq : i.stage = .queue → op.queued = false) (herr : writeError i op = some err) :
    (b.writeResult i).reports = b.reports ++ [.failed] := by
  obtain ⟨ops, h, cs, hcore⟩ := @taken_core b i op
  have hphase : (b.taken i op).core.phase.ended = false := by
    rw [hcore]
    exact hlive
  rw [writeResult_eq hop (fun _ => hctl) hq, hphase, herr]
  show ((b.taken i op).failWrite i op err).reports = _
  rw [failWrite_reports, taken_reports, hreq]
  rfl

end Batch

/-! ## Writes of one call -/

/-- The input is a result for the write `t`. -/
def Input.Results (i : Input) (t : Nat) : Prop := i.kind = .writeResult ∧ i.token = t

instance (i : Input) (t : Nat) : Decidable (i.Results t) :=
  inferInstanceAs (Decidable (_ ∧ _))

/-- The table of writes while `i` is handled, with the effects so far. Before, tokens went up to `n`
and the table was `ops`. -/
structure Desk.Filed (i : Input) (n : Nat) (ops : GoMap Nat Operation) (d : Desk) : Prop where
  serial : n ≤ d.serial
  old : ∀ t ≤ n, ¬ i.Results t → d.operations.lookup t = ops.lookup t
  sends : ∀ e ∈ d.effects, e.kind = .send → n < e.token ∧ e.token ≤ d.serial ∧
    (¬ i.Results e.token → ∃ op, d.operations.lookup e.token = some op ∧ e.Writes e.token op)

namespace Desk.Filed

variable {i : Input} {n : Nat} {ops : GoMap Nat Operation} {d d' : Desk}

theorem keep (h : d.Filed i n ops) (hs : d.serial ≤ d'.serial)
    (ho : d'.operations = d.operations)
    (he : ∀ e ∈ d'.effects, e.kind = .send → e ∈ d.effects) : d'.Filed i n ops := by
  refine ⟨h.serial.trans hs, fun t ht hi => ho ▸ h.old t ht hi, fun e hmem hk => ?_⟩
  obtain ⟨h1, h2, h3⟩ := h.sends e (he e hmem hk) hk
  exact ⟨h1, h2.trans hs, ho ▸ h3⟩

theorem enter (h : d.Filed i n ops) (hi : i.kind = .writeResult) (hs : d'.serial = d.serial)
    (he : d'.effects = d.effects)
    (ho : ∀ t, t ≠ i.token → d'.operations.lookup t = d.operations.lookup t) :
    d'.Filed i n ops := by
  have hne : ∀ t, ¬ i.Results t → t ≠ i.token := fun t ht heq => ht ⟨hi, heq.symm⟩
  refine ⟨hs ▸ h.serial, fun t ht hr => (ho t (hne t hr)).trans (h.old t ht hr),
    fun e hmem hk => ?_⟩
  obtain ⟨h1, h2, h3⟩ := h.sends e (he ▸ hmem) hk
  refine ⟨h1, hs ▸ h2, fun hr => ?_⟩
  rw [ho _ (hne _ hr)]
  exact h3 hr

theorem write (h : d.Filed i n ops) {op : Operation} (hw : e.Writes (d.serial + 1) op) :
    (d.write e op).Filed i n ops := by
  have hother : ∀ t ≤ d.serial, (d.write e op).operations.lookup t = d.operations.lookup t := by
    intro t ht
    exact AList.lookup_insert_ne (by omega)
  refine ⟨h.serial.trans (Nat.le_succ _), fun t ht hi => ?_, fun e' hmem hk => ?_⟩
  · rw [hother t (ht.trans h.serial)]
    exact h.old t ht hi
  rcases List.mem_append.1 hmem with hmem | hmem
  · obtain ⟨h1, h2, h3⟩ := h.sends e' hmem hk
    refine ⟨h1, h2.trans (Nat.le_succ _), fun hr => ?_⟩
    rw [hother _ h2]
    exact h3 hr
  · rw [List.mem_singleton.1 hmem]
    have hserial := h.serial
    rw [hw.token]
    refine ⟨by omega, le_rfl, fun _ => ⟨op, AList.lookup_insert _, hw⟩⟩

theorem step (ha : Act i d d') (h : d.Filed i n ops) : d'.Filed i n ops := by
  have hemit : ∀ {e : Effect}, e.kind ≠ .send → ∀ x ∈ d.effects ++ [e], x.kind = .send →
      x ∈ d.effects := by
    intro e he x hx hk
    rcases List.mem_append.1 hx with hx | hx
    · exact hx
    · rw [List.mem_singleton.1 hx] at hk
      exact (he hk).elim
  cases ha with
  | inert he => exact h.keep le_rfl rfl (hemit fun hk => by simp [Effect.Inert, hk] at he)
  | take => exact h.keep (Nat.le_succ _) rfl fun _ hx _ => hx
  | issue he _ => exact h.keep le_rfl rfl (hemit fun hk => by simp [EffectKind.issues, hk] at he)
  | arm _ hk => exact h.keep (Nat.le_succ _) rfl (hemit (by rw [hk]; decide))
  | stop _ hk => exact h.keep le_rfl rfl (hemit (by rw [hk]; decide))
  | send hw _ => exact h.write hw
  | finish hi _ => exact h.enter hi rfl rfl fun t ht => AList.lookup_erase_ne ht
  | queue hi _ => exact h.enter hi rfl rfl fun t ht => AList.lookup_insert_ne ht
  | note hi _ _ => exact h.enter hi rfl rfl fun t ht => AList.lookup_insert_ne ht
  | announce _ hk => exact h.keep le_rfl rfl (hemit (by rw [hk]; decide))
  | decide _ _ hk => exact h.keep le_rfl rfl (hemit (by rw [hk]; decide))
  | closing | freeze => exact h.keep le_rfl rfl fun _ hx _ => hx
  | select hw =>
    have hd := h.write hw
    exact ⟨hd.serial, hd.old, hd.sends⟩

end Desk.Filed

variable [BasePackage]

theorem apply_foreign (hconn : i.connection ≠ c.cfg.connection) : c.apply (.input i) = (c, []) := by
  have hb : Batch.handleInto { core := c } i = { core := c } := by simp [Batch.handleInto, hconn]
  show ((Batch.handleInto { core := c } i).core, (Batch.handleInto { core := c } i).effects) = _
  rw [hb]

theorem apply_own (hi : i.kind = .writeResult) (hconn : i.connection = c.cfg.connection) :
    c.apply (.input i) =
      ((Batch.writeResult { core := c } i).core, (Batch.writeResult { core := c } i).effects) := by
  have hb : Batch.handleInto { core := c } i = Batch.writeResult { core := c } i := by
    simp [Batch.handleInto, hconn, hi]
  rw [← hb]
  rfl

theorem apply_result (hi : i.kind = .writeResult) :
    c.apply (.input i) = (c, []) ∨ i.connection = c.cfg.connection ∧ c.apply (.input i) =
      ((Batch.writeResult { core := c } i).core, (Batch.writeResult { core := c } i).effects) := by
  by_cases hconn : i.connection = c.cfg.connection
  · exact .inr ⟨hconn, apply_own hi hconn⟩
  · exact .inl (apply_foreign hconn)

theorem apply_result_unknown (hi : i.kind = .writeResult) (hop : c.operations.lookup i.token = none)
    : c.apply (.input i) = (c, []) := by
  rcases apply_result (c := c) hi with h | ⟨-, h⟩
  · exact h
  have hb : Batch.writeResult { core := c } i = { core := c } := by
    unfold Batch.writeResult
    rw [hop]
  rw [h, hb]

omit [BasePackage] in
theorem unknown_token (ho : c.InOrder) {t : Nat} (ht : c.serial < t) :
    c.operations.lookup t = none := by
  cases hop : c.operations.lookup t with
  | none => rfl
  | some op =>
    have hsome : (c.operations.lookup t).isSome = true := by rw [hop]; rfl
    have hle : t ≤ c.serial := ho.exchanges.tokens t (.inr hsome)
    omega

section

variable {c : Core} (ho : c.InOrder) (hwf : c.state.WF)
include ho hwf

theorem apply_filed (i : Input) :
    c.serial ≤ (c.apply (.input i)).1.serial ∧
    (∀ t ≤ c.serial, ¬ i.Results t →
      (c.apply (.input i)).1.operations.lookup t = c.operations.lookup t) ∧
    ∀ e ∈ (c.apply (.input i)).2, e.kind = .send → c.serial < e.token ∧
      e.token ≤ (c.apply (.input i)).1.serial ∧
      ∃ op, (c.apply (.input i)).1.operations.lookup e.token = some op ∧ e.Writes e.token op := by
  obtain ⟨u, hacts⟩ := Batch.handleInto_handles (i := i) (b := { core := c }) ho.orderly hwf []
  have h0 : (Batch.desk { core := c } [] none).Filed i c.serial c.operations :=
    ⟨le_rfl, fun _ _ _ => rfl, List.forall_mem_nil _⟩
  have h := hacts.invariant Desk.Filed.step h0
  refine ⟨h.serial, h.old, fun e he hk => ?_⟩
  obtain ⟨h1, h2, h3⟩ := h.sends e.bare (List.mem_map_of_mem he) hk
  have hother : ¬ i.Results e.token := by
    rintro ⟨hi, ht⟩
    have hnone : c.operations.lookup i.token = none := unknown_token ho (ht ▸ h1)
    rw [apply_result_unknown hi hnone] at he
    exact List.not_mem_nil he
  obtain ⟨op, hop, hw⟩ := h3 hother
  exact ⟨h1, h2, op, hop, hw.kind, hw.token, hw.required, hw.alone, hw.queued, hw.reported,
    hw.length⟩

end

/-! ## Runs -/

def Event.results (t : Nat) : Event → Bool
  | .input i => i.Results t
  | .refresh _ => false

/-- The outcomes a run reports for the write `t`. -/
def Run.reports (r : Run) (t : Nat) : List ReplyStatus :=
  r.log.flatMap fun b => if b.1.results t then b.2.filterMap Effect.report else []

theorem Run.reports_next (r : Run) (e : Event) (t : Nat) : (r.next e).reports t =
    r.reports t ++ if e.results t then (r.core.apply e).2.filterMap Effect.report else [] := by
  unfold Run.reports Run.next
  rw [List.flatMap_append, List.flatMap_singleton]

/-- What may be reported for one reply. -/
def stories : List (List ReplyStatus) :=
  [[], [.queued], [.written], [.failed], [.queued, .failed]]

/-- The reports so far, for a write and a core that has it on its table, or no longer, or not
yet. -/
structure Story (reports : List ReplyStatus) (t : Nat) (c : Core) : Prop where
  known : ∀ op, c.operations.lookup t = some op →
    reports = [] ∨ reports = [.queued] ∧ op.reported = true
  listed : reports ∈ stories
  new : c.serial < t → reports = []

namespace Story

variable {rs : List ReplyStatus} {t : Nat} {c c' : Core}

omit [BasePackage] in
theorem blank : Story [] t c := ⟨fun _ _ => .inl rfl, List.mem_cons_self .., fun _ => rfl⟩

omit [BasePackage] in
theorem keep (h : Story rs t c) (hs : c.serial ≤ c'.serial)
    (ho : t ≤ c.serial → c'.operations.lookup t = c.operations.lookup t) : Story rs t c' := by
  by_cases ht : t ≤ c.serial
  · exact ⟨fun op hop => h.known op (ho ht ▸ hop), h.listed, fun ht' => by omega⟩
  · rw [h.new (by omega)]
    exact blank

theorem result (h : Story rs t c) (ho : c.InOrder) (hwf : c.state.WF) (hi : i.Results t) :
    Story (rs ++ (c.apply (.input i)).2.filterMap Effect.report) t
      (c.apply (.input i)).1 := by
  have hsame : c.apply (.input i) = (c, []) →
      Story (rs ++ (c.apply (.input i)).2.filterMap Effect.report) t (c.apply (.input i)).1 := by
    intro heq
    rw [heq]
    exact (List.append_nil rs).symm ▸ h
  rcases apply_result (c := c) hi.1 with heq | ⟨-, heq⟩
  · exact hsame heq
  cases hop : c.operations.lookup i.token with
  | none => exact hsame (apply_result_unknown hi.1 hop)
  | some op =>
    rw [heq]
    obtain ⟨-, rfl⟩ := hi
    have hknown := h.known op hop
    have hfirst : op.reported = false → rs = [] := by
      intro hrep
      rcases hknown with h | ⟨-, h⟩
      · exact h
      · cases hrep.symm.trans h
    have hold : ∀ c' : Core, c.serial ≤ c'.serial → ¬ c'.serial < i.token := by
      intro c' hs ht
      cases (unknown_token ho (by omega)).symm.trans hop
    have hserial : c.serial ≤ (Batch.writeResult { core := c } i).core.serial := by
      have hs := (apply_filed ho hwf i).1
      rwa [heq] at hs
    have hown := (Batch.writeResult_entered (b := { core := c }) (i := i) hwf.operations).own
    rcases Batch.writeResult_outcome (b := { core := c }) hop with hr | ⟨hr, hgone⟩ |
      ⟨hrep, hr, hall⟩ | ⟨hrep, hr, hgone⟩
    · rw [show List.filterMap Effect.report (Batch.writeResult { core := c } i).effects = [] from hr,
        List.append_nil]
      refine ⟨fun op' hop' => ?_, h.listed, fun ht => (hold _ hserial ht).elim⟩
      obtain ⟨op0, hop0, -, hkeep⟩ := hown op' hop'
      obtain rfl : op = op0 := Option.some.inj (hop.symm.trans hop0)
      refine hknown.imp_right fun ⟨hq, hrep⟩ => ⟨hq, ?_⟩
      cases hnew : op'.reported with
      | true => rfl
      | false => cases hrep.symm.trans (hkeep hnew)
    · rw [show List.filterMap Effect.report (Batch.writeResult { core := c } i).effects =
        [.failed] from hr]
      refine ⟨fun op' hop' => ?_, ?_, fun ht => (hold _ hserial ht).elim⟩
      · cases hgone.symm.trans hop'
      · rcases hknown with rfl | ⟨rfl, -⟩ <;> decide
    · rw [show List.filterMap Effect.report (Batch.writeResult { core := c } i).effects =
        [.queued] from hr, hfirst hrep]
      exact ⟨fun op' hop' => .inr ⟨rfl, hall op' hop'⟩, by decide,
        fun ht => (hold _ hserial ht).elim⟩
    · rw [show List.filterMap Effect.report (Batch.writeResult { core := c } i).effects =
        [.written] from hr, hfirst hrep]
      refine ⟨fun op' hop' => ?_, by decide, fun ht => (hold _ hserial ht).elim⟩
      cases hgone.symm.trans hop'

end Story

theorem run_story (hc : Created c) (events : List Event) (t : Nat) :
    Story ((run c events).reports t) t (run c events).core := by
  induction events using List.reverseRecOn with
  | nil => exact .blank
  | append_singleton events e ih =>
    have ho := run_inOrder hc events
    have hwf := run_wf hc events
    rw [run_concat, Run.reports_next]
    by_cases he : e.results t = true
    · rw [if_pos he]
      cases e with
      | refresh peer => cases he
      | input i => exact ih.result ho hwf (of_decide_eq_true he)
    · rw [if_neg he, List.append_nil]
      cases e with
      | refresh peer =>
        have hsame : ((run c events).core.refreshAdmission peer).serial =
            (run c events).core.serial ∧ ((run c events).core.refreshAdmission peer).operations =
            (run c events).core.operations := by
          unfold Core.refreshAdmission
          split <;> split <;> exact ⟨rfl, rfl⟩
        exact ih.keep (le_of_eq hsame.1.symm) fun _ => congrArg (·.lookup t) hsame.2
      | input i =>
        obtain ⟨hs, hold, -⟩ := apply_filed ho hwf i
        exact ih.keep hs fun ht => hold t ht fun h => he (decide_eq_true h)

/-! ### Replies that have no outcome yet -/

/-- A result that says that the write of `s` has failed. -/
def Effect.FailedBy (s : Effect) (i : Input) : Prop :=
  i.err.isSome = true ∨ i.stage = .skipped ∨
    i.stage = .written ∧ i.bytes ≠ if i.expectedBytes = 0 then s.size else i.expectedBytes

omit [BasePackage] in
theorem Effect.FailedBy.error {s : Effect} (h : s.FailedBy i) {op : Operation}
    (hlen : op.length = s.size) : ∃ err, Batch.writeError i op = some err := by
  unfold Batch.writeError
  rw [hlen]
  cases herr : i.err with
  | some err => exact ⟨err, rfl⟩
  | none =>
    rcases h with h | h | ⟨h, hbytes⟩
    · rw [herr] at h
      cases h
    · rw [h]
      exact ⟨_, rfl⟩
    · rw [h]
      exact ⟨_, if_neg hbytes⟩

/-- The events have a result for `t` that is its last one. -/
def Concluded (connection : Connection) (t : Nat) (events : List Event) : Prop :=
  ∃ j, .input j ∈ events ∧ j.Results t ∧ j.connection = connection ∧ Batch.isFinal j = true

/-- The events have a result for `t` from the queue. -/
def Queued (connection : Connection) (t : Nat) (events : List Event) : Prop :=
  ∃ j, .input j ∈ events ∧ j.Results t ∧ j.connection = connection ∧ j.stage = .queue

/-- The core has the write of `s` on its table, and has heard `events` since. -/
structure Awaited (s : Effect) (events : List Event) (c : Core) : Prop where
  token : s.token ≤ c.serial
  entry : ∃ op, c.operations.lookup s.token = some op ∧ op.required = s.required ∧
    (op.required = true → op.control = none) ∧ op.length = s.size ∧
    (op.queued = true → Queued c.cfg.connection s.token events)

namespace Awaited

variable {s : Effect} {events : List Event} {c c' : Core}

omit [BasePackage] in
theorem keep (h : Awaited s events c) (hs : c.serial ≤ c'.serial)
    (hconn : c'.cfg.connection = c.cfg.connection)
    (ho : c'.operations.lookup s.token = c.operations.lookup s.token) (e : Event) :
    Awaited s (events ++ [e]) c' := by
  obtain ⟨op, hop, h1, h2, h3, h4⟩ := h.entry
  refine ⟨h.token.trans hs, op, ho.trans hop, h1, h2, h3, fun hq => ?_⟩
  obtain ⟨j, hj, hrest⟩ := h4 hq
  exact ⟨j, List.mem_append_left _ hj, hconn ▸ hrest⟩

theorem next (h : Awaited s events c) (ho : c.InOrder) (hwf : c.state.WF) (e : Event)
    (hopen : ¬ Concluded c.cfg.connection s.token (events ++ [e])) :
    Awaited s (events ++ [e]) (c.apply e).1 := by
  have hconn : (c.apply e).1.cfg.connection = c.cfg.connection := (apply_step hwf e).connection
  cases e with
  | refresh peer =>
    have hsame : (c.refreshAdmission peer).serial = c.serial ∧
        (c.refreshAdmission peer).operations = c.operations := by
      unfold Core.refreshAdmission
      split <;> split <;> exact ⟨rfl, rfl⟩
    exact h.keep (le_of_eq hsame.1.symm) hconn (congrArg (·.lookup s.token) hsame.2) _
  | input i =>
    obtain ⟨hs, hold, -⟩ := apply_filed ho hwf i
    by_cases hi : i.Results s.token
    · rcases apply_result (c := c) hi.1 with heq | ⟨hi', heq⟩
      · exact h.keep hs hconn (by rw [heq]) _
      · have hmem : Event.input i ∈ events ++ [Event.input i] :=
          List.mem_append_right _ (List.mem_singleton.2 rfl)
        have hprogress : i.stage = .queue ∧ i.err = none := by
          have hnot : ¬ Batch.isFinal i = true := fun hf => hopen ⟨i, hmem, hi, hi', hf⟩
          simpa [Batch.isFinal] using hnot
        obtain ⟨op, hop, h1, h2, h3, h4⟩ := h.entry
        rw [← hi.2] at hop
        obtain ⟨op', hop', h1', h2', h3'⟩ := Batch.writeResult_progress (b := { core := c }) hop
          hprogress.1 hprogress.2
        refine ⟨h.token.trans hs, op', ?_, h1'.trans h1, fun hreq => ?_, h3'.trans h3, fun _ => ?_⟩
        · rw [heq, ← hi.2]
          exact hop'
        · exact h2'.trans (h2 (h1'.symm.trans hreq))
        · exact ⟨i, hmem, hi, hconn ▸ hi', hprogress.1⟩
    · exact h.keep hs hconn (hold s.token h.token hi) _

end Awaited

theorem run_awaited (hc : Created c) (before : List Event) (e : Event) {s : Effect}
    (hs : s ∈ ((run c before).core.apply e).2) (hk : s.kind = .send) (after : List Event)
    (hopen : ¬ Concluded c.cfg.connection s.token after) :
    Awaited s after (run c (before ++ e :: after)).core := by
  induction after using List.reverseRecOn with
  | nil =>
    rw [run_concat]
    cases e with
    | refresh peer => exact (List.not_mem_nil hs).elim
    | input i =>
      obtain ⟨-, -, hsends⟩ := apply_filed (run_inOrder hc before) (run_wf hc before) i
      obtain ⟨-, hle, op, hop, hw⟩ := hsends s hs hk
      refine ⟨hle, op, hop, hw.required, hw.alone, hw.length, fun hq => ?_⟩
      cases hw.queued.symm.trans hq
  | append_singleton after e' ih =>
    have hprev := ih fun ⟨j, hj, hrest⟩ => hopen ⟨j, List.mem_append_left _ hj, hrest⟩
    have hsplit : before ++ e :: (after ++ [e']) = (before ++ e :: after) ++ [e'] := by simp
    rw [hsplit, run_concat]
    refine hprev.next (run_inOrder hc _) (run_wf hc _) e' ?_
    rw [run_connection hc]
    exact hopen

/-! ### Inputs that are no results -/

omit [BasePackage] in
/-- The report of an effect that is not about a write that has been queued or written. -/
def Effect.Mute (e : Effect) : Prop := e.report ≠ some .queued ∧ e.report ≠ some .written

/-- Nothing is due, and nothing is said of writes that were queued or written. -/
structure Desk.Muted (d : Desk) : Prop where
  due : d.due = none
  effects : ∀ e ∈ d.effects, e.Mute

namespace Desk.Muted

variable {i : Input} {d d' : Desk}

section

omit [BasePackage]

theorem emit (h : d.Muted) (he : e.Mute) (hd : d'.due = d.due) (hes : d'.effects = d.effects ++ [e])
    : d'.Muted := by
  refine ⟨hd.trans h.due, fun x hx => ?_⟩
  rw [hes] at hx
  rcases List.mem_append.1 hx with hx | hx
  · exact h.effects x hx
  · rw [List.mem_singleton.1 hx]
    exact he

theorem mute_of_kind (h : e.kind ≠ .notify) : e.Mute := by
  rw [Effect.Mute, Effect.report_of_kind h]
  exact ⟨nofun, nofun⟩

theorem mute_of_inert (h : e.Inert) : e.Mute := by
  by_cases hk : e.kind = .notify
  · have hidle : e.notification.Idle := by simpa [Effect.Inert, hk] using h
    unfold Effect.Mute Effect.report
    split
    · exact ⟨fun h => hidle.queued (Option.some.inj h), fun h => hidle.written (Option.some.inj h)⟩
    · simp
  · exact mute_of_kind hk

theorem step (hi : i.kind ≠ .writeResult) (ha : Act i d d') (h : d.Muted) : d'.Muted := by
  cases ha with
  | inert he => exact h.emit (mute_of_inert he) rfl rfl
  | issue he _ =>
    exact h.emit (mute_of_kind fun hk => by simp [EffectKind.issues, hk] at he) rfl rfl
  | arm _ hk => exact h.emit (mute_of_kind (by rw [hk]; decide)) rfl rfl
  | stop _ hk => exact h.emit (mute_of_kind (by rw [hk]; decide)) rfl rfl
  | send hw _ => exact h.emit (mute_of_kind (by rw [hw.kind]; decide)) rfl rfl
  | select hw => exact h.emit (mute_of_kind (by rw [hw.kind]; decide)) rfl rfl
  | decide _ _ hk => exact h.emit (mute_of_kind (by rw [hk]; decide)) rfl rfl
  | announce hdue => cases h.due.symm.trans hdue
  | finish hk | queue hk | note hk => exact (hi hk).elim
  | take | closing | freeze => exact ⟨h.due, h.effects⟩

end

end Desk.Muted

theorem apply_muted (ho : c.InOrder) (hwf : c.state.WF) (e : Event) {x : Effect}
    (hx : x ∈ (c.apply e).2) (hr : x.report = some .queued ∨ x.report = some .written) :
    ∃ i, e = .input i ∧ i.kind = .writeResult := by
  cases e with
  | refresh peer => exact (List.not_mem_nil hx).elim
  | input i =>
    by_cases hi : i.kind = .writeResult
    · exact ⟨i, rfl, hi⟩
    obtain ⟨u, hacts⟩ := Batch.handleInto_handles (i := i) (b := { core := c }) ho.orderly hwf []
    have h0 : (Batch.desk { core := c } [] none).Muted :=
      ⟨rfl, List.forall_mem_nil _⟩
    have hmute := (hacts.invariant (Desk.Muted.step hi) h0).effects x.bare
      (List.mem_map_of_mem hx)
    exact (hr.elim hmute.1 hmute.2).elim

/-- The outcomes of a required reply, in every run: it is reported queued or written at most once,
failed at most once and not before it is reported queued, and never both written and failed. While the
core has not ended and the reply has had no last result, a failure is reported, unless it comes from
a queue that has taken the reply before. Only results report that replies are queued or written. -/
theorem reply_outcomes {c : Core} (hc : Created c) (before : List Event) (e : Event)
    (after : List Event) {s : Effect} (hs : s ∈ ((run c before).core.apply e).2)
    (hk : s.kind = .send) (hreq : s.required = true) :
    (run c (before ++ e :: after)).reports s.token ∈ stories ∧
    (∀ i : Input, i.Results s.token → i.connection = c.cfg.connection →
      (run c (before ++ e :: after)).core.phase.ended = false →
      ¬ Concluded c.cfg.connection s.token after → s.FailedBy i →
      ¬ (i.stage = .queue ∧ Queued c.cfg.connection s.token after) →
      ((run c (before ++ e :: after)).core.apply (.input i)).2.filterMap Effect.report =
        [.failed]) ∧
    ∀ (events : List Event) (e' : Event), ∀ x ∈ ((run c events).core.apply e').2,
      x.report = some .queued ∨ x.report = some .written →
        ∃ i, e' = .input i ∧ i.kind = .writeResult := by
  refine ⟨(run_story hc _ _).listed, ?_, fun events e' x hx hr =>
    apply_muted (run_inOrder hc events) (run_wf hc events) e' hx hr⟩
  intro i hi hconn hlive hopen hfail hq
  obtain ⟨op, hop, hreq', hctl, hlen, hqueue⟩ := (run_awaited hc before e hs hk after hopen).entry
  have hrequired : op.required = true := hreq'.trans hreq
  obtain ⟨err, herr⟩ := hfail.error hlen
  have hfirst : i.stage = .queue → op.queued = false := by
    intro hst
    cases hqd : op.queued with
    | false => rfl
    | true =>
      have hold := hqueue hqd
      rw [run_connection hc] at hold
      exact (hq ⟨hst, hold⟩).elim
  rw [← hi.2] at hop
  have h := Batch.writeResult_fails (b := { core := (run c (before ++ e :: after)).core }) hop
    hrequired (hctl hrequired) hlive hfirst herr
  rw [apply_own hi.1 (hconn.trans (run_connection hc _).symm)]
  exact h

/-- A result for the first write of a core. -/
def sampleResult (stage : WriteStage) (err : Option ProtocolError) : Input :=
  { sampleInput .writeResult 1 with stage := stage, err := err }

omit [BasePackage] in
/-- The reply to a CER with a reserved header bit set is queued. When its queue then says that it
has failed, that is a last result, but nothing is reported and the core goes on. -/
theorem not_reply_outcomes : @Created samplePackage (sampleCore false) ∧
    (∃ s ∈ (@Core.apply samplePackage (sampleCore false) (.input sampleRejected)).2,
      s.kind = .send ∧ s.required = true ∧ s.token = 1) ∧
    Batch.isFinal (sampleResult .queue none) = false ∧
    Batch.isFinal (sampleResult .queue (some .shortWrite)) = true ∧
    (@run samplePackage (sampleCore false) [.input sampleRejected,
      .input (sampleResult .queue none)]).core.phase = .preCER ∧
    (@Core.apply samplePackage (@run samplePackage (sampleCore false) [.input sampleRejected,
      .input (sampleResult .queue none)]).core
        (.input (sampleResult .queue (some .shortWrite)))).2.filterMap Effect.report = [] := by
  refine ⟨sampleCore_created false, ?_, rfl, rfl, ?_, ?_⟩ <;> decide +kernel

omit [BasePackage] in
/-- A reply that is queued may still be skipped by its writer; a core that reports queued replies has
said so before. -/
theorem reply_outcomes_skipped :
    ∃ s : Effect, s.token = 1 ∧ s.required = true ∧
    (@run samplePackage (sampleCore false) ([] ++ .input sampleRejected ::
      [.input (sampleResult .queue none)])).reports 1 ∈ stories ∧
    (@Core.apply samplePackage (@run samplePackage (sampleCore false) ([] ++ .input sampleRejected ::
      [.input (sampleResult .queue none)])).core
        (.input (sampleResult .skipped none))).2.filterMap Effect.report = [.failed] := by
  have hsend : ∃ s ∈ (@Core.apply samplePackage (sampleCore false) (.input sampleRejected)).2,
      s.kind = .send ∧ s.required = true ∧ s.token = 1 := by decide +kernel
  have hlive : (@run samplePackage (sampleCore false) ([] ++ .input sampleRejected ::
      [.input (sampleResult .queue none)])).core.phase.ended = false := by decide +kernel
  obtain ⟨s, hs, hk, hreq, ht⟩ := hsend
  have h := @reply_outcomes samplePackage _ (sampleCore_created false) [] (.input sampleRejected)
    [.input (sampleResult .queue none)] s hs hk hreq
  refine ⟨s, ht, hreq, ht ▸ h.1, h.2.1 (sampleResult .skipped none) ⟨rfl, ht.symm⟩ rfl hlive ?_
    (.inr (.inl rfl)) nofun⟩
  rintro ⟨j, hj, -, -, hfinal⟩
  cases List.mem_singleton.1 hj
  cases hfinal

end Diameter.Protocol
