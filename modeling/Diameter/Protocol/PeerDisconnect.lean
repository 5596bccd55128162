import Diameter.Protocol.Latch
import Diameter.Protocol.Order

/-!
# Protocol.PeerDisconnect

The decision a core takes on the DPR of its peer, and the report of the disconnect.

* `Core.validDPR`  — the cause of a valid DPR from the admitted host, in terms of the input.
* `Records`        — one call records the cause of such a DPR, if it is the first, and nothing else.
* `Desk.Reported`  — the reports made, due and still to be made are one at most.
-/

namespace Diameter.Protocol

open Lib BasePackage

variable {c : Core} {e : Effect} {op : Operation}
variable {b b' : Batch} {u : Option Notification}

/-- From `c` to `c'` the cause `v` of a valid DPR is recorded, if there is one and it is the
first. -/
structure Records (c c' : Core) (v : Option UInt32) : Prop where
  peerDPR : c'.peerDPR = (c.peerDPR || v.isSome)
  peerCause : c'.peerCause = if c.peerDPR then c.peerCause else v.getD c.peerCause

theorem Does.records {i : Input} (h : Does i b b') (hi : ¬ i.BringsDPR) :
    b'.core.peerDPR = b.core.peerDPR ∧ b'.core.peerCause = b.core.peerCause := by
  refine (h [] none).invariant (P := fun d => d.peerDPR = b.core.peerDPR ∧
    d.peerCause = b.core.peerCause) (fun ha hd => ?_) ⟨rfl, rfl⟩
  cases ha with
  | decide hdpr => exact (hi hdpr).elim
  | _ => exact hd

namespace Records

variable {c' : Core} {i : Input} {p : Packet} {v : Option UInt32}

theorem same (h : c'.peerDPR = c.peerDPR ∧ c'.peerCause = c.peerCause) : Records c c' none := by
  refine ⟨by simp [h.1], ?_⟩
  rw [h.2]
  split <;> rfl

/-- What is done without a DPR records none. -/
theorem idle (h : Does { i with kind := .start } b b') :
    Records b.core b'.core none :=
  .same (h.records fun hi => by cases hi.1)

/-- Nor does what is done with one that fails a check. -/
theorem refused {P : Prop} {_ : Decidable P}
    (h : Does { i with kind := .start } b b') (hP : ¬ P) :
    Records b.core b'.core (if P then v else none) := by
  rw [if_neg hP]
  exact .idle h

theorem after (h : Records c b.core v) (h' : Does { i with kind := .start } b b') :
    Records c b'.core v := by
  obtain ⟨h1, h2⟩ := h'.records fun hi => by cases hi.1
  exact ⟨h1.trans h.peerDPR, h2.trans h.peerCause⟩

theorem before (h : Records b.core c v) (h' : Does { i with kind := .start } b' b) :
    Records b'.core c v := by
  obtain ⟨h1, h2⟩ := h'.records fun hi => by cases hi.1
  exact ⟨by rw [h.peerDPR, h1], by rw [h.peerCause, h1, h2]⟩

end Records

section

variable [BasePackage]

/-- The core takes up what it receives: its peer is admitted, nothing is held back, and its last
answer is not on its way. -/
def Core.serves (c : Core) : Bool :=
  !c.terminal && c.hookToken = 0 && (c.phase = .opened && c.ready ||
    c.phase = .closing && (!c.passiveResponder || c.passivePresent))

/-- The Disconnect-Cause of a valid DPR from the admitted host, on a core that takes it up. -/
def Core.validDPR (c : Core) (i : Input) : Option UInt32 :=
  match i.kind, i.message with
  | .receive, .packet p =>
    if i.connection = c.cfg.connection ∧ c.serves = true ∧ i.error.isNone = true ∧
      i.errorInput = false ∧ isDPR p = true ∧ (validateHeader p.header).isNone = true ∧
      (validateMessage p).isNone = true ∧ (c.validateRequest p none).isNone = true ∧
      c.bound p false = true
    then (validateDPR p.message).toOption else none
  | _, _ => none

/-- The peer of the core is admitted. -/
def Core.Admits (c : Core) : Prop :=
  c.phase = .opened ∨ c.phase = .closing ∧ (c.passiveResponder = false ∨ c.passivePresent = true)

instance (c : Core) : Decidable c.Admits := inferInstanceAs (Decidable (_ ∨ _))

namespace Batch

variable {i j : Input} {p : Packet}

theorem acceptDPR_records (hv : b.core.phase ≠ .closing → (b.core.timers .closing).token = 0) :
    Records b.core (b.acceptDPR j p).core (some j.cause) := by
  unfold acceptDPR
  generalize hb1 : (if b.core.peerDPR = true then b
      else (b.update fun c => { c with peerDPR := true, peerCause := j.cause }).emit
        { kind := .peerDisconnectDecision, cause := j.cause }) = b1
  have h1 : Records b.core b1.core (some j.cause) ∧ b1.core.phase = b.core.phase ∧
      b1.core.timers = b.core.timers := by
    rw [← hb1]
    split
    next h => exact ⟨⟨by simp [h], by simp [h]⟩, rfl, rfl⟩
    next h => exact ⟨⟨by simp [emit, update], by simp [emit, update, h]⟩, rfl, rfl⟩
  have hdpr : b1.core.peerDPR = true := by simp [h1.1.peerDPR]
  refine h1.1.after (i := j) (Does.refl.acceptedDPR hdpr ?_)
  rwa [h1.2.1, h1.2.2]

theorem dpr_records (hv : b.core.phase ≠ .closing → (b.core.timers .closing).token = 0) :
    Records b.core (b.dpr j p).core
      (if b.core.bound p false = true then (validateDPR p.message).toOption else none) := by
  unfold dpr
  split
  next text htext =>
    rw [htext, Except.toOption, ite_self]
    exact .idle (i := j) Does.refl.discardCause
  next cause hcause =>
    split
    next hb => exact .refused (i := j) Does.refl.discardCause (by simpa using hb)
    next hb =>
      rw [if_pos (by simpa using hb), hcause]
      exact acceptDPR_records (j := { j with cause := cause }) hv

/-- The checks a message passes on a core that takes it up. -/
def passes (c : Core) (i : Input) (p : Packet) : Prop :=
  i.error.isNone = true ∧ i.errorInput = false ∧ (validateHeader p.header).isNone = true ∧
    (validateMessage p).isNone = true ∧ (c.validateRequest p none).isNone = true

instance (c : Core) (i : Input) (p : Packet) : Decidable (passes c i p) :=
  inferInstanceAs (Decidable (_ ∧ _))

omit [BasePackage] in
theorem activity_core : ∃ n ts, (b.activity i).core = { b.core with serial := n, timers := ts } := by
  unfold activity
  split
  · exact ⟨_, _, rfl⟩
  · obtain ⟨n, ts, hr, -⟩ := watchdogArm_retimed (b := b) (t := i.time) (d := i.interval)
    exact ⟨n, ts, hr.core⟩

section

variable (hd : isDPR p = true)
include hd

omit [BasePackage] in
theorem isDPR_not (cmd : BaseCommand) (hc : BaseCommand.disconnectPeer ≠ cmd) :
    p.header.isBase cmd = false := by
  simp only [isDPR, Bool.and_eq_true] at hd
  exact isBase_disjoint hd.1 hc

omit [BasePackage] in
theorem isDPR_not_cer :
    (p.header.commandCode == BaseCommand.capabilitiesExchange.code) = false := by
  simp only [isDPR, Bool.and_eq_true] at hd
  rw [isBase_code hd.1]
  decide

theorem dispatch_dpr : b.dispatch j p = b.dpr j p := by
  have hdw := isDPR_not hd .deviceWatchdog (by decide)
  simp only [isDPR, Bool.and_eq_true] at hd
  unfold dispatch
  rw [hdw, if_neg Bool.false_ne_true, if_pos hd.1, if_pos hd.2]

variable (hv : b.core.phase ≠ .closing → (b.core.timers .closing).token = 0)
include hv

theorem receiveValid_records (hp : b.core.phase ≠ .preCER) {n : Nat} :
    Records b.core (b.receiveValid j p n).core
      (if (validateMessage p).isNone = true ∧ (b.core.validateRequest p none).isNone = true ∧
        b.core.bound p false = true then (validateDPR p.message).toOption else none) := by
  have hcode : (p.header.commandCode == BaseCommand.deviceWatchdog.code) = false := by
    simp only [isDPR, Bool.and_eq_true] at hd
    rw [isBase_code hd.1]
    decide
  have hboth := hd
  simp only [isDPR, Bool.and_eq_true] at hboth
  unfold receiveValid
  rw [if_neg (by simp [hcode])]
  cases hm : validateMessage p with
  | some err =>
    dsimp only
    rw [if_neg (by simp [hboth.2])]
    exact .refused (i := j) Does.refl.reject (by simp)
  | none =>
    dsimp only
    cases hr : b.core.validateRequest p none with
    | some rejection => exact .refused (i := j) Does.refl.requestError (by simp)
    | none =>
      dsimp only
      rw [if_neg hp, if_neg (by simp [hboth.1, hboth.2]), dispatch_dpr hd]
      have h := dpr_records (j := j) (p := p) hv
      simpa using h

theorem receiveAdmitted_records (hp : b.core.phase ≠ .preCER) :
    Records b.core (b.receiveAdmitted i p).core
      (if passes b.core i p ∧ b.core.bound p false = true
        then (validateDPR p.message).toOption else none) := by
  have hcer := isDPR_not hd .capabilitiesExchange (by decide)
  have hact : Does { i with kind := .start } b (b.activity i) := Does.refl.activity
  obtain ⟨n, ts, hcore⟩ := @activity_core b i
  have hv' : (b.activity i).core.phase ≠ .closing →
      ((b.activity i).core.timers .closing).token = 0 := by
    rw [(Does.activity_closing b).1, (Does.activity_closing b).2]
    exact hv
  have hp' : (b.activity i).core.phase ≠ .preCER := by rwa [hcore]
  unfold receiveAdmitted
  dsimp only
  rw [if_neg (by simp [hcer]), if_neg (by simp [hcer])]
  cases hh : validateHeader p.header with
  | some e =>
    have herr : ∃ me, (headerPrecedence i p.header).error = some me := by
      unfold headerPrecedence
      rw [hh]
      dsimp only
      split
      next hf =>
        cases he : i.error with
        | none => rw [he] at hf; cases hf
        | some me => exact ⟨me, rfl⟩
      · exact ⟨_, rfl⟩
    obtain ⟨me, herr⟩ := herr
    rw [herr]
    refine .refused (i := i) hact.messageError ?_
    simp [passes, hh]
  | none =>
    have hsame : headerPrecedence i p.header = i := by
      unfold headerPrecedence
      rw [hh]
    rw [hsame]
    cases he : i.error with
    | some me =>
      refine .refused (i := i) hact.messageError ?_
      simp [passes, he]
    | none =>
      dsimp only
      cases hin : i.errorInput with
      | true =>
        rw [if_pos rfl]
        refine .refused (i := i) hact.discard ?_
        simp [passes, hin]
      | false =>
        rw [if_neg Bool.false_ne_true]
        have h := receiveValid_records (j := i) (n := b.effects.length) hd hv' hp'
        have hreq : (b.activity i).core.validateRequest p none = b.core.validateRequest p none := by
          rw [hcore]
          rfl
        have hbound : (b.activity i).core.bound p false = b.core.bound p false := by
          rw [hcore]
          rfl
        have hpasses : passes b.core i p ∧ b.core.bound p false = true ↔
            (validateMessage p).isNone = true ∧ (b.core.validateRequest p none).isNone = true ∧
              b.core.bound p false = true := by
          simp [passes, he, hin, hh, and_assoc]
        rw [hreq, hbound] at h
        rw [if_congr hpasses rfl rfl]
        exact h.before hact

theorem receivePacket_records (hlive : b.core.phase.ended = false) :
    Records b.core (b.receivePacket i p).core
      (if b.core.Admits ∧ passes b.core i p ∧ b.core.bound p false = true
        then (validateDPR p.message).toOption else none) := by
  have hcer := isDPR_not hd .capabilitiesExchange (by decide)
  have hcode := isDPR_not_cer hd
  unfold receivePacket
  dsimp only
  split
  next hw =>
    rw [if_neg (by simp [hcer])]
    refine .refused (i := i) Does.refl.fail ?_
    rintro ⟨hp | ⟨hp, -⟩, -⟩ <;> simp [hp] at hw
  rename_i hw
  split
  next hshut =>
    refine .refused (i := i) Does.refl.fail ?_
    rintro ⟨hp | ⟨hp, h | h⟩, -⟩ <;> simp [*] at hshut
  rename_i hopen
  have hphase : b.core.Admits := by
    cases hp : b.core.phase with
    | opened => exact .inl hp
    | closing =>
      refine .inr ⟨hp, ?_⟩
      cases hpas : b.core.passiveResponder with
      | false => exact .inl rfl
      | true => exact .inr (by simpa [hp, hpas, hcode] using hopen)
    | preCER => simp [hp, hcode] at hopen
    | waitCEA => simp [hp] at hw
    | closed | retired => rw [hp] at hlive; cases hlive
  have hp : b.core.phase ≠ .preCER := by rcases hphase with h | ⟨h, -⟩ <;> rw [h] <;> decide
  have h := receiveAdmitted_records (i := i) hd hv hp
  simpa [hphase] using h

theorem receive_records (hm : i.message = .packet p) (hlive : b.core.phase.ended = false) :
    Records b.core (b.receive i).core
      (if b.core.serves = true ∧ passes b.core i p ∧ b.core.bound p false = true
        then (validateDPR p.message).toOption else none) := by
  have hboth := hd
  simp only [isDPR, Bool.and_eq_true] at hboth
  have hallowed : Core.closingAllowed i = true := by
    unfold Core.closingAllowed
    rw [hm]
    exact if_pos hboth.1
  unfold receive
  dsimp only
  split
  next hclosed =>
    refine .refused (i := i) Does.refl.discard ?_
    rintro ⟨-, ⟨-, h, -⟩, -⟩
    simp [h] at hclosed
  split
  next hnil => simp [hm, Incoming.isNil] at hnil
  split
  next hshut =>
    refine .refused (i := i) Does.refl.discard ?_
    rintro ⟨h, -⟩
    simp only [hallowed, Bool.not_true, Bool.and_false, Bool.or_false] at hshut
    simp [Core.serves, hshut] at h
  rename_i hopen
  split
  next hheld =>
    refine .refused (i := i) Does.refl.hold ?_
    rintro ⟨h, -⟩
    simp only [Core.serves, Bool.and_eq_true, Bool.or_eq_true, decide_eq_true_eq] at h
    rcases h with ⟨⟨-, hhook⟩, ⟨hp, hr⟩ | ⟨hp, -⟩⟩
    · simp [hhook, hr] at hheld
    · simp [hhook, hp] at hheld
  rename_i hfree
  rw [hm]
  have hserves : b.core.serves = true ↔ b.core.Admits := by
    simp only [Bool.or_eq_true, not_or, Bool.not_eq_true, hallowed] at hopen
    simp only [Bool.or_eq_true, Bool.and_eq_true, decide_eq_true_eq, not_or, not_and,
      ne_eq, not_not, Bool.not_eq_true', Bool.not_eq_false] at hfree
    simp only [Core.serves, Core.Admits, hopen.1, hfree.1, Bool.and_eq_true, Bool.or_eq_true,
      Bool.not_false, decide_true, true_and, decide_eq_true_eq, Bool.not_eq_true']
    refine or_congr ⟨fun h => h.1, fun h => ⟨h, hfree.2 h⟩⟩ Iff.rfl
  rw [if_congr (and_congr_left' hserves) rfl rfl]
  exact receivePacket_records hd hv hlive

end

end Batch

/-! ## One call -/

section

variable {i : Input} {p : Packet}

theorem validDPR_eq (hk : i.kind = .receive) (hm : i.message = .packet p) (hd : isDPR p = true)
    (hconn : i.connection = c.cfg.connection) : c.validDPR i =
      if c.serves = true ∧ Batch.passes c i p ∧ c.bound p false = true
        then (validateDPR p.message).toOption else none := by
  unfold Core.validDPR
  rw [hk, hm]
  refine if_congr ?_ rfl rfl
  simp [Batch.passes, hconn, hd, and_assoc]

theorem validDPR_none (h : ¬ (i.BringsDPR ∧ i.connection = c.cfg.connection)) :
    c.validDPR i = none := by
  unfold Core.validDPR
  split
  next p hk hm =>
    refine if_neg ?_
    rintro ⟨hconn, -, -, -, hd, -⟩
    exact h ⟨⟨hk, p, hm, hd⟩, hconn⟩
  · rfl

theorem validDPR_refresh : (Batch.refreshAddresses c i).validDPR i = c.validDPR i := by
  unfold Batch.refreshAddresses
  split <;> rfl

end

/-- The cause of the valid DPR an event brings, if it brings one. -/
def Core.peerRequest (c : Core) : Event → Option UInt32
  | .input i => c.validDPR i
  | .refresh _ => none

theorem apply_records (ho : c.InOrder) (hwf : c.state.WF) (e : Event) :
    Records c (c.apply e).1 (c.peerRequest e) := by
  cases e with
  | refresh peer =>
    refine .same ?_
    show (c.refreshAdmission peer).peerDPR = _ ∧ (c.refreshAdmission peer).peerCause = _
    unfold Core.refreshAdmission
    split <;> split <;> exact ⟨rfl, rfl⟩
  | input i =>
    show Records c (Batch.handleInto { core := c } i).core (c.validDPR i)
    by_cases hi : i.BringsDPR ∧ i.connection = c.cfg.connection
    · obtain ⟨⟨hk, p, hm, hd⟩, hconn⟩ := hi
      by_cases hlive : c.phase.ended = true
      · have hsame : Batch.handleInto { core := c } i = { core := c } := by
          simp [Batch.handleInto, hconn, hk, hlive]
        have hserves : ¬ c.serves = true := by
          unfold Core.serves
          revert hlive
          cases c.phase <;> simp [Phase.ended]
        rw [hsame, validDPR_eq hk hm hd hconn, if_neg fun h => hserves h.1]
        exact .same ⟨rfl, rfl⟩
      · have hb : Batch.handleInto { core := c } i =
            Batch.received { core := Batch.refreshAddresses c i } i := by
          simp [Batch.handleInto, hconn, hk, hlive, Batch.handleLive, Batch.update]
        have hcore : Batch.refreshAddresses c i = { c with
            cfg := (Batch.refreshAddresses c i).cfg, caps := (Batch.refreshAddresses c i).caps } := by
          unfold Batch.refreshAddresses
          split <;> rfl
        have hconn' : i.connection = (Batch.refreshAddresses c i).cfg.connection := by
          rw [hconn]
          unfold Batch.refreshAddresses
          split <;> rfl
        have hv := ho.orderly.closing
        have h := Batch.receive_records (b := { core := Batch.refreshAddresses c i }) (i := i) hd
          (by rw [hcore]; exact hv) hm (by rw [hcore]; exact Bool.eq_false_iff.2 hlive)
        rw [← validDPR_eq hk hm hd hconn', validDPR_refresh] at h
        have hpass := h.after (i := i) (Does.passed .refl)
        rw [hb]
        refine ⟨hpass.peerDPR.trans ?_, hpass.peerCause.trans ?_⟩
        · rw [hcore]
        · rw [hcore]
    · rw [validDPR_none hi]
      by_cases hconn : i.connection = c.cfg.connection
      · obtain ⟨u, hacts⟩ := Batch.handleInto_handles (i := i) (b := { core := c }) ho.orderly hwf []
        refine .same (hacts.invariant (P := fun d => d.peerDPR = c.peerDPR ∧
          d.peerCause = c.peerCause) (fun ha hd => ?_) ⟨rfl, rfl⟩)
        cases ha with
        | decide hdpr => exact (hi ⟨hdpr, hconn⟩).elim
        | _ => exact hd
      · have hsame : Batch.handleInto { core := c } i = { core := c } := by
          simp [Batch.handleInto, hconn]
        rw [hsame]
        exact .same ⟨rfl, rfl⟩

end

/-! ## The report of the disconnect -/

/-- A PeerDisconnectNotice. -/
def Effect.isPeerNotice (e : Effect) : Bool :=
  e.kind = .notify && e.notification.kind = .peerDisconnect

/-- The write has yet to report the disconnect of the peer. -/
def Operation.owesNotice (op : Operation) : Bool :=
  !op.reported && op.notice.any fun n => n.kind = .peerDisconnect

def Desk.dueNotice (d : Desk) : Bool := d.due.any fun n => n.kind = .peerDisconnect

/-- The causes a run decides on. -/
def decisions (es : List Effect) : List UInt32 :=
  (es.filter fun e => e.kind = .peerDisconnectDecision).map Effect.cause

/-- The decision and the report, while an input is handled; `pre` are the effects of the inputs
before. A report is made, due, or owed by a write, and all of them are one at most. -/
structure Desk.Reported (pre : List Effect) (d : Desk) : Prop where
  asked : d.remote = true ∨ d.selected = true → d.peerDPR = true
  decided : decisions (pre ++ d.effects) = if d.peerDPR then [d.peerCause] else []
  fresh : ∀ t, d.serial < t → d.operations.lookup t = none
  budget : (pre ++ d.effects).countP Effect.isPeerNotice +
    GoMap.count d.operations Operation.owesNotice + d.dueNotice.toNat ≤ d.selected.toNat
  made : ∀ e ∈ pre ++ d.effects, e.isPeerNotice = true → e.notification.cause = d.peerCause
  owed : ∀ t op, d.operations.lookup t = some op → op.owesNotice = true → ∀ n ∈ op.notice,
    n.cause = d.peerCause
  due : d.dueNotice = true → ∀ n ∈ d.due, n.cause = d.peerCause

namespace Desk.Reported

variable {pre : List Effect} {i : Input} {d d' : Desk}

theorem decisions_emit : decisions (pre ++ (d.emit e).effects) =
    decisions (pre ++ d.effects) ++ decisions [e] := by
  show decisions (pre ++ (d.effects ++ [e])) = _
  rw [← List.append_assoc, decisions, List.filter_append, List.map_append]
  rfl

theorem notices_emit : (pre ++ (d.emit e).effects).countP Effect.isPeerNotice =
    (pre ++ d.effects).countP Effect.isPeerNotice + e.isPeerNotice.toNat := by
  show (pre ++ (d.effects ++ [e])).countP _ = _
  rw [← List.append_assoc, List.countP_append, List.countP_singleton]
  cases e.isPeerNotice <;> rfl

theorem mem_emit {x : Effect} (hx : x ∈ pre ++ (d.emit e).effects) :
    x ∈ pre ++ d.effects ∨ x = e := by
  change x ∈ pre ++ (d.effects ++ [e]) at hx
  rwa [← List.append_assoc, List.mem_append, List.mem_singleton] at hx

theorem emit (h : d.Reported pre) {n : Nat} {t : Timers} {o : List Nat} (hn : d.serial ≤ n)
    (h1 : e.kind ≠ .peerDisconnectDecision) (h2 : e.isPeerNotice = false) :
    Desk.Reported pre { d.emit e with serial := n, timers := t, owed := o } := by
  refine ⟨h.asked, decisions_emit.trans ?_, fun t ht => h.fresh t (Nat.lt_of_le_of_lt hn ht), ?_,
    fun x hx hnotice => ?_, h.owed, h.due⟩
  · rw [h.decided, decisions, List.filter_cons_of_neg (by simpa using h1)]
    exact List.append_nil _
  · show (pre ++ (d.emit e).effects).countP _ + _ + _ ≤ _
    rw [notices_emit, h2]
    exact h.budget
  · rcases mem_emit hx with hx | rfl
    · exact h.made x hx hnotice
    · cases h2.symm.trans hnotice

theorem unselected (h : d.Reported pre) (hs : d.selected = false) :
    (pre ++ d.effects).countP Effect.isPeerNotice = 0 ∧
      GoMap.count d.operations Operation.owesNotice = 0 ∧ d.dueNotice = false := by
  have hb := h.budget
  rw [hs, Bool.toNat_false] at hb
  refine ⟨by omega, by omega, ?_⟩
  cases hd : d.dueNotice with
  | false => rfl
  | true =>
    rw [hd, Bool.toNat_true] at hb
    omega

theorem not_owed (h : GoMap.count d.operations Operation.owesNotice = 0) {t : Nat}
    (hop : d.operations.lookup t = some op) : op.owesNotice = false := by
  cases ho : op.owesNotice with
  | false => rfl
  | true => have := GoMap.count_pos hop ho; omega

/-- A result is entered for a write: its report, if it was owed, is due now, or no longer. -/
theorem enter (h : d.Reported pre) {ops : GoMap Nat Operation} {t : Nat}
    (hop : d.operations.lookup t = some op) (hu : u = none ∨ u = op.notice)
    (hcount : GoMap.count ops Operation.owesNotice +
      (u.any fun n => n.kind = .peerDisconnect).toNat ≤ GoMap.count d.operations Operation.owesNotice)
    (hnew : ∀ t' op', ops.lookup t' = some op' → op'.owesNotice = true → ∃ t0 op0,
      d.operations.lookup t0 = some op0 ∧ op0.owesNotice = true ∧ op0.notice = op'.notice)
    (hfresh : ∀ t', d.operations.lookup t' = none → ops.lookup t' = none)
    (hrep : u ≠ none → op.reported = false) :
    Desk.Reported pre { d with operations := ops, due := u } := by
  refine ⟨h.asked, h.decided, fun t' ht' => hfresh t' (h.fresh t' ht'), ?_, h.made, ?_, ?_⟩
  · have hb := h.budget
    show (pre ++ d.effects).countP Effect.isPeerNotice + GoMap.count ops Operation.owesNotice +
      (u.any fun n => n.kind = .peerDisconnect).toNat ≤ d.selected.toNat
    omega
  · intro t' op' hop' howes n hn
    obtain ⟨t0, op0, hop0, howes0, hsame⟩ := hnew t' op' hop' howes
    exact h.owed t0 op0 hop0 howes0 n (hsame ▸ hn)
  · intro hdue n hn
    rcases hu with rfl | rfl
    · cases hn
    refine h.owed t op hop ?_ n hn
    have hr := hrep (fun hnone => by rw [hnone] at hn; cases hn)
    rw [Operation.owesNotice, hr]
    exact hdue

theorem write (h : d.Reported pre) (hw : e.Writes (d.serial + 1) op) {s : Bool}
    (hb : op.owesNotice.toNat + d.selected.toNat ≤ s.toNat) (hs : s = true → d.peerDPR = true)
    (hc : op.owesNotice = true → ∀ n ∈ op.notice, n.cause = d.peerCause) :
    Desk.Reported pre { d.write e op with selected := s } := by
  have hemit := h.emit (e := e) (n := d.serial + 1) (t := d.timers) (o := d.owed) (Nat.le_succ _)
    (by rw [hw.kind]; decide) (by simp [Effect.isPeerNotice, hw.kind])
  refine ⟨fun hr => hr.elim (fun hr => h.asked (.inl hr)) hs, hemit.decided, fun t ht => ?_, ?_,
    hemit.made, fun t op' hop' howes => ?_, hemit.due⟩
  · have hne : t ≠ d.serial + 1 := Nat.ne_of_gt ht
    exact (AList.lookup_insert_ne hne).trans (hemit.fresh t ht)
  · have hold : (pre ++ (d.emit e).effects).countP Effect.isPeerNotice +
        GoMap.count d.operations Operation.owesNotice + d.dueNotice.toNat ≤ d.selected.toNat :=
      hemit.budget
    show (pre ++ (d.emit e).effects).countP Effect.isPeerNotice +
      GoMap.count (d.operations.insert (d.serial + 1) op) Operation.owesNotice +
        d.dueNotice.toNat ≤ s.toNat
    rw [GoMap.count_insert_new _ _ (h.fresh _ (Nat.lt_succ_self _))]
    omega
  · by_cases ht : t = d.serial + 1
    · subst ht
      obtain rfl : op = op' := Option.some.inj ((AList.lookup_insert _).symm.trans hop')
      exact hc howes
    · exact hemit.owed t op' ((AList.lookup_insert_ne ht).symm.trans hop') howes

theorem decide (h : d.Reported pre) (hp : d.peerDPR = false)
    (hk : e.kind = .peerDisconnectDecision) :
    Desk.Reported pre { d.emit e with peerDPR := true, peerCause := e.cause } := by
  have hsel : d.selected = false := by
    cases hs : d.selected with
    | false => rfl
    | true => cases hp.symm.trans (h.asked (.inr hs))
  obtain ⟨hmade, howed, hdue⟩ := h.unselected hsel
  have hcount : (pre ++ (d.emit e).effects).countP Effect.isPeerNotice = 0 := by
    rw [notices_emit, hmade]
    simp [Effect.isPeerNotice, hk]
  refine ⟨fun _ => rfl, decisions_emit.trans ?_, h.fresh, ?_, fun x hx hnotice => ?_,
    fun t op hop howes => ?_, fun h => ?_⟩
  · rw [h.decided, hp]
    simp [decisions, hk]
  · show (pre ++ (d.emit e).effects).countP Effect.isPeerNotice +
      GoMap.count d.operations Operation.owesNotice + d.dueNotice.toNat ≤ d.selected.toNat
    rw [hcount, howed, hdue]
    exact Nat.zero_le _
  · exact (List.countP_eq_zero.1 hcount x hx hnotice).elim
  · cases (not_owed howed hop).symm.trans howes
  · cases hdue.symm.trans h

theorem announce (h : d.Reported pre) {n : Notification} (hdue : d.due = some n)
    (hk : e.kind = .notify) (hkind : e.notification.kind = n.kind)
    (hcause : e.notification.cause = n.cause) :
    Desk.Reported pre { d.emit e with due := none } := by
  have hnotice : e.isPeerNotice = d.dueNotice := by
    simp [Effect.isPeerNotice, Desk.dueNotice, hk, hkind, hdue]
  refine ⟨h.asked, decisions_emit.trans ?_, h.fresh, ?_, fun x hx hx' => ?_, h.owed, nofun⟩
  · rw [h.decided, decisions, List.filter_cons_of_neg (by simp [hk])]
    exact List.append_nil _
  · have hb := h.budget
    show (pre ++ (d.emit e).effects).countP Effect.isPeerNotice +
      GoMap.count d.operations Operation.owesNotice + 0 ≤ d.selected.toNat
    rw [notices_emit, hnotice]
    omega
  · rcases mem_emit hx with hx | rfl
    · exact h.made x hx hx'
    · exact hcause.trans (h.due (hnotice ▸ hx') n hdue)

theorem step (ha : Act i d d') (h : d.Reported pre) : d'.Reported pre := by
  cases ha with
  | @inert e he =>
    refine h.emit le_rfl (fun hk => by simp [Effect.Inert, hk] at he) ?_
    cases hnotice : e.isPeerNotice with
    | false => rfl
    | true =>
      simp only [Effect.isPeerNotice, Bool.and_eq_true, decide_eq_true_eq] at hnotice
      have hidle : e.notification.Idle := by simpa [Effect.Inert, hnotice.1] using he
      exact (hidle.kind hnotice.2).elim
  | take =>
    exact ⟨h.asked, h.decided, fun t ht => h.fresh t (Nat.lt_of_succ_lt ht), h.budget, h.made,
      h.owed, h.due⟩
  | @issue e he _ =>
    have hnot : e.kind ≠ .notify := fun hk => by simp [EffectKind.issues, hk] at he
    refine h.emit le_rfl (fun hk => by simp [EffectKind.issues, hk] at he) ?_
    simp [Effect.isPeerNotice, hnot]
  | arm _ hk =>
    exact h.emit (Nat.le_succ _) (by rw [hk]; decide) (by simp [Effect.isPeerNotice, hk])
  | stop _ hk => exact h.emit le_rfl (by rw [hk]; decide) (by simp [Effect.isPeerNotice, hk])
  | @send e op hw hn =>
    have hno : op.owesNotice = false := by
      cases hnotice : op.notice with
      | none => simp [Operation.owesNotice, hnotice]
      | some n => simp [Operation.owesNotice, hnotice, hn n hnotice]
    exact h.write hw (s := d.selected) (by simp [hno]) (fun hs => h.asked (.inr hs)) (by simp [hno])
  | @finish op _ hop =>
    refine h.enter hop (by split <;> simp) ?_ (fun t op' hop' howes => ?_) (fun t hnone => ?_) ?_
    · have hc := GoMap.count_erase Operation.owesNotice hop
      have hu : ((if op.reported then none else op.notice).any fun n : Notification =>
          n.kind = .peerDisconnect) = op.owesNotice := by
        unfold Operation.owesNotice
        cases op.reported <;> rfl
      rw [hu]
      exact le_of_eq hc
    · have ht : t ≠ i.token := fun ht => by
        rw [ht, AList.lookup_erase] at hop'
        cases hop'
      exact ⟨t, op', (AList.lookup_erase_ne ht).symm.trans hop', howes, rfl⟩
    · rw [GoMap.lookup_erase_eq, hnone]
      exact ite_self _
    · intro hu
      cases hr : op.reported with
      | false => rfl
      | true => rw [hr] at hu; exact (hu rfl).elim
  | @queue op _ hop =>
    have hc := GoMap.count_insert { op with queued := true } Operation.owesNotice hop
    have hsame : Operation.owesNotice { op with queued := true } = op.owesNotice := rfl
    refine ⟨h.asked, h.decided, fun t ht => ?_, ?_, h.made, fun t op' hop' howes => ?_, h.due⟩
    · have hne : t ≠ i.token := fun heq => by
        cases (h.fresh t ht).symm.trans (heq ▸ hop)
      exact (AList.lookup_insert_ne hne).trans (h.fresh t ht)
    · have hb := h.budget
      rw [hsame] at hc
      show _ + GoMap.count (d.operations.insert i.token { op with queued := true })
        Operation.owesNotice + d.dueNotice.toNat ≤ d.selected.toNat
      have heq : GoMap.count (d.operations.insert i.token { op with queued := true })
          Operation.owesNotice = GoMap.count d.operations Operation.owesNotice := by omega
      rw [heq]
      exact hb
    · by_cases ht : t = i.token
      · subst ht
        obtain rfl := Option.some.inj ((AList.lookup_insert _).symm.trans hop')
        exact h.owed _ op hop howes
      · exact h.owed t op' ((AList.lookup_insert_ne ht).symm.trans hop') howes
  | @note op _ hop hrep =>
    refine h.enter hop (.inr rfl) ?_ (fun t op' hop' howes => ?_) (fun t hnone => ?_) fun _ => hrep
    · have hc := GoMap.count_insert { op with queued := true, reported := true }
        Operation.owesNotice hop
      have hnew : Operation.owesNotice { op with queued := true, reported := true } = false := rfl
      have hold : op.owesNotice = op.notice.any fun n : Notification =>
          n.kind = .peerDisconnect := by
        rw [Operation.owesNotice, hrep]
        rfl
      rw [hnew, hold, Bool.toNat_false] at hc
      exact le_of_eq hc
    · by_cases ht : t = i.token
      · subst ht
        obtain rfl := Option.some.inj ((AList.lookup_insert _).symm.trans hop')
        cases howes
      · exact ⟨t, op', (AList.lookup_insert_ne ht).symm.trans hop', howes, rfl⟩
    · have hne : t ≠ i.token := fun heq => by cases hnone.symm.trans (heq ▸ hop)
      exact (AList.lookup_insert_ne hne).trans hnone
  | announce hdue hk hkind hcause => exact h.announce hdue hk hkind hcause
  | decide _ hp hk => exact h.decide hp hk
  | closing hv =>
    refine ⟨fun hr => ?_, h.decided, h.fresh, h.budget, h.made, h.owed, h.due⟩
    exact hr.elim hv fun hs => h.asked (.inr hs)
  | freeze => exact ⟨h.asked, h.decided, h.fresh, h.budget, h.made, h.owed, h.due⟩
  | select hw hn _ hcause _ hsel _ hpeer =>
    refine h.write hw ?_ (fun _ => hpeer.elim (fun hr => h.asked (.inl hr)) id) fun _ m hm => ?_
    · rw [hsel]
      exact Bool.toNat_le _
    · cases hn.symm.trans hm
      exact hcause

end Desk.Reported

/-! ## Runs -/

theorem Desk.Reported.join {pre : List Effect}
    (h : (b.desk [] u).Reported pre) :
    (Batch.desk { core := b.core } [] none).Reported (pre ++ b.effects.map Effect.bare) := by
  have hnil : pre ++ b.effects.map Effect.bare ++ [] = pre ++ b.effects.map Effect.bare :=
    List.append_nil _
  refine ⟨h.asked, ?_, h.fresh, ?_, ?_, h.owed, nofun⟩
  · show decisions (pre ++ b.effects.map Effect.bare ++ []) = _
    rw [hnil]
    exact h.decided
  · show (pre ++ b.effects.map Effect.bare ++ []).countP Effect.isPeerNotice +
      GoMap.count b.core.operations Operation.owesNotice + 0 ≤ b.core.peerDisconnectSelected.toNat
    rw [hnil]
    exact (Nat.le_add_right _ _).trans h.budget
  · intro e he
    exact h.made e (hnil ▸ he)

theorem Desk.Reported.blank (h1 : c.peerDPR = false) (h2 : c.peerDisconnectSelected = false)
    (h3 : c.remote = false) (h4 : ∀ t, c.operations.lookup t = none) :
    (Batch.desk { core := c } [] none).Reported [] := by
  refine ⟨?_, ?_, fun t _ => h4 t, ?_, fun e he => (List.not_mem_nil he).elim,
    fun t op hop => ?_, fun h => (Bool.false_ne_true h).elim⟩
  · rintro (h | h)
    · cases h3.symm.trans h
    · cases h2.symm.trans h
  · show [] = if c.peerDPR then [c.peerCause] else []
    rw [h1]
    rfl
  · have hcount : GoMap.count c.operations Operation.owesNotice = 0 :=
      GoMap.count_eq_zero fun t op hop => by cases (h4 t).symm.trans hop
    show 0 + GoMap.count c.operations Operation.owesNotice + 0 ≤ _
    rw [hcount]
    exact Nat.zero_le _
  · cases (h4 t).symm.trans hop

theorem decisions_bare (es : List Effect) : decisions (es.map Effect.bare) = decisions es := by
  unfold decisions
  rw [List.filter_map, List.map_map]
  rfl

/-- What the core has on record is the cause of the first valid DPR. -/
structure Recorded (requests : List UInt32) (c : Core) : Prop where
  peerDPR : c.peerDPR = requests.head?.isSome
  peerCause : c.peerCause = requests.head?.getD 0

theorem Recorded.next {rs : List UInt32} {c c' : Core} {v : Option UInt32} (h : Recorded rs c)
    (hv : Records c c' v) : Recorded (rs ++ v.toList) c' := by
  cases rs with
  | nil =>
    have hdpr : c.peerDPR = false := h.peerDPR
    refine ⟨?_, ?_⟩
    · rw [hv.peerDPR, hdpr]
      cases v <;> rfl
    · rw [hv.peerCause, hdpr, h.peerCause]
      cases v <;> rfl
  | cons r rs =>
    have hdpr : c.peerDPR = true := h.peerDPR
    exact ⟨by rw [hv.peerDPR, hdpr]; rfl, by rw [hv.peerCause, hdpr, h.peerCause]; rfl⟩

variable [BasePackage]

/-- The causes of the valid DPRs of a run, in their order. -/
def peerRequests (c : Core) (events : List Event) : List UInt32 :=
  (events.foldl (fun (x : Core × List UInt32) e =>
    ((x.1.apply e).1, x.2 ++ (x.1.peerRequest e).toList)) (c, [])).2

theorem peerRequests_concat (c : Core) (events : List Event) (e : Event) :
    peerRequests c (events ++ [e]) =
      peerRequests c events ++ ((run c events).core.peerRequest e).toList := by
  have hcore : ∀ events : List Event, (events.foldl (fun (x : Core × List UInt32) e =>
      ((x.1.apply e).1, x.2 ++ (x.1.peerRequest e).toList)) (c, [])).1 = (run c events).core := by
    intro events
    induction events using List.reverseRecOn with
    | nil => rfl
    | append_singleton events e ih =>
      rw [List.foldl_append, List.foldl_cons, List.foldl_nil, run_concat, ih]
      rfl
  rw [peerRequests, List.foldl_append, List.foldl_cons, List.foldl_nil, hcore]
  rfl

theorem run_recorded (hc : Created c) (events : List Event) :
    Recorded (peerRequests c events) (run c events).core := by
  induction events using List.reverseRecOn with
  | nil =>
    rcases hc.cases_init with ⟨cfg, rfl⟩ | ⟨cfg, peer, -, rfl⟩
    · exact ⟨rfl, rfl⟩
    · exact ⟨rfl, rfl⟩
  | append_singleton events e ih =>
    rw [run_concat, peerRequests_concat]
    exact ih.next (apply_records (run_inOrder hc events) (run_wf hc events) e)

theorem refresh_desk (c : Core) (peer : Option PeerClaims) :
    Batch.desk { core := c.refreshAdmission peer } [] none = Batch.desk { core := c } [] none := by
  have hremote : (c.refreshAdmission peer).remote = c.remote := by
    unfold Core.refreshAdmission Core.remote
    split <;> split <;> cases c.phase <;> rfl
  unfold Batch.desk
  rw [hremote]
  unfold Core.refreshAdmission
  split <;> split <;> rfl

theorem run_reported (hc : Created c) (events : List Event) :
    (Batch.desk { core := (run c events).core } [] none).Reported
      ((run c events).effects.map Effect.bare) := by
  induction events using List.reverseRecOn with
  | nil =>
    show (Batch.desk { core := c } [] none).Reported []
    rcases hc.cases_init with ⟨cfg, rfl⟩ | ⟨cfg, peer, -, rfl⟩
    · exact .blank rfl rfl rfl fun t => GoMap.lookup_empty_eq t
    · rw [refresh_desk]
      exact .blank rfl rfl rfl fun t => GoMap.lookup_empty_eq t
  | append_singleton events e ih =>
    rw [run_concat, Run.effects_next, List.map_append]
    cases e with
    | refresh peer =>
      have hdesk := refresh_desk (run c events).core peer
      show (Batch.desk { core := (run c events).core.refreshAdmission peer } [] none).Reported
        ((run c events).effects.map Effect.bare ++ [])
      rw [List.append_nil, hdesk]
      exact ih
    | input i =>
      obtain ⟨u, hacts⟩ := run_handles hc events i []
      exact (hacts.invariant Desk.Reported.step ih).join

theorem peerRequests_append (c : Core) (events later : List Event) :
    peerRequests c events <+: peerRequests c (events ++ later) := by
  induction later using List.reverseRecOn with
  | nil => rw [List.append_nil]
  | append_singleton later e ih =>
    rw [← List.append_assoc, peerRequests_concat]
    exact ih.trans (List.prefix_append _ _)

theorem peerCause_kept (hc : Created c) (events later : List Event)
    (hdpr : (run c events).core.peerDPR = true) :
    (run c (events ++ later)).core.peerCause = (run c events).core.peerCause := by
  have h := run_recorded hc events
  have h' := run_recorded hc (events ++ later)
  obtain ⟨rest, hrest⟩ := peerRequests_append c events later
  rw [h'.peerCause, h.peerCause, ← hrest]
  cases hv : peerRequests c events with
  | nil => rw [h.peerDPR, hv] at hdpr; cases hdpr
  | cons v vs => rfl

/-- The decision on the DPR of the peer, in every run: it is taken on the first valid one from the
admitted host and on no other, with its cause, which stays on record; and the disconnect is reported
at most once, with that cause. -/
theorem peer_disconnect_decision {c : Core} (hc : Created c) (events : List Event) :
    decisions (run c events).effects = (peerRequests c events).head?.toList ∧
    (run c events).effects.countP Effect.isPeerNotice ≤ 1 ∧
    (run c events).core.peerDPR = (peerRequests c events).head?.isSome ∧
    (∀ cause ∈ (peerRequests c events).head?, (run c events).core.peerCause = cause) ∧
    (∀ later, (run c events).core.peerDPR = true →
      (run c (events ++ later)).core.peerCause = (run c events).core.peerCause) ∧
    ∀ e ∈ (run c events).effects, e.isPeerNotice = true →
      (peerRequests c events).head? = some e.notification.cause := by
  have hrec := run_recorded hc events
  have hrep := run_reported hc events
  have hnil : (run c events).effects.map Effect.bare ++ [] =
      (run c events).effects.map Effect.bare := List.append_nil _
  have hcount : ((run c events).effects.map Effect.bare).countP Effect.isPeerNotice =
      (run c events).effects.countP Effect.isPeerNotice := List.countP_map
  have hbudget : (run c events).effects.countP Effect.isPeerNotice ≤
      (run c events).core.peerDisconnectSelected.toNat := by
    have hb := hrep.budget
    rw [← hcount, ← hnil]
    exact (Nat.le_add_right _ _).trans ((Nat.le_add_right _ _).trans hb)
  refine ⟨?_, hbudget.trans (Bool.toNat_le _), hrec.peerDPR, fun cause h => ?_,
    fun later => peerCause_kept hc events later, fun e he hnotice => ?_⟩
  · have hdec := hrep.decided
    rw [← decisions_bare, ← hnil]
    refine hdec.trans ?_
    show (if (run c events).core.peerDPR then [(run c events).core.peerCause] else []) = _
    rw [hrec.peerDPR, hrec.peerCause]
    cases (peerRequests c events).head? <;> rfl
  · rw [hrec.peerCause, h]
    rfl
  · have hsel : (run c events).core.peerDisconnectSelected = true := by
      have hpos : 0 < (run c events).effects.countP Effect.isPeerNotice :=
        List.countP_pos_iff.2 ⟨e, he, hnotice⟩
      cases hs : (run c events).core.peerDisconnectSelected with
      | true => rfl
      | false => rw [hs, Bool.toNat_false] at hbudget; omega
    have hdpr : (run c events).core.peerDPR = true := hrep.asked (.inr hsel)
    have hcause : e.notification.cause = (run c events).core.peerCause :=
      hrep.made e.bare (hnil.symm ▸ List.mem_map_of_mem he) hnotice
    rw [hrec.peerDPR] at hdpr
    obtain ⟨v, hv⟩ := Option.isSome_iff_exists.1 hdpr
    rw [hcause, hrec.peerCause, hv]
    rfl

omit [BasePackage] in
/-- A core that is told to disconnect decides nothing for its peer. -/
theorem peer_disconnect_decision_none :
    decisions (@run samplePackage sampleAdmitted [.input (sampleInput .disconnect 1)]).effects =
      [] := by
  have hnone : (@peerRequests samplePackage sampleAdmitted
      [.input (sampleInput .disconnect 1)]).head? = none := by decide +kernel
  have h := (@peer_disconnect_decision samplePackage _ sampleAdmitted_created
    [.input (sampleInput .disconnect 1)]).1
  rw [hnone] at h
  exact h

end Diameter.Protocol
