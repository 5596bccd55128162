import Diameter.Protocol.Completion
import Diameter.Protocol.Latch
import Diameter.Protocol.Order

/-!
# Protocol.Replies

No request is answered twice. A request the core is given is answered, held for a replay, handed to
the application, or kept until a hook, the peer layer or the dispatcher has decided about it, and
only one of these. `Work.due` adds up the requests of one exchange wherever they are, also in the
hands of a move, and no move makes it grow (`Move.due_le`).
-/

namespace Diameter.Protocol

open Lib

variable {c : Core} {i : Input} {s s' : State} {w w' : Work} {e : Effect} {es : List Effect}

/-- What an answer has in common with its request. -/
structure ExchangeKey where
  commandCode : UInt32
  hopByHopID : UInt32
  endToEndID : UInt32
deriving DecidableEq

def exchangeOf (h : Header) : ExchangeKey := ⟨h.commandCode, h.hopByHopID, h.endToEndID⟩

variable {x : ExchangeKey}

def tally (x : ExchangeKey) (h : Option Header) : Nat := (h.any fun h => exchangeOf h = x).toNat

theorem tally_none : tally x none = 0 := rfl

theorem tally_answer {a h : Header} (ha : Answers a h) : tally x (some a) = tally x (some h) := by
  have hsame : exchangeOf a = exchangeOf h := by
    rw [exchangeOf, ha.commandCode, ha.hopByHopID, ha.endToEndID, exchangeOf]
  rw [tally, tally, Option.any_some, Option.any_some, hsame]

/-- The request an effect disposes of: with its answer, a later replay, or the application. -/
def Effect.disposes (e : Effect) : Option Header :=
  match e.kind with
  | .send => if e.required then e.message.map Packet.header else none
  | .hold => e.input.bind fun i => i.message.request
  | .admitMessage => e.message.bind fun p => (Incoming.packet p).request
  | _ => none

def disposed (x : ExchangeKey) (es : List Effect) : Nat :=
  es.countP fun e => e.disposes.any fun h => exchangeOf h = x

theorem disposed_append (es es' : List Effect) :
    disposed x (es ++ es') = disposed x es + disposed x es' := List.countP_append

def Effect.Idle (e : Effect) : Prop := e.kind ∉ [EffectKind.send, .hold, .admitMessage]

theorem disposed_idle (h : ∀ e ∈ es, e.Idle) : disposed x es = 0 := by
  refine countP_unrelated fun e he => ?_
  have hk := h e he
  have hnone : e.disposes = none := by
    unfold Effect.disposes
    unfold Effect.Idle at hk
    split <;> simp_all
  rw [hnone]
  rfl

theorem idle_singleton {k : EffectKind} (hk : e.kind = k)
    (hn : k ∉ [EffectKind.send, .hold, .admitMessage]) : ∀ y ∈ [e], y.Idle := by
  intro y hy
  rwa [List.mem_singleton.1 hy, Effect.Idle, hk]

theorem Effect.Quiet.idle (hq : e.Quiet) : e.Idle := by
  intro hmem
  simp only [List.mem_cons, List.not_mem_nil, or_false] at hmem
  rcases hmem with h | h | h <;> exact hq.ne_kind (by decide) h

theorem TerminalEffects.idle {f : Phase} (ht : TerminalEffects s f es) : ∀ e ∈ es, e.Idle := by
  intro e he hmem
  simp only [List.mem_cons, List.not_mem_nil, or_false] at hmem
  rcases hmem with h | h | h <;> exact ht.ne_kind (by decide) e he h

theorem Releases.idle {l : List Reservation} (hr : Releases l es) : ∀ e ∈ es, e.Idle := by
  intro e he
  rw [Effect.Idle, hr.1 e he]
  decide

theorem Effect.OwnSend.disposes_eq {t : Nat} {m : Packet} (he : e.OwnSend t m) :
    e.disposes = none := by
  simp [Effect.disposes, he.kind, he.required]

/-- The CER that the peer layer decides about. -/
def keptCER (x : ExchangeKey) (candidate : Nat) (cer : Option Packet) : Nat :=
  if candidate = 0 then 0 else tally x (cer.map Packet.header)

/-- The DPR that waits for the dispatcher. -/
def keptDPR (x : ExchangeKey) (phase : Phase) (closeLocal frozen : Bool) (dpr : Incoming) : Nat :=
  if phase = .closing ∧ closeLocal = false ∧ frozen = false then tally x dpr.metadata else 0

/-- The requests of the exchange that a core keeps for later. -/
def State.kept (x : ExchangeKey) (s : State) : Nat :=
  GoMap.count s.continuations (fun k => exchangeOf k.packet.header = x) +
    keptCER x s.candidate s.cer + keptDPR x s.phase s.closeLocal s.frozen s.closeRequest

/-- The fields it looks at. -/
def State.files (s : State) :=
  (s.continuations, s.candidate, s.cer, s.phase, s.closeLocal, s.frozen, s.closeRequest)

theorem State.kept_congr (h : s'.files = s.files) : s'.kept x = s.kept x := by
  simp only [State.files, Prod.mk.injEq] at h
  obtain ⟨h1, h2, h3, h4, h5, h6, h7⟩ := h
  rw [State.kept, State.kept, h1, h2, h3, h4, h5, h6, h7]

theorem keptDPR_of_phase {f : Phase} {isLocal frozen : Bool} {dpr : Incoming} (h : f ≠ .closing) :
    keptDPR x f isLocal frozen dpr = 0 :=
  if_neg fun hk => h hk.1

theorem keptDPR_frozen {f : Phase} {isLocal : Bool} {dpr : Incoming} :
    keptDPR x f isLocal true dpr = 0 :=
  if_neg fun hk => Bool.noConfusion hk.2.2

/-- A state that is not closing keeps no DPR. -/
theorem State.kept_le (h1 : s'.continuations = s.continuations) (h2 : s'.candidate = s.candidate)
    (h3 : s'.cer = s.cer) (h4 : s'.phase ≠ .closing) : s'.kept x ≤ s.kept x := by
  rw [State.kept, State.kept, h1, h2, h3, keptDPR_of_phase h4]
  omega

theorem State.kept_ended {f : Phase} (hf : f.ended = true) : (s.ended f).kept x = 0 := by
  have hdpr : keptDPR x f s.closeLocal s.frozen s.closeRequest = 0 := by
    refine keptDPR_of_phase ?_
    rintro rfl
    cases hf
  exact (Nat.zero_add _).trans hdpr

theorem State.kept_refresh (h : Refresh s s') : s'.kept x ≤ s.kept x := by
  by_cases hp : s.phase = .closing
  · refine Nat.le_of_eq (State.kept_congr ?_)
    cases h <;> simp [State.files, hp]
  · cases h with
    | ignored => exact Nat.le_refl _
    | absent _ _ _ => exact State.kept_le rfl rfl rfl (by dsimp only; split <;> simp [hp])
    | present _ _ => exact State.kept_le rfl rfl rfl (by simp [hp])

theorem request_eq_metadata {m : Incoming} (h : m.request.isSome = true) :
    m.request = m.metadata := by
  cases m with
  | packet p =>
    by_cases hr : p.header.isRequest = true
    · exact if_pos hr
    · rw [Incoming.request, if_neg hr] at h
      cases h
  | absent | headerless => rfl

/-- The requests of the exchange, wherever they are. -/
def Work.due (x : ExchangeKey) (w : Work) : Nat :=
  disposed x w.effects + w.state.kept x + tally x w.permit

/-- What is kept and what is in hand change places. -/
theorem Work.due_le (es : List Effect) (he : w'.effects = w.effects ++ es)
    (hes : ∀ e ∈ es, e.Idle)
    (hs : w'.state.kept x + tally x w'.permit ≤ w.state.kept x + tally x w.permit) :
    w'.due x ≤ w.due x := by
  unfold Work.due
  rw [he, disposed_append, disposed_idle hes]
  omega

theorem Work.due_same (es : List Effect) (he : w'.effects = w.effects ++ es)
    (hes : ∀ e ∈ es, e.Idle)
    (hs : w'.state.files = w.state.files) (hp : w'.permit = w.permit) : w'.due x ≤ w.due x :=
  Work.due_le es he hes (by rw [State.kept_congr hs, hp])

/-- The request in hand is disposed of, or a message of the core's own is sent. -/
theorem Work.due_emit (he : w'.effects = w.effects ++ [e]) (hs : w'.state.files = w.state.files)
    (hd : tally x e.disposes + tally x w'.permit ≤ tally x w.permit) : w'.due x ≤ w.due x := by
  have hone : disposed x [e] = tally x e.disposes := by
    rw [disposed, List.countP_singleton, tally]
    cases e.disposes.any _ <;> rfl
  unfold Work.due
  rw [he, disposed_append, hone, State.kept_congr hs]
  omega

variable [BasePackage]

theorem Move.due_le (hm : Move i w w') (x : ExchangeKey) : w'.due x ≤ w.due x := by
  have hnone := tally_none (x := x)
  cases hm
  -- The request in hand is disposed of.
  case hold e _ _ _ _ hk hin hpermit =>
    refine Work.due_emit rfl rfl (Nat.le_of_eq ?_)
    rw [hpermit, Effect.disposes, hk, hin]
    cases i.message <;> rfl
  case admitMessage e p _ _ hi hk hmsg _ _ hpermit =>
    refine Work.due_emit rfl rfl (Nat.le_of_eq ?_)
    rw [hpermit, Effect.disposes, hk, hmsg, hi]
    rfl
  case answer e a op h _ hpermit ha _ _ _ _ _ hk hr hmsg _ =>
    refine Work.due_emit rfl rfl (Nat.le_of_eq ?_)
    rw [hpermit, Effect.disposes, hk, hr, hmsg]
    exact tally_answer ha
  case request he | retransmit he =>
    refine Work.due_emit rfl rfl ?_
    rw [he.disposes_eq, hnone, Nat.zero_add]
    exact Nat.le_refl _
  -- It is kept for later, or comes back.
  case runHook e k h _ hpermit hkh _ _ _ _ hk _ =>
    refine Work.due_le [e] rfl (idle_singleton hk (by decide)) ?_
    have hinsert := GoMap.count_insert_le (m := w.state.continuations) (w.state.serial + 1) k
      fun k => exchangeOf k.packet.header = x
    have hin : tally x w.permit = (decide (exchangeOf k.packet.header = x)).toNat := by
      rw [hpermit, hkh]
      rfl
    unfold State.kept
    dsimp only [Work.set, Work.emit]
    omega
  case resume k _ _ hlook _ =>
    refine Work.due_le [] (List.append_nil _).symm (List.forall_mem_nil _) ?_
    have herase := GoMap.count_erase (fun k => decide (exchangeOf k.packet.header = x)) hlook
    have hout : tally x (some k.packet.header) =
      (decide (exchangeOf k.packet.header = x)).toNat := rfl
    unfold State.kept
    dsimp only [Work.set]
    omega
  case candidate e p h _ _ _ hpermit _ _ hc _ _ hans hk _ =>
    refine Work.due_le [e] rfl (idle_singleton hk (by decide)) ?_
    have hclear : Answers { p.header with commandFlags := 0 } p.header := by
      refine ⟨?_, rfl, rfl, rfl⟩
      show ((0 : UInt8) &&& requestFlag == requestFlag) = false
      decide
    have hin : tally x (some p.header) = tally x w.permit := by
      rw [hpermit, ← tally_answer hclear, tally_answer (hans hclear)]
    have hbefore : keptCER x w.state.candidate w.state.cer = 0 := if_pos hc
    have hafter : keptCER x (w.state.serial + 1) (some p) = tally x (some p.header) :=
      if_neg (Nat.succ_ne_zero _)
    unfold State.kept
    dsimp only [Work.set, Work.emit]
    omega
  case activate e _ _ _ _ hc _ hk =>
    refine Work.due_le [e] rfl (idle_singleton hk (by decide)) ?_
    have hbefore : keptCER x w.state.candidate w.state.cer = tally x (w.state.cer.map _) :=
      if_neg hc
    have hafter : keptCER x 0 w.state.cer = 0 := if_pos rfl
    unfold State.kept
    dsimp only [Work.set, Work.emit]
    rw [keptDPR_of_phase Phase.noConfusion]
    omega
  case rejectCandidate _ _ _ hc _ =>
    refine Work.due_le [] (List.append_nil _).symm (List.forall_mem_nil _) ?_
    have hbefore : keptCER x w.state.candidate w.state.cer = tally x (w.state.cer.map _) :=
      if_neg hc
    have hafter : keptCER x 0 w.state.cer = 0 := if_pos rfl
    unfold State.kept
    dsimp only [Work.set]
    omega
  case beginClosing e es _ isLocal _ _ ho _ _ hremote hes hk _ =>
    refine Work.due_le (es ++ [e]) (List.append_assoc _ _ _) (fun y hy => ?_) ?_
    · exact (List.mem_append.1 hy).elim (fun h => (hes y h).idle) (idle_singleton hk (by decide) y)
    have hclose : keptDPR x .closing isLocal w.state.frozen i.message ≤ tally x w.permit := by
      unfold keptDPR
      split
      next h =>
        obtain ⟨hin, hsome⟩ := hremote h.2.1
        rw [hin, request_eq_metadata (hin ▸ hsome)]
      · exact Nat.zero_le _
    unfold State.kept
    dsimp only [Work.set, Work.emit, Work.emits]
    omega
  case frozen _ _ hp hf _ hlocal _ =>
    refine Work.due_le [] (List.append_nil _).symm (List.forall_mem_nil _) ?_
    have hbefore : keptDPR x w.state.phase w.state.closeLocal w.state.frozen w.state.closeRequest =
      tally x w.state.closeRequest.metadata := if_pos ⟨hp, hlocal, hf⟩
    unfold State.kept
    dsimp only [Work.set]
    rw [keptDPR_frozen]
    omega
  case frozenLocal e _ _ _ _ _ _ hk _ =>
    refine Work.due_le [e] rfl (idle_singleton hk (by decide)) (Nat.add_le_add_right ?_ _)
    unfold State.kept State.reserve
    dsimp only [Work.set, Work.emit]
    rw [keptDPR_frozen]
    omega
  -- The end drops everything that is kept.
  case terminate hf hes =>
    refine Work.due_le _ rfl hes.idle (Nat.add_le_add_right ?_ _)
    exact (State.kept_ended hf).trans_le (Nat.zero_le _)
  case disconnected es e _ _ hes hk =>
    refine Work.due_le (es ++ [e]) (List.append_assoc _ _ _) (fun y hy => ?_)
      (Nat.add_le_add_right ((State.kept_ended rfl).trans_le (Nat.zero_le _)) _)
    exact (List.mem_append.1 hy).elim (hes.idle y) (idle_singleton hk.1 (by decide) y)
  case startInitiator =>
    refine Work.due_le [] (List.append_nil _).symm (List.forall_mem_nil _)
      (Nat.add_le_add_right ?_ _)
    exact State.kept_le rfl rfl rfl Phase.noConfusion
  case admitted hk =>
    refine Work.due_le _ rfl (idle_singleton hk (by decide)) (Nat.add_le_add_right ?_ _)
    exact State.kept_le rfl rfl rfl Phase.noConfusion
  case quiet hq _ => exact Work.due_same _ rfl (idle_singleton rfl hq.idle) rfl rfl
  case releaseAdmission hn | releaseSupervised hn =>
    exact Work.due_same _ rfl (idle_singleton hn.1 (by decide)) rfl rfl
  case releaseRecovering hn hk _ =>
    refine Work.due_same _ rfl (fun y hy => ?_) rfl rfl
    rcases List.mem_pair.1 hy with rfl | rfl
    · simp [Effect.Idle, hn.1]
    · simp [Effect.Idle, hk]
  case settleCER hr | credit hr | dpaSettled hr | finishWrite hr =>
    exact Work.due_same _ rfl hr.idle rfl rfl
  case skipped hr _ => exact Work.due_same _ rfl hr.idle rfl rfl
  case skippedProbe hr _ _ _ => exact Work.due_same _ rfl hr.idle rfl rfl
  all_goals first
    | exact Work.due_same [] (List.append_nil _).symm (List.forall_mem_nil _) rfl rfl
    | exact Work.due_same _ rfl (idle_singleton (by assumption) (by decide)) rfl rfl

/-! ## Runs -/

/-- The requests of the exchange that a core is given: those it receives, and those its application
has left to it. -/
def asked (x : ExchangeKey) (connection : Connection) (events : List Event) : Nat :=
  events.countP fun
    | .input i => i.connection = connection && i.permit.any fun h => exchangeOf h = x
    | .refresh _ => false

theorem Step.due_le (h : Step s (.input i) es s') (x : ExchangeKey) :
    disposed x es + s'.kept x ≤ s.kept x + tally x i.permit := by
  cases h with
  | @input _ w hm =>
    have hw := hm.invariant (P := fun w => w.due x ≤ s.kept x + tally x i.permit)
      (fun h hw => (h.due_le x).trans hw) (Nat.le_of_eq (congrArg (· + _) (Nat.zero_add _)))
    exact (Nat.le_add_right _ _).trans hw
  | late _ _ _ _ hes =>
    rw [disposed_idle fun e he => ?_, Nat.zero_add, State.kept_congr (s := s) rfl]
    · exact Nat.le_add_right _ _
    rcases hes.mem he with h | h
    · simp [Effect.Idle, h]
    · simp [Effect.Idle, h.1]

theorem apply_due_le (hwf : c.state.WF) (e : Event) (x : ExchangeKey) :
    disposed x (c.apply e).2 + (c.apply e).1.state.kept x ≤
      c.state.kept x + asked x c.cfg.connection [e] := by
  have hstep := apply_step hwf e
  cases e with
  | refresh peer =>
    have h := State.kept_refresh (x := x) (refreshAdmission_refresh c peer)
    exact (Nat.le_of_eq (Nat.zero_add _)).trans (h.trans (Nat.le_add_right _ _))
  | input i =>
    by_cases hconn : i.connection = c.cfg.connection
    · have hone : asked x c.cfg.connection [.input i] = tally x i.permit := by
        rw [asked, List.countP_singleton, tally]
        simp only [hconn, decide_true, Bool.true_and]
        cases i.permit.any _ <;> rfl
      have h := hstep.due_le x
      rw [disposed, countP_bare fun _ => rfl] at h
      rw [hone]
      exact h
    · have hb : c.apply (.input i) = (c, []) := by
        simp [Core.apply, Batch.handleInto, hconn]
      rw [hb]
      exact (Nat.le_of_eq (Nat.zero_add _)).trans (Nat.le_add_right _ _)

/-- In every run, of each exchange: the requests that are answered, held for a replay or handed to
the application are, with those still kept, no more than the requests the core was given. -/
theorem answer_discipline (hc : Created c) (events : List Event) (x : ExchangeKey) :
    disposed x (run c events).effects + (run c events).core.state.kept x ≤
      asked x c.cfg.connection events := by
  induction events using List.reverseRecOn with
  | nil =>
    have h0 : c.state.kept x = 0 := by
      rcases hc.cases_init with ⟨cfg, rfl⟩ | ⟨cfg, peer, -, rfl⟩ <;> rfl
    exact Nat.le_of_eq ((Nat.zero_add _).trans h0)
  | append_singleton events e ih =>
    have hstep := apply_due_le (run_wf hc events) e x
    rw [run_connection hc] at hstep
    have hasked : asked x c.cfg.connection (events ++ [e]) =
      asked x c.cfg.connection events + asked x c.cfg.connection [e] := List.countP_append
    rw [run_concat, Run.effects_next, disposed_append, hasked]
    show _ + _ + ((run c events).core.apply e).1.state.kept x ≤ _
    omega

omit [BasePackage] in
/-- A CER with a reserved header bit set is answered, and nothing is kept of it. -/
theorem answer_discipline_rejected :
    disposed ⟨257, 1, 1⟩ (@run samplePackage (sampleCore false) [.input sampleRejected]).effects =
      1 ∧
    (@run samplePackage (sampleCore false) [.input sampleRejected]).core.state.kept
      ⟨257, 1, 1⟩ = 0 := by
  have hanswered : disposed ⟨257, 1, 1⟩
      (@run samplePackage (sampleCore false) [.input sampleRejected]).effects = 1 := by
    decide +kernel
  have hasked : asked ⟨257, 1, 1⟩ (sampleCore false).cfg.connection [.input sampleRejected] =
      1 := by decide +kernel
  have h := @answer_discipline _ samplePackage (sampleCore_created false) [.input sampleRejected]
    ⟨257, 1, 1⟩
  exact ⟨hanswered, by omega⟩

end Diameter.Protocol
