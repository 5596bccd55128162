import Diameter.Lib.InOrder
import Diameter.Validation.Scan

/-!
# Validation.ScanSpec

What the loop of `validateAVPs` enforces. `Tracks` says what the scanner's state knows about the
AVPs it has passed, `Allowed` what an AVP has to satisfy given those before it.

* `scanMember_sound`, `scanMember_complete`: one iteration.
* `scanMembers_sound`, `scanMembers_complete`: the whole loop.

All of it is for grammars whose rules name different identities (`Grammar.Distinct`).
-/

namespace Diameter

open Lib Datatype Dict

variable {g : Grammar} {s : Snapshot} {app : UInt32} {k : ValidationKey}
  {counts : ValidationKey → Nat} {e : ValidationRule}
variable {l1 l2 : List ValidationRule} {m : Member} {st st' : Scan} {entry : Option ValidationRule}
  {key : ValidationKey}

/-! ## Rules and identities -/

def Grammar.Distinct (g : Grammar) : Prop := (g.ordered.map ValidationRule.key).Nodup

/-- The identities with a fixed position, in rule order. -/
def Grammar.fixedKeys (g : Grammar) : List ValidationKey :=
  (g.ordered.filter fun e => e.rule.fixed).map ValidationRule.key

/-- The largest number of occurrences, if there is one. -/
def ValidationRule.maximum (e : ValidationRule) : Option Int :=
  if hasMaximum e.rule then some e.rule.max else if e.rule.fixed then some 1 else none

def AVP.isKnown (s : Snapshot) (app : UInt32) (a : AVP) : Bool :=
  (s.avp app a.code a.vendorID).isSome

def AVP.isListed (g : Grammar) (a : AVP) : Bool := g.ordered.any fun e => e.key = a.key

/-- An AVP that falls under the wildcard. -/
def AVP.isExtension (g : Grammar) (s : Snapshot) (app : UInt32) (a : AVP) : Bool :=
  !a.isListed g && a.isKnown s app

/-- Every AVP but those that are neither listed nor known. -/
def AVP.isCounted (g : Grammar) (s : Snapshot) (app : UInt32) (a : AVP) : Bool :=
  a.isListed g || a.isKnown s app

def countedKeys (g : Grammar) (s : Snapshot) (app : UInt32) (as : List AVP) : List ValidationKey :=
  (as.filter (AVP.isCounted g s app)).map AVP.key

theorem Grammar.mem_of_byKey (h : g.byKey k = some e) : e ∈ g.ordered ∧ e.key = k := by
  have hmem := List.mem_of_getLast? h
  simpa using hmem

theorem Grammar.byKey_isSome (g : Grammar) (a : AVP) :
    (g.byKey a.key).isSome = a.isListed g := by
  unfold Grammar.byKey AVP.isListed
  induction g.ordered using List.reverseRecOn with
  | nil => rfl
  | append_singleton l e ih => by_cases hk : e.key = a.key <;> simp_all [List.filter_append]

theorem Grammar.byKey_of_mem (hg : g.Distinct) (he : e ∈ g.ordered) : g.byKey e.key = some e := by
  cases h : g.byKey e.key with
  | none =>
    have hnil := List.getLast?_eq_none_iff.1 h
    have hmem : e ∈ g.ordered.filter fun e' => e'.key = e.key :=
      List.mem_filter.2 ⟨he, by simp⟩
    rw [hnil] at hmem
    cases hmem
  | some e' =>
    obtain ⟨he', hk⟩ := Grammar.mem_of_byKey h
    rw [List.inj_on_of_nodup_map hg he' he hk]

theorem Grammar.mem_fixedKeys (hg : g.Distinct) (h : g.byKey k = some e) :
    k ∈ g.fixedKeys ↔ e.rule.fixed = true := by
  obtain ⟨he, rfl⟩ := Grammar.mem_of_byKey h
  constructor
  · intro hk
    obtain ⟨e', he', hkey⟩ := List.mem_map.1 hk
    obtain ⟨hmem, hfixed⟩ := List.mem_filter.1 he'
    rw [← List.inj_on_of_nodup_map hg hmem he hkey]
    exact hfixed
  · intro hfixed
    exact List.mem_map.2 ⟨e, List.mem_filter.2 ⟨he, hfixed⟩, rfl⟩

theorem Grammar.notMem_fixedKeys (h : g.byKey k = none) : k ∉ g.fixedKeys := by
  intro hk
  obtain ⟨e, he, rfl⟩ := List.mem_map.1 hk
  have hnil := List.getLast?_eq_none_iff.1 h
  have hmem : e ∈ g.ordered.filter fun e' => e'.key = e.key :=
    List.mem_filter.2 ⟨(List.mem_filter.1 he).1, by simp⟩
  rw [hnil] at hmem
  cases hmem

theorem Grammar.nodup_fixedKeys (hg : g.Distinct) : g.fixedKeys.Nodup :=
  hg.sublist (List.filter_sublist.map _)

theorem Grammar.idxOf_fixedKeys (hg : g.Distinct)
    (h : g.ordered = l1 ++ e :: l2) (hfixed : e.rule.fixed = true) :
    g.fixedKeys.idxOf e.key = ((l1.filter fun e => e.rule.fixed).map ValidationRule.key).length := by
  have hsplit : g.fixedKeys = (l1.filter fun e => e.rule.fixed).map ValidationRule.key ++
      e.key :: (l2.filter fun e => e.rule.fixed).map ValidationRule.key := by
    simp [Grammar.fixedKeys, h, hfixed]
  have hnot : e.key ∉ (l1.filter fun e => e.rule.fixed).map ValidationRule.key := by
    have hnodup := Grammar.nodup_fixedKeys hg
    rw [hsplit] at hnodup
    exact fun hmem => (List.disjoint_of_nodup_append hnodup) hmem List.mem_cons_self
  rw [hsplit, List.idxOf_append_of_notMem hnot, List.idxOf_cons_self, Nat.add_zero]

theorem Grammar.idxOf_fixedKeys_lt (hg : g.Distinct)
    {e c : ValidationRule} (h : g.ordered = l1 ++ e :: l2) (hfixed : e.rule.fixed = true)
    (hc : c ∈ l1) (hcfixed : c.rule.fixed = true) :
    g.fixedKeys.idxOf c.key < g.fixedKeys.idxOf e.key := by
  have hmem : c.key ∈ (l1.filter fun e => e.rule.fixed).map ValidationRule.key :=
    List.mem_map.2 ⟨c, List.mem_filter.2 ⟨hc, hcfixed⟩, rfl⟩
  have hsplit : g.fixedKeys = (l1.filter fun e => e.rule.fixed).map ValidationRule.key ++
      e.key :: (l2.filter fun e => e.rule.fixed).map ValidationRule.key := by
    simp [Grammar.fixedKeys, h, hfixed]
  rw [Grammar.idxOf_fixedKeys hg h hfixed, hsplit, List.idxOf_append_of_mem hmem]
  exact List.idxOf_lt_length_iff.2 hmem

section CountedKeys

variable {a : AVP}

theorem countedKeys_snoc (pre : List AVP) (h : a.isCounted g s app = true) :
    countedKeys g s app (pre ++ [a]) = countedKeys g s app pre ++ [a.key] := by
  simp [countedKeys, h]

theorem countedKeys_snoc_of_not (pre : List AVP) (h : a.isCounted g s app = false) :
    countedKeys g s app (pre ++ [a]) = countedKeys g s app pre := by
  simp [countedKeys, h]

end CountedKeys

/-! ## The parts of an iteration -/

theorem checkFlags_ok {definition : Option Dict.AVP} :
    checkFlags definition m = .ok () ↔
      (m.echoed = false → ∀ d, definition = some d → invalidAVPFlags m.avp.flags d = false) := by
  cases definition with
  | none => simp [checkFlags]
  | some d => cases he : m.echoed <;> cases hf : invalidAVPFlags m.avp.flags d <;>
      simp [checkFlags, he, hf]

/-- The state after `countUnlisted`. -/
def Scan.unlisted (st : Scan) (listed wildcard known : Bool) : Scan :=
  { st with
    extensionMinimumCount := st.extensionMinimumCount + (wildcard && !listed).toNat
    extensionCount := st.extensionCount + (wildcard && (!listed && known)).toNat }

theorem countUnlisted_ok {listed known : Bool} {wildcard : Option Rule} {a : AVP} :
    countUnlisted listed wildcard known a st = .ok st' ↔
      ((!listed && known) = true → wildcard.isSome = true) ∧
      (∀ w, wildcard = some w → (!listed && known) = true → hasMaximum w = true →
        (st.extensionCount : Int) + 1 ≤ w.max) ∧
      st.unlisted listed wildcard.isSome known = st' := by
  cases listed with
  | true => simp [countUnlisted, Scan.unlisted]
  | false =>
    cases wildcard with
    | none => cases known <;> simp [countUnlisted, Scan.unlisted]
    | some w =>
      cases known with
      | false => simp [countUnlisted, Scan.unlisted]
      | true =>
        simp only [countUnlisted, if_true]
        split
        next h =>
          constructor
          · intro hok; cases hok
          rintro ⟨-, hmax, -⟩
          have := hmax w rfl rfl h.1
          omega
        next h =>
          constructor
          · intro hok
            cases hok
            refine ⟨fun _ => rfl, ?_, rfl⟩
            rintro w' hw' _ hm
            cases hw'
            by_contra hlt
            exact h ⟨hm, by push_cast; omega⟩
          · rintro ⟨-, -, rfl⟩
            rfl

theorem countMember_ok {a : AVP} :
    countMember entry a st = .ok st' ↔
      (∀ e, entry = some e → hasMaximum e.rule = true →
        (st.counts a.key : Int) + 1 ≤ e.rule.max) ∧
      { st with counts := Function.update st.counts a.key (st.counts a.key + 1) } = st' := by
  cases entry with
  | none => simp [countMember]
  | some e =>
    simp only [countMember, Function.update_self]
    split
    next h =>
      constructor
      · intro hok; cases hok
      rintro ⟨hmax, -⟩
      have := hmax e rfl h.1
      omega
    next h =>
      constructor
      · intro hok
        cases hok
        refine ⟨?_, rfl⟩
        rintro e' he' hm
        cases he'
        by_contra hlt
        exact h ⟨hm, by push_cast; omega⟩
      · rintro ⟨-, rfl⟩
        rfl

theorem advanceFixed_sound {l : List ValidationRule} {i j : Nat}
    (h : advanceFixed counts key l i = some j) :
    ∃ l1 e l2, l = l1 ++ e :: l2 ∧ j = i + l1.length ∧ e.rule.fixed = true ∧ e.key = key := by
  induction l generalizing i with
  | nil => cases h
  | cons c rest ih =>
    -- A candidate that is passed belongs to the part before the key.
    have pass : advanceFixed counts key rest (i + 1) = some j →
        ∃ l1 e l2, c :: rest = l1 ++ e :: l2 ∧ j = i + l1.length ∧ e.rule.fixed = true ∧
          e.key = key := by
      intro h'
      obtain ⟨l1, e, l2, rfl, rfl, hfixed, hkey⟩ := ih h'
      exact ⟨c :: l1, e, l2, rfl, by simp only [List.length_cons]; omega, hfixed, hkey⟩
    simp only [advanceFixed] at h
    split at h
    · exact pass h
    rename_i hfixed
    split at h
    next hkey =>
      cases h
      exact ⟨[], c, rest, rfl, rfl, by simpa using hfixed, hkey⟩
    · split at h
      · cases h
      · exact pass h

theorem advanceFixed_complete
    (hfixed : e.rule.fixed = true) (hkey : e.key = key)
    (hmin : ∀ c ∈ l1, c.rule.fixed = true → c.key ≠ key ∧ minimumCount c.rule ≤ counts c.key)
    (i : Nat) : advanceFixed counts key (l1 ++ e :: l2) i = some (i + l1.length) := by
  induction l1 generalizing i with
  | nil => simp [advanceFixed, hfixed, hkey]
  | cons c l1 ih =>
    have hrest := ih (fun c' hc' => hmin c' (List.mem_cons_of_mem _ hc')) (i + 1)
    rw [List.cons_append, advanceFixed]
    by_cases hc : c.rule.fixed = true
    · obtain ⟨hne, hle⟩ := hmin c List.mem_cons_self hc
      rw [if_neg (by simp [hc]), if_neg hne, if_neg (by omega), hrest]
      simp only [List.length_cons]
      congr 1
      omega
    · rw [if_pos (by simp [hc]), hrest]
      simp only [List.length_cons]
      congr 1
      omega

theorem placeMember_ok {a : AVP} :
    placeMember g entry a st = .ok st' ↔
      (∃ e i, entry = some e ∧ e.rule.fixed = true ∧
        (st.counts a.key : Int) < fixedMaximum e.rule ∧ st.fixedClosed = false ∧
        advanceFixed st.counts a.key (g.ordered.drop st.fixedIndex) st.fixedIndex = some i ∧
        { st with fixedIndex :=
          if (st.counts a.key : Int) + 1 ≥ fixedMaximum e.rule then i + 1 else i } = st') ∨
      ((∀ e, entry = some e → e.rule.fixed = false) ∧ { st with fixedClosed := true } = st') := by
  cases entry with
  | none => simp [placeMember]
  | some e =>
    cases hf : e.rule.fixed with
    | false => simp [placeMember, hf]
    | true =>
      simp only [placeMember, hf, if_true]
      split
      · simp [hf]; omega
      split
      · rename_i hclosed; simp [hf, hclosed]
      rename_i hmax hclosed
      cases hadv : advanceFixed st.counts a.key (g.ordered.drop st.fixedIndex) st.fixedIndex with
      | none => simp [hf]
      | some i =>
        have hlt : (st.counts a.key : Int) < fixedMaximum e.rule := by omega
        simp [hf, hlt, hclosed]

/-- The fixed positions before index `i`. -/
def Grammar.fixedBefore (g : Grammar) (i : Nat) : List ValidationKey :=
  ((g.ordered.take i).filter fun e => e.rule.fixed).map ValidationRule.key

/-- What the scanner's state says about the AVPs `pre` it has passed. -/
structure Tracks (g : Grammar) (s : Snapshot) (app : UInt32) (pre : List AVP) (st : Scan) :
    Prop where
  counts : ∀ k, st.counts k = (countedKeys g s app pre).count k
  extension : st.extensionCount = if g.wildcard.isSome then pre.countP (AVP.isExtension g s app) else 0
  minimum : st.extensionMinimumCount =
    if g.wildcard.isSome then pre.countP (fun a => !a.isListed g) else 0
  closed : st.fixedClosed = true ↔ ∃ k ∈ countedKeys g s app pre, k ∉ g.fixedKeys
  /-- Nothing passed belongs after the current position. -/
  reached : st.fixedClosed = false → ∀ k ∈ countedKeys g s app pre,
    g.fixedKeys.idxOf k ≤ (g.fixedBefore st.fixedIndex).length
  /-- A rule is left behind only when it is full or a later one has occurred. -/
  passed : ∀ e ∈ g.ordered.take st.fixedIndex, e.rule.fixed = true →
    fixedMaximum e.rule ≤ (countedKeys g s app pre).count e.key ∨
      ∃ k ∈ countedKeys g s app pre, g.fixedKeys.idxOf e.key < g.fixedKeys.idxOf k

theorem tracks_nil (g : Grammar) (s : Snapshot) (app : UInt32) : Tracks g s app [] {} where
  counts _ := rfl
  extension := by simp
  minimum := by simp
  closed := by simp [countedKeys]
  reached := by simp [countedKeys]
  passed := by simp

/-- What an AVP has to satisfy after the AVPs `pre`. -/
structure Allowed (g : Grammar) (s : Snapshot) (app : UInt32) (pre : List AVP) (m : Member) :
    Prop where
  flags : m.echoed = false → ∀ d, s.avp app m.avp.code m.avp.vendorID = some d →
    invalidAVPFlags m.avp.flags d = false
  listed : m.avp.isExtension g s app = true → g.wildcard.isSome = true
  extension : ∀ w, g.wildcard = some w → m.avp.isExtension g s app = true →
    hasMaximum w = true → (pre.countP (AVP.isExtension g s app) : Int) + 1 ≤ w.max
  maximum : ∀ e n, g.byKey m.avp.key = some e → e.maximum = some n →
    ((countedKeys g s app pre).count m.avp.key : Int) + 1 ≤ n
  order : m.avp.isCounted g s app = true → ∀ k ∈ countedKeys g s app pre,
    g.fixedKeys.idxOf k ≤ g.fixedKeys.idxOf m.avp.key
  contents : m.avp.isCounted g s app = true → checkContents m = .ok ()

/-! ## One iteration -/

theorem Check.bind_eq_ok {α β : Type} {x : Check α} {f : α → Check β} {b : β} :
    (x >>= f) = .ok b ↔ ∃ a, x = .ok a ∧ f a = .ok b := by
  cases x with
  | error e => exact ⟨fun h => (by cases h), fun ⟨_, h, _⟩ => (by cases h)⟩
  | ok a => exact ⟨fun h => ⟨a, rfl, h⟩, fun ⟨_, h, hf⟩ => (by cases h; exact hf)⟩

theorem Check.andThen_eq_ok {β : Type} {x : Check Unit} {f : Unit → Check β} {b : β} :
    (x >>= f) = .ok b ↔ x = .ok () ∧ f () = .ok b := by
  rw [Check.bind_eq_ok]
  exact ⟨fun ⟨_, h⟩ => h, fun h => ⟨(), h⟩⟩

/-- Where the search ends: at the rule of the key, past everything before it. -/
theorem advanceFixed_position (hg : g.Distinct) {i0 i : Nat}
    (he : g.byKey key = some e) (h : advanceFixed counts key (g.ordered.drop i0) i0 = some i) :
    ∃ front l1 l2, g.ordered = front ++ e :: l2 ∧ front = g.ordered.take i0 ++ l1 ∧
      front.length = i := by
  obtain ⟨l1, e', l2, hdrop, rfl, -, hkey⟩ := advanceFixed_sound h
  have hord : g.ordered = (g.ordered.take i0 ++ l1) ++ e' :: l2 := by
    rw [List.append_assoc, ← hdrop, List.take_append_drop]
  have he' : e' = e := by
    have hmem : e' ∈ g.ordered := by rw [hord]; simp
    rw [← hkey, Grammar.byKey_of_mem hg hmem] at he
    exact Option.some.inj he
  have hlt : i0 < g.ordered.length := by
    by_contra hge
    rw [List.drop_eq_nil_of_le (by omega)] at hdrop
    simp at hdrop
  rw [he'] at hord
  exact ⟨_, l1, l2, hord, rfl, by rw [List.length_append, List.length_take]; omega⟩

theorem scanMember_ok :
    scanMember g s app m st = .ok st' ↔
      checkFlags (s.avp app m.avp.code m.avp.vendorID) m = .ok () ∧
      ∃ st1, countUnlisted (m.avp.isListed g) g.wildcard (m.avp.isKnown s app) m.avp st = .ok st1 ∧
        if m.avp.isCounted g s app then
          ∃ st2, placeMember g (g.byKey m.avp.key) m.avp st1 = .ok st2 ∧
            countMember (g.byKey m.avp.key) m.avp st2 = .ok st' ∧ checkContents m = .ok ()
        else st1 = st' := by
  have hskip : ((g.byKey m.avp.key).isNone && (s.avp app m.avp.code m.avp.vendorID).isNone) = true ↔
      ¬ m.avp.isCounted g s app = true := by
    simp only [AVP.isCounted, ← Grammar.byKey_isSome, AVP.isKnown]
    cases g.byKey m.avp.key <;> cases s.avp app m.avp.code m.avp.vendorID <;> simp
  unfold scanMember
  simp only [Snapshot.findAVP_toOption, Grammar.byKey_isSome]
  rw [Check.andThen_eq_ok, Check.bind_eq_ok]
  refine and_congr_right fun _ => exists_congr fun st1 => and_congr_right fun _ => ?_
  by_cases hc : m.avp.isCounted g s app = true
  · rw [if_neg (by rw [hskip]; simpa using hc), if_pos hc]
    simp only [Check.bind_eq_ok]
    constructor
    · rintro ⟨st2, hplace, st3, hcount, _, hcontents, hpure⟩
      cases hpure
      exact ⟨st2, hplace, hcount, hcontents⟩
    · rintro ⟨st2, hplace, hcount, hcontents⟩
      exact ⟨st2, hplace, st', hcount, (), hcontents, rfl⟩
  · rw [if_pos (hskip.2 hc), if_neg hc]
    exact ⟨fun h => by cases h; rfl, fun h => by rw [h]; rfl⟩

section Step

variable {pre : List AVP} {a : AVP}

theorem Tracks.unlisted (ht : Tracks g s app pre st) :
    (st.unlisted (a.isListed g) g.wildcard.isSome (a.isKnown s app)).extensionCount =
      (if g.wildcard.isSome then (pre ++ [a]).countP (AVP.isExtension g s app) else 0) ∧
    (st.unlisted (a.isListed g) g.wildcard.isSome (a.isKnown s app)).extensionMinimumCount =
      if g.wildcard.isSome then (pre ++ [a]).countP (fun a => !a.isListed g) else 0 := by
  simp only [Scan.unlisted, ht.extension, ht.minimum, List.countP_append, List.countP_singleton,
    AVP.isExtension]
  by_cases hw : g.wildcard.isSome = true <;> by_cases hl : a.isListed g = true <;>
    by_cases hk : a.isKnown s app = true <;> simp [hw, hl, hk]

theorem Tracks.counts_snoc (ht : Tracks g s app pre st) (hc : a.isCounted g s app = true)
    (k : ValidationKey) :
    Function.update st.counts a.key (st.counts a.key + 1) k =
      (countedKeys g s app (pre ++ [a])).count k := by
  rw [countedKeys_snoc _ hc, List.count_append, List.count_singleton]
  by_cases hk : k = a.key
  · subst hk
    rw [Function.update_self, ht.counts, if_pos (by simp)]
  · rw [Function.update_of_ne hk, ht.counts, if_neg (by simpa using fun h => hk h.symm)]
    omega

theorem idxOf_le_of_notMem {fs : List ValidationKey} (hk : k ∉ fs) (k' : ValidationKey) :
    fs.idxOf k' ≤ fs.idxOf k := by
  rw [List.idxOf_eq_length_iff.2 hk]
  exact List.idxOf_le_length

theorem Tracks.skip (ht : Tracks g s app pre st) (hc : a.isCounted g s app = false) :
    Tracks g s app (pre ++ [a]) (st.unlisted (a.isListed g) g.wildcard.isSome (a.isKnown s app)) := by
  have hkeys := countedKeys_snoc_of_not pre hc
  exact {
    counts := by rw [hkeys]; exact ht.counts
    extension := ht.unlisted.1
    minimum := ht.unlisted.2
    closed := by rw [hkeys]; exact ht.closed
    reached := by rw [hkeys]; exact ht.reached
    passed := by rw [hkeys]; exact ht.passed }

theorem Tracks.close (ht : Tracks g s app pre st) (hc : a.isCounted g s app = true)
    (hk : a.key ∉ g.fixedKeys) :
    Tracks g s app (pre ++ [a])
      { st.unlisted (a.isListed g) g.wildcard.isSome (a.isKnown s app) with
        fixedClosed := true
        counts := Function.update st.counts a.key (st.counts a.key + 1) } := by
  have hkeys := countedKeys_snoc pre hc
  exact {
    counts := ht.counts_snoc hc
    extension := ht.unlisted.1
    minimum := ht.unlisted.2
    closed := by
      rw [hkeys]
      exact ⟨fun _ => ⟨a.key, by simp, hk⟩, fun _ => rfl⟩
    reached := by intro h; cases h
    passed := by
      intro e he hfixed
      rw [hkeys]
      rcases ht.passed e he hfixed with hfull | ⟨k, hk', hlt⟩
      · left
        rw [List.count_append]
        omega
      · exact .inr ⟨k, List.mem_append_left _ hk', hlt⟩ }

theorem Tracks.place (hg : g.Distinct) (ht : Tracks g s app pre st) (he : g.byKey a.key = some e)
    (hfixed : e.rule.fixed = true) (hopen : st.fixedClosed = false) {i : Nat}
    (hadv : advanceFixed st.counts a.key (g.ordered.drop st.fixedIndex) st.fixedIndex = some i) :
    (∀ k ∈ countedKeys g s app pre, g.fixedKeys.idxOf k ≤ g.fixedKeys.idxOf a.key) ∧
    Tracks g s app (pre ++ [a])
      { st.unlisted (a.isListed g) g.wildcard.isSome (a.isKnown s app) with
        fixedIndex := if (st.counts a.key : Int) + 1 ≥ fixedMaximum e.rule then i + 1 else i
        counts := Function.update st.counts a.key (st.counts a.key + 1) } := by
  have hlisted : a.isListed g = true := by rw [← Grammar.byKey_isSome, he]; rfl
  have hc : a.isCounted g s app = true := by simp [AVP.isCounted, hlisted]
  have hkeys := countedKeys_snoc pre hc
  have hkey := (Grammar.mem_of_byKey he).2
  obtain ⟨front, l1, l2, hord, hfront, hlen⟩ := advanceFixed_position hg he hadv
  have hidx := Grammar.idxOf_fixedKeys hg hord hfixed
  rw [hkey] at hidx
  have htake : g.ordered.take i = front := by
    rw [hord, ← hlen]
    exact List.take_left
  have htake' : g.ordered.take (i + 1) = front ++ [e] := by
    have hlen' : (front ++ [e]).length = i + 1 := by rw [List.length_append, hlen]; rfl
    rw [hord, ← List.singleton_append, ← List.append_assoc, ← hlen']
    exact List.take_left
  -- The rules before the found one are those left behind earlier and those passed now.
  have hbefore : ∀ k ∈ countedKeys g s app pre, g.fixedKeys.idxOf k ≤ g.fixedKeys.idxOf a.key := by
    intro k hk
    refine Nat.le_trans (ht.reached hopen k hk) ?_
    rw [hidx, hfront, Grammar.fixedBefore, List.filter_append, List.map_append, List.length_append]
    omega
  refine ⟨hbefore, ?_⟩
  have hreach : g.fixedKeys.idxOf a.key ≤ (g.fixedBefore i).length ∧
      g.fixedKeys.idxOf a.key ≤ (g.fixedBefore (i + 1)).length := by
    constructor
    · rw [hidx, Grammar.fixedBefore, htake]
    rw [hidx, Grammar.fixedBefore, htake', List.filter_append, List.map_append,
      List.length_append]
    omega
  have hpassed : ∀ c ∈ g.ordered.take i, c.rule.fixed = true →
      g.fixedKeys.idxOf c.key < g.fixedKeys.idxOf a.key := by
    intro c hcmem hcf
    rw [htake] at hcmem
    rw [← hkey]
    exact Grammar.idxOf_fixedKeys_lt hg hord hfixed hcmem hcf
  exact {
    counts := ht.counts_snoc hc
    extension := ht.unlisted.1
    minimum := ht.unlisted.2
    closed := by
      have hmem := (Grammar.mem_fixedKeys hg he).2 hfixed
      rw [hkeys]
      simp only [Scan.unlisted, hopen, Bool.false_eq_true, false_iff, not_exists, not_and, not_not]
      intro k hk
      rcases List.mem_append.1 hk with hk | hk
      · by_contra hnot
        exact absurd (ht.closed.2 ⟨k, hk, hnot⟩) (by rw [hopen]; simp)
      · rw [List.mem_singleton.1 hk]; exact hmem
    reached := by
      intro _ k hk
      rw [hkeys] at hk
      have hle : g.fixedKeys.idxOf k ≤ g.fixedKeys.idxOf a.key := by
        rcases List.mem_append.1 hk with hk | hk
        · exact hbefore k hk
        · rw [List.mem_singleton.1 hk]
      simp only
      split
      · exact Nat.le_trans hle hreach.2
      · exact Nat.le_trans hle hreach.1
    passed := by
      intro c hcmem hcf
      rw [hkeys]
      simp only at hcmem
      split at hcmem
      next hfull =>
        rw [htake', ← htake] at hcmem
        rcases List.mem_append.1 hcmem with hcmem | hcmem
        · exact .inr ⟨a.key, by simp, hpassed c hcmem hcf⟩
        left
        rw [List.mem_singleton.1 hcmem, hkey, List.count_append, List.count_singleton_self,
          ← ht.counts]
        exact hfull
      · exact .inr ⟨a.key, by simp, hpassed c hcmem hcf⟩ }

end Step

theorem ValidationRule.maximum_eq {n : Int} (h : e.maximum = some n) :
    (hasMaximum e.rule = true ∧ n = e.rule.max) ∨
      (e.rule.fixed = true ∧ n = fixedMaximum e.rule) := by
  unfold ValidationRule.maximum at h
  split at h
  next hm =>
    cases h
    exact .inl ⟨hm, rfl⟩
  next hm =>
    split at h
    next hf =>
      cases h
      exact .inr ⟨hf, by rw [fixedMaximum, if_neg hm]⟩
    · cases h

theorem ValidationRule.maximum_of_fixed (h : e.rule.fixed = true) :
    e.maximum = some (fixedMaximum e.rule) := by
  simp only [ValidationRule.maximum, fixedMaximum, h, if_true]
  split <;> rfl

theorem scanMember_sound (hg : g.Distinct) {pre : List AVP}
    (ht : Tracks g s app pre st) (h : scanMember g s app m st = .ok st') :
    Allowed g s app pre m ∧ Tracks g s app (pre ++ [m.avp]) st' := by
  obtain ⟨hflags, st1, hun, hrest⟩ := scanMember_ok.1 h
  obtain ⟨hlisted, hext, rfl⟩ := countUnlisted_ok.1 hun
  have hextension : ∀ w, g.wildcard = some w → m.avp.isExtension g s app = true →
      hasMaximum w = true → (pre.countP (AVP.isExtension g s app) : Int) + 1 ≤ w.max := by
    intro w hw hknown hm
    have hle := hext w hw hknown hm
    rwa [ht.extension, hw, Option.isSome_some, if_pos rfl] at hle
  by_cases hc : m.avp.isCounted g s app = true
  · rw [if_pos hc] at hrest
    obtain ⟨st2, hplace, hcount, hcontents⟩ := hrest
    obtain ⟨hmax, rfl⟩ := countMember_ok.1 hcount
    rcases placeMember_ok.1 hplace with ⟨e, i, he, hfixed, hlt, hopen, hadv, rfl⟩ | ⟨hnf, rfl⟩
    · obtain ⟨horder, htracks⟩ := Tracks.place hg ht he hfixed hopen hadv
      refine ⟨⟨checkFlags_ok.1 hflags, hlisted, hextension, ?_, fun _ => horder,
        fun _ => hcontents⟩, htracks⟩
      intro e' n he' hn
      rw [he] at he'
      cases he'
      rw [ValidationRule.maximum_of_fixed hfixed] at hn
      cases hn
      rw [← ht.counts]
      exact hlt
    · have hk : m.avp.key ∉ g.fixedKeys := by
        cases he : g.byKey m.avp.key with
        | none => exact Grammar.notMem_fixedKeys he
        | some e => rw [Grammar.mem_fixedKeys hg he, hnf e he]; simp
      refine ⟨⟨checkFlags_ok.1 hflags, hlisted, hextension, ?_,
        fun _ k _ => idxOf_le_of_notMem hk k, fun _ => hcontents⟩, ht.close hc hk⟩
      intro e n he hn
      rcases ValidationRule.maximum_eq hn with ⟨hm, rfl⟩ | ⟨hf, -⟩
      · rw [← ht.counts]
        exact hmax e he hm
      · rw [hnf e he] at hf
        cases hf
  · rw [if_neg hc] at hrest
    subst hrest
    refine ⟨⟨checkFlags_ok.1 hflags, hlisted, hextension, ?_, fun h => absurd h hc,
      fun h => absurd h hc⟩, ht.skip (by simpa using hc)⟩
    intro e n he
    simp [AVP.isCounted, ← Grammar.byKey_isSome, he] at hc

/-- An iteration succeeds on what is allowed, provided the fixed rules before it are complete. -/
theorem scanMember_complete (hg : g.Distinct)
    {pre : List AVP} (ht : Tracks g s app pre st)
    (hm : Allowed g s app pre m)
    (hmin : ∀ e ∈ g.ordered, e.rule.fixed = true →
      g.fixedKeys.idxOf e.key < g.fixedKeys.idxOf m.avp.key → m.avp.key ∈ g.fixedKeys →
      minimumCount e.rule ≤ (countedKeys g s app pre).count e.key) :
    ∃ st', scanMember g s app m st = .ok st' := by
  have hun : countUnlisted (m.avp.isListed g) g.wildcard (m.avp.isKnown s app) m.avp st =
      .ok (st.unlisted (m.avp.isListed g) g.wildcard.isSome (m.avp.isKnown s app)) := by
    refine countUnlisted_ok.2 ⟨hm.listed, ?_, rfl⟩
    intro w hw hknown hmax
    have hle := hm.extension w hw hknown hmax
    rwa [ht.extension, hw, Option.isSome_some, if_pos rfl]
  by_cases hc : m.avp.isCounted g s app = true
  · suffices hplace : ∃ st2, placeMember g (g.byKey m.avp.key) m.avp
        (st.unlisted (m.avp.isListed g) g.wildcard.isSome (m.avp.isKnown s app)) = .ok st2 ∧
        st2.counts = st.counts by
      obtain ⟨st2, hplace, hcounts⟩ := hplace
      obtain ⟨st3, hcount⟩ : ∃ st3, countMember (g.byKey m.avp.key) m.avp st2 = .ok st3 := by
        refine ⟨_, countMember_ok.2 ⟨fun e he hmax => ?_, rfl⟩⟩
        rw [hcounts, ht.counts]
        exact hm.maximum e e.rule.max he (by rw [ValidationRule.maximum, if_pos hmax])
      refine ⟨st3, scanMember_ok.2 ⟨checkFlags_ok.2 hm.flags, _, hun, ?_⟩⟩
      rw [if_pos hc]
      exact ⟨st2, hplace, hcount, hm.contents hc⟩
    by_cases hfix : ∃ e, g.byKey m.avp.key = some e ∧ e.rule.fixed = true
    · obtain ⟨e, he, hfixed⟩ := hfix
      obtain ⟨hmem, hkey⟩ := Grammar.mem_of_byKey he
      have hin := (Grammar.mem_fixedKeys hg he).2 hfixed
      have hlt : (st.counts m.avp.key : Int) < fixedMaximum e.rule := by
        have := hm.maximum e _ he (ValidationRule.maximum_of_fixed hfixed)
        rw [← ht.counts] at this
        omega
      have hopen : st.fixedClosed = false := by
        by_contra hclosed
        obtain ⟨k, hk, hnot⟩ := ht.closed.1 (by simpa using hclosed)
        have hle := hm.order hc k hk
        rw [List.idxOf_eq_length_iff.2 hnot] at hle
        exact absurd (List.idxOf_lt_length_iff.2 hin) (by omega)
      -- The rule has not been left behind, so it is among those from the index on.
      have hdrop : e ∈ g.ordered.drop st.fixedIndex := by
        have hsplit := List.take_append_drop st.fixedIndex g.ordered
        rw [← hsplit] at hmem
        rcases List.mem_append.1 hmem with htake | hdrop
        · rcases ht.passed e htake hfixed with hfull | ⟨k, hk, hafter⟩
          · rw [hkey, ← ht.counts] at hfull
            omega
          · have hle := hm.order hc k hk
            rw [hkey] at hafter
            omega
        · exact hdrop
      obtain ⟨l1, l2, hl⟩ := List.append_of_mem hdrop
      have hord : g.ordered = (g.ordered.take st.fixedIndex ++ l1) ++ e :: l2 := by
        rw [List.append_assoc, ← hl, List.take_append_drop]
      have hadv := @advanceFixed_complete st.counts e l1 l2 _ hfixed hkey
        (fun c hcmem hcf => by
          have hbefore := Grammar.idxOf_fixedKeys_lt hg hord hfixed
            (List.mem_append_right _ hcmem) hcf
          rw [hkey] at hbefore
          have hcord : c ∈ g.ordered := by rw [hord]; simp [hcmem]
          refine ⟨fun hck => ?_, ?_⟩
          · rw [hck] at hbefore; omega
          · rw [ht.counts]; exact hmin c hcord hcf hbefore hin) st.fixedIndex
      rw [← hl] at hadv
      exact ⟨_, placeMember_ok.2 (.inl ⟨e, _, he, hfixed, hlt, hopen, hadv, rfl⟩), rfl⟩
    · refine ⟨_, placeMember_ok.2 (.inr ⟨?_, rfl⟩), rfl⟩
      intro e he
      by_contra hf
      exact hfix ⟨e, he, by simpa using hf⟩
  · refine ⟨st.unlisted (m.avp.isListed g) g.wildcard.isSome (m.avp.isKnown s app),
      scanMember_ok.2 ⟨checkFlags_ok.2 hm.flags, _, hun, ?_⟩⟩
    rw [if_neg hc]

/-! ## The loop -/

theorem scanMembers_sound (hg : g.Distinct) :
    ∀ {ms : List (Option Member)} {pre : List AVP} {i : Nat} {st st' : Scan},
      Tracks g s app pre st → scanMembers g s app ms i st = .ok st' →
      ∃ ms' : List Member, ms = ms'.map some ∧ Tracks g s app (pre ++ ms'.map Member.avp) st' ∧
        ∀ l1 m l2, ms' = l1 ++ m :: l2 → Allowed g s app (pre ++ l1.map Member.avp) m := by
  intro ms
  induction ms with
  | nil =>
    intro pre i st st' ht h
    cases h
    exact ⟨[], rfl, by simpa using ht, fun l1 m l2 h => by simp at h⟩
  | cons om ms ih =>
    intro pre i st st' ht h
    cases om with
    | none => cases h
    | some m =>
      obtain ⟨st1, hstep, hrest⟩ := Check.bind_eq_ok.1 h
      obtain ⟨hallowed, ht1⟩ := scanMember_sound hg ht hstep
      obtain ⟨ms', rfl, ht', hall⟩ := ih ht1 hrest
      refine ⟨m :: ms', rfl, by simpa using ht', ?_⟩
      intro l1 m' l2 hsplit
      cases l1 with
      | nil =>
        cases hsplit
        simpa using hallowed
      | cons m1 l1 =>
        cases hsplit
        simpa using hall l1 m' l2 rfl

theorem scanMembers_complete (hg : g.Distinct) :
    ∀ {ms : List Member} {pre : List AVP} {i : Nat} {st : Scan}, Tracks g s app pre st →
      (∀ l1 m l2, ms = l1 ++ m :: l2 → Allowed g s app (pre ++ l1.map Member.avp) m ∧
        ∀ e ∈ g.ordered, e.rule.fixed = true →
          g.fixedKeys.idxOf e.key < g.fixedKeys.idxOf m.avp.key → m.avp.key ∈ g.fixedKeys →
          minimumCount e.rule ≤ (countedKeys g s app (pre ++ l1.map Member.avp)).count e.key) →
      ∃ st', scanMembers g s app (ms.map some) i st = .ok st' := by
  intro ms
  induction ms with
  | nil => intro pre i st ht _; exact ⟨st, rfl⟩
  | cons m ms ih =>
    intro pre i st ht h
    obtain ⟨hallowed, hmin⟩ := h [] m ms rfl
    simp only [List.map_nil, List.append_nil] at hallowed hmin
    obtain ⟨st1, hstep⟩ := scanMember_complete hg ht hallowed hmin
    obtain ⟨-, ht1⟩ := scanMember_sound hg ht hstep
    obtain ⟨st', hrest⟩ := ih (i := i + 1) ht1 fun l1 m' l2 hsplit => by
      have := h (m :: l1) m' l2 (by rw [hsplit]; rfl)
      simpa using this
    exact ⟨st', Check.bind_eq_ok.2 ⟨st1, hstep, hrest⟩⟩

end Diameter
