import Diameter.Reader.Ordered

/-!
# Reader.Transparent

What `Read` returns is the source. The chunks taken from the source are, in this order, those whose
octets were all returned, the one that `Read` is cutting up, the one in the copier's hand, and the
one that was dropped at closing (`Inv.account`). Each of the two in between is a slice of a buffer
that its side owns, so that nothing the rest of the program does to the pool changes it.

`ordered_reader` is what follows for the consumer and for the pool.
-/

namespace Diameter.Reader

open Lib

variable {b : Nat} {ev : RestartReadEvent}
variable {c : Chunk} {before source : List Chunk} {size : Nat}

theorem bytesOf_append (cs ds : List Chunk) : bytesOf (cs ++ ds) = bytesOf cs ++ bytesOf ds :=
  List.flatMap_append

@[simp] theorem bytesOf_nil : bytesOf [] = [] := rfl

@[simp] theorem bytesOf_singleton (c : Chunk) : bytesOf [c] = c.data := by simp [bytesOf]

theorem Chunk.data_of_not_sent (h : ¬ c.sent = true) : c.data = [] := by
  have hboth : c.data = [] ∧ c.err = none := by simpa [Chunk.sent] using h
  exact hboth.1

theorem Chunk.sent_of_terminal (h : c.terminal = true) : c.sent = true := by
  cases he : c.err with
  | none => simp [Chunk.terminal, he] at h
  | some e => simp [Chunk.sent, he]

theorem bytesOf_filter (cs : List Chunk) : bytesOf (cs.filter Chunk.sent) = bytesOf cs := by
  induction cs with
  | nil => rfl
  | cons c cs ih =>
    have hsplit : bytesOf (c :: cs) = c.data ++ bytesOf cs := rfl
    rw [List.filter_cons]
    split
    · rw [hsplit, ← ih]
      rfl
    rename_i hsent
    rw [hsplit, Chunk.data_of_not_sent hsent, ih]
    rfl

namespace State

variable {s s' : State}

/-- The event is what is left of a chunk, in a buffer of its side. -/
structure Carries (s : State) (who : Owner) (ev : RestartReadEvent) (b : Nat) (c : Chunk)
    (part : Bytes) : Prop where
  buffer : ev.buffer = some b
  owner : s.owner b = who
  err : ev.err = c.err
  data : c.data = part ++ s.slice ev
  len : (s.slice ev).length = ev.len
  sent : ev.len ≠ 0 ∨ ev.err ≠ none

theorem Carries.frame {who : Owner} {part : Bytes} (h : Carries s who ev b c part)
    (hmemory : s'.memory b = s.memory b) (howner : s'.owner b = s.owner b) :
    Carries s' who ev b c part := by
  have hslice : s'.slice ev = s.slice ev := by simp only [slice, h.buffer, Option.map_some, hmemory]
  exact ⟨h.buffer, howner.trans h.owner, h.err, hslice ▸ h.data, hslice ▸ h.len, h.sent⟩

/-- What the consumer has. -/
def PendingOf (s : State) (consumed pend : List Chunk) (part : Bytes) : Prop :=
  pend = [] ∧ part = [] ∧ s.pending = {} ∨
    ∃ b c, pend = [c] ∧ s.Carries .consumer s.pending b c part ∧
      s.filled b ≤ (bytesOf (consumed ++ [c])).length

/-- What the copier has. -/
def HandOf (s : State) (hand : List Chunk) : Prop :=
  match s.copier with
  | .start | .stopped => hand = []
  | .reading b => hand = [] ∧ s.owner b = .copier ∧ s.filled b = 0
  | .sending ev => ∃ b c, hand = [c] ∧ s.Carries .copier ev b c [] ∧
      s.filled b ≤ (bytesOf s.taken).length

/-- The buffers of one side stay as they are. -/
def Keeps (who : Owner) (s s' : State) : Prop :=
  ∀ b, s.owner b = who → s'.memory b = s.memory b ∧ s'.owner b = s.owner b ∧
    s'.filled b = s.filled b

theorem Keeps.refl (who : Owner) (s : State) : Keeps who s s := fun _ _ => ⟨rfl, rfl, rfl⟩

theorem PendingOf.frame {consumed pend : List Chunk} {part : Bytes}
    (h : s.PendingOf consumed pend part) (hpending : s'.pending = s.pending)
    (hkeeps : Keeps .consumer s s') : s'.PendingOf consumed pend part := by
  rcases h with ⟨hp, hpart, hzero⟩ | ⟨b, c, hp, hcarries, hfilled⟩
  · exact .inl ⟨hp, hpart, hpending.trans hzero⟩
  obtain ⟨hm, ho, hf⟩ := hkeeps b hcarries.owner
  refine .inr ⟨b, c, hp, ?_, hf ▸ hfilled⟩
  rw [hpending]
  exact hcarries.frame hm ho

theorem HandOf.frame {hand : List Chunk} (h : s.HandOf hand) (hcopier : s'.copier = s.copier)
    (htaken : s'.taken = s.taken) (hkeeps : Keeps .copier s s') : s'.HandOf hand := by
  unfold HandOf at h ⊢
  rw [hcopier, htaken]
  cases hc : s.copier with
  | start | stopped => simpa [hc] using h
  | reading b =>
    rw [hc] at h
    obtain ⟨-, ho, hf⟩ := hkeeps b h.2.1
    exact ⟨h.1, ho.trans h.2.1, hf.trans h.2.2⟩
  | sending ev =>
    rw [hc] at h
    obtain ⟨b, c, hhand, hcarries, hfilled⟩ := h
    obtain ⟨hm, ho, hf⟩ := hkeeps b hcarries.owner
    exact ⟨b, c, hhand, hcarries.frame hm ho, hf ▸ hfilled⟩

/-- `pend` and `hand` are the chunks with the consumer and in the copier's hand, `part` what was
returned of the first. -/
structure Inv (s : State) (consumed pend hand dropped : List Chunk) (part : Bytes) : Prop where
  account : s.taken.filter Chunk.sent = consumed ++ pend ++ hand ++ dropped
  returned : s.returned = bytesOf consumed ++ part
  marks : ∀ before r after e, s.results = before ++ r :: after → r.err = some (.source e) →
    ∃ cs c cs', consumed = cs ++ c :: cs' ∧ c.err = some e ∧
      before.flatMap ReadResult.data ++ r.data = bytesOf (cs ++ [c])
  pending : s.PendingOf consumed pend part
  hand : s.HandOf hand
  dropped : dropped ≠ [] → s.closed = true ∧ s.copier = .stopped
  terminal : ∀ before c after, s.taken = before ++ c :: after → c.terminal = true →
    after = [] ∧ (s.copier = .stopped ∨ ∃ ev, s.copier = .sending ev)
  pool : ∀ b, s.gets b = s.puts b +
    if s.owner b = .copier ∨ s.owner b = .consumer then 1 else 0
  waiting : ∀ size, s.consumer = .waiting size → pend = []
  copying : ∀ size, s.consumer = .copying size → pend ≠ []

theorem Inv.start (source : List Chunk) : Inv { source := source } [] [] [] [] [] where
  account := rfl
  returned := rfl
  marks := by simp
  pending := .inl ⟨rfl, rfl, rfl⟩
  hand := rfl
  dropped := by simp
  terminal := by simp
  pool := by simp
  waiting := by simp
  copying := by simp

section Steps

variable {consumed pend hand dropped : List Chunk} {part : Bytes}

theorem Inv.dropped_eq_nil (h : Inv s consumed pend hand dropped part)
    (hc : s.copier ≠ .stopped) : dropped = [] := by
  by_contra hd
  exact hc (h.dropped hd).2

theorem Inv.not_terminal (h : Inv s consumed pend hand dropped part) (hstop : s.copier ≠ .stopped)
    (hsend : ∀ ev, s.copier ≠ .sending ev) {after : List Chunk}
    (htaken : s.taken = before ++ c :: after) : c.terminal ≠ true := by
  intro hc
  rcases (h.terminal before c after htaken hc).2 with hcopier | ⟨ev, hcopier⟩
  · exact hstop hcopier
  · exact hsend ev hcopier

theorem Inv.get (h : Inv s consumed pend hand dropped part) (hc : s.copier = .start)
    (hb : s.owner b = .pool) :
    Inv { s.acquire b with copier := .reading b } consumed pend hand dropped part := by
  have hhand : hand = [] := by
    have hhand := h.hand
    rw [HandOf, hc] at hhand
    exact hhand
  have hdropped := h.dropped_eq_nil (by simp [hc])
  refine { h with
    pending := h.pending.frame rfl fun b' hb' => ?_
    hand := ⟨hhand, Function.update_self .., Function.update_self ..⟩
    dropped := by simp [hdropped]
    terminal := fun before c after htaken hterm => ?_
    pool := fun b' => ?_ }
  · have hne : b' ≠ b := by
      rintro rfl
      rw [hb] at hb'
      cases hb'
    simp [acquire, hne]
  · exact absurd hterm (h.not_terminal (by simp [hc]) (by simp [hc]) htaken)
  · have hpool := h.pool b'
    by_cases hne : b' = b
    · subst hne
      simp [acquire, hb] at hpool ⊢
      omega
    · simpa [acquire, hne] using hpool

theorem carries_fill (s : State) (c : Chunk) (rest : List Chunk) (hb : s.owner b = .copier)
    (hsent : c.sent = true) : (s.fill b c rest).Carries .copier ⟨some b, 0, c.data.length, c.err⟩ b
      c [] := by
  have hslice : (s.fill b c rest).slice ⟨some b, 0, c.data.length, c.err⟩ = c.data := by
    simp [slice, fill]
  refine ⟨rfl, hb, rfl, ?_, ?_, ?_⟩
  · rw [hslice]
    rfl
  · rw [hslice]
  · simpa [Chunk.sent, Option.isSome_iff_ne_none] using hsent

theorem keeps_of_ne (hb : s.owner b = .copier)
    (h : ∀ b', b' ≠ b → s'.memory b' = s.memory b' ∧ s'.owner b' = s.owner b' ∧
      s'.filled b' = s.filled b') : Keeps .consumer s s' := by
  intro b' hb'
  refine h b' ?_
  rintro rfl
  rw [hb] at hb'
  cases hb'

theorem pool_release (hpool : ∀ b, s.gets b = s.puts b +
      if s.owner b = .copier ∨ s.owner b = .consumer then 1 else 0)
    (hb : s.owner b = .copier ∨ s.owner b = .consumer) (b' : Nat) :
    (s.releaseReadBuffer b).gets b' = (s.releaseReadBuffer b).puts b' +
      if (s.releaseReadBuffer b).owner b' = .copier ∨ (s.releaseReadBuffer b).owner b' = .consumer
        then 1 else 0 := by
  have hb' := hpool b'
  by_cases hne : b' = b
  · subst hne
    rw [if_pos hb] at hb'
    simpa [releaseReadBuffer] using hb'
  · simpa [releaseReadBuffer, hne] using hb'

section

variable (h : Inv s consumed pend hand dropped part)
include h

theorem Inv.fill_terminal (c : Chunk)
    (hc : s.copier = .reading b) {after : List Chunk} {c' : Chunk}
    (htaken : s.taken ++ [c] = before ++ c' :: after) (hterm : c'.terminal = true) :
    after = [] ∧ c' = c := by
  rcases List.eq_nil_or_concat after with rfl | ⟨after', x, rfl⟩
  · obtain ⟨-, hlast⟩ := List.append_inj' htaken rfl
    cases hlast
    exact ⟨rfl, rfl⟩
  · rw [List.concat_eq_append, ← List.cons_append, ← List.append_assoc] at htaken
    obtain ⟨hsplit, -⟩ := List.append_inj' htaken rfl
    exact absurd hterm (h.not_terminal (by simp [hc]) (by simp [hc]) hsplit)

theorem Inv.read (rest : List Chunk) (hc : s.copier = .reading b) : ∃ hand',
    Inv (s.copyFrom b c rest) consumed pend hand' dropped part := by
  have hhand := h.hand
  rw [HandOf, hc] at hhand
  obtain ⟨rfl, hb, hzero⟩ := hhand
  have hdropped := h.dropped_eq_nil (by simp [hc])
  subst hdropped
  have haccount := h.account
  unfold copyFrom
  dsimp only
  split
  next hsent =>
    refine ⟨[c], {
      account := ?_
      returned := h.returned
      marks := h.marks
      pending := h.pending.frame rfl (keeps_of_ne hb fun b' hne => by simp [fill, hne])
      hand := ?_
      dropped := by simp
      terminal := ?_
      pool := h.pool
      waiting := h.waiting
      copying := h.copying }⟩
    · show (s.taken ++ [c]).filter Chunk.sent = _
      rw [List.filter_append, haccount]
      simp [hsent]
    · refine ⟨b, c, rfl, (carries_fill s c rest hb hsent).frame rfl rfl, ?_⟩
      show (s.fill b c rest).filled b ≤ (bytesOf (s.taken ++ [c])).length
      simp only [fill, Function.update_self]
      split
      · rw [hzero]
        exact Nat.zero_le _
      · exact le_rfl
    · intro before c' after htaken hterm
      exact ⟨(h.fill_terminal c hc htaken hterm).1, .inr ⟨_, rfl⟩⟩
  next hsent =>
    refine ⟨[], {
      account := ?_
      returned := h.returned
      marks := h.marks
      pending := h.pending.frame rfl
        (keeps_of_ne hb fun b' hne => by simp [fill, releaseReadBuffer, hne])
      hand := rfl
      dropped := by simp
      terminal := ?_
      pool := pool_release (s := s.fill b c rest) h.pool (.inl hb)
      waiting := h.waiting
      copying := h.copying }⟩
    · show (s.taken ++ [c]).filter Chunk.sent = _
      rw [List.filter_append, haccount]
      simp [hsent]
    · intro before c' after htaken hterm
      obtain ⟨-, rfl⟩ := h.fill_terminal c hc htaken hterm
      exact absurd (Chunk.sent_of_terminal hterm) hsent

theorem Inv.drop (hc : s.copier = .sending ev)
    (hb : ev.buffer = some b) (hclosed : s.closed = true) :
    Inv { s.releaseReadBuffer b with copier := .stopped } consumed pend [] hand part := by
  have hhand := h.hand
  rw [HandOf, hc] at hhand
  obtain ⟨b', c, rfl, hcarries, -⟩ := hhand
  obtain rfl : b' = b := Option.some.inj (hcarries.buffer.symm.trans hb)
  have hdropped := h.dropped_eq_nil (by simp [hc])
  subst hdropped
  refine { h with
    account := by simpa [releaseReadBuffer] using h.account
    pending := h.pending.frame rfl
      (keeps_of_ne hcarries.owner fun b'' hne => by simp [releaseReadBuffer, hne])
    hand := rfl
    dropped := fun _ => ⟨hclosed, rfl⟩
    terminal := fun before c' after htaken hterm =>
      ⟨(h.terminal before c' after htaken hterm).1, .inl rfl⟩
    pool := pool_release h.pool (.inl hcarries.owner) }

theorem Inv.call (size : Nat) : Inv { s with consumer :=
      if s.pending.len = 0 ∧ s.pending.err = none then .waiting size else .copying size }
      consumed pend hand dropped part := by
  refine { h with
    pending := h.pending.frame rfl (Keeps.refl _ s)
    hand := h.hand.frame rfl rfl (Keeps.refl _ s)
    waiting := fun size' hw => ?_
    copying := fun size' hw => ?_ }
  · dsimp only at hw
    split at hw
    next hempty =>
      rcases h.pending with ⟨hp, -⟩ | ⟨b, c, -, hcarries, -⟩
      · exact hp
      · exact absurd hempty (by rw [not_and_or]; exact hcarries.sent)
    · cases hw
  · dsimp only at hw
    split at hw
    · cases hw
    rename_i hfull
    rintro rfl
    rcases h.pending with ⟨-, -, hzero⟩ | ⟨b, c, hp, -⟩
    · exact hfull (by simp [hzero])
    · cases hp

theorem Inv.bytes_taken : bytesOf s.taken = bytesOf (consumed ++ pend ++ hand ++ dropped) := by
  rw [← h.account, bytesOf_filter]

theorem Inv.receive {b : Nat}
    (hr : s.consumer = .waiting size) (hc : s.copier = .sending ev) (hb : ev.buffer = some b) :
    Inv { s with
      pending := ev
      owner := Function.update s.owner b .consumer
      copier := afterSend ev
      consumer := .copying size } consumed hand [] dropped [] := by
  have hhand := h.hand
  rw [HandOf, hc] at hhand
  obtain ⟨b', c, rfl, hcarries, hfilled⟩ := hhand
  obtain rfl : b' = b := Option.some.inj (hcarries.buffer.symm.trans hb)
  obtain rfl := h.waiting size hr
  have hdropped := h.dropped_eq_nil (by simp [hc])
  subst hdropped
  have hpart : part = [] := by
    rcases h.pending with ⟨-, hpart, -⟩ | ⟨b'', c', hp, -⟩
    · exact hpart
    · cases hp
  have haccount : s.taken.filter Chunk.sent = consumed ++ [c] := by simpa using h.account
  have hafter : afterSend ev = if c.terminal then .stopped else .start := by
    unfold afterSend
    rw [hcarries.err]
    rfl
  refine {
    account := by simpa using haccount
    returned := by rw [← hpart]; exact h.returned
    marks := h.marks
    pending := .inr ⟨b', c, rfl, ?_, ?_⟩
    hand := ?_
    dropped := by simp
    terminal := ?_
    pool := ?_
    waiting := by simp
    copying := by simp }
  · exact ⟨hcarries.buffer, Function.update_self .., hcarries.err, hcarries.data, hcarries.len,
      hcarries.sent⟩
  · rw [h.bytes_taken] at hfilled
    simpa using hfilled
  · show match afterSend ev with
      | .start | .stopped => _
      | .reading b => _
      | .sending ev => _
    rw [hafter]
    cases c.terminal <;> rfl
  · intro before c' after htaken hterm
    refine ⟨(h.terminal before c' after htaken hterm).1, .inl ?_⟩
    -- The chunk in the hand is the last one taken, and the terminal one.
    obtain ⟨rfl, -⟩ := h.terminal before c' after htaken hterm
    have hsent := Chunk.sent_of_terminal hterm
    rw [htaken, List.filter_append, List.filter_cons_of_pos hsent, List.filter_nil] at haccount
    obtain ⟨-, hlast⟩ := List.append_inj' haccount rfl
    cases hlast
    rw [hafter, hterm]
    rfl
  · intro b''
    have hpool := h.pool b''
    by_cases hne : b'' = b'
    · subst hne
      simpa [hcarries.owner] using hpool
    · simpa [hne] using hpool

end

theorem marks_append {results : List ReadResult} {r : ReadResult}
    (hmarks : ∀ before r after e, results = before ++ r :: after → r.err = some (.source e) →
      ∃ cs c cs', consumed = cs ++ c :: cs' ∧ c.err = some e ∧
        before.flatMap ReadResult.data ++ r.data = bytesOf (cs ++ [c]))
    (more : List Chunk) (hr : ∀ e, r.err = some (.source e) → ∃ c, more = [c] ∧ c.err = some e ∧
      results.flatMap ReadResult.data ++ r.data = bytesOf (consumed ++ [c])) :
    ∀ before r' after e, results ++ [r] = before ++ r' :: after → r'.err = some (.source e) →
      ∃ cs c cs', consumed ++ more = cs ++ c :: cs' ∧ c.err = some e ∧
        before.flatMap ReadResult.data ++ r'.data = bytesOf (cs ++ [c]) := by
  intro before r' after e heq he
  rcases List.eq_nil_or_concat after with rfl | ⟨after', x, rfl⟩
  · obtain ⟨rfl, hlast⟩ := List.append_inj' heq rfl
    cases hlast
    obtain ⟨c, rfl, hc, hbytes⟩ := hr e he
    exact ⟨consumed, c, [], rfl, hc, hbytes⟩
  · rw [List.concat_eq_append, ← List.cons_append, ← List.append_assoc] at heq
    obtain ⟨hsplit, -⟩ := List.append_inj' heq rfl
    obtain ⟨cs, c, cs', hconsumed, hc, hbytes⟩ := hmarks before r' after' e hsplit he
    exact ⟨cs, c, cs' ++ more, by simp [hconsumed], hc, hbytes⟩

theorem Inv.refuse (h : Inv s consumed pend hand dropped part) :
    Inv { s with consumer := .idle, results := s.results ++ [⟨[], some .closed⟩] }
      consumed pend hand dropped part := by
  refine { h with
    returned := ?_
    marks := ?_
    pending := h.pending.frame rfl (Keeps.refl _ s)
    hand := h.hand.frame rfl rfl (Keeps.refl _ s)
    waiting := by simp
    copying := by simp }
  · have hreturned := h.returned
    simpa [State.returned] using hreturned
  intro before r after e heq he
  have hmarks := marks_append (r := ⟨[], some .closed⟩) h.marks [] (by simp)
  simpa using hmarks before r after e heq he

theorem slice_advance (s : State) (ev : RestartReadEvent) (n : Nat) :
    s.slice { ev with off := ev.off + n, len := ev.len - n } = (s.slice ev).drop n := by
  unfold slice
  dsimp only
  rw [List.drop_take, List.drop_drop]

/-- `Read` returns the next octets of its chunk, and lets go of the buffer with the last. -/
theorem Inv.copyOut (h : Inv s consumed pend hand dropped part)
    (hr : s.consumer = .copying size) : ∃ consumed' pend' part',
    Inv (s.copyOut size) consumed' pend' hand dropped part' := by
  obtain ⟨b, c, rfl, hcarries, hfilled⟩ : ∃ b c, pend = [c] ∧
      s.Carries .consumer s.pending b c part ∧
      s.filled b ≤ (bytesOf (consumed ++ [c])).length :=
    h.pending.resolve_left fun hzero => h.copying size hr hzero.1
  have hlen := hcarries.len
  unfold State.copyOut
  dsimp only
  split
  next hmore =>
    refine ⟨consumed, [c], part ++ (s.slice s.pending).take (min size s.pending.len), {
      account := h.account
      returned := ?_
      marks := ?_
      pending := .inr ⟨b, c, rfl, ?_, hfilled⟩
      hand := h.hand.frame rfl rfl (Keeps.refl _ s)
      dropped := h.dropped
      terminal := h.terminal
      pool := h.pool
      waiting := by simp
      copying := by simp }⟩
    · have hreturned := h.returned
      simp only [State.returned, List.flatMap_append, List.flatMap_singleton] at hreturned ⊢
      rw [hreturned, List.append_assoc]
    · simpa using marks_append (r := ⟨_, none⟩) h.marks [] (by simp)
    · refine ⟨hcarries.buffer, hcarries.owner, hcarries.err, ?_, ?_, .inl (by dsimp only; omega)⟩
      · show c.data = _ ++ s.slice _
        rw [slice_advance, List.append_assoc, List.take_append_drop]
        exact hcarries.data
      · show (s.slice _).length = _
        rw [slice_advance, List.length_drop, hlen]
  next hlast =>
    have hall : (s.slice s.pending).take (min size s.pending.len) = s.slice s.pending := by
      rw [List.take_of_length_le]
      omega
    have hbytes : s.returned ++ s.slice s.pending = bytesOf (consumed ++ [c]) := by
      rw [h.returned, bytesOf_append, bytesOf_singleton, hcarries.data, List.append_assoc]
    rw [hall, hcarries.buffer]
    dsimp only
    refine ⟨consumed ++ [c], [], [], {
      account := by simpa [releaseReadBuffer] using h.account
      returned := ?_
      marks := ?_
      pending := .inl ⟨rfl, rfl, rfl⟩
      hand := h.hand.frame rfl rfl fun b' hb' => ?_
      dropped := h.dropped
      terminal := h.terminal
      pool := pool_release h.pool (.inr hcarries.owner)
      waiting := by simp
      copying := by simp }⟩
    · simp only [State.returned, List.flatMap_append, List.flatMap_singleton, List.append_nil]
      exact hbytes
    · refine marks_append h.marks [c] fun e he => ⟨c, rfl, ?_, hbytes⟩
      rw [← hcarries.err]
      obtain ⟨e', he', heq⟩ := Option.map_eq_some_iff.1 he
      cases heq
      exact he'
    · have hne : b' ≠ b := by
        rintro rfl
        rw [hcarries.owner] at hb'
        cases hb'
      simp [releaseReadBuffer, hne]

/-- The rest of the program has only what the reader put back, or never took. -/
theorem Inv.foreign (h : Inv s consumed pend hand dropped part) {owner : Nat → Owner}
    {memory : Nat → Bytes}
    (hkeep : ∀ b, s.owner b = .copier ∨ s.owner b = .consumer → memory b = s.memory b)
    (howner : ∀ b who, who = .copier ∨ who = .consumer → (owner b = who ↔ s.owner b = who)) :
    Inv { s with owner := owner, memory := memory } consumed pend hand dropped part := by
  have hkeeps : ∀ who, who = .copier ∨ who = .consumer →
      Keeps who s { s with owner := owner, memory := memory } := by
    intro who hwho b hb
    exact ⟨hkeep b (hb ▸ hwho), ((howner b who hwho).2 hb).trans hb.symm, rfl⟩
  refine { h with
    pending := h.pending.frame rfl (hkeeps _ (.inr rfl))
    hand := h.hand.frame rfl rfl (hkeeps _ (.inl rfl))
    pool := fun b => ?_ }
  have hpool := h.pool b
  simp only [← howner b .copier (.inl rfl), ← howner b .consumer (.inr rfl)] at hpool
  exact hpool

theorem Inv.step (h : Inv s consumed pend hand dropped part) (hstep : Step s s') :
    ∃ consumed' pend' hand' dropped' part', Inv s' consumed' pend' hand' dropped' part' := by
  cases hstep with
  | get b hc hb => exact ⟨_, _, _, _, _, h.get hc hb⟩
  | read b c rest hc _ =>
    obtain ⟨hand', h'⟩ := h.read (c := c) rest hc
    exact ⟨_, _, _, _, _, h'⟩
  | drop b ev hc hb hclosed => exact ⟨_, _, _, _, _, h.drop hc hb hclosed⟩
  | call size _ => exact ⟨_, _, _, _, _, h.call size⟩
  | receive size b ev hr hc hb => exact ⟨_, _, _, _, _, h.receive hr hc hb⟩
  | refuse size _ _ => exact ⟨_, _, _, _, _, h.refuse⟩
  | copyOut size hr =>
    obtain ⟨consumed', pend', part', h'⟩ := h.copyOut hr
    exact ⟨_, _, _, _, _, h'⟩
  | close =>
    refine ⟨_, _, _, _, _, { h with
      pending := h.pending.frame rfl (Keeps.refl _ s)
      hand := h.hand.frame rfl rfl (Keeps.refl _ s)
      dropped := fun hd => ⟨rfl, (h.dropped hd).2⟩ }⟩
  | foreignGet b hb =>
    refine ⟨_, _, _, _, _, h.foreign (fun _ _ => rfl) fun b' who hwho => ?_⟩
    by_cases hne : b' = b
    · rw [hne, Function.update_self, hb]
      rcases hwho with rfl | rfl <;> simp
    · rw [Function.update_of_ne hne]
  | foreignWrite b bs hb =>
    refine ⟨_, _, _, _, _, h.foreign (fun b' hb' => ?_) fun b' who _ => Iff.rfl⟩
    refine Function.update_of_ne ?_ ..
    rintro rfl
    rw [hb] at hb'
    simp at hb'
  | foreignPut b hb =>
    refine ⟨_, _, _, _, _, h.foreign (fun _ _ => rfl) fun b' who hwho => ?_⟩
    by_cases hne : b' = b
    · rw [hne, Function.update_self, hb]
      rcases hwho with rfl | rfl <;> simp
    · rw [Function.update_of_ne hne]

theorem inv_of_reachable (h : Reachable source s) :
    ∃ consumed pend hand dropped part, Inv s consumed pend hand dropped part := by
  induction h with
  | refl => exact ⟨_, _, _, _, _, Inv.start source⟩
  | tail _ hstep ih =>
    obtain ⟨_, _, _, _, _, hinv⟩ := ih
    exact hinv.step hstep

end Steps

/-- What is in the copier's hand. -/
def inHand (s : State) : Bytes :=
  match s.copier with
  | .sending ev => s.slice ev
  | _ => []

theorem taken_step (h : Step s s') : s'.taken ++ s'.source = s.taken ++ s.source := by
  cases h with
  | read b c rest _ hs =>
    rw [hs]
    unfold copyFrom
    dsimp only
    split <;> simp [fill, releaseReadBuffer]
  | copyOut size _ =>
    unfold State.copyOut
    dsimp only
    split
    · rfl
    · cases s.pending.buffer <;> rfl
  | _ => rfl

theorem taken_of_reachable (h : Reachable source s) :
    source = s.taken ++ s.source := by
  induction h with
  | refl => rfl
  | tail _ hstep ih => rw [ih, taken_step hstep]

section Reading

variable {consumed pend hand dropped : List Chunk} {part : Bytes}

theorem PendingOf.bytes (h : s.PendingOf consumed pend part) :
    part ++ s.slice s.pending = bytesOf pend := by
  rcases h with ⟨rfl, rfl, hzero⟩ | ⟨b, c, rfl, hcarries, -⟩
  · simp [hzero, slice]
  · rw [bytesOf_singleton, hcarries.data]

theorem HandOf.bytes (h : s.HandOf hand) : s.inHand = bytesOf hand := by
  unfold HandOf at h
  unfold inHand
  cases hc : s.copier with
  | start | stopped =>
    rw [hc] at h
    rw [h]
    rfl
  | reading b =>
    rw [hc] at h
    rw [h.1]
    rfl
  | sending ev =>
    rw [hc] at h
    obtain ⟨b, c, rfl, hcarries, -⟩ := h
    rw [bytesOf_singleton, hcarries.data]
    rfl

section

variable (h : Inv s consumed pend hand dropped part)
include h

theorem Inv.bytes :
    bytesOf s.taken = s.returned ++ s.slice s.pending ++ s.inHand ++ bytesOf dropped := by
  rw [h.bytes_taken, h.returned, h.hand.bytes, List.append_assoc (bytesOf consumed),
    h.pending.bytes]
  simp only [bytesOf_append]

theorem Inv.mark_taken {before after : List ReadResult} {r : ReadResult} {e : SourceError}
    (hresults : s.results = before ++ r :: after) (he : r.err = some (.source e)) :
    ∃ cs c cs', s.taken = cs ++ c :: cs' ∧ c.err = some e ∧
      before.flatMap ReadResult.data ++ r.data = bytesOf (cs ++ [c]) ∧
      (e.restart = false → cs' = []) := by
  obtain ⟨cs, c, cs', hconsumed, hc, hbytes⟩ := h.marks before r after e hresults he
  have haccount : s.taken.filter Chunk.sent = cs ++ c :: (cs' ++ pend ++ hand ++ dropped) := by
    rw [h.account, hconsumed]
    simp
  obtain ⟨ds, ds', htaken, hcs, htail⟩ := List.filter_eq_append_iff.1 haccount
  obtain ⟨es, es', hds', hes, -, -⟩ := List.filter_eq_cons_iff.1 htail
  have hsplit : s.taken = (ds ++ es) ++ c :: es' := by rw [htaken, hds', List.append_assoc]
  have hskipped : es.filter Chunk.sent = [] := by simpa [List.filter_eq_nil_iff] using hes
  refine ⟨ds ++ es, c, es', hsplit, hc, ?_, fun hrestart => ?_⟩
  · rw [hbytes, bytesOf_append, bytesOf_append (ds ++ es), bytesOf_append ds es,
      ← bytesOf_filter ds, ← bytesOf_filter es, hcs, hskipped]
    simp
  · refine (h.terminal _ _ _ hsplit ?_).1
    simp [Chunk.terminal, hc, hrestart]

theorem Inv.copyOut_results (hr : s.consumer = .copying size) (hsize : 0 < size) :
    ∃ r, (s.copyOut size).results = s.results ++ [r] ∧ (r.data ≠ [] ∨ r.err ≠ none) := by
  obtain ⟨b, c, -, hcarries, -⟩ := h.pending.resolve_left fun hzero => h.copying size hr hzero.1
  have hlen := hcarries.len
  have hdata : s.pending.len ≠ 0 →
      (s.slice s.pending).take (min size s.pending.len) ≠ [] := by
    intro hpos hnil
    have := congrArg List.length hnil
    rw [List.length_take, hlen, List.length_nil] at this
    omega
  unfold State.copyOut
  dsimp only
  split
  · exact ⟨_, rfl, .inl (hdata (by omega))⟩
  · refine ⟨_, rfl, hcarries.sent.imp hdata fun herr => ?_⟩
    simpa using herr

/-- A buffer that goes back was out once, and its octets were returned or the reader closed. -/
theorem Inv.released (hstep : Step s s')
    (hb : s'.puts b ≠ s.puts b) : s'.puts b = s.puts b + 1 ∧ s'.puts b = s'.gets b ∧
      (s.closed = true ∨ s'.filled b ≤ s'.returned.length) := by
  -- Only the buffer that is let go of has its count raised.
  have hone : ∀ {b'}, (Function.update s.puts b' (s.puts b' + 1)) b ≠ s.puts b → b = b' := by
    intro b' hne
    by_contra hbb
    exact hne (Function.update_of_ne hbb ..)
  have hout : s.owner b = .copier ∨ s.owner b = .consumer → s.gets b = s.puts b + 1 := by
    intro howner
    rw [h.pool b, if_pos howner]
  have hhand := h.hand
  unfold HandOf at hhand
  cases hstep with
  | read b' c rest hc _ =>
    rw [hc] at hhand
    unfold copyFrom at hb ⊢
    dsimp only at hb ⊢
    split at hb
    · exact absurd rfl hb
    rename_i hsent
    rw [if_neg hsent]
    obtain rfl := hone hb
    have hdata := Chunk.data_of_not_sent hsent
    refine ⟨Function.update_self .., ?_, .inr ?_⟩
    · exact (Function.update_self ..).trans (hout (.inl hhand.2.1)).symm
    · simp [releaseReadBuffer, fill, hdata, hhand.2.2]
  | drop b' ev hc hb' hclosed =>
    rw [hc] at hhand
    obtain ⟨b'', c, -, hcarries, -⟩ := hhand
    obtain rfl : b'' = b' := Option.some.inj (hcarries.buffer.symm.trans hb')
    obtain rfl := hone hb
    refine ⟨Function.update_self .., ?_, .inl hclosed⟩
    exact (Function.update_self ..).trans (hout (.inl hcarries.owner)).symm
  | copyOut size hr =>
    obtain ⟨b', c, -, hcarries, hfilled⟩ :=
      h.pending.resolve_left fun hzero => h.copying size hr hzero.1
    have hlen := hcarries.len
    unfold State.copyOut at hb ⊢
    dsimp only at hb ⊢
    split at hb
    · exact absurd rfl hb
    rename_i hlast
    rw [if_neg hlast]
    simp only [hcarries.buffer] at hb ⊢
    obtain rfl := hone hb
    refine ⟨Function.update_self .., ?_, .inr ?_⟩
    · exact (Function.update_self ..).trans (hout (.inr hcarries.owner)).symm
    have hall : (s.slice s.pending).take (min size s.pending.len) = s.slice s.pending := by
      rw [List.take_of_length_le]
      omega
    have hreturned := h.returned
    simp only [State.returned, releaseReadBuffer, List.flatMap_append,
      List.flatMap_singleton] at hreturned ⊢
    rw [hall, hreturned, List.append_assoc, ← hcarries.data]
    rwa [bytesOf_append, bytesOf_singleton] at hfilled
  | _ => exact absurd rfl hb

end

end Reading

end State

/-- What a reader over `source` owes its consumer and the pool. -/
structure Transparent (source : List Chunk) (s : State) : Prop where
  /-- The source is cut into what was taken and what was not. -/
  taken : source = s.taken ++ s.source
  /-- The octets are returned in order. -/
  inOrder : ∃ rest, bytesOf s.taken = s.returned ++ rest
  /-- Before the reader is closed the rest is with one of the two sides. -/
  lossless : s.closed = false →
    bytesOf s.taken = s.returned ++ s.slice s.pending ++ s.inHand
  /-- `Read` waits only for octets that were not taken, or that it is about to be given. -/
  waiting : s.closed = false → ∀ size, s.consumer = .waiting size →
    bytesOf s.taken = s.returned ++ s.inHand
  /-- A call with room brings an octet or an error. -/
  progress : ∀ size, s.consumer = .copying size → 0 < size →
    ∃ r, (s.copyOut size).results = s.results ++ [r] ∧ (r.data ≠ [] ∨ r.err ≠ none)
  /-- An error comes with the last octet before it, and the terminal one ends the source. -/
  error : ∀ before r after e, s.results = before ++ r :: after → r.err = some (.source e) →
    ∃ cs c cs', s.taken = cs ++ c :: cs' ∧ c.err = some e ∧
      before.flatMap ReadResult.data ++ r.data = bytesOf (cs ++ [c]) ∧
      (e.restart = false → cs' = [])
  /-- A buffer is put back once for each time it was taken. -/
  once : ∀ b, s.puts b ≤ s.gets b
  /-- It is put back after its last octet was returned, or the reader was closed. -/
  released : ∀ s' b, Step s s' → s'.puts b ≠ s.puts b →
    s'.puts b = s.puts b + 1 ∧ s'.puts b = s'.gets b ∧
      (s.closed = true ∨ s'.filled b ≤ s'.returned.length)

/-- Whatever the chunks of the source, the sizes of the calls and the schedule of the two sides, of
the closing and of the pool's other users. -/
theorem ordered_reader {source : List Chunk} {s : State} (h : Reachable source s) :
    Transparent source s := by
  obtain ⟨consumed, pend, hand, dropped, part, hinv⟩ := State.inv_of_reachable h
  have hbytes := hinv.bytes
  have hnone : s.closed = false → bytesOf dropped = [] := by
    intro hopen
    by_cases hd : dropped = []
    · rw [hd, bytesOf_nil]
    · rw [(hinv.dropped hd).1] at hopen
      cases hopen
  refine {
    taken := State.taken_of_reachable h
    inOrder := ⟨s.slice s.pending ++ s.inHand ++ bytesOf dropped, by rw [hbytes]; simp⟩
    lossless := fun hopen => by rw [hbytes, hnone hopen, List.append_nil]
    waiting := fun hopen size hr => ?_
    progress := fun size hr hsize => hinv.copyOut_results hr hsize
    error := fun before r after e hresults he => hinv.mark_taken hresults he
    once := fun b => by rw [hinv.pool b]; omega
    released := fun s' b hstep hb => hinv.released hstep hb }
  have hslice := hinv.pending.bytes
  rw [hinv.waiting size hr] at hslice
  rw [hbytes, hnone hopen, (List.append_eq_nil_iff.1 hslice).2, List.append_nil, List.append_nil]

/-- Two octets and the end of the source. -/
def lastChunk : Chunk := ⟨[1, 2], some ⟨false, "EOF"⟩, by decide⟩

/-- The copier sends them while a call with room for one waits. -/
def offered : State :=
  { ({ source := [lastChunk] } : State).acquire 0 |>.copyFrom 0 lastChunk [] with
    consumer := .waiting 1 }

/-- The call took the chunk. -/
def received : State :=
  { offered with
    pending := ⟨some 0, 0, 2, some ⟨false, "EOF"⟩⟩
    owner := Function.update offered.owner 0 .consumer
    copier := .stopped
    consumer := .copying 1 }

theorem ordered_reader_halfway : Reachable [lastChunk] (received.copyOut 1) ∧
    (received.copyOut 1).returned = [1] ∧ Transparent [lastChunk] (received.copyOut 1) := by
  have hrun : Reachable [lastChunk] (received.copyOut 1) := by
    refine .tail (.tail (.tail (.tail (.tail .refl (.get 0 rfl rfl)) (.call 1 rfl))
      (.read 0 lastChunk [] rfl rfl)) ?_) (.copyOut 1 rfl)
    exact .receive 1 0 ⟨some 0, 0, 2, some ⟨false, "EOF"⟩⟩ rfl rfl rfl
  exact ⟨hrun, rfl, ordered_reader hrun⟩

end Diameter.Reader
