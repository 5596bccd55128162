import Mathlib.Data.List.Basic

/-!
# Lib.Checked

Computations that can fail: when a sequence of steps succeeds, and what a loop that stops at the
first error keeps.
-/

namespace Lib

universe u

variable {ε β σ : Type} {α : Type u}

theorem bind_eq_ok {x : Except ε σ} {f : σ → Except ε β} {b : β} :
    (x >>= f) = .ok b ↔ ∃ a, x = .ok a ∧ f a = .ok b := by
  cases x with
  | error e => exact ⟨fun h => (by cases h), fun ⟨_, h, _⟩ => (by cases h)⟩
  | ok a => exact ⟨fun h => ⟨a, rfl, h⟩, fun ⟨_, h, hf⟩ => (by cases h; exact hf)⟩

theorem andThen_eq_ok {x : Except ε Unit} {f : Unit → Except ε β} {b : β} :
    (x >>= f) = .ok b ↔ x = .ok () ∧ f () = .ok b := by
  rw [bind_eq_ok]
  exact ⟨fun ⟨_, h⟩ => h, fun h => ⟨(), h⟩⟩

theorem toOption_eq_some {x : Except ε σ} {a : σ} : x.toOption = some a ↔ x = .ok a := by
  cases x with
  | error e => exact ⟨fun h => (by cases h), fun h => (by cases h)⟩
  | ok b => exact ⟨fun h => (by cases h; rfl), fun h => (by cases h; rfl)⟩

theorem mapError_eq_ok {x : Except ε σ} {f : ε → β} {a : σ} : x.mapError f = .ok a ↔ x = .ok a := by
  cases x with
  | error e => exact ⟨fun h => (by cases h), fun h => (by cases h)⟩
  | ok b => exact ⟨fun h => (by cases h; rfl), fun h => (by cases h; rfl)⟩

theorem forM_eq_ok {check : α → Except ε Unit} {l : List α} :
    l.forM check = .ok () ↔ ∀ x ∈ l, check x = .ok () := by
  induction l with
  | nil => exact ⟨fun _ x hx => (by cases hx), fun _ => rfl⟩
  | cons x l ih =>
    have hcons : (x :: l).forM check = (check x >>= fun _ => l.forM check) := rfl
    rw [hcons, andThen_eq_ok, ih, List.forall_mem_cons]

theorem exists_of_mem_mapM {f : α → Except ε β} {l : List α} {l' : List β}
    (h : l.mapM f = .ok l') {y : β} (hy : y ∈ l') : ∃ x ∈ l, f x = .ok y := by
  induction l generalizing l' with
  | nil =>
    cases h
    cases hy
  | cons x l ih =>
    rw [List.mapM_cons] at h
    obtain ⟨b, hb, h⟩ := bind_eq_ok.1 h
    obtain ⟨bs, hbs, h⟩ := bind_eq_ok.1 h
    cases h
    rcases List.mem_cons.1 hy with rfl | hy
    · exact ⟨x, List.mem_cons_self, hb⟩
    · obtain ⟨z, hz, hfz⟩ := ih hbs hy
      exact ⟨z, List.mem_cons_of_mem _ hz, hfz⟩

theorem mem_of_mem_mapM {f : α → Except ε β} {l : List α} {l' : List β} (h : l.mapM f = .ok l')
    {x : α} (hx : x ∈ l) : ∃ y ∈ l', f x = .ok y := by
  induction l generalizing l' with
  | nil => cases hx
  | cons z l ih =>
    rw [List.mapM_cons] at h
    obtain ⟨b, hb, h⟩ := bind_eq_ok.1 h
    obtain ⟨bs, hbs, h⟩ := bind_eq_ok.1 h
    cases h
    rcases List.mem_cons.1 hx with rfl | hx
    · exact ⟨b, List.mem_cons_self, hb⟩
    · obtain ⟨y, hy, hfx⟩ := ih hbs hx
      exact ⟨y, List.mem_cons_of_mem _ hy, hfx⟩

theorem mapM_isOk {f : α → Except ε β} {l : List α} (h : ∀ x ∈ l, ∃ y, f x = .ok y) :
    ∃ l', l.mapM f = .ok l' := by
  induction l with
  | nil => exact ⟨[], rfl⟩
  | cons x l ih =>
    obtain ⟨y, hy⟩ := h x List.mem_cons_self
    obtain ⟨ys, hys⟩ := ih fun z hz => h z (List.mem_cons_of_mem _ hz)
    exact ⟨y :: ys, by rw [List.mapM_cons, hy, hys]; rfl⟩

theorem foldlM_total {step : σ → α → Except ε σ} {P : σ → Prop} {l : List α}
    (hstep : ∀ x ∈ l, ∀ s, P s → ∃ s', step s x = .ok s' ∧ P s') {s : σ} (hs : P s) :
    ∃ s', l.foldlM step s = .ok s' ∧ P s' := by
  induction l generalizing s with
  | nil => exact ⟨s, rfl, hs⟩
  | cons x l ih =>
    obtain ⟨s1, h1, hs1⟩ := hstep x List.mem_cons_self s hs
    obtain ⟨s', h', hs'⟩ := ih (fun y hy => hstep y (List.mem_cons_of_mem _ hy)) hs1
    exact ⟨s', by rw [List.foldlM_cons, h1]; exact h', hs'⟩

theorem foldlM_invariant {step : σ → α → Except ε σ} {P : σ → Prop} {l : List α}
    (hstep : ∀ s x s', x ∈ l → P s → step s x = .ok s' → P s') {s s' : σ}
    (h : l.foldlM step s = .ok s') (hs : P s) : P s' := by
  induction l generalizing s with
  | nil =>
    cases h
    exact hs
  | cons x l ih =>
    rw [List.foldlM_cons] at h
    obtain ⟨s1, h1, hrest⟩ := bind_eq_ok.1 h
    refine ih (fun s y s' hy => hstep s y s' (List.mem_cons_of_mem _ hy)) hrest ?_
    exact hstep s x s1 List.mem_cons_self hs h1

/-- What one step establishes and every later step keeps holds at the end. -/
theorem foldlM_establishes {step : σ → α → Except ε σ} {P : σ → Prop} {l : List α} {x : α}
    (hx : x ∈ l) (hmake : ∀ s s', step s x = .ok s' → P s')
    (hkeep : ∀ s y s', y ∈ l → P s → step s y = .ok s' → P s') {s s' : σ}
    (h : l.foldlM step s = .ok s') : P s' := by
  induction l generalizing s with
  | nil => cases hx
  | cons y l ih =>
    rw [List.foldlM_cons] at h
    obtain ⟨s1, h1, hrest⟩ := bind_eq_ok.1 h
    have hkeep' : ∀ s z s', z ∈ l → P s → step s z = .ok s' → P s' :=
      fun s z s' hz => hkeep s z s' (List.mem_cons_of_mem _ hz)
    rcases List.mem_cons.1 hx with rfl | hx
    · exact foldlM_invariant hkeep' hrest (hmake s s1 h1)
    · exact ih hx hkeep' hrest

end Lib
