import Mathlib.Data.List.Basic

/-!
# Components that take or leave items

A component reads items one by one and takes some of them. `takes` is what it
did with each item of a list. Two components that agree on one item, from
states that correspond, agree on every list (`takes_congr`). `foldlM_rel` is
the same for components that may fail: what the first gets through, the
second does.
-/

namespace Kit

variable {σ τ α : Type}

/-- Which items are taken, from a state on. -/
def takes (step : σ → α → σ × Bool) : σ → List α → List Bool
  | _, [] => []
  | s, a :: rest => (step s a).2 :: takes step (step s a).1 rest

/-- The items that were taken. -/
def taken : List Bool → List α → List α
  | true :: marks, a :: rest => a :: taken marks rest
  | false :: marks, _ :: rest => taken marks rest
  | _, _ => []

/-- A simulation: corresponding states take the same items and still correspond. -/
theorem takes_congr {step : σ → α → σ × Bool} {step' : τ → α → τ × Bool} (R : σ → τ → Prop)
    {items : List α}
    (hstep : ∀ a ∈ items, ∀ s t, R s t →
      (step s a).2 = (step' t a).2 ∧ R (step s a).1 (step' t a).1)
    {s : σ} {t : τ} (h : R s t) : takes step s items = takes step' t items := by
  induction items generalizing s t with
  | nil => rfl
  | cons a rest ih =>
      obtain ⟨hmark, hnext⟩ := hstep a List.mem_cons_self s t h
      rw [takes, takes, hmark, ih (fun b hb => hstep b (List.mem_cons_of_mem _ hb)) hnext]

/-- A simulation of loops that may fail. -/
theorem foldlM_rel {ε : Type} {f : σ → α → Except ε σ} {g : τ → α → Except ε τ}
    (R : σ → τ → Prop)
    (hstep : ∀ s t a s', R s t → f s a = .ok s' → ∃ t', g t a = .ok t' ∧ R s' t')
    {l : List α} {s s' : σ} {t : τ} (h : R s t) (hf : l.foldlM f s = .ok s') :
    ∃ t', l.foldlM g t = .ok t' ∧ R s' t' := by
  induction l generalizing s t with
  | nil =>
      cases hf
      exact ⟨t, rfl, h⟩
  | cons a l ih =>
      rw [List.foldlM_cons] at hf
      cases hfirst : f s a with
      | error e =>
          rw [hfirst] at hf
          cases hf
      | ok mid =>
          rw [hfirst] at hf
          obtain ⟨mid', hg, hmid⟩ := hstep s t a mid h hfirst
          obtain ⟨t', hrest, hlast⟩ := ih hmid hf
          refine ⟨t', ?_, hlast⟩
          rw [List.foldlM_cons, hg]
          exact hrest

end Kit
