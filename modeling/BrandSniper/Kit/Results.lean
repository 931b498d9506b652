import Mathlib.Data.List.Basic

/-!
# Results of computations that may raise

When a sequence of steps, or one step for each element of a list, returns, and
what it then returns.
-/

namespace Kit

section
variable {ε α β : Type}

/-- It does not raise. -/
def Succeeds (result : Except ε α) : Prop := ∃ value, result = .ok value

theorem succeeds_ok (value : α) : Succeeds (.ok value : Except ε α) := ⟨value, rfl⟩

theorem not_succeeds_error (e : ε) : ¬ Succeeds (.error e : Except ε α) := by
  rintro ⟨value, h⟩
  cases h

@[simp] theorem succeeds_map (f : α → β) (result : Except ε α) :
    Succeeds (result.map f) ↔ Succeeds result := by
  cases result with
  | error e => exact iff_of_false (not_succeeds_error e) (not_succeeds_error e)
  | ok value => exact iff_of_true ⟨f value, rfl⟩ ⟨value, rfl⟩

theorem bind_eq_ok {f : α → Except ε β} {result : Except ε α} {value : β}
    (h : result >>= f = .ok value) : ∃ a, result = .ok a ∧ f a = .ok value := by
  cases result with
  | error e => cases h
  | ok a => exact ⟨a, rfl, h⟩

theorem bind_eq_error {f : α → Except ε β} {result : Except ε α} {e : ε}
    (h : result >>= f = .error e) : result = .error e ∨ ∃ a, result = .ok a ∧ f a = .error e := by
  cases result with
  | error e' =>
      cases h
      exact Or.inl rfl
  | ok a => exact Or.inr ⟨a, rfl, h⟩

theorem succeeds_bind {f : α → Except ε β} {result : Except ε α} :
    Succeeds (result >>= f) ↔ ∃ value, result = .ok value ∧ Succeeds (f value) := by
  cases result with
  | error e =>
      refine iff_of_false (not_succeeds_error e) ?_
      rintro ⟨value, h, -⟩
      cases h
  | ok value =>
      constructor
      · exact fun h => ⟨value, rfl, h⟩
      · rintro ⟨value', h, hf⟩
        cases h
        exact hf

theorem succeeds_mapM_iff {f : α → Except ε β} {l : List α} :
    Succeeds (l.mapM f) ↔ ∀ a ∈ l, Succeeds (f a) := by
  induction l with
  | nil => exact iff_of_true (succeeds_ok _) (List.forall_mem_nil _)
  | cons a rest ih =>
      rw [List.mapM_cons, succeeds_bind, List.forall_mem_cons, ← ih]
      constructor
      · rintro ⟨b, hb, hrest⟩
        obtain ⟨bs, hbs, -⟩ := succeeds_bind.mp hrest
        exact ⟨⟨b, hb⟩, bs, hbs⟩
      · rintro ⟨⟨b, hb⟩, bs, hbs⟩
        exact ⟨b, hb, succeeds_bind.mpr ⟨bs, hbs, succeeds_ok _⟩⟩

theorem succeeds_optionMapM_iff {f : α → Except ε β} {value? : Option α} :
    Succeeds (value?.mapM f) ↔ ∀ a, value? = some a → Succeeds (f a) := by
  cases value? with
  | none => exact iff_of_true (succeeds_ok none) nofun
  | some a =>
      constructor
      · rintro h _ ⟨⟩
        exact (succeeds_map some (f a)).mp h
      · intro h
        exact (succeeds_map some (f a)).mpr (h a rfl)

theorem optionMapM_eq_ok {f : α → Except ε β} {value? : Option α} {result? : Option β}
    (h : value?.mapM f = .ok result?) :
    (value? = none ∧ result? = none) ∨
      ∃ a b, value? = some a ∧ f a = .ok b ∧ result? = some b := by
  cases value? with
  | none =>
      cases h
      exact .inl ⟨rfl, rfl⟩
  | some a =>
      have hmap : (f a).map some = .ok result? := h
      cases hf : f a with
      | error e =>
          rw [hf] at hmap
          cases hmap
      | ok b =>
          rw [hf] at hmap
          cases hmap
          exact .inr ⟨a, b, rfl, hf, rfl⟩

theorem mapM_eq_ok {f : α → Except ε β} {g : α → β} {l : List α} (h : ∀ a ∈ l, f a = .ok (g a)) :
    l.mapM f = .ok (l.map g) := by
  induction l with
  | nil => rfl
  | cons a rest ih =>
      rw [List.mapM_cons, h a List.mem_cons_self, ih fun b hb => h b (List.mem_cons_of_mem _ hb)]
      rfl

theorem mapM_cons_eq_ok {f : α → Except ε β} {a : α} {l : List α} {out : List β}
    (h : (a :: l).mapM f = .ok out) :
    ∃ b others, f a = .ok b ∧ l.mapM f = .ok others ∧ out = b :: others := by
  rw [List.mapM_cons] at h
  obtain ⟨b, hb, h⟩ := bind_eq_ok h
  obtain ⟨others, hothers, h⟩ := bind_eq_ok h
  cases h
  exact ⟨b, others, hb, hothers, rfl⟩

theorem mem_mapM_ok {f : α → Except ε β} {l : List α} {out : List β} (h : l.mapM f = .ok out)
    {b : β} : b ∈ out ↔ ∃ a ∈ l, f a = .ok b := by
  induction l generalizing out with
  | nil =>
      rw [List.mapM_nil] at h
      cases h
      simp
  | cons a rest ih =>
      obtain ⟨first, others, ha, hothers, rfl⟩ := mapM_cons_eq_ok h
      rw [List.mem_cons, ih hothers]
      simp only [List.exists_mem_cons_iff, ha, Except.ok.injEq, eq_comm]

theorem exists_of_mapM_ok {f : α → Except ε β} {l : List α} {out : List β}
    (h : l.mapM f = .ok out) {a : α} (ha : a ∈ l) : ∃ b ∈ out, f a = .ok b := by
  induction l generalizing out with
  | nil => cases ha
  | cons first rest ih =>
      obtain ⟨b, others, hb, hothers, rfl⟩ := mapM_cons_eq_ok h
      rcases List.mem_cons.mp ha with rfl | ha
      · exact ⟨b, List.mem_cons_self, hb⟩
      · obtain ⟨c, hc, hok⟩ := ih hothers ha
        exact ⟨c, List.mem_cons_of_mem _ hc, hok⟩

/-- What every step keeps, the list keeps. -/
theorem map_of_mapM_ok {γ : Type} {f : α → Except ε β} {g : α → γ} {g' : β → γ}
    (hf : ∀ a b, f a = .ok b → g' b = g a) {l : List α} {out : List β} (h : l.mapM f = .ok out) :
    out.map g' = l.map g := by
  induction l generalizing out with
  | nil =>
      rw [List.mapM_nil] at h
      cases h
      rfl
  | cons a rest ih =>
      obtain ⟨b, others, hb, hothers, rfl⟩ := mapM_cons_eq_ok h
      rw [List.map_cons, List.map_cons, ih hothers, hf a b hb]

end

end Kit
