import Mathlib.Data.List.Infix

/-!
# Runs of a state machine

A machine is a partial step function: `step s e = none` says that the event
`e` cannot happen in the state `s`. `runFrom` folds it over a list of events.

Two rules carry an invariant along a run. `runFrom_inv` is for an invariant
every step keeps. `runFrom_inv_of_allSteps` is for one that a step keeps
under a condition on the state before it, and asks for that condition at
every step of the run.

`Leads` says what a machine comes to, however it is scheduled: until it does,
a move it makes by itself is open to it, and it cannot move forever.

`Since` is about the past of a run: what an event started, and no event since
then has ended.
-/

namespace Kit

variable {σ ε : Type} {step : σ → ε → Option σ}

/-- The state after the events, if each can happen in its turn. -/
def runFrom (step : σ → ε → Option σ) : σ → List ε → Option σ
  | s, [] => some s
  | s, e :: rest => (step s e).bind fun s' => runFrom step s' rest

@[simp] theorem runFrom_nil (s : σ) : runFrom step s [] = some s := rfl

theorem runFrom_append (s : σ) (a b : List ε) :
    runFrom step s (a ++ b) = (runFrom step s a).bind fun s' => runFrom step s' b := by
  induction a generalizing s with
  | nil => rfl
  | cons e rest ih =>
      simp only [List.cons_append, runFrom]
      cases step s e with
      | none => rfl
      | some s' => exact ih s'

theorem runFrom_concat (s : σ) (es : List ε) (e : ε) :
    runFrom step s (es ++ [e]) = (runFrom step s es).bind fun s' => step s' e := by
  rw [runFrom_append]
  cases runFrom step s es with
  | none => rfl
  | some s' => simp [runFrom]

/-- The states a run passes through are those after its prefixes. -/
theorem runFrom_of_prefix {s s' : σ} {p es : List ε} (h : runFrom step s es = some s')
    (hp : p <+: es) : ∃ mid, runFrom step s p = some mid := by
  obtain ⟨rest, rfl⟩ := hp
  rw [runFrom_append] at h
  obtain ⟨mid, hmid, -⟩ := Option.bind_eq_some_iff.mp h
  exact ⟨mid, hmid⟩

/-- An invariant that every step keeps holds after every run. -/
theorem runFrom_inv (I : σ → Prop) (hstep : ∀ s e s', I s → step s e = some s' → I s')
    {s s' : σ} {es : List ε} (h0 : I s) (h : runFrom step s es = some s') : I s' := by
  induction es generalizing s with
  | nil =>
      rw [runFrom_nil, Option.some.injEq] at h
      exact h ▸ h0
  | cons e rest ih =>
      obtain ⟨mid, hmid, hrest⟩ := Option.bind_eq_some_iff.mp h
      exact ih (hstep s e mid h0 hmid) hrest

/-- Every event of the run meets the condition in the state it happens in. -/
def AllSteps (step : σ → ε → Option σ) (ok : σ → ε → Prop) (s : σ) (es : List ε) : Prop :=
  ∀ before e mid, before ++ [e] <+: es → runFrom step s before = some mid → ok mid e

theorem AllSteps.of_prefix {ok : σ → ε → Prop} {s : σ} {p es : List ε}
    (h : AllSteps step ok s es) (hp : p <+: es) : AllSteps step ok s p :=
  fun before e mid hb => h before e mid (hb.trans hp)

/-- The steps of the rest of a run. -/
theorem AllSteps.of_append {ok : σ → ε → Prop} {s s' : σ} {p q : List ε}
    (h : AllSteps step ok s (p ++ q)) (hp : runFrom step s p = some s') :
    AllSteps step ok s' q := by
  intro before e mid hb hmid
  refine h (p ++ before) e mid ?_ ?_
  · rw [List.append_assoc]
    exact (List.prefix_append_right_inj p).mpr hb
  · rw [runFrom_append, hp]
    exact hmid

theorem AllSteps.nil {ok : σ → ε → Prop} {s : σ} : AllSteps step ok s [] := by
  intro before e mid hb
  have := hb.length_le
  rw [List.length_append] at this
  exact absurd this (Nat.not_succ_le_zero _)

theorem AllSteps.cons {ok : σ → ε → Prop} {s : σ} {e : ε} {rest : List ε} (hok : ok s e)
    (hrest : ∀ s', step s e = some s' → AllSteps step ok s' rest) :
    AllSteps step ok s (e :: rest) := by
  intro before last mid hb hmid
  cases before with
  | nil =>
      obtain ⟨rfl, -⟩ := List.cons_prefix_cons.mp hb
      cases hmid
      exact hok
  | cons first before =>
      obtain ⟨rfl, hb'⟩ := List.cons_prefix_cons.mp hb
      obtain ⟨s', hs', hmid'⟩ := Option.bind_eq_some_iff.mp hmid
      exact hrest s' hs' before last mid hb' hmid'

/-- Whether every event of a run that can happen meets a decidable condition. -/
def checkSteps (step : σ → ε → Option σ) (ok : σ → ε → Bool) : σ → List ε → Bool
  | _, [] => true
  | s, e :: rest => ok s e && (step s e).all fun s' => checkSteps step ok s' rest

theorem AllSteps.of_check {ok : σ → ε → Prop} [∀ s e, Decidable (ok s e)] {s : σ} {es : List ε}
    (h : checkSteps step (fun s e => decide (ok s e)) s es = true) : AllSteps step ok s es := by
  induction es generalizing s with
  | nil => exact .nil
  | cons e rest ih =>
      rw [checkSteps, Bool.and_eq_true] at h
      refine .cons (of_decide_eq_true h.1) fun s' hs' => ih ?_
      simpa [hs'] using h.2

/-- A check that is enough for the condition. -/
theorem AllSteps.of_checkSteps {ok : σ → ε → Prop} {check : σ → ε → Bool}
    (hcheck : ∀ s e, check s e = true → ok s e) {s : σ} {es : List ε}
    (h : checkSteps step check s es = true) : AllSteps step ok s es := by
  induction es generalizing s with
  | nil => exact .nil
  | cons e rest ih =>
      rw [checkSteps, Bool.and_eq_true] at h
      refine .cons (hcheck s e h.1) fun s' hs' => ih ?_
      simpa [hs'] using h.2

theorem AllSteps.append {ok : σ → ε → Prop} {s : σ} {p q : List ε} (hp : AllSteps step ok s p)
    (hq : ∀ s', runFrom step s p = some s' → AllSteps step ok s' q) :
    AllSteps step ok s (p ++ q) := by
  induction p generalizing s with
  | nil => exact hq s rfl
  | cons e rest ih =>
      refine .cons (hp [] e s (List.prefix_append [e] rest) rfl) fun s' hs' => ?_
      have hfirst : runFrom step s [e] = some s' := by rw [runFrom, hs']; rfl
      refine ih (AllSteps.of_append (p := [e]) hp hfirst) fun s'' hs'' => hq s'' ?_
      rw [runFrom, hs']
      exact hs''

/-- An invariant that a step keeps under a condition holds after every run whose steps all
meet it. -/
theorem runFrom_inv_of_allSteps (I : σ → Prop) (ok : σ → ε → Prop)
    (hstep : ∀ s e s', I s → ok s e → step s e = some s' → I s')
    {s s' : σ} {es : List ε} (hok : AllSteps step ok s es) (h0 : I s)
    (h : runFrom step s es = some s') : I s' := by
  induction es using List.reverseRecOn generalizing s' with
  | nil =>
      rw [runFrom_nil, Option.some.injEq] at h
      exact h ▸ h0
  | append_singleton before e ih =>
      rw [runFrom_concat] at h
      obtain ⟨mid, hmid, hlast⟩ := Option.bind_eq_some_iff.mp h
      have hI : I mid := ih (hok.of_prefix (List.prefix_append _ _)) hmid
      exact hstep mid e s' hI (hok before e mid (List.prefix_refl _) hmid) hlast

/-- Where every move pays for itself, and every deposit is at most `gain`, a run makes no more
moves than the start and its deposits pay for. -/
theorem countP_moves_le (I : σ → Prop) (ok : σ → ε → Prop) (μ : σ → Nat) (moves deposits : ε → Bool)
    (gain : Nat)
    (hstep : ∀ s e s', I s → ok s e → step s e = some s' →
      I s' ∧ μ s' + (if moves e then 1 else 0) ≤ μ s + if deposits e then gain else 0)
    {s s' : σ} {es : List ε} (hok : AllSteps step ok s es) (h0 : I s)
    (h : runFrom step s es = some s') :
    μ s' + es.countP moves ≤ μ s + gain * es.countP deposits := by
  induction es using List.reverseRecOn generalizing s' with
  | nil =>
      rw [runFrom_nil, Option.some.injEq] at h
      rw [h]
      exact le_rfl
  | append_singleton before e ih =>
      rw [runFrom_concat] at h
      obtain ⟨mid, hmid, hlast⟩ := Option.bind_eq_some_iff.mp h
      have hok' := hok.of_prefix (List.prefix_append before [e])
      have hI : I mid := runFrom_inv_of_allSteps I ok
        (fun s e s' hs he hs' => (hstep s e s' hs he hs').1) hok' h0 hmid
      have hbefore := ih hok' hmid
      have hlast := (hstep mid e s' hI (hok before e mid (List.prefix_refl _) hmid) hlast).2
      rw [List.countP_append, List.countP_append, List.countP_singleton, List.countP_singleton,
        Nat.mul_add]
      have hgain : gain * (if deposits e = true then 1 else 0) = if deposits e then gain else 0 := by
        split
        · exact Nat.mul_one gain
        · exact Nat.mul_zero gain
      omega

/-! ## What a run comes to -/

/-- However the machine goes on by the moves, it comes to the goal: until then it has a forced
move, and it cannot move forever. -/
inductive Leads (step : σ → ε → Option σ) (moves forced : ε → Prop) (goal : σ → Prop) : σ → Prop
  | here {s : σ} (hgoal : goal s) : Leads step moves forced goal s
  | next {s : σ} (hforced : ∃ e s', forced e ∧ step s e = some s')
      (hmoves : ∀ e s', moves e → step s e = some s' → Leads step moves forced goal s') :
      Leads step moves forced goal s

/-- An invariant under which every move reaches the goal or lowers a measure. -/
theorem leads_of_measure {moves forced : ε → Prop} {goal : σ → Prop} (I : σ → Prop) (μ : σ → Nat)
    (hforced : ∀ s, I s → ¬ goal s → ∃ e s', forced e ∧ step s e = some s')
    (hmoves : ∀ s e s', I s → ¬ goal s → moves e → step s e = some s' →
      goal s' ∨ (I s' ∧ μ s' < μ s))
    {s : σ} (h : I s) : Leads step moves forced goal s := by
  induction hμ : μ s using Nat.strong_induction_on generalizing s with
  | _ n ih =>
      by_cases hgoal : goal s
      · exact .here hgoal
      · refine .next (hforced s h hgoal) fun e s' he hs' => ?_
        rcases hmoves s e s' h hgoal he hs' with hgoal' | ⟨hI, hlt⟩
        · exact .here hgoal'
        · exact ih (μ s') (hμ ▸ hlt) hI rfl

/-! ## Since -/

/-- Some event met `start` after the events before it, and every event since keeps `keep`. -/
def Since (start : List ε → ε → Prop) (keep : ε → Prop) (es : List ε) : Prop :=
  ∃ before e after, es = before ++ e :: after ∧ start before e ∧ ∀ x ∈ after, keep x

section
variable {start : List ε → ε → Prop} {keep : ε → Prop} {es : List ε}

theorem not_since_nil : ¬ Since start keep [] := by
  rintro ⟨before, e, after, hsplit, -⟩
  cases before <;> cases hsplit

theorem since_concat {e : ε} :
    Since start keep (es ++ [e]) ↔ start es e ∨ (Since start keep es ∧ keep e) := by
  constructor
  · rintro ⟨before, e', after, hsplit, hstart, hkeep⟩
    rcases List.eq_nil_or_concat after with rfl | ⟨after', last, rfl⟩
    · obtain ⟨rfl, hlast⟩ := List.append_inj' hsplit rfl
      cases hlast
      exact .inl hstart
    · rw [List.concat_eq_append, ← List.cons_append, ← List.append_assoc] at hsplit
      obtain ⟨rfl, hlast⟩ := List.append_inj' hsplit rfl
      cases hlast
      refine .inr ⟨⟨before, e', after', rfl, hstart, fun x hx => hkeep x ?_⟩, hkeep e ?_⟩
      · simp [hx]
      · simp
  · rintro (hstart | ⟨⟨before, e', after, rfl, hstart, hkeep⟩, hlast⟩)
    · exact ⟨es, e, [], rfl, hstart, fun x hx => absurd hx List.not_mem_nil⟩
    · refine ⟨before, e', after ++ [e], by simp, hstart, fun x hx => ?_⟩
      rcases List.mem_append.mp hx with hx | hx
      · exact hkeep x hx
      · exact List.mem_singleton.mp hx ▸ hlast

theorem Since.mono {start' : List ε → ε → Prop} {keep' : ε → Prop} (h : Since start keep es)
    (hstart : ∀ before e, start before e → start' before e) (hkeep : ∀ x, keep x → keep' x) :
    Since start' keep' es := by
  obtain ⟨before, e, after, hsplit, hs, hk⟩ := h
  exact ⟨before, e, after, hsplit, hstart before e hs, fun x hx => hkeep x (hk x hx)⟩

end

end Kit
