import Mathlib.Data.List.Pairwise

/-!
# Queues that expire at the front

`expire old queue` pops entries from the front while they are `old`. Where an
entry after one that is not old is not old either, as in a queue by time, what
is left is what is not old (`expire_eq_filter`), and expiring twice is expiring
once by the later rule (`expire_expire`).
-/

namespace Kit

variable {τ : Type}

/-- `while queue and old(queue[0]): queue.popleft()` -/
def expire (old : τ → Bool) (queue : List τ) : List τ := queue.dropWhile old

/-- Those that expire, and those that stay. -/
theorem expire_split (old : τ → Bool) (queue : List τ) :
    ∃ gone, queue = gone ++ expire old queue ∧ ∀ t ∈ gone, old t = true :=
  ⟨queue.takeWhile old, List.takeWhile_append_dropWhile.symm,
    fun _ ht => List.all_eq_true.mp List.all_takeWhile _ ht⟩

/-- The front of what is left is not old. -/
theorem head_expire {old : τ → Bool} {queue rest : List τ} {t : τ}
    (h : expire old queue = t :: rest) : old t = false := by
  have hne : queue.dropWhile old ≠ [] := by
    rw [show queue.dropWhile old = t :: rest from h]
    exact List.cons_ne_nil t rest
  have hhead := List.head_dropWhile_not old hne
  simpa [show queue.dropWhile old = t :: rest from h] using hhead

section
variable {old : τ → Bool} {queue : List τ}

theorem expire_eq_filter (h : queue.Pairwise fun a b => old a = false → old b = false) :
    expire old queue = queue.filter fun t => !old t := by
  induction queue with
  | nil => rfl
  | cons t rest ih =>
      obtain ⟨ht, hrest⟩ := List.pairwise_cons.mp h
      rw [expire, List.dropWhile_cons, List.filter_cons]
      cases hold : old t with
      | true => simpa [expire] using ih hrest
      | false =>
          have hall : rest.filter (fun t => !old t) = rest := by
            rw [List.filter_eq_self]
            intro s hs
            rw [ht s hs hold]
            rfl
          simp [hall]

/-- What is old for an earlier rule is old for the later one. -/
theorem expire_expire {older : τ → Bool} (h : ∀ t, old t = true → older t = true) :
    expire older (expire old queue) = expire older queue := by
  induction queue with
  | nil => rfl
  | cons t rest ih =>
      unfold expire at ih ⊢
      by_cases hold : old t = true
      · rw [List.dropWhile_cons_of_pos hold, List.dropWhile_cons_of_pos (h t hold), ih]
      · rw [List.dropWhile_cons_of_neg hold]

end

end Kit
