import Mathlib.Data.List.Perm.Basic

/-!
# Bounded work queues

A first-in first-out queue that holds no more than `maxsize` items and counts
the items its consumers have not finished yet: those in the queue, and those
taken from it whose consumer has not said so (`taskDone`).

Waiting is left to the machine that uses the queue: `put?` is nothing on a
full queue and `get?` on an empty one.
-/

namespace Kit

structure BoundedQueue (α : Type) where
  maxsize : Nat
  items : List α
  unfinished : Nat
  bounded : items.length ≤ maxsize

namespace BoundedQueue

variable {α : Type}

def empty (maxsize : Nat) : BoundedQueue α := ⟨maxsize, [], 0, Nat.zero_le _⟩

def put? (q : BoundedQueue α) (x : α) : Option (BoundedQueue α) :=
  if h : q.items.length < q.maxsize then
    some
      { q with
        items := q.items ++ [x]
        unfinished := q.unfinished + 1
        bounded := by rw [List.length_append]; exact h }
  else none

/-- The queue without its first item. -/
def tail (q : BoundedQueue α) : BoundedQueue α :=
  { q with
    items := q.items.tail
    bounded := by
      have := q.bounded
      rw [List.length_tail]
      omega }

def get? (q : BoundedQueue α) : Option (α × BoundedQueue α) :=
  q.items.head?.map fun x => (x, q.tail)

def taskDone (q : BoundedQueue α) : BoundedQueue α := { q with unfinished := q.unfinished - 1 }

/-- Every item taken and counted as finished. -/
def clear (q : BoundedQueue α) : BoundedQueue α :=
  { q with
    items := []
    unfinished := q.unfinished - q.items.length
    bounded := Nat.zero_le _ }

/-- Copies of an item, put one by one; `false` when one of them finds the queue full. -/
def putCopies (q : BoundedQueue α) (x : α) : Nat → BoundedQueue α × Bool
  | 0 => (q, true)
  | n + 1 =>
      match q.put? x with
      | none => (q, false)
      | some q' => q'.putCopies x n

@[simp] theorem taskDone_items (q : BoundedQueue α) : q.taskDone.items = q.items := rfl

@[simp] theorem taskDone_maxsize (q : BoundedQueue α) : q.taskDone.maxsize = q.maxsize := rfl

@[simp] theorem taskDone_unfinished (q : BoundedQueue α) :
    q.taskDone.unfinished = q.unfinished - 1 := rfl

@[simp] theorem clear_items (q : BoundedQueue α) : q.clear.items = [] := rfl

@[simp] theorem clear_maxsize (q : BoundedQueue α) : q.clear.maxsize = q.maxsize := rfl

@[simp] theorem clear_unfinished (q : BoundedQueue α) :
    q.clear.unfinished = q.unfinished - q.items.length := rfl

theorem put?_eq_some {q q' : BoundedQueue α} {x : α} (h : q.put? x = some q') :
    q'.maxsize = q.maxsize ∧ q'.items = q.items ++ [x] ∧ q'.unfinished = q.unfinished + 1 := by
  unfold put? at h
  split at h
  · cases h
    exact ⟨rfl, rfl, rfl⟩
  · cases h

theorem put?_eq_none {q : BoundedQueue α} {x : α} : q.put? x = none ↔ q.maxsize ≤ q.items.length := by
  unfold put?
  split
  · rename_i hlt
    simpa using hlt
  · rename_i hfull
    simpa using hfull

theorem get?_eq_some {q q' : BoundedQueue α} {x : α} (h : q.get? = some (x, q')) :
    q'.maxsize = q.maxsize ∧ q.items = x :: q'.items ∧ q'.unfinished = q.unfinished := by
  obtain ⟨y, hhead, hpair⟩ := Option.map_eq_some_iff.mp h
  cases hpair
  exact ⟨rfl, (List.eq_cons_of_mem_head? hhead), rfl⟩

theorem get?_isSome {q : BoundedQueue α} (h : q.items ≠ []) : ∃ x q', q.get? = some (x, q') := by
  cases hitems : q.items with
  | nil => exact absurd hitems h
  | cons x rest => exact ⟨x, q.tail, by rw [get?, hitems]; rfl⟩

/-- The copies fit, and follow the items in the queue. -/
theorem putCopies_of_le {q : BoundedQueue α} (x : α) {n : Nat}
    (h : q.items.length + n ≤ q.maxsize) :
    (q.putCopies x n).2 = true ∧ (q.putCopies x n).1.maxsize = q.maxsize ∧
      (q.putCopies x n).1.items = q.items ++ List.replicate n x ∧
      (q.putCopies x n).1.unfinished = q.unfinished + n := by
  induction n generalizing q with
  | zero => exact ⟨rfl, rfl, (List.append_nil _).symm, rfl⟩
  | succ n ih =>
      rw [putCopies]
      cases hput : q.put? x with
      | none =>
          have := put?_eq_none.mp hput
          omega
      | some q' =>
          obtain ⟨hmax, hitems, hunfinished⟩ := put?_eq_some hput
          have hlen : q'.items.length + n ≤ q'.maxsize := by
            rw [hitems, hmax, List.length_append, List.length_singleton]
            omega
          obtain ⟨hok, hmax', hitems', hunfinished'⟩ := ih hlen
          refine ⟨hok, hmax'.trans hmax, ?_, ?_⟩
          · rw [hitems', hitems, List.append_assoc]
            rfl
          · rw [hunfinished', hunfinished]
            omega

/-- They do not fit. -/
theorem putCopies_of_lt {q : BoundedQueue α} (x : α) {n : Nat}
    (h : q.maxsize < q.items.length + n) : (q.putCopies x n).2 = false := by
  induction n generalizing q with
  | zero =>
      have := q.bounded
      omega
  | succ n ih =>
      rw [putCopies]
      cases hput : q.put? x with
      | none => rfl
      | some q' =>
          obtain ⟨hmax, hitems, -⟩ := put?_eq_some hput
          refine ih ?_
          rw [hitems, hmax, List.length_append, List.length_singleton]
          omega

end BoundedQueue

end Kit
