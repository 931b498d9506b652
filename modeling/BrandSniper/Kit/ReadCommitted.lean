import Mathlib.Data.List.Pairwise
import Mathlib.Data.List.Perm.Basic

/-!
# Transactions at read committed

A table as concurrent transactions see it: the rows that committed, in commit
order, and the rows that open transactions have inserted, each with the
transaction that wrote it. A lookup reads the committed rows and the
transaction's own.

`conflicts` says which two rows a unique index keeps apart. An
`INSERT ... ON CONFLICT DO NOTHING` inserts nothing over a conflicting row it
can see, and waits for an open transaction that has inserted one. With
`conflicts` symmetric no two rows of the table ever conflict (`Unique`).

`Locks` are advisory locks that a transaction holds to its end.
-/

namespace Kit

structure TxTable (ρ : Type) where
  /-- Oldest commit first. -/
  committed : List (Nat × ρ)
  pending : List (Nat × ρ)

namespace TxTable

variable {ρ : Type} {conflicts : ρ → ρ → Bool}

def empty : TxTable ρ := ⟨[], []⟩

/-- The committed rows and those of open transactions. -/
def rows (t : TxTable ρ) : List (Nat × ρ) := t.committed ++ t.pending

/-- The rows the transaction sees. -/
def visible (t : TxTable ρ) (tx : Nat) : List ρ :=
  (t.committed ++ t.pending.filter fun r => r.1 = tx).map Prod.snd

/-- `INSERT ... ON CONFLICT DO NOTHING`: whether the row was inserted, or nothing yet while
another open transaction has inserted a conflicting one. -/
def insert? (conflicts : ρ → ρ → Bool) (t : TxTable ρ) (tx : Nat) (row : ρ) :
    Option (TxTable ρ × Bool) :=
  if t.pending.any fun r => r.1 ≠ tx && conflicts r.2 row then none
  else if (t.visible tx).any fun r => conflicts r row then some (t, false)
  else some ({ t with pending := t.pending ++ [(tx, row)] }, true)

/-- `INSERT` of rows that no unique index covers. -/
def append (t : TxTable ρ) (tx : Nat) (rows : List ρ) : TxTable ρ :=
  { t with pending := t.pending ++ rows.map fun row => (tx, row) }

def commit (t : TxTable ρ) (tx : Nat) : TxTable ρ :=
  ⟨t.committed ++ t.pending.filter fun r => r.1 = tx, t.pending.filter fun r => r.1 ≠ tx⟩

def rollback (t : TxTable ρ) (tx : Nat) : TxTable ρ :=
  { t with pending := t.pending.filter fun r => r.1 ≠ tx }

/-! ## What the operations do to the rows -/

@[simp] theorem mem_rows {t : TxTable ρ} {r : Nat × ρ} :
    r ∈ t.rows ↔ r ∈ t.committed ∨ r ∈ t.pending := List.mem_append

theorem mem_visible {t : TxTable ρ} {tx : Nat} {row : ρ} :
    row ∈ t.visible tx ↔
      (∃ r ∈ t.committed, r.2 = row) ∨ ∃ r ∈ t.pending, r.1 = tx ∧ r.2 = row := by
  simp only [visible, List.mem_map, List.mem_append, List.mem_filter, decide_eq_true_eq,
    or_and_right, exists_or, and_assoc]

@[simp] theorem mem_committed_commit {t : TxTable ρ} {tx : Nat} {r : Nat × ρ} :
    r ∈ (t.commit tx).committed ↔ r ∈ t.committed ∨ r ∈ t.pending ∧ r.1 = tx := by
  simp [commit]

@[simp] theorem mem_pending_commit {t : TxTable ρ} {tx : Nat} {r : Nat × ρ} :
    r ∈ (t.commit tx).pending ↔ r ∈ t.pending ∧ r.1 ≠ tx := by
  simp [commit]

@[simp] theorem committed_rollback (t : TxTable ρ) (tx : Nat) :
    (t.rollback tx).committed = t.committed := rfl

@[simp] theorem mem_pending_rollback {t : TxTable ρ} {tx : Nat} {r : Nat × ρ} :
    r ∈ (t.rollback tx).pending ↔ r ∈ t.pending ∧ r.1 ≠ tx := by
  simp [rollback]

/-- What an insert that does not wait finds. -/
theorem insert?_cases {t t' : TxTable ρ} {tx : Nat} {row : ρ} {inserted : Bool}
    (h : t.insert? conflicts tx row = some (t', inserted)) :
    (inserted = false ∧ t' = t ∧ ∃ r ∈ t.visible tx, conflicts r row = true) ∨
    (inserted = true ∧ t' = { t with pending := t.pending ++ [(tx, row)] } ∧
      ∀ r ∈ t.rows, conflicts r.2 row = false) := by
  unfold insert? at h
  split at h
  · cases h
  · rename_i hothers
    split at h
    · rename_i hseen
      obtain ⟨rfl, rfl⟩ := Prod.mk.inj (Option.some.inj h)
      exact .inl ⟨rfl, rfl, List.any_eq_true.mp hseen⟩
    · rename_i hseen
      obtain ⟨rfl, rfl⟩ := Prod.mk.inj (Option.some.inj h)
      refine .inr ⟨rfl, rfl, fun r hr => ?_⟩
      simp only [List.any_eq_true, Bool.and_eq_true, decide_eq_true_eq, not_exists, not_and,
        Bool.not_eq_true] at hothers hseen
      rcases mem_rows.mp hr with hr | hr
      · exact hseen r.2 (mem_visible.mpr (.inl ⟨r, hr, rfl⟩))
      · by_cases hown : r.1 = tx
        · exact hseen r.2 (mem_visible.mpr (.inr ⟨r, hr, hown, rfl⟩))
        · exact hothers r hr hown

/-! ## The rows of one transaction -/

/-- The rows one transaction wrote. -/
def ofTx (tx : Nat) (rows : List (Nat × ρ)) : List ρ := (rows.filter fun r => r.1 = tx).map Prod.snd

/-- The rows the transaction has committed. -/
def stored (t : TxTable ρ) (tx : Nat) : List ρ := ofTx tx t.committed

/-- The rows it has inserted and not committed. -/
def written (t : TxTable ρ) (tx : Nat) : List ρ := ofTx tx t.pending

theorem mem_ofTx {tx : Nat} {rows : List (Nat × ρ)} {row : ρ} :
    row ∈ ofTx tx rows ↔ (tx, row) ∈ rows := by
  simp only [ofTx, List.mem_map, List.mem_filter, decide_eq_true_eq, Prod.exists,
    exists_eq_right]

theorem ofTx_append (tx : Nat) (a b : List (Nat × ρ)) :
    ofTx tx (a ++ b) = ofTx tx a ++ ofTx tx b := by
  rw [ofTx, List.filter_append, List.map_append, ofTx, ofTx]

theorem ofTx_map_self (tx : Nat) (rows : List ρ) : ofTx tx (rows.map fun row => (tx, row)) = rows := by
  induction rows with
  | nil => rfl
  | cons row rest ih =>
      rw [ofTx] at ih
      rw [List.map_cons, ofTx, List.filter_cons_of_pos (by simp), List.map_cons, ih]

theorem ofTx_map_other {tx tx' : Nat} (h : tx' ≠ tx) (rows : List ρ) :
    ofTx tx' (rows.map fun row => (tx, row)) = [] := by
  induction rows with
  | nil => rfl
  | cons row rest ih =>
      rw [ofTx] at ih
      rw [List.map_cons, ofTx, List.filter_cons_of_neg (by simpa using Ne.symm h), ih]

theorem ofTx_filter (tx tx' : Nat) (rows : List (Nat × ρ)) :
    ofTx tx' (rows.filter fun r => r.1 = tx) = if tx' = tx then ofTx tx rows else [] := by
  rw [ofTx, List.filter_filter]
  split
  · rename_i h
    subst h
    simp only [Bool.and_self]
    rfl
  · rename_i h
    rw [List.filter_eq_nil_iff.mpr, List.map_nil]
    intro r _ hr
    rw [Bool.and_eq_true, decide_eq_true_eq, decide_eq_true_eq] at hr
    exact h (hr.1.symm.trans hr.2)

theorem ofTx_filter_ne (tx tx' : Nat) (rows : List (Nat × ρ)) :
    ofTx tx' (rows.filter fun r => r.1 ≠ tx) = if tx' = tx then [] else ofTx tx' rows := by
  rw [ofTx, List.filter_filter]
  split
  · rename_i h
    subst h
    rw [List.filter_eq_nil_iff.mpr, List.map_nil]
    intro r _ hr
    rw [Bool.and_eq_true, decide_eq_true_eq, decide_eq_true_eq] at hr
    exact hr.2 hr.1
  · rename_i h
    rw [ofTx]
    congr 1
    refine List.filter_congr fun r _ => ?_
    rw [Bool.eq_iff_iff, Bool.and_eq_true, decide_eq_true_eq, decide_eq_true_eq]
    constructor
    · intro hr
      exact hr.1
    · intro hr
      exact ⟨hr, fun htx => h (hr.symm.trans htx)⟩

theorem stored_commit (t : TxTable ρ) (tx tx' : Nat) :
    (t.commit tx).stored tx' = if tx' = tx then t.stored tx ++ t.written tx else t.stored tx' := by
  rw [stored, commit, ofTx_append, ofTx_filter]
  split
  · rename_i h
    subst h
    rfl
  · rw [List.append_nil]
    rfl

theorem written_commit (t : TxTable ρ) (tx tx' : Nat) :
    (t.commit tx).written tx' = if tx' = tx then [] else t.written tx' :=
  ofTx_filter_ne tx tx' t.pending

theorem written_rollback (t : TxTable ρ) (tx tx' : Nat) :
    (t.rollback tx).written tx' = if tx' = tx then [] else t.written tx' :=
  ofTx_filter_ne tx tx' t.pending

theorem written_append (t : TxTable ρ) (tx : Nat) (rows : List ρ) (tx' : Nat) :
    (t.append tx rows).written tx'
      = if tx' = tx then t.written tx ++ rows else t.written tx' := by
  rw [written, append, ofTx_append]
  split
  · rename_i h
    subst h
    rw [ofTx_map_self]
    rfl
  · rename_i h
    rw [ofTx_map_other h, List.append_nil]
    rfl

/-! ## Unique indexes -/

/-- No two rows conflict. -/
def Unique (conflicts : ρ → ρ → Bool) (t : TxTable ρ) : Prop :=
  t.rows.Pairwise fun a b => conflicts a.2 b.2 = false

theorem unique_empty : (empty : TxTable ρ).Unique conflicts := List.Pairwise.nil

theorem Unique.committed {t : TxTable ρ} (h : t.Unique conflicts) :
    t.committed.Pairwise fun a b => conflicts a.2 b.2 = false :=
  (List.pairwise_append.mp h).1

/-- Two committed rows that conflict are one. -/
theorem Unique.eq_of_conflicts {t : TxTable ρ} (h : t.Unique conflicts)
    (hsymm : ∀ a b, conflicts a b = conflicts b a) {a b : Nat × ρ} (ha : a ∈ t.committed)
    (hb : b ∈ t.committed) (hab : conflicts a.2 b.2 = true) : a = b := by
  by_contra hne
  have : Std.Symm fun x y : Nat × ρ => conflicts x.2 y.2 = false :=
    ⟨fun x y hxy => by rw [hsymm]; exact hxy⟩
  have hfree := h.committed.forall ha hb hne
  rw [hab] at hfree
  cases hfree

theorem Unique.concat {t : TxTable ρ} (h : t.Unique conflicts) (tx : Nat) {row : ρ}
    (hfree : ∀ r ∈ t.rows, conflicts r.2 row = false) :
    ({ t with pending := t.pending ++ [(tx, row)] } : TxTable ρ).Unique conflicts := by
  rw [Unique, rows, ← List.append_assoc]
  refine List.pairwise_append.mpr ⟨h, List.pairwise_singleton _ _, fun r hr new hnew => ?_⟩
  rw [List.mem_singleton.mp hnew]
  exact hfree r hr

/-- A row that commits at once. -/
theorem Unique.concat_committed {t : TxTable ρ} (h : t.Unique conflicts)
    (hsymm : ∀ a b, conflicts a b = conflicts b a) (tx : Nat) {row : ρ}
    (hfree : ∀ r ∈ t.rows, conflicts r.2 row = false) :
    ({ t with committed := t.committed ++ [(tx, row)] } : TxTable ρ).Unique conflicts := by
  have hperm : ((t.committed ++ [(tx, row)]) ++ t.pending).Perm
      (t.committed ++ (t.pending ++ [(tx, row)])) := by
    rw [List.append_assoc]
    exact List.Perm.append_left _ List.perm_append_comm
  refine hperm.symm.pairwise (h.concat tx hfree) fun hab => ?_
  rw [hsymm]
  exact hab

theorem Unique.insert? {t t' : TxTable ρ} {tx : Nat} {row : ρ} {inserted : Bool}
    (h : t.Unique conflicts) (hinsert : t.insert? conflicts tx row = some (t', inserted)) :
    t'.Unique conflicts := by
  obtain ⟨-, rfl, -⟩ | ⟨-, rfl, hnone⟩ := insert?_cases hinsert
  · exact h
  · exact h.concat tx hnone

theorem Unique.append {t : TxTable ρ} (h : t.Unique conflicts) (tx : Nat) {rows : List ρ}
    (hfree : ∀ row ∈ rows, ∀ r, conflicts r row = false) : (t.append tx rows).Unique conflicts := by
  rw [Unique, TxTable.rows, TxTable.append, ← List.append_assoc]
  refine List.pairwise_append.mpr ⟨h, ?_, fun r _ new hnew => ?_⟩
  · refine List.pairwise_of_forall_mem_list fun a _ b hb => ?_
    obtain ⟨row, hrow, rfl⟩ := List.mem_map.mp hb
    exact hfree row hrow a.2
  · obtain ⟨row, hrow, rfl⟩ := List.mem_map.mp hnew
    exact hfree row hrow r.2

theorem Unique.rollback {t : TxTable ρ} (h : t.Unique conflicts) (tx : Nat) :
    (t.rollback tx).Unique conflicts :=
  h.sublist (List.filter_sublist.append_left _)

/-- A commit reorders the rows. -/
theorem rows_commit_perm (t : TxTable ρ) (tx : Nat) : (t.commit tx).rows.Perm t.rows := by
  have hsplit := List.filter_append_perm (fun r : Nat × ρ => decide (r.1 = tx)) t.pending
  simp only [rows, commit, List.append_assoc]
  refine List.Perm.append_left _ (List.Perm.trans ?_ hsplit)
  simp only [ne_eq, decide_not]
  exact List.Perm.refl _

theorem Unique.commit {t : TxTable ρ} (hsymm : ∀ a b, conflicts a b = conflicts b a)
    (h : t.Unique conflicts) (tx : Nat) : (t.commit tx).Unique conflicts := by
  refine (rows_commit_perm t tx).symm.pairwise h (fun hab => ?_)
  rw [hsymm]
  exact hab

end TxTable

/-! ## Advisory locks -/

/-- The keys transactions hold. -/
abbrev Locks (κ : Type) := List (Nat × κ)

namespace Locks

variable {κ : Type} [DecidableEq κ]

/-- The lock is granted unless another transaction holds it. -/
def acquire? (locks : Locks κ) (tx : Nat) (key : κ) : Option (Locks κ) :=
  if locks.any fun l => l.1 ≠ tx && l.2 = key then none else some ((tx, key) :: locks)

def release (locks : Locks κ) (tx : Nat) : Locks κ := locks.filter fun l => l.1 ≠ tx

/-- A key has one holder. -/
def Exclusive (locks : Locks κ) : Prop :=
  ∀ a ∈ locks, ∀ b ∈ locks, a.2 = b.2 → a.1 = b.1

omit [DecidableEq κ] in
theorem exclusive_nil : Exclusive ([] : Locks κ) := by
  intro a ha
  cases ha

theorem acquire?_eq_some {locks locks' : Locks κ} {tx : Nat} {key : κ}
    (h : locks.acquire? tx key = some locks') :
    locks' = (tx, key) :: locks ∧ ∀ l ∈ locks, l.2 = key → l.1 = tx := by
  unfold acquire? at h
  split at h
  · cases h
  · rename_i hfree
    simp only [List.any_eq_true, Bool.and_eq_true, decide_eq_true_eq, not_exists, not_and,
      ne_eq] at hfree
    refine ⟨(Option.some.inj h).symm, fun l hl hkey => ?_⟩
    by_contra hother
    exact hfree l hl hother hkey

theorem Exclusive.acquire? {locks locks' : Locks κ} {tx : Nat} {key : κ}
    (h : locks.Exclusive) (hacquire : locks.acquire? tx key = some locks') :
    locks'.Exclusive := by
  obtain ⟨rfl, hfree⟩ := acquire?_eq_some hacquire
  intro a ha b hb hkey
  rcases List.mem_cons.mp ha with rfl | ha <;> rcases List.mem_cons.mp hb with rfl | hb
  · rfl
  · exact (hfree b hb hkey.symm).symm
  · exact hfree a ha hkey
  · exact h a ha b hb hkey

omit [DecidableEq κ] in
theorem Exclusive.release {locks : Locks κ} (h : locks.Exclusive) (tx : Nat) :
    (locks.release tx).Exclusive :=
  fun a ha b hb => h a (List.mem_filter.mp ha).1 b (List.mem_filter.mp hb).1

omit [DecidableEq κ] in
@[simp] theorem mem_release {locks : Locks κ} {tx : Nat} {l : Nat × κ} :
    l ∈ locks.release tx ↔ l ∈ locks ∧ l.1 ≠ tx := by
  simp [release]

end Locks

end Kit
