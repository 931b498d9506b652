import BrandSniper.Kit.AwareMoments
import BrandSniper.Kit.Results
import BrandSniper.Kit.Timeline

/-!
# Walk forward folds

`walk_forward_folds` and `check_no_look_ahead` of
`apps/analytics/train_student.py`. The loop moves a cutoff by one step at a
time; each step cuts the decisions that are left into those of the window and
those after it, and the recursion carries that split (`foldsFrom_tiles`).

A cutoff is a `datetime`, so the loop ends in an OverflowError when the window
that holds the last decision reaches past the year 9999 (`foldsFrom_ok_iff`).
-/

namespace BrandSniper

open Kit

/-! ## Times -/

/-- A naive datetime, in microseconds from 1970-01-01. -/
structure Datetime where
  micros : Int
  representable : minTimestamp * 1000000 ≤ micros ∧ micros < (maxTimestamp + 1) * 1000000
  deriving DecidableEq

namespace Datetime

instance : LE Datetime := ⟨fun a b => a.micros ≤ b.micros⟩

instance : LT Datetime := ⟨fun a b => a.micros < b.micros⟩

instance (a b : Datetime) : Decidable (a ≤ b) := inferInstanceAs (Decidable (a.micros ≤ b.micros))

instance (a b : Datetime) : Decidable (a < b) := inferInstanceAs (Decidable (a.micros < b.micros))

theorem le_iff {a b : Datetime} : a ≤ b ↔ a.micros ≤ b.micros := Iff.rfl

theorem lt_iff {a b : Datetime} : a < b ↔ a.micros < b.micros := Iff.rfl

theorem floor_representable (t : Datetime) :
    minTimestamp * 1000000 ≤ t.micros - t.micros % 3600000000 ∧
      t.micros - t.micros % 3600000000 < (maxTimestamp + 1) * 1000000 := by
  have ht := t.representable
  simp only [minTimestamp, maxTimestamp] at ht ⊢
  omega

/-- `t.replace(minute=0, second=0, microsecond=0)` -/
def hourFloor (t : Datetime) : Datetime := ⟨t.micros - t.micros % 3600000000, t.floor_representable⟩

/-- `str(t)` -/
def str (t : Datetime) : String :=
  String.ofList ((Moment.ofEpochMicros t.micros).isoformat.toList.map fun c =>
    if c = 'T' then ' ' else c)

end Datetime

inductive FoldError where
  | valueError (message : String)
  | assertionError (message : String)
  | overflowError
  deriving DecidableEq

/-- A positive `timedelta`, in microseconds. -/
structure FoldStep where
  micros : Int
  pos : 0 < micros

theorem hours_pos {hours : Int} (h : 1 ≤ hours) : 0 < hours * 3600000000 := by omega

/-- `timedelta(hours=hours)`: at most 999999999 days. -/
def foldStep (hours : Int) (h : 1 ≤ hours) : Except FoldError FoldStep :=
  if hours / 24 ≤ 999999999 then .ok ⟨hours * 3600000000, hours_pos h⟩ else .error .overflowError

theorem add_representable {t : Datetime} {step : FoldStep}
    (h : t.micros + step.micros < (maxTimestamp + 1) * 1000000) :
    minTimestamp * 1000000 ≤ t.micros + step.micros ∧
      t.micros + step.micros < (maxTimestamp + 1) * 1000000 :=
  ⟨by have ht := t.representable.1; have hs := step.pos; omega, h⟩

/-- `t + step` -/
def Datetime.add (t : Datetime) (step : FoldStep) : Except FoldError Datetime :=
  if h : t.micros + step.micros < (maxTimestamp + 1) * 1000000 then
    .ok ⟨t.micros + step.micros, add_representable h⟩
  else .error .overflowError

theorem Datetime.micros_of_add {t u : Datetime} {step : FoldStep} (h : t.add step = .ok u) :
    u.micros = t.micros + step.micros := by
  unfold Datetime.add at h
  split at h
  · cases h
    rfl
  · cases h

theorem Datetime.add_ok_iff {t : Datetime} {step : FoldStep} :
    (∃ u, t.add step = .ok u) ↔ t.micros + step.micros < (maxTimestamp + 1) * 1000000 := by
  unfold Datetime.add
  by_cases h : t.micros + step.micros < (maxTimestamp + 1) * 1000000
  · rw [dif_pos h]
    exact iff_of_true ⟨_, rfl⟩ h
  · rw [dif_neg h]
    exact iff_of_false (fun ⟨_, hu⟩ => nomatch hu) h

theorem Datetime.add_error {t : Datetime} {step : FoldStep} {e : FoldError}
    (h : t.add step = .error e) : e = .overflowError := by
  unfold Datetime.add at h
  split at h
  · cases h
  · cases h
    rfl

/-! ## Folds -/

structure LabeledListing where
  listingId : String
  decidedAt : Datetime
  labelAvailableAt : Datetime

structure Fold where
  cutoff : Datetime
  «end» : Datetime
  train : List LabeledListing
  validation : List LabeledListing

/-- `row.decided_at < cutoff and (exploratory or row.label_available_at <= cutoff)` -/
def trainsOn (exploratory : Bool) (cutoff : Datetime) (row : LabeledListing) : Bool :=
  decide (row.decidedAt < cutoff) && (exploratory || decide (row.labelAvailableAt ≤ cutoff))

/-- `cutoff <= row.decided_at < end` -/
def inWindow (cutoff «end» : Datetime) (row : LabeledListing) : Bool :=
  decide (cutoff ≤ row.decidedAt) && decide (row.decidedAt < «end»)

/-- The fold of a window. -/
def foldAt (rows : List LabeledListing) (exploratory : Bool) (cutoff «end» : Datetime) : Fold :=
  ⟨cutoff, «end», rows.filter (trainsOn exploratory cutoff), rows.filter (inWindow cutoff «end»)⟩

theorem cutoff_moves {last cutoff «end» : Datetime} {step : FoldStep} (h : cutoff ≤ last)
    (hadd : cutoff.add step = .ok «end») :
    (last.micros + 1 - «end».micros).toNat < (last.micros + 1 - cutoff.micros).toNat := by
  have hend := Datetime.micros_of_add hadd
  have hpos := step.pos
  rw [Datetime.le_iff] at h
  omega

/-- `while cutoff <= last:` -/
def foldsFrom (rows : List LabeledListing) (exploratory : Bool) (step : FoldStep)
    (last cutoff : Datetime) : Except FoldError (List Fold) :=
  if h : cutoff ≤ last then
    match hadd : cutoff.add step with
    | .error e => .error e
    | .ok «end» => do
        have := cutoff_moves h hadd
        let rest ← foldsFrom rows exploratory step last «end»
        let fold := foldAt rows exploratory cutoff «end»
        return if fold.validation.isEmpty then rest else fold :: rest
  else .ok []
termination_by (last.micros + 1 - cutoff.micros).toNat

/-- The first cutoff: the step after the hour of the first decision. -/
def firstCutoff (first : LabeledListing) (step : FoldStep) : Except FoldError Datetime :=
  first.decidedAt.hourFloor.add step

/-- `min(row.decided_at for row in rows)`, as a row with that time -/
def firstDecided (rows : List LabeledListing) : Option LabeledListing :=
  firstOf (fun row => row.decidedAt.micros) rows

/-- `max(row.decided_at for row in rows)`, as a row with that time -/
def lastDecided (rows : List LabeledListing) : Option LabeledListing :=
  firstOf (fun row => OrderDual.toDual row.decidedAt.micros) rows

def walkForwardFolds (rows : List LabeledListing) (foldHours : Int) (exploratory : Bool) :
    Except FoldError (List Fold) :=
  if h : foldHours < 1 then .error (.valueError "fold_hours must be at least 1")
  else match firstDecided rows, lastDecided rows with
    | some first, some last => do
        let step ← foldStep foldHours (Int.not_lt.mp h)
        let cutoff ← firstCutoff first step
        foldsFrom rows exploratory step last.decidedAt cutoff
    | _, _ => .ok []

section
variable {rows : List LabeledListing} {exploratory : Bool}

theorem mem_validation {cutoff «end» : Datetime} {row : LabeledListing} :
    row ∈ (foldAt rows exploratory cutoff «end»).validation
      ↔ row ∈ rows ∧ cutoff ≤ row.decidedAt ∧ row.decidedAt < «end» := by
  simp [foldAt, inWindow]

theorem mem_train {cutoff «end» : Datetime} {row : LabeledListing} :
    row ∈ (foldAt rows exploratory cutoff «end»).train ↔ row ∈ rows ∧ row.decidedAt < cutoff ∧
      (exploratory = true ∨ row.labelAvailableAt ≤ cutoff) := by
  simp [foldAt, trainsOn]

/-- The decisions from a cutoff on are those of its window and those from its end on. -/
theorem perm_window {cutoff «end» : Datetime} (h : cutoff ≤ «end») :
    (rows.filter (inWindow cutoff «end») ++ rows.filter fun row => decide («end» ≤ row.decidedAt)).Perm
      (rows.filter fun row => decide (cutoff ≤ row.decidedAt)) := by
  have hsplit := List.filter_append_perm (fun row => decide (row.decidedAt < «end»))
    (rows.filter fun row => decide (cutoff ≤ row.decidedAt))
  rw [List.filter_filter, List.filter_filter] at hsplit
  have hbefore : (rows.filter fun row =>
      decide (row.decidedAt < «end») && decide (cutoff ≤ row.decidedAt))
        = rows.filter (inWindow cutoff «end») := by
    apply List.filter_congr
    intro row _
    rw [inWindow, Bool.and_comm]
  have hafter : (rows.filter fun row =>
      !decide (row.decidedAt < «end») && decide (cutoff ≤ row.decidedAt))
        = rows.filter fun row => decide («end» ≤ row.decidedAt) := by
    apply List.filter_congr
    intro row _
    rw [Bool.eq_iff_iff]
    simp only [Bool.and_eq_true, Bool.not_eq_true', decide_eq_true_eq, decide_eq_false_iff_not,
      Datetime.lt_iff, Datetime.le_iff] at h ⊢
    omega
  rw [hbefore, hafter] at hsplit
  exact hsplit

/-- What the folds from a cutoff on are: windows one after the other that hold every
decision from the cutoff on. -/
structure Tiles (rows : List LabeledListing) (exploratory : Bool) (cutoff : Datetime)
    (folds : List Fold) : Prop where
  made : ∀ fold ∈ folds, fold = foldAt rows exploratory fold.cutoff fold.end ∧
    cutoff ≤ fold.cutoff
  apart : folds.Pairwise fun a b => a.end ≤ b.cutoff
  validated : (folds.flatMap Fold.validation).Perm
    (rows.filter fun row => decide (cutoff ≤ row.decidedAt))

theorem tiles_nil {cutoff : Datetime} (h : ∀ row ∈ rows, row.decidedAt < cutoff) :
    Tiles rows exploratory cutoff [] := by
  refine ⟨by simp, List.Pairwise.nil, ?_⟩
  have hnone : (rows.filter fun row => decide (cutoff ≤ row.decidedAt)) = [] := by
    rw [List.filter_eq_nil_iff]
    intro row hrow
    have hlt := h row hrow
    rw [Datetime.lt_iff] at hlt
    rw [decide_eq_true_eq, Datetime.le_iff]
    omega
  rw [hnone, List.flatMap_nil]

/-- A window in front of the folds from its end on. -/
theorem Tiles.cons {cutoff «end» : Datetime} {folds : List Fold} (h : cutoff ≤ «end»)
    (hrest : Tiles rows exploratory «end» folds) :
    Tiles rows exploratory cutoff
      (if (foldAt rows exploratory cutoff «end»).validation.isEmpty then folds
        else foldAt rows exploratory cutoff «end» :: folds) := by
  have hperm := (hrest.validated.append_left (rows.filter (inWindow cutoff «end»))).trans
    (perm_window h)
  have hlater : ∀ fold ∈ folds, cutoff ≤ fold.cutoff := fun fold hfold => by
    have hle := (hrest.made fold hfold).2
    rw [Datetime.le_iff] at h hle ⊢
    omega
  split
  · rename_i hempty
    have hnone : rows.filter (inWindow cutoff «end») = [] := List.isEmpty_iff.mp hempty
    rw [hnone, List.nil_append] at hperm
    exact ⟨fun fold hfold => ⟨(hrest.made fold hfold).1, hlater fold hfold⟩, hrest.apart, hperm⟩
  · refine ⟨fun fold hfold => ?_, ?_, hperm⟩
    · rcases List.mem_cons.mp hfold with rfl | hfold
      · exact ⟨rfl, Int.le_refl _⟩
      · exact ⟨(hrest.made fold hfold).1, hlater fold hfold⟩
    · rw [List.pairwise_cons]
      exact ⟨fun fold hfold => (hrest.made fold hfold).2, hrest.apart⟩

/-! One turn of the loop. -/

theorem foldsFrom_past {step : FoldStep} {last cutoff : Datetime} (h : ¬ cutoff ≤ last) :
    foldsFrom rows exploratory step last cutoff = .ok [] := by
  rw [foldsFrom, dif_neg h]

theorem foldsFrom_overflow {step : FoldStep} {last cutoff : Datetime} (h : cutoff ≤ last)
    {e : FoldError} (hadd : cutoff.add step = .error e) :
    foldsFrom rows exploratory step last cutoff = .error e := by
  rw [foldsFrom, dif_pos h]
  split
  · rename_i hbad
    rw [hadd] at hbad
    cases hbad
    rfl
  · rename_i hok
    rw [hadd] at hok
    cases hok

theorem foldsFrom_window {step : FoldStep} {last cutoff «end» : Datetime} (h : cutoff ≤ last)
    (hadd : cutoff.add step = .ok «end») :
    foldsFrom rows exploratory step last cutoff
      = (foldsFrom rows exploratory step last «end»).map fun folds =>
          if (foldAt rows exploratory cutoff «end»).validation.isEmpty then folds
          else foldAt rows exploratory cutoff «end» :: folds := by
  rw [foldsFrom, dif_pos h]
  split
  · rename_i hbad
    rw [hadd] at hbad
    cases hbad
  · rename_i end' hok
    obtain rfl : «end» = end' := Except.ok.inj (hadd.symm.trans hok)
    cases foldsFrom rows exploratory step last «end» <;> rfl

/-- The run of the loop: by induction on the time left to the last decision. -/
theorem foldsFrom_tiles {step : FoldStep} {last : Datetime}
    (hlast : ∀ row ∈ rows, row.decidedAt ≤ last) {cutoff : Datetime} {folds : List Fold}
    (h : foldsFrom rows exploratory step last cutoff = .ok folds) :
    Tiles rows exploratory cutoff folds := by
  induction cutoff using foldsFrom.induct step last generalizing folds with
  | case1 cutoff hle e hadd =>
      rw [foldsFrom_overflow hle hadd] at h
      cases h
  | case2 cutoff hle «end» hadd _ ih =>
      rw [foldsFrom_window hle hadd] at h
      cases hrest : foldsFrom rows exploratory step last «end» with
      | error e =>
          rw [hrest] at h
          cases h
      | ok rest =>
          rw [hrest] at h
          cases h
          have hmove := Datetime.micros_of_add hadd
          have hpos := step.pos
          exact (ih hrest).cons (by rw [Datetime.le_iff]; omega)
  | case3 cutoff hgt =>
      rw [foldsFrom_past hgt] at h
      cases h
      apply tiles_nil
      intro row hrow
      have hrow := hlast row hrow
      rw [Datetime.le_iff] at hrow hgt
      rw [Datetime.lt_iff]
      omega

/-- The loop returns when the first cutoff past the last decision is a `datetime`. -/
theorem foldsFrom_ok_iff {step : FoldStep} {last : Datetime} (cutoff : Datetime) :
    Succeeds (foldsFrom rows exploratory step last cutoff) ↔
      ∃ k : Nat, last.micros < cutoff.micros + k * step.micros ∧
        cutoff.micros + k * step.micros < (maxTimestamp + 1) * 1000000 := by
  have hpos := step.pos
  induction cutoff using foldsFrom.induct step last with
  | case1 cutoff hle e hadd =>
      have hover : ¬ cutoff.micros + step.micros < (maxTimestamp + 1) * 1000000 := by
        intro hlt
        obtain ⟨«end», hend⟩ := Datetime.add_ok_iff.mpr hlt
        rw [hadd] at hend
        cases hend
      rw [foldsFrom_overflow hle hadd]
      apply iff_of_false (not_succeeds_error e)
      rintro ⟨k, hpast, hfits⟩
      cases k with
      | zero =>
          rw [Datetime.le_iff] at hle
          simp only [Nat.cast_zero, Int.zero_mul] at hpast
          omega
      | succ k =>
          have hk : 0 ≤ (k : Int) * step.micros := by positivity
          rw [Nat.cast_succ, Int.add_mul] at hfits
          omega
  | case2 cutoff hle «end» hadd _ ih =>
      have hmove := Datetime.micros_of_add hadd
      rw [foldsFrom_window hle hadd, succeeds_map]
      refine Iff.trans ih ?_
      rw [hmove]
      rw [Datetime.le_iff] at hle
      constructor
      · rintro ⟨k, hpast, hfits⟩
        refine ⟨k + 1, ?_⟩
        rw [Nat.cast_succ, Int.add_mul]
        omega
      · rintro ⟨k, hpast, hfits⟩
        cases k with
        | zero =>
            simp only [Nat.cast_zero, Int.zero_mul] at hpast
            omega
        | succ k =>
            refine ⟨k, ?_⟩
            rw [Nat.cast_succ, Int.add_mul] at hpast hfits
            omega
  | case3 cutoff hgt =>
      rw [foldsFrom_past hgt]
      apply iff_of_true (succeeds_ok [])
      have hcutoff := cutoff.representable.2
      rw [Datetime.le_iff] at hgt
      exact ⟨0, by simp only [Nat.cast_zero, Int.zero_mul]; omega⟩

theorem foldsFrom_error {step : FoldStep} {last cutoff : Datetime} {e : FoldError}
    (h : foldsFrom rows exploratory step last cutoff = .error e) : e = .overflowError := by
  induction cutoff using foldsFrom.induct step last with
  | case1 cutoff hle e' hadd =>
      rw [foldsFrom_overflow hle hadd] at h
      cases h
      exact Datetime.add_error hadd
  | case2 cutoff hle «end» hadd _ ih =>
      rw [foldsFrom_window hle hadd] at h
      cases hrest : foldsFrom rows exploratory step last «end» with
      | error e' =>
          rw [hrest] at h
          cases h
          exact ih hrest
      | ok rest =>
          rw [hrest] at h
          cases h
  | case3 cutoff hgt =>
      rw [foldsFrom_past hgt] at h
      cases h

end

/-! ## The check -/

def checkTraining (fold : Fold) (exploratory : Bool) (row : LabeledListing) :
    Except FoldError Unit :=
  if fold.cutoff ≤ row.decidedAt then
    .error (.assertionError ("Training listing " ++ row.listingId
      ++ " was decided after the cutoff " ++ fold.cutoff.str))
  else if exploratory = false ∧ fold.cutoff < row.labelAvailableAt then
    .error (.assertionError ("Training listing " ++ row.listingId
      ++ " has a label from after the cutoff " ++ fold.cutoff.str))
  else .ok ()

def checkValidation (fold : Fold) (row : LabeledListing) : Except FoldError Unit :=
  if inWindow fold.cutoff fold.end row then .ok ()
  else .error (.assertionError ("Validation listing " ++ row.listingId ++ " is outside ["
    ++ fold.cutoff.str ++ ", " ++ fold.end.str ++ ")"))

def checkNoLookAhead (fold : Fold) (exploratory : Bool) : Except FoldError Unit := do
  fold.train.forM (checkTraining fold exploratory)
  fold.validation.forM (checkValidation fold)

theorem forM_ok_iff {α : Type} {check : α → Except FoldError Unit} {l : List α} :
    l.forM check = .ok () ↔ ∀ a ∈ l, check a = .ok () := by
  induction l with
  | nil => exact iff_of_true rfl (List.forall_mem_nil _)
  | cons a l ih =>
      show (check a >>= fun _ => l.forM check) = .ok () ↔ _
      rw [List.forall_mem_cons, ← ih]
      cases hcheck : check a with
      | error e => exact iff_of_false (fun h => nomatch h) (fun h => nomatch h.1)
      | ok u => exact ⟨fun h => ⟨rfl, h⟩, fun h => h.2⟩

theorem checkTraining_ok_iff {fold : Fold} {exploratory : Bool} {row : LabeledListing} :
    checkTraining fold exploratory row = .ok () ↔ row.decidedAt < fold.cutoff ∧
      (exploratory = true ∨ row.labelAvailableAt ≤ fold.cutoff) := by
  have hdecided : row.decidedAt < fold.cutoff ↔ ¬ fold.cutoff ≤ row.decidedAt := Int.not_le.symm
  have hlabel : row.labelAvailableAt ≤ fold.cutoff ↔ ¬ fold.cutoff < row.labelAvailableAt :=
    Int.not_lt.symm
  rw [hdecided, hlabel, checkTraining]
  by_cases hlate : fold.cutoff ≤ row.decidedAt
  · rw [if_pos hlate]
    exact iff_of_false (fun h => nomatch h) (fun h => h.1 hlate)
  · rw [if_neg hlate]
    by_cases hleak : exploratory = false ∧ fold.cutoff < row.labelAvailableAt
    · rw [if_pos hleak]
      refine iff_of_false (fun h => nomatch h) (fun h => ?_)
      rcases h.2 with hexploratory | hearly
      · rw [hleak.1] at hexploratory
        cases hexploratory
      · exact hearly hleak.2
    · rw [if_neg hleak]
      refine iff_of_true rfl ⟨hlate, ?_⟩
      cases exploratory with
      | false => exact .inr fun h => hleak ⟨rfl, h⟩
      | true => exact .inl rfl

/-- What the check lets through. -/
theorem checkNoLookAhead_ok_iff {fold : Fold} {exploratory : Bool} :
    checkNoLookAhead fold exploratory = .ok () ↔
      (∀ row ∈ fold.train, row.decidedAt < fold.cutoff ∧
        (exploratory = true ∨ row.labelAvailableAt ≤ fold.cutoff)) ∧
      ∀ row ∈ fold.validation, fold.cutoff ≤ row.decidedAt ∧ row.decidedAt < fold.end := by
  have hvalidation : ∀ row, checkValidation fold row = .ok () ↔
      fold.cutoff ≤ row.decidedAt ∧ row.decidedAt < fold.end := by
    intro row
    unfold checkValidation inWindow
    simp
  have htrain := @forM_ok_iff _ (checkTraining fold exploratory) fold.train
  have hrest := @forM_ok_iff _ (checkValidation fold) fold.validation
  simp only [checkTraining_ok_iff] at htrain
  simp only [hvalidation] at hrest
  rw [← htrain, ← hrest, checkNoLookAhead]
  cases hcheck : fold.train.forM (checkTraining fold exploratory) with
  | error e => exact iff_of_false (fun h => nomatch h) (fun h => nomatch h.1)
  | ok u => exact ⟨fun h => ⟨rfl, h⟩, fun h => h.2⟩

/-! ## The law of the folds -/

/-- The first cutoff of the decisions, were there no last `datetime`. -/
def startsAt (rows : List LabeledListing) (foldHours : Int) : Option Int :=
  (firstDecided rows).map fun first => first.decidedAt.hourFloor.micros + foldHours * 3600000000

/-- The step is a `timedelta`, and the first cutoff past all decisions is a `datetime`. -/
def FoldsFit (rows : List LabeledListing) (foldHours : Int) : Prop :=
  ∀ start, startsAt rows foldHours = some start →
    foldHours / 24 ≤ 999999999 ∧
    ∃ k : Nat, (∀ row ∈ rows, row.decidedAt.micros < start + k * (foldHours * 3600000000)) ∧
      start + k * (foldHours * 3600000000) < (maxTimestamp + 1) * 1000000

/-- Exactly one of the folds validates on the row. -/
def ValidatedOnce (folds : List Fold) (row : LabeledListing) : Prop :=
  ∃ before fold after, folds = before ++ fold :: after ∧ row ∈ fold.validation ∧
    ∀ other ∈ before ++ after, row ∉ other.validation

/-- No fold looks ahead, and the folds tile the decisions from the first cutoff on. -/
structure WalksForward (rows : List LabeledListing) (foldHours : Int) (exploratory : Bool)
    (folds : List Fold) : Prop where
  checked : ∀ fold ∈ folds, checkNoLookAhead fold exploratory = .ok ()
  trainsBefore : exploratory = false → ∀ fold ∈ folds, ∀ trained ∈ fold.train,
    ∀ validated ∈ fold.validation, trained.decidedAt < validated.decidedAt ∧
      trained.labelAvailableAt ≤ validated.decidedAt
  disjoint : ∀ fold ∈ folds, ∀ row ∈ fold.train, row ∉ fold.validation
  /-- Rows that are equal count as often as they occur. -/
  tiles : ∀ start, startsAt rows foldHours = some start →
    (folds.flatMap Fold.validation).Perm
      (rows.filter fun row => decide (start ≤ row.decidedAt.micros))
  once : ∀ start, startsAt rows foldHours = some start → ∀ row ∈ rows,
    (start ≤ row.decidedAt.micros → ValidatedOnce folds row) ∧
    (row.decidedAt.micros < start → ∀ fold ∈ folds, row ∉ fold.validation)

theorem firstDecided_isSome {rows : List LabeledListing} (h : rows ≠ []) :
    ∃ first, firstDecided rows = some first :=
  Option.ne_none_iff_exists'.mp fun hnone => h (firstOf_eq_none_iff.mp hnone)

theorem lastDecided_isSome {rows : List LabeledListing} (h : rows ≠ []) :
    ∃ last, lastDecided rows = some last :=
  Option.ne_none_iff_exists'.mp fun hnone => h (firstOf_eq_none_iff.mp hnone)

theorem lastDecided_spec {rows : List LabeledListing} {last : LabeledListing}
    (h : lastDecided rows = some last) :
    last ∈ rows ∧ ∀ row ∈ rows, row.decidedAt ≤ last.decidedAt :=
  firstOf_spec h

theorem foldStep_ok_iff {hours : Int} (h : 1 ≤ hours) {step : FoldStep} :
    foldStep hours h = .ok step ↔ hours / 24 ≤ 999999999 ∧ step.micros = hours * 3600000000 := by
  unfold foldStep
  by_cases hfits : hours / 24 ≤ 999999999
  · rw [if_pos hfits]
    constructor
    · intro hstep
      cases hstep
      exact ⟨hfits, rfl⟩
    · rintro ⟨-, hmicros⟩
      obtain ⟨micros, pos⟩ := step
      subst hmicros
      rfl
  · rw [if_neg hfits]
    exact iff_of_false (fun hstep => nomatch hstep) (fun hstep => hfits hstep.1)

section
variable {rows : List LabeledListing} {foldHours : Int} {exploratory : Bool}

/-- The function on some decisions: the step, the first cutoff and the loop from it. -/
theorem walkForwardFolds_eq (hhours : 1 ≤ foldHours) {first last : LabeledListing}
    (hfirst : firstDecided rows = some first) (hlast : lastDecided rows = some last) :
    walkForwardFolds rows foldHours exploratory
      = (foldStep foldHours hhours >>= fun step => firstCutoff first step >>= fun cutoff =>
          foldsFrom rows exploratory step last.decidedAt cutoff) := by
  rw [walkForwardFolds, dif_neg (by omega), hfirst, hlast]

theorem walkForwardFolds_nil (hhours : 1 ≤ foldHours) :
    walkForwardFolds [] foldHours exploratory = .ok [] := by
  rw [walkForwardFolds, dif_neg (by omega)]
  rfl

theorem walkForwardFolds_error (hhours : 1 ≤ foldHours) {e : FoldError}
    (h : walkForwardFolds rows foldHours exploratory = .error e) : e = .overflowError := by
  by_cases hrows : rows = []
  · rw [hrows, walkForwardFolds_nil hhours] at h
    cases h
  · obtain ⟨first, hfirst⟩ := firstDecided_isSome hrows
    obtain ⟨last, hlast⟩ := lastDecided_isSome hrows
    rw [walkForwardFolds_eq hhours hfirst hlast] at h
    rcases bind_eq_error h with hstep | ⟨step, -, h⟩
    · unfold foldStep at hstep
      split at hstep
      · cases hstep
      · cases hstep
        rfl
    · rcases bind_eq_error h with hcutoff | ⟨cutoff, -, h⟩
      · exact Datetime.add_error hcutoff
      · exact foldsFrom_error h

/-- It returns exactly when every time it computes is representable. -/
theorem walkForwardFolds_ok_iff (hhours : 1 ≤ foldHours) :
    Succeeds (walkForwardFolds rows foldHours exploratory) ↔ FoldsFit rows foldHours := by
  by_cases hrows : rows = []
  · subst hrows
    rw [walkForwardFolds_nil hhours]
    refine iff_of_true (succeeds_ok []) (fun start hstart => ?_)
    cases hstart
  · obtain ⟨first, hfirst⟩ := firstDecided_isSome hrows
    obtain ⟨last, hlast⟩ := lastDecided_isSome hrows
    have hmax := lastDecided_spec hlast
    have hstart : startsAt rows foldHours
        = some (first.decidedAt.hourFloor.micros + foldHours * 3600000000) := by
      rw [startsAt, hfirst]
      rfl
    have hpast : ∀ time : Int, (∀ row ∈ rows, row.decidedAt.micros < time) ↔
        last.decidedAt.micros < time := by
      intro time
      constructor
      · exact fun h => h last hmax.1
      · exact fun h row hrow => Int.lt_of_le_of_lt (hmax.2 row hrow) h
    simp only [FoldsFit, hstart, Option.some.injEq, forall_eq', hpast]
    rw [walkForwardFolds_eq hhours hfirst hlast, succeeds_bind]
    constructor
    · rintro ⟨step, hstep, hok⟩
      obtain ⟨hfits, hmicros⟩ := (foldStep_ok_iff hhours).mp hstep
      rw [succeeds_bind] at hok
      obtain ⟨cutoff, hcutoff, hok⟩ := hok
      obtain ⟨k, hk⟩ := (foldsFrom_ok_iff cutoff).mp hok
      rw [Datetime.micros_of_add hcutoff, hmicros] at hk
      exact ⟨hfits, k, hk⟩
    · rintro ⟨hfits, k, hk⟩
      have hstep := (foldStep_ok_iff hhours).mpr
        (show _ ∧ FoldStep.micros ⟨_, hours_pos hhours⟩ = _ from ⟨hfits, rfl⟩)
      have hnonneg : 0 ≤ (k : Int) * (foldHours * 3600000000) := by positivity
      have hfirst : first.decidedAt.hourFloor.micros + FoldStep.micros ⟨_, hours_pos hhours⟩
          < (maxTimestamp + 1) * 1000000 := by
        show _ + foldHours * 3600000000 < _
        omega
      obtain ⟨cutoff, hcutoff⟩ := Datetime.add_ok_iff.mpr hfirst
      refine ⟨_, hstep, succeeds_bind.mpr ⟨cutoff, hcutoff, (foldsFrom_ok_iff cutoff).mpr ⟨k, ?_⟩⟩⟩
      rw [Datetime.micros_of_add hcutoff]
      exact hk

/-- A decision in one of the windows is in no other. -/
theorem Tiles.once {cutoff : Datetime} {folds : List Fold} (h : Tiles rows exploratory cutoff folds)
    {row : LabeledListing} (hrow : row ∈ rows) (hlate : cutoff ≤ row.decidedAt) :
    ValidatedOnce folds row := by
  have hmem : row ∈ folds.flatMap Fold.validation := by
    rw [h.validated.mem_iff, List.mem_filter]
    exact ⟨hrow, by simpa using hlate⟩
  obtain ⟨fold, hfold, hvalidates⟩ := List.mem_flatMap.mp hmem
  obtain ⟨before, after, hfolds⟩ := List.append_of_mem hfold
  refine ⟨before, fold, after, hfolds, hvalidates, fun other hother hagain => ?_⟩
  have hapart := h.apart
  rw [hfolds, List.pairwise_append, List.pairwise_cons] at hapart
  have hwindow : ∀ f ∈ folds, row ∈ f.validation → f.cutoff ≤ row.decidedAt ∧
      row.decidedAt < f.end := by
    intro f hf hvalidated
    rw [(h.made f hf).1, mem_validation] at hvalidated
    exact hvalidated.2
  have hother' : other ∈ folds := by
    rw [hfolds]
    simp only [List.mem_append, List.mem_cons] at hother ⊢
    exact hother.imp_right .inr
  have hin := hwindow fold hfold hvalidates
  have hin' := hwindow other hother' hagain
  have hdisjoint : other.end ≤ fold.cutoff ∨ fold.end ≤ other.cutoff := by
    rcases List.mem_append.mp hother with hbefore | hafter
    · exact .inl (hapart.2.2 other hbefore fold List.mem_cons_self)
    · exact .inr (hapart.2.1.1 other hafter)
  rw [Datetime.le_iff, Datetime.lt_iff] at hin hin'
  rw [Datetime.le_iff, Datetime.le_iff] at hdisjoint
  omega

theorem walksForward_of_ok (hhours : 1 ≤ foldHours) {folds : List Fold}
    (h : walkForwardFolds rows foldHours exploratory = .ok folds) :
    WalksForward rows foldHours exploratory folds := by
  by_cases hrows : rows = []
  · subst hrows
    rw [walkForwardFolds_nil hhours] at h
    cases h
    have hnone : startsAt [] foldHours = none := rfl
    refine ⟨by simp, by simp, by simp, ?_, ?_⟩
    · intro start hstart
      rw [hnone] at hstart
      cases hstart
    · intro start hstart
      rw [hnone] at hstart
      cases hstart
  · obtain ⟨first, hfirst⟩ := firstDecided_isSome hrows
    obtain ⟨last, hlast⟩ := lastDecided_isSome hrows
    rw [walkForwardFolds_eq hhours hfirst hlast] at h
    obtain ⟨step, hstep, h⟩ := bind_eq_ok h
    obtain ⟨cutoff, hcutoff, h⟩ := bind_eq_ok h
    have htiles := foldsFrom_tiles (lastDecided_spec hlast).2 h
    have hstart : ∀ start, startsAt rows foldHours = some start → start = cutoff.micros := by
      intro start hstart
      rw [startsAt, hfirst] at hstart
      cases hstart
      rw [Datetime.micros_of_add hcutoff, ((foldStep_ok_iff hhours).mp hstep).2]
    have htrain : ∀ fold ∈ folds, ∀ row ∈ fold.train, row.decidedAt < fold.cutoff ∧
        (exploratory = true ∨ row.labelAvailableAt ≤ fold.cutoff) := by
      intro fold hfold row hrow
      rw [(htiles.made fold hfold).1, mem_train] at hrow
      exact hrow.2
    have hvalidation : ∀ fold ∈ folds, ∀ row ∈ fold.validation,
        fold.cutoff ≤ row.decidedAt ∧ row.decidedAt < fold.end := by
      intro fold hfold row hrow
      rw [(htiles.made fold hfold).1, mem_validation] at hrow
      exact hrow.2
    refine ⟨?_, ?_, ?_, ?_, ?_⟩
    · intro fold hfold
      exact checkNoLookAhead_ok_iff.mpr ⟨htrain fold hfold, hvalidation fold hfold⟩
    · intro hstrict fold hfold trained htrained validated hvalidated
      obtain ⟨hbefore, hlabel⟩ := htrain fold hfold trained htrained
      have hafter := (hvalidation fold hfold validated hvalidated).1
      have havailable := hlabel.resolve_left (by rw [hstrict]; decide)
      exact ⟨Int.lt_of_lt_of_le hbefore hafter, Int.le_trans havailable hafter⟩
    · intro fold hfold row htrained hvalidated
      have hbefore := (htrain fold hfold row htrained).1
      exact absurd (hvalidation fold hfold row hvalidated).1 (Int.not_le.mpr hbefore)
    · intro start hstarts
      obtain rfl := hstart start hstarts
      exact htiles.validated
    · intro start hstarts row hrow
      obtain rfl := hstart start hstarts
      refine ⟨htiles.once hrow, fun hearly fold hfold hvalidated => ?_⟩
      have hlater := (htiles.made fold hfold).2
      have hwindow := (hvalidation fold hfold row hvalidated).1
      exact absurd (Int.le_trans hlater hwindow) (Int.not_le.mpr hearly)

end

/-- On any decisions and any step of an hour or more: when the step and the first cutoff
past the last decision are representable it returns folds that do not look ahead and tile
the decisions from the first cutoff on, and otherwise it raises OverflowError. -/
theorem walkForwardFolds_walksForward (rows : List LabeledListing) (foldHours : Int)
    (exploratory : Bool) (hhours : 1 ≤ foldHours) :
    (FoldsFit rows foldHours → ∃ folds, walkForwardFolds rows foldHours exploratory = .ok folds ∧
      WalksForward rows foldHours exploratory folds) ∧
    (¬ FoldsFit rows foldHours →
      walkForwardFolds rows foldHours exploratory = .error .overflowError) := by
  have hfits : Succeeds (walkForwardFolds rows foldHours exploratory) ↔ FoldsFit rows foldHours :=
    walkForwardFolds_ok_iff hhours
  rw [← hfits]
  constructor
  · rintro ⟨folds, hfolds⟩
    exact ⟨folds, hfolds, walksForward_of_ok hhours hfolds⟩
  · intro hfails
    cases hresult : walkForwardFolds rows foldHours exploratory with
    | error e => rw [walkForwardFolds_error hhours hresult]
    | ok folds => exact absurd ⟨folds, hresult⟩ hfails

/-- A listing of 9999-12-31 23:00, whose label is available half an hour later. -/
def lastHourListing : LabeledListing where
  listingId := "a"
  decidedAt := ⟨253402297200000000, by decide⟩
  labelAvailableAt := ⟨253402299000000000, by decide⟩

/-- A listing of the epoch, and one that was decided on its day at noon. -/
def epochListings : List LabeledListing :=
  [⟨"a", ⟨0, by decide⟩, ⟨3600000000, by decide⟩⟩,
    ⟨"b", ⟨43200000000, by decide⟩, ⟨50000000000, by decide⟩⟩]

theorem walkForwardFolds_walksForward_epochListings :
    ∃ folds, walkForwardFolds epochListings 1 false = .ok folds ∧
      WalksForward epochListings 1 false folds := by
  apply (walkForwardFolds_walksForward epochListings 1 false (by decide)).1
  intro start hstart
  obtain rfl : 3600000000 = start := Option.some.inj hstart
  exact ⟨by decide, 12, by decide, by decide⟩

/-- In the last hour of the year 9999 the first cutoff is no `datetime`. -/
theorem not_walksForward_lastHour :
    ¬ ∀ (rows : List LabeledListing) (foldHours : Int), 1 ≤ foldHours →
      ∃ folds, walkForwardFolds rows foldHours false = .ok folds ∧
        WalksForward rows foldHours false folds := by
  intro h
  obtain ⟨folds, hfolds, -⟩ := h [lastHourListing] 1 (by decide)
  have hraises : walkForwardFolds [lastHourListing] 1 false = .error .overflowError := rfl
  rw [hraises] at hfolds
  cases hfolds

end BrandSniper
