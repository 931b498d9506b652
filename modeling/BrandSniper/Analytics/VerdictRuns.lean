import BrandSniper.Analytics.VerdictLog

/-!
# Runs of the CFO experiment

`run_verdicts` of `apps/analytics/cfo_calibration.py`, started again and again
on one file. Between two events the process is in one `await`: a question is
put, an answer comes and its line is written, the quota ends, or the run is
over. A run can be stopped at any of them (`stop`), and while a line is
written: then the file keeps the first characters of it (`crash`).

What makes the file a resume state is that its text is the text of whole lines,
the last newline possibly missing (`Resumable`).
-/

namespace BrandSniper.Cfo

open Kit

variable {F : Type}

/-! ## The model -/

/-- A case, by its key, and a variant. -/
abbrev Question := String × String

def Question.cacheKey (question : Question) (model : String) : CacheKey :=
  verdictCacheKey question.2 question.1 model

theorem Question.cacheKey_inj {q q' : Question} {model : String}
    (h : q.cacheKey model = q'.cacheKey model) : q = q' := by
  simp only [Question.cacheKey, verdictCacheKey, Prod.mk.injEq] at h
  exact Prod.ext h.2.1 h.1

/-- How a call to the CFO ended. -/
inductive Outcome (F : Type) where
  | ok (probability : F) (reasoning : String)
  | failed (error : String)

/-- What `ask_cfo` or `ask_claude_code` learned of a question. -/
structure Reply (F : Type) where
  outcome : Outcome F
  promptTokens : Int
  completionTokens : Int
  llmCalls : Int
  toolCalls : List String

/-- `text.encode("ascii", "ignore").decode("ascii")` -/
def asciiOnly (text : String) : String := String.ofList (text.toList.filter fun c => c.toNat < 128)

/-- The verdict made of it. -/
def Reply.verdict (reply : Reply F) (question : Question) (model : String) : Verdict F where
  key := question.1
  variant := question.2
  model := model
  promptVersion := PROMPT_VERSION
  status := match reply.outcome with
    | .ok _ _ => STATUS_OK
    | .failed _ => STATUS_ERROR
  probability := match reply.outcome with
    | .ok probability _ => some probability
    | .failed _ => none
  reasoning := match reply.outcome with
    | .ok _ reasoning => asciiOnly reasoning
    | .failed error => "Evaluation failed: " ++ error
  promptTokens := reply.promptTokens
  completionTokens := reply.completionTokens
  llmCalls := reply.llmCalls
  toolCalls := reply.toolCalls

structure Counts where
  asked : Nat
  skipped : Nat
  errors : Nat
  deriving DecidableEq

/-- The variables of `run_verdicts` between two events. -/
structure Run where
  model : String
  concurrency : Nat
  /-- Questions that wait for a slot, in the order of their tasks. -/
  waiting : List Question
  /-- Questions that hold a slot. -/
  opened : List Question
  quotaErrors : Nat
  counts : Counts
  deriving DecidableEq

/-- Every variant of one case before the next case. -/
def questions (ordered variants : List String) : List Question :=
  ordered.flatMap fun case => variants.map fun variant => (case, variant)

def Run.start (done : List CacheKey) (ordered variants : List String) (model : String)
    (concurrency : Nat) : Run where
  model := model
  concurrency := concurrency
  waiting := (questions ordered variants).filter fun question => question.cacheKey model ∉ done
  opened := []
  quotaErrors := 0
  counts :=
    ⟨0, (questions ordered variants).countP fun question => question.cacheKey model ∈ done, 0⟩

/-- How a call of `run_verdicts` ended. -/
inductive RunEnd where
  | unreadable (error : ReadError)
  | stopped
  | quotaExhausted
  | returned (counts : Counts)
  deriving DecidableEq

/-- The output file with the process on it. -/
structure LogState (F : Type) where
  file : List Char
  run : Option Run
  ends : List RunEnd
  /-- The verdicts whose line was written to its last character. -/
  written : List (Verdict F)

def LogState.initial : LogState F := ⟨[], none, [], []⟩

inductive Event (F : Type) where
  | start (cases ordered variants : List String) (model : String) (concurrency : Nat)
  | ask
  | answer (question : Question) (reply : Reply F)
  | quota (question : Question)
  | finish
  | stop
  | crash (question : Question) (reply : Reply F) (length : Nat)

/-- The front of the waiting questions gets a slot. After a quota error it is given up. -/
def Run.ask (run : Run) : Option Run :=
  match run.waiting with
  | [] => none
  | question :: rest =>
      if run.opened.length < run.concurrency then
        some (if run.quotaErrors = 0 then
          { run with waiting := rest, opened := run.opened ++ [question] }
        else { run with waiting := rest })
      else none

def Run.answered (run : Run) (question : Question) (ok : Bool) : Run :=
  { run with
    opened := run.opened.erase question
    counts := { run.counts with
      asked := run.counts.asked + 1
      errors := run.counts.errors + if ok then 0 else 1 } }

def Run.refused (run : Run) (question : Question) : Run :=
  { run with opened := run.opened.erase question, quotaErrors := run.quotaErrors + 1 }

/-- What the run ends with once no question is left. -/
def Run.result (run : Run) : RunEnd :=
  if run.quotaErrors = 0 then .returned run.counts else .quotaExhausted

section
variable [PyFloat F]

/-- The text `out.write` is given for a verdict. -/
def Verdict.ended (v : Verdict F) : List Char := v.line ++ ['\n']

def step (s : LogState F) : Event F → Option (LogState F)
  | .start cases ordered variants model concurrency =>
      if s.run = none ∧ cases.Nodup ∧ variants.Nodup ∧ ordered.Perm cases then
        match readVerdicts (F := F) s.file with
        | .error e => some { s with ends := s.ends ++ [.unreadable e] }
        | .ok verdicts =>
            let run := Run.start (doneKeys verdicts) ordered variants model concurrency
            some { s with run := some run }
      else none
  | .ask => (s.run.bind Run.ask).map fun run => { s with run := some run }
  | .answer question reply =>
      (s.run.filter fun run => question ∈ run.opened).map fun run =>
        let v := reply.verdict question run.model
        { s with
          file := s.file ++ v.ended
          run := some (run.answered question (v.status = STATUS_OK))
          written := s.written ++ [v] }
  | .quota question =>
      (s.run.filter fun run => question ∈ run.opened).map fun run =>
        { s with run := some (run.refused question) }
  | .finish =>
      (s.run.filter fun run => run.waiting = [] ∧ run.opened = []).map fun run =>
        { s with run := none, ends := s.ends ++ [run.result] }
  | .stop => s.run.map fun _ => { s with run := none, ends := s.ends ++ [.stopped] }
  | .crash question reply length =>
      (s.run.filter fun run => question ∈ run.opened).map fun run =>
        let v := reply.verdict question run.model
        { file := s.file ++ v.ended.take length
          run := none
          ends := s.ends ++ [.stopped]
          written := if v.line.length ≤ length then s.written ++ [v] else s.written }

/-! ## Resuming -/

/-- What a restart relies on and what the runs promise. -/
structure Resumes (s : LogState F) : Prop where
  /-- Every line of the file is read back as the verdict it was written for. -/
  reads : readVerdicts s.file = .ok s.written
  /-- No start has raised. -/
  starts : ∀ e, .unreadable e ∉ s.ends
  /-- No question that is asked or will be has an answer in the file. -/
  unanswered : ∀ run, s.run = some run → ∀ question ∈ run.waiting ++ run.opened,
    ∀ v ∈ s.written, ¬ v.Answers (question.cacheKey run.model)
  /-- No question has two answers. -/
  once : ∀ cacheKey, s.written.countP (fun v => v.Answers cacheKey) ≤ 1

/-- The file has no unended line. -/
def EndsLine (file : List Char) : Prop := ∀ c ∈ file.getLast?, c = '\n'

theorem all_getLast?_iff {file : List Char} :
    (file.getLast?.all fun c => c = '\n') = true ↔ EndsLine file := by
  rw [EndsLine, Option.all_eq_true]
  simp only [decide_eq_true_eq]
  rfl

instance (file : List Char) : Decidable (EndsLine file) := decidable_of_iff _ all_getLast?_iff

/-- A line is appended behind an ended one only, and cut nowhere but before its first character
or behind its last. -/
def CleanStep (s : LogState F) : Event F → Prop
  | .answer _ _ => EndsLine s.file
  | .crash question reply length => length = 0 ∨ EndsLine s.file ∧
      ∀ run ∈ s.run, (reply.verdict question run.model).line.length ≤ length
  | _ => True

instance (s : LogState F) : ∀ e, Decidable (CleanStep s e)
  | .answer _ _ => inferInstanceAs (Decidable (EndsLine s.file))
  | .crash question reply length => inferInstanceAs (Decidable (length = 0 ∨ EndsLine s.file ∧
      ∀ run ∈ s.run, (reply.verdict question run.model).line.length ≤ length))
  | .start _ _ _ _ _ | .ask | .quota _ | .finish | .stop => inferInstanceAs (Decidable True)

/-! ## The invariant -/

/-- The file holds the lines of the verdicts written, all of them whole and all but perhaps the
last one ended. The questions at hand differ from each other. -/
structure Resumable (s : LogState F) : Prop where
  file : s.file = logText s.written ∨
    ∃ before v, s.written = before ++ [v] ∧ s.file = logText before ++ v.line
  starts : ∀ e, .unreadable e ∉ s.ends
  unanswered : ∀ run, s.run = some run → ∀ question ∈ run.waiting ++ run.opened,
    ∀ v ∈ s.written, ¬ v.Answers (question.cacheKey run.model)
  once : ∀ cacheKey, s.written.countP (fun v => v.Answers cacheKey) ≤ 1
  distinct : ∀ run, s.run = some run → (run.waiting ++ run.opened).Nodup

theorem resumable_initial : Resumable (LogState.initial : LogState F) where
  file := .inl rfl
  starts := by
    intro e he
    cases he
  unanswered := by
    intro run hrun
    cases hrun
  once := fun _ => Nat.zero_le 1
  distinct := by
    intro run hrun
    cases hrun

theorem not_endsLine_line [LawfulPyFloat F] (text : List Char) (v : Verdict F) :
    ¬ EndsLine (text ++ v.line) := by
  intro h
  have hlast : (text ++ v.line).getLast? = some (v.line.getLast (line_ne_nil v)) := by
    rw [List.getLast?_append_of_ne_nil text (line_ne_nil v), List.getLast?_eq_some_getLast]
  have hboundary := line_not_boundary v _ (List.getLast_mem (line_ne_nil v))
  rw [h _ hlast] at hboundary
  exact absurd hboundary (by decide)

namespace Resumable

variable {s : LogState F}

/-- The run goes on with no new question. -/
theorem narrow (h : Resumable s) {run run' : Run} (hrun : s.run = some run)
    (hmodel : run'.model = run.model)
    (hsub : (run'.waiting ++ run'.opened).Subperm (run.waiting ++ run.opened)) :
    Resumable { s with run := some run' } where
  file := h.file
  starts := h.starts
  unanswered := by
    intro r hr question hquestion
    obtain rfl := Option.some.inj hr
    rw [hmodel]
    exact h.unanswered run hrun question (hsub.subset hquestion)
  once := h.once
  distinct := by
    intro r hr
    obtain rfl := Option.some.inj hr
    obtain ⟨kept, hperm, hkept⟩ := hsub
    exact hperm.nodup_iff.mp ((h.distinct run hrun).sublist hkept)

/-- The run is over. -/
theorem ended (h : Resumable s) {result : RunEnd} (hresult : ∀ e, result ≠ .unreadable e) :
    Resumable { s with run := none, ends := s.ends ++ [result] } where
  file := h.file
  starts := by
    intro e he
    rcases List.mem_append.mp he with he | he
    · exact h.starts e he
    · exact hresult e (List.mem_singleton.mp he).symm
  unanswered := by
    intro run hrun
    cases hrun
  once := h.once
  distinct := by
    intro run hrun
    cases hrun

/-- An answer to a question at hand is the first one. -/
theorem once_answer (h : Resumable s) {run : Run} (hrun : s.run = some run) {question : Question}
    (hopen : question ∈ run.opened) (reply : Reply F) (cacheKey : CacheKey) :
    (s.written ++ [reply.verdict question run.model]).countP (fun v => v.Answers cacheKey) ≤ 1 := by
  rw [List.countP_append, List.countP_singleton]
  split
  · rename_i hanswers
    obtain ⟨-, -, rfl⟩ := of_decide_eq_true hanswers
    have hnone : s.written.countP (fun v => v.Answers (question.cacheKey run.model)) = 0 := by
      rw [List.countP_eq_zero]
      intro v hv
      simpa using h.unanswered run hrun question (List.mem_append_right _ hopen) v hv
    exact (Nat.add_le_add_right hnone.le 1)
  · exact h.once cacheKey

variable [LawfulPyFloat F]

theorem reads (h : Resumable s) : readVerdicts s.file = .ok s.written := by
  rcases h.file with hfile | ⟨before, v, hwritten, hfile⟩
  · rw [hfile, readVerdicts_logText]
  · rw [hfile, hwritten, readVerdicts_logText_line]

theorem resumes (h : Resumable s) : Resumes s :=
  ⟨h.reads, h.starts, h.unanswered, h.once⟩

theorem file_of_endsLine (h : Resumable s) (hends : EndsLine s.file) :
    s.file = logText s.written := by
  rcases h.file with hfile | ⟨before, v, -, hfile⟩
  · exact hfile
  · rw [hfile] at hends
    exact absurd hends (not_endsLine_line _ v)

/-- A verdict written behind an ended line. -/
theorem written (h : Resumable s) (hends : EndsLine s.file) {run : Run} (hrun : s.run = some run)
    {question : Question} (hopen : question ∈ run.opened) (reply : Reply F) {text : List Char}
    (htext : text = (reply.verdict question run.model).line ∨
      text = (reply.verdict question run.model).ended) :
    Resumable { s with
      file := s.file ++ text
      run := none
      written := s.written ++ [reply.verdict question run.model] } where
  file := by
    rw [h.file_of_endsLine hends]
    rcases htext with rfl | rfl
    · exact .inr ⟨s.written, _, rfl, rfl⟩
    · exact .inl (logText_concat _ _).symm
  starts := h.starts
  unanswered := by
    intro r hr
    cases hr
  once := h.once_answer hrun hopen reply
  distinct := by
    intro r hr
    cases hr

end Resumable

/-! ## The steps -/

theorem nodup_questions {ordered variants : List String} (hordered : ordered.Nodup)
    (hvariants : variants.Nodup) : (questions ordered variants).Nodup := by
  rw [questions, List.nodup_flatMap]
  constructor
  · intro key _
    exact hvariants.map (Prod.mk_right_injective key)
  · apply hordered.imp
    intro key key' hne question h h'
    obtain ⟨_, -, rfl⟩ := List.mem_map.mp h
    obtain ⟨_, -, heq⟩ := List.mem_map.mp h'
    exact hne (congrArg Prod.fst heq).symm

/-- After an ask the run has the same questions, or one less. -/
theorem Run.ask_spec {run run' : Run} (h : run.ask = some run') :
    run'.model = run.model ∧
      (run'.waiting ++ run'.opened).Subperm (run.waiting ++ run.opened) := by
  unfold Run.ask at h
  split at h
  · cases h
  · rename_i question rest hwaiting
    split_ifs at h with hslot hquota
    · obtain rfl := Option.some.inj h
      refine ⟨rfl, List.Perm.subperm ?_⟩
      rw [hwaiting, ← List.append_assoc]
      exact List.perm_append_singleton question _
    · obtain rfl := Option.some.inj h
      refine ⟨rfl, List.Sublist.subperm ?_⟩
      rw [hwaiting]
      exact List.sublist_cons_self question _

theorem Run.subperm_erase (run : Run) (question : Question) :
    (run.waiting ++ run.opened.erase question).Subperm (run.waiting ++ run.opened) :=
  (List.erase_sublist.append_left run.waiting).subperm

theorem Resumable.start {s : LogState F} (h : Resumable s)
    {cases ordered variants : List String} {model : String} {concurrency : Nat}
    (hcases : cases.Nodup) (hvariants : variants.Nodup) (horder : ordered.Perm cases) :
    Resumable { s with
      run := some (Run.start (doneKeys s.written) ordered variants model concurrency) } where
  file := h.file
  starts := h.starts
  unanswered := by
    intro run hrun question hquestion v hv hanswers
    obtain rfl := Option.some.inj hrun
    rw [Run.start, List.append_nil, List.mem_filter] at hquestion
    refine of_decide_eq_true hquestion.2 ?_
    exact mem_doneKeys_iff.mpr ⟨v, hv, hanswers⟩
  once := h.once
  distinct := by
    intro run hrun
    obtain rfl := Option.some.inj hrun
    rw [Run.start, List.append_nil]
    exact (nodup_questions (horder.nodup_iff.mpr hcases) hvariants).filter _

section
variable [LawfulPyFloat F] {s s' : LogState F}

theorem Resumable.answer (h : Resumable s) (hends : EndsLine s.file) {run : Run}
    (hrun : s.run = some run) {question : Question} (hopen : question ∈ run.opened)
    (reply : Reply F) (ok : Bool) :
    Resumable { s with
      file := s.file ++ (reply.verdict question run.model).ended
      run := some (run.answered question ok)
      written := s.written ++ [reply.verdict question run.model] } where
  file := (h.written hends hrun hopen reply (.inr rfl)).file
  starts := h.starts
  unanswered := by
    intro r hr other hother v hv hanswers
    obtain rfl := Option.some.inj hr
    have hold := (run.subperm_erase question).subset hother
    rcases List.mem_append.mp hv with hv | hv
    · exact h.unanswered run hrun other hold v hv hanswers
    · obtain rfl := List.mem_singleton.mp hv
      -- the new verdict answers its own question only, and that one is closed
      obtain rfl : question = other := Question.cacheKey_inj hanswers.2.2
      have hnodup := h.distinct run hrun
      rcases List.mem_append.mp hother with hwaiting | hopened
      · exact (List.disjoint_of_nodup_append hnodup) hwaiting hopen
      · exact hnodup.of_append_right.not_mem_erase hopened
  once := h.once_answer hrun hopen reply
  distinct := by
    intro r hr
    obtain rfl := Option.some.inj hr
    obtain ⟨kept, hperm, hkept⟩ := run.subperm_erase question
    exact hperm.nodup_iff.mp ((h.distinct run hrun).sublist hkept)

theorem Resumable.crash (h : Resumable s) {run : Run} (hrun : s.run = some run)
    {question : Question} (hopen : question ∈ run.opened) (reply : Reply F) {length : Nat}
    (hclean : length = 0 ∨
      EndsLine s.file ∧ (reply.verdict question run.model).line.length ≤ length) :
    Resumable {
      file := s.file ++ (reply.verdict question run.model).ended.take length
      run := none
      ends := s.ends ++ [.stopped]
      written := if (reply.verdict question run.model).line.length ≤ length then
          s.written ++ [reply.verdict question run.model]
        else s.written } := by
  have hover : ∀ e, RunEnd.stopped ≠ .unreadable e := by
    intro e he
    cases he
  rcases hclean with rfl | ⟨hends, hwhole⟩
  · have hnone : ¬ (reply.verdict question run.model).line.length ≤ 0 := by
      rw [Nat.le_zero, List.length_eq_zero_iff]
      exact line_ne_nil _
    rw [List.take_zero, List.append_nil, if_neg hnone]
    exact h.ended hover
  · rw [if_pos hwhole]
    refine (h.written hends hrun hopen reply ?_).ended hover
    rw [Verdict.ended, List.take_append, List.take_of_length_le hwhole]
    cases length - (reply.verdict question run.model).line.length with
    | zero =>
        left
        rw [List.take_zero, List.append_nil]
    | succ n =>
        right
        rw [List.take_succ_cons, List.take_nil]

/-- A clean step leaves a file a restart can use. -/
theorem resumable_step {e : Event F} (h : Resumable s) (hclean : CleanStep s e)
    (hstep : step s e = some s') : Resumable s' := by
  cases e with
  | start cases ordered variants model concurrency =>
      simp only [step, h.reads] at hstep
      split_ifs at hstep with hguard
      obtain rfl := Option.some.inj hstep
      exact h.start hguard.2.1 hguard.2.2.1 hguard.2.2.2
  | ask =>
      obtain ⟨run', hask, rfl⟩ := Option.map_eq_some_iff.mp hstep
      obtain ⟨run, hrun, hask⟩ := Option.bind_eq_some_iff.mp hask
      exact h.narrow hrun (Run.ask_spec hask).1 (Run.ask_spec hask).2
  | answer question reply =>
      obtain ⟨run, hrun, rfl⟩ := Option.map_eq_some_iff.mp hstep
      obtain ⟨hrun, hopen⟩ := Option.filter_eq_some_iff.mp hrun
      exact h.answer hclean hrun (of_decide_eq_true hopen) reply _
  | quota question =>
      obtain ⟨run, hrun, rfl⟩ := Option.map_eq_some_iff.mp hstep
      obtain ⟨hrun, -⟩ := Option.filter_eq_some_iff.mp hrun
      exact h.narrow hrun rfl (run.subperm_erase question)
  | finish =>
      obtain ⟨run, hrun, rfl⟩ := Option.map_eq_some_iff.mp hstep
      apply h.ended
      intro e he
      unfold Run.result at he
      split at he <;> cases he
  | stop =>
      obtain ⟨run, hrun, rfl⟩ := Option.map_eq_some_iff.mp hstep
      apply h.ended
      intro e he
      cases he
  | crash question reply length =>
      obtain ⟨run, hrun, rfl⟩ := Option.map_eq_some_iff.mp hstep
      obtain ⟨hrun, hopen⟩ := Option.filter_eq_some_iff.mp hrun
      exact h.crash hrun (of_decide_eq_true hopen) reply
        (hclean.imp_right fun hends => ⟨hends.1, hends.2 run hrun⟩)

/-- As long as no line is cut and none is appended to an unended one, every start reads the whole
file, asks only what has no answer, and no question is answered twice. -/
theorem runVerdicts_resumes {events : List (Event F)}
    (hclean : AllSteps step CleanStep LogState.initial events)
    (h : runFrom step LogState.initial events = some s) : Resumes s :=
  (runFrom_inv_of_allSteps Resumable CleanStep (fun _ _ _ => resumable_step) hclean
    resumable_initial h).resumes

end

end

/-- The CFO says yes. -/
def yes : Reply FloatText :=
  ⟨.ok ⟨['0', '.', '6'], by decide⟩ "cheap", 1000, 100, 2, ["fetch_market_floor"]⟩

def resumedRun : List (Event FloatText) :=
  [.start ["L1", "L2"] ["L2", "L1"] ["neutral"] "model-a" 2, .ask, .crash ("L2", "neutral") yes 0,
    .start ["L1", "L2"] ["L2", "L1"] ["neutral"] "model-a" 2, .ask, .ask,
    .answer ("L2", "neutral") yes, .quota ("L1", "neutral"), .finish]

theorem runVerdicts_resumes_afterCrash : ∃ s, runFrom step LogState.initial resumedRun = some s ∧
    s.written.map Verdict.key = ["L2"] ∧ s.ends = [.stopped, .quotaExhausted] ∧ Resumes s := by
  have hclean : AllSteps step CleanStep LogState.initial resumedRun := .of_check (by decide +kernel)
  obtain ⟨s, hs, hend⟩ := Option.map_eq_some_iff.mp
    (show (runFrom step LogState.initial resumedRun).map
        (fun s => (s.written.map Verdict.key, s.ends))
      = some (["L2"], [.stopped, .quotaExhausted]) by decide +kernel)
  obtain ⟨hwritten, hends⟩ := Prod.mk.inj hend
  exact ⟨s, hs, hwritten, hends, runVerdicts_resumes hclean hs⟩

def cutLineRun : List (Event FloatText) :=
  [.start ["L1"] ["L1"] ["neutral"] "model-a" 1, .ask, .crash ("L1", "neutral") yes 1,
    .start ["L1"] ["L1"] ["neutral"] "model-a" 1]

/-- One character of a line is enough to keep every later run from starting. -/
theorem not_resumes_cutLine : ∃ s, runFrom step LogState.initial cutLineRun = some s ∧
    s.file = [Char.ofNat 123] ∧ s.ends = [.stopped, .unreadable .jsonDecodeError] ∧
    ¬ Resumes s := by
  obtain ⟨s, hs, hends⟩ := Option.map_eq_some_iff.mp
    (show (runFrom step LogState.initial cutLineRun).map (fun s => (s.file, s.ends))
      = some ([Char.ofNat 123], [.stopped, .unreadable .jsonDecodeError]) by decide +kernel)
  obtain ⟨hfile, hends⟩ := Prod.mk.inj hends
  refine ⟨s, hs, hfile, hends, fun h => ?_⟩
  apply h.starts .jsonDecodeError
  rw [hends]
  exact List.mem_cons_of_mem _ (List.mem_singleton_self _)

end BrandSniper.Cfo
