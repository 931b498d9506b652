import BrandSniper.Kit.JsonLines
import BrandSniper.Kit.OrderedDict
import BrandSniper.Kit.Results
import BrandSniper.Kit.Runs
import BrandSniper.Kit.Text

/-!
# The CFO's verdict file

`read_verdicts`, `latest_verdicts` and `run_verdicts` of
`apps/analytics/cfo_calibration.py`: an experiment that asks the CFO about
every case and variant, one JSON line for each answer, and takes up the work
from the same file when it is started again.

The file is appended to and never repaired. As long as every line is whole and
ended, a run reads back what was written (`readVerdicts_logText`), asks only
what has no answer, and adds whole lines. A crash that cuts the line being
written leaves a text that is not JSON, and the next run cannot start.
-/

namespace BrandSniper.Cfo

open Kit

def PROMPT_VERSION : Int := 1

def STATUS_OK : String := "ok"

def STATUS_ERROR : String := "error"

variable {F : Type}

/-! ## Verdicts -/

structure Verdict (F : Type) where
  key : String
  variant : String
  model : String
  promptVersion : Int
  status : String
  probability : Option F
  reasoning : String
  promptTokens : Int := 0
  completionTokens : Int := 0
  llmCalls : Int := 0
  toolCalls : List String := []
  deriving DecidableEq

/-- Variant, case, model and prompt version. -/
abbrev CacheKey := String × String × String × Int

def verdictCacheKey (variant key model : String) : CacheKey :=
  (variant, key, model, PROMPT_VERSION)

/-- An answered question: an OK verdict of the present prompt. -/
def Verdict.Answers (v : Verdict F) (cacheKey : CacheKey) : Prop :=
  v.status = STATUS_OK ∧ v.promptVersion = PROMPT_VERSION ∧
    verdictCacheKey v.variant v.key v.model = cacheKey

instance (v : Verdict F) (cacheKey : CacheKey) : Decidable (v.Answers cacheKey) :=
  inferInstanceAs (Decidable (_ ∧ _ ∧ _))

/-! ## Lines -/

/-- `asdict(verdict)` -/
def Verdict.asdict (v : Verdict F) : List (String × Json F) :=
  [("key", .str v.key), ("variant", .str v.variant), ("model", .str v.model),
    ("prompt_version", .int v.promptVersion), ("status", .str v.status),
    ("probability", v.probability.elim .null .float), ("reasoning", .str v.reasoning),
    ("prompt_tokens", .int v.promptTokens), ("completion_tokens", .int v.completionTokens),
    ("llm_calls", .int v.llmCalls), ("tool_calls", .arr (v.toolCalls.map .str))]

/-- `json.dumps(asdict(verdict), sort_keys=True)` -/
def Verdict.line [PyFloat F] (v : Verdict F) : List Char :=
  Json.dumpsSpaced (.sortKeys (.obj v.asdict))

/-- The fields of the dataclass. -/
def verdictFields : List String :=
  ["key", "variant", "model", "prompt_version", "status", "probability", "reasoning",
    "prompt_tokens", "completion_tokens", "llm_calls", "tool_calls"]

def text? : Json F → Option String
  | .str s => some s
  | _ => none

def int? : Json F → Option Int
  | .int z => some z
  | _ => none

def optionalFloat? : Json F → Option (Option F)
  | .null => some none
  | .float x => some (some x)
  | _ => none

def texts? : Json F → Option (List String)
  | .arr items => items.mapM text?
  | _ => none

/-- A field with a default. -/
def fieldOr {α : Type} (read : Json F → Option α) (fallback : α) :
    Option (Json F) → Option α
  | none => some fallback
  | some j => read j

/-- `Verdict(**fields)`. The dataclass takes values of any type, but the program writes no
others than those of the annotations, so others are left out. -/
def Verdict.ofFields (fields : List (String × Json F)) : Option (Verdict F) := do
  guard (∀ name ∈ Json.keys fields, name ∈ verdictFields)
  let get := Json.getField fields
  return {
    key := ← (get "key").bind text?
    variant := ← (get "variant").bind text?
    model := ← (get "model").bind text?
    promptVersion := ← (get "prompt_version").bind int?
    status := ← (get "status").bind text?
    probability := ← (get "probability").bind optionalFloat?
    reasoning := ← (get "reasoning").bind text?
    promptTokens := ← fieldOr int? 0 (get "prompt_tokens")
    completionTokens := ← fieldOr int? 0 (get "completion_tokens")
    llmCalls := ← fieldOr int? 0 (get "llm_calls")
    toolCalls := ← fieldOr texts? [] (get "tool_calls") }

inductive ReadError where
  | jsonDecodeError
  | typeError
  deriving DecidableEq

theorem texts?_str (texts : List String) :
    texts? (.arr (texts.map (Json.str (F := F)))) = some texts := by
  rw [texts?]
  induction texts with
  | nil => rfl
  | cons s rest ih =>
      rw [List.map_cons, List.mapM_cons, ih]
      rfl

theorem sortItems_str (texts : List String) :
    Json.sortItems (texts.map (Json.str (F := F))) = texts.map .str := by
  rw [Json.sortItems_eq_map, List.map_map]
  rfl

theorem nodup_keys_asdict (v : Verdict F) : (Json.keys v.asdict).Nodup := by
  show verdictFields.Nodup
  decide

/-- The fields of a verdict make the verdict again, in the order of their keys as well. -/
theorem ofFields_asdict (v : Verdict F) :
    Verdict.ofFields (Json.sortFields v.asdict) = some v := by
  have hkeys : ∀ name ∈ Json.keys (Json.sortFields v.asdict), name ∈ verdictFields := by
    intro name hname
    exact (Json.keys_sortFields _ _).mp hname
  have hprobability : Json.sortKeys (v.probability.elim .null .float)
      = v.probability.elim (.null (F := F)) .float := by
    cases v.probability <;> rw [Option.elim, Json.sortKeys]
  have hread : optionalFloat? (v.probability.elim .null .float) = some v.probability := by
    cases v.probability <;> rfl
  have hguard : guard (∀ name ∈ Json.keys (Json.sortFields v.asdict), name ∈ verdictFields)
      = some () := if_pos hkeys
  rw [Verdict.ofFields, hguard]
  simp only [Json.getField_sortFields (nodup_keys_asdict v)]
  simp [Json.getField, Verdict.asdict, Json.sortKeys, sortItems_str, hprobability, hread,
    text?, int?, fieldOr, texts?_str]

theorem uniqueKeys_asdict (v : Verdict F) : Json.UniqueKeys (.obj v.asdict) := by
  rw [Json.UniqueKeys]
  refine ⟨nodup_keys_asdict v, Json.uniqueKeysFields_iff.mpr ?_⟩
  have hprobability : Json.UniqueKeys (v.probability.elim .null .float) := by
    cases v.probability <;> trivial
  have htools : Json.UniqueKeysItems (v.toolCalls.map (Json.str (F := F))) := by
    rw [Json.uniqueKeysItems_iff]
    intro j hj
    obtain ⟨s, -, rfl⟩ := List.mem_map.mp hj
    trivial
  simp only [Verdict.asdict, List.forall_mem_cons, Json.UniqueKeys, hprobability, htools, true_and]
  exact List.forall_mem_nil _

section
variable [PyFloat F]

/-- `Verdict(**json.loads(line))` -/
def readLine (line : List Char) : Except ReadError (Verdict F) :=
  match Json.loads (String.ofList line) with
  | none => .error .jsonDecodeError
  | some (.obj fields) =>
      match Verdict.ofFields fields with
      | some v => .ok v
      | none => .error .typeError
  | some _ => .error .typeError

/-- `read_verdicts` of a file's text, empty for a file that does not exist. -/
def readVerdicts (file : List Char) : Except ReadError (List (Verdict F)) :=
  ((splitLines file).filter fun line => !line.all Text.isSpace).mapM readLine

/-- The text of a file with one whole line for each verdict. -/
def logText (verdicts : List (Verdict F)) : List Char :=
  verdicts.flatMap fun v => v.line ++ ['\n']

theorem logText_concat (verdicts : List (Verdict F)) (v : Verdict F) :
    logText (verdicts ++ [v]) = logText verdicts ++ (v.line ++ ['\n']) := by
  simp [logText]

theorem line_eq_cons (v : Verdict F) : ∃ rest, v.line = '{' :: rest := by
  rw [Verdict.line, Json.sortKeys, Json.dumpsSpaced, Json.dumpsWith]
  exact ⟨_, rfl⟩

theorem line_ne_nil (v : Verdict F) : v.line ≠ [] := by
  obtain ⟨rest, hrest⟩ := line_eq_cons v
  rw [hrest]
  exact List.cons_ne_nil _ _

theorem line_not_blank (v : Verdict F) : (!v.line.all Text.isSpace) = true := by
  obtain ⟨rest, hrest⟩ := line_eq_cons v
  rw [hrest, List.all_cons]
  rfl

variable [LawfulPyFloat F]

/-- The line of a verdict is read back as the verdict. -/
theorem readLine_line (v : Verdict F) : readLine v.line = .ok v := by
  have hline : Json.loads (String.ofList v.line) = some (.obj (Json.sortFields v.asdict)) := by
    rw [Verdict.line, Json.loads_dumpsSpaced (Json.uniqueKeys_sortKeys _ (uniqueKeys_asdict v)),
      Json.sortKeys]
  simp only [readLine, hline, ofFields_asdict]

theorem line_not_boundary (v : Verdict F) : ∀ c ∈ v.line, isLineBoundary c = false :=
  Json.not_boundary_dumpsSpaced _

theorem splitLines_logText (verdicts : List (Verdict F)) (last : List Char) :
    splitLines (logText verdicts ++ last) = verdicts.map Verdict.line ++ splitLines last := by
  induction verdicts with
  | nil => rfl
  | cons v rest ih =>
      have hfirst : logText (v :: rest) ++ last = v.line ++ '\n' :: (logText rest ++ last) := by
        simp [logText]
      rw [hfirst, splitLines_concat (line_not_boundary v), ih, List.map_cons, List.cons_append]

theorem mapM_readLine_lines (verdicts : List (Verdict F)) :
    (verdicts.map Verdict.line).mapM readLine = .ok verdicts := by
  induction verdicts with
  | nil => rfl
  | cons v rest ih =>
      rw [List.map_cons, List.mapM_cons, readLine_line, ih]
      rfl

theorem readVerdicts_of_splitLines {file : List Char} {verdicts : List (Verdict F)}
    (h : splitLines file = verdicts.map Verdict.line) : readVerdicts file = .ok verdicts := by
  have hkept : (verdicts.map Verdict.line).filter (fun line => !line.all Text.isSpace)
      = verdicts.map Verdict.line := by
    apply List.filter_eq_self.mpr
    intro line hline
    obtain ⟨v, -, rfl⟩ := List.mem_map.mp hline
    exact line_not_blank v
  rw [readVerdicts, h, hkept, mapM_readLine_lines]

/-- A file of whole lines is read back. -/
theorem readVerdicts_logText (verdicts : List (Verdict F)) :
    readVerdicts (logText verdicts) = .ok verdicts := by
  apply readVerdicts_of_splitLines
  have h := splitLines_logText verdicts []
  rwa [List.append_nil, splitLines, List.append_nil] at h

/-- So is one whose last newline was not written. -/
theorem readVerdicts_logText_line (verdicts : List (Verdict F)) (v : Verdict F) :
    readVerdicts (logText verdicts ++ v.line) = .ok (verdicts ++ [v]) := by
  apply readVerdicts_of_splitLines
  rw [splitLines_logText, splitLines_last (line_not_boundary v) (line_ne_nil v), List.map_append,
    List.map_singleton]

end

/-! ## The questions left -/

/-- The body of the loop of `latest_verdicts`. -/
def addLatest (latest : OrderedDict CacheKey (Verdict F)) (v : Verdict F) :
    OrderedDict CacheKey (Verdict F) :=
  let cacheKey := verdictCacheKey v.variant v.key v.model
  if v.promptVersion = PROMPT_VERSION ∧
      (latest.get? cacheKey).all (fun old => old.status ≠ STATUS_OK) = true then
    latest.set cacheKey v
  else latest

def latestVerdicts (verdicts : List (Verdict F)) : OrderedDict CacheKey (Verdict F) :=
  verdicts.foldl addLatest .empty

/-- `done` of `run_verdicts` -/
def doneKeys (verdicts : List (Verdict F)) : List CacheKey :=
  ((latestVerdicts verdicts).items.filter fun kv => kv.2.status = STATUS_OK).map Prod.fst

theorem latestVerdicts_concat (verdicts : List (Verdict F)) (v : Verdict F) :
    latestVerdicts (verdicts ++ [v]) = addLatest (latestVerdicts verdicts) v := by
  rw [latestVerdicts, List.foldl_append]
  rfl

/-- What the dictionary holds under a key is a verdict of the list on that key. -/
theorem mem_of_get?_latestVerdicts {verdicts : List (Verdict F)} {cacheKey : CacheKey}
    {v : Verdict F} (h : (latestVerdicts verdicts).get? cacheKey = some v) :
    v ∈ verdicts ∧ v.promptVersion = PROMPT_VERSION ∧
      verdictCacheKey v.variant v.key v.model = cacheKey := by
  induction verdicts using List.reverseRecOn with
  | nil => cases h
  | append_singleton verdicts last ih =>
      rw [latestVerdicts_concat, addLatest] at h
      split at h
      · rename_i hnew
        rw [OrderedDict.get?_set] at h
        split at h
        · rename_i hkey
          cases h
          exact ⟨List.mem_append_right _ (List.mem_singleton_self v), hnew.1, hkey⟩
        · exact (ih h).imp_left (List.mem_append_left _)
      · exact (ih h).imp_left (List.mem_append_left _)

/-- A success is never replaced by an error. -/
theorem exists_ok_latestVerdicts {verdicts : List (Verdict F)} {cacheKey : CacheKey}
    {v : Verdict F} (hv : v ∈ verdicts) (h : v.Answers cacheKey) :
    ∃ w, (latestVerdicts verdicts).get? cacheKey = some w ∧ w.status = STATUS_OK := by
  obtain ⟨hok, hversion, rfl⟩ := h
  induction verdicts using List.reverseRecOn with
  | nil => cases hv
  | append_singleton verdicts last ih =>
      rw [latestVerdicts_concat, addLatest]
      rcases List.mem_append.mp hv with hold | hlast
      · obtain ⟨w, hw, hwok⟩ := ih hold
        split
        · rename_i hnew
          rw [OrderedDict.get?_set]
          split
          · rename_i hkey
            -- the entry under this key is a success, so it was not replaced
            rw [hkey, hw] at hnew
            simp [hwok] at hnew
          · exact ⟨w, hw, hwok⟩
        · exact ⟨w, hw, hwok⟩
      · obtain rfl := List.mem_singleton.mp hlast
        split
        · rw [OrderedDict.get?_set, if_pos rfl]
          exact ⟨v, rfl, hok⟩
        · rename_i hold
          rw [not_and, Bool.not_eq_true, Option.all_eq_false] at hold
          obtain ⟨w, hw, hwok⟩ := hold hversion
          exact ⟨w, hw, by simpa using hwok⟩

/-- Done are the questions with a success in the file. -/
theorem mem_doneKeys_iff {verdicts : List (Verdict F)} {cacheKey : CacheKey} :
    cacheKey ∈ doneKeys verdicts ↔ ∃ v ∈ verdicts, v.Answers cacheKey := by
  have hmem : cacheKey ∈ doneKeys verdicts ↔
      ∃ w, (latestVerdicts verdicts).get? cacheKey = some w ∧ w.status = STATUS_OK := by
    simp [doneKeys, OrderedDict.get?_eq_some]
  rw [hmem]
  constructor
  · rintro ⟨w, hw, hok⟩
    obtain ⟨hin, hversion, hkey⟩ := mem_of_get?_latestVerdicts hw
    exact ⟨w, hin, hok, hversion, hkey⟩
  · rintro ⟨v, hv, h⟩
    exact exists_ok_latestVerdicts hv h

end BrandSniper.Cfo
