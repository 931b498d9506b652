import BrandSniper.Kit.Json
import BrandSniper.Kit.KeyedHashes
import BrandSniper.Kit.Runs
import BrandSniper.Kit.Text
import BrandSniper.Listener.EdgeCache

/-!
# Loading a baseline build

`store_build` of `apps/listener/baseline_loader.py`, one Redis command at a
time. A load replaces the venue's two tables, each by a rename of a staging
hash, and then records the build in the meta hash.

`issue_spec` says what one command of a load does, and what it leaves alone.
The first use of it is several loads at once: the three hashes end up with one
build exactly when the loads that were the last to write them agree
(`loadsConverge_iff`).
-/

namespace BrandSniper.BaselineStore

open Kit

/-! ## Builds -/

/-- A hash value: a text, or the text `json.dumps` writes of a value. -/
inductive HashValue (F : Type)
  | text (s : String)
  | json (j : Json F)

/-- A build as the backend gives it for its ID. The sticker prices are whole numbers, as
`int(price)` makes them. -/
structure Document (F : Type) where
  builtAt : String
  baselines : OrderedDict String (Json F)
  stickerPrices : OrderedDict String Int

inductive Table
  | baselines
  | stickerPrices
  deriving DecidableEq

/-- The three hashes of a venue. -/
inductive Part
  | table (t : Table)
  | «meta»
  deriving DecidableEq

def edgeBaselineMetaKey (venue : String) : String := "baseline_meta:" ++ venue

/-- What the loads of a venue have to do with: the backend's builds, and the `uuid4` each load
draws for each table. No two loads draw the same. -/
structure Setting (F : Type) where
  venue : String
  builds : Int → Document F
  uuid : Nat → Table → String
  uuid_inj : ∀ t i j, uuid i t = uuid j t → i = j

variable {F : Type}

namespace Setting

def key (S : Setting F) : Part → String
  | .table .baselines => edgeBaselinesKey S.venue
  | .table .stickerPrices => edgeStickerPricesKey S.venue
  | .meta => edgeBaselineMetaKey S.venue

/-- `f"{key}:staging:{uuid.uuid4().hex}"` -/
def stagingKey (S : Setting F) (i : Nat) (t : Table) : String :=
  S.key (.table t) ++ ":staging:" ++ S.uuid i t

/-- The fields a load of the build writes. -/
def mapping (S : Setting F) (buildId : Int) : Part → OrderedDict String (HashValue F)
  | .table .baselines => (S.builds buildId).baselines.filterMap fun j => some (.json j)
  | .table .stickerPrices =>
      (S.builds buildId).stickerPrices.filterMap fun price => some (.text (toString price))
  | .meta =>
      ((OrderedDict.empty.set "build_id" (.text (toString buildId))).set "built_at"
        (.text (S.builds buildId).builtAt)).set "item_count"
        (.text (toString (S.builds buildId).baselines.len))

end Setting

/-! ## One load -/

/-- The commands of `_replace_hash`: a table without fields is deleted, any other is filled
under its staging key and renamed. -/
inductive Step
  | delete
  | clear
  | fill
  | publish
  deriving DecidableEq

/-- The command a load issues next. -/
inductive Phase
  | replacing (t : Table) (next : Step)
  | recording
  | done
  | raised
  deriving DecidableEq

/-- The hash of the venue that the next command replaces. -/
def Phase.writes : Phase → Option Part
  | .replacing t .delete => some (.table t)
  | .replacing t .publish => some (.table t)
  | .recording => some .meta
  | _ => none

/-- The hashes of the venue that are replaced already. -/
def Phase.past : Phase → Part → Bool
  | .replacing .stickerPrices _, .table .baselines => true
  | .recording, .table _ => true
  | .done, _ => true
  | _, _ => false

namespace Setting

/-- `if not mapping` -/
def enter (S : Setting F) (buildId : Int) (t : Table) : Phase :=
  if (S.mapping buildId (.table t)).len = 0 then .replacing t .delete else .replacing t .clear

def after (S : Setting F) (buildId : Int) : Table → Phase
  | .baselines => S.enter buildId .stickerPrices
  | .stickerPrices => .recording

def next (S : Setting F) (buildId : Int) : Phase → Phase
  | .replacing t .clear => .replacing t .fill
  | .replacing t .fill => .replacing t .publish
  | .replacing t .delete => S.after buildId t
  | .replacing t .publish => S.after buildId t
  | .recording => .done
  | .done => .done
  | .raised => .raised

/-- The next command of the `i`th load. -/
def command (S : Setting F) (i : Nat) (buildId : Int) : Phase → Option (HashCommand (HashValue F))
  | .replacing t .delete => some (.del (S.key (.table t)))
  | .replacing t .clear => some (.del (S.stagingKey i t))
  | .replacing t .fill => some (.hset (S.stagingKey i t) (S.mapping buildId (.table t)))
  | .replacing t .publish => some (.rename (S.stagingKey i t) (S.key (.table t)))
  | .recording => some (.hset (S.key .meta) (S.mapping buildId .meta))
  | .done => none
  | .raised => none

/-- One command of the `i`th load. An error reply raises. -/
def issue (S : Setting F) (i : Nat) (buildId : Int) (r : HashStore (HashValue F)) (phase : Phase) :
    Option (HashStore (HashValue F) × Phase) :=
  (S.command i buildId phase).map fun command =>
    match r.run command with
    | some r' => (r', S.next buildId phase)
    | none => (r, .raised)

/-! ### Keys -/

/-- The letter that tells the three kinds of keys apart. -/
def kindLetter : Part → Char
  | .table .baselines => 's'
  | .table .stickerPrices => 'p'
  | .meta => '_'

theorem kindLetter_inj {p q : Part} (h : kindLetter p = kindLetter q) : p = q := by
  rcases p with (_ | _) | _ <;> rcases q with (_ | _) | _ <;> first | rfl | exact absurd h (by decide)

theorem getElem_append {front : String} {c : Char} (h : front.toList[8]? = some c)
    (back : String) : (front ++ back).toList[8]? = some c := by
  obtain ⟨hlt, -⟩ := List.getElem?_eq_some_iff.mp h
  rw [String.toList_append, List.getElem?_append_left hlt, h]

theorem letter_key (S : Setting F) (p : Part) : (S.key p).toList[8]? = some (kindLetter p) := by
  rcases p with (_ | _) | _
  · exact getElem_append rfl S.venue
  · exact getElem_append rfl S.venue
  · exact getElem_append rfl S.venue

theorem key_inj {S : Setting F} {p q : Part} (h : S.key p = S.key q) : p = q := by
  have hletter := letter_key S p
  rw [h, letter_key S q] at hletter
  exact kindLetter_inj (Option.some_inj.mp hletter).symm

theorem letter_stagingKey (S : Setting F) (i : Nat) (t : Table) :
    (S.stagingKey i t).toList[8]? = some (kindLetter (.table t)) :=
  getElem_append (getElem_append (letter_key S (.table t)) _) _

theorem stagingKey_ne_key (S : Setting F) (i : Nat) (t : Table) (p : Part) :
    S.stagingKey i t ≠ S.key p := by
  intro h
  have hletter := letter_stagingKey S i t
  rw [h, letter_key S p] at hletter
  obtain rfl := kindLetter_inj (Option.some_inj.mp hletter)
  -- a staging key is longer than the key it stands for
  have hlength := congrArg String.length h
  rw [stagingKey, String.length_append, String.length_append] at hlength
  have hword : ":staging:".length = 9 := rfl
  omega

theorem stagingKey_inj {S : Setting F} {i j : Nat} {t u : Table}
    (h : S.stagingKey i t = S.stagingKey j u) : i = j ∧ t = u := by
  have hletter := letter_stagingKey S i t
  rw [h, letter_stagingKey S j u] at hletter
  obtain rfl : u = t := by
    have := kindLetter_inj (Option.some_inj.mp hletter)
    injection this
  refine ⟨S.uuid_inj u i j ?_, rfl⟩
  have hchars := congrArg String.toList h
  simp only [stagingKey, String.toList_append] at hchars
  exact String.toList_inj.mp (List.append_cancel_left hchars)

/-! ### What a command does -/

/-- What is known of the `i`th load's staging key when its next command is due. -/
def Staged (S : Setting F) (r : HashStore (HashValue F)) (i : Nat) (buildId : Int) : Phase → Prop
  | .replacing t .delete => (S.mapping buildId (.table t)).len = 0
  | .replacing t .fill => r (S.stagingKey i t) = none
  | .replacing t .publish => r (S.stagingKey i t) = some (S.mapping buildId (.table t)).get?
  | .raised => False
  | _ => True

/-- A hash of the venue is the build's: a table has its fields and no others, the meta hash
names it. -/
def Holds (S : Setting F) (r : HashStore (HashValue F)) (buildId : Int) : Part → Prop
  | .table t => r.hgetall (S.key (.table t)) = (S.mapping buildId (.table t)).get?
  | .meta => ∀ field value, (S.mapping buildId .meta).get? field = some value →
      r.hgetall (S.key .meta) field = some value

theorem mapping_meta_buildId (S : Setting F) (buildId : Int) :
    (S.mapping buildId .meta).get? "build_id" = some (.text (toString buildId)) := by
  rw [mapping, OrderedDict.get?_set, if_neg (by decide), OrderedDict.get?_set,
    if_neg (by decide), OrderedDict.get?_set, if_pos rfl]

theorem Holds.congr {S : Setting F} {r r' : HashStore (HashValue F)} {buildId : Int} {p : Part}
    (h : S.Holds r buildId p) (hkey : r' (S.key p) = r (S.key p)) : S.Holds r' buildId p := by
  have hget := HashStore.hgetall_congr hkey
  cases p with
  | table t => exact hget.trans h
  | «meta» =>
      intro field value hfield
      rw [hget]
      exact h field value hfield

theorem Staged.congr {S : Setting F} {r r' : HashStore (HashValue F)} {i : Nat} {buildId : Int}
    {phase : Phase} (h : S.Staged r i buildId phase)
    (hkey : ∀ t, r' (S.stagingKey i t) = r (S.stagingKey i t)) : S.Staged r' i buildId phase := by
  rcases phase with ⟨t, _ | _ | _ | _⟩ | _ | _ | _
  · exact h
  · trivial
  · exact (hkey t).trans h
  · exact (hkey t).trans h
  · trivial
  · trivial
  · exact h

theorem staged_enter (S : Setting F) (r : HashStore (HashValue F)) (i : Nat) (buildId : Int)
    (t : Table) : S.Staged r i buildId (S.enter buildId t) := by
  rw [enter]
  split
  · next hempty => exact hempty
  · trivial

theorem staged_after (S : Setting F) (r : HashStore (HashValue F)) (i : Nat) (buildId : Int)
    (t : Table) : S.Staged r i buildId (S.after buildId t) := by
  cases t with
  | baselines => exact staged_enter S r i buildId .stickerPrices
  | stickerPrices => trivial

theorem get?_of_len_eq_zero {β : Type} {d : OrderedDict String β} (h : d.len = 0) :
    d.get? = fun _ => none := by
  funext key
  obtain ⟨items, hnodup⟩ := d
  obtain rfl := List.length_eq_zero_iff.mp h
  rfl

/-- What a command of the `i`th load does to the staging key, to the hash it writes and to all
the other keys. -/
theorem issue_spec {S : Setting F} {i : Nat} {buildId : Int} {r r' : HashStore (HashValue F)}
    {phase phase' : Phase} (hstaged : S.Staged r i buildId phase)
    (h : S.issue i buildId r phase = some (r', phase')) :
    phase' = S.next buildId phase ∧ S.Staged r' i buildId phase' ∧
      (∀ p, phase.writes = some p → S.Holds r' buildId p) ∧
      (∀ p, phase.writes ≠ some p → r' (S.key p) = r (S.key p)) ∧
      ∀ j t, j ≠ i → r' (S.stagingKey j t) = r (S.stagingKey j t) := by
  obtain ⟨command, hcommand, heq⟩ := Option.map_eq_some_iff.mp h
  have hother : ∀ j t u, j ≠ i → S.stagingKey j t ≠ S.stagingKey i u := fun j t u hji hkeys =>
    hji (stagingKey_inj hkeys).1
  have hlive : ∀ p q : Part, some q ≠ some p → S.key p ≠ S.key q := fun p q hpq hkeys =>
    hpq (congrArg some (key_inj hkeys).symm)
  -- the command is answered, and every key it does not name is left alone
  have hrun : ∀ r₁, r.run command = some r₁ → r' = r₁ ∧ phase' = S.next buildId phase := by
    intro r₁ hr₁
    rw [hr₁] at heq
    exact ⟨(congrArg Prod.fst heq).symm, (congrArg Prod.snd heq).symm⟩
  cases phase with
  | replacing t next =>
      cases next with
      | delete =>
          obtain rfl := Option.some_inj.mp hcommand
          obtain ⟨rfl, rfl⟩ := hrun _ rfl
          have hr : r.run (.del (S.key (.table t))) = some _ := rfl
          refine ⟨rfl, staged_after S _ i buildId t, ?_, ?_, ?_⟩
          · intro p hp
            obtain rfl := Option.some_inj.mp hp
            show HashStore.hgetall _ _ = _
            rw [HashStore.hgetall_of_none (HashStore.del_self hr), get?_of_len_eq_zero hstaged]
          · intro p hp
            exact HashStore.run_of_not_touched hr (by simpa using hlive p _ hp)
          · intro j u hji
            exact HashStore.run_of_not_touched hr (by simpa using stagingKey_ne_key S j u _)
      | clear =>
          obtain rfl := Option.some_inj.mp hcommand
          obtain ⟨rfl, rfl⟩ := hrun _ rfl
          have hr : r.run (.del (S.stagingKey i t)) = some _ := rfl
          refine ⟨rfl, HashStore.del_self hr, ?_, ?_, ?_⟩
          · intro p hp
            cases hp
          · intro p _
            exact HashStore.run_of_not_touched hr (by simpa using (stagingKey_ne_key S i t p).symm)
          · intro j u hji
            exact HashStore.run_of_not_touched hr (by simpa using hother j u t hji)
      | fill =>
          obtain rfl := Option.some_inj.mp hcommand
          obtain ⟨rfl, rfl⟩ := hrun _ rfl
          have hr : r.run (.hset (S.stagingKey i t) (S.mapping buildId (.table t))) = some _ := rfl
          refine ⟨rfl, HashStore.hset_of_none hr hstaged, ?_, ?_, ?_⟩
          · intro p hp
            cases hp
          · intro p _
            exact HashStore.run_of_not_touched hr (by simpa using (stagingKey_ne_key S i t p).symm)
          · intro j u hji
            exact HashStore.run_of_not_touched hr (by simpa using hother j u t hji)
      | publish =>
          obtain rfl := Option.some_inj.mp hcommand
          obtain ⟨r₁, hr⟩ : ∃ r₁, r.run (.rename (S.stagingKey i t) (S.key (.table t))) = some r₁ := by
            rw [HashStore.run, show r (S.stagingKey i t) = _ from hstaged, Option.map_some]
            exact ⟨_, rfl⟩
          obtain ⟨rfl, rfl⟩ := hrun _ hr
          refine ⟨rfl, staged_after S _ i buildId t, ?_, ?_, ?_⟩
          · intro p hp
            obtain rfl := Option.some_inj.mp hp
            exact HashStore.hgetall_of_some (HashStore.rename_self hr hstaged)
          · intro p hp
            refine HashStore.run_of_not_touched hr ?_
            simpa using ⟨(stagingKey_ne_key S i t p).symm, hlive p _ hp⟩
          · intro j u hji
            refine HashStore.run_of_not_touched hr ?_
            simpa using ⟨hother j u t hji, stagingKey_ne_key S j u _⟩
  | recording =>
      obtain rfl := Option.some_inj.mp hcommand
      obtain ⟨rfl, rfl⟩ := hrun _ rfl
      have hr : r.run (.hset (S.key .meta) (S.mapping buildId .meta)) = some _ := rfl
      refine ⟨rfl, trivial, ?_, ?_, ?_⟩
      · intro p hp
        obtain rfl := Option.some_inj.mp hp
        intro field value hfield
        exact HashStore.hgetall_hset hr hfield
      · intro p hp
        exact HashStore.run_of_not_touched hr (by simpa using hlive p _ hp)
      · intro j u hji
        exact HashStore.run_of_not_touched hr (by simpa using stagingKey_ne_key S j u _)
  | done => cases hcommand
  | raised => cases hcommand

end Setting

/-! ## Several loads at once -/

/-- A `store_build` call: the build it loads, and where it is. -/
structure Load where
  buildId : Int
  phase : Phase
  deriving DecidableEq

/-- The edge Redis and all the loads so far. `last` remembers which build's load was the last
to write each hash. -/
structure System (F : Type) where
  redis : HashStore (HashValue F)
  loads : List Load
  last : Part → Option Int

inductive Event
  | start (buildId : Int)
  | command (i : Nat)

/-- The writers after a command that writes `written`, if any, for the build. -/
def noteWriter (last : Part → Option Int) (written : Option Part) (buildId : Int) :
    Part → Option Int :=
  fun p => if written = some p then some buildId else last p

namespace Setting

/-- A load starts, or the `i`th one issues its next command. -/
def step (S : Setting F) (s : System F) : Event → Option (System F)
  | .start buildId =>
      some { s with loads := s.loads ++ [⟨buildId, S.enter buildId .baselines⟩] }
  | .command i =>
      s.loads[i]?.bind fun load =>
        (S.issue i load.buildId s.redis load.phase).map fun next =>
          { redis := next.1
            loads := s.loads.set i ⟨load.buildId, next.2⟩
            last := noteWriter s.last load.phase.writes load.buildId }

def start (r : HashStore (HashValue F)) : System F := ⟨r, [], fun _ => none⟩

/-- The three hashes all belong to one build that was loaded. -/
def Converged (S : Setting F) (s : System F) : Prop :=
  s.loads ≠ [] → ∃ load ∈ s.loads, ∀ p, S.Holds s.redis load.buildId p

/-- The loads that wrote the tables last have the tables of the build that was recorded last. -/
def LastWritersAgree (S : Setting F) (s : System F) : Prop :=
  s.loads ≠ [] → ∃ buildId, s.last .meta = some buildId ∧ ∀ t, ∃ buildId',
    s.last (.table t) = some buildId' ∧
      (S.mapping buildId' (.table t)).get? = (S.mapping buildId (.table t)).get?

/-- The invariant of every run of loads. -/
structure Inv (S : Setting F) (s : System F) : Prop where
  staged : ∀ i load, s.loads[i]? = some load → S.Staged s.redis i load.buildId load.phase
  holds : ∀ p buildId, s.last p = some buildId →
    S.Holds s.redis buildId p ∧ ∃ load ∈ s.loads, load.buildId = buildId
  past : ∀ load ∈ s.loads, ∀ p, load.phase.past p = true → (s.last p).isSome

theorem past_enter (S : Setting F) (buildId : Int) (p : Part) :
    (S.enter buildId .baselines).past p = false := by
  rw [enter]
  split <;> rcases p with (_ | _) | _ <;> rfl

/-- What is replaced after a command was replaced before it or by it. -/
theorem past_next {S : Setting F} {buildId : Int} {phase : Phase} {p : Part}
    (h : (S.next buildId phase).past p = true) : phase.past p = true ∨ phase.writes = some p := by
  have hsecond : ∀ q, (S.enter buildId .stickerPrices).past q = true → q = .table .baselines := by
    intro q hq
    rw [enter] at hq
    split at hq <;> rcases q with (_ | _) | _ <;> first | rfl | exact absurd hq (by decide)
  rcases phase with ⟨_ | _, _ | _ | _ | _⟩ | _ | _ | _ <;>
    first
      | exact .inl h
      | (rw [hsecond p h]; exact .inr rfl)
      | (rcases p with (_ | _) | _ <;> first | exact .inl rfl | exact .inr rfl | cases h)

theorem inv_start (S : Setting F) (r : HashStore (HashValue F)) : S.Inv (start r) := by
  refine ⟨?_, ?_, ?_⟩
  · intro i load h
    cases h
  · intro p buildId h
    cases h
  · intro load h
    cases h

theorem inv_step (S : Setting F) (s : System F) (e : Event) (s' : System F) (hinv : S.Inv s)
    (h : S.step s e = some s') : S.Inv s' := by
  obtain ⟨hstaged, hholds, hpast⟩ := hinv
  cases e with
  | start buildId =>
      obtain rfl := Option.some_inj.mp h
      refine ⟨?_, ?_, ?_⟩
      · intro i load hload
        rw [List.getElem?_append] at hload
        split at hload
        · exact hstaged i load hload
        · rw [List.mem_singleton.mp (List.mem_of_getElem? hload)]
          exact staged_enter S s.redis i buildId .baselines
      · intro p id hlast
        obtain ⟨hp, load, hload, hid⟩ := hholds p id hlast
        exact ⟨hp, load, List.mem_append_left _ hload, hid⟩
      · intro load hload p hp
        rcases List.mem_append.mp hload with hold | hnew
        · exact hpast load hold p hp
        · rw [List.mem_singleton.mp hnew, past_enter] at hp
          cases hp
  | command i =>
      obtain ⟨load, hload, hissue⟩ := Option.bind_eq_some_iff.mp h
      obtain ⟨⟨r', phase'⟩, hnext, rfl⟩ := Option.map_eq_some_iff.mp hissue
      obtain ⟨hphase, hown, hwritten, hkept, hothers⟩ := issue_spec (hstaged i load hload) hnext
      have hmem : load ∈ s.loads := List.mem_of_getElem? hload
      have hlt : i < s.loads.length := (List.getElem?_eq_some_iff.mp hload).1
      have hmoved : (⟨load.buildId, phase'⟩ : Load) ∈ s.loads.set i ⟨load.buildId, phase'⟩ :=
        List.mem_set hlt _
      -- a load that was there is there, with its build
      have hstill : ∀ id, (∃ l ∈ s.loads, l.buildId = id) →
          ∃ l ∈ s.loads.set i ⟨load.buildId, phase'⟩, l.buildId = id := by
        rintro id ⟨l, hl, hid⟩
        obtain ⟨j, hj⟩ := List.mem_iff_getElem?.mp hl
        by_cases hij : i = j
        · subst hij
          rw [hload] at hj
          obtain rfl := Option.some_inj.mp hj
          exact ⟨_, hmoved, hid⟩
        · refine ⟨l, List.mem_of_getElem? (i := j) ?_, hid⟩
          rw [List.getElem?_set, if_neg hij, hj]
      refine ⟨?_, ?_, ?_⟩
      · intro j l hl
        rw [List.getElem?_set] at hl
        split at hl
        · next hij =>
            obtain rfl := Option.some_inj.mp hl
            exact hij ▸ hown
        · next hij => exact (hstaged j l hl).congr fun t => hothers j t (Ne.symm hij)
      · intro p id hlast
        have hlast : noteWriter s.last load.phase.writes load.buildId p = some id := hlast
        simp only [noteWriter] at hlast
        split at hlast
        · next hp =>
            obtain rfl := Option.some_inj.mp hlast
            exact ⟨hwritten p hp, _, hmoved, rfl⟩
        · next hp =>
            obtain ⟨hold, hloaded⟩ := hholds p id hlast
            exact ⟨hold.congr (hkept p hp), hstill id hloaded⟩
      · intro l hl p hp
        have hpast' : load.phase.writes = some p ∨ (s.last p).isSome := by
          rcases List.mem_or_eq_of_mem_set hl with hold | rfl
          · exact .inr (hpast l hold p hp)
          · rw [show phase' = _ from hphase] at hp
            rcases past_next hp with hbefore | hnow
            · exact .inr (hpast load hmem p hbefore)
            · exact .inl hnow
        show (noteWriter s.last load.phase.writes load.buildId p).isSome
        simp only [noteWriter]
        split
        · rfl
        · next hp => exact hpast'.resolve_left hp

/-- After loads that are all done, every hash has a last writer. -/
theorem exists_last {S : Setting F} {s : System F} (hinv : S.Inv s)
    (hdone : ∀ load ∈ s.loads, load.phase = .done) (hne : s.loads ≠ []) (p : Part) :
    ∃ buildId, s.last p = some buildId := by
  obtain ⟨load, rest, hloads⟩ := List.exists_cons_of_ne_nil hne
  have hmem : load ∈ s.loads := hloads ▸ List.mem_cons_self
  apply Option.isSome_iff_exists.mp
  apply hinv.past load hmem p
  rw [hdone load hmem]
  rfl

/-- The meta hash names one build. -/
theorem holds_meta_inj {S : Setting F} {r : HashStore (HashValue F)} {a b : Int}
    (ha : S.Holds r a .meta) (hb : S.Holds r b .meta) : a = b := by
  have hread := ha _ _ (mapping_meta_buildId S a)
  rw [hb _ _ (mapping_meta_buildId S b)] at hread
  injection hread with hvalue
  injection hvalue with htext
  exact (Text.intText_inj (congrArg String.toList htext)).symm

theorem converged_iff {S : Setting F} {s : System F} (hinv : S.Inv s)
    (hdone : ∀ load ∈ s.loads, load.phase = .done) : S.Converged s ↔ S.LastWritersAgree s := by
  refine imp_congr_right fun hne => ?_
  obtain ⟨metaId, hmeta⟩ := exists_last hinv hdone hne .meta
  obtain ⟨hrecorded, recorder, hrecorder, hid⟩ := hinv.holds _ _ hmeta
  constructor
  · rintro ⟨load, hload, hparts⟩
    have hsame : load.buildId = metaId := holds_meta_inj (hparts .meta) hrecorded
    refine ⟨metaId, hmeta, fun t => ?_⟩
    obtain ⟨tableId, htable⟩ := exists_last hinv hdone hne (.table t)
    refine ⟨tableId, htable, ?_⟩
    have hwritten := (hinv.holds _ _ htable).1
    have hheld := hparts (.table t)
    rw [hsame] at hheld
    exact hwritten.symm.trans hheld
  · rintro ⟨buildId, hbuild, htables⟩
    rw [hmeta] at hbuild
    obtain rfl := Option.some_inj.mp hbuild
    refine ⟨recorder, hrecorder, fun p => ?_⟩
    rw [hid]
    cases p with
    | «meta» => exact hrecorded
    | table t =>
        obtain ⟨tableId, htable, hequal⟩ := htables t
        exact ((hinv.holds _ _ htable).1 : _ = _).trans hequal

/-- After any number of loads, interleaved in any way, that are all done, the three hashes
belong to one build if and only if the loads that were the last to write the tables have the
tables of the build that was recorded last. -/
theorem loadsConverge_iff (S : Setting F) {r : HashStore (HashValue F)} {events : List Event}
    {s : System F} (h : runFrom S.step (start r) events = some s)
    (hdone : ∀ load ∈ s.loads, load.phase = .done) : S.Converged s ↔ S.LastWritersAgree s :=
  converged_iff (runFrom_inv S.Inv (inv_step S) (inv_start S r) h) hdone

end Setting

/-! ### An old build under a new one's meta -/

/-- Build `n` has one item at `n` cents and one sticker at `n` cents. -/
def countingSetting : Setting Unit where
  venue := "skinport"
  builds n :=
    { builtAt := "2026-01-01T00:00:00"
      baselines := OrderedDict.empty.set "AK-47" (.int n)
      stickerPrices := OrderedDict.empty.set "Crown" n }
  uuid i _ := toString i
  uuid_inj := fun _ _ _ h => Text.natText_inj (congrArg String.toList h)

/-- The load of build 2 has replaced the baselines when the load of build 1 does all it has to,
and then it goes on. -/
def slowOlderLoad : List Event :=
  [.start 1, .start 2] ++ List.replicate 3 (.command 1) ++ List.replicate 7 (.command 0) ++
    List.replicate 4 (.command 1)

theorem slowOlderLoad_run : ∃ s, runFrom countingSetting.step (Setting.start fun _ => none)
    slowOlderLoad = some s ∧ (∀ load ∈ s.loads, load.phase = .done) ∧ s.loads ≠ [] ∧
      s.last .meta = some 2 ∧ s.last (.table .baselines) = some 1 := by
  have hrun : (runFrom countingSetting.step (Setting.start fun _ => none) slowOlderLoad).map
      (fun s => (s.loads, s.last .meta, s.last (.table .baselines))) =
        some ([⟨1, .done⟩, ⟨2, .done⟩], some 2, some 1) := by decide +kernel
  obtain ⟨s, hs, hstate⟩ := Option.map_eq_some_iff.mp hrun
  simp only [Prod.mk.injEq] at hstate
  refine ⟨s, hs, ?_, ?_, hstate.2⟩
  · rw [hstate.1]
    decide
  · rw [hstate.1]
    exact List.cons_ne_nil _ _

theorem loadsConverge_iff_slowOlderLoad :
    ∃ s, runFrom countingSetting.step (Setting.start fun _ => none) slowOlderLoad = some s ∧
      (countingSetting.Converged s ↔ countingSetting.LastWritersAgree s) := by
  obtain ⟨s, hs, hdone, -⟩ := slowOlderLoad_run
  exact ⟨s, hs, Setting.loadsConverge_iff countingSetting hs hdone⟩

/-- Build 1's baselines stay under build 2's meta. -/
theorem not_loadsConverge_slowOlderLoad :
    ∃ s, runFrom countingSetting.step (Setting.start fun _ => none) slowOlderLoad = some s ∧
      (∀ load ∈ s.loads, load.phase = .done) ∧ ¬ countingSetting.Converged s := by
  obtain ⟨s, hs, hdone, hne, hmeta, hbaselines⟩ := slowOlderLoad_run
  refine ⟨s, hs, hdone, fun hconverged => ?_⟩
  have hinv := runFrom_inv countingSetting.Inv (Setting.inv_step countingSetting)
    (Setting.inv_start countingSetting _) hs
  obtain ⟨buildId, hrecorded, htables⟩ := (Setting.converged_iff hinv hdone).mp hconverged hne
  obtain ⟨tableId, htable, hequal⟩ := htables .baselines
  rw [hmeta] at hrecorded
  rw [hbaselines] at htable
  obtain rfl := Option.some_inj.mp hrecorded
  obtain rfl := Option.some_inj.mp htable
  have hprice := congrFun hequal "AK-47"
  injection hprice with hvalue
  injection hvalue with hjson
  injection hjson with hcents
  exact absurd hcents (by decide)

end BrandSniper.BaselineStore
