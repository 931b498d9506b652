import BrandSniper.Kit.JsonObjects
import BrandSniper.Listener.BaselineStore
import BrandSniper.Listener.PriceWindow

/-!
# Refreshing the resale prices

`ResalePrices.refresh` of `apps/listener/scrapers/listing_filter.py` against
one baseline loader. The reader takes the build ID from the meta hash and then
the two tables, by three commands, while the loader replaces the same three
hashes.

A refresh may read tables of two builds. That does no harm: the tables it
reads are wrong only when a newer build is on its way, and when that one is
recorded the IDs differ and the reader reads again (`heldTables_of_run`).
-/

namespace BrandSniper.ResaleRefresh

open Kit BaselineStore

variable {F : Type}

/-! ## The reader -/

/-- The `latest_price_cents` of a baseline document, when it is a whole number above 0. To
Python `True` is the number 1. -/
def latestPrice : Json F → Option Int
  | .obj fields =>
      match Json.getField fields "latest_price_cents" with
      | some (.int price) => if 0 < price then some price else none
      | some (.bool true) => some 1
      | _ => none
  | _ => none

/-- What the reader makes of a field of the baselines hash. -/
def readLatestPrice : HashValue F → Option Int
  | .json j => latestPrice j
  | .text _ => none

/-- What the reader makes of a field of the sticker hash. -/
def readStickerPrice : HashValue F → Option Int
  | .text s => intOfText? s.toList
  | .json _ => none

/-- What a `ResalePrices` holds. -/
structure Held where
  buildId : Option String
  latestPriceCents : String → Option Int
  stickerPricesCents : String → Option Int

def Held.new : Held := ⟨none, fun _ => none, fun _ => none⟩

/-- Where a refresh is: what it has read so far. -/
inductive Refresh (F : Type)
  | idle
  | readMeta (buildId : String)
  | readBaselines (buildId : String) (baselines : Fields (HashValue F))

/-- `meta.get("build_id")` -/
def metaBuildId (S : Setting F) (r : HashStore (HashValue F)) : Option String :=
  match r.hgetall (S.key .meta) "build_id" with
  | some (.text s) => some s
  | _ => none

/-- The next command of a refresh. -/
def readNext (S : Setting F) (r : HashStore (HashValue F)) (held : Held) :
    Refresh F → Held × Refresh F
  | .idle =>
      match metaBuildId S r with
      | none => (held, .idle)
      | some buildId =>
          if some buildId = held.buildId then (held, .idle) else (held, .readMeta buildId)
  | .readMeta buildId => (held, .readBaselines buildId (r.hgetall (S.key (.table .baselines))))
  | .readBaselines buildId baselines =>
      let stickerPrices := r.hgetall (S.key (.table .stickerPrices))
      (⟨some buildId, fun name => (baselines name).bind readLatestPrice,
        fun name => (stickerPrices name).bind readStickerPrice⟩, .idle)

/-! ## Reader and loader -/

/-- The edge Redis, the newest load and how many there were before it, and the reader. -/
structure System (F : Type) where
  redis : HashStore (HashValue F)
  earlier : Nat
  newest : Option Load
  held : Held
  reader : Refresh F

inductive Event
  /-- The loader starts to store a build that is not older than the last one. -/
  | start (buildId : Int)
  | command
  /-- The load fails, or its process stops. -/
  | abort
  | read
  /-- A command of the reader raises. -/
  | readFails

/-- The load is over. -/
def ended (load : Load) : Bool := load.phase == .done || load.phase == .raised

def step (S : Setting F) (s : System F) : Event → Option (System F)
  | .start buildId =>
      match s.newest with
      | none => some { s with newest := some ⟨buildId, S.enter buildId .baselines⟩ }
      | some load =>
          if ended load ∧ load.buildId ≤ buildId then
            some { s with
              earlier := s.earlier + 1
              newest := some ⟨buildId, S.enter buildId .baselines⟩ }
          else none
  | .command =>
      s.newest.bind fun load =>
        (S.issue s.earlier load.buildId s.redis load.phase).map fun next =>
          { s with redis := next.1, newest := some ⟨load.buildId, next.2⟩ }
  | .abort =>
      s.newest.bind fun load =>
        if ended load then none else some { s with newest := some ⟨load.buildId, .raised⟩ }
  | .read =>
      let next := readNext S s.redis s.held s.reader
      some { s with held := next.1, reader := next.2 }
  | .readFails => some { s with reader := .idle }

/-- Nothing is loaded and nothing is held. -/
def start : System F := ⟨fun _ => none, 0, none, .new, .idle⟩

/-- What the reader should hold of a build. -/
def latestPrices (S : Setting F) (buildId : Int) (name : String) : Option Int :=
  ((S.builds buildId).baselines.get? name).bind latestPrice

def stickerPrices (S : Setting F) (buildId : Int) (name : String) : Option Int :=
  (S.builds buildId).stickerPrices.get? name

/-- The held tables are those of the build. -/
def Held.IsOf (S : Setting F) (held : Held) (buildId : Int) : Prop :=
  held.latestPriceCents = latestPrices S buildId ∧
    held.stickerPricesCents = stickerPrices S buildId

/-! ### Tables are read as they were written -/

theorem intOfText?_intText (z : Int) : intOfText? (toString z).toList = some z := by
  cases z with
  | ofNat n => exact intOfText?_natText n
  | negSucc n =>
      rw [Text.intText_negSucc, intOfText?, Text.natOfText?_natText]
      rfl

theorem readLatest_mapping (S : Setting F) (buildId : Int) :
    (fun name => ((S.mapping buildId (.table .baselines)).get? name).bind readLatestPrice) =
      latestPrices S buildId := by
  funext name
  rw [Setting.mapping, OrderedDict.get?_filterMap, latestPrices]
  cases (S.builds buildId).baselines.get? name <;> rfl

theorem readSticker_mapping (S : Setting F) (buildId : Int) :
    (fun name => ((S.mapping buildId (.table .stickerPrices)).get? name).bind readStickerPrice) =
      stickerPrices S buildId := by
  funext name
  rw [Setting.mapping, OrderedDict.get?_filterMap, stickerPrices]
  cases (S.builds buildId).stickerPrices.get? name with
  | none => rfl
  | some price => exact intOfText?_intText price

/-! ## The invariant -/

/-- The meta hash names the build. -/
def Recorded (S : Setting F) (r : HashStore (HashValue F)) (buildId : Int) : Prop :=
  metaBuildId S r = some (toString buildId)

/-- An ID that the reader has: of a build up to `newest`, and of that one only once it has been
recorded. What the reader has read under the ID is then the build's. -/
def Sound (S : Setting F) (r : HashStore (HashValue F)) (newest : Int) (text : String)
    (content : Prop) : Prop :=
  ∃ buildId ≤ newest, text = toString buildId ∧
    (buildId = newest → Recorded S r newest ∧ content)

def Held.Sound (S : Setting F) (r : HashStore (HashValue F)) (newest : Int) (held : Held) : Prop :=
  ∀ text, held.buildId = some text → ResaleRefresh.Sound S r newest text (held.IsOf S newest)

def Refresh.Sound (S : Setting F) (r : HashStore (HashValue F)) (newest : Int) :
    Refresh F → Prop
  | .idle => True
  | .readMeta text => ResaleRefresh.Sound S r newest text True
  | .readBaselines text baselines =>
      ResaleRefresh.Sound S r newest text
        (baselines = (S.mapping newest (.table .baselines)).get?)

/-- What holds once a load has started, for the newest one. -/
structure LoadInv (S : Setting F) (s : System F) (load : Load) : Prop where
  staged : load.phase ≠ .raised → S.Staged s.redis s.earlier load.buildId load.phase
  recordedUpTo : ∀ text, metaBuildId S s.redis = some text →
    ResaleRefresh.Sound S s.redis load.buildId text True
  tablesOfRecorded : Recorded S s.redis load.buildId →
    ∀ t, S.Holds s.redis load.buildId (.table t)
  written : ∀ p, load.phase.past p = true → S.Holds s.redis load.buildId p
  held : s.held.Sound S s.redis load.buildId
  reader : s.reader.Sound S s.redis load.buildId

/-- Before the first load there is nothing to read. -/
structure EmptyInv (S : Setting F) (s : System F) : Prop where
  noMeta : metaBuildId S s.redis = none
  noneHeld : s.held.buildId = none
  idle : s.reader = .idle

def Inv (S : Setting F) (s : System F) : Prop :=
  match s.newest with
  | none => EmptyInv S s
  | some load => LoadInv S s load

theorem recorded_of_holds {S : Setting F} {r : HashStore (HashValue F)} {buildId : Int}
    (h : S.Holds r buildId .meta) : Recorded S r buildId := by
  rw [Recorded, metaBuildId, h _ _ (Setting.mapping_meta_buildId S buildId)]

theorem metaBuildId_congr {S : Setting F} {r r' : HashStore (HashValue F)}
    (h : r' (S.key .meta) = r (S.key .meta)) : metaBuildId S r' = metaBuildId S r := by
  rw [metaBuildId, metaBuildId, HashStore.hgetall_congr h]

/-- What the reader has stays sound as long as a recorded build stays recorded. -/
theorem Sound.mono {S : Setting F} {r r' : HashStore (HashValue F)} {newest : Int} {text : String}
    {content : Prop} (h : Sound S r newest text content)
    (hrecorded : Recorded S r newest → Recorded S r' newest) : Sound S r' newest text content := by
  obtain ⟨buildId, hle, htext, hnewest⟩ := h
  exact ⟨buildId, hle, htext, fun heq => ⟨hrecorded (hnewest heq).1, (hnewest heq).2⟩⟩

/-- Under a later build too: for an older ID nothing is claimed, and a build loaded again is
the same build. -/
theorem Sound.later {S : Setting F} {r : HashStore (HashValue F)} {newest later : Int}
    {text : String} {content content' : Prop} (h : Sound S r newest text content)
    (hle : newest ≤ later) (hcontent : newest = later → content → content') :
    Sound S r later text content' := by
  obtain ⟨buildId, hold, htext, hnewest⟩ := h
  refine ⟨buildId, hold.trans hle, htext, fun heq => ?_⟩
  have hsame : newest = later := le_antisymm hle (heq ▸ hold)
  subst hsame
  exact ⟨(hnewest heq).1, hcontent rfl (hnewest heq).2⟩

theorem inv_start (S : Setting F) : Inv S (start : System F) := by
  refine ⟨?_, rfl, rfl⟩
  rw [metaBuildId, start, HashStore.hgetall_of_none rfl]

/-! ### The loader's steps -/

/-- The first load. -/
theorem loadInv_first {S : Setting F} {s : System F} (h : EmptyInv S s) (buildId : Int) :
    LoadInv S { s with newest := some ⟨buildId, S.enter buildId .baselines⟩ }
      ⟨buildId, S.enter buildId .baselines⟩ where
  staged _ := Setting.staged_enter S s.redis s.earlier buildId .baselines
  recordedUpTo text htext := by
    rw [h.noMeta] at htext
    cases htext
  tablesOfRecorded hrecorded := by
    rw [Recorded, h.noMeta] at hrecorded
    cases hrecorded
  written p hp := by
    rw [Setting.past_enter] at hp
    cases hp
  held text htext := by
    rw [h.noneHeld] at htext
    cases htext
  reader := by
    show Refresh.Sound S s.redis buildId s.reader
    rw [h.idle]
    trivial

/-- A further load, of the same build or a newer one. -/
theorem loadInv_next {S : Setting F} {s : System F} {load : Load} (h : LoadInv S s load)
    {buildId : Int} (hle : load.buildId ≤ buildId) :
    LoadInv S
      { s with earlier := s.earlier + 1, newest := some ⟨buildId, S.enter buildId .baselines⟩ }
      ⟨buildId, S.enter buildId .baselines⟩ where
  staged _ := Setting.staged_enter S s.redis (s.earlier + 1) buildId .baselines
  recordedUpTo text htext := (h.recordedUpTo text htext).later hle fun _ => id
  tablesOfRecorded hrecorded := by
    obtain ⟨older, holder, htext, -⟩ := h.recordedUpTo _ hrecorded
    have hid : buildId = older := Text.intText_inj (congrArg String.toList htext)
    have hsame : load.buildId = buildId := le_antisymm hle (hid ▸ holder)
    rw [← hsame] at hrecorded ⊢
    exact h.tablesOfRecorded hrecorded
  written p hp := by
    rw [Setting.past_enter] at hp
    cases hp
  held text htext := by
    refine (h.held text htext).later hle ?_
    rintro heq hcontent
    exact heq ▸ hcontent
  reader := by
    have hreader := h.reader
    show Refresh.Sound S s.redis buildId s.reader
    cases hat : s.reader with
    | idle => trivial
    | readMeta text =>
        rw [hat] at hreader
        exact Sound.later hreader hle fun _ => id
    | readBaselines text baselines =>
        rw [hat] at hreader
        refine Sound.later hreader hle ?_
        rintro heq hcontent
        exact heq ▸ hcontent

/-- What a command of the load does to what is recorded. -/
theorem recorded_issue {S : Setting F} {i : Nat} {load : Load} {r r' : HashStore (HashValue F)}
    {phase' : Phase} (hstaged : S.Staged r i load.buildId load.phase)
    (h : S.issue i load.buildId r load.phase = some (r', phase')) :
    (Recorded S r' load.buildId ∧ load.phase = .recording) ∨
      metaBuildId S r' = metaBuildId S r := by
  obtain ⟨-, -, hwritten, hkept, -⟩ := Setting.issue_spec hstaged h
  by_cases hw : load.phase.writes = some .meta
  · left
    refine ⟨recorded_of_holds (hwritten _ hw), ?_⟩
    rcases hphase : load.phase with ⟨t, _ | _ | _ | _⟩ | _ | _ | _ <;> rw [hphase] at hw <;>
      first | rfl | cases hw
  · exact .inr (metaBuildId_congr (hkept _ hw))

theorem loadInv_command {S : Setting F} {s : System F} {load : Load} (h : LoadInv S s load)
    {r' : HashStore (HashValue F)} {phase' : Phase}
    (hissue : S.issue s.earlier load.buildId s.redis load.phase = some (r', phase')) :
    LoadInv S { s with redis := r', newest := some ⟨load.buildId, phase'⟩ }
      ⟨load.buildId, phase'⟩ := by
  have hrunning : load.phase ≠ .raised := by
    rintro hraised
    rw [hraised] at hissue
    cases hissue
  have hstaged := h.staged hrunning
  obtain ⟨hphase, hstaged', hwritten, hkept, -⟩ := Setting.issue_spec hstaged hissue
  have hmeta := recorded_issue hstaged hissue
  -- a hash of the build stays a hash of the build
  have hstays : ∀ p, S.Holds s.redis load.buildId p → S.Holds r' load.buildId p := by
    intro p hp
    by_cases hw : load.phase.writes = some p
    · exact hwritten p hw
    · exact hp.congr (hkept p hw)
  have hrecorded : Recorded S s.redis load.buildId → Recorded S r' load.buildId := by
    intro hold
    rcases hmeta with ⟨hnow, -⟩ | hsame
    · exact hnow
    · exact hsame.trans hold
  have hpast : ∀ p, phase'.past p = true → S.Holds r' load.buildId p := by
    intro p hp
    rw [hphase] at hp
    rcases Setting.past_next hp with hbefore | hnow
    · exact hstays p (h.written p hbefore)
    · exact hwritten p hnow
  constructor
  · intro _
    exact hstaged'
  · intro text htext
    rcases hmeta with ⟨hnow, -⟩ | hsame
    · have heq : text = toString load.buildId := Option.some_inj.mp (htext.symm.trans hnow)
      exact ⟨load.buildId, le_rfl, heq, fun _ => ⟨hnow, trivial⟩⟩
    · exact (h.recordedUpTo text (hsame.symm.trans htext)).mono hrecorded
  · intro hnow t
    rcases hmeta with ⟨-, hat⟩ | hsame
    · apply hstays
      apply h.written
      rw [hat]
      rfl
    · exact hstays _ (h.tablesOfRecorded (hsame.symm.trans hnow) t)
  · exact hpast
  · intro text htext
    exact (h.held text htext).mono hrecorded
  · have hreader := h.reader
    show Refresh.Sound S r' load.buildId s.reader
    cases hat : s.reader with
    | idle => trivial
    | readMeta text =>
        rw [hat] at hreader
        exact Sound.mono hreader hrecorded
    | readBaselines text baselines =>
        rw [hat] at hreader
        exact Sound.mono hreader hrecorded

theorem loadInv_abort {S : Setting F} {s : System F} {load : Load} (h : LoadInv S s load) :
    LoadInv S { s with newest := some ⟨load.buildId, .raised⟩ } ⟨load.buildId, .raised⟩ where
  staged hrunning := absurd rfl hrunning
  recordedUpTo := h.recordedUpTo
  tablesOfRecorded := h.tablesOfRecorded
  written p hp := by
    rcases p with (_ | _) | _ <;> cases hp
  held := h.held
  reader := h.reader

/-! ### The reader's steps -/

theorem loadInv_read {S : Setting F} {s : System F} {load : Load} (h : LoadInv S s load) :
    LoadInv S
      { s with
        held := (readNext S s.redis s.held s.reader).1
        reader := (readNext S s.redis s.held s.reader).2 } load := by
  obtain ⟨hstaged, hmeta, htables, hwritten, hheld, hreader⟩ := h
  cases hat : s.reader with
  | idle =>
      refine ⟨hstaged, hmeta, htables, hwritten, ?_, ?_⟩
      · show Held.Sound S s.redis load.buildId (readNext S s.redis s.held .idle).1
        simp only [readNext]
        split
        · exact hheld
        · split <;> exact hheld
      · show Refresh.Sound S s.redis load.buildId (readNext S s.redis s.held .idle).2
        simp only [readNext]
        split
        · trivial
        · next buildId hread =>
            split
            · trivial
            · exact hmeta buildId hread
  | readMeta text =>
      rw [hat] at hreader
      refine ⟨hstaged, hmeta, htables, hwritten, hheld, ?_⟩
      obtain ⟨buildId, hle, htext, hnewest⟩ := hreader
      refine ⟨buildId, hle, htext, fun heq => ?_⟩
      obtain ⟨hrecorded, -⟩ := hnewest heq
      exact ⟨hrecorded, htables hrecorded .baselines⟩
  | readBaselines text baselines =>
      rw [hat] at hreader
      refine ⟨hstaged, hmeta, htables, hwritten, ?_, trivial⟩
      intro text' htext'
      obtain rfl : text = text' := Option.some_inj.mp htext'
      obtain ⟨buildId, hle, htext, hnewest⟩ := hreader
      refine ⟨buildId, hle, htext, fun heq => ?_⟩
      obtain ⟨hrecorded, rfl⟩ := hnewest heq
      refine ⟨hrecorded, readLatest_mapping S load.buildId, ?_⟩
      have hstickers : s.redis.hgetall (S.key (.table .stickerPrices)) = _ :=
        htables hrecorded .stickerPrices
      show (fun name => (s.redis.hgetall (S.key (.table .stickerPrices)) name).bind _) = _
      rw [hstickers]
      exact readSticker_mapping S load.buildId

/-- One case for each event. -/
theorem inv_step (S : Setting F) (s : System F) (e : Event) (s' : System F) (hinv : Inv S s)
    (h : step S s e = some s') : Inv S s' := by
  cases hnewest : s.newest with
  | none =>
      have hempty : EmptyInv S s := by
        rw [Inv, hnewest] at hinv
        exact hinv
      cases e with
      | start buildId =>
          rw [step, hnewest] at h
          obtain rfl := Option.some_inj.mp h
          exact loadInv_first hempty buildId
      | command =>
          rw [step, hnewest] at h
          cases h
      | abort =>
          rw [step, hnewest] at h
          cases h
      | read =>
          obtain rfl := Option.some_inj.mp h
          have hread : readNext S s.redis s.held s.reader = (s.held, .idle) := by
            rw [hempty.idle, readNext, hempty.noMeta]
          simp only [Inv, hnewest, hread]
          exact ⟨hempty.noMeta, hempty.noneHeld, rfl⟩
      | readFails =>
          obtain rfl := Option.some_inj.mp h
          simp only [Inv, hnewest]
          exact ⟨hempty.noMeta, hempty.noneHeld, rfl⟩
  | some load =>
      have hload : LoadInv S s load := by
        rw [Inv, hnewest] at hinv
        exact hinv
      cases e with
      | start buildId =>
          rw [step, hnewest] at h
          obtain ⟨⟨-, hle⟩, hs'⟩ := Option.ite_none_right_eq_some.mp h
          obtain rfl := Option.some_inj.mp hs'
          exact loadInv_next hload hle
      | command =>
          rw [step, hnewest] at h
          obtain ⟨⟨r', phase'⟩, hissue, rfl⟩ := Option.map_eq_some_iff.mp h
          exact loadInv_command hload hissue
      | abort =>
          rw [step, hnewest] at h
          obtain ⟨-, hs'⟩ := Option.ite_none_left_eq_some.mp h
          obtain rfl := Option.some_inj.mp hs'
          exact loadInv_abort hload
      | read =>
          obtain rfl := Option.some_inj.mp h
          simp only [Inv, hnewest]
          exact hnewest ▸ loadInv_read hload
      | readFails =>
          obtain rfl := Option.some_inj.mp h
          simp only [Inv, hnewest]
          exact ⟨hload.staged, hload.recordedUpTo, hload.tablesOfRecorded, hload.written,
            hload.held, trivial⟩

/-- A command of the reader changes what is held only when it is the last of a refresh. -/
theorem held_step {S : Setting F} {s s' : System F} {e : Event} (h : step S s e = some s') :
    s'.held = s.held ∨
      (e = .read ∧ ∃ buildId baselines, s.reader = .readBaselines buildId baselines) := by
  cases e with
  | start buildId =>
      left
      rw [step] at h
      split at h
      · obtain rfl := Option.some_inj.mp h
        rfl
      · obtain ⟨-, hs'⟩ := Option.ite_none_right_eq_some.mp h
        obtain rfl := Option.some_inj.mp hs'
        rfl
  | command =>
      left
      obtain ⟨load, -, hload⟩ := Option.bind_eq_some_iff.mp h
      obtain ⟨next, -, rfl⟩ := Option.map_eq_some_iff.mp hload
      rfl
  | abort =>
      left
      obtain ⟨load, -, hload⟩ := Option.bind_eq_some_iff.mp h
      obtain ⟨-, hs'⟩ := Option.ite_none_left_eq_some.mp hload
      obtain rfl := Option.some_inj.mp hs'
      rfl
  | read =>
      obtain rfl := Option.some_inj.mp h
      cases hat : s.reader with
      | idle =>
          left
          show (readNext S s.redis s.held .idle).1 = s.held
          simp only [readNext]
          split
          · rfl
          · split <;> rfl
      | readMeta buildId => exact .inl rfl
      | readBaselines buildId baselines => exact .inr ⟨rfl, buildId, baselines, rfl⟩
  | readFails =>
      obtain rfl := Option.some_inj.mp h
      exact .inl rfl

/-- After a run of one loader and the reader: when the newest load is done and the reader holds
the recorded build's ID, it holds that build's tables. And a refresh that does not come to its
end changes nothing of what is held. -/
theorem heldTables_of_run (S : Setting F) {events : List Event} {s : System F}
    (h : runFrom (step S) start events = some s) :
    ((∀ load, s.newest = some load → load.phase = .done) → s.held.buildId.isSome →
      s.held.buildId = metaBuildId S s.redis →
        ∃ buildId : Int, s.held.buildId = some (toString buildId) ∧ s.held.IsOf S buildId) ∧
    ∀ e s', step S s e = some s' → s'.held = s.held ∨
      (e = .read ∧ ∃ buildId baselines, s.reader = .readBaselines buildId baselines) := by
  have hinv := runFrom_inv (Inv S) (inv_step S) (inv_start S) h
  refine ⟨fun hdone hsome hsame => ?_, fun e s' => held_step⟩
  cases hnewest : s.newest with
  | none =>
      rw [Inv, hnewest] at hinv
      rw [(hinv : EmptyInv S s).noneHeld] at hsome
      cases hsome
  | some load =>
      have hload : LoadInv S s load := by
        rw [Inv, hnewest] at hinv
        exact hinv
      have hrecorded : Recorded S s.redis load.buildId := by
        apply recorded_of_holds
        apply hload.written
        rw [hdone load hnewest]
        rfl
      have hheld : s.held.buildId = some (toString load.buildId) := hsame.trans hrecorded
      obtain ⟨buildId, -, htext, hnewest'⟩ := hload.held _ hheld
      have hid : load.buildId = buildId := Text.intText_inj (congrArg String.toList htext)
      exact ⟨load.buildId, hheld, (hnewest' hid.symm).2⟩

/-- The reader takes build 2's baselines for build 1's and reads again. -/
def tornRefresh : List Event :=
  [.start 1] ++ List.replicate 7 .command ++ [.read, .start 2, .command, .command, .command, .read,
    .read] ++ List.replicate 4 .command ++ [.read, .readFails, .read, .read, .read]

theorem heldTables_of_run_tornRefresh :
    ∃ s, runFrom (step countingSetting) start tornRefresh = some s ∧
      ∃ buildId : Int, s.held.buildId = some (toString buildId) ∧
        s.held.IsOf countingSetting buildId := by
  have hrun : (runFrom (step countingSetting) start tornRefresh).map (fun s =>
      (s.newest, s.held.buildId, metaBuildId countingSetting s.redis)) =
        some (some ⟨2, .done⟩, some "2", some "2") := by decide +kernel
  obtain ⟨s, hs, hstate⟩ := Option.map_eq_some_iff.mp hrun
  simp only [Prod.mk.injEq] at hstate
  obtain ⟨hnewest, hheld, hmeta⟩ := hstate
  refine ⟨s, hs, (heldTables_of_run countingSetting hs).1 ?_ ?_ ?_⟩
  · intro load hload
    rw [hnewest] at hload
    rw [← Option.some_inj.mp hload]
  · rw [hheld]
    rfl
  · rw [hheld, hmeta]

end BrandSniper.ResaleRefresh
