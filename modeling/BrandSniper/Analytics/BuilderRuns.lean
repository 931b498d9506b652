import BrandSniper.Analytics.BuildBaselines
import BrandSniper.Kit.Runs

/-!
# Runs of the baseline builders

`build_venue_baselines` and `build_dmarket_baselines` of
`apps/analytics/build_baselines.py`. The services of both venues and checks
started by hand share `baseline_builds`. A check reads the table twice, to see
whether it is its turn and for the daily medians, and other checks may store
builds in between. It can fail or be killed at any point.

Every stored build comes from one check (`storedBy_of_run`). Where a venue's
checks do not overlap and none is forced, its builds are as far apart as the
checks ask (`spaced_of_run`).
-/

namespace BrandSniper.Baselines

open Kit

/-! ## Checks -/

/-- `VENUES` -/
inductive Venue where
  | skinport
  | dmarket
  deriving DecidableEq

def Venue.name : Venue → String
  | .skinport => "skinport"
  | .dmarket => "dmarket"

/-- `BASELINE_METHOD` and `VENUE_SALES_METHOD` -/
def Venue.method : Venue → String
  | .skinport => "sales-history-v1"
  | .dmarket => "venue-sales-v1"

/-- The arguments of a check; the age is a `timedelta`. -/
structure Check where
  venue : Venue
  maxAge : Int
  force : Bool

inductive Phase where
  /-- It is this check's turn to build. -/
  | due
  /-- How many titles it has to sync. -/
  | listed (titles : Nat)
  /-- The sales are read; a DMarket check has the fees. -/
  | fetched (histories : List SalesHistory) (fees : Option Labels.FeeSchedule)
  | built (baselines : List ItemBaseline)

/-- A check that has not ended. -/
structure OpenCheck where
  check : Check
  now : Int
  phase : Phase

structure Builders where
  /-- The table, in the order of the transactions. -/
  builds : List StoredBuild
  checks : OrderedDict Nat OpenCheck

inductive BuilderEvent where
  | start (k : Nat) (check : Check) (now : Int)
  /-- `skinport_titles` -/
  | titles (k : Nat)
  /-- `fetch_sales_history` -/
  | fetch (k : Nat) (entries : List SkinportEntry)
  /-- `fee_schedule` and `sync_sales`, and the sales stored then. -/
  | sync (k : Nat) (fees : Labels.FeeSchedule) (failedTitles : Nat) (order : SaleOrder)
      (stored : List OfferSale)
  /-- The daily medians are read and the baselines computed. -/
  | build (k : Nat) (order : RowOrder)
  /-- The transaction commits, with a build ID of the sequence. -/
  | save (k : Nat) (id : Nat)
  /-- An error or a crash. -/
  | stop (k : Nat)

/-- Which check the event is about. -/
def BuilderEvent.flow : BuilderEvent → Nat
  | .start k .. | .titles k | .fetch k _ | .sync k .. | .build k _ | .save k _ | .stop k => k

def latestBuildTime (builds : List StoredBuild) (venue : Venue) : Option Int :=
  ((builds.filter fun build => build.venue = venue.name).map StoredBuild.builtAt).max?

/-- A recent build exists. -/
def Check.upToDate (check : Check) (now : Int) (newest : Option Int) : Bool :=
  !check.force && newest.any fun newest => now - newest < check.maxAge

/-- The baselines as they are stored. -/
def priced (fees : Option Labels.FeeSchedule) (baselines : List ItemBaseline) :
    List ItemBaseline :=
  match fees with
  | some fees => withDmarketFees fees baselines
  | none => baselines

namespace Builders

def empty : Builders := ⟨[], .empty⟩

/-- The check goes on, or ends. -/
def put (st : Builders) (k : Nat) (check? : Option OpenCheck) : Builders :=
  { st with checks := match check? with
      | some c => st.checks.set k c
      | none => st.checks.erase k }

theorem get?_checks_put (st : Builders) (k : Nat) (check? : Option OpenCheck) (j : Nat) :
    (st.put k check?).checks.get? j = if k = j then check? else st.checks.get? j := by
  cases check? with
  | some c => exact OrderedDict.get?_set ..
  | none => exact OrderedDict.get?_erase ..

def start (st : Builders) (k : Nat) (check : Check) (now : Int) : Builders :=
  if check.upToDate now (latestBuildTime st.builds check.venue) then st
  else st.put k (some ⟨check, now, .due⟩)

/-- The check goes on with what a function returned, and ends where it raised. -/
def proceed (st : Builders) (k : Nat) (c : OpenCheck) : Except ArithmeticError Phase → Builders
  | .ok phase => st.put k (some { c with phase := phase })
  | .error _ => st.put k none

def titles (st : Builders) (k : Nat) (c : OpenCheck) : Builders :=
  match skinportTitles st.builds with
  | [] => st.put k none
  | title :: rest => st.put k (some { c with phase := .listed (title :: rest).length })

section
variable (D : Doubles)

def build (st : Builders) (k : Nat) (c : OpenCheck) (order : RowOrder)
    (histories : List SalesHistory) (fees : Option Labels.FeeSchedule) : Builders :=
  let earlier :=
    loadDailyMedians order st.builds c.check.venue.name (c.now - dailyMedianLookback)
  match buildBaselines D histories earlier (dayOf c.now) with
  | .error _ => st.put k none
  | .ok baselines =>
      match priced fees baselines with
      | [] => st.put k none
      | first :: rest => st.put k (some { c with phase := .built (first :: rest) })

/-- `save_build`; a name that is there twice breaks the key, and nothing is stored. -/
def save (st : Builders) (k : Nat) (c : OpenCheck) (baselines : List ItemBaseline) (id : Nat) :
    Builders :=
  if h : (baselines.map ItemBaseline.marketHashName).Nodup then
    { st.put k none with
      builds := st.builds ++
        [⟨id, c.check.venue.name, c.check.venue.method, c.now, baselines.length, baselines, h⟩] }
  else st.put k none

/-- What an open check does at an event. -/
def act (st : Builders) (k : Nat) (c : OpenCheck) : BuilderEvent → Option Builders
  | .titles _ =>
      match c.check.venue, c.phase with
      | .dmarket, .due => some (st.titles k c)
      | _, _ => none
  | .fetch _ entries =>
      match c.check.venue, c.phase with
      | .skinport, .due =>
          some (st.proceed k c
            ((parseSalesHistory D entries).map fun histories => .fetched histories none))
      | _, _ => none
  | .sync _ fees failedTitles order stored =>
      match c.phase with
      | .listed titles =>
          -- `DMARKET_MAX_FAILED_SHARE`
          if titles < 2 * failedTitles then some (st.put k none)
          else
            some (st.proceed k c ((offerSaleHistories D order stored c.now).map fun histories =>
              .fetched histories (some fees)))
      | _ => none
  | .build _ order =>
      match c.phase with
      | .fetched histories fees => some (st.build D k c order histories fees)
      | _ => none
  | .save _ id =>
      match c.phase with
      | .built baselines =>
          if id ∈ st.builds.map StoredBuild.id then none else some (st.save k c baselines id)
      | _ => none
  | .stop _ => some (st.put k none)
  | .start .. => none

def step (st : Builders) (event : BuilderEvent) : Option Builders :=
  match event, st.checks.get? event.flow with
  | .start k check now, none => some (st.start k check now)
  | _, some c => st.act D event.flow c event
  | _, none => none

end

end Builders

/-! ## Where a build comes from -/

/-- The events of a check's process. -/
def own (k : Nat) (events : List BuilderEvent) : List BuilderEvent :=
  events.filter fun event => event.flow = k

/-- It was the check's turn, as the table stood. -/
def Turn (check : Check) (now : Int) (read : List StoredBuild) : Prop :=
  check.force = false → ∀ other ∈ read, other.venue = check.venue.name →
    other.builtAt + check.maxAge ≤ now

/-- A history for each entry that names an item in USD. -/
def OfEntries (D : Doubles) (entries : List SkinportEntry) (histories : List SalesHistory) : Prop :=
  ∀ history, history ∈ histories ↔
    ∃ entry ∈ entries, SalesHistory.fromSkinport D entry = .ok (some history)

/-- The sales and the fees that a check read, in these events of its process. -/
inductive Sourced (D : Doubles) (k : Nat) (builds : List StoredBuild) (now : Int) :
    Venue → List BuilderEvent → List SalesHistory → Option Labels.FeeSchedule → Prop where
  | skinport {histories : List SalesHistory} {entries : List SkinportEntry}
      (h : OfEntries D entries histories) :
      Sourced D k builds now .skinport [.fetch k entries] histories none
  | dmarket {histories : List SalesHistory} {fees : Labels.FeeSchedule} {failedTitles : Nat}
      {order : SaleOrder} {stored : List OfferSale}
      (htitles : ∃ other ∈ builds, other.venue = Venue.skinport.name)
      (h : OfSales D (recentSales stored now) now histories) :
      Sourced D k builds now .dmarket [.titles k, .sync k fees failedTitles order stored] histories
        (some fees)

/-- The run up to a check's start, up to its build and since then, and what the check read on the
way to its rows. -/
structure Origin where
  before : List BuilderEvent
  reading : List BuilderEvent
  order : RowOrder
  later : List BuilderEvent
  started : Builders
  seen : Builders
  histories : List SalesHistory
  fees : Option Labels.FeeSchedule
  /-- The daily points of the items. -/
  points : SalesHistory → List (Int × Int)

/-- A row as it is stored. -/
def charged (fees : Option Labels.FeeSchedule) (baseline : ItemBaseline) : ItemBaseline :=
  match fees with
  | some fees => withDmarketFee fees baseline
  | none => baseline

/-- The rows are those of one check, which read the table when it started and when it built. -/
structure MadeFrom (D : Doubles) (events : List BuilderEvent) (k : Nat) (check : Check) (now : Int)
    (rows : List ItemBaseline) (o : Origin) : Prop where
  events : events = o.before ++ .start k check now :: (o.reading ++ .build k o.order :: o.later)
  later : own k o.later = []
  started : runFrom (Builders.step D) Builders.empty o.before = some o.started
  seen : runFrom (Builders.step D) Builders.empty (o.before ++ .start k check now :: o.reading)
    = some o.seen
  turn : Turn check now o.started.builds
  sourced : Sourced D k o.seen.builds now check.venue (own k o.reading) o.histories o.fees
  points : ∀ history ∈ o.histories,
    DailyPoints o.seen.builds check.venue.name now history (o.points history)
  mem_rows : ∀ row, row ∈ rows ↔ ∃ history ∈ o.histories, ∃ baseline,
    buildItemBaseline D history ((o.points history).map Prod.snd) = .ok (some baseline) ∧
      row = charged o.fees baseline
  nonempty : rows ≠ []
  sorted : rows.Pairwise byName

/-- A build as a check stores it, in the state before its transaction. -/
structure StoredBy (D : Doubles) (events : List BuilderEvent) (k : Nat) (check : Check)
    (before : List StoredBuild) (build : StoredBuild) : Prop where
  venue : build.venue = check.venue.name
  method : build.method = check.venue.method
  itemCount : build.itemCount = build.rows.length
  freshId : build.id ∉ before.map StoredBuild.id
  madeFrom : ∃ o, MadeFrom D events k check build.builtAt build.rows o

/-- What is known of an open check since its start. -/
def OpenCheck.PhaseOk (D : Doubles) (events : List BuilderEvent) (builds : List StoredBuild) (k : Nat)
    (since : List BuilderEvent) (c : OpenCheck) : Prop :=
  match c.phase with
  | .built rows => ∃ o, MadeFrom D events k c.check c.now rows o
  | .fetched histories fees => Sourced D k builds c.now c.check.venue (own k since) histories fees
  | .listed _ => own k since = [.titles k] ∧ c.check.venue = .dmarket ∧
      ∃ other ∈ builds, other.venue = Venue.skinport.name
  | .due => own k since = []

/-- What is known of an open check. -/
def OpenCheck.Ok (D : Doubles) (events : List BuilderEvent) (builds : List StoredBuild) (k : Nat)
    (c : OpenCheck) : Prop :=
  ∃ before started since, events = before ++ .start k c.check c.now :: since ∧
    runFrom (Builders.step D) Builders.empty before = some started ∧
    Turn c.check c.now started.builds ∧ c.PhaseOk D events builds k since

theorem own_concat_of_ne {k : Nat} {event : BuilderEvent} (h : event.flow ≠ k)
    (events : List BuilderEvent) : own k (events ++ [event]) = own k events := by
  rw [own, own, List.filter_append, List.filter_singleton, decide_eq_false h, cond_false,
    List.append_nil]

theorem own_concat_self {k : Nat} {event : BuilderEvent} (h : event.flow = k)
    (events : List BuilderEvent) : own k (events ++ [event]) = own k events ++ [event] := by
  rw [own, own, List.filter_append, List.filter_singleton, decide_eq_true h, cond_true]

theorem Sourced.mono {D : Doubles} {k : Nat} {builds later : List StoredBuild} {now : Int}
    {venue : Venue} {events : List BuilderEvent} {histories : List SalesHistory}
    {fees : Option Labels.FeeSchedule} (h : Sourced D k builds now venue events histories fees)
    (hle : builds <+: later) : Sourced D k later now venue events histories fees := by
  cases h with
  | skinport h => exact .skinport h
  | dmarket htitles h =>
      obtain ⟨other, hother, hvenue⟩ := htitles
      exact .dmarket ⟨other, hle.subset hother, hvenue⟩ h

/-- Other checks go on. -/
theorem MadeFrom.concat {D : Doubles} {events : List BuilderEvent} {k : Nat} {check : Check}
    {now : Int} {rows : List ItemBaseline} {o : Origin} (h : MadeFrom D events k check now rows o)
    {event : BuilderEvent} (hother : event.flow ≠ k) :
    MadeFrom D (events ++ [event]) k check now rows { o with later := o.later ++ [event] } where
  events := by
    rw [h.events]
    simp
  later := by
    rw [own_concat_of_ne hother]
    exact h.later
  started := h.started
  seen := h.seen
  turn := h.turn
  sourced := h.sourced
  points := h.points
  mem_rows := h.mem_rows
  nonempty := h.nonempty
  sorted := h.sorted

theorem OpenCheck.Ok.concat {D : Doubles} {events : List BuilderEvent}
    {builds later : List StoredBuild} {k : Nat} {c : OpenCheck} (h : c.Ok D events builds k)
    {event : BuilderEvent} (hother : event.flow ≠ k) (hle : builds <+: later) :
    c.Ok D (events ++ [event]) later k := by
  obtain ⟨before, started, since, rfl, hstarted, hturn, hphase⟩ := h
  refine ⟨before, started, since ++ [event], by simp, hstarted, hturn, ?_⟩
  unfold PhaseOk at hphase ⊢
  rw [own_concat_of_ne hother]
  split at hphase
  · obtain ⟨o, ho⟩ := hphase
    exact ⟨_, ho.concat hother⟩
  · exact hphase.mono hle
  · obtain ⟨hown, hvenue, other, hmem, hskinport⟩ := hphase
    exact ⟨hown, hvenue, other, hle.subset hmem, hskinport⟩
  · exact hphase

/-! ## What a step does -/

theorem turn_of_not_upToDate {check : Check} {now : Int} {builds : List StoredBuild}
    (h : check.upToDate now (latestBuildTime builds check.venue) = false) :
    Turn check now builds := by
  intro hforce other hother hvenue
  rw [Check.upToDate, hforce, Bool.not_false, Bool.true_and] at h
  have hmem : other.builtAt ∈ (builds.filter fun build => build.venue = check.venue.name).map
      StoredBuild.builtAt :=
    List.mem_map.mpr ⟨other, List.mem_filter.mpr ⟨hother, decide_eq_true hvenue⟩, rfl⟩
  cases hnewest : latestBuildTime builds check.venue with
  | none =>
      rw [latestBuildTime, List.max?_eq_none_iff] at hnewest
      rw [hnewest] at hmem
      cases hmem
  | some newest =>
      have hle : other.builtAt ≤ newest := (List.max?_eq_some_iff.mp hnewest).2 _ hmem
      rw [hnewest, Option.any_some, decide_eq_false_iff_not] at h
      omega

theorem exists_skinport_of_titles {builds : List StoredBuild} (h : skinportTitles builds ≠ []) :
    ∃ other ∈ builds, other.venue = Venue.skinport.name := by
  by_contra hnone
  push Not at hnone
  have hfilter : (builds.filter fun build => build.venue = "skinport") = [] :=
    List.filter_eq_nil_iff.mpr fun other hother hvenue =>
      hnone other hother (of_decide_eq_true hvenue)
  rw [skinportTitles, newestSkinport, hfilter] at h
  exact h rfl

theorem priced_eq_map (fees : Option Labels.FeeSchedule) (baselines : List ItemBaseline) :
    priced fees baselines = baselines.map (charged fees) := by
  cases fees with
  | none => exact (List.map_id _).symm
  | some fees => rfl

theorem name_charged (fees : Option Labels.FeeSchedule) (baseline : ItemBaseline) :
    (charged fees baseline).marketHashName = baseline.marketHashName := by
  cases fees <;> rfl

theorem ofEntries_parseSalesHistory {D : Doubles} {entries : List SkinportEntry}
    {histories : List SalesHistory} (h : parseSalesHistory D entries = .ok histories) :
    OfEntries D entries histories := by
  obtain ⟨parsed, hparsed, hhistories⟩ := bind_eq_ok h
  cases hhistories
  intro history
  rw [List.mem_filterMap, ← mem_mapM_ok hparsed]
  constructor
  · rintro ⟨history?, hmem, rfl⟩
    exact hmem
  · intro hmem
    exact ⟨some history, hmem, rfl⟩

/-- The rows of a build: the baselines of the histories, with the daily points of the table. -/
theorem rows_of_build {D : Doubles} {builds : List StoredBuild} {venue : String} {now : Int}
    {histories : List SalesHistory} {fees : Option Labels.FeeSchedule} {order : RowOrder}
    {baselines : List ItemBaseline}
    (hbuild : buildBaselines D histories
      (loadDailyMedians order builds venue (now - dailyMedianLookback)) (dayOf now)
        = .ok baselines) :
    ∃ points : SalesHistory → List (Int × Int),
      (∀ history ∈ histories, DailyPoints builds venue now history (points history)) ∧
      (∀ row, row ∈ priced fees baselines ↔ ∃ history ∈ histories, ∃ baseline,
        buildItemBaseline D history ((points history).map Prod.snd) = .ok (some baseline) ∧
          row = charged fees baseline) ∧
      (priced fees baselines).Pairwise byName := by
  have hpoints := dailyPoints_series order builds venue now
  choose points hseries hdaily using hpoints
  refine ⟨points, fun history _ => hdaily history, fun row => ?_, ?_⟩
  · rw [priced_eq_map, List.mem_map]
    constructor
    · rintro ⟨baseline, hbaseline, rfl⟩
      obtain ⟨history, hhistory, hok⟩ := (mem_buildBaselines hbuild baseline).mp hbaseline
      rw [hseries] at hok
      exact ⟨history, hhistory, baseline, hok, rfl⟩
    · rintro ⟨history, hhistory, baseline, hok, rfl⟩
      rw [← hseries] at hok
      exact ⟨baseline, (mem_buildBaselines hbuild baseline).mpr ⟨history, hhistory, hok⟩, rfl⟩
  · rw [priced_eq_map, List.pairwise_map]
    refine (pairwise_buildBaselines hbuild).imp fun {a b} hab => ?_
    rw [byName, name_charged, name_charged]
    exact hab

/-- What an event of a check makes of it and of the table. -/
inductive Acted (D : Doubles) (st : Builders) (k : Nat) (c : OpenCheck) :
    BuilderEvent → Builders → Prop where
  | ended {event : BuilderEvent} : event.flow = k → Acted D st k c event (st.put k none)
  | titles {titles : Nat} : c.check.venue = .dmarket → c.phase = .due →
      (∃ other ∈ st.builds, other.venue = Venue.skinport.name) →
      Acted D st k c (.titles k) (st.put k (some { c with phase := .listed titles }))
  | fetch {entries : List SkinportEntry} {histories : List SalesHistory} :
      c.check.venue = .skinport → c.phase = .due →
      parseSalesHistory D entries = .ok histories →
      Acted D st k c (.fetch k entries)
        (st.put k (some { c with phase := .fetched histories none }))
  | sync {titles failedTitles : Nat} {fees : Labels.FeeSchedule} {order : SaleOrder}
      {stored : List OfferSale} {histories : List SalesHistory} : c.phase = .listed titles →
      offerSaleHistories D order stored c.now = .ok histories →
      Acted D st k c (.sync k fees failedTitles order stored)
        (st.put k (some { c with phase := .fetched histories (some fees) }))
  | build {order : RowOrder} {histories : List SalesHistory} {fees : Option Labels.FeeSchedule}
      {baselines : List ItemBaseline} : c.phase = .fetched histories fees →
      buildBaselines D histories (loadDailyMedians order st.builds c.check.venue.name
        (c.now - dailyMedianLookback)) (dayOf c.now) = .ok baselines →
      priced fees baselines ≠ [] →
      Acted D st k c (.build k order)
        (st.put k (some { c with phase := .built (priced fees baselines) }))
  | save {rows : List ItemBaseline} {id : Nat} (h : (rows.map ItemBaseline.marketHashName).Nodup) :
      c.phase = .built rows → id ∉ st.builds.map StoredBuild.id →
      Acted D st k c (.save k id)
        { st.put k none with
          builds := st.builds ++
            [⟨id, c.check.venue.name, c.check.venue.method, c.now, rows.length, rows, h⟩] }

theorem acted_of_act {D : Doubles} {st st' : Builders} {c : OpenCheck} {event : BuilderEvent}
    (h : st.act D event.flow c event = some st') : Acted D st event.flow c event st' := by
  cases event with
  | start => cases h
  | titles k =>
      unfold Builders.act at h
      dsimp only at h
      split at h
      · rename_i hvenue hphase
        cases h
        unfold Builders.titles
        split
        · exact .ended rfl
        · rename_i title rest htitles
          exact .titles hvenue hphase
            (exists_skinport_of_titles (by rw [htitles]; exact List.cons_ne_nil _ _))
      · cases h
  | fetch k entries =>
      unfold Builders.act at h
      dsimp only at h
      split at h
      · rename_i hvenue hphase
        cases h
        cases hparse : parseSalesHistory D entries with
        | error e => exact .ended rfl
        | ok histories => exact .fetch hvenue hphase hparse
      · cases h
  | sync k fees failedTitles order stored =>
      unfold Builders.act at h
      dsimp only at h
      split at h
      · rename_i titles hphase
        split at h
        · cases h
          exact .ended rfl
        · cases h
          cases hsales : offerSaleHistories D order stored c.now with
          | error e => exact .ended rfl
          | ok histories => exact .sync hphase hsales
      · cases h
  | build k order =>
      unfold Builders.act at h
      dsimp only at h
      split at h
      · rename_i histories fees hphase
        cases h
        unfold Builders.build
        dsimp only
        split
        · exact .ended rfl
        · rename_i baselines hbuild
          split
          · exact .ended rfl
          · rename_i first rest hpriced
            have hne : priced fees baselines ≠ [] := by
              rw [hpriced]
              exact List.cons_ne_nil _ _
            rw [← hpriced]
            exact .build hphase hbuild hne
      · cases h
  | save k id =>
      unfold Builders.act at h
      dsimp only at h
      split at h
      · rename_i rows hphase
        split at h
        · cases h
        · rename_i hid
          cases h
          unfold Builders.save
          split
          · exact .save ‹_› hphase hid
          · exact .ended rfl
      · cases h
  | stop k =>
      cases h
      exact .ended rfl

/-- An event moves one check on, and the table with it at most by a build of that check. -/
def Moved (st : Builders) (k : Nat) (c : OpenCheck) (st' : Builders) : Prop :=
  ∃ next : Option OpenCheck,
    (∀ j, st'.checks.get? j = if k = j then next else st.checks.get? j) ∧
    (∀ d, next = some d → d.check = c.check ∧ d.now = c.now) ∧
    (st'.builds = st.builds ∨ next = none ∧ ∃ build, st'.builds = st.builds ++ [build] ∧
      build.builtAt = c.now ∧ build.venue = c.check.venue.name)

theorem Acted.moved {D : Doubles} {st st' : Builders} {k : Nat} {c : OpenCheck}
    {event : BuilderEvent} (h : Acted D st k c event st') : Moved st k c st' := by
  have hput : ∀ phase, Moved st k c (st.put k (some { c with phase := phase })) := by
    intro phase
    refine ⟨_, st.get?_checks_put k _, fun d hd => ?_, .inl rfl⟩
    cases hd
    exact ⟨rfl, rfl⟩
  cases h with
  | ended => exact ⟨none, st.get?_checks_put k none, fun d hd => (by cases hd), .inl rfl⟩
  | titles | fetch | sync | build => exact hput _
  | save =>
      exact ⟨none, st.get?_checks_put k none, fun d hd => (by cases hd),
        .inr ⟨rfl, _, rfl, rfl, rfl⟩⟩

theorem Moved.builds_prefix {st st' : Builders} {k : Nat} {c : OpenCheck} (h : Moved st k c st') :
    st.builds <+: st'.builds := by
  obtain ⟨next, -, -, hsame | ⟨-, build, hbuild, -⟩⟩ := h
  · rw [hsame]
  · rw [hbuild]
    exact List.prefix_append _ _

/-- The check itself, after an event of its own. -/
theorem Acted.ok {D : Doubles} {st st' : Builders} {k : Nat} {c : OpenCheck} {event : BuilderEvent}
    {events : List BuilderEvent} (h : Acted D st k c event st') (hc : c.Ok D events st.builds k)
    (hrun : runFrom (Builders.step D) Builders.empty events = some st) {d : OpenCheck}
    (hd : st'.checks.get? k = some d) : d.Ok D (events ++ [event]) st'.builds k := by
  obtain ⟨before, started, since, rfl, hstarted, hturn, hphase⟩ := hc
  have hput : ∀ phase, (st.put k (some { c with phase := phase })).checks.get? k = some d →
      d = { c with phase := phase } := by
    intro phase hget
    rw [Builders.get?_checks_put, if_pos rfl] at hget
    exact (Option.some.inj hget).symm
  unfold OpenCheck.PhaseOk at hphase
  cases h with
  | ended =>
      rw [Builders.get?_checks_put, if_pos rfl] at hd
      cases hd
  | titles hvenue hdue htitles =>
      cases hput _ hd
      rw [hdue] at hphase
      refine ⟨before, started, since ++ [.titles k], by simp, hstarted, hturn, ?_⟩
      refine ⟨?_, hvenue, htitles⟩
      rw [@own_concat_self k (.titles k) rfl, hphase, List.nil_append]
  | @fetch entries histories hvenue hdue hparse =>
      cases hput _ hd
      rw [hdue] at hphase
      refine ⟨before, started, since ++ [.fetch k entries], by simp, hstarted, hturn, ?_⟩
      show Sourced D k st.builds c.now c.check.venue _ _ _
      rw [@own_concat_self k (.fetch k entries) rfl, hphase, List.nil_append, hvenue]
      exact .skinport (ofEntries_parseSalesHistory hparse)
  | @sync titles failedTitles fees order stored histories hlisted hsales =>
      cases hput _ hd
      rw [hlisted] at hphase
      obtain ⟨hown, hvenue, htitles⟩ := hphase
      refine ⟨before, started, since ++ [.sync k fees failedTitles order stored], by simp,
        hstarted, hturn, ?_⟩
      show Sourced D k st.builds c.now c.check.venue _ _ _
      rw [@own_concat_self k (.sync k fees failedTitles order stored) rfl, hown, hvenue]
      exact .dmarket htitles (ofSales_offerSaleHistories hsales)
  | @build order histories fees baselines hfetched hbuild hne =>
      cases hput _ hd
      rw [hfetched] at hphase
      obtain ⟨points, hpoints, hrows, hsorted⟩ := @rows_of_build _ _ _ _ _ fees _ _ hbuild
      refine ⟨before, started, since ++ [.build k order], by simp, hstarted, hturn, ?_⟩
      exact ⟨⟨before, since, order, [], started, st, histories, fees, points⟩, by simp, rfl, hstarted,
        hrun, hturn, hphase, hpoints, hrows, hne, hsorted⟩
  | save =>
      have hgone : (st.put k none).checks.get? k = some d := hd
      rw [Builders.get?_checks_put, if_pos rfl] at hgone
      cases hgone

theorem Builders.step_cases {D : Doubles} {st st' : Builders} {event : BuilderEvent}
    (h : st.step D event = some st') :
    (∃ k check now, event = .start k check now ∧ st.checks.get? k = none ∧
      st' = st.start k check now) ∨
    ∃ c, st.checks.get? event.flow = some c ∧ st.act D event.flow c event = some st' := by
  unfold step at h
  split at h
  · rename_i k check now hnone
    exact .inl ⟨k, check, now, rfl, hnone, (Option.some.inj h).symm⟩
  · rename_i c hc
    exact .inr ⟨c, hc, h⟩
  · cases h

/-! ## Runs -/

/-- What holds after the events. -/
structure Builders.Inv (D : Doubles) (events : List BuilderEvent) (st : Builders) : Prop where
  ran : runFrom (Builders.step D) Builders.empty events = some st
  ok : ∀ k c, st.checks.get? k = some c → c.Ok D events st.builds k
  stored : ∀ before build after, st.builds = before ++ build :: after →
    ∃ earlier mid k check, earlier ++ [.save k build.id] <+: events ∧
      runFrom (Builders.step D) Builders.empty earlier = some mid ∧ mid.builds = before ∧
      StoredBy D earlier k check before build

namespace Builders

variable {D : Doubles} {st st' : Builders} {events : List BuilderEvent}

theorem inv_empty : empty.Inv D [] := by
  refine ⟨rfl, fun k c h => ?_, fun before build after h => ?_⟩
  · cases h
  · cases before <;> cases h

theorem Inv.start {k : Nat} {check : Check} {now : Int} (h : st.Inv D events)
    (hnone : st.checks.get? k = none)
    (hrun : runFrom (step D) empty (events ++ [.start k check now]) = some (st.start k check now)) :
    (st.start k check now).Inv D (events ++ [.start k check now]) := by
  have hle : events <+: events ++ [.start k check now] := List.prefix_append _ _
  have hstored : ∀ before build after, st.builds = before ++ build :: after →
      ∃ earlier mid j check', earlier ++ [.save j build.id] <+: events ++ [.start k check now] ∧
        runFrom (step D) empty earlier = some mid ∧ mid.builds = before ∧
        StoredBy D earlier j check' before build := by
    intro before build after hbuilds
    obtain ⟨earlier, mid, j, check', hprefix, hrest⟩ := h.stored before build after hbuilds
    exact ⟨earlier, mid, j, check', hprefix.trans hle, hrest⟩
  have hothers : ∀ j c, st.checks.get? j = some c →
      c.Ok D (events ++ [.start k check now]) st.builds j := by
    intro j c hc
    refine (h.ok j c hc).concat (fun hflow => ?_) (List.prefix_refl _)
    have hsame : k = j := hflow
    rw [← hsame, hnone] at hc
    cases hc
  unfold Builders.start at hrun ⊢
  split
  · rename_i hold
    rw [if_pos hold] at hrun
    exact ⟨hrun, hothers, hstored⟩
  · rename_i hdue
    rw [if_neg hdue] at hrun
    have hturn : Turn check now st.builds := turn_of_not_upToDate (Bool.eq_false_iff.mpr hdue)
    refine ⟨hrun, fun j c hc => ?_, hstored⟩
    rw [get?_checks_put] at hc
    split at hc
    · rename_i hkj
      subst hkj
      cases hc
      exact ⟨events, st, [], rfl, h.ran, hturn, rfl⟩
    · exact hothers j c hc

theorem Inv.acted {k : Nat} {event : BuilderEvent} {c : OpenCheck} (h : st.Inv D events)
    (hflow : event.flow = k) (hc : st.checks.get? k = some c) (hacted : Acted D st k c event st')
    (hrun : runFrom (step D) empty (events ++ [event]) = some st') : st'.Inv D (events ++ [event]) := by
  have hle := hacted.moved.builds_prefix
  obtain ⟨next, hchecks, -, -⟩ := hacted.moved
  refine ⟨hrun, fun j d hd => ?_, fun before build after hsplit => ?_⟩
  · by_cases hj : k = j
    · subst hj
      exact hacted.ok (h.ok _ c hc) h.ran hd
    · rw [hchecks, if_neg hj] at hd
      exact (h.ok j d hd).concat (by rw [hflow]; exact hj) hle
  · have hbefore : ∀ before build after, st.builds = before ++ build :: after →
        ∃ earlier mid k check, earlier ++ [.save k build.id] <+: events ++ [event] ∧
          runFrom (step D) empty earlier = some mid ∧ mid.builds = before ∧
          StoredBy D earlier k check before build := by
      intro before build after hbuilds
      obtain ⟨earlier, mid, j, check', hprefix, hrest⟩ := h.stored before build after hbuilds
      exact ⟨earlier, mid, j, check', hprefix.trans (List.prefix_append _ _), hrest⟩
    have hok := h.ok _ c hc
    cases hacted with
    | ended | titles | fetch | sync | build => exact hbefore before build after hsplit
    | @save rows id hnodup hbuilt hid =>
        -- the build that was stored, or one of those before it
        rcases List.eq_nil_or_concat after with rfl | ⟨others, last, rfl⟩
        · obtain ⟨rfl, hlast⟩ := List.append_inj' hsplit rfl
          cases hlast
          obtain ⟨_, _, _, _, _, _, hphase⟩ := hok
          unfold OpenCheck.PhaseOk at hphase
          rw [hbuilt] at hphase
          exact ⟨events, st, _, c.check, List.prefix_refl _, h.ran, rfl, rfl, rfl, rfl, hid, hphase⟩
        · refine hbefore before build others ?_
          have hlast : before ++ build :: others.concat last
              = (before ++ build :: others) ++ [last] := by simp
          exact (List.append_inj' (hsplit.trans hlast) rfl).1

theorem inv_of_run (h : runFrom (step D) empty events = some st) : st.Inv D events := by
  induction events using List.reverseRecOn generalizing st with
  | nil =>
      cases h
      exact inv_empty
  | append_singleton before event ih =>
      have hrun := h
      rw [runFrom_concat] at h
      obtain ⟨mid, hmid, hstep⟩ := Option.bind_eq_some_iff.mp h
      rcases step_cases hstep with ⟨k, check, now, rfl, hnone, rfl⟩ | ⟨c, hc, hact⟩
      · exact (ih hmid).start hnone hrun
      · exact (ih hmid).acted rfl hc (acted_of_act hact) hrun

/-- Every stored build comes from one check: it was that check's turn, or it was forced, and the
rows are the baselines of the sales that its own events read, with the last stored median of each
day. -/
theorem storedBy_of_run (h : runFrom (step D) empty events = some st) {before after : List StoredBuild}
    {build : StoredBuild} (hbuilds : st.builds = before ++ build :: after) :
    ∃ earlier mid k check, earlier ++ [.save k build.id] <+: events ∧
      runFrom (step D) empty earlier = some mid ∧ mid.builds = before ∧
      StoredBy D earlier k check before build :=
  (inv_of_run h).stored before build after hbuilds

/-! ### A run of both venues -/

theorem pairwise_byTime (rows : List MedianRow) :
    (rows.insertionSort fun a b => a.builtAt ≤ b.builtAt).Pairwise fun a b =>
      a.builtAt ≤ b.builtAt := by
  have htotal : Std.Total fun a b : MedianRow => a.builtAt ≤ b.builtAt := ⟨fun _ _ => le_total _ _⟩
  have htrans : IsTrans MedianRow fun a b => a.builtAt ≤ b.builtAt := ⟨fun _ _ _ => le_trans⟩
  exact List.pairwise_insertionSort _ rows

def byTime : RowOrder where
  sort rows := rows.insertionSort fun a b => a.builtAt ≤ b.builtAt
  perm := List.perm_insertionSort _
  pairwise := pairwise_byTime

theorem pairwise_bySaleName (rows : List OfferSale) :
    (rows.insertionSort fun a b =>
      String.ofList a.marketHashName ≤ String.ofList b.marketHashName).Pairwise fun a b =>
        String.ofList a.marketHashName ≤ String.ofList b.marketHashName := by
  have htotal : Std.Total fun a b : OfferSale =>
    String.ofList a.marketHashName ≤ String.ofList b.marketHashName := ⟨fun _ _ => le_total _ _⟩
  have htrans : IsTrans OfferSale fun a b =>
    String.ofList a.marketHashName ≤ String.ofList b.marketHashName := ⟨fun _ _ _ => le_trans⟩
  exact List.pairwise_insertionSort _ rows

def bySaleName : SaleOrder where
  sort rows := rows.insertionSort fun a b =>
    String.ofList a.marketHashName ≤ String.ofList b.marketHashName
  perm := List.perm_insertionSort _
  pairwise := pairwise_bySaleName

def tenDollars : WindowDocument := ⟨.int 10, .int 10, .int 10, .int 10, .int 5⟩

def redlineEntry : SkinportEntry :=
  ⟨some "AK-47 | Redline".toList, some "USD".toList, none, some tenDollars, some tenDollars,
    some tenDollars, some tenDollars⟩

def redlineSales (now : Int) : List OfferSale :=
  [1, 2, 3, 4, 5].map fun ago => ⟨"AK-47 | Redline".toList, now - ago, 1000⟩

/-- A check of a service: at most every 20 hours. -/
def serviceCheck (venue : Venue) : Check := ⟨venue, 72000000000, false⟩

/-- The DMarket check starts after the first Skinport build, and ends after the second. -/
def bothVenues : List BuilderEvent :=
  [.start 0 (serviceCheck .skinport) 0, .fetch 0 [redlineEntry], .build 0 byTime, .save 0 1,
    .start 1 (serviceCheck .dmarket) 100, .titles 1, .start 0 (serviceCheck .skinport) 3600000000,
    .start 0 (serviceCheck .skinport) 86400000000, .fetch 0 [redlineEntry],
    .sync 1 ⟨1000, .empty⟩ 0 bySaleName (redlineSales 100), .build 0 byTime, .build 1 byTime,
    .save 0 2, .save 1 3]

theorem storedBy_of_run_bothVenues : ∃ st before build,
    runFrom (step Doubles.binary64) empty bothVenues = some st ∧
      st.builds = before ++ [build] ∧ build.venue = "dmarket" ∧ before.length = 2 ∧
      ∃ earlier mid k check, earlier ++ [.save k build.id] <+: bothVenues ∧
        runFrom (step Doubles.binary64) empty earlier = some mid ∧ mid.builds = before ∧
        StoredBy Doubles.binary64 earlier k check before build := by
  have hrun : ∃ st, runFrom (step Doubles.binary64) empty bothVenues = some st ∧
      decide (st.builds.map StoredBuild.venue = ["skinport", "skinport", "dmarket"]) = true :=
    (Option.any_eq_true _ _).mp (by decide +kernel)
  obtain ⟨st, hst, hvenues⟩ := hrun
  have hvenues := of_decide_eq_true hvenues
  rcases List.eq_nil_or_concat st.builds with hnil | ⟨before, build, hbuilds⟩
  · rw [hnil] at hvenues
    cases hvenues
  · rw [List.concat_eq_append] at hbuilds
    have hsplit : before.map StoredBuild.venue ++ [build.venue]
        = ["skinport", "skinport"] ++ ["dmarket"] := by
      rw [hbuilds, List.map_append] at hvenues
      exact hvenues
    obtain ⟨hbefore, hbuild⟩ := List.append_inj' hsplit rfl
    refine ⟨st, before, build, hst, hbuilds, List.head_eq_of_cons_eq hbuild, ?_,
      storedBy_of_run hst hbuilds⟩
    rw [← before.length_map StoredBuild.venue, hbefore]
    rfl

/-! ## How far apart -/

theorem name_injective {v w : Venue} (h : v.name = w.name) : v = w := by
  cases v <;> cases w <;> first | rfl | exact absurd h (by decide)

/-- No other check of the venue is open when one starts; none is forced or asks for less. -/
def Alone (venue : Venue) (apart : Int) (st : Builders) : BuilderEvent → Prop
  | .start _ check _ => check.venue = venue → check.force = false ∧ apart ≤ check.maxAge ∧
      ∀ item ∈ st.checks.items, item.2.check.venue ≠ venue
  | _ => True

instance (venue : Venue) (apart : Int) (st : Builders) (event : BuilderEvent) :
    Decidable (Alone venue apart st event) := by
  cases event <;> unfold Alone <;> infer_instance

def ofVenue (builds : List StoredBuild) (venue : Venue) : List StoredBuild :=
  builds.filter fun build => build.venue = venue.name

structure Spaced (venue : Venue) (apart : Int) (st : Builders) : Prop where
  pairwise : (ofVenue st.builds venue).Pairwise fun a b => a.builtAt + apart ≤ b.builtAt
  due : ∀ k c, st.checks.get? k = some c → c.check.venue = venue →
    ∀ other ∈ ofVenue st.builds venue, other.builtAt + apart ≤ c.now
  single : ∀ j k c d, st.checks.get? j = some c → st.checks.get? k = some d →
    c.check.venue = venue → d.check.venue = venue → j = k

variable {venue : Venue} {apart : Int}

theorem ofVenue_concat (builds : List StoredBuild) (build : StoredBuild) :
    ofVenue (builds ++ [build]) venue
      = if build.venue = venue.name then ofVenue builds venue ++ [build]
        else ofVenue builds venue := by
  unfold ofVenue
  rw [List.filter_append, List.filter_singleton]
  by_cases h : build.venue = venue.name <;> simp [h]

theorem Spaced.start {k : Nat} {check : Check} {now : Int} (h : Spaced venue apart st)
    (halone : Alone venue apart st (.start k check now)) :
    Spaced venue apart (st.start k check now) := by
  unfold Builders.start
  split
  · exact h
  · rename_i hdue
    have hturn : Turn check now st.builds := turn_of_not_upToDate (Bool.eq_false_iff.mpr hdue)
    have hnone : check.venue = venue → ∀ j c, st.checks.get? j = some c → c.check.venue ≠ venue :=
      fun hvenue j c hc => (halone hvenue).2.2 (j, c) (OrderedDict.get?_eq_some.mp hc)
    refine ⟨h.pairwise, fun j c hc hvenue => ?_, fun i j c d hc hd hcv hdv => ?_⟩
    · rw [get?_checks_put] at hc
      split at hc
      · cases hc
        intro other hother
        obtain ⟨hmem, hname⟩ := List.mem_filter.mp hother
        obtain ⟨hforce, hage, -⟩ := halone hvenue
        have := hturn hforce other hmem (by rw [hvenue]; exact of_decide_eq_true hname)
        dsimp only
        omega
      · exact h.due j c hc hvenue
    · rw [get?_checks_put] at hc hd
      split at hc
      · rename_i hi
        split at hd
        · rename_i hj
          rw [← hi, hj]
        · cases hc
          exact absurd hdv (hnone hcv j d hd)
      · split at hd
        · cases hd
          exact absurd hcv (hnone hdv i c hc)
        · exact h.single i j c d hc hd hcv hdv

theorem Spaced.moved {k : Nat} {c : OpenCheck} (h : Spaced venue apart st)
    (hc : st.checks.get? k = some c) (hmoved : Moved st k c st') : Spaced venue apart st' := by
  obtain ⟨next, hchecks, hnext, hbuilds⟩ := hmoved
  -- an open check was open before, and started as it did
  have hbefore : ∀ j d, st'.checks.get? j = some d →
      ∃ d', st.checks.get? j = some d' ∧ d.check = d'.check ∧ d.now = d'.now := by
    intro j d hd
    rw [hchecks] at hd
    split at hd
    · rename_i hkj
      obtain ⟨hcheck, hnow⟩ := hnext d hd
      exact ⟨c, hkj ▸ hc, hcheck, hnow⟩
    · exact ⟨d, hd, rfl, rfl⟩
  have hsingle : ∀ i j d e, st'.checks.get? i = some d → st'.checks.get? j = some e →
      d.check.venue = venue → e.check.venue = venue → i = j := by
    intro i j d e hd he hdv hev
    obtain ⟨d', hd', hcheck, -⟩ := hbefore i d hd
    obtain ⟨e', he', hcheck', -⟩ := hbefore j e he
    exact h.single i j d' e' hd' he' (hcheck ▸ hdv) (hcheck' ▸ hev)
  rcases hbuilds with hsame | ⟨rfl, build, hbuild, hbuiltAt, hbuildVenue⟩
  · refine ⟨hsame ▸ h.pairwise, fun j d hd hvenue => ?_, hsingle⟩
    obtain ⟨d', hd', hcheck, hnow⟩ := hbefore j d hd
    rw [hnow, hsame]
    exact h.due j d' hd' (hcheck ▸ hvenue)
  · by_cases hvenue : c.check.venue = venue
    · have hname : build.venue = venue.name := by rw [hbuildVenue, hvenue]
      -- the check that stored the build was the only one of the venue
      have hclosed : ∀ j d, st'.checks.get? j = some d → d.check.venue ≠ venue := by
        intro j d hd hdv
        obtain ⟨d', hd', hcheck, -⟩ := hbefore j d hd
        have hjk : j = k := h.single j k d' c hd' hc (hcheck ▸ hdv) hvenue
        rw [hchecks, if_pos hjk.symm] at hd
        cases hd
      refine ⟨?_, fun j d hd hdv => absurd hdv (hclosed j d hd), hsingle⟩
      rw [hbuild, ofVenue_concat, if_pos hname]
      refine List.pairwise_append.mpr ⟨h.pairwise, List.pairwise_singleton _ _, ?_⟩
      intro other hother last hlast
      rw [List.mem_singleton.mp hlast, hbuiltAt]
      exact h.due k c hc hvenue other hother
    · have hname : build.venue ≠ venue.name := fun hname =>
        hvenue (name_injective (hbuildVenue.symm.trans hname))
      have hsame : ofVenue st'.builds venue = ofVenue st.builds venue := by
        rw [hbuild, ofVenue_concat, if_neg hname]
      refine ⟨hsame ▸ h.pairwise, fun j d hd hdv => ?_, hsingle⟩
      obtain ⟨d', hd', hcheck, hnow⟩ := hbefore j d hd
      rw [hnow, hsame]
      exact h.due j d' hd' (hcheck ▸ hdv)

theorem spaced_empty : Spaced venue apart empty := by
  refine ⟨List.Pairwise.nil, fun k c h => ?_, fun j k c d h => ?_⟩ <;> cases h

/-- Where a venue's checks do not overlap and none is forced, its builds are as far apart as the
checks ask. -/
theorem spaced_of_run (h : runFrom (step D) empty events = some st)
    (halone : AllSteps (step D) (Alone venue apart) empty events) :
    (ofVenue st.builds venue).Pairwise fun a b => a.builtAt + apart ≤ b.builtAt := by
  have hspaced : Spaced venue apart st := by
    refine runFrom_inv_of_allSteps (Spaced venue apart) (Alone venue apart) ?_ halone
      spaced_empty h
    intro st event st' hst hevent hstep
    rcases step_cases hstep with ⟨k, check, now, rfl, -, rfl⟩ | ⟨c, hc, hact⟩
    · exact hst.start hevent
    · exact hst.moved hc (acted_of_act hact).moved
  exact hspaced.pairwise

theorem spaced_of_run_bothVenues : ∃ st,
    runFrom (step Doubles.binary64) empty bothVenues = some st ∧
      (ofVenue st.builds .skinport).length = 2 ∧
      (ofVenue st.builds .skinport).Pairwise fun a b => a.builtAt + 72000000000 ≤ b.builtAt := by
  have hrun : ∃ st, runFrom (step Doubles.binary64) empty bothVenues = some st ∧
      decide ((ofVenue st.builds .skinport).length = 2) = true :=
    (Option.any_eq_true _ _).mp (by decide +kernel)
  obtain ⟨st, hst, hlength⟩ := hrun
  exact ⟨st, hst, of_decide_eq_true hlength,
    spaced_of_run hst (.of_check (by decide +kernel))⟩

end Builders

end BrandSniper.Baselines
