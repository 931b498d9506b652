import BrandSniper.Analytics.DmarketSales
import BrandSniper.Kit.Runs

/-!
# Runs of the sales sync

`sync_sales`, over any number of runs. A run takes the newest stored times,
then reads each title and stores what it read, in any order of the titles; a
title whose request fails is left for the next run. The process
may stop at any point; the next run starts afresh from the table.

The feeds change at any time but during a title's requests. `Premise` says
how: new sales come no earlier than what is stored, or read and about to be.

The state keeps the reads made so far, and those stored, to speak about them.
-/

namespace BrandSniper.SalesSync

open Kit Dmarket

/-! ## The machine -/

/-- A title's sales as a run has read them, from the feed of that time. -/
structure TitleRead (F : Type) where
  title : String
  readBackTo : Int
  feed : Feed F
  sales : List (DMarketSale F)

/-- A call of `sync_sales`. -/
structure SyncRun (F : Type) where
  titles : List String
  now : Int
  newest : String → Option Int
  pending : List String
  held : List (TitleRead F)
  stored : List (TitleRead F)
  failedTitles : List String

structure SyncState (F : Type) where
  table : List (VenueSale F)
  feeds : String → Feed F
  run : Option (SyncRun F)
  reads : List (TitleRead F)
  synced : List (TitleRead F)

inductive SyncEvent (F : Type) where
  | change (title : String) (feed : Feed F)
  | start (now : Int) (titles : List String)
  | stop
  /-- The requests of a title; `fails` says which raise. -/
  | read (title : String) (fails : Nat → Option RequestError)
  /-- The transaction of `store_sales` under the write lock. -/
  | store (title : String)

section

variable {F : Type}

/-- The requests of one reading. -/
def answer (fails : Nat → Option RequestError) (feed : Feed F) (number offset : Nat) :
    Except RequestError (SalesPage F) :=
  match fails number with
  | some e => .error e
  | none => .ok (lastSales feed offset)

/-- The start of a run: `newest_sale_times`, and no title read. -/
def SyncRun.start (table : List (VenueSale F)) (now : Int) (titles : List String) : SyncRun F where
  titles := titles
  now := now
  newest := newestSaleTime table
  pending := titles
  held := []
  stored := []
  failedTitles := []

/-- Where `sync_one` reads back to. -/
def SyncRun.readBackTo (run : SyncRun F) (title : String) : Int :=
  SalesSync.readBackTo (run.newest title) run.now

/-- The first part of `sync_one`: the requests. -/
def readTitle (s : SyncState F) (run : SyncRun F) (title : String)
    (fails : Nat → Option RequestError) : SyncState F :=
  let left := { run with pending := run.pending.erase title }
  match fetchTitleSales (answer fails (s.feeds title)) (run.readBackTo title) with
  | .error _ => { s with run := some { left with failedTitles := run.failedTitles ++ [title] } }
  | .ok (sales, _) =>
      let read := ⟨title, run.readBackTo title, s.feeds title, sales⟩
      { s with run := some { left with held := run.held ++ [read] }, reads := s.reads ++ [read] }

/-- The second part of `sync_one`: the write. -/
def storeRead [PyFloat F] (s : SyncState F) (run : SyncRun F) (read : TitleRead F) : SyncState F :=
  { s with
    table := storeSales s.table read.sales run.now
    run := some { run with
      held := run.held.filter fun other => other.title ≠ read.title
      stored := run.stored ++ [read] }
    synced := s.synced ++ [read] }

def step [PyFloat F] (s : SyncState F) : SyncEvent F → Option (SyncState F)
  | .change title feed => some { s with feeds := Function.update s.feeds title feed }
  | .start now titles => some { s with run := some (SyncRun.start s.table now titles) }
  | .stop => some { s with run := none }
  | .read title fails => s.run.bind fun run =>
      if title ∈ run.pending then some (readTitle s run title fails) else none
  | .store title => s.run.bind fun run =>
      (run.held.find? fun read => read.title = title).map (storeRead s run)

/-! ## What is promised of the feeds -/

/-- A title's feed: newest first, and of the title. -/
structure FeedOf (title : String) (feed : Feed F) : Prop where
  newestFirst : NewestFirst feed
  titles : ∀ sale ∈ parseSales feed, sale.title = title

/-- A feed keeps its sales. A new one is no older than the sales stored, and those read by the
run and not stored yet. -/
structure NewSalesOnTop (s : SyncState F) (title : String) (feed : Feed F) : Prop where
  feedOf : FeedOf title feed
  added : ∃ new, (parseSales feed).Perm (parseSales (s.feeds title) ++ new)
    ∧ ∀ sale ∈ new, (∀ newest, newestSaleTime s.table title = some newest → newest ≤ sale.soldAt)
      ∧ ∀ run, s.run = some run → ∀ read ∈ run.held, read.title = title →
        ∀ old ∈ read.sales, old.soldAt ≤ sale.soldAt

/-- What the steps of the environment keep to: the feeds change as `NewSalesOnTop` says, a run's
titles are distinct (`base_titles` gives each once), and the sales in range fit the page limit. -/
def Premise (s : SyncState F) : SyncEvent F → Prop
  | .change title feed => NewSalesOnTop s title feed
  | .start _ titles => titles.Nodup
  | .stop => True
  | .read title _ => ∀ run, s.run = some run →
      FitsPageLimit (s.feeds title) (run.readBackTo title)
  | .store _ => True

/-- Before the first run: no row of the venue. -/
structure Initial (s : SyncState F) : Prop where
  venues : ∀ row ∈ s.table, row.venue ≠ venue
  unique : (s.table.map VenueSale.uniqueKey).Nodup
  feeds : ∀ title, FeedOf title (s.feeds title)
  run : s.run = none
  reads : s.reads = []
  synced : s.synced = []

end

/-! ## What is to hold -/

section

variable {F : Type} [PyFloat F]

/-- The sales of one second that a read has, with their keys. -/
def TitleRead.keysAt (read : TitleRead F) (second : Int) : List (DMarketSale F × String) :=
  (read.sales.zip (saleKeys read.sales)).filter fun p => p.1.soldAt = second

/-- The sales of one second in the feed that was read. -/
def TitleRead.feedAt (read : TitleRead F) (second : Int) : List (DMarketSale F) :=
  (parseSales read.feed).filter fun sale => sale.soldAt = second

/-- A second that both reads cover has its keys in the second one too, and keys for the sales that
are new. -/
def KeysGrow (a b : TitleRead F) : Prop :=
  a.title = b.title → ∀ second, a.readBackTo ≤ second * 1000000 →
    b.readBackTo ≤ second * 1000000 →
    ∃ new extra, (b.feedAt second).Perm (a.feedAt second ++ new)
      ∧ (b.keysAt second).Perm (a.keysAt second ++ extra) ∧ (extra.map Prod.fst).Perm new

variable [DecidableEq F]

/-- The table holds each sale of the read range exactly as often as the feed did. -/
def HoldsRange (table : List (VenueSale F)) (read : TitleRead F) : Prop :=
  ∀ sale, sale.title = read.title → inRange read.readBackTo sale = true →
    heldCount table sale = (parseSales read.feed).count sale

/-- What a stored read has settled: the sales of its range older than its newest one are held as
often as the feed has them. -/
def Settled (s : SyncState F) (read : TitleRead F) : Prop :=
  ∀ sale, sale.title = read.title → inRange read.readBackTo sale = true →
    (∃ newer ∈ read.sales, sale.soldAt < newer.soldAt) →
    heldCount s.table sale = (parseSales (s.feeds read.title)).count sale

/-- Keys are distinct and stable, and each sale is stored once. -/
structure SalesSynced (s : SyncState F) : Prop where
  distinct : ∀ read ∈ s.reads, (saleKeys read.sales).Nodup
  stable : s.reads.Pairwise KeysGrow
  once : ∀ run, s.run = some run → run.pending = [] → run.held = [] →
    ∀ title ∈ run.titles, title ∉ run.failedTitles →
      ∃ read ∈ run.stored, read.title = title ∧ read.readBackTo = run.readBackTo title
        ∧ HoldsRange s.table read
  settled : ∀ read ∈ s.synced, Settled s read

end

/-! ## Feeds that keep their sales -/

section

variable {F : Type}

/-- The later feed has the sales of the earlier one, and more. -/
def Keeps (a b : Feed F) : Prop := ∃ new, (parseSales b).Perm (parseSales a ++ new)

theorem Keeps.refl (a : Feed F) : Keeps a a := ⟨[], by rw [List.append_nil]⟩

theorem Keeps.trans {a b c : Feed F} (hab : Keeps a b) (hbc : Keeps b c) : Keeps a c := by
  obtain ⟨new, hnew⟩ := hab
  obtain ⟨more, hmore⟩ := hbc
  refine ⟨new ++ more, hmore.trans ?_⟩
  rw [← List.append_assoc]
  exact hnew.append_right _

theorem Keeps.count_le [DecidableEq F] {a b : Feed F} (h : Keeps a b) (sale : DMarketSale F) :
    (parseSales a).count sale ≤ (parseSales b).count sale := by
  obtain ⟨new, hnew⟩ := h
  rw [hnew.count_eq, List.count_append]
  exact Nat.le_add_right _ _

end

/-! ## Keys from one read to the next -/

section

variable {F : Type} [PyFloat F] [DecidableEq F]

/-- What a reading has done: the sales of its range, in the order of the feed. -/
structure TitleRead.Complete (read : TitleRead F) : Prop where
  feedOf : FeedOf read.title read.feed
  sales_eq : read.sales = (parseSales read.feed).filter (inRange read.readBackTo)

omit [PyFloat F] [DecidableEq F] in
theorem TitleRead.Complete.titles {read : TitleRead F} (h : read.Complete) :
    ∀ sale ∈ read.sales, sale.title = read.title := by
  intro sale hsale
  rw [h.sales_eq] at hsale
  exact h.feedOf.titles sale (List.mem_filter.mp hsale).1

omit [PyFloat F] [DecidableEq F] in
/-- A second of the read range is read as the feed has it. -/
theorem TitleRead.Complete.filter_eq {read : TitleRead F} (h : read.Complete) {second : Int}
    (hsecond : read.readBackTo ≤ second * 1000000) :
    read.sales.filter (fun sale => sale.soldAt = second) = read.feedAt second := by
  rw [h.sales_eq, List.filter_filter, TitleRead.feedAt]
  refine List.filter_congr fun sale _ => ?_
  by_cases hsale : sale.soldAt = second
  · have hin : inRange read.readBackTo sale = true := by
      rw [inRange, hsale]
      exact decide_eq_true hsecond
    rw [hin, Bool.and_true]
  · rw [decide_eq_false hsale, Bool.false_and]

variable [LawfulPyFloat F]

/-- The keys of a second are its sales with their numbers. -/
theorem TitleRead.Complete.keysAt_perm {read : TitleRead F} (h : read.Complete) {second : Int}
    (hsecond : read.readBackTo ≤ second * 1000000) :
    (read.keysAt second).Perm
      ((numbered (read.feedAt second)).map fun p => (p.1, p.1.key p.2)) := by
  rw [TitleRead.keysAt, zip_saleKeys h.titles, List.filter_map, ← h.filter_eq hsecond]
  exact (numbered_filter_perm (fun sale => decide (sale.soldAt = second)) read.sales).map _

/-- Keys are stable as long as the feed keeps its sales. -/
theorem keysGrow_of_keeps {a b : TitleRead F} (ha : a.Complete) (hb : b.Complete)
    (hfeed : a.title = b.title → Keeps a.feed b.feed) : KeysGrow a b := by
  intro htitle second hasecond hbsecond
  obtain ⟨new, hnew⟩ := hfeed htitle
  have hat : (b.feedAt second).Perm
      (a.feedAt second ++ new.filter fun sale => sale.soldAt = second) := by
    have hfilter := hnew.filter fun sale => decide (sale.soldAt = second)
    rwa [List.filter_append] at hfilter
  obtain ⟨extra, hnumbered, hfst⟩ := numbered_append_perm hat
  refine ⟨_, extra.map fun p => (p.1, p.1.key p.2), hat, ?_, ?_⟩
  · refine (hb.keysAt_perm hbsecond).trans ((hnumbered.map _).trans ?_)
    rw [List.map_append]
    exact (ha.keysAt_perm hasecond).symm.append_right _
  · rw [List.map_map]
    exact hfst

end

/-! ## The invariant -/

section

variable {F : Type} [PyFloat F] [DecidableEq F]

/-- Of a run that is going on: its titles are in one place each, a read not stored yet is still
ahead of the table and the feed has moved above it only, and what is stored is exact. -/
structure RunInv (s : SyncState F) (run : SyncRun F) : Prop where
  pendingNodup : run.pending.Nodup
  heldApart : ∀ read ∈ run.held, read.title ∉ run.pending
  storedApart : ∀ read ∈ run.stored, read.title ∉ run.pending
    ∧ ∀ other ∈ run.held, other.title ≠ read.title
  covered : ∀ title ∈ run.titles, title ∈ run.pending ∨ (∃ read ∈ run.held, read.title = title)
    ∨ (∃ read ∈ run.stored, read.title = title) ∨ title ∈ run.failedTitles
  heldReads : ∀ read ∈ run.held, read ∈ s.reads
  heldStarts : ∀ read ∈ run.held, read.readBackTo = run.readBackTo read.title
  storedStarts : ∀ read ∈ run.stored, read.readBackTo = run.readBackTo read.title
  ahead : ∀ read ∈ run.held, ∀ sale, sale.title = read.title →
    heldCount s.table sale ≤ (parseSales read.feed).count sale
  above : ∀ read ∈ run.held, ∀ sale, (∃ newer ∈ read.sales, sale.soldAt < newer.soldAt) →
    (parseSales (s.feeds read.title)).count sale = (parseSales read.feed).count sale
  once : ∀ read ∈ run.stored, HoldsRange s.table read

structure Inv (s : SyncState F) : Prop where
  tallied : ∃ tally, Tallied s.table tally
  feeds : ∀ title, FeedOf title (s.feeds title)
  real : ∀ sale, heldCount s.table sale ≤ (parseSales (s.feeds sale.title)).count sale
  complete : ∀ read ∈ s.reads, read.Complete
  keeps : s.reads.Pairwise fun a b => a.title = b.title → Keeps a.feed b.feed
  known : ∀ read ∈ s.reads, Keeps read.feed (s.feeds read.title)
  syncedReads : ∀ read ∈ s.synced, read ∈ s.reads
  kept : ∀ read ∈ s.synced, ∀ sale ∈ read.sales, 0 < heldCount s.table sale
  settled : ∀ read ∈ s.synced, Settled s read
  run : ∀ run, s.run = some run → RunInv s run

/-! ### Changes of a feed -/

omit [PyFloat F] in
/-- A sale older than one that is stored, or read and about to be, is not new. -/
theorem NewSalesOnTop.count_eq {s : SyncState F} {title : String} {feed : Feed F}
    (h : NewSalesOnTop s title feed) {sale : DMarketSale F}
    (hold : (∃ newest, newestSaleTime s.table title = some newest ∧ sale.soldAt < newest)
      ∨ ∃ run, s.run = some run ∧ ∃ read ∈ run.held, read.title = title ∧
        ∃ newer ∈ read.sales, sale.soldAt < newer.soldAt) :
    (parseSales feed).count sale = (parseSales (s.feeds title)).count sale := by
  obtain ⟨new, hperm, hnew⟩ := h.added
  have hnot : sale ∉ new := by
    intro hmem
    obtain ⟨hstored, hread⟩ := hnew sale hmem
    rcases hold with ⟨newest, hnewest, hlt⟩ | ⟨run, hrun, read, hheld, htitle, newer, hnewer, hlt⟩
    · have hle := hstored newest hnewest
      omega
    · have hle := hread run hrun read hheld htitle newer hnewer
      omega
  rw [hperm.count_eq, List.count_append, List.count_eq_zero.mpr hnot, Nat.add_zero]

variable [LawfulPyFloat F]

theorem inv_change {s : SyncState F} (h : Inv s) {title : String} {feed : Feed F}
    (hp : NewSalesOnTop s title feed) :
    Inv { s with feeds := Function.update s.feeds title feed } := by
  obtain ⟨tally, htally⟩ := h.tallied
  have hkeeps : ∀ t, Keeps (s.feeds t) (Function.update s.feeds title feed t) := fun t => by
    by_cases ht : t = title
    · subst ht
      rw [Function.update_self]
      obtain ⟨new, hperm, -⟩ := hp.added
      exact ⟨new, hperm⟩
    · rw [Function.update_of_ne ht]
      exact Keeps.refl _
  refine { h with
    feeds := fun t => ?_
    real := fun sale => (h.real sale).trans ((hkeeps sale.title).count_le sale)
    known := fun read hread => (h.known read hread).trans (hkeeps read.title)
    settled := fun read hread sale htitle hin hnewer => ?_
    run := fun run hrun => { h.run run hrun with
      above := fun read hread sale hnewer => ?_ } }
  · show FeedOf t (Function.update s.feeds title feed t)
    by_cases ht : t = title
    · subst ht
      rw [Function.update_self]
      exact hp.feedOf
    · rw [Function.update_of_ne ht]
      exact h.feeds t
  · have hbefore := h.settled read hread sale htitle hin hnewer
    show heldCount s.table sale = (parseSales (Function.update s.feeds title feed read.title)).count sale
    by_cases ht : read.title = title
    · subst ht
      rw [Function.update_self, hbefore]
      obtain ⟨newer, hmem, hlt⟩ := hnewer
      -- The newer sale is stored, so no new sale comes below it.
      have hheld := h.kept read hread newer hmem
      rw [htally.heldCount_eq] at hheld
      obtain ⟨newest, hnewest, hle⟩ := htally.newest_of_held hheld
      rw [(h.complete read (h.syncedReads read hread)).titles newer hmem] at hnewest
      exact (hp.count_eq (.inl ⟨newest, hnewest, lt_of_lt_of_le hlt hle⟩)).symm
    · rw [Function.update_of_ne ht]
      exact hbefore
  · have hbefore := (h.run run hrun).above read hread sale hnewer
    show (parseSales (Function.update s.feeds title feed read.title)).count sale = _
    by_cases ht : read.title = title
    · subst ht
      rw [Function.update_self, ← hbefore]
      exact hp.count_eq (.inr ⟨run, hrun, read, hread, rfl, hnewer⟩)
    · rw [Function.update_of_ne ht]
      exact hbefore

theorem inv_initial {s : SyncState F} (h : Initial s) : Inv s := by
  have htallied := Tallied.start h.venues h.unique
  refine
    { tallied := ⟨_, htallied⟩
      feeds := h.feeds
      real := fun sale => by rw [htallied.heldCount_eq]; exact Nat.zero_le _
      complete := by rw [h.reads]; exact List.forall_mem_nil _
      keeps := by rw [h.reads]; exact List.Pairwise.nil
      known := by rw [h.reads]; exact List.forall_mem_nil _
      syncedReads := by rw [h.synced]; exact List.forall_mem_nil _
      kept := by rw [h.synced]; exact List.forall_mem_nil _
      settled := by rw [h.synced]; exact List.forall_mem_nil _
      run := fun run hrun => by rw [h.run] at hrun; cases hrun }

omit [LawfulPyFloat F] in
theorem inv_start {s : SyncState F} (h : Inv s) (now : Int) {titles : List String}
    (htitles : titles.Nodup) :
    Inv { s with run := some (SyncRun.start s.table now titles) } := by
  refine { h with run := fun run hrun => ?_ }
  cases hrun
  exact
    { pendingNodup := htitles
      heldApart := List.forall_mem_nil _
      storedApart := List.forall_mem_nil _
      covered := fun title htitle => .inl htitle
      heldReads := List.forall_mem_nil _
      heldStarts := List.forall_mem_nil _
      storedStarts := List.forall_mem_nil _
      ahead := List.forall_mem_nil _
      above := List.forall_mem_nil _
      once := List.forall_mem_nil _ }

/-! ### One title -/

omit [LawfulPyFloat F] in
theorem inv_read {s : SyncState F} (h : Inv s) {run : SyncRun F} (hrun : s.run = some run)
    {title : String} (hpending : title ∈ run.pending)
    (hfits : FitsPageLimit (s.feeds title) (run.readBackTo title))
    (fails : Nat → Option RequestError) : Inv (readTitle s run title fails) := by
  have hinv := h.run run hrun
  have herased : ∀ t, t ∈ run.pending.erase title ↔ t ≠ title ∧ t ∈ run.pending := fun t =>
    hinv.pendingNodup.mem_erase_iff
  rw [readTitle]
  cases hfetch : fetchTitleSales (answer fails (s.feeds title)) (run.readBackTo title) with
  | error e =>
      refine { h with run := fun run' hrun' => ?_ }
      cases hrun'
      refine { hinv with
        pendingNodup := hinv.pendingNodup.erase _
        heldApart := fun read hread hmem => hinv.heldApart read hread ((herased _).mp hmem).2
        storedApart := fun read hread => ⟨fun hmem =>
          (hinv.storedApart read hread).1 ((herased _).mp hmem).2, (hinv.storedApart read hread).2⟩
        covered := fun t ht => ?_ }
      rcases hinv.covered t ht with hp | hh | hs | hf
      · by_cases heq : t = title
        · exact .inr (.inr (.inr (List.mem_append.mpr (.inr (List.mem_singleton.mpr heq)))))
        · exact .inl ((herased t).mpr ⟨heq, hp⟩)
      · exact .inr (.inl hh)
      · exact .inr (.inr (.inl hs))
      · exact .inr (.inr (.inr (List.mem_append.mpr (.inl hf))))
  | ok found =>
      obtain ⟨sales, requests⟩ := found
      have hanswer : ∀ i offset page, answer fails (s.feeds title) i offset = .ok page →
          page = lastSales (s.feeds title) offset := fun i offset page hpage => by
        rw [answer] at hpage
        split at hpage
        · cases hpage
        · cases hpage
          rfl
      have hsales := fetchTitleSales_quiet hanswer (h.feeds title).newestFirst hfits hfetch
      have hcomplete : TitleRead.Complete
          ⟨title, run.readBackTo title, s.feeds title, sales⟩ := ⟨h.feeds title, hsales⟩
      refine { h with
        complete := List.forall_mem_append.mpr ⟨h.complete, List.forall_mem_singleton.mpr hcomplete⟩
        keeps := List.pairwise_append.mpr ⟨h.keeps, List.pairwise_singleton _ _,
          fun a ha b hb htitle => ?_⟩
        known := List.forall_mem_append.mpr ⟨h.known,
          List.forall_mem_singleton.mpr (Keeps.refl _)⟩
        syncedReads := fun read hread => List.mem_append.mpr (.inl (h.syncedReads read hread))
        run := fun run' hrun' => ?_ }
      · obtain rfl := List.mem_singleton.mp hb
        have hknown := h.known a ha
        rwa [show a.title = title from htitle] at hknown
      · cases hrun'
        refine
          { pendingNodup := hinv.pendingNodup.erase _
            heldApart := List.forall_mem_append.mpr
              ⟨fun read hread hmem => hinv.heldApart read hread ((herased _).mp hmem).2,
                List.forall_mem_singleton.mpr fun hmem => ((herased _).mp hmem).1 rfl⟩
            storedApart := fun read hread => ⟨fun hmem =>
              (hinv.storedApart read hread).1 ((herased _).mp hmem).2,
              List.forall_mem_append.mpr ⟨(hinv.storedApart read hread).2,
                List.forall_mem_singleton.mpr fun heq =>
                  (hinv.storedApart read hread).1 (heq ▸ hpending)⟩⟩
            covered := fun t ht => ?_
            heldReads := List.forall_mem_append.mpr
              ⟨fun read hread => List.mem_append.mpr (.inl (hinv.heldReads read hread)),
                List.forall_mem_singleton.mpr (List.mem_append.mpr (.inr List.mem_cons_self))⟩
            heldStarts := List.forall_mem_append.mpr
              ⟨hinv.heldStarts, List.forall_mem_singleton.mpr rfl⟩
            storedStarts := hinv.storedStarts
            ahead := List.forall_mem_append.mpr ⟨hinv.ahead,
              List.forall_mem_singleton.mpr fun sale htitle => ?_⟩
            above := List.forall_mem_append.mpr ⟨hinv.above,
              List.forall_mem_singleton.mpr fun sale _ => rfl⟩
            once := hinv.once }
        · rcases hinv.covered t ht with hp | ⟨read, hread, heq⟩ | hs | hf
          · by_cases heq : t = title
            · exact .inr (.inl ⟨_, List.mem_append.mpr (.inr List.mem_cons_self), heq.symm⟩)
            · exact .inl ((herased t).mpr ⟨heq, hp⟩)
          · exact .inr (.inl ⟨read, List.mem_append.mpr (.inl hread), heq⟩)
          · exact .inr (.inr (.inl hs))
          · exact .inr (.inr (.inr hf))
        · have hreal := h.real sale
          rwa [show sale.title = title from htitle] at hreal

theorem heldCount_store {s : SyncState F} (h : Inv s) {read : TitleRead F} (hread : read ∈ s.reads)
    (fetchedAt : Int) (sale : DMarketSale F) :
    heldCount (storeSales s.table read.sales fetchedAt) sale
      = max (heldCount s.table sale) (read.sales.count sale) := by
  obtain ⟨tally, htally⟩ := h.tallied
  rw [(htally.storeSales (h.complete read hread).titles fetchedAt).heldCount_eq,
    htally.heldCount_eq]

omit [PyFloat F] [LawfulPyFloat F] in
/-- Of a sale, a read has none or as many as its feed. -/
theorem TitleRead.Complete.count_le {read : TitleRead F} (h : read.Complete)
    (sale : DMarketSale F) : read.sales.count sale ≤ (parseSales read.feed).count sale := by
  rw [h.sales_eq]
  exact List.filter_sublist.count_le sale

omit [PyFloat F] [LawfulPyFloat F] in
theorem TitleRead.Complete.count_eq {read : TitleRead F} (h : read.Complete)
    {sale : DMarketSale F} (hin : inRange read.readBackTo sale = true) :
    read.sales.count sale = (parseSales read.feed).count sale := by
  rw [h.sales_eq, List.count_filter hin]

omit [PyFloat F] [LawfulPyFloat F] in
theorem TitleRead.Complete.count_of_ne {read : TitleRead F} (h : read.Complete)
    {sale : DMarketSale F} (htitle : sale.title ≠ read.title) : read.sales.count sale = 0 :=
  List.count_eq_zero.mpr fun hmem => htitle (h.titles sale hmem)

theorem inv_store {s : SyncState F} (h : Inv s) {run : SyncRun F} (hrun : s.run = some run)
    {read : TitleRead F} (hheld : read ∈ run.held) : Inv (storeRead s run read) := by
  have hinv := h.run run hrun
  have hreads := hinv.heldReads read hheld
  have hcomplete := h.complete read hreads
  have hcount := heldCount_store h hreads run.now
  -- Of its own range, the table holds what the feed had when it was read.
  have hrange : HoldsRange (storeSales s.table read.sales run.now) read := fun sale htitle hin => by
    rw [hcount, hcomplete.count_eq hin]
    exact max_eq_right (hinv.ahead read hheld sale htitle)
  have hother : ∀ sale : DMarketSale F, sale.title ≠ read.title →
      heldCount (storeSales s.table read.sales run.now) sale = heldCount s.table sale :=
    fun sale htitle => by
      rw [hcount, hcomplete.count_of_ne htitle]
      exact Nat.max_zero _
  have hknown : ∀ sale : DMarketSale F,
      read.sales.count sale ≤ (parseSales (s.feeds read.title)).count sale := fun sale =>
    (hcomplete.count_le sale).trans ((h.known read hreads).count_le sale)
  obtain ⟨tally, htally⟩ := h.tallied
  refine { h with
    tallied := ⟨_, htally.storeSales hcomplete.titles run.now⟩
    real := fun sale => ?_
    syncedReads := List.forall_mem_append.mpr ⟨h.syncedReads, List.forall_mem_singleton.mpr hreads⟩
    kept := List.forall_mem_append.mpr ⟨fun other hother sale hsale => ?_,
      List.forall_mem_singleton.mpr fun sale hsale => ?_⟩
    settled := List.forall_mem_append.mpr ⟨fun other hsynced sale htitle hin hnewer => ?_,
      List.forall_mem_singleton.mpr fun sale htitle hin hnewer => ?_⟩
    run := fun run' hrun' => ?_ }
  · show heldCount (storeSales s.table read.sales run.now) sale ≤ _
    by_cases htitle : sale.title = read.title
    · have hsale := hknown sale
      rw [← htitle] at hsale
      rw [hcount]
      exact max_le (h.real sale) hsale
    · rw [hother sale htitle]
      exact h.real sale
  · show 0 < heldCount (storeSales s.table read.sales run.now) sale
    rw [hcount]
    exact lt_of_lt_of_le (h.kept other hother sale hsale) (le_max_left _ _)
  · show 0 < heldCount (storeSales s.table read.sales run.now) sale
    rw [hcount]
    exact lt_of_lt_of_le (List.count_pos_iff.mpr hsale) (le_max_right _ _)
  · have hbefore := h.settled other hsynced sale htitle hin hnewer
    show heldCount (storeSales s.table read.sales run.now) sale = _
    by_cases hsame : sale.title = read.title
    · have hle := hknown sale
      rw [← hsame, htitle] at hle
      rw [hcount, hbefore]
      exact max_eq_left hle
    · rw [hother sale hsame]
      exact hbefore
  · show heldCount (storeSales s.table read.sales run.now) sale = _
    rw [hrange sale htitle hin]
    exact (hinv.above read hheld sale hnewer).symm
  · cases hrun'
    have hleft : ∀ {other : TitleRead F},
        other ∈ run.held.filter (fun other => other.title ≠ read.title) ↔
          other ∈ run.held ∧ other.title ≠ read.title := by
      simp only [List.mem_filter, decide_eq_true_eq, implies_true]
    refine { hinv with
      heldApart := fun other hmem => hinv.heldApart other (hleft.mp hmem).1
      storedApart := List.forall_mem_append.mpr
        ⟨fun other hmem => ⟨(hinv.storedApart other hmem).1,
            fun held hheld' => (hinv.storedApart other hmem).2 held (hleft.mp hheld').1⟩,
          List.forall_mem_singleton.mpr ⟨hinv.heldApart read hheld,
            fun held hheld' => (hleft.mp hheld').2⟩⟩
      covered := fun t ht => ?_
      heldReads := fun other hmem => hinv.heldReads other (hleft.mp hmem).1
      heldStarts := fun other hmem => hinv.heldStarts other (hleft.mp hmem).1
      storedStarts := List.forall_mem_append.mpr
        ⟨hinv.storedStarts, List.forall_mem_singleton.mpr (hinv.heldStarts read hheld)⟩
      ahead := fun other hmem sale htitle => ?_
      above := fun other hmem => hinv.above other (hleft.mp hmem).1
      once := List.forall_mem_append.mpr
        ⟨fun other hmem sale htitle hin => ?_, List.forall_mem_singleton.mpr hrange⟩ }
    · rcases hinv.covered t ht with hp | ⟨other, hmem, heq⟩ | ⟨other, hmem, heq⟩ | hf
      · exact .inl hp
      · by_cases hsame : other.title = read.title
        · exact .inr (.inr (.inl ⟨read, List.mem_append.mpr (.inr List.mem_cons_self),
            hsame.symm.trans heq⟩))
        · exact .inr (.inl ⟨other, hleft.mpr ⟨hmem, hsame⟩, heq⟩)
      · exact .inr (.inr (.inl ⟨other, List.mem_append.mpr (.inl hmem), heq⟩))
      · exact .inr (.inr (.inr hf))
    · show heldCount (storeSales s.table read.sales run.now) sale ≤ _
      rw [hother sale (htitle ▸ (hleft.mp hmem).2)]
      exact hinv.ahead other (hleft.mp hmem).1 sale htitle
    · show heldCount (storeSales s.table read.sales run.now) sale = _
      -- The title that is stored now is another one.
      rw [hother sale fun heq => (hinv.storedApart other hmem).2 read hheld (heq.symm.trans htitle)]
      exact hinv.once other hmem sale htitle hin

theorem inv_step {s s' : SyncState F} {e : SyncEvent F} (h : Inv s) (hp : Premise s e)
    (hstep : step s e = some s') : Inv s' := by
  cases e with
  | change title feed =>
      cases hstep
      exact inv_change h hp
  | start now titles =>
      cases hstep
      exact inv_start h now hp
  | stop =>
      cases hstep
      exact { h with run := fun run hrun => by cases hrun }
  | read title fails =>
      obtain ⟨run, hrun, hread⟩ := Option.bind_eq_some_iff.mp hstep
      split at hread
      · next hpending =>
          cases hread
          exact inv_read h hrun hpending (hp run hrun) fails
      · cases hread
  | store title =>
      obtain ⟨run, hrun, hstore⟩ := Option.bind_eq_some_iff.mp hstep
      obtain ⟨read, hfind, hstored⟩ := Option.map_eq_some_iff.mp hstore
      cases hstored
      exact inv_store h hrun (List.mem_of_find?_eq_some hfind)

theorem Inv.salesSynced {s : SyncState F} (h : Inv s) : SalesSynced s where
  distinct read _ := nodup_saleKeys read.sales
  stable := h.keeps.imp_of_mem fun {a b} ha hb hkeeps =>
    keysGrow_of_keeps (h.complete a ha) (h.complete b hb) hkeeps
  once run hrun hpending hheld title htitle hfailed := by
    have hinv := h.run run hrun
    rcases hinv.covered title htitle with hp | ⟨read, hmem, -⟩ | ⟨read, hmem, heq⟩ | hf
    · rw [hpending] at hp
      cases hp
    · rw [hheld] at hmem
      cases hmem
    · have hstart := hinv.storedStarts read hmem
      rw [heq] at hstart
      exact ⟨read, hmem, heq, hstart, hinv.once read hmem⟩
    · exact absurd hf hfailed
  settled := h.settled

/-- **Sale keys are stable, and each sale is stored once.** In every state of every sequence of
runs, with failing requests and restarts, over feeds that change as `Premise` says. -/
theorem salesSynced_of_run {s s' : SyncState F} (h : Initial s) {events : List (SyncEvent F)}
    (hpremise : AllSteps step Premise s events) (hrun : runFrom step s events = some s') :
    SalesSynced s' :=
  (runFrom_inv_of_allSteps Inv Premise (fun _ _ _ hinv hp hstep => inv_step hinv hp hstep) hpremise
    (inv_initial h) hrun).salesSynced

end

/-! Two equal sales of a case and an older one. The first request times out and the process stops;
the next run stores them. Then a third sale comes in the newest second. -/

def caseTitle : String := "Revolution Case"

def caseSale (soldAt : Int) : DMarketSale FloatText where
  title := caseTitle
  soldAt := soldAt
  priceCents := 18
  saleType := .offer
  floatValue := none
  paintSeed := none
  phase := none
  isPhase := isPhase_of_none

def caseFeed : Feed FloatText := [some (caseSale 100), some (caseSale 100), some (caseSale 40)]

def caseStart : SyncState FloatText :=
  ⟨[], fun title => if title = caseTitle then caseFeed else [], none, [], []⟩

def caseEvents : List (SyncEvent FloatText) :=
  [.start 1000000000 [caseTitle], .read caseTitle (fun _ => some .timeout), .stop,
   .start 1000000000 [caseTitle], .read caseTitle (fun _ => none), .store caseTitle,
   .change caseTitle (some (caseSale 100) :: caseFeed),
   .start 1000000000 [caseTitle], .read caseTitle (fun _ => none), .store caseTitle]

theorem premise_caseEvents : AllSteps step Premise caseStart caseEvents := by
  refine .cons (List.nodup_singleton _) fun s1 h1 => ?_
  cases h1
  refine .cons (fun _ _ _ hmem => by cases hmem) fun s1 h1 => ?_
  cases h1
  refine .cons trivial fun s1 h1 => ?_
  cases h1
  refine .cons (List.nodup_singleton _) fun s1 h1 => ?_
  cases h1
  refine .cons (fun _ _ _ hmem => by cases hmem) fun s1 h1 => ?_
  cases h1
  refine .cons trivial fun s1 h1 => ?_
  cases h1
  refine .cons ⟨⟨?_, ?_⟩, [caseSale 100], (List.perm_append_singleton _ _).symm, ?_⟩
    fun s1 h1 => ?_
  · show List.Pairwise _ [caseSale 100, caseSale 100, caseSale 100, caseSale 40]
    decide
  · show ∀ sale ∈ [caseSale 100, caseSale 100, caseSale 100, caseSale 40], sale.title = caseTitle
    decide
  · refine List.forall_mem_singleton.mpr ⟨fun newest hnewest => ?_, fun run hrun read hread => ?_⟩
    · have hstored : some 100 = some newest := by
        rw [← hnewest]
        decide +kernel
      cases hstored
      exact le_refl _
    · cases hrun
      cases hread
  cases h1
  refine .cons (List.nodup_singleton _) fun s1 h1 => ?_
  cases h1
  refine .cons (fun _ _ _ hmem => by cases hmem) fun s1 h1 => ?_
  cases h1
  exact .cons trivial fun s1 h1 => .nil

theorem salesSynced_of_run_case :
    Initial caseStart ∧ AllSteps step Premise caseStart caseEvents
      ∧ ∃ s, runFrom step caseStart caseEvents = some s ∧ SalesSynced s
        ∧ s.table.map VenueSale.saleKey = ["100:18:offer:::#0", "100:18:offer:::#1",
            "40:18:offer:::#0", "100:18:offer:::#2"] := by
  have hinitial : Initial caseStart := by
    refine ⟨List.forall_mem_nil _, List.nodup_nil, fun title => ?_, rfl, rfl, rfl⟩
    show FeedOf title (if title = caseTitle then caseFeed else [])
    split
    · next htitle =>
        subst htitle
        exact ⟨show List.Pairwise _ [caseSale 100, caseSale 100, caseSale 40] by decide,
          show ∀ sale ∈ [caseSale 100, caseSale 100, caseSale 40], sale.title = caseTitle by decide⟩
    · exact ⟨List.Pairwise.nil, List.forall_mem_nil _⟩
  have hkeys : ((runFrom step caseStart caseEvents).map fun s => s.table.map VenueSale.saleKey)
      = some ["100:18:offer:::#0", "100:18:offer:::#1", "40:18:offer:::#0",
          "100:18:offer:::#2"] := by decide +kernel
  obtain ⟨s, hrun, hkeys⟩ := Option.map_eq_some_iff.mp hkeys
  exact ⟨hinitial, premise_caseEvents, s, hrun,
    salesSynced_of_run hinitial premise_caseEvents hrun, hkeys⟩

end BrandSniper.SalesSync
