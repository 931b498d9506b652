import BrandSniper.Dmarket.SaleKeys
import BrandSniper.Kit.Pages

/-!
# The DMarket sales sync

`apps/analytics/dmarket_sales.py`: a title's sales are read newest first from
`last-sales`, back to the newest sale stored, and inserted into `venue_sales`
with ON CONFLICT DO NOTHING.

The feed of a title is the list of its entries, newest first, with `none` for
an entry that `parse_sale` cannot use. It may be another list at each request.
A table that `store_sales` has written holds, of each sale, the rows numbered
below a tally (`Tallied`); storing a read takes the larger of the tally and
what the read holds (`Tallied.storeSales`).

Moments are naive UTC datetimes in microseconds; a sale's time is in seconds.
-/

namespace BrandSniper.SalesSync

open Kit Dmarket

/-- `VENUE` -/
def venue : String := "dmarket"

/-- `HISTORY_DAYS` -/
def historyDays : Int := 90

/-- `MAX_PAGES_PER_TITLE` -/
def maxPagesPerTitle : Nat := 1000

/-- `LAST_SALES_PAGE_SIZE` -/
def lastSalesPageSize : Nat := 20

/-- `_INSERT_CHUNK_SIZE` -/
def insertChunkSize : Nat := 1000

/-- What `sync_one` catches: a `DMarketAPIError`, an `aiohttp.ClientError`, a `TimeoutError`. -/
inductive RequestError where
  | api (status : Nat)
  | client
  | timeout

/-- A row of `venue_sales`. -/
structure VenueSale (F : Type) where
  venue : String
  title : String
  marketHashName : String
  soldAt : Int
  priceCents : Int
  saleType : String
  floatValue : Option F
  paintSeed : Option Int
  saleKey : String
  fetchedAt : Int

/-- One page: its sales, and how many entries it held before parsing. -/
structure SalesPage (F : Type) where
  sales : List (DMarketSale F)
  entries : Nat

/-- The entries of a title's feed, newest first. -/
abbrev Feed (F : Type) := List (Option (DMarketSale F))

section

variable {F : Type}

/-- `parse_sales` -/
def parseSales (entries : Feed F) : List (DMarketSale F) := entries.filterMap id

/-- What `last_sales` answers from a feed. -/
def lastSales (feed : Feed F) (offset : Nat) : SalesPage F :=
  let entries := (feed.drop offset).take lastSalesPageSize
  ⟨parseSales entries, entries.length⟩

/-- `sale.sold_at >= read_back_to` -/
def inRange (readBackTo : Int) (sale : DMarketSale F) : Bool := readBackTo ≤ sale.soldAt * 1000000

/-- The page ends the reading: it is short, or holds an older sale. -/
def endsReading (readBackTo : Int) (page : SalesPage F) : Bool :=
  page.entries < lastSalesPageSize || page.sales.any fun sale => !inRange readBackTo sale

/-- The loop of `fetch_title_sales`, with `left` more requests allowed. `request` answers a
request by its number and offset. -/
def fetchLoop (request : Nat → Nat → Except RequestError (SalesPage F)) (readBackTo : Int) :
    Nat → Nat → List (DMarketSale F) → Nat → Except RequestError (List (DMarketSale F) × Nat)
  | 0, _, sales, requests => .ok (sales, requests)
  | left + 1, offset, sales, requests => do
      let page ← request requests offset
      let sales := sales ++ page.sales.filter (inRange readBackTo)
      if endsReading readBackTo page then
        return (sales, requests + 1)
      fetchLoop request readBackTo left (offset + lastSalesPageSize) sales (requests + 1)

def fetchTitleSales (request : Nat → Nat → Except RequestError (SalesPage F)) (readBackTo : Int) :
    Except RequestError (List (DMarketSale F) × Nat) :=
  fetchLoop request readBackTo maxPagesPerTitle 0 [] 0

/-- `newest_sale_times`, at a title. -/
def newestSaleTime (table : List (VenueSale F)) (title : String) : Option Int :=
  ((table.filter fun row => row.venue = venue ∧ row.title = title).map VenueSale.soldAt).max?

/-- `now - timedelta(days=HISTORY_DAYS)` -/
def oldestWanted (now : Int) : Int := now - historyDays * 86400000000

/-- `max(newest.get(title, oldest_wanted), oldest_wanted)` -/
def readBackTo (newest : Option Int) (now : Int) : Int :=
  max ((newest.map fun soldAt => soldAt * 1000000).getD (oldestWanted now)) (oldestWanted now)

/-- A row of `sale_rows`. -/
def saleRow [PyFloat F] (fetchedAt : Int) (sale : DMarketSale F) (key : String) : VenueSale F where
  venue := venue
  title := sale.title
  marketHashName := sale.marketHashName
  soldAt := sale.soldAt
  priceCents := sale.priceCents
  saleType := sale.saleType.label
  floatValue := sale.floatValue
  paintSeed := sale.paintSeed
  saleKey := key
  fetchedAt := fetchedAt

def saleRows [PyFloat F] (sales : List (DMarketSale F)) (fetchedAt : Int) : List (VenueSale F) :=
  (sales.zip (saleKeys sales)).map fun p => saleRow fetchedAt p.1 p.2

/-- Two rows have the same `venue`, `title` and `sale_key`. -/
def VenueSale.conflicts (a b : VenueSale F) : Bool :=
  a.venue == b.venue && a.title == b.title && a.saleKey == b.saleKey

/-- The row holds a sale: all its columns but the key and the time it was fetched. -/
def VenueSale.isSale [PyFloat F] [DecidableEq F] (sale : DMarketSale F) (row : VenueSale F) : Bool :=
  row.venue == SalesSync.venue && row.title == sale.title
    && row.marketHashName == sale.marketHashName && row.soldAt == sale.soldAt
    && row.priceCents == sale.priceCents && row.saleType == sale.saleType.label
    && decide (row.floatValue = sale.floatValue) && decide (row.paintSeed = sale.paintSeed)

/-- How many rows hold a sale. -/
def heldCount [PyFloat F] [DecidableEq F] (table : List (VenueSale F)) (sale : DMarketSale F) : Nat :=
  table.countP (VenueSale.isSale sale)

/-- ON CONFLICT DO NOTHING -/
def insertRow (table : List (VenueSale F)) (row : VenueSale F) : List (VenueSale F) :=
  if table.any row.conflicts then table else table ++ [row]

/-- `store_sales`: the statements of one transaction. -/
def storeSales [PyFloat F] (table : List (VenueSale F)) (sales : List (DMarketSale F))
    (fetchedAt : Int) : List (VenueSale F) :=
  (chunks insertChunkSize (saleRows sales fetchedAt)).foldl
    (fun table chunk => chunk.foldl insertRow table) table

end

/-! ## Reading -/

section

variable {F : Type}

@[simp] theorem parseSales_append (a b : Feed F) :
    parseSales (a ++ b) = parseSales a ++ parseSales b :=
  List.filterMap_append

theorem count_parseSales [DecidableEq F] (feed : Feed F) (sale : DMarketSale F) :
    (parseSales feed).count sale = feed.count (some sale) := by
  induction feed with
  | nil => rfl
  | cons entry rest ih =>
      cases entry with
      | none =>
          rw [List.count_cons_of_ne (by simp)]
          exact ih
      | some other =>
          show (other :: parseSales rest).count sale = _
          rw [List.count_cons, List.count_cons, ih]
          simp

/-- The first request, of the `left` after request `k`, whose page ends the reading, or else the
last of them. -/
def lastRequest (ends : Nat → Bool) : Nat → Nat → Nat
  | 0, k => k
  | left + 1, k => if ends k then k else lastRequest ends left (k + 1)

theorem lastRequest_spec (ends : Nat → Bool) (left k : Nat) :
    ends (lastRequest ends left k) = true ∨ lastRequest ends left k = k + left := by
  induction left generalizing k with
  | zero => exact .inr rfl
  | succ left ih =>
      rw [lastRequest]
      split
      · next hends => exact .inl hends
      · rw [Nat.add_comm left 1, ← Nat.add_assoc]
        exact ih (k + 1)

theorem lastRequest_le (ends : Nat → Bool) (left k : Nat) : lastRequest ends left k ≤ k + left := by
  induction left generalizing k with
  | zero => exact le_refl _
  | succ left ih =>
      rw [lastRequest]
      split
      · exact Nat.le_add_right _ _
      · rw [Nat.add_comm left 1, ← Nat.add_assoc]
        exact ih (k + 1)

/-- The sales of the first `n` pages, when request `i` is answered from `feeds i`. -/
def shown (feeds : Nat → Feed F) (n : Nat) : List (DMarketSale F) :=
  parseSales ((List.range n).map fun i => page lastSalesPageSize (feeds i) i).flatten

theorem shown_succ (feeds : Nat → Feed F) (n : Nat) :
    shown feeds (n + 1)
      = shown feeds n ++ (lastSales (feeds n) (lastSalesPageSize * n)).sales := by
  rw [shown, List.range_succ, List.map_append, List.flatten_append, parseSales_append]
  simp only [List.map_cons, List.map_nil, List.flatten_cons, List.flatten_nil, List.append_nil]
  rfl

/-- Request `i` is the last one, when it is answered from `feeds i`. -/
def endsAt (feeds : Nat → Feed F) (readBackTo : Int) (i : Nat) : Bool :=
  endsReading readBackTo (lastSales (feeds i) (lastSalesPageSize * i))

/-- The last request of a reading. -/
def finalRequest (feeds : Nat → Feed F) (readBackTo : Int) : Nat :=
  lastRequest (endsAt feeds readBackTo) (maxPagesPerTitle - 1) 0

/-- A request that is answered from the feed. -/
theorem fetchLoop_answered {feeds : Nat → Feed F}
    {request : Nat → Nat → Except RequestError (SalesPage F)} {k : Nat}
    (hpage : request k (lastSalesPageSize * k)
      = .ok (lastSales (feeds k) (lastSalesPageSize * k))) (readBackTo : Int) (left : Nat) :
    fetchLoop request readBackTo (left + 1) (lastSalesPageSize * k)
        ((shown feeds k).filter (inRange readBackTo)) k
      = if endsAt feeds readBackTo k then
          .ok ((shown feeds (k + 1)).filter (inRange readBackTo), k + 1)
        else fetchLoop request readBackTo left (lastSalesPageSize * (k + 1))
          ((shown feeds (k + 1)).filter (inRange readBackTo)) (k + 1) := by
  rw [fetchLoop, hpage, shown_succ, List.filter_append]
  rfl

theorem answered_of_fetchLoop {feeds : Nat → Feed F}
    {request : Nat → Nat → Except RequestError (SalesPage F)}
    (hrequest : ∀ i offset page, request i offset = .ok page → page = lastSales (feeds i) offset)
    {readBackTo : Int} {left offset k : Nat} {acc : List (DMarketSale F)}
    {result : List (DMarketSale F) × Nat}
    (h : fetchLoop request readBackTo (left + 1) offset acc k = .ok result) :
    request k offset = .ok (lastSales (feeds k) offset) := by
  cases hpage : request k offset with
  | error e =>
      rw [fetchLoop, hpage] at h
      cases h
  | ok page => rw [hrequest k offset page hpage]

theorem fetchLoop_ok {feeds : Nat → Feed F}
    {request : Nat → Nat → Except RequestError (SalesPage F)}
    (hrequest : ∀ i offset page, request i offset = .ok page → page = lastSales (feeds i) offset)
    {readBackTo : Int} (left k : Nat) {read : List (DMarketSale F)} {requests : Nat}
    (h : fetchLoop request readBackTo (left + 1) (lastSalesPageSize * k)
      ((shown feeds k).filter (inRange readBackTo)) k = .ok (read, requests)) :
    read = (shown feeds (lastRequest (endsAt feeds readBackTo) left k + 1)).filter
      (inRange readBackTo) := by
  induction left generalizing k with
  | zero =>
      rw [fetchLoop_answered (answered_of_fetchLoop hrequest h)] at h
      split at h
      · cases h
        rfl
      · cases h
        rfl
  | succ left ih =>
      rw [fetchLoop_answered (answered_of_fetchLoop hrequest h)] at h
      rw [lastRequest]
      split at h
      · next hends =>
          rw [if_pos hends]
          cases h
          rfl
      · next hends =>
          rw [if_neg hends]
          exact ih (k + 1) h

/-- What a reading returns: the sales of the pages up to its last, from the time on. -/
theorem fetchTitleSales_ok (feeds : Nat → Feed F)
    {request : Nat → Nat → Except RequestError (SalesPage F)}
    (hrequest : ∀ i offset page, request i offset = .ok page → page = lastSales (feeds i) offset)
    {readBackTo : Int} {read : List (DMarketSale F)} {requests : Nat}
    (h : fetchTitleSales request readBackTo = .ok (read, requests)) :
    read = (shown feeds (finalRequest feeds readBackTo + 1)).filter (inRange readBackTo) :=
  fetchLoop_ok hrequest (maxPagesPerTitle - 1) 0 h

/-- A reading whose requests are all answered returns. -/
theorem fetchLoop_served (feeds : Nat → Feed F) (readBackTo : Int) (left k : Nat) :
    fetchLoop (fun number offset => .ok (lastSales (feeds number) offset)) readBackTo (left + 1)
        (lastSalesPageSize * k) ((shown feeds k).filter (inRange readBackTo)) k
      = .ok ((shown feeds (lastRequest (endsAt feeds readBackTo) left k + 1)).filter
          (inRange readBackTo), lastRequest (endsAt feeds readBackTo) left k + 1) := by
  induction left generalizing k with
  | zero =>
      rw [fetchLoop_answered rfl]
      split
      · rfl
      · rfl
  | succ left ih =>
      rw [fetchLoop_answered rfl, lastRequest]
      split
      · rfl
      · exact ih (k + 1)

/-! ## A feed that stays the same -/

/-- Newest first. -/
def NewestFirst (feed : Feed F) : Prop :=
  (parseSales feed).Pairwise fun a b => b.soldAt ≤ a.soldAt

/-- The sales in range are on the pages that a reading may take. -/
def FitsPageLimit (feed : Feed F) (readBackTo : Int) : Prop :=
  ∀ sale ∈ parseSales (feed.drop (lastSalesPageSize * maxPagesPerTitle)),
    inRange readBackTo sale = false

theorem inRange_of_le {readBackTo : Int} {a b : DMarketSale F} (hle : a.soldAt ≤ b.soldAt)
    (ha : inRange readBackTo a = true) : inRange readBackTo b = true := by
  rw [inRange, decide_eq_true_eq] at *
  omega

/-- Where a reading ends, no sale in range is left. -/
theorem rest_of_endsReading {feed : Feed F} {readBackTo : Int} (hsorted : NewestFirst feed) {i : Nat}
    (hends : endsReading readBackTo (lastSales feed (lastSalesPageSize * i)) = true) :
    ∀ sale ∈ parseSales (feed.drop (lastSalesPageSize * (i + 1))),
      inRange readBackTo sale = false := by
  intro sale hsale
  rw [Nat.mul_succ, ← List.drop_drop] at hsale
  rw [endsReading, Bool.or_eq_true, decide_eq_true_eq] at hends
  rcases hends with hshort | hold
  · -- A short page is the feed's last one.
    have hall : (feed.drop (lastSalesPageSize * i)).length < lastSalesPageSize := by
      change ((feed.drop (lastSalesPageSize * i)).take lastSalesPageSize).length < _ at hshort
      rw [List.length_take] at hshort
      omega
    rw [List.drop_eq_nil_of_le (le_of_lt hall)] at hsale
    cases hsale
  · obtain ⟨old, hmem, hold⟩ := List.any_eq_true.mp hold
    rw [NewestFirst, ← List.take_append_drop (lastSalesPageSize * i) feed, parseSales_append] at hsorted
    have htail := (List.pairwise_append.mp hsorted).2.1
    rw [← List.take_append_drop lastSalesPageSize (feed.drop (lastSalesPageSize * i)),
      parseSales_append] at htail
    have hle := (List.pairwise_append.mp htail).2.2 old hmem sale hsale
    refine Bool.eq_false_iff.mpr fun hin => ?_
    rw [inRange_of_le hle hin] at hold
    cases hold

theorem filter_take_of_rest {feed : Feed F} {readBackTo : Int} {n : Nat}
    (hrest : ∀ sale ∈ parseSales (feed.drop n), inRange readBackTo sale = false) :
    (parseSales (feed.take n)).filter (inRange readBackTo)
      = (parseSales feed).filter (inRange readBackTo) := by
  have hnone : (parseSales (feed.drop n)).filter (inRange readBackTo) = [] :=
    List.filter_eq_nil_iff.mpr fun sale hsale => Bool.eq_false_iff.mp (hrest sale hsale)
  conv_rhs => rw [← List.take_append_drop n feed, parseSales_append, List.filter_append, hnone,
    List.append_nil]

/-- A reading of a feed that stays the same returns its sales from the time on. -/
theorem fetchTitleSales_quiet {feed : Feed F}
    {request : Nat → Nat → Except RequestError (SalesPage F)}
    (hrequest : ∀ i offset page, request i offset = .ok page → page = lastSales feed offset)
    {readBackTo : Int} (hsorted : NewestFirst feed) (hfits : FitsPageLimit feed readBackTo)
    {read : List (DMarketSale F)} {requests : Nat}
    (h : fetchTitleSales request readBackTo = .ok (read, requests)) :
    read = (parseSales feed).filter (inRange readBackTo) := by
  have hread := fetchTitleSales_ok (fun _ => feed) hrequest h
  have hrest : ∀ sale ∈ parseSales
      (feed.drop (lastSalesPageSize * (finalRequest (fun _ => feed) readBackTo + 1))),
      inRange readBackTo sale = false := by
    rcases lastRequest_spec (endsAt (fun _ => feed) readBackTo) (maxPagesPerTitle - 1) 0 with
      hends | hlimit
    · exact rest_of_endsReading hsorted hends
    · rw [finalRequest, hlimit]
      exact hfits
  rw [hread, shown, flatten_pages]
  exact filter_take_of_rest hrest

end

/-! ## The unique index -/

section

variable {F : Type}

/-- The columns of the unique index. -/
def VenueSale.uniqueKey (row : VenueSale F) : String × String × String :=
  (row.venue, row.title, row.saleKey)

theorem conflicts_iff (a b : VenueSale F) : a.conflicts b = true ↔ b.uniqueKey = a.uniqueKey := by
  simp only [VenueSale.conflicts, VenueSale.uniqueKey, Bool.and_eq_true, beq_iff_eq, Prod.mk.injEq]
  constructor
  · rintro ⟨⟨hvenue, htitle⟩, hkey⟩
    exact ⟨hvenue.symm, htitle.symm, hkey.symm⟩
  · rintro ⟨hvenue, htitle, hkey⟩
    exact ⟨⟨hvenue.symm, htitle.symm⟩, hkey.symm⟩

theorem any_conflicts_iff (table : List (VenueSale F)) (row : VenueSale F) :
    table.any row.conflicts = true ↔ row.uniqueKey ∈ table.map VenueSale.uniqueKey := by
  rw [List.any_eq_true, List.mem_map]
  simp only [conflicts_iff]

theorem mem_insertRow {table : List (VenueSale F)} {row other : VenueSale F}
    (h : other ∈ insertRow table row) : other ∈ table ∨ other = row := by
  rw [insertRow] at h
  split at h
  · exact .inl h
  · rwa [List.mem_append, List.mem_singleton] at h

theorem key_mem_insertRow (table : List (VenueSale F)) (row : VenueSale F)
    (key : String × String × String) :
    key ∈ (insertRow table row).map VenueSale.uniqueKey
      ↔ key ∈ table.map VenueSale.uniqueKey ∨ key = row.uniqueKey := by
  rw [insertRow]
  split
  · next hany =>
      refine ⟨.inl, fun h => h.elim id fun hkey => ?_⟩
      rw [hkey]
      exact (any_conflicts_iff table row).mp hany
  · rw [List.map_append, List.mem_append, List.map_singleton, List.mem_singleton]

theorem nodup_insertRow {table : List (VenueSale F)} (row : VenueSale F)
    (h : (table.map VenueSale.uniqueKey).Nodup) :
    ((insertRow table row).map VenueSale.uniqueKey).Nodup := by
  rw [insertRow]
  split
  · exact h
  · next hany =>
      rw [List.map_append, List.map_singleton]
      rw [← List.concat_eq_append]
      exact h.concat fun hmem => hany ((any_conflicts_iff table row).mpr hmem)

theorem mem_insertRows {table rows : List (VenueSale F)} {other : VenueSale F}
    (h : other ∈ rows.foldl insertRow table) : other ∈ table ∨ other ∈ rows := by
  induction rows generalizing table with
  | nil => exact .inl h
  | cons row rest ih =>
      rcases ih h with hinserted | hrest
      · rcases mem_insertRow hinserted with htable | rfl
        · exact .inl htable
        · exact .inr List.mem_cons_self
      · exact .inr (List.mem_cons_of_mem _ hrest)

/-- The keys in use after some rows are those in use before, and the rows'. -/
theorem key_mem_insertRows (table rows : List (VenueSale F)) (key : String × String × String) :
    key ∈ (rows.foldl insertRow table).map VenueSale.uniqueKey
      ↔ key ∈ table.map VenueSale.uniqueKey ∨ key ∈ rows.map VenueSale.uniqueKey := by
  induction rows generalizing table with
  | nil => simp
  | cons row rest ih =>
      rw [List.foldl_cons, ih, key_mem_insertRow, List.map_cons, List.mem_cons, or_assoc]

theorem nodup_insertRows {table : List (VenueSale F)} (rows : List (VenueSale F))
    (h : (table.map VenueSale.uniqueKey).Nodup) :
    ((rows.foldl insertRow table).map VenueSale.uniqueKey).Nodup := by
  induction rows generalizing table with
  | nil => exact h
  | cons row rest ih => exact ih (nodup_insertRow row h)

end

/-! ## The tally of a table -/

section

variable {F : Type} [PyFloat F] [DecidableEq F]

omit [DecidableEq F] in
/-- The chunks of a call are one list of rows. -/
theorem storeSales_eq (table : List (VenueSale F)) (read : List (DMarketSale F)) (fetchedAt : Int) :
    storeSales table read fetchedAt = (saleRows read fetchedAt).foldl insertRow table := by
  rw [storeSales, ← List.foldl_flatten, flatten_chunks (by decide)]

/-- The table's rows of the venue are sales with numbers, of each sale those below its tally. -/
structure Tallied (table : List (VenueSale F)) (tally : DMarketSale F → Nat) : Prop where
  ofSale : ∀ row ∈ table, row.venue = venue →
    ∃ sale number, row = saleRow row.fetchedAt sale (sale.key number)
  nodup : (table.map VenueSale.uniqueKey).Nodup
  below : HoldsBelow (fun sale number =>
    (venue, sale.title, sale.key number) ∈ table.map VenueSale.uniqueKey) tally

omit [DecidableEq F] in
/-- A table without rows of the venue. -/
theorem Tallied.start {table : List (VenueSale F)} (venues : ∀ row ∈ table, row.venue ≠ venue)
    (unique : (table.map VenueSale.uniqueKey).Nodup) : Tallied table fun _ => 0 := by
  refine ⟨fun row hrow hvenue => absurd hvenue (venues row hrow), unique,
    fun sale number => ⟨fun hmem => ?_, fun hlt => absurd hlt (Nat.not_lt_zero _)⟩⟩
  obtain ⟨row, hrow, hkey⟩ := List.mem_map.mp hmem
  exact absurd (Prod.mk.inj hkey).1 (venues row hrow)

theorem isSale_saleRow {fetchedAt : Int} {other sale : DMarketSale F} {key : String} :
    (saleRow fetchedAt other key).isSale sale = true ↔ other = sale := by
  constructor
  · intro h
    simp only [VenueSale.isSale, saleRow, Bool.and_eq_true, beq_iff_eq] at h
    obtain ⟨⟨⟨⟨⟨⟨⟨-, htitle⟩, hname⟩, hsold⟩, hprice⟩, htype⟩, hfloat⟩, hseed⟩ := h
    exact DMarketSale.ext htitle hsold hprice (SaleType.label_inj (congrArg String.toList htype))
      (of_decide_eq_true hfloat) (of_decide_eq_true hseed) (phase_of_marketHashName htitle hname)
  · rintro rfl
    simp [VenueSale.isSale, saleRow]

variable [LawfulPyFloat F]

omit [LawfulPyFloat F] in
/-- A row that holds a sale has one of its keys. -/
theorem Tallied.exists_key {table : List (VenueSale F)} {tally : DMarketSale F → Nat}
    (h : Tallied table tally) {sale : DMarketSale F} {row : VenueSale F} (hrow : row ∈ table)
    (hsale : row.isSale sale = true) :
    ∃ number < tally sale, row = saleRow row.fetchedAt sale (sale.key number) := by
  have hvenue : row.venue = venue := by
    simp only [VenueSale.isSale, Bool.and_eq_true, beq_iff_eq] at hsale
    exact hsale.1.1.1.1.1.1.1
  obtain ⟨other, number, heq⟩ := h.ofSale row hrow hvenue
  rw [heq] at hsale
  obtain rfl := isSale_saleRow.mp hsale
  refine ⟨number, (h.below other number).mp ?_, heq⟩
  have hmem := List.mem_map_of_mem (f := VenueSale.uniqueKey) hrow
  rwa [heq] at hmem

/-- A number below the tally has a row that holds the sale. -/
theorem Tallied.exists_row {table : List (VenueSale F)} {tally : DMarketSale F → Nat}
    (h : Tallied table tally) {sale : DMarketSale F} {number : Nat} (hnumber : number < tally sale) :
    ∃ row ∈ table, row.isSale sale = true ∧ row.venue = venue ∧ row.saleKey = sale.key number := by
  obtain ⟨row, hrow, hkey⟩ := List.mem_map.mp ((h.below sale number).mpr hnumber)
  obtain ⟨hvenue, htitle, hkey⟩ := Prod.mk.inj hkey |>.imp id Prod.mk.inj
  obtain ⟨other, m, heq⟩ := h.ofSale row hrow hvenue
  have htitle' : other.title = sale.title := by rw [← htitle, heq]; rfl
  have hkey' : other.key m = sale.key number := by rw [← hkey, heq]; rfl
  obtain ⟨rfl, -⟩ := key_inj htitle' hkey'
  exact ⟨row, hrow, by rw [heq]; exact isSale_saleRow.mpr rfl, hvenue, hkey⟩

/-- A tally counts the rows. -/
theorem Tallied.heldCount_eq {table : List (VenueSale F)} {tally : DMarketSale F → Nat}
    (h : Tallied table tally) (sale : DMarketSale F) : heldCount table sale = tally sale := by
  have hkey : Function.Injective (DMarketSale.key sale) := fun m n hmn => (key_inj rfl hmn).2
  rw [heldCount, List.countP_eq_length_filter, ← List.length_map VenueSale.saleKey]
  refine length_of_labels hkey ?_ fun key => ?_
  · -- Rows of one venue and title differ in their keys.
    have hnodup := h.nodup.sublist ((List.filter_sublist (p := VenueSale.isSale sale)).map _)
    refine List.pairwise_map.mpr ((List.pairwise_map.mp hnodup).imp_of_mem fun {a b} ha hb hne => ?_)
    obtain ⟨ha, hsale⟩ := List.mem_filter.mp ha
    obtain ⟨hb, hsale'⟩ := List.mem_filter.mp hb
    obtain ⟨m, -, haeq⟩ := h.exists_key ha hsale
    obtain ⟨n, -, hbeq⟩ := h.exists_key hb hsale'
    rw [haeq, hbeq] at hne ⊢
    exact fun heq => hne (by rw [VenueSale.uniqueKey, VenueSale.uniqueKey, heq]; rfl)
  · rw [List.mem_map]
    constructor
    · rintro ⟨row, hrow, rfl⟩
      obtain ⟨hrow, hsale⟩ := List.mem_filter.mp hrow
      obtain ⟨number, hlt, heq⟩ := h.exists_key hrow hsale
      exact ⟨number, hlt, by rw [heq]; rfl⟩
    · rintro ⟨number, hlt, rfl⟩
      obtain ⟨row, hrow, hsale, -, hkey⟩ := h.exists_row hlt
      exact ⟨row, List.mem_filter.mpr ⟨hrow, hsale⟩, hkey⟩

/-- **A store takes the larger count.** After the sales of one title are stored, the table holds
of each sale as many rows as before or as the read has, whichever is more. -/
theorem Tallied.storeSales {table : List (VenueSale F)} {tally : DMarketSale F → Nat}
    (h : Tallied table tally) {title : String} {read : List (DMarketSale F)}
    (htitles : ∀ sale ∈ read, sale.title = title) (fetchedAt : Int) :
    Tallied (storeSales table read fetchedAt) fun sale => max (tally sale) (read.count sale) := by
  have hrows : saleRows read fetchedAt
      = (numbered read).map fun p => saleRow fetchedAt p.1 (p.1.key p.2) := by
    rw [saleRows, zip_saleKeys htitles, List.map_map]
    rfl
  rw [storeSales_eq]
  refine ⟨fun row hrow hvenue => ?_, nodup_insertRows _ h.nodup, h.below.store fun sale number => ?_⟩
  · rcases mem_insertRows hrow with hold | hnew
    · exact h.ofSale row hold hvenue
    · rw [hrows] at hnew
      obtain ⟨p, -, rfl⟩ := List.mem_map.mp hnew
      exact ⟨p.1, p.2, rfl⟩
  · rw [key_mem_insertRows, hrows, List.map_map]
    refine or_congr Iff.rfl (List.mem_map.trans
      ⟨fun ⟨p, hmem, hkey⟩ => ?_, fun hmem => ⟨_, hmem, rfl⟩⟩)
    obtain ⟨htitle, hkey⟩ := Prod.mk.inj (Prod.mk.inj hkey).2
    obtain ⟨hsale, hnumber⟩ := key_inj htitle hkey
    rwa [← hsale, ← hnumber]

omit [PyFloat F] [DecidableEq F] [LawfulPyFloat F] in
theorem mem_soldTimes {table : List (VenueSale F)} {title : String} {soldAt : Int} :
    soldAt ∈ (table.filter fun row => row.venue = venue ∧ row.title = title).map VenueSale.soldAt
      ↔ ∃ row ∈ table, (row.venue = venue ∧ row.title = title) ∧ row.soldAt = soldAt := by
  simp only [List.mem_map, List.mem_filter, decide_eq_true_eq, and_assoc]

/-- A sale that is held is not newer than the newest time stored. -/
theorem Tallied.newest_of_held {table : List (VenueSale F)} {tally : DMarketSale F → Nat}
    (h : Tallied table tally) {sale : DMarketSale F} (hheld : 0 < tally sale) :
    ∃ newest, newestSaleTime table sale.title = some newest ∧ sale.soldAt ≤ newest := by
  obtain ⟨row, hrow, hsale, -, -⟩ := h.exists_row hheld
  obtain ⟨number, -, heq⟩ := h.exists_key hrow hsale
  have hmem : sale.soldAt ∈ (table.filter fun row =>
      row.venue = venue ∧ row.title = sale.title).map VenueSale.soldAt :=
    mem_soldTimes.mpr ⟨row, hrow, by rw [heq]; exact ⟨⟨rfl, rfl⟩, rfl⟩⟩
  cases hmax : newestSaleTime table sale.title with
  | none =>
      rw [newestSaleTime, List.max?_eq_none_iff] at hmax
      rw [hmax] at hmem
      cases hmem
  | some newest => exact ⟨newest, rfl, (List.max?_eq_some_iff.mp hmax).2 _ hmem⟩

omit [DecidableEq F] [LawfulPyFloat F] in
/-- The newest time stored for a title is that of a sale held. -/
theorem Tallied.held_of_newest {table : List (VenueSale F)} {tally : DMarketSale F → Nat}
    (h : Tallied table tally) {title : String} {newest : Int}
    (hnewest : newestSaleTime table title = some newest) :
    ∃ sale, sale.title = title ∧ 0 < tally sale ∧ sale.soldAt = newest := by
  obtain ⟨row, hrow, ⟨hvenue, htitle⟩, hsold⟩ :=
    mem_soldTimes.mp (List.max?_eq_some_iff.mp hnewest).1
  obtain ⟨sale, number, heq⟩ := h.ofSale row hrow hvenue
  have hmem := List.mem_map_of_mem (f := VenueSale.uniqueKey) hrow
  rw [heq] at htitle hsold hmem
  exact ⟨sale, htitle, Nat.zero_lt_of_lt ((h.below sale number).mp hmem), hsold⟩

end

end BrandSniper.SalesSync
