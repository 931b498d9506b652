import BrandSniper.Analytics.Scorecard
import BrandSniper.Backend.Trades
import BrandSniper.Kit.Deciders
import BrandSniper.Listener.Executor

/-!
# One purchase rule in three components

The executor remembers key texts in a dictionary, the scorecard keeps them in
a set, and the backend looks rows up and has unique indexes. On one sequence
of approvals the three keep the same ones: each simulates `purchaseRule`,
which keeps an approval unless its buy repeats one kept before.
-/

namespace BrandSniper

open Kit

/-- An approved tick, with what the three components are told of it. -/
structure Approval where
  venue : String
  marketHashName : String
  priceCents : Int
  listingId : Option String
  /-- The time of the approval, in seconds. -/
  timestamp : Int
  reason : String
  zSource : Option String
  /-- Rounded to four digits. -/
  triggerZScore : ℚ
  estimatedProfitCents : Option Int
  floatValue : Option ℚ
  buildId : Option Int

namespace Approval

def decidedAt (a : Approval) : Moment := utcFromtimestampNaive a.timestamp

/-- What `execute` is called with, on the day of the approval. -/
def buy (a : Approval) : Buy where
  venue := a.venue
  marketHashName := a.marketHashName
  purchasePriceCents := a.priceCents
  listingId := a.listingId
  utcDay := a.decidedAt.date

/-- The decision record of the approval, made with a build that looks at nothing later. -/
def decision (a : Approval) : LoggedDecision where
  row :=
    { timestamp := a.timestamp
      venue := a.venue
      listingId := a.listingId
      marketHashName := a.marketHashName
      priceCents := a.priceCents
      approve := true
      reason := a.reason
      zSource := a.zSource }
  buildId := a.buildId
  lookAhead := false

/-- What `PaperExecutor.place_order` posts. -/
def posted (a : Approval) : SimulatedTradePayload where
  marketHashName := a.marketHashName
  venue := a.venue
  purchasePriceCents := a.priceCents
  estimatedProfitCents := a.estimatedProfitCents
  profitEstimateBasis := some "net_of_seller_fee"
  triggerZScore := a.triggerZScore
  listingId := a.listingId
  floatValue := a.floatValue

/-- What the backend reads of it: the venue without the blanks around it. -/
def payload (a : Approval) : SimulatedTradePayload :=
  { a.posted with venue := Text.strip a.venue }

/-- The row the backend inserts for it. -/
def row (itemId : String → Nat) (a : Approval) : SimulatedTrade :=
  a.payload.toRow (itemId a.marketHashName) a.decidedAt

end Approval

/-- The executor on one approval. -/
def executeApproval (size : Nat) (bought : OrderedDict String Unit) (a : Approval) :
    OrderedDict String Unit × Bool :=
  execute size bought a.buy

/-- The backend on one approval, and whether it inserted a row. -/
def ingestApproval (itemId : String → Nat) (rows : List SimulatedTrade) (a : Approval) :
    List SimulatedTrade × Bool :=
  match a.posted.validate with
  | none => (rows, false)
  | some payload =>
      let (rows, answer) := ingestSimulatedTrade rows payload (itemId a.marketHashName) a.decidedAt
      (rows, answer = .success)

/-- Venues that the backend tells apart, which strips them. -/
def VenuesDiffer (approvals : List Approval) : Prop :=
  ∀ a ∈ approvals, ∀ b ∈ approvals, Text.strip a.venue = Text.strip b.venue → a.venue = b.venue

instance (approvals : List Approval) : Decidable (VenuesDiffer approvals) :=
  inferInstanceAs (Decidable (∀ a ∈ approvals, ∀ b ∈ approvals, _ → _))

/-! ## Keys stand for the buys kept -/

/-- The texts are the keys of the approvals kept. -/
def KeysOf (kept : List Approval) (P : String → Prop) : Prop :=
  ∀ k, P k ↔ ∃ a ∈ kept, k ∈ a.buy.keyTexts

theorem KeysOf.iff_repeats {kept : List Approval} {P : String → Prop} (h : KeysOf kept P)
    (hkept : ∀ a ∈ kept, ':' ∉ a.venue.toList) {a : Approval} (ha : ':' ∉ a.venue.toList) :
    P a.buy.keys.1 ↔ Repeats (kept.map Approval.buy) a.buy := by
  rw [h]
  unfold Repeats
  constructor
  · intro h
    obtain ⟨t, ht, hkey⟩ := h
    exact ⟨t.buy, List.mem_map_of_mem ht, (key_mem_keyTexts_iff (hkept t ht) ha).mp hkey⟩
  · intro h
    obtain ⟨b, hb, hid⟩ := h
    obtain ⟨t, ht, rfl⟩ := List.mem_map.mp hb
    exact ⟨t, ht, (key_mem_keyTexts_iff (hkept t ht) ha).mpr hid⟩

theorem KeysOf.append {kept : List Approval} {P Q : String → Prop} (h : KeysOf kept P)
    {a : Approval} (hQ : ∀ k, Q k ↔ P k ∨ k ∈ a.buy.keyTexts) : KeysOf (kept ++ [a]) Q := by
  intro k
  rw [hQ, h]
  simp only [List.mem_append, List.mem_singleton, or_and_right, exists_or, exists_eq_left]

/-! ## The executor -/

theorem takes_executeApproval {size : Nat} {approvals : List Approval}
    (hvenue : ∀ a ∈ approvals, ':' ∉ a.venue.toList)
    (hsize : (approvals.flatMap fun a => a.buy.keyTexts).dedup.length ≤ size) :
    takes (executeApproval size) .empty approvals
      = takes (purchaseRule Approval.buy) [] approvals := by
  refine takes_congr (fun bought kept => (∀ a ∈ kept, a ∈ approvals) ∧
    KeysOf kept fun k => bought.contains k = true) (fun a ha bought kept hR => ?_) (by simp [KeysOf])
  obtain ⟨hkept, hkeys⟩ := hR
  have hrepeats := hkeys.iff_repeats (fun t ht => hvenue t (hkept t ht)) (hvenue a ha)
  unfold executeApproval execute purchaseRule
  by_cases hrepeat : Repeats (kept.map Approval.buy) a.buy
  · rw [if_pos (hrepeats.mpr hrepeat), if_pos hrepeat]
    exact ⟨rfl, hkept, hkeys⟩
  · rw [if_neg (fun h => hrepeat (hrepeats.mp h)), if_neg hrepeat]
    have htexts : ∀ t ∈ approvals, ∀ k ∈ t.buy.keyTexts,
        k ∈ approvals.flatMap fun a => a.buy.keyTexts :=
      fun t ht k hk => List.mem_flatMap.mpr ⟨t, ht, hk⟩
    have hbought : ∀ k ∈ bought.keys, k ∈ approvals.flatMap fun a => a.buy.keyTexts := by
      intro k hk
      obtain ⟨t, ht, hkt⟩ := (hkeys k).mp (OrderedDict.contains_iff_mem.mpr hk)
      exact htexts t (hkept t ht) k hkt
    refine ⟨rfl, fun t ht => ?_, hkeys.append (contains_rememberBuy hsize hbought (htexts a ha))⟩
    rcases List.mem_append.mp ht with ht | ht
    · exact hkept t ht
    · rw [List.mem_singleton.mp ht]; exact ha

/-! ## The scorecard -/

/-- The loop over approvals, from trades and keys on. -/
theorem foldl_collectTrade {start : Moment} {approvals : List Approval}
    (hvenue : ∀ a ∈ approvals, ':' ∉ a.venue.toList)
    (hscorable : ∀ a ∈ approvals, a.decision.isScorable start = true)
    {trades : List Trade} {bought : List String} {kept : List Approval}
    (hkept : ∀ a ∈ kept, ':' ∉ a.venue.toList) (hkeys : KeysOf kept fun k => k ∈ bought) :
    ((approvals.map Approval.decision).foldl (collectTrade start) (trades, bought)).1
      = trades ++ (taken (takes (purchaseRule Approval.buy) kept approvals) approvals).map
          fun a => Trade.fromDecision a.decision := by
  induction approvals generalizing trades bought kept with
  | nil => simp [takes, taken]
  | cons a rest ih =>
      have hvenue' := fun b hb => hvenue b (List.mem_cons_of_mem a hb)
      have hscorable' := fun b hb => hscorable b (List.mem_cons_of_mem a hb)
      have ha := hvenue a List.mem_cons_self
      have hrepeats := hkeys.iff_repeats hkept ha
      have hstep : collectTrade start (trades, bought) a.decision =
          if a.buy.keys.1 ∈ bought then (trades, bought)
          else (trades ++ [Trade.fromDecision a.decision], a.buy.keys.1 :: a.buy.keys.2 :: bought) := by
        simp only [collectTrade, hscorable a List.mem_cons_self]
        rfl
      rw [List.map_cons, List.foldl_cons, hstep, takes]
      by_cases hrepeat : Repeats (kept.map Approval.buy) a.buy
      · rw [if_pos (hrepeats.mpr hrepeat), purchaseRule, if_pos hrepeat, taken]
        exact ih hvenue' hscorable' hkept hkeys
      · rw [if_neg (fun h => hrepeat (hrepeats.mp h)), purchaseRule, if_neg hrepeat, taken]
        have hkept' : ∀ b ∈ kept ++ [a], ':' ∉ b.venue.toList := by
          intro b hb
          rcases List.mem_append.mp hb with hb | hb
          · exact hkept b hb
          · rw [List.mem_singleton.mp hb]; exact ha
        have hkeys' : KeysOf (kept ++ [a]) fun k => k ∈ a.buy.keys.1 :: a.buy.keys.2 :: bought := by
          refine hkeys.append fun k => ?_
          simp only [Buy.keyTexts, List.mem_cons, List.not_mem_nil, or_false]
          tauto
        rw [ih hvenue' hscorable' hkept' hkeys']
        simp

/-! ## The backend -/

section
variable {itemId : String → Nat} {approvals : List Approval}

/-- Rows of one item at one price on one venue and day are those of one snapshot id. -/
theorem samePurchaseDay_row_iff (hvenues : VenuesDiffer approvals)
    (hitem : ∀ a ∈ approvals, ∀ b ∈ approvals,
      itemId a.marketHashName = itemId b.marketHashName → a.marketHashName = b.marketHashName)
    {a b : Approval} (ha : a ∈ approvals) (hb : b ∈ approvals) :
    (a.row itemId).samePurchaseDay (b.row itemId) = true ↔
      a.venue = b.venue ∧ a.marketHashName = b.marketHashName ∧ a.priceCents = b.priceCents ∧
        a.decidedAt.date = b.decidedAt.date := by
  rw [SimulatedTrade.samePurchaseDay_iff]
  simp only [Approval.row, Approval.payload, Approval.posted, SimulatedTradePayload.toRow]
  constructor
  · intro h
    obtain ⟨hvenue, hid, hprice, hday⟩ := h
    exact ⟨hvenues a ha b hb hvenue, hitem a ha b hb hid, hprice, hday⟩
  · intro h
    obtain ⟨hvenue, hname, hprice, hday⟩ := h
    exact ⟨congrArg Text.strip hvenue, congrArg itemId hname, hprice, hday⟩

theorem ingestApproval_eq (hvenues : VenuesDiffer approvals)
    (hitem : ∀ a ∈ approvals, ∀ b ∈ approvals,
      itemId a.marketHashName = itemId b.marketHashName → a.marketHashName = b.marketHashName)
    {kept : List Approval} (hkept : ∀ a ∈ kept, a ∈ approvals) {a : Approval}
    (ha : a ∈ approvals) (haccepted : a.posted.validate.isSome = true) :
    ingestApproval itemId (kept.map (Approval.row itemId)) a =
      if Repeats (kept.map Approval.buy) a.buy then (kept.map (Approval.row itemId), false)
      else ((kept ++ [a]).map (Approval.row itemId), true) := by
  have hrow : a.payload.toRow (itemId a.marketHashName) a.decidedAt = a.row itemId := rfl
  obtain ⟨payload, hpayload⟩ := Option.isSome_iff_exists.mp haccepted
  obtain rfl : payload = a.payload := SimulatedTradePayload.validate_eq_some hpayload
  unfold ingestApproval
  rw [hpayload]
  dsimp only
  unfold ingestSimulatedTrade insertTrade
  rw [hrow]
  cases hlisting : a.listingId with
  | some listingId =>
      -- the listing index decides
      have hconflict : ((kept.map (Approval.row itemId)).any fun r => r.conflicts (a.row itemId))
          = decide (Repeats (kept.map Approval.buy) a.buy) := by
        rw [Bool.eq_iff_iff, decide_eq_true_eq, repeats_listing (b := a.buy) hlisting]
        simp only [List.any_eq_true, List.mem_map, exists_exists_and_eq_and,
          SimulatedTrade.conflicts, SimulatedTrade.sameListing, SimulatedTrade.sameSnapshotBuy,
          Approval.row, Approval.payload, Approval.posted, SimulatedTradePayload.toRow, hlisting,
          Approval.buy,
          Option.isSome_some, Option.isNone_some, Bool.and_true, Bool.and_false, Bool.false_and,
          Bool.or_false, Bool.and_eq_true, decide_eq_true_eq]
        refine exists_congr fun t => and_congr_right fun ht => ?_
        constructor
        · intro h
          exact ⟨hvenues t (hkept t ht) a ha h.1.2, h.2⟩
        · intro h
          exact ⟨⟨by rw [h.2]; rfl, congrArg Text.strip h.1⟩, h.2⟩
      have hnone : a.payload.listingId.isNone = false := by
        simp [Approval.payload, Approval.posted, hlisting]
      rw [hnone, Bool.false_and, if_neg Bool.false_ne_true, hconflict]
      by_cases hrepeat : Repeats (kept.map Approval.buy) a.buy
      · simp [hrepeat]
      · simp [hrepeat]
  | none =>
      -- the lookup finds every repeat, so the insert meets no conflict
      have hfound : snapshotAlreadyBought (kept.map (Approval.row itemId)) a.payload
          (itemId a.marketHashName) a.decidedAt
          = decide (Repeats (kept.map Approval.buy) a.buy) := by
        rw [Bool.eq_iff_iff, decide_eq_true_eq, repeats_snapshot (b := a.buy) hlisting,
          snapshotAlreadyBought_iff, hrow]
        simp only [List.mem_map, exists_exists_and_eq_and]
        refine exists_congr fun t => and_congr_right fun ht => ?_
        exact samePurchaseDay_row_iff hvenues hitem (hkept t ht) ha
      have hnone : a.payload.listingId.isNone = true := by
        simp [Approval.payload, Approval.posted, hlisting]
      rw [hnone, Bool.true_and, hfound]
      by_cases hrepeat : Repeats (kept.map Approval.buy) a.buy
      · simp [hrepeat]
      · have hconflict : ((kept.map (Approval.row itemId)).any
            fun r => r.conflicts (a.row itemId)) = false := by
          rw [List.any_eq_false]
          intro r hr hconflict
          obtain ⟨t, ht, rfl⟩ := List.mem_map.mp hr
          simp only [SimulatedTrade.conflicts, SimulatedTrade.sameListing,
            SimulatedTrade.sameSnapshotBuy, Bool.or_eq_true, Bool.and_eq_true] at hconflict
          rcases hconflict with h | h
          · simp [Approval.row, Approval.payload, Approval.posted, SimulatedTradePayload.toRow,
              hlisting] at h
          · rw [repeats_snapshot (b := a.buy) hlisting] at hrepeat
            exact hrepeat ⟨t.buy, List.mem_map_of_mem ht,
              (samePurchaseDay_row_iff hvenues hitem (hkept t ht) ha).mp h.2⟩
        simp [hrepeat, hconflict]

theorem takes_ingestApproval (hvenues : VenuesDiffer approvals)
    (hitem : ∀ a ∈ approvals, ∀ b ∈ approvals,
      itemId a.marketHashName = itemId b.marketHashName → a.marketHashName = b.marketHashName)
    (haccepted : ∀ a ∈ approvals, a.posted.validate.isSome = true) :
    takes (ingestApproval itemId) [] approvals
      = takes (purchaseRule Approval.buy) [] approvals := by
  refine takes_congr (fun rows kept => (∀ a ∈ kept, a ∈ approvals) ∧
    rows = kept.map (Approval.row itemId)) (fun a ha rows kept hR => ?_) (by simp)
  obtain ⟨hkept, rfl⟩ := hR
  rw [ingestApproval_eq hvenues hitem hkept ha (haccepted a ha), purchaseRule]
  split
  · exact ⟨rfl, hkept, rfl⟩
  · refine ⟨rfl, fun t ht => ?_, rfl⟩
    rcases List.mem_append.mp ht with ht | ht
    · exact hkept t ht
    · rw [List.mem_singleton.mp ht]; exact ha

end

/-! ## The three agree -/

/-- The approvals that place an order, become a trade of the scorecard and insert a row are the
same ones, those that repeat none kept before; and a key stands for one purchase. -/
theorem onePurchaseRule {itemId : String → Nat} {size : Nat} {start : Moment}
    {approvals : List Approval}
    (hvenue : ∀ a ∈ approvals, ':' ∉ a.venue.toList) (hvenues : VenuesDiffer approvals)
    (haccepted : ∀ a ∈ approvals, a.posted.validate.isSome = true)
    (hitem : ∀ a ∈ approvals, ∀ b ∈ approvals,
      itemId a.marketHashName = itemId b.marketHashName → a.marketHashName = b.marketHashName)
    (hscorable : ∀ a ∈ approvals, a.decision.isScorable start = true)
    (hsize : (approvals.flatMap fun a => a.buy.keyTexts).dedup.length ≤ size) :
    let marks := takes (purchaseRule Approval.buy) [] approvals
    takes (executeApproval size) .empty approvals = marks ∧
    collectTrades (approvals.map Approval.decision) start
      = (taken marks approvals).map (fun a => Trade.fromDecision a.decision) ∧
    takes (ingestApproval itemId) [] approvals = marks ∧
    ∀ p q : PurchaseId, ':' ∉ p.venue.toList → ':' ∉ q.venue.toList → p.text = q.text → p = q :=
  ⟨takes_executeApproval hvenue hsize,
    foldl_collectTrade hvenue hscorable (by simp) (by simp [KeysOf]),
    takes_ingestApproval hvenues hitem haccepted, fun _ _ hp hq => PurchaseId.text_inj hp hq⟩

/-! ### A listing, its snapshot, the next day -/

/-- An approval of an M9 at 415 dollars on Skinport. -/
def bayonetApproval (listingId : Option String) (timestamp : Int) : Approval where
  venue := "skinport"
  marketHashName := "M9 Bayonet: Lore"
  priceCents := 41500
  listingId := listingId
  timestamp := timestamp
  reason := "z_score"
  zSource := some "local"
  triggerZScore := -27 / 10
  estimatedProfitCents := some 3100
  floatValue := none
  buildId := some 4

theorem onePurchaseRule_acrossMidnight :
    let approvals := [bayonetApproval (some "51:2") 86390, bayonetApproval none 86395,
      bayonetApproval (some "51:2") 86395, bayonetApproval none 86405]
    let marks := takes (purchaseRule Approval.buy) [] approvals
    marks = [true, false, false, true] ∧
    takes (executeApproval boughtMemorySize) .empty approvals = marks ∧
    collectTrades (approvals.map Approval.decision) (Moment.ofEpochSeconds 0)
      = (taken marks approvals).map (fun a => Trade.fromDecision a.decision) ∧
    takes (ingestApproval String.length) [] approvals = marks ∧
    ∀ p q : PurchaseId, ':' ∉ p.venue.toList → ':' ∉ q.venue.toList → p.text = q.text → p = q :=
  ⟨by decide +kernel, onePurchaseRule (by decide +kernel) (by decide +kernel) (by decide +kernel)
    (by decide +kernel) (by decide +kernel) (by decide +kernel)⟩

/-- Venues that differ in a blank are two venues to the executor and the scorecard, and one to the
backend. -/
theorem not_onePurchaseRule_blankVenue :
    let approvals := [bayonetApproval (some "51:2") 86390,
      { bayonetApproval (some "51:2") 86395 with venue := " skinport" }]
    (∀ a ∈ approvals, ':' ∉ a.venue.toList ∧ a.posted.validate.isSome = true ∧
      a.decision.isScorable (Moment.ofEpochSeconds 0) = true) ∧
    (approvals.flatMap fun a => a.buy.keyTexts).dedup.length ≤ boughtMemorySize ∧
    takes (executeApproval boughtMemorySize) .empty approvals = [true, true] ∧
    (collectTrades (approvals.map Approval.decision) (Moment.ofEpochSeconds 0)).length = 2 ∧
    takes (ingestApproval String.length) [] approvals = [true, false] := by
  decide +kernel

end BrandSniper
