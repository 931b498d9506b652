import BrandSniper.Kit.Calendar

/-!
# What counts as one purchase

`shared_utils/purchases.py`. A buy has a key and a snapshot key; it repeats
an earlier buy when its key is one of the two keys of that buy.

The keys are texts. `PurchaseId` is what a key stands for, and as long as
venue names hold no colon a key stands for one id only (`PurchaseId.text_inj`),
whatever the item name or the listing id is made of.
-/

namespace BrandSniper

open Kit

/-! ## Keys -/

def listingPurchaseKey (venue listingId : String) : String :=
  "listing:" ++ venue ++ ":" ++ listingId

def snapshotPurchaseKey (venue marketHashName : String) (purchasePriceCents : Int)
    (utcDay : Date) : String :=
  "snapshot:" ++ venue ++ ":" ++ marketHashName ++ ":" ++ toString purchasePriceCents ++ ":"
    ++ utcDay.isoformat

/-- (key, snapshot key) of a purchase. -/
def purchaseKeys (venue marketHashName : String) (purchasePriceCents : Int)
    (listingId : Option String) (utcDay : Date) : String × String :=
  let snapshotKey := snapshotPurchaseKey venue marketHashName purchasePriceCents utcDay
  let key := match listingId with
    | some listingId => listingPurchaseKey venue listingId
    | none => snapshotKey
  (key, snapshotKey)

/-! ## What the keys stand for -/

/-- One purchase: a listing, or an item at a price on a day. -/
inductive PurchaseId where
  | listing (venue listingId : String)
  | snapshot (venue marketHashName : String) (priceCents : Int) (utcDay : Date)
  deriving DecidableEq

namespace PurchaseId

def venue : PurchaseId → String
  | listing venue _ => venue
  | snapshot venue _ _ _ => venue

/-- The key of the purchase. -/
def text : PurchaseId → String
  | listing venue listingId => listingPurchaseKey venue listingId
  | snapshot venue marketHashName priceCents utcDay =>
      snapshotPurchaseKey venue marketHashName priceCents utcDay

theorem listing_text (venue listingId : String) :
    (listing venue listingId).text.toList
      = "listing".toList ++ ':' :: (venue.toList ++ ':' :: listingId.toList) := by
  simp only [text, listingPurchaseKey, String.toList_append, List.append_assoc,
    show "listing:".toList = "listing".toList ++ [':'] from by decide,
    show ":".toList = [':'] from by decide, List.cons_append, List.nil_append]

theorem snapshot_text (venue marketHashName : String) (priceCents : Int) (utcDay : Date) :
    (snapshot venue marketHashName priceCents utcDay).text.toList
      = "snapshot".toList ++ ':' :: (venue.toList ++ ':' ::
          ((marketHashName.toList ++ ':' :: (toString priceCents).toList)
            ++ ':' :: utcDay.isoformat.toList)) := by
  simp only [text, snapshotPurchaseKey, String.toList_append, List.append_assoc,
    show "snapshot:".toList = "snapshot".toList ++ [':'] from by decide,
    show ":".toList = [':'] from by decide, List.cons_append, List.nil_append]

/-- Different purchases have different keys. -/
theorem text_inj {a b : PurchaseId} (ha : ':' ∉ a.venue.toList) (hb : ':' ∉ b.venue.toList)
    (h : a.text = b.text) : a = b := by
  have hlist := congrArg String.toList h
  cases a with
  | listing venue listingId =>
      cases b with
      | listing venue' listingId' =>
          rw [listing_text, listing_text] at hlist
          obtain ⟨-, hrest⟩ := Text.sep_left_inj (by decide) (by decide) hlist
          obtain ⟨hvenue, hid⟩ := Text.sep_left_inj ha hb hrest
          rw [listing.injEq]
          exact ⟨String.toList_inj.mp hvenue, String.toList_inj.mp hid⟩
      | snapshot venue' marketHashName' priceCents' utcDay' =>
          rw [listing_text, snapshot_text] at hlist
          obtain ⟨hkind, -⟩ := Text.sep_left_inj (by decide) (by decide) hlist
          exact absurd hkind (by decide)
  | snapshot venue marketHashName priceCents utcDay =>
      cases b with
      | listing venue' listingId' =>
          rw [snapshot_text, listing_text] at hlist
          obtain ⟨hkind, -⟩ := Text.sep_left_inj (by decide) (by decide) hlist
          exact absurd hkind (by decide)
      | snapshot venue' marketHashName' priceCents' utcDay' =>
          rw [snapshot_text, snapshot_text] at hlist
          obtain ⟨-, hrest⟩ := Text.sep_left_inj (by decide) (by decide) hlist
          obtain ⟨hvenue, hrest⟩ := Text.sep_left_inj ha hb hrest
          -- the item name may hold colons: the day and the price come off from the right
          obtain ⟨hrest, hday⟩ := Text.sep_right_inj (Date.not_mem_isoformat (by decide)
            (by decide) _) (Date.not_mem_isoformat (by decide) (by decide) _) hrest
          obtain ⟨hname, hprice⟩ := Text.sep_right_inj (Text.not_mem_intText (by decide) _)
            (Text.not_mem_intText (by decide) _) hrest
          rw [snapshot.injEq]
          exact ⟨String.toList_inj.mp hvenue, String.toList_inj.mp hname,
            Text.intText_inj hprice, Date.isoformat_inj (String.toList_inj.mp hday)⟩

end PurchaseId

/-! ## Buys -/

/-- What a purchase is told apart by. -/
structure Buy where
  venue : String
  marketHashName : String
  purchasePriceCents : Int
  listingId : Option String
  utcDay : Date
  deriving DecidableEq

namespace Buy

/-- The item at its price on the day. -/
def snapshotId (b : Buy) : PurchaseId :=
  .snapshot b.venue b.marketHashName b.purchasePriceCents b.utcDay

/-- The listing, or what stands in for one. -/
def id (b : Buy) : PurchaseId :=
  match b.listingId with
  | some listingId => .listing b.venue listingId
  | none => b.snapshotId

/-- The ids a buy leaves bought. -/
def ids (b : Buy) : List PurchaseId := [b.id, b.snapshotId]

def keys (b : Buy) : String × String :=
  purchaseKeys b.venue b.marketHashName b.purchasePriceCents b.listingId b.utcDay

theorem keys_eq (b : Buy) : b.keys = (b.id.text, b.snapshotId.text) := by
  unfold keys purchaseKeys Buy.id
  cases b.listingId <;> rfl

/-- The keys a buy leaves bought. -/
def keyTexts (b : Buy) : List String := [b.keys.1, b.keys.2]

theorem id_venue (b : Buy) : b.id.venue = b.venue := by
  unfold Buy.id
  cases b.listingId <;> rfl

end Buy

/-- The purchase rule: the buy is one that an earlier buy made. -/
def Repeats (taken : List Buy) (b : Buy) : Prop := ∃ t ∈ taken, b.id ∈ t.ids

instance (taken : List Buy) (b : Buy) : Decidable (Repeats taken b) :=
  inferInstanceAs (Decidable (∃ t ∈ taken, b.id ∈ t.ids))

/-- A listing repeats the buys of that listing. -/
theorem repeats_listing {taken : List Buy} {b : Buy} {listingId : String}
    (h : b.listingId = some listingId) :
    Repeats taken b ↔ ∃ t ∈ taken, t.venue = b.venue ∧ t.listingId = some listingId := by
  have hid : b.id = .listing b.venue listingId := by
    simp only [Buy.id, h]
  refine exists_congr fun t => and_congr_right fun _ => ?_
  rw [hid, Buy.ids, Buy.id, Buy.snapshotId]
  cases ht : t.listingId with
  | none => simp
  | some listingId' => simp [eq_comm]

/-- A snapshot repeats every buy of its item at its price on that day. -/
theorem repeats_snapshot {taken : List Buy} {b : Buy} (h : b.listingId = none) :
    Repeats taken b ↔ ∃ t ∈ taken, t.venue = b.venue ∧ t.marketHashName = b.marketHashName ∧
      t.purchasePriceCents = b.purchasePriceCents ∧ t.utcDay = b.utcDay := by
  have hid : b.id = b.snapshotId := by
    simp only [Buy.id, h]
  refine exists_congr fun t => and_congr_right fun _ => ?_
  rw [hid, Buy.ids, Buy.id, Buy.snapshotId, Buy.snapshotId]
  cases ht : t.listingId with
  | none => simp [eq_comm]
  | some listingId' => simp [eq_comm]

/-- The rule in terms of keys, for venue names without a colon. -/
theorem key_mem_keyTexts_iff {t b : Buy} (ht : ':' ∉ t.venue.toList) (hb : ':' ∉ b.venue.toList) :
    b.keys.1 ∈ t.keyTexts ↔ b.id ∈ t.ids := by
  have hid : ':' ∉ b.id.venue.toList := by rw [Buy.id_venue]; exact hb
  have hid' : ':' ∉ t.id.venue.toList := by rw [Buy.id_venue]; exact ht
  simp only [Buy.keyTexts, Buy.ids, Buy.keys_eq, List.mem_cons, List.not_mem_nil, or_false]
  constructor
  · intro h
    exact h.imp (PurchaseId.text_inj hid hid') (PurchaseId.text_inj hid ht)
  · intro h
    exact h.imp (congrArg PurchaseId.text) (congrArg PurchaseId.text)

/-- The purchase rule as a component: it takes an item unless its buy repeats one it took. -/
def purchaseRule {α : Type} (buy : α → Buy) (kept : List α) (a : α) : List α × Bool :=
  if Repeats (kept.map buy) (buy a) then (kept, false) else (kept ++ [a], true)

end BrandSniper
