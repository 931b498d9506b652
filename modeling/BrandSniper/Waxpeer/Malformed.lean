import BrandSniper.Waxpeer.RecordingFilter

/-!
# Malformed payloads of the Waxpeer feed

`contained_iff` says exactly which payloads make `RecordingFilter.listing` and
`RecordingFilter.removal` raise, with the resale prices for the verdict. Those
that do not never change the followed listings when they are malformed.
-/

namespace BrandSniper.Waxpeer

open Kit Json

/-! ## What raises -/

/-- A text of digits is one of at most 4300 decimal digits. -/
def ReadablePrice (price : Payload) : Prop :=
  ∀ s, price = .str s → isDigitText s.toList = true →
    s.toList.length ≤ maxStrDigits ∧ ∀ c ∈ s.toList, (decimalValue? c).isSome = true

/-- An integer fits a float. -/
def FitsFloat (value : Payload) : Prop :=
  ∀ z, value = .int z → Succeeds (Binary64.ofNat z.natAbs)

theorem succeeds_millsToCents_iff {price : Payload} :
    Succeeds (millsToCents price) ↔ ReadablePrice price := by
  rw [millsToCents, succeeds_map]
  cases price with
  | str s =>
      rw [mills]
      split
      · rename_i hdigits
        rw [succeeds_map, succeeds_intOfDigits_iff]
        constructor
        · rintro h _ ⟨⟩ -
          exact h
        · exact fun h => h s rfl hdigits
      · rename_i hdigits
        refine iff_of_true (succeeds_ok _) ?_
        rintro _ ⟨⟩ h
        exact absurd h hdigits
  | _ => exact iff_of_true (succeeds_ok _) nofun

theorem succeeds_optionalWear_iff {value : Payload} :
    Succeeds (optionalWear value) ↔ FitsFloat value := by
  cases value with
  | int z =>
      rw [optionalWear, succeeds_map]
      constructor
      · rintro h _ ⟨⟩
        exact h
      · exact fun h => h z rfl
  | float x => cases x <;> exact iff_of_true (succeeds_ok _) nofun
  | _ => exact iff_of_true (succeeds_ok _) nofun

theorem succeeds_optionalNonNegativeInt_iff {value : Payload} :
    Succeeds (optionalNonNegativeInt value)
      ↔ FitsFloat value ∧ value ≠ .float (.infinity false) := by
  cases value with
  | int z =>
      rw [optionalNonNegativeInt, succeeds_map]
      constructor
      · intro h
        refine ⟨?_, nofun⟩
        rintro _ ⟨⟩
        exact h
      · exact fun h => h.1 z rfl
  | float x =>
      cases x with
      | infinity negative =>
          cases negative with
          | false => exact iff_of_false (not_succeeds_error _) fun h => h.2 rfl
          | true => exact iff_of_true (succeeds_ok _) ⟨nofun, nofun⟩
      | _ => exact iff_of_true (succeeds_ok _) ⟨nofun, nofun⟩
  | _ => exact iff_of_true (succeeds_ok _) ⟨nofun, nofun⟩

section
variable {slug : String → String} {pyRepr : Payload → String}

/-- What `listing_tick` reads of a listing with a name, an ID and a price. -/
structure ReadableListing (fields : List (String × Payload)) (priceCents : Nat) : Prop where
  price : Succeeds (Binary64.ofDiv priceCents 100 hundred_pos)
  wear : FitsFloat (field fields "float")
  /-- Without a text of the ID it does not get that far. -/
  finish : printable (field fields "item_id") = true →
    FitsFloat (field fields "paint_index") ∧
      field fields "paint_index" ≠ .float (.infinity false)

theorem eq_of_caught {α : Type} {result : Except ConversionError (Option α)} {value : α}
    (h : caught result = .ok (some value)) : result = .ok (some value) := by
  cases result with
  | ok value => exact h
  | error e => cases e <;> cases h

/-- An integer that fits no float. -/
theorem ofNat_map_error {α : Type} {n : Nat} {f : Binary64 → α} {e : ConversionError}
    (h : (Binary64.ofNat n).map f = .error e) : e = .overflowError := by
  cases hfloat : Binary64.ofNat n with
  | error e' =>
      rw [hfloat] at h
      cases h
      exact Binary64.ofDiv_error hfloat
  | ok x =>
      rw [hfloat] at h
      cases h

theorem optionalWear_error {value : Payload} {e : ConversionError}
    (h : optionalWear value = .error e) : e = .overflowError := by
  cases value with
  | int z =>
      rw [optionalWear] at h
      exact ofNat_map_error h
  | float x => cases x <;> cases h
  | _ => cases h

theorem optionalNonNegativeInt_error {value : Payload} {e : ConversionError}
    (h : optionalNonNegativeInt value = .error e) : e = .overflowError := by
  cases value with
  | int z =>
      rw [optionalNonNegativeInt] at h
      exact ofNat_map_error h
  | float x =>
      cases x with
      | infinity negative =>
          cases negative with
          | false =>
              cases h
              rfl
          | true => cases h
      | _ => cases h
  | _ => cases h

/-- What is raised inside the `try` and not caught is an `OverflowError`. -/
theorem succeeds_buildTick_iff {fields : List (String × Payload)} {name : String}
    {priceCents : Nat} {receivedAtMs : Int} :
    Succeeds (caught (buildTick slug pyRepr fields name priceCents receivedAtMs))
      ↔ ReadableListing fields priceCents := by
  have hoverflow : ∀ e, e = ConversionError.overflowError →
      ¬ Succeeds (caught (.error e : Except ConversionError (Option Tick))) := by
    rintro e rfl
    exact not_succeeds_error _
  rw [buildTick]
  cases hprice : Binary64.ofDiv priceCents 100 hundred_pos with
  | error e =>
      refine iff_of_false (hoverflow e (Binary64.ofDiv_error hprice)) fun h => ?_
      exact not_succeeds_error e (hprice ▸ h.price)
  | ok priceUsd =>
      cases hwear : optionalWear (field fields "float") with
      | error e =>
          refine iff_of_false (hoverflow e (optionalWear_error hwear)) fun h => ?_
          exact not_succeeds_error e (hwear ▸ succeeds_optionalWear_iff.mpr h.wear)
      | ok floatValue =>
          have hfits := succeeds_optionalWear_iff.mp ⟨floatValue, hwear⟩
          have hpriced : Succeeds (Binary64.ofDiv priceCents 100 hundred_pos) := ⟨priceUsd, hprice⟩
          by_cases hprintable : printable (field fields "item_id") = true
          · have hid : pyStr pyRepr (field fields "item_id") = .ok _ := if_pos hprintable
            rw [hid]
            cases hpaint : optionalNonNegativeInt (field fields "paint_index") with
            | error e =>
                refine iff_of_false (hoverflow e (optionalNonNegativeInt_error hpaint)) fun h => ?_
                exact not_succeeds_error e
                  (hpaint ▸ succeeds_optionalNonNegativeInt_iff.mpr (h.finish hprintable))
            | ok paintIndex =>
                exact iff_of_true (succeeds_ok _) ⟨hpriced, hfits, fun _ =>
                  succeeds_optionalNonNegativeInt_iff.mp ⟨paintIndex, hpaint⟩⟩
          · have hid : pyStr pyRepr (field fields "item_id") = .error .valueError :=
              if_neg hprintable
            rw [hid]
            exact iff_of_true (succeeds_ok none) ⟨hpriced, hfits, fun h => absurd h hprintable⟩

/-- What `listing_tick` reads of a payload. -/
structure ReadablePayload (payload : Payload) : Prop where
  price : ∀ fields, payload = .obj fields → ReadablePrice (field fields "price")
  listing : ∀ fields name priceCents, payload = .obj fields →
    nonEmptyStr (field fields "name") = some name → isNull (field fields "item_id") = false →
    millsToCents (field fields "price") = .ok (some priceCents) → ReadableListing fields priceCents

theorem succeeds_listingTick_iff {payload : Payload} {receivedAtMs : Int} :
    Succeeds (listingTick slug pyRepr payload receivedAtMs) ↔ ReadablePayload payload := by
  cases payload with
  | obj fields =>
      rw [listingTick, succeeds_bind]
      constructor
      · rintro ⟨priceCents, hprice, hrest⟩
        refine ⟨?_, ?_⟩
        · rintro _ ⟨⟩
          exact succeeds_millsToCents_iff.mp ⟨priceCents, hprice⟩
        · rintro _ name cents ⟨⟩ hname hid hcents
          rw [hprice] at hcents
          cases hcents
          simp only [hname, hid] at hrest
          exact succeeds_buildTick_iff.mp hrest
      · intro h
        obtain ⟨priceCents, hprice⟩ := succeeds_millsToCents_iff.mpr (h.price fields rfl)
        refine ⟨priceCents, hprice, ?_⟩
        cases hname : nonEmptyStr (field fields "name") with
        | none => exact succeeds_ok none
        | some name =>
            cases priceCents with
            | none => exact succeeds_ok none
            | some priceCents =>
                cases hid : isNull (field fields "item_id") with
                | true => exact succeeds_ok none
                | false =>
                    exact succeeds_buildTick_iff.mpr
                      (h.listing fields name priceCents rfl hname hid hprice)
  | _ => exact iff_of_true (succeeds_ok _) ⟨nofun, nofun⟩

/-- The filter asks for the tick's price in cents. -/
def ReadsCents (prices : ResalePrices) (event : FeedEventName) (filter : RecordingFilter)
    (tick : Tick) : Prop :=
  prices.latestPriceCents.contains tick.marketHashName = true ∨
    (event = .update ∧ ∃ listingId, tick.listingId = some listingId ∧
      filter.tracked.contains listingId = true)

theorem succeeds_orOverflow_iff {n? : Option Nat} :
    Succeeds (orOverflow n?) ↔ n?.isSome = true := by
  cases n? with
  | none => exact iff_of_false (not_succeeds_error _) Bool.noConfusion
  | some n => exact iff_of_true (succeeds_ok _) rfl

theorem succeeds_cents_iff {tick : Tick} :
    Succeeds (cents tick) ↔ tick.priceCents.isSome = true := succeeds_orOverflow_iff

theorem succeeds_judge_iff {prices : ResalePrices} {tick : Tick} :
    Succeeds (judge prices tick) ↔
      (prices.latestPriceCents.contains tick.marketHashName = true →
        tick.priceCents.isSome = true) := by
  rw [judge, ResalePrices.succeeds_judgeTick_iff, priceCents?_marketTick,
    marketHashName_marketTick]

/-- Only a listing whose item has a price is recorded. -/
theorem contains_of_judge {prices : ResalePrices} {tick : Tick}
    (h : judge prices tick = .ok .recorded) :
    prices.latestPriceCents.contains tick.marketHashName = true := by
  obtain ⟨priced, heq, hrecorded⟩ := ResalePrices.exists_of_judgeTick h
  have hname : priced.marketHashName = tick.marketHashName :=
    congrArg MarketTick.marketHashName heq
  rw [← hname]
  exact ResalePrices.contains_of_judge hrecorded

/-- The text of the payload's ID. -/
def itemId (pyRepr : Payload → String) : Payload → Option String
  | .obj fields =>
      if isNull (field fields "item_id") then none
      else (pyStr pyRepr (field fields "item_id")).toOption
  | _ => none

/-- What a tick of `listing_tick` is made from. -/
structure OfListing (tick : Tick) (listingId : String) (priceCents : Nat) : Prop where
  listingId_eq : tick.listingId = some listingId
  length_le : listingId.length ≤ maxListingIdLength
  price : Binary64.ofDiv priceCents 100 hundred_pos = .ok tick.priceUsd
  positive : 0 < priceCents

theorem checkedListing_some {name marketHashName listingId : String} {priceUsd : Binary64}
    {receivedAtMs : Int} {floatValue : Option { x // InUnit x }}
    {stickers : List (List (String × Payload))} {paintIndex : Option Nat} {tick : Tick}
    (h : checkedListing slug name marketHashName listingId priceUsd receivedAtMs floatValue
      stickers paintIndex = some tick) :
    tick.listingId = some listingId ∧ listingId.length ≤ maxListingIdLength ∧
      tick.priceUsd = priceUsd := by
  rw [checkedListing] at h
  split at h
  · rename_i hchecks
    rw [Option.some.injEq] at h
    subst h
    exact ⟨rfl, hchecks.2.1, rfl⟩
  · cases h

theorem millsToCents_pos {price : Payload} {priceCents : Nat}
    (h : millsToCents price = .ok (some priceCents)) : 0 < priceCents := by
  rw [millsToCents] at h
  cases hmills : mills price with
  | error e =>
      rw [hmills] at h
      cases h
  | ok z? =>
      rw [hmills] at h
      cases z? with
      | none => cases h
      | some z =>
          by_cases hz : 0 < z
          · have hcents : (-(-z / millsPerCent)).toNat = priceCents := by
              simpa [Except.map, hz] using h
            rw [← hcents, millsPerCent]
            omega
          · simp [Except.map, hz] at h

theorem listingTick_some {payload : Payload} {receivedAtMs : Int} {tick : Tick}
    (h : listingTick slug pyRepr payload receivedAtMs = .ok (some tick)) :
    ∃ listingId priceCents, itemId pyRepr payload = some listingId ∧
      OfListing tick listingId priceCents := by
  cases payload with
  | obj fields =>
      obtain ⟨priceCents?, hprice, hrest⟩ := bind_eq_ok h
      cases hname : nonEmptyStr (field fields "name") with
      | none =>
          rw [hname] at hrest
          cases hrest
      | some name =>
          cases priceCents? with
          | none =>
              rw [hname] at hrest
              cases hrest
          | some priceCents =>
              rw [hname] at hrest
              dsimp only at hrest
              split at hrest
              · cases hrest
              · rename_i hnotNull
                have hbuild := eq_of_caught hrest
                obtain ⟨priceUsd, husd, hrest⟩ := bind_eq_ok hbuild
                obtain ⟨floatValue, -, hrest⟩ := bind_eq_ok hrest
                obtain ⟨listingId, htext, hrest⟩ := bind_eq_ok hrest
                obtain ⟨paintIndex, -, hrest⟩ := bind_eq_ok hrest
                obtain ⟨hid, hlength, hpriceUsd⟩ := checkedListing_some (Except.ok.inj hrest)
                refine ⟨listingId, priceCents, ?_, hid, hlength, hpriceUsd ▸ husd,
                  millsToCents_pos hprice⟩
                rw [itemId, if_neg hnotNull, htext]
                rfl
  | _ => cases h

theorem succeeds_updateFollowed_iff {prices : ResalePrices} {tick : Tick} {listingId : String}
    {followed : TrackedListing} {filter : RecordingFilter} :
    Succeeds (updateFollowed (judge prices) tick listingId followed filter).1 ↔
      Succeeds (cents tick) := by
  unfold updateFollowed
  have hjudge : Succeeds (cents tick) → Succeeds (judge prices tick) := fun h =>
    succeeds_judge_iff.mpr fun _ => succeeds_cents_iff.mp h
  generalize cents tick = result at hjudge ⊢
  cases result with
  | error e => exact iff_of_false (not_succeeds_error e) (not_succeeds_error e)
  | ok priceCents =>
      refine iff_of_true ?_ (succeeds_ok _)
      dsimp only
      split
      · exact succeeds_ok _
      · rw [succeeds_map]
        exact hjudge (succeeds_ok _)

theorem succeeds_judgeListing_iff {prices : ResalePrices} {tick : Tick} {listingId : String}
    {filter : RecordingFilter} :
    Succeeds (judgeListing (judge prices) tick listingId filter).1 ↔
      Succeeds (judge prices tick) := by
  rw [judgeListing]
  cases hjudge : judge prices tick with
  | error e => exact iff_of_false (not_succeeds_error e) (not_succeeds_error e)
  | ok outcome =>
      refine iff_of_true ?_ (succeeds_ok _)
      dsimp only
      split
      · exact succeeds_ok _
      · rename_i hrecorded
        obtain rfl : outcome = .recorded := Decidable.not_not.mp hrecorded
        have hknown := contains_of_judge hjudge
        obtain ⟨priceCents, hcents⟩ :=
          succeeds_cents_iff.mpr (succeeds_judge_iff.mp ⟨_, hjudge⟩ hknown)
        rw [hcents]
        exact succeeds_ok _

/-- A `new` or `update` event raises exactly on what its tick cannot be read from, and where the
filter asks for cents that are infinite. -/
theorem succeeds_listing_iff {prices : ResalePrices} {event : FeedEventName} {payload : Payload}
    {receivedAtMs : Int} {filter : RecordingFilter} :
    Succeeds (listing slug pyRepr (judge prices) event payload receivedAtMs filter).1
      ↔ ReadablePayload payload ∧ ∀ tick,
        listingTick slug pyRepr payload receivedAtMs = .ok (some tick) →
        ReadsCents prices event filter tick → tick.priceCents.isSome = true := by
  rw [← @succeeds_listingTick_iff slug pyRepr payload receivedAtMs, listing]
  cases htick : listingTick slug pyRepr payload receivedAtMs with
  | error e => exact iff_of_false (not_succeeds_error e) fun h => not_succeeds_error e h.1
  | ok tick? =>
      cases tick? with
      | none => exact iff_of_true (succeeds_ok _) ⟨succeeds_ok _, fun tick h =>
          absurd (Except.ok.inj h) (by simp)⟩
      | some tick =>
          obtain ⟨listingId, priceCents, -, hof⟩ := listingTick_some htick
          have hreads : (∀ tick', Except.ok (some tick) = Except.ok (ε := ConversionError)
                (some tick') → ReadsCents prices event filter tick' →
                tick'.priceCents.isSome = true) ↔
              (ReadsCents prices event filter tick → Succeeds (cents tick)) := by
            rw [succeeds_cents_iff]
            constructor
            · exact fun h => h tick rfl
            · rintro h _ ⟨⟩
              exact h
          rw [hreads, ReadsCents]
          refine Iff.trans ?_ (and_iff_right (succeeds_ok _)).symm
          dsimp only
          rw [hof.listingId_eq]
          dsimp only
          cases hfollowed : filter.tracked.get? listingId with
          | none =>
              have hnot : filter.tracked.contains listingId = false := by
                rw [OrderedDict.contains, hfollowed, Option.isSome_none]
              rw [succeeds_judgeListing_iff, succeeds_judge_iff, succeeds_cents_iff]
              simp [hnot]
          | some followed =>
              have hin : filter.tracked.contains listingId = true := by
                rw [OrderedDict.contains, hfollowed, Option.isSome_some]
              dsimp only
              split
              · rename_i hupdate
                rw [succeeds_updateFollowed_iff]
                exact ⟨fun h _ => h, fun h => h (.inr ⟨hupdate, listingId, rfl, hin⟩)⟩
              · rename_i hupdate
                rw [succeeds_judgeListing_iff, succeeds_judge_iff, succeeds_cents_iff]
                simp [hupdate]

/-! ## What is followed -/

theorem units_of_ofDiv {n d : Nat} {hd : 0 < d} {x : Binary64} (h : Binary64.ofDiv n d hd = .ok x) :
    x.units = Binary64.divUnits n d := by
  unfold Binary64.ofDiv at h
  split at h
  · rw [← Except.ok.inj h]
  · simp at h

/-- A cent or more is above 2 ^ -7 dollars. -/
theorem two_pow_le_cents {priceCents : Nat} (h : 0 < priceCents) :
    2 ^ (oneExponent - 7) ≤ Binary64.divUnits priceCents 100 := by
  refine Binary64.two_pow_le_divUnits hundred_pos ?_
  have hsplit : 2 ^ oneExponent = 2 ^ (oneExponent - 7) * 128 := by
    rw [show (128 : Nat) = 2 ^ 7 from rfl, ← Nat.pow_add, Nat.sub_add_cancel (by decide)]
  rw [hsplit]
  calc 2 ^ (oneExponent - 7) * 100 ≤ 1 * (2 ^ (oneExponent - 7) * 128) := by omega
    _ ≤ priceCents * (2 ^ (oneExponent - 7) * 128) := Nat.mul_le_mul_right _ h

theorem succeeds_ofDiv {priceCents : Nat} (h : priceCents ≤ 2 ^ (infExponent - oneExponent)) :
    Succeeds (Binary64.ofDiv priceCents 100 hundred_pos) := by
  have hle : Binary64.divUnits priceCents 100 ≤ 2 ^ (infExponent - 6) := by
    refine Binary64.divUnits_le_two_pow hundred_pos ?_
    have hsplit : 2 ^ infExponent = 2 ^ (infExponent - 6) * 64 := by
      rw [show (64 : Nat) = 2 ^ 6 from rfl, ← Nat.pow_add, Nat.sub_add_cancel (by decide)]
    calc priceCents * 2 ^ oneExponent
        ≤ 2 ^ (infExponent - oneExponent) * 2 ^ oneExponent := Nat.mul_le_mul_right _ h
      _ = 2 ^ infExponent := by rw [← Nat.pow_add, Nat.sub_add_cancel (by decide)]
      _ ≤ 2 ^ (infExponent - 6) * 100 := by omega
  have hlt : Binary64.divUnits priceCents 100 < 2 ^ infExponent :=
    Nat.lt_of_le_of_lt hle (Nat.pow_lt_pow_right (by decide) (by decide))
  unfold Binary64.ofDiv
  rw [dif_pos hlt]
  exact succeeds_ok _

/-- The cents of a tick are at least one, and a price again. -/
theorem OfListing.cents {tick : Tick} {listingId : String} {priceCents c : Nat}
    (h : OfListing tick listingId priceCents) (hc : tick.priceCents = some c) :
    0 < c ∧ c ≤ 2 ^ (infExponent - oneExponent) := by
  obtain ⟨product, hproduct, rfl⟩ := Option.map_eq_some_iff.mp hc
  constructor
  · have hunits := two_pow_le_cents h.positive
    rw [← units_of_ofDiv h.price] at hunits
    rw [Binary64.round_pos_iff, Binary64.units_of_mulNat hproduct,
      two_pow_lt_roundTo_iff (by decide) (by decide)]
    have hhigh : 2 ^ (oneExponent - 1) = 2 ^ (oneExponent - 7) * 64 := by
      rw [show (64 : Nat) = 2 ^ 6 from rfl, ← Nat.pow_add,
        show oneExponent - 7 + 6 = oneExponent - 1 from rfl]
    have hlow : 2 ^ (oneExponent - 1 - 53) ≤ 2 ^ (oneExponent - 7) :=
      Nat.pow_le_pow_right (by decide) (by decide)
    have hpos := Nat.two_pow_pos (oneExponent - 7)
    omega
  · rw [Binary64.round]
    refine divHalfEven_le (Nat.two_pow_pos _) ?_
    rw [← Nat.pow_add, Nat.sub_add_cancel (by decide)]
    exact Nat.le_of_lt product.finite

/-- Every followed listing has the ID and the price of a tick. -/
def Followable (filter : RecordingFilter) : Prop :=
  ∀ listingId followed, filter.tracked.get? listingId = some followed →
    listingId.length ≤ maxListingIdLength ∧ 0 < followed.priceCents ∧
      followed.priceCents ≤ 2 ^ (infExponent - oneExponent)

/-- What a call may leave behind. -/
inductive Leaves (filter : RecordingFilter) : RecordingFilter → Prop
  | same : Leaves filter filter
  | untracked (listingId : String) : Leaves filter (filter.untrack listingId)
  | followed {tick : Tick} {listingId : String} {priceCents c : Nat}
      (hof : OfListing tick listingId priceCents) (hc : tick.priceCents = some c) :
      Leaves filter (filter.track listingId ⟨tick.marketHashName, c⟩)

theorem Followable.leaves {filter filter' : RecordingFilter} (h : Followable filter)
    (hleaves : Leaves filter filter') : Followable filter' := by
  cases hleaves with
  | same => exact h
  | untracked listingId =>
      intro other followed hget
      rw [RecordingFilter.untrack, OrderedDict.get?_erase] at hget
      split at hget
      · cases hget
      · exact h other followed hget
  | followed hof hc =>
      intro other followed hget
      have hbefore := OrderedDict.get?_of_trim hget
      rw [OrderedDict.get?_moveToEnd, OrderedDict.get?_set] at hbefore
      split at hbefore
      · rename_i heq
        cases hbefore
        exact heq ▸ ⟨hof.length_le, hof.cents hc⟩
      · exact h other followed hbefore

theorem cents_ok {tick : Tick} {c : Nat} (h : cents tick = .ok c) : tick.priceCents = some c := by
  unfold cents at h
  generalize tick.priceCents = n? at h ⊢
  cases n? with
  | none => cases h
  | some n => rw [Except.ok.inj h]

theorem leaves_updateFollowed {judge : Judge} {tick : Tick} {listingId : String}
    {priceCents : Nat} {followed : TrackedListing} {filter : RecordingFilter}
    (hof : OfListing tick listingId priceCents) :
    Leaves filter (updateFollowed judge tick listingId followed filter).2 := by
  unfold updateFollowed
  cases hcents : cents tick with
  | error e => exact .same
  | ok c =>
      dsimp only
      split
      · exact .followed hof (cents_ok hcents)
      · exact .followed hof (cents_ok hcents)

theorem leaves_judgeListing {judge : Judge} {tick : Tick} {listingId : String}
    {priceCents : Nat} {filter : RecordingFilter} (hof : OfListing tick listingId priceCents) :
    Leaves filter (judgeListing judge tick listingId filter).2 := by
  unfold judgeListing
  cases judge tick with
  | error e => exact .same
  | ok outcome =>
      dsimp only
      split
      · exact .untracked listingId
      · cases hcents : cents tick with
        | error e => exact .same
        | ok c => exact .followed hof (cents_ok hcents)

theorem leaves_listing {judge : Judge} {event : FeedEventName} {payload : Payload}
    {receivedAtMs : Int} {filter : RecordingFilter} :
    Leaves filter (listing slug pyRepr judge event payload receivedAtMs filter).2 := by
  unfold listing
  cases htick : listingTick slug pyRepr payload receivedAtMs with
  | error e => exact .same
  | ok tick? =>
      cases tick? with
      | none => exact .same
      | some tick =>
          obtain ⟨listingId, priceCents, -, hof⟩ := listingTick_some htick
          dsimp only
          rw [hof.listingId_eq]
          dsimp only
          split
          · split
            · exact leaves_updateFollowed hof
            · exact leaves_judgeListing hof
          · exact leaves_judgeListing hof

theorem leaves_removal {payload : Payload} {receivedAtMs : Int} {filter : RecordingFilter} :
    Leaves filter (removal pyRepr payload receivedAtMs filter).2 := by
  unfold removal
  split
  · split
    · exact .same
    · split
      · exact .same
      · rename_i listingId _
        dsimp only
        split
        · exact .untracked listingId
        · exact .untracked listingId
  · exact .same

theorem leaves_filterEvent {filter : RecordingFilter} {m : FeedMessage} :
    Leaves filter (filterEvent slug pyRepr filter m).2 := by
  by_cases hremoved : m.event = .removed
  · rw [filterEvent, if_pos hremoved]
    exact leaves_removal
  · rw [filterEvent, if_neg hremoved]
    exact leaves_listing

theorem followable_filterRun (maxTracked : Nat) (ms : List FeedMessage) :
    Followable (filterRun slug pyRepr maxTracked ms) := by
  induction ms using List.reverseRecOn with
  | nil => exact nofun
  | append_singleton before m ih =>
      rw [filterRun, List.foldl_append]
      exact ih.leaves leaves_filterEvent

/-! ## Payloads are contained -/

/-- Nothing is raised, and a malformed payload leaves the followed listings as they were. -/
def Contained (filter : RecordingFilter) (result : Result) : Prop :=
  Succeeds result.1 ∧ ∀ tick, result.1 = .ok (.malformed, tick) →
    result.2.tracked = filter.tracked

theorem updateFollowed_ne_malformed {prices : ResalePrices} {tick : Tick} {listingId : String}
    {followed : TrackedListing} {filter : RecordingFilter} {tick? : Option Tick} :
    (updateFollowed (judge prices) tick listingId followed filter).1 ≠ .ok (.malformed, tick?) := by
  unfold updateFollowed
  have hjudge := @ResalePrices.judgeTick_ne_malformed prices (marketTick tick)
  cases cents tick with
  | error e => nofun
  | ok c =>
      dsimp only
      split
      · nofun
      · cases hresult : judge prices tick with
        | error e => nofun
        | ok outcome =>
            intro h
            have heq := congrArg Prod.fst (Except.ok.inj h)
            exact hjudge (hresult.trans (congrArg Except.ok heq))

theorem judgeListing_ne_malformed {prices : ResalePrices} {tick : Tick} {listingId : String}
    {filter : RecordingFilter} {tick? : Option Tick} :
    (judgeListing (judge prices) tick listingId filter).1 ≠ .ok (.malformed, tick?) := by
  unfold judgeListing
  have hjudge := @ResalePrices.judgeTick_ne_malformed prices (marketTick tick)
  cases hresult : judge prices tick with
  | error e => nofun
  | ok outcome =>
      have hne : outcome ≠ .malformed := fun heq => hjudge (hresult.trans (congrArg Except.ok heq))
      dsimp only
      split
      · intro h
        exact hne (congrArg Prod.fst (Except.ok.inj h))
      · cases cents tick with
        | error e => nofun
        | ok c =>
            intro h
            exact hne (congrArg Prod.fst (Except.ok.inj h))

/-- A malformed listing is not read any further. -/
theorem listing_malformed {prices : ResalePrices} {event : FeedEventName} {payload : Payload}
    {receivedAtMs : Int} {filter : RecordingFilter} {tick? : Option Tick}
    (h : (listing slug pyRepr (judge prices) event payload receivedAtMs filter).1
      = .ok (.malformed, tick?)) :
    (listing slug pyRepr (judge prices) event payload receivedAtMs filter).2 = filter := by
  unfold listing at h ⊢
  cases htick : listingTick slug pyRepr payload receivedAtMs with
  | error e => rfl
  | ok tick? =>
      cases tick? with
      | none => rfl
      | some tick =>
          obtain ⟨listingId, priceCents, -, hof⟩ := listingTick_some htick
          rw [htick] at h
          dsimp only at h
          rw [hof.listingId_eq] at h
          dsimp only at h
          split at h
          · split at h
            · exact absurd h updateFollowed_ne_malformed
            · exact absurd h judgeListing_ne_malformed
          · exact absurd h judgeListing_ne_malformed

/-- What a removal reads of its payload. The price matters only for a followed listing. -/
structure ReadableRemoval (pyRepr : Payload → String) (filter : RecordingFilter)
    (payload : Payload) : Prop where
  id : ∀ fields, payload = .obj fields → isNull (field fields "item_id") = false →
    printable (field fields "item_id") = true
  price : ∀ fields listingId, payload = .obj fields → isNull (field fields "item_id") = false →
    pyStr pyRepr (field fields "item_id") = .ok listingId →
    filter.tracked.contains listingId = true → ReadablePrice (field fields "price") ∧
      ∀ priceCents, millsToCents (field fields "price") = .ok (some priceCents) →
        Succeeds (Binary64.ofDiv priceCents 100 hundred_pos)

theorem succeeds_removeFollowed_iff {fields : List (String × Payload)} {listingId : String}
    {followed : TrackedListing} {receivedAtMs : Int}
    (hfollowed : followed.priceCents ≤ 2 ^ (infExponent - oneExponent)) :
    Succeeds (removeFollowed fields listingId followed receivedAtMs) ↔
      ReadablePrice (field fields "price") ∧
        ∀ priceCents, millsToCents (field fields "price") = .ok (some priceCents) →
          Succeeds (Binary64.ofDiv priceCents 100 hundred_pos) := by
  rw [← succeeds_millsToCents_iff, removeFollowed, succeeds_bind]
  constructor
  · rintro ⟨priceCents?, hprice, hrest⟩
    obtain ⟨priceUsd, husd, -⟩ := succeeds_bind.mp hrest
    refine ⟨⟨priceCents?, hprice⟩, fun priceCents hcents => ?_⟩
    rw [hprice] at hcents
    cases hcents
    exact ⟨priceUsd, husd⟩
  · rintro ⟨⟨priceCents?, hprice⟩, hfinite⟩
    have husd : Succeeds (Binary64.ofDiv (priceCents?.getD followed.priceCents) 100
        hundred_pos) := by
      cases priceCents? with
      | none => exact succeeds_ofDiv hfollowed
      | some priceCents => exact hfinite priceCents hprice
    obtain ⟨priceUsd, husd⟩ := husd
    exact ⟨priceCents?, hprice, succeeds_bind.mpr ⟨priceUsd, husd, succeeds_ok _⟩⟩

/-- A followed listing's removal passes the checks of the model. -/
theorem recorded_of_removeFollowed {fields : List (String × Payload)} {listingId : String}
    {followed : TrackedListing} {receivedAtMs : Int} {result : FilterOutcome × Option Tick}
    (hreceived : 0 < receivedAtMs) (hlength : listingId.length ≤ maxListingIdLength)
    (hpositive : 0 < followed.priceCents)
    (h : removeFollowed fields listingId followed receivedAtMs = .ok result) :
    ∃ tick, result = (.recorded, some tick) := by
  obtain ⟨priceCents?, hprice, hrest⟩ := bind_eq_ok h
  obtain ⟨priceUsd, husd, hrest⟩ := bind_eq_ok hrest
  have hcents : 0 < priceCents?.getD followed.priceCents := by
    cases priceCents? with
    | none => exact hpositive
    | some priceCents => exact millsToCents_pos hprice
  have hunits : 0 < priceUsd.units := by
    rw [units_of_ofDiv husd]
    exact Nat.lt_of_lt_of_le (Nat.two_pow_pos _) (two_pow_le_cents hcents)
  rw [checkedRemoval, dif_pos ⟨hreceived, hlength, hunits⟩] at hrest
  exact ⟨_, (Except.ok.inj hrest).symm⟩

theorem contained_removal_iff {payload : Payload} {receivedAtMs : Int} {filter : RecordingFilter}
    (hfilter : Followable filter) (hreceived : 0 < receivedAtMs) :
    Contained filter (removal pyRepr payload receivedAtMs filter)
      ↔ ReadableRemoval pyRepr filter payload := by
  cases payload with
  | obj fields =>
      unfold removal
      dsimp only
      cases hnull : isNull (field fields "item_id") with
      | true =>
          refine iff_of_true ⟨succeeds_ok _, fun _ _ => rfl⟩ ⟨?_, ?_⟩
          · rintro _ ⟨⟩ hnot
            rw [hnull] at hnot
            cases hnot
          · rintro _ listingId ⟨⟩ hnot
            rw [hnull] at hnot
            cases hnot
      | false =>
          rw [if_neg Bool.false_ne_true]
          cases hid : pyStr pyRepr (field fields "item_id") with
          | error e =>
              refine iff_of_false (fun h => not_succeeds_error e h.1) fun h => ?_
              rw [pyStr, if_pos (h.id fields rfl hnull)] at hid
              cases hid
          | ok listingId =>
              have hprintable : printable (field fields "item_id") = true := by
                rw [pyStr] at hid
                split at hid
                · assumption
                · cases hid
              have hreads : ReadableRemoval pyRepr filter (.obj fields) ↔
                  (filter.tracked.contains listingId = true →
                    ReadablePrice (field fields "price") ∧
                      ∀ priceCents, millsToCents (field fields "price") = .ok (some priceCents) →
                        Succeeds (Binary64.ofDiv priceCents 100 hundred_pos)) := by
                constructor
                · exact fun h => h.price fields listingId rfl hnull hid
                · intro h
                  refine ⟨?_, ?_⟩
                  · rintro _ ⟨⟩ -
                    exact hprintable
                  · rintro _ other ⟨⟩ - hother
                    rw [hid] at hother
                    cases hother
                    exact h
              rw [hreads]
              dsimp only
              cases hfollowed : filter.tracked.get? listingId with
              | none =>
                  have hnot : filter.tracked.contains listingId = false := by
                    rw [OrderedDict.contains, hfollowed, Option.isSome_none]
                  rw [hnot]
                  exact iff_of_true ⟨succeeds_ok _, fun _ h => absurd
                    (congrArg Prod.fst (Except.ok.inj h)) (by simp)⟩
                      fun h => absurd h Bool.false_ne_true
              | some followed =>
                  obtain ⟨hlength, hpositive, hbound⟩ := hfilter listingId followed hfollowed
                  have hin : filter.tracked.contains listingId = true := by
                    rw [OrderedDict.contains, hfollowed, Option.isSome_some]
                  have hsucceeds :=
                    @succeeds_removeFollowed_iff fields listingId followed receivedAtMs hbound
                  constructor
                  · exact fun h _ => hsucceeds.mp h.1
                  · refine fun h => ⟨hsucceeds.mpr (h hin), fun tick? hmalformed => ?_⟩
                    obtain ⟨tick, heq⟩ :=
                      recorded_of_removeFollowed hreceived hlength hpositive hmalformed
                    cases heq
  | _ =>
      refine iff_of_true ⟨succeeds_ok _, fun _ _ => rfl⟩ ⟨?_, ?_⟩
      · intro fields h
        cases h
      · intro fields listingId h
        cases h

end

section
variable (slug : String → String) (pyRepr : Payload → String)

/-- An event of the feed, with the resale prices held at its time. -/
structure PricedMessage where
  event : FeedEventName
  payload : Payload
  receivedAtMs : Int
  prices : ResalePrices

/-- The event with the verdict of its prices. -/
def PricedMessage.judged (m : PricedMessage) : FeedMessage where
  event := m.event
  payload := m.payload
  receivedAtMs := m.receivedAtMs
  judge := judge m.prices

/-- What the filter reads of an event converts. -/
def Readable (filter : RecordingFilter) (m : PricedMessage) : Prop :=
  if m.event = .removed then ReadableRemoval pyRepr filter m.payload
  else ReadablePayload m.payload ∧ ∀ tick,
    listingTick slug pyRepr m.payload m.receivedAtMs = .ok (some tick) →
    ReadsCents m.prices m.event filter tick → tick.priceCents.isSome = true

/-- After any events, exactly the events whose conversions succeed are contained. -/
theorem contained_iff (maxTracked : Nat) (before : List FeedMessage) (m : PricedMessage)
    (hreceived : 0 < m.receivedAtMs) :
    Contained (filterRun slug pyRepr maxTracked before)
        (filterEvent slug pyRepr (filterRun slug pyRepr maxTracked before) m.judged)
      ↔ Readable slug pyRepr (filterRun slug pyRepr maxTracked before) m := by
  have hfilter := @followable_filterRun slug pyRepr maxTracked before
  generalize filterRun slug pyRepr maxTracked before = filter at hfilter ⊢
  by_cases hremoved : m.event = .removed
  · rw [filterEvent, if_pos (show m.judged.event = .removed from hremoved), Readable,
      if_pos hremoved]
    exact contained_removal_iff hfilter hreceived
  · rw [filterEvent, if_neg (show ¬ m.judged.event = .removed from hremoved), Readable,
      if_neg hremoved, ← succeeds_listing_iff, Contained]
    simp only [PricedMessage.judged]
    exact and_iff_left fun tick? hmalformed => congrArg RecordingFilter.tracked
      (listing_malformed hmalformed)

end

/-! ### A price of digits -/

/-- A listing with the text of its price. -/
def listed (price : String) : PricedMessage where
  event := .new
  payload := .obj [("name", .str "AK-47"), ("item_id", .int 1), ("price", .str price)]
  receivedAtMs := 1700000000000
  prices := .new "skinport"

def plainSlug (name : String) : String := name

def noRepr (_ : Payload) : String := ""

theorem contained_iff_decimal :
    Contained (.new 10) (filterEvent plainSlug noRepr (.new 10) (listed "900").judged) := by
  refine (contained_iff plainSlug noRepr 10 [] (listed "900") (by decide)).mpr ?_
  refine ⟨⟨?_, ?_⟩, ?_⟩
  · intro fields hfields s hs _
    obtain rfl := Json.obj.inj hfields
    obtain rfl : "900" = s := Json.str.inj hs
    have hdigits : ("900".toList.all fun c => (decimalValue? c).isSome) = true := by decide
    exact ⟨by decide, List.all_eq_true.mp hdigits⟩
  · intro fields name priceCents hfields _ _ hcents
    obtain rfl := Json.obj.inj hfields
    have hninety : millsToCents (.str "900") = .ok (some 90) := rfl
    obtain rfl : 90 = priceCents := Option.some.inj (Except.ok.inj (hninety.symm.trans hcents))
    refine ⟨succeeds_ofDiv ?_, nofun, fun _ => ⟨nofun, nofun⟩⟩
    calc 90 ≤ 2 ^ 7 := by decide
      _ ≤ 2 ^ (infExponent - oneExponent) := Nat.pow_le_pow_right (by decide) (by decide)
  · rintro tick - (hknown | ⟨hupdate, -⟩)
    · have hunknown : (listed "900").prices.latestPriceCents.contains tick.marketHashName = false :=
        OrderedDict.contains_empty _
      rw [hunknown] at hknown
      cases hknown
    · cases hupdate

/-- `"²".isdigit()` holds, and `int("²")` raises, before anything is caught. -/
theorem not_contained_superscript :
    ¬ Contained (.new 10) (filterEvent plainSlug noRepr (.new 10) (listed "²").judged) := by
  rintro ⟨hsucceeds, -⟩
  have hraises : (filterEvent plainSlug noRepr (.new 10) (listed "²").judged).1
      = .error .valueError := rfl
  rw [hraises] at hsucceeds
  exact not_succeeds_error _ hsucceeds

end BrandSniper.Waxpeer
