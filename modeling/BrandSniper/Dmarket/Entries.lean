import BrandSniper.Dmarket.Poller
import BrandSniper.Dmarket.SaleKeys
import BrandSniper.Kit.AwareMoments
import BrandSniper.Kit.Decimals
import BrandSniper.Kit.JsonObjects

/-!
# DMarket entries

`parse_sale` and `parse_offer` of `shared_utils/dmarket.py` on any JSON value,
with what their conversions raise: the text of an integer, a product of 28
digits, an integer that memory does not hold, a time past the year 9999.

`total_iff` says exactly which entries give no record or a good one, and raise
nothing. Any other raises out of the page it stands on, or gives a sale a price
of zero cents.

A text has no lone surrogates.
-/

namespace BrandSniper.Dmarket.Entries

open Kit Json

abbrev Payload := Json JsonFloat

/-- What the interpreter runs on. -/
structure Machine where
  /-- How deep `str` follows a value. -/
  nesting : Nat
  /-- The exponent of the largest number that memory holds. -/
  digits : Nat

/-- `str.capitalize`, as the Unicode tables have it. -/
structure Capitalizer where
  capitalize : List Char → List Char
  ne_nil : ∀ word, word ≠ [] → capitalize word ≠ []
  ne_default : ∀ word, capitalize word ≠ "default".toList

/-- `value.get(key)` -/
def field (fields : List (String × Payload)) (key : String) : Payload :=
  (getField fields key).getD .null

/-- The fields of a mapping, and none of another value. -/
def fieldsOf : Payload → List (String × Payload)
  | .obj fields => fields
  | _ => []

/-- A text that is not empty. -/
def nonEmptyStr : Payload → Option String
  | .str s => if s = "" then none else some s
  | _ => none

/-! ## Numbers -/

/-- `_decimal` -/
def decimal : Payload → Except ConversionError (Option Decimal)
  | .str s => .ok (Decimal.finite? s.toList)
  | .int z =>
      if printableInt z then .ok (Decimal.finite? (toString z).toList) else .error .valueError
  | _ => .ok none

/-- `int(number)`, where `n` is what it gives. -/
def Machine.int (m : Machine) (number : Decimal) (n : Nat) : Except ConversionError Nat :=
  if number.adjusted ≤ m.digits then .ok n else .error .memoryError

/-- The cents of a price, to the nearest one. -/
def nearestCent (m : Machine) (number : Decimal) : Except ConversionError Nat := do
  let cents ← number.mulNat 100
  m.int cents cents.roundHalfUp

def dollarsToCents (m : Machine) (value : Payload) : Except ConversionError (Option Nat) := do
  let number? ← decimal value
  (number?.filter Decimal.isPositive).mapM (nearestCent m)

def centsToInt (m : Machine) (value : Payload) : Except ConversionError (Option Nat) := do
  let number? ← decimal value
  (number?.filter fun number => number.isPositive && number.isIntegral).mapM
    fun number => m.int number number.toNat

/-! ## Sales -/

mutual

/-- How deep `repr` of the value goes. -/
def reprDepth : Payload → Nat
  | .arr items => reprDepthItems items + 1
  | .obj fields => reprDepthFields fields + 1
  | _ => 1
termination_by structural j => j

def reprDepthItems : List Payload → Nat
  | [] => 0
  | j :: rest => max (reprDepth j) (reprDepthItems rest)
termination_by structural items => items

def reprDepthFields : List (String × Payload) → Nat
  | [] => 0
  | field :: rest => max (reprDepthField field) (reprDepthFields rest)
termination_by structural fields => fields

def reprDepthField : String × Payload → Nat
  | (_, j) => reprDepth j
termination_by structural field => field

end

/-- What `str(value)` raises. -/
def strError? (m : Machine) : Payload → Option ConversionError
  | .str _ => none
  | value =>
      if m.nesting < reprDepth value then some .recursionError
      else if printable value then none
      else some .valueError

/-- `_SALE_TYPES` -/
def saleTypeNamed : Payload → Option SaleType
  | .str "Offer" => some .offer
  | .str "Target" => some .target
  | _ => none

/-- `_SALE_TYPES.get(str(value))` -/
def saleType (m : Machine) (value : Payload) : Except ConversionError (Option SaleType) :=
  match strError? m value with
  | some e => .error e
  | none => .ok (saleTypeNamed value)

/-- The words of a slug, capitalized. -/
def phaseText (c : Capitalizer) (slug : List Char) : List Char :=
  [' '].intercalate ((slug.splitOn '-').map c.capitalize)

theorem isPhase_phaseText (c : Capitalizer) {slug : List Char} (hslug : slug ≠ []) :
    IsPhase (String.ofList (phaseText c slug)) := by
  have htext : phaseText c slug ≠ [] ∧ phaseText c slug ≠ "default".toList := by
    rw [phaseText]
    have hwords : ['-'].intercalate (slug.splitOn '-') = slug := List.intercalate_splitOn '-'
    cases hsplit : slug.splitOn '-' with
    | nil => exact absurd hsplit (List.splitOn_ne_nil '-' slug)
    | cons word rest =>
        cases rest with
        | nil =>
            -- No hyphen: the slug is one word.
            have hword : word = slug := by simpa [hsplit] using hwords
            rw [List.map_singleton, List.intercalate_singleton]
            exact ⟨c.ne_nil word (by rwa [hword]), c.ne_default word⟩
        | cons next rest =>
            -- A blank stands between two words.
            have hblank : ' ' ∈ [' '].intercalate ((word :: next :: rest).map c.capitalize) := by
              simp [List.intercalate]
            constructor
            · intro hnil
              rw [hnil] at hblank
              exact List.not_mem_nil hblank
            · intro hdefault
              rw [hdefault] at hblank
              exact absurd hblank (by decide)
  constructor
  · intro hempty
    exact htext.1 (String.ofList_eq_empty_iff.mp hempty)
  · intro hdefault
    have hlist := congrArg String.toList hdefault
    rw [String.toList_ofList] at hlist
    exact htext.2 hlist

/-- A phase, as `DMarketSale` has it. -/
abbrev Phase := {phase : String // IsPhase phase}

/-- `phase_version` -/
def phaseVersion (c : Capitalizer) : Payload → Option Phase
  | .str slug =>
      if h : Text.trim slug.toList ≠ [] then some ⟨_, isPhase_phaseText c h⟩ else none
  | _ => none

/-- `_optional_float` -/
def optionalFloat : Payload → Option JsonFloat
  | .int z => if 0 ≤ z ∧ z ≤ 1 then some (.finite z) else none
  | .float (.finite q) => if 0 ≤ q ∧ q ≤ 1 then some (.finite q) else none
  | _ => none

/-- `_optional_seed` -/
def optionalSeed : Payload → Option Int
  | .int z => if z < 0 then none else some z
  | _ => none

/-- `datetime.fromtimestamp(seconds, UTC)`, in Unix seconds -/
def fromTimestamp (seconds : Nat) : Except ConversionError Int :=
  if (seconds : Int) ≤ maxTimestamp then .ok seconds
  else if seconds < 2 ^ 63 then .error .valueError
  else .error .overflowError

theorem isPhase_of_map {phase? : Option Phase} (p : String)
    (h : phase?.map Subtype.val = some p) : IsPhase p := by
  obtain ⟨phase, -, rfl⟩ := Option.map_eq_some_iff.mp h
  exact phase.property

/-- The sale of an entry, if its price, type and date are usable. -/
def saleOf (c : Capitalizer) (m : Machine) (title : String) (attributes : List (String × Payload)) :
    Option Nat → Option SaleType → Option Decimal →
      Except ConversionError (Option (DMarketSale JsonFloat))
  | some priceCents, some saleType, some date => do
      let soldAt ← fromTimestamp (← m.int date date.toNat)
      return some {
        title := title
        soldAt := soldAt
        priceCents := priceCents
        saleType := saleType
        floatValue := optionalFloat (field attributes "floatValue")
        paintSeed := optionalSeed (field attributes "paintSeed")
        phase := (phaseVersion c (field attributes "phaseTitle")).map Subtype.val
        isPhase := isPhase_of_map }
  | _, _, _ => return none

def parseSale (c : Capitalizer) (m : Machine) (title : String) :
    Payload → Except ConversionError (Option (DMarketSale JsonFloat))
  | .obj entry => do
      let priceCents ← dollarsToCents m (field entry "price")
      let saleType ← saleType m (field entry "txOperationType")
      let date ← decimal (field entry "date")
      let attributes := fieldsOf (field entry "offerAttributes")
      saleOf c m title attributes priceCents saleType (date.filter Decimal.isPositive)
  | _ => return none

/-! ## Offers -/

/-- The text is written as the pattern says; a `0` of the pattern is any decimal digit. -/
def fitsPattern : List Char → List Char → Bool
  | [], [] => true
  | p :: ps, c :: cs =>
      (if p = '0' then (decimalValue? c).isSome else decide (p = c)) && fitsPattern ps cs
  | _, _ => false

def isZone (cs : List Char) : Bool :=
  cs = ['Z'] || fitsPattern "+00:00".toList cs || fitsPattern "-00:00".toList cs

/-- The digits after a point, if there is one, and what follows. -/
def fraction? : List Char → Option (List Char × List Char)
  | '.' :: rest =>
      let (digits, zone) := rest.span fun c => (decimalValue? c).isSome
      if digits = [] then none else some (digits, zone)
  | zone => some ([], zone)

/-- `_RFC3339`: the whole seconds, the digits of the fraction, and the zone. -/
def rfc3339? (cs : List Char) : Option (List Char × List Char × List Char) :=
  match fraction? (cs.drop 19) with
  | some (fraction, zone) =>
      if fitsPattern "0000-00-00T00:00:00".toList (cs.take 19) && isZone zone then
        some (cs.take 19, fraction, zone)
      else none
  | none => none

/-- The moment of a `createdAt`, and the digits of its fraction. -/
def createdMoment? : Payload → Option (AwareMoment × List Char)
  | .str s =>
      match rfc3339? (Text.trim s.toList) with
      | some (whole, fraction, zone) =>
          (AwareMoment.ofIso? whole (if zone = ['Z'] then "+00:00".toList else zone)).map
            fun moment => (moment, fraction)
      | none => none
  | _ => none

/-- `(fraction or "0")[:3].ljust(3, "0")` -/
def millisText (fraction : List Char) : List Char :=
  let shown := (if fraction = [] then ['0'] else fraction).take 3
  shown ++ List.replicate (3 - shown.length) '0'

def createdAtMs (value : Payload) : Except ConversionError (Option Int) :=
  match createdMoment? value with
  | none => return none
  | some (moment, fraction) => do
      let milliseconds ← intOfDigits (millisText fraction)
      return some (moment.timestamp * 1000 + milliseconds)

/-- One listing from `offers`; of the poller's offer with the rest of its fields. -/
structure ListedOffer extends DMarketOffer where
  priceCents : Nat
  offerType : String
  title : String
  marketHashName : String
  floatValue : Option Binary64
  paintSeed : Option Int
  paintIndex : Option Int
  phase : Option String
  stickerNames : List String

/-- `_optional_wear_text` -/
def optionalWearText (value : Payload) : Except ConversionError (Option Binary64) := do
  let number? ← decimal value
  (number?.filter fun number => number.isPositive && number.atMostOne).mapM Decimal.toFloat

def itemsOf : Payload → List Payload
  | .arr items => items
  | _ => []

def strOrEmpty : Payload → String
  | .str s => s
  | _ => ""

/-- The offer of an entry, if it has an ID, a creation time, a price and a title. -/
def offerOf (c : Capitalizer) (entry cs2 : List (String × Payload)) :
    Option String → Option Int → Option Nat → Option String →
      Except ConversionError (Option ListedOffer)
  | some offerId, some createdAtMs, some priceCents, some title => do
      let phase := (phaseVersion c (field cs2 "phase")).map Subtype.val
      let floatValue ← optionalWearText (field cs2 "float")
      return some {
        offerId := offerId
        createdAtMs := createdAtMs
        priceCents := priceCents
        offerType := strOrEmpty (field entry "offerType")
        title := title
        marketHashName := String.ofList
          (ItemClassifier.buildVersionedName title.toList (phase.map String.toList))
        floatValue := floatValue
        paintSeed := floatValue.bind fun _ => optionalSeed (field cs2 "paintSeed")
        paintIndex := (optionalSeed (field cs2 "paintIndex")).filter fun index => index ≠ 0
        phase := phase
        stickerNames := (itemsOf (field cs2 "stickers")).filterMap
          fun sticker => nonEmptyStr (field (fieldsOf sticker) "name") }
  | _, _, _, _ => return none

def parseOffer (c : Capitalizer) (m : Machine) :
    Payload → Except ConversionError (Option ListedOffer)
  | .obj entry => do
      let created ← createdAtMs (field entry "createdAt")
      let priceCents ← centsToInt m (field entry "priceCents")
      -- What is no mapping has no title either.
      let attributes := fieldsOf (field entry "attributes")
      offerOf c entry (fieldsOf (field attributes "cs2")) (nonEmptyStr (field entry "offerId"))
        created priceCents (nonEmptyStr (field attributes "title"))
  | _ => return none

/-! ## What reads the entries -/

/-- The entries of a `last-sales` response. -/
def salesOf (payload : Payload) : List Payload := itemsOf (field (fieldsOf payload) "sales")

def parseSales (c : Capitalizer) (m : Machine) (title : String) (payload : Payload) :
    Except ConversionError (List (DMarketSale JsonFloat)) :=
  ((salesOf payload).mapM (parseSale c m title)).map List.reduceOption

/-- The pages of one poll. -/
def readOffers (c : Capitalizer) (m : Machine) (pages : List (List Payload)) :
    Except ConversionError (List (List (Option ListedOffer))) :=
  pages.mapM fun entries => entries.mapM (parseOffer c m)

/-- `sync_one`, on the answers to its requests; a request that fails in a way it catches has no
answer, and the title none. -/
def syncOne (c : Capitalizer) (m : Machine) (title : String) :
    List (Option Payload) → Except ConversionError (Option (List (DMarketSale JsonFloat)))
  | [] => return some []
  | none :: _ => return none
  | some payload :: rest => do
      let page ← parseSales c m title payload
      let later ← syncOne c m title rest
      return later.map fun sales => page ++ sales

/-- `sync_sales`: a conversion that raises in one title ends the reading of all. -/
def syncSales (c : Capitalizer) (m : Machine) (titles : List (String × List (Option Payload))) :
    Except ConversionError (List (Option (List (DMarketSale JsonFloat)))) :=
  titles.mapM fun t => syncOne c m t.1 t.2

/-! ## What converts -/

/-- An integer is short enough for its text. -/
def HasText : Payload → Prop
  | .int z => printableInt z = true
  | _ => True

/-- The finite number that a text or an integer stands for. -/
def number? : Payload → Option Decimal
  | .str s => Decimal.finite? s.toList
  | .int z => Decimal.finite? (toString z).toList
  | _ => none

def positive? (value : Payload) : Option Decimal := (number? value).filter Decimal.isPositive

/-- A positive number without a fraction. -/
def integral? (value : Payload) : Option Decimal :=
  (number? value).filter fun number => number.isPositive && number.isIntegral

theorem decimal_of_hasText {value : Payload} (h : HasText value) :
    decimal value = .ok (number? value) := by
  cases value with
  | int z =>
      have hshort : printableInt z = true := h
      rw [decimal, if_pos hshort]
      rfl
  | _ => rfl

theorem hasText_of_decimal {value : Payload} (h : Succeeds (decimal value)) : HasText value := by
  cases value with
  | int z =>
      by_contra hnot
      have hlong : ¬ printableInt z = true := hnot
      rw [decimal, if_neg hlong] at h
      exact not_succeeds_error _ h
  | _ => trivial

theorem succeeds_decimal_bind {α : Type} {value : Payload}
    {f : Option Decimal → Except ConversionError α} :
    Succeeds (decimal value >>= f) ↔ HasText value ∧ Succeeds (f (number? value)) := by
  rw [succeeds_bind]
  constructor
  · rintro ⟨number, hnumber, hf⟩
    have htext := hasText_of_decimal ⟨number, hnumber⟩
    rw [decimal_of_hasText htext] at hnumber
    cases hnumber
    exact ⟨htext, hf⟩
  · rintro ⟨htext, hf⟩
    exact ⟨_, decimal_of_hasText htext, hf⟩

section
variable {m : Machine}

theorem succeeds_int_iff {number : Decimal} {n : Nat} :
    Succeeds (m.int number n) ↔ number.adjusted ≤ m.digits := by
  rw [Machine.int]
  split
  · exact iff_of_true (succeeds_ok _) ‹_›
  · exact iff_of_false (not_succeeds_error _) ‹_›

theorem int_eq_ok {number : Decimal} {n k : Nat} (h : m.int number n = .ok k) : k = n := by
  rw [Machine.int] at h
  split at h
  · exact (Except.ok.inj h).symm
  · cases h

/-- The cents of a price fit the context and memory. -/
def CentsFit (m : Machine) (price : Decimal) : Prop :=
  (price.timesNat 100).adjusted ≤ 999999 ∧ (price.timesNat 100).adjusted ≤ m.digits

theorem mulNat_eq_ok {d product : Decimal} {n : Nat} (h : d.mulNat n = .ok product) :
    product = d.timesNat n := by
  rw [Decimal.mulNat] at h
  split at h
  · exact (Except.ok.inj h).symm
  · cases h

theorem succeeds_nearestCent_iff {price : Decimal} :
    Succeeds (nearestCent m price) ↔ CentsFit m price := by
  rw [nearestCent, succeeds_bind]
  constructor
  · rintro ⟨cents, hcents, hint⟩
    have hfits := Decimal.succeeds_mulNat_iff.mp ⟨cents, hcents⟩
    rw [mulNat_eq_ok hcents] at hint
    exact ⟨hfits, succeeds_int_iff.mp hint⟩
  · rintro ⟨hcontext, hmemory⟩
    obtain ⟨cents, hcents⟩ := Decimal.succeeds_mulNat_iff.mpr hcontext
    refine ⟨cents, hcents, ?_⟩
    rw [mulNat_eq_ok hcents]
    exact succeeds_int_iff.mpr hmemory

theorem nearestCent_eq_ok {price : Decimal} {n : Nat} (h : nearestCent m price = .ok n) :
    n = (price.timesNat 100).roundHalfUp := by
  obtain ⟨cents, hcents, hint⟩ := bind_eq_ok h
  rw [int_eq_ok hint, mulNat_eq_ok hcents]

theorem succeeds_dollarsToCents_iff {value : Payload} :
    Succeeds (dollarsToCents m value)
      ↔ HasText value ∧ ∀ price, positive? value = some price → CentsFit m price := by
  rw [dollarsToCents, succeeds_decimal_bind, succeeds_optionMapM_iff]
  simp only [succeeds_nearestCent_iff, positive?]

theorem succeeds_centsToInt_iff {value : Payload} :
    Succeeds (centsToInt m value)
      ↔ HasText value ∧ ∀ price, integral? value = some price → price.adjusted ≤ m.digits := by
  rw [centsToInt, succeeds_decimal_bind, succeeds_optionMapM_iff]
  simp only [succeeds_int_iff, integral?]

/-- A usable price, and its cents. -/
theorem dollarsToCents_eq_ok {value : Payload} {cents? : Option Nat}
    (h : dollarsToCents m value = .ok cents?) :
    cents? = (positive? value).map fun price => (price.timesNat 100).roundHalfUp := by
  obtain ⟨number, hnumber, hcents⟩ := bind_eq_ok h
  rw [decimal_of_hasText (hasText_of_decimal ⟨number, hnumber⟩)] at hnumber
  cases hnumber
  rw [← positive?] at hcents
  rcases optionMapM_eq_ok hcents with ⟨hnone, rfl⟩ | ⟨price, cents, hprice, hcent, rfl⟩
  · rw [hnone]
    rfl
  · rw [hprice, nearestCent_eq_ok hcent]
    rfl

theorem centsToInt_eq_ok {value : Payload} {cents? : Option Nat}
    (h : centsToInt m value = .ok cents?) :
    cents? = (integral? value).map Decimal.toNat := by
  obtain ⟨number, hnumber, hcents⟩ := bind_eq_ok h
  rw [decimal_of_hasText (hasText_of_decimal ⟨number, hnumber⟩)] at hnumber
  cases hnumber
  rw [← integral?] at hcents
  rcases optionMapM_eq_ok hcents with ⟨hnone, rfl⟩ | ⟨price, cents, hprice, hcent, rfl⟩
  · rw [hnone]
    rfl
  · rw [hprice, int_eq_ok hcent]
    rfl

/-! ## Readable entries -/

/-- A time that is a `datetime`. -/
def InTime (m : Machine) (date : Decimal) : Prop :=
  date.adjusted ≤ m.digits ∧ (date.toNat : Int) ≤ maxTimestamp

theorem succeeds_fromTimestamp_iff {seconds : Nat} :
    Succeeds (fromTimestamp seconds) ↔ (seconds : Int) ≤ maxTimestamp := by
  rw [fromTimestamp]
  split
  · exact iff_of_true (succeeds_ok _) ‹_›
  · refine iff_of_false ?_ ‹_›
    split <;> exact not_succeeds_error _

theorem fromTimestamp_eq_ok {seconds : Nat} {soldAt : Int} (h : fromTimestamp seconds = .ok soldAt) :
    soldAt = seconds := by
  rw [fromTimestamp] at h
  split at h
  · exact (Except.ok.inj h).symm
  · split at h <;> cases h

section
variable {c : Capitalizer} {title : String} {attributes : List (String × Payload)}

theorem succeeds_saleOf_iff {priceCents : Option Nat} {type : Option SaleType}
    {date? : Option Decimal} :
    Succeeds (saleOf c m title attributes priceCents type date?)
      ↔ ∀ date, priceCents.isSome = true → type.isSome = true → date? = some date →
        InTime m date := by
  cases priceCents with
  | none => exact iff_of_true (succeeds_ok _) nofun
  | some priceCents =>
      cases type with
      | none => exact iff_of_true (succeeds_ok _) nofun
      | some type =>
          cases date? with
          | none => exact iff_of_true (succeeds_ok _) nofun
          | some date =>
              rw [saleOf, succeeds_bind]
              constructor
              · rintro ⟨seconds, hseconds, h⟩ _ - - ⟨⟩
                obtain ⟨soldAt, hsold, -⟩ := succeeds_bind.mp h
                refine ⟨succeeds_int_iff.mp ⟨seconds, hseconds⟩, ?_⟩
                rw [← int_eq_ok hseconds]
                exact succeeds_fromTimestamp_iff.mp ⟨soldAt, hsold⟩
              · intro h
                obtain ⟨hmemory, hlast⟩ := h date rfl rfl rfl
                obtain ⟨seconds, hseconds⟩ := succeeds_int_iff.mpr hmemory
                refine ⟨seconds, hseconds, ?_⟩
                rw [int_eq_ok hseconds]
                obtain ⟨soldAt, hsold⟩ := succeeds_fromTimestamp_iff.mpr hlast
                exact succeeds_bind.mpr ⟨soldAt, hsold, succeeds_ok _⟩

/-- What a sale says. -/
theorem saleOf_eq_ok {priceCents : Option Nat} {type : Option SaleType} {date? : Option Decimal}
    {sale? : Option (DMarketSale JsonFloat)}
    (h : saleOf c m title attributes priceCents type date? = .ok sale?) :
    (sale? = none ∧ ¬ (priceCents.isSome ∧ type.isSome ∧ date?.isSome)) ∨
      ∃ cents type' date sale, priceCents = some cents ∧ type = some type' ∧ date? = some date ∧
        sale? = some sale ∧ sale.priceCents = cents ∧ sale.soldAt = date.toNat := by
  cases priceCents with
  | none =>
      cases h
      exact .inl ⟨rfl, fun h => nomatch h.1⟩
  | some cents =>
      cases type with
      | none =>
          cases h
          exact .inl ⟨rfl, fun h => nomatch h.2.1⟩
      | some type =>
          cases date? with
          | none =>
              cases h
              exact .inl ⟨rfl, fun h => nomatch h.2.2⟩
          | some date =>
              obtain ⟨seconds, hseconds, h⟩ := bind_eq_ok h
              obtain ⟨soldAt, hsold, h⟩ := bind_eq_ok h
              cases h
              refine .inr ⟨cents, type, date, _, rfl, rfl, rfl, rfl, rfl, ?_⟩
              rw [fromTimestamp_eq_ok hsold, int_eq_ok hseconds]

end

section
variable {c : Capitalizer} {title : String} {entry : List (String × Payload)}

/-- The entry of a sale has a positive price, a known type and a positive date. -/
def UsableSale (entry : List (String × Payload)) : Prop :=
  (positive? (field entry "price")).isSome = true ∧
    (saleTypeNamed (field entry "txOperationType")).isSome = true ∧
    (positive? (field entry "date")).isSome = true

/-- What `parse_sale` converts: the price, the type and the date of any entry, and the time of
a usable one. -/
structure ConvertibleSale (m : Machine) (entry : List (String × Payload)) : Prop where
  price_text : HasText (field entry "price")
  price : ∀ price, positive? (field entry "price") = some price → CentsFit m price
  type : strError? m (field entry "txOperationType") = none
  date_text : HasText (field entry "date")
  date : UsableSale entry → ∀ date, positive? (field entry "date") = some date → InTime m date

theorem saleType_eq_ok {value : Payload} {type? : Option SaleType}
    (h : saleType m value = .ok type?) : strError? m value = none ∧ type? = saleTypeNamed value := by
  rw [saleType] at h
  cases herror : strError? m value with
  | none =>
      rw [herror] at h
      exact ⟨rfl, (Except.ok.inj h).symm⟩
  | some e =>
      rw [herror] at h
      cases h

theorem saleType_of_none {value : Payload} (h : strError? m value = none) :
    saleType m value = .ok (saleTypeNamed value) := by
  rw [saleType, h]

theorem succeeds_parseSale_iff :
    Succeeds (parseSale c m title (.obj entry)) ↔ ConvertibleSale m entry := by
  rw [parseSale, succeeds_bind]
  constructor
  · rintro ⟨cents?, hcents, h⟩
    obtain ⟨type?, htype, h⟩ := succeeds_bind.mp h
    obtain ⟨hdate, h⟩ := succeeds_decimal_bind.mp h
    obtain ⟨hprice, hfits⟩ := succeeds_dollarsToCents_iff.mp ⟨cents?, hcents⟩
    obtain ⟨hstr, rfl⟩ := saleType_eq_ok htype
    refine ⟨hprice, hfits, hstr, hdate, fun husable date hsome => ?_⟩
    refine succeeds_saleOf_iff.mp h date ?_ husable.2.1 hsome
    rw [dollarsToCents_eq_ok hcents, Option.isSome_map]
    exact husable.1
  · intro h
    obtain ⟨cents?, hcents⟩ := succeeds_dollarsToCents_iff.mpr ⟨h.price_text, h.price⟩
    refine ⟨cents?, hcents, succeeds_bind.mpr ⟨_, saleType_of_none h.type, ?_⟩⟩
    refine succeeds_decimal_bind.mpr ⟨h.date_text, succeeds_saleOf_iff.mpr ?_⟩
    intro date hcents? htype? hdate
    rw [dollarsToCents_eq_ok hcents, Option.isSome_map] at hcents?
    have hsome : positive? (field entry "date") = some date := hdate
    exact h.date ⟨hcents?, htype?, by rw [hsome]; rfl⟩ date hsome

end

/-! ## Creation times -/

theorem digits_of_fraction {cs fraction zone : List Char} (h : fraction? cs = some (fraction, zone)) :
    ∀ c ∈ fraction, (decimalValue? c).isSome = true := by
  rw [fraction?.eq_def] at h
  split at h
  · rename_i rest
    rw [List.span_eq_takeWhile_dropWhile] at h
    by_cases hempty : rest.takeWhile (fun c => (decimalValue? c).isSome) = []
    · simp only [if_pos hempty] at h
      cases h
    · simp only [if_neg hempty] at h
      cases h
      intro c hc
      exact List.all_eq_true.mp List.all_takeWhile c hc
  · cases h
    exact List.forall_mem_nil _

theorem digits_of_createdMoment {value : Payload} {moment : AwareMoment} {fraction : List Char}
    (h : createdMoment? value = some (moment, fraction)) :
    ∀ c ∈ fraction, (decimalValue? c).isSome = true := by
  cases value with
  | str s =>
      rw [createdMoment?] at h
      cases hmatch : rfc3339? (Text.trim s.toList) with
      | none =>
          rw [hmatch] at h
          cases h
      | some groups =>
          obtain ⟨whole, digits, zone⟩ := groups
          rw [hmatch] at h
          obtain ⟨moment', -, heq⟩ := Option.map_eq_some_iff.mp h
          cases heq
          rw [rfc3339?] at hmatch
          cases hfraction : fraction? ((Text.trim s.toList).drop 19) with
          | none =>
              rw [hfraction] at hmatch
              cases hmatch
          | some parts =>
              rw [hfraction] at hmatch
              simp only [Option.ite_none_right_eq_some] at hmatch
              obtain ⟨-, hsome⟩ := hmatch
              cases hsome
              exact digits_of_fraction hfraction
  | _ => cases h

theorem length_millisText (fraction : List Char) : (millisText fraction).length = 3 := by
  rw [millisText, List.length_append, List.length_replicate]
  have hle : ((if fraction = [] then ['0'] else fraction).take 3).length ≤ 3 :=
    List.length_take_le _ _
  omega

theorem digits_millisText {fraction : List Char}
    (h : ∀ c ∈ fraction, (decimalValue? c).isSome = true) :
    ∀ c ∈ millisText fraction, (decimalValue? c).isSome = true := by
  have hzero : (decimalValue? '0').isSome = true := by decide
  intro c hc
  rw [millisText, List.mem_append] at hc
  rcases hc with hshown | hpadding
  · have hmem := List.mem_of_mem_take hshown
    split at hmem
    · rw [List.mem_singleton] at hmem
      rwa [hmem]
    · exact h c hmem
  · rwa [List.eq_of_mem_replicate hpadding]

/-- A creation time never raises. -/
theorem succeeds_createdAtMs (value : Payload) : Succeeds (createdAtMs value) := by
  rw [createdAtMs]
  cases hmoment : createdMoment? value with
  | none => exact succeeds_ok _
  | some found =>
      obtain ⟨moment, fraction⟩ := found
      have hdigits := digits_millisText (digits_of_createdMoment hmoment)
      have hlen : (millisText fraction).length ≤ maxStrDigits := by
        rw [length_millisText]
        decide
      obtain ⟨millis, hmillis⟩ := succeeds_intOfDigits_iff.mpr ⟨hlen, hdigits⟩
      exact succeeds_bind.mpr ⟨millis, hmillis, succeeds_ok _⟩

/-- The millisecond of a `datetime` with some offset. -/
def RepresentableMs (ms : Int) : Prop :=
  ∃ offset : Int, -86400 < offset ∧ offset < 86400 ∧ minTimestamp * 1000 ≤ ms + offset * 1000 ∧
    ms + offset * 1000 < (maxTimestamp + 1) * 1000

theorem createdAtMs_eq_ok {value : Payload} {created? : Option Int}
    (h : createdAtMs value = .ok created?) :
    (created?.isSome = (createdMoment? value).isSome) ∧
      ∀ ms, created? = some ms → RepresentableMs ms := by
  rw [createdAtMs] at h
  cases hmoment : createdMoment? value with
  | none =>
      rw [hmoment] at h
      cases h
      exact ⟨rfl, nofun⟩
  | some found =>
      obtain ⟨moment, fraction⟩ := found
      rw [hmoment] at h
      obtain ⟨millis, hmillis, h⟩ := bind_eq_ok h
      cases h
      refine ⟨rfl, ?_⟩
      rintro _ ⟨⟩
      have hlt := intOfDigits_lt hmillis
      rw [length_millisText] at hlt
      have hlocal := moment.local_bounds
      have hoffset := moment.offset_valid
      exact ⟨moment.offset, hoffset.1, hoffset.2, by omega, by omega⟩

section
variable {c : Capitalizer} {entry cs2 : List (String × Payload)}

theorem succeeds_optionalWearText_iff {value : Payload} :
    Succeeds (optionalWearText value) ↔ HasText value := by
  rw [optionalWearText, succeeds_decimal_bind, succeeds_optionMapM_iff]
  apply and_iff_left
  intro number hnumber
  have hwear := Option.filter_eq_some_iff.mp hnumber
  rw [Bool.and_eq_true] at hwear
  exact Decimal.succeeds_toFloat hwear.2.2

theorem succeeds_offerOf_iff {offerId : Option String} {created : Option Int}
    {priceCents : Option Nat} {title : Option String} :
    Succeeds (offerOf c entry cs2 offerId created priceCents title)
      ↔ (offerId.isSome = true ∧ created.isSome = true ∧ priceCents.isSome = true ∧
          title.isSome = true → HasText (field cs2 "float")) := by
  by_cases husable : offerId.isSome = true ∧ created.isSome = true ∧ priceCents.isSome = true ∧
      title.isSome = true
  · obtain ⟨⟨offerId, rfl⟩, ⟨created, rfl⟩, ⟨priceCents, rfl⟩, ⟨title, rfl⟩⟩ :=
      husable.imp Option.isSome_iff_exists.mp
        (And.imp Option.isSome_iff_exists.mp
          (And.imp Option.isSome_iff_exists.mp Option.isSome_iff_exists.mp))
    rw [offerOf, succeeds_bind, ← succeeds_optionalWearText_iff]
    constructor
    · rintro ⟨wear, hwear, -⟩ -
      exact ⟨wear, hwear⟩
    · intro h
      obtain ⟨wear, hwear⟩ := h husable
      exact ⟨wear, hwear, succeeds_ok _⟩
  · refine iff_of_true ?_ fun h => absurd h husable
    rw [offerOf.eq_def]
    split
    · exact absurd ⟨rfl, rfl, rfl, rfl⟩ husable
    · exact succeeds_ok _

/-- What an offer says. -/
theorem offerOf_eq_ok {offerId : Option String} {created : Option Int}
    {priceCents : Option Nat} {title : Option String} {offer : ListedOffer}
    (h : offerOf c entry cs2 offerId created priceCents title = .ok (some offer)) :
    offerId = some offer.offerId ∧ created = some offer.createdAtMs ∧
      priceCents = some offer.priceCents ∧ title = some offer.title := by
  rw [offerOf.eq_def] at h
  split at h
  · obtain ⟨wear, -, h⟩ := bind_eq_ok h
    cases h
    exact ⟨rfl, rfl, rfl, rfl⟩
  · cases h

theorem ne_empty_of_nonEmptyStr {value : Payload} {s : String} (h : nonEmptyStr value = some s) :
    s ≠ "" := by
  cases value with
  | str s' =>
      rw [nonEmptyStr] at h
      split at h
      · cases h
      · cases h
        assumption
  | _ => cases h

/-- The entry of an offer has an ID, a creation time, a positive price in whole cents and a title. -/
def UsableOffer (entry : List (String × Payload)) : Prop :=
  (nonEmptyStr (field entry "offerId")).isSome = true ∧
    (createdMoment? (field entry "createdAt")).isSome = true ∧
    (integral? (field entry "priceCents")).isSome = true ∧
    (nonEmptyStr (field (fieldsOf (field entry "attributes")) "title")).isSome = true

/-- What `parse_offer` converts: the price of any entry, and the wear of a usable one. -/
structure ConvertibleOffer (m : Machine) (entry : List (String × Payload)) : Prop where
  price_text : HasText (field entry "priceCents")
  price : ∀ price, integral? (field entry "priceCents") = some price → price.adjusted ≤ m.digits
  wear_text : UsableOffer entry →
    HasText (field (fieldsOf (field (fieldsOf (field entry "attributes")) "cs2")) "float")

theorem succeeds_parseOffer_iff :
    Succeeds (parseOffer c m (.obj entry)) ↔ ConvertibleOffer m entry := by
  rw [parseOffer, succeeds_bind]
  constructor
  · rintro ⟨created?, hcreated, h⟩
    obtain ⟨cents?, hcents, h⟩ := succeeds_bind.mp h
    obtain ⟨hprice, hfits⟩ := succeeds_centsToInt_iff.mp ⟨cents?, hcents⟩
    refine ⟨hprice, hfits, fun husable => succeeds_offerOf_iff.mp h ?_⟩
    rw [(createdAtMs_eq_ok hcreated).1, centsToInt_eq_ok hcents, Option.isSome_map]
    exact husable
  · intro h
    obtain ⟨created?, hcreated⟩ := succeeds_createdAtMs (field entry "createdAt")
    obtain ⟨cents?, hcents⟩ := succeeds_centsToInt_iff.mpr ⟨h.price_text, h.price⟩
    refine ⟨created?, hcreated, succeeds_bind.mpr ⟨cents?, hcents, ?_⟩⟩
    refine succeeds_offerOf_iff.mpr fun husable => h.wear_text ?_
    rwa [(createdAtMs_eq_ok hcreated).1, centsToInt_eq_ok hcents, Option.isSome_map] at husable

end

/-! ## Records -/

/-- A sale with a positive price, at a time that is a `datetime`. -/
structure GoodSale (sale : DMarketSale JsonFloat) : Prop where
  price : 0 < sale.priceCents
  soldAt : minTimestamp ≤ sale.soldAt ∧ sale.soldAt ≤ maxTimestamp

/-- An offer with an ID and a title, a positive price, and a time that is a `datetime`. -/
structure GoodOffer (offer : ListedOffer) : Prop where
  offerId : offer.offerId ≠ ""
  title : offer.title ≠ ""
  price : 0 < offer.priceCents
  createdAt : RepresentableMs offer.createdAtMs

/-- Nothing is raised, and a record is a good one. -/
def Parsed {α : Type} (Good : α → Prop) (result : Except ConversionError (Option α)) : Prop :=
  ∃ record?, result = .ok record? ∧ ∀ record, record? = some record → Good record

/-- The sale of an entry converts, and its price is not below half a cent. -/
def ReadableSale (m : Machine) : Payload → Prop
  | .obj entry => ConvertibleSale m entry ∧ (UsableSale entry →
      ∀ price, positive? (field entry "price") = some price → 1 / 2 ≤ (price.timesNat 100).magnitude)
  | _ => True

def ReadableOffer (m : Machine) : Payload → Prop
  | .obj entry => ConvertibleOffer m entry
  | _ => True

section
variable {c : Capitalizer}

theorem parsed_none {α : Type} (Good : α → Prop) : Parsed Good (.ok none) :=
  ⟨none, rfl, fun record h => absurd h.symm (Option.some_ne_none record)⟩

theorem parsed_parseSale_iff {title : String} {entry : Payload} :
    Parsed GoodSale (parseSale c m title entry) ↔ ReadableSale m entry := by
  cases entry with
  | obj entry =>
      constructor
      · rintro ⟨sale?, hparsed, hgood⟩
        refine ⟨succeeds_parseSale_iff.mp ⟨sale?, hparsed⟩, fun husable price hprice => ?_⟩
        obtain ⟨cents?, hcents, h⟩ := bind_eq_ok hparsed
        obtain ⟨type?, htype, h⟩ := bind_eq_ok h
        obtain ⟨number?, hnumber, h⟩ := bind_eq_ok h
        rw [dollarsToCents_eq_ok hcents, (saleType_eq_ok htype).2] at h
        have hdate := decimal_of_hasText (hasText_of_decimal ⟨number?, hnumber⟩)
        rw [hnumber] at hdate
        rw [Except.ok.inj hdate] at h
        rcases saleOf_eq_ok h with ⟨-, hunusable⟩ |
          ⟨cents, type, date, sale, hcents', -, -, rfl, hpriceCents, -⟩
        · refine absurd ⟨?_, husable.2⟩ hunusable
          rw [Option.isSome_map]
          exact husable.1
        · rw [hprice] at hcents'
          have hpositive := (hgood sale rfl).price
          rw [hpriceCents, ← Option.some.inj hcents'] at hpositive
          exact Decimal.roundHalfUp_pos_iff.mp (Int.natCast_pos.mp hpositive)
      · rintro ⟨hconvertible, hhalf⟩
        obtain ⟨sale?, hparsed⟩ := (@succeeds_parseSale_iff m c title entry).mpr hconvertible
        refine ⟨sale?, hparsed, ?_⟩
        obtain ⟨cents?, hcents, h⟩ := bind_eq_ok hparsed
        obtain ⟨type?, htype, h⟩ := bind_eq_ok h
        obtain ⟨number?, hnumber, h⟩ := bind_eq_ok h
        rw [dollarsToCents_eq_ok hcents, (saleType_eq_ok htype).2] at h
        have hdate := decimal_of_hasText (hasText_of_decimal ⟨number?, hnumber⟩)
        rw [hnumber] at hdate
        rw [Except.ok.inj hdate] at h
        rintro record rfl
        rcases saleOf_eq_ok h with ⟨hnone, -⟩ |
          ⟨cents, type, date, sale, hcents', htype', hdate', hsale, hpriceCents, hsoldAt⟩
        · cases hnone
        · obtain rfl := Option.some.inj hsale
          obtain ⟨price, hprice, rfl⟩ := Option.map_eq_some_iff.mp hcents'
          have husable : UsableSale entry := by
            refine ⟨?_, ?_, ?_⟩
            · rw [hprice]
              rfl
            · rw [htype']
              rfl
            · rw [positive?, hdate']
              rfl
          have htime := hconvertible.date husable date hdate'
          refine ⟨?_, ?_, ?_⟩
          · rw [hpriceCents]
            exact Int.natCast_pos.mpr
              (Decimal.roundHalfUp_pos_iff.mpr (hhalf husable price hprice))
          · rw [hsoldAt, minTimestamp]
            omega
          · rw [hsoldAt]
            exact htime.2
  | _ => exact iff_of_true (parsed_none GoodSale) trivial

theorem parsed_parseOffer_iff {entry : Payload} :
    Parsed GoodOffer (parseOffer c m entry) ↔ ReadableOffer m entry := by
  cases entry with
  | obj entry =>
      constructor
      · rintro ⟨offer?, hparsed, -⟩
        exact succeeds_parseOffer_iff.mp ⟨offer?, hparsed⟩
      · intro hconvertible
        obtain ⟨offer?, hparsed⟩ := (@succeeds_parseOffer_iff m c entry).mpr hconvertible
        refine ⟨offer?, hparsed, ?_⟩
        rintro offer rfl
        obtain ⟨created?, hcreated, h⟩ := bind_eq_ok hparsed
        obtain ⟨cents?, hcents, h⟩ := bind_eq_ok h
        obtain ⟨hid, hcreatedAt, hprice, htitle⟩ := offerOf_eq_ok h
        refine ⟨ne_empty_of_nonEmptyStr hid, ne_empty_of_nonEmptyStr htitle, ?_,
          (createdAtMs_eq_ok hcreated).2 _ hcreatedAt⟩
        rw [centsToInt_eq_ok hcents] at hprice
        obtain ⟨price, hintegral, heq⟩ := Option.map_eq_some_iff.mp hprice
        have hpositive := (Option.filter_eq_some_iff.mp hintegral).2
        rw [Bool.and_eq_true] at hpositive
        rw [← heq]
        exact Decimal.toNat_pos hpositive.1 hpositive.2
  | _ => exact iff_of_true (parsed_none GoodOffer) trivial

theorem succeeds_parseSale {title other : String} {entry : Payload}
    (h : Succeeds (parseSale c m title entry)) : Succeeds (parseSale c m other entry) := by
  cases entry with
  | obj entry => exact succeeds_parseSale_iff.mpr (succeeds_parseSale_iff.mp h)
  | _ => exact succeeds_ok _

theorem succeeds_parseSales_iff {title : String} {payload : Payload} :
    Succeeds (parseSales c m title payload)
      ↔ ∀ entry ∈ salesOf payload, Succeeds (parseSale c m title entry) := by
  rw [parseSales, succeeds_map, succeeds_mapM_iff]

theorem succeeds_syncOne {title : String} {answers : List (Option Payload)}
    (h : ∀ payload, some payload ∈ answers → Succeeds (parseSales c m title payload)) :
    Succeeds (syncOne c m title answers) := by
  induction answers with
  | nil => exact succeeds_ok _
  | cons answer rest ih =>
      cases answer with
      | none => exact succeeds_ok _
      | some payload =>
          obtain ⟨page, hpage⟩ := h payload List.mem_cons_self
          obtain ⟨later, hlater⟩ := ih fun other hother => h other (List.mem_cons_of_mem _ hother)
          exact succeeds_bind.mpr ⟨page, hpage,
            succeeds_bind.mpr ⟨later, hlater, succeeds_ok _⟩⟩

end

end

/-- An entry raises nothing and gives no bad record. Nor does it, alone, make its page, its poll or
the sync of all titles raise. -/
structure Total (c : Capitalizer) (m : Machine) (title : String) (entry : Payload) : Prop where
  sale : Parsed GoodSale (parseSale c m title entry)
  offer : Parsed GoodOffer (parseOffer c m entry)
  page : ∀ payload,
    (∀ other ∈ salesOf payload, other = entry ∨ Succeeds (parseSale c m title other)) →
      Succeeds (parseSales c m title payload)
  poll : ∀ pages,
    (∀ page ∈ pages, ∀ other ∈ page, other = entry ∨ Succeeds (parseOffer c m other)) →
      Succeeds (readOffers c m pages)
  sync : ∀ titles : List (String × List (Option Payload)),
    (∀ t ∈ titles, ∀ payload, some payload ∈ t.2 → ∀ other ∈ salesOf payload,
      other = entry ∨ Succeeds (parseSale c m t.1 other)) →
      Succeeds (syncSales c m titles)

/-- The parsers are total on an entry exactly where its numbers convert. -/
theorem total_iff (c : Capitalizer) (m : Machine) (title : String) (entry : Payload) :
    Total c m title entry ↔ ReadableSale m entry ∧ ReadableOffer m entry := by
  constructor
  · intro h
    exact ⟨parsed_parseSale_iff.mp h.sale, parsed_parseOffer_iff.mp h.offer⟩
  · rintro ⟨hsale, hoffer⟩
    have hsale := (@parsed_parseSale_iff m c title entry).mpr hsale
    have hoffer := (@parsed_parseOffer_iff m c entry).mpr hoffer
    have saleSucceeds : ∀ other : String, Succeeds (parseSale c m other entry) := fun other =>
      succeeds_parseSale (hsale.imp fun _ h => h.1)
    have offerSucceeds : Succeeds (parseOffer c m entry) := hoffer.imp fun _ h => h.1
    refine ⟨hsale, hoffer, fun payload hothers => ?_, fun pages hothers => ?_,
      fun titles hothers => ?_⟩
    · refine succeeds_parseSales_iff.mpr fun other hother => ?_
      rcases hothers other hother with rfl | h
      · exact saleSucceeds title
      · exact h
    · refine succeeds_mapM_iff.mpr fun page hpage => succeeds_mapM_iff.mpr fun other hother => ?_
      rcases hothers page hpage other hother with rfl | h
      · exact offerSucceeds
      · exact h
    · refine succeeds_mapM_iff.mpr fun t ht => succeeds_syncOne fun payload hpayload => ?_
      refine succeeds_parseSales_iff.mpr fun other hother => ?_
      rcases hothers t ht payload hpayload other hother with rfl | h
      · exact saleSucceeds t.1
      · exact h

def asciiUpper (c : Char) : Char := if c.isLower then Char.ofNat (c.toNat - 32) else c

/-- Capitals of ASCII. -/
def asciiCapitalize : List Char → List Char
  | [] => []
  | c :: cs => asciiUpper c :: cs.map Char.toLower

theorem asciiCapitalize_ne_nil (word : List Char) (h : word ≠ []) : asciiCapitalize word ≠ [] := by
  cases word with
  | nil => exact absurd rfl h
  | cons c cs => exact List.cons_ne_nil _ _

theorem asciiUpper_ne_d (c : Char) : asciiUpper c ≠ 'd' := by
  intro h
  rw [asciiUpper] at h
  split at h
  · rename_i hlower
    obtain ⟨hfirst, hlast⟩ := Bool.and_eq_true_iff.mp hlower
    have hfirst : 97 ≤ c.toNat := UInt32.le_iff_toNat_le.mp (of_decide_eq_true hfirst)
    have hlast : c.toNat ≤ 122 := UInt32.le_iff_toNat_le.mp (of_decide_eq_true hlast)
    generalize c.toNat = n at h hfirst hlast
    interval_cases n <;> exact absurd h (by decide)
  · rename_i hlower
    exact hlower (by rw [h]; decide)

theorem asciiCapitalize_ne_default (word : List Char) :
    asciiCapitalize word ≠ "default".toList := by
  cases word with
  | nil => decide
  | cons c cs => exact fun h => asciiUpper_ne_d c (List.cons.inj h).1

def asciiCapitalizer : Capitalizer where
  capitalize := asciiCapitalize
  ne_nil := asciiCapitalize_ne_nil
  ne_default := asciiCapitalize_ne_default

def machine : Machine := ⟨200, 1000000⟩

/-- A sale whose date is in milliseconds. -/
def millisSale : Payload :=
  .obj [("price", .str "24.56"), ("txOperationType", .str "Offer"), ("date", .str "1700000000000")]

/-- `fromtimestamp` raises: the year would be 55840. -/
theorem not_total_millisSale : ¬ Total asciiCapitalizer machine "AK-47 | Redline" millisSale := by
  intro h
  obtain ⟨sale?, hsale, -⟩ := h.sale
  have hraises : parseSale asciiCapitalizer machine "AK-47 | Redline" millisSale
      = .error .valueError := rfl
  rw [hraises] at hsale
  cases hsale

end BrandSniper.Dmarket.Entries
