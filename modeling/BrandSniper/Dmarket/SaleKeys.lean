import BrandSniper.Kit.Json
import BrandSniper.Kit.Occurrences
import BrandSniper.Shared.ItemClassifier

/-!
# DMarket sales and their keys

A sale of DMarket's `last-sales` has no ID. `sale_keys` of
`shared_utils/dmarket.py` tells the sales of one read apart by their contents
and, among equal ones, by a number. The keys of a read are those numbers
(`saleKeys_eq`), so they are distinct (`nodup_saleKeys`) and do not depend on
the order DMarket lists the sales of a second in.

Floats are whatever the type `F` says they are. A sale is one that
`parse_sale` makes: its time in whole seconds, and no phase that
`phase_version` does not give.
-/

namespace BrandSniper.Dmarket

open Kit

/-- `SALE_TYPE_OFFER` and `SALE_TYPE_TARGET` -/
inductive SaleType where
  | offer
  | target
  deriving DecidableEq

def SaleType.label : SaleType → String
  | .offer => "offer"
  | .target => "target"

theorem SaleType.label_inj {a b : SaleType} (h : a.label.toList = b.label.toList) : a = b := by
  cases a <;> cases b <;> first | rfl | exact absurd h (by decide)

/-- What `phase_version` gives: a text that is not empty, with capitals at the start of words. -/
def IsPhase (phase : String) : Prop := phase ≠ "" ∧ phase ≠ "default"

theorem isPhase_of_none : ∀ p, (none : Option String) = some p → IsPhase p := by
  intro p h
  cases h

/-- One sale from `last-sales`; `soldAt` is in Unix seconds. -/
@[ext] structure DMarketSale (F : Type) where
  title : String
  soldAt : Int
  priceCents : Int
  saleType : SaleType
  floatValue : Option F
  paintSeed : Option Int
  phase : Option String
  isPhase : ∀ p, phase = some p → IsPhase p
  deriving DecidableEq

namespace DMarketSale

variable {F : Type} [PyFloat F]

/-- The versioned name, as ticks carry it. -/
def marketHashName (sale : DMarketSale F) : String :=
  String.ofList (ItemClassifier.buildVersionedName sale.title.toList (sale.phase.map String.toList))

def floatPart : Option F → List Char
  | none => []
  | some x => PyFloat.repr x

def seedPart : Option Int → List Char
  | none => []
  | some seed => (toString seed).toList

/-- `sale.phase or ''` -/
def phasePart : Option String → List Char
  | none => []
  | some phase => phase.toList

/-- The `base` of a key: what equal sales share. -/
def keyBase (sale : DMarketSale F) : List Char :=
  (toString sale.soldAt).toList ++ ':' :: ((toString sale.priceCents).toList ++ ':' ::
    (sale.saleType.label.toList ++ ':' :: (floatPart sale.floatValue ++ ':' ::
      (seedPart sale.paintSeed ++ ':' :: phasePart sale.phase))))

end DMarketSale

/-- `f"{base}#{seen[base]}"` -/
def numberedKey (base : List Char) (number : Nat) : String :=
  String.ofList (base ++ '#' :: (toString number).toList)

/-- The key of a sale with a number. -/
def DMarketSale.key {F : Type} [PyFloat F] (sale : DMarketSale F) (number : Nat) : String :=
  numberedKey sale.keyBase number

/-- The loop of `sale_keys`; `seen` is its counter. -/
def saleKeysFrom {F : Type} [PyFloat F] (seen : List Char → Nat) :
    List (DMarketSale F) → List String
  | [] => []
  | sale :: rest =>
      let base := sale.keyBase
      numberedKey base (seen base)
        :: saleKeysFrom (Function.update seen base (seen base + 1)) rest

def saleKeys {F : Type} [PyFloat F] (sales : List (DMarketSale F)) : List String :=
  saleKeysFrom (fun _ => 0) sales

/-! ## What a key says -/

theorem numberedKey_inj {base base' : List Char} {m n : Nat}
    (h : numberedKey base m = numberedKey base' n) : base = base' ∧ m = n := by
  have hlist := String.ofList_injective h
  have hash : ∀ k : Nat, '#' ∉ (toString k).toList := Text.not_mem_natText (by decide)
  -- The number comes off from the right: a phase may hold a number sign.
  obtain ⟨hbase, hnumber⟩ := Text.sep_right_inj (hash m) (hash n) hlist
  exact ⟨hbase, Text.natText_inj hnumber⟩

section

variable {F : Type} [PyFloat F]

theorem saleKeysFrom_eq (seen : List Char → Nat) (sales : List (DMarketSale F)) :
    saleKeysFrom seen sales
      = (numberedFrom seen (sales.map DMarketSale.keyBase)).map fun p => numberedKey p.1 p.2 := by
  induction sales generalizing seen with
  | nil => rfl
  | cons sale rest ih =>
      rw [saleKeysFrom, ih, List.map_cons, numberedFrom, List.map_cons]

theorem saleKeys_eq (sales : List (DMarketSale F)) :
    saleKeys sales
      = (numbered (sales.map DMarketSale.keyBase)).map fun p => numberedKey p.1 p.2 :=
  saleKeysFrom_eq _ sales

theorem numberedKey_injective :
    Function.Injective fun p : List Char × Nat => numberedKey p.1 p.2 := by
  rintro ⟨base, m⟩ ⟨base', n⟩ h
  obtain ⟨hbase, hnumber⟩ := numberedKey_inj h
  rw [Prod.mk.injEq]
  exact ⟨hbase, hnumber⟩

/-- The keys of one read are distinct. -/
theorem nodup_saleKeys (sales : List (DMarketSale F)) : (saleKeys sales).Nodup := by
  rw [saleKeys_eq]
  exact (nodup_numbered _).map numberedKey_injective

end

section

variable {F : Type} [PyFloat F] [LawfulPyFloat F]

theorem floatPart_inj {a b : Option F}
    (h : DMarketSale.floatPart a = DMarketSale.floatPart b) : a = b := by
  have hne : ∀ x : F, PyFloat.repr x ≠ [] := fun x hnil => by
    obtain ⟨c, rest, hcons, -⟩ := LawfulPyFloat.head_repr x
    exact List.cons_ne_nil c rest (hcons.symm.trans hnil)
  cases a with
  | none =>
      cases b with
      | none => rfl
      | some y => exact absurd h.symm (hne y)
  | some x =>
      cases b with
      | none => exact absurd h (hne x)
      | some y =>
          have hx := LawfulPyFloat.ofText_repr x
          rw [show PyFloat.repr x = PyFloat.repr y from h, LawfulPyFloat.ofText_repr y] at hx
          exact hx.symm

omit [PyFloat F] [LawfulPyFloat F] in
theorem seedPart_inj {a b : Option Int}
    (h : DMarketSale.seedPart a = DMarketSale.seedPart b) : a = b := by
  have hne : ∀ z : Int, (toString z).toList ≠ [] := fun z => by
    cases z with
    | ofNat n => exact Text.natText_ne_nil n
    | negSucc n =>
        rw [Text.intText_negSucc]
        exact List.cons_ne_nil _ _
  cases a with
  | none =>
      cases b with
      | none => rfl
      | some y => exact absurd h.symm (hne y)
  | some x =>
      cases b with
      | none => exact absurd h (hne x)
      | some y => exact congrArg some (Text.intText_inj h)

omit [PyFloat F] [LawfulPyFloat F] in
theorem phasePart_inj {a b : Option String} (ha : ∀ p, a = some p → IsPhase p)
    (hb : ∀ p, b = some p → IsPhase p)
    (h : DMarketSale.phasePart a = DMarketSale.phasePart b) : a = b := by
  have hne : ∀ p : String, IsPhase p → p.toList ≠ [] := fun p hp hnil =>
    hp.1 (String.toList_inj.mp hnil)
  cases a with
  | none =>
      cases b with
      | none => rfl
      | some y => exact absurd h.symm (hne y (hb y rfl))
  | some x =>
      cases b with
      | none => exact absurd h (hne x (ha x rfl))
      | some y => exact congrArg some (String.toList_inj.mp h)

theorem colon_not_mem_floatPart (x : Option F) : ':' ∉ DMarketSale.floatPart x := by
  cases x with
  | none => exact List.not_mem_nil
  | some x => exact fun hmem => absurd (LawfulPyFloat.isNumberChar_repr x _ hmem) (by decide)

omit [PyFloat F] [LawfulPyFloat F] in
theorem colon_not_mem_seedPart (seed : Option Int) : ':' ∉ DMarketSale.seedPart seed := by
  cases seed with
  | none => exact List.not_mem_nil
  | some z => exact Text.not_mem_intText (by decide) z

/-- Sales of one title with the same base are the same sale. -/
theorem keyBase_inj {a b : DMarketSale F} (htitle : a.title = b.title)
    (h : a.keyBase = b.keyBase) : a = b := by
  obtain ⟨title, soldAt, priceCents, saleType, floatValue, paintSeed, phase, isPhase⟩ := a
  obtain ⟨title', soldAt', priceCents', saleType', floatValue', paintSeed', phase', isPhase'⟩ := b
  have colon : ∀ z : Int, ':' ∉ (toString z).toList := Text.not_mem_intText (by decide)
  have colonType : ∀ t : SaleType, ':' ∉ t.label.toList := fun t => by cases t <;> decide
  obtain ⟨hsold, h⟩ := Text.sep_left_inj (colon soldAt) (colon soldAt') h
  obtain ⟨hprice, h⟩ := Text.sep_left_inj (colon priceCents) (colon priceCents') h
  obtain ⟨htype, h⟩ := Text.sep_left_inj (colonType saleType) (colonType saleType') h
  obtain ⟨hfloat, h⟩ := Text.sep_left_inj (colon_not_mem_floatPart floatValue)
    (colon_not_mem_floatPart floatValue') h
  obtain ⟨hseed, hphase⟩ := Text.sep_left_inj (colon_not_mem_seedPart paintSeed)
    (colon_not_mem_seedPart paintSeed') h
  obtain rfl : title = title' := htitle
  obtain rfl := Text.intText_inj hsold
  obtain rfl := Text.intText_inj hprice
  obtain rfl := SaleType.label_inj htype
  obtain rfl := floatPart_inj hfloat
  obtain rfl := seedPart_inj hseed
  obtain rfl := phasePart_inj isPhase isPhase' hphase
  rfl

theorem key_inj {a b : DMarketSale F} {m n : Nat} (htitle : a.title = b.title)
    (h : a.key m = b.key n) : a = b ∧ m = n := by
  obtain ⟨hbase, hnumber⟩ := numberedKey_inj h
  exact ⟨keyBase_inj htitle hbase, hnumber⟩

theorem saleKeysFrom_eq_key [DecidableEq F] {title : String} {seen : List Char → Nat}
    {seen' : DMarketSale F → Nat} (hseen : ∀ sale, sale.title = title → seen sale.keyBase = seen' sale)
    {sales : List (DMarketSale F)} (htitles : ∀ sale ∈ sales, sale.title = title) :
    saleKeysFrom seen sales = (numberedFrom seen' sales).map fun p => p.1.key p.2 := by
  induction sales generalizing seen seen' with
  | nil => rfl
  | cons sale rest ih =>
      have htitle := htitles sale List.mem_cons_self
      rw [saleKeysFrom, numberedFrom, List.map_cons]
      refine congrArg₂ List.cons (congrArg (numberedKey sale.keyBase) (hseen sale htitle))
        (ih (fun other hother => ?_) fun other hmem => htitles other (List.mem_cons_of_mem _ hmem))
      by_cases hsame : other = sale
      · subst hsame
        rw [Function.update_self, Function.update_self, hseen other hother]
      · rw [Function.update_of_ne hsame, Function.update_of_ne, hseen other hother]
        exact fun hbase => hsame (keyBase_inj (hother.trans htitle.symm) hbase)

/-- The keys of a title's sales are the sales with their numbers. -/
theorem saleKeys_eq_key [DecidableEq F] {title : String} {sales : List (DMarketSale F)}
    (htitles : ∀ sale ∈ sales, sale.title = title) :
    saleKeys sales = (numbered sales).map fun p => p.1.key p.2 :=
  saleKeysFrom_eq_key (fun _ _ => rfl) htitles

/-- Each sale beside its key. -/
theorem zip_saleKeys [DecidableEq F] {title : String} {sales : List (DMarketSale F)}
    (htitles : ∀ sale ∈ sales, sale.title = title) :
    sales.zip (saleKeys sales) = (numbered sales).map fun p => (p.1, p.1.key p.2) := by
  have hzip : ((numbered sales).map Prod.fst).zip ((numbered sales).map fun p => p.1.key p.2)
      = (numbered sales).map fun p => (p.1, p.1.key p.2) := List.zip_map'
  rwa [numbered_fst, ← saleKeys_eq_key htitles] at hzip

end

/-! ## What a name says -/

open ItemClassifier in
/-- A version adds a closing parenthesis to those of the title and of itself. -/
theorem count_buildVersionedName (name : List Char) {version : List Char} (hne : version ≠ [])
    (hdefault : version ≠ "default".toList) :
    (buildVersionedName name (some version)).count ')' = name.count ')' + version.count ')' + 1 := by
  rw [buildVersionedName, if_neg (not_or_intro hne hdefault)]
  have hopen : " (".toList.count ')' = 0 := by decide
  have hclose : ") ".toList.count ')' = 1 := by decide
  have hend : ")".toList.count ')' = 1 := by decide
  cases hsplit : splitWear name with
  | none =>
      simp only [List.count_append, hopen, hend]
      omega
  | some found =>
      obtain ⟨base, wear⟩ := found
      obtain ⟨front, rfl, rfl⟩ := append_of_splitWear hsplit
      simp only [List.count_append, hopen, hclose, Text.count_trim (c := ')') (by decide) front]
      omega

open ItemClassifier in
/-- Versions that give a title one name are the same. -/
theorem buildVersionedName_inj {name v w : List Char} (hv : v ≠ []) (hv' : v ≠ "default".toList)
    (hw : w ≠ []) (hw' : w ≠ "default".toList)
    (h : buildVersionedName name (some v) = buildVersionedName name (some w)) : v = w := by
  rw [buildVersionedName, buildVersionedName, if_neg (not_or_intro hv hv'),
    if_neg (not_or_intro hw hw')] at h
  cases hsplit : splitWear name with
  | none =>
      simp only [hsplit] at h
      exact List.append_cancel_left (List.append_cancel_right h)
  | some found =>
      obtain ⟨base, wear⟩ := found
      simp only [hsplit] at h
      exact List.append_cancel_left (List.append_cancel_right (List.append_cancel_right h))

/-- The versioned name of a title says the phase. -/
theorem phase_of_marketHashName {F : Type} {a b : DMarketSale F} (htitle : a.title = b.title)
    (h : a.marketHashName = b.marketHashName) : a.phase = b.phase := by
  have hlist := String.ofList_injective h
  rw [htitle] at hlist
  have chars : ∀ p, IsPhase p → p.toList ≠ [] ∧ p.toList ≠ "default".toList := fun p hp =>
    ⟨fun hnil => hp.1 (String.toList_inj.mp hnil), fun hd => hp.2 (String.toList_inj.mp hd)⟩
  -- A name with a phase has a parenthesis more than the title.
  have more : ∀ p, IsPhase p → ∀ name : List Char,
      ItemClassifier.buildVersionedName name (some p.toList) ≠ name := fun p hp name heq => by
    have hcount := count_buildVersionedName name (chars p hp).1 (chars p hp).2
    rw [heq] at hcount
    omega
  cases ha : a.phase with
  | none =>
      cases hb : b.phase with
      | none => rfl
      | some q =>
          rw [ha, hb] at hlist
          exact absurd hlist.symm (more q (b.isPhase q hb) _)
  | some p =>
      have hp := a.isPhase p ha
      cases hb : b.phase with
      | none =>
          rw [ha, hb] at hlist
          exact absurd hlist (more p hp _)
      | some q =>
          have hq := b.isPhase q hb
          rw [ha, hb] at hlist
          have hpq := buildVersionedName_inj (chars p hp).1 (chars p hp).2 (chars q hq).1
            (chars q hq).2 hlist
          exact congrArg some (String.toList_inj.mp hpq)

end BrandSniper.Dmarket
