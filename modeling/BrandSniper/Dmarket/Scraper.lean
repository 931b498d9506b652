import BrandSniper.Dmarket.Resume
import BrandSniper.Listener.ListingFilter
import BrandSniper.Waxpeer.RecordingFilter

/-!
# The DMarket scraper

`DMarketScraper` of `apps/listener/scrapers/dmarket.py` over the edge Redis it
keeps its resume point in, with the `RawEventBatch` of
`apps/listener/scrapers/listing_filter.py`.

A process can die between any two steps, and Redis can fail or lose what it
holds. A tick that a connection has yielded is recorded once the queue has
taken it. A price in cents that is too large for a float raises an
`OverflowError`, which ends the connection: `listing_tick` does not catch it.
Which listings there are, and when they appear, is up to a market.
-/

namespace BrandSniper.Dmarket

open Kit Json

/-! ## The recording filter -/

/-- What `listing_tick` and `_judge` read of an offer besides its ID and time. -/
structure OfferDetails where
  priceCents : Nat
  offerType : String
  marketHashName : String
  floatValue : Option ℚ
  stickerNames : List String

/-- `VENUE` -/
def venue : String := "dmarket"

/-- `OFFER_TYPE_BOT` -/
def offerTypeBot : String := "dmarket"

/-- `MAX_LISTING_ID_LENGTH` -/
def maxListingIdLength : Nat := 64

theorem isVenueName_venue : isVenueName venue = true := by decide

/-- `price_cents / 100` -/
def OfferDetails.priceUsd (details : OfferDetails) : Except ConversionError Binary64 :=
  Binary64.ofDiv details.priceCents 100 Waxpeer.hundred_pos

/-- A listed tick, observed when its page arrived; nothing when it does not validate. -/
def listingTick (offer : DMarketOffer) (details : OfferDetails) (receivedAtMs : Int) :
    Except ConversionError (Option MarketTick) :=
  if maxListingIdLength < offer.offerId.length then .ok none
  else details.priceUsd.map fun priceUsd =>
    if priceUsd.units = 0 ∨ receivedAtMs ≤ 0 ∨
        (details.floatValue.any fun x => x < 0 ∨ 1 < x) then none
    else some {
      venue := venue
      kind := .listed
      marketHashName := details.marketHashName
      priceCents? := (priceUsd.mulNat 100).map Binary64.round
      timestamp := receivedAtMs / 1000
      observedAtMs := some receivedAtMs
      floatValue := details.floatValue
      stickers := details.stickerNames.map fun name => ⟨some name⟩
      eventType := some listedEventType
      listingId := some offer.offerId
      venueName := isVenueName_venue
      kindMatchesEventType := Waxpeer.listed_matches
      observedAtMatchesTimestamp := Waxpeer.observedInside_seconds receivedAtMs }

theorem listingId_of_listingTick {offer : DMarketOffer} {details : OfferDetails}
    {receivedAtMs : Int} {tick : MarketTick}
    (h : listingTick offer details receivedAtMs = .ok (some tick)) :
    tick.listingId = some offer.offerId := by
  unfold listingTick at h
  split at h
  · cases h
  · cases hprice : details.priceUsd with
    | error e =>
        rw [hprice] at h
        cases h
    | ok priceUsd =>
        rw [hprice] at h
        dsimp only [Except.map] at h
        split at h
        · cases h
        · cases h
          rfl

inductive Verdict where
  | filtered (outcome : FilterOutcome)
  /-- A person to person listing: the API cannot buy it. -/
  | personToPerson
  deriving DecidableEq

/-- `_judge`: the outcome counted, and the tick to record. -/
def judge (prices : ResalePrices) (offer : Option DMarketOffer) (details : OfferDetails)
    (receivedAtMs : Int) : Except ConversionError (Verdict × Option MarketTick) :=
  match offer with
  | none => .ok (.filtered .malformed, none)
  | some offer =>
      if details.offerType ≠ offerTypeBot then .ok (.personToPerson, none)
      else
        match listingTick offer details receivedAtMs with
        | .error e => .error e
        | .ok none => .ok (.filtered .malformed, none)
        | .ok (some tick) =>
            (prices.judgeTick tick).map fun outcome =>
              (.filtered outcome, if outcome = .recorded then some tick else none)

theorem judge_eq_some {prices : ResalePrices} {offer? : Option DMarketOffer}
    {details : OfferDetails} {receivedAtMs : Int} {verdict : Verdict} {tick : MarketTick}
    (h : judge prices offer? details receivedAtMs = .ok (verdict, some tick)) :
    prices.judgeTick tick = .ok .recorded ∧
      ∃ offer, offer? = some offer ∧ listingTick offer details receivedAtMs = .ok (some tick) := by
  cases offer? with
  | none => cases h
  | some offer =>
      rw [judge] at h
      split at h
      · cases h
      · split at h
        · cases h
        · cases h
        · rename_i tick' htick
          cases houtcome : prices.judgeTick tick' with
          | error e =>
              rw [houtcome] at h
              cases h
          | ok outcome =>
              rw [houtcome, Except.map, Except.ok.injEq, Prod.mk.injEq] at h
              obtain ⟨-, h⟩ := h
              split at h
              · rename_i hrecorded
                cases h
                rw [hrecorded] at houtcome
                exact ⟨houtcome, offer, rfl, htick⟩
              · cases h

/-- The price of an offer has floats: in dollars, and in cents again. -/
def OfferDetails.Converts (details : OfferDetails) : Prop :=
  ∃ priceUsd, details.priceUsd = .ok priceUsd ∧ (priceUsd.mulNat 100).isSome = true

theorem exists_listingTick_of_converts {details : OfferDetails} (h : details.Converts)
    (offer : DMarketOffer) (receivedAtMs : Int) :
    ∃ tick?, listingTick offer details receivedAtMs = .ok tick? ∧
      ∀ tick ∈ tick?, tick.priceCents?.isSome = true := by
  obtain ⟨priceUsd, hprice, hcents⟩ := h
  unfold listingTick
  split
  · exact ⟨none, rfl, fun tick htick => by cases htick⟩
  · rw [hprice]
    refine ⟨_, rfl, fun tick htick => ?_⟩
    dsimp only at htick
    split at htick
    · cases htick
    · cases htick
      rwa [Option.isSome_map]

/-- An offer whose price has floats is judged. -/
theorem exists_judge_of_converts {details : OfferDetails} (h : details.Converts)
    (prices : ResalePrices) (offer? : Option DMarketOffer) (receivedAtMs : Int) :
    ∃ verdict tick?, judge prices offer? details receivedAtMs = .ok (verdict, tick?) := by
  cases offer? with
  | none => exact ⟨_, _, rfl⟩
  | some offer =>
      rw [judge]
      split
      · exact ⟨_, _, rfl⟩
      · obtain ⟨tick?, htick, hpriced⟩ := exists_listingTick_of_converts h offer receivedAtMs
        rw [htick]
        cases tick? with
        | none => exact ⟨_, _, rfl⟩
        | some tick =>
            have hjudged : Succeeds (prices.judgeTick tick) :=
              ResalePrices.succeeds_judgeTick_iff.mpr fun _ => hpriced tick rfl
            obtain ⟨outcome, houtcome⟩ := hjudged
            dsimp only
            rw [houtcome]
            exact ⟨_, _, rfl⟩

/-! ## Raw listings -/

structure RawEvent (ε : Type) where
  event : String
  receivedAtMs : Int
  data : ε

/-- A feed event of `RAW_BATCH_EVENT_TYPE`, with its payload. -/
structure RawFeedEvent (ε : Type) extends FeedEvent where
  venue : String
  events : List (RawEvent ε)

structure RawEventBatch (ε : Type) where
  venue : String
  maxEvents : Nat
  maxAgeMs : Int
  events : List (RawEvent ε)

namespace RawEventBatch

variable {ε : Type}

/-- `RawEventBatch(VENUE)`, of `RAW_BATCH_MAX_EVENTS` and `RAW_BATCH_MAX_SECONDS` -/
def new (venue : String) : RawEventBatch ε := ⟨venue, 500, 10000, []⟩

def add (batch : RawEventBatch ε) (raw : RawEvent ε) : RawEventBatch ε :=
  { batch with events := batch.events ++ [raw] }

/-- The pending events as one feed event, received at the first event's time. -/
def take (batch : RawEventBatch ε) : Option (RawFeedEvent ε) × RawEventBatch ε :=
  match batch.events with
  | [] => (none, batch)
  | first :: rest =>
      (some ⟨⟨"batch", first.receivedAtMs⟩, batch.venue, first :: rest⟩,
        { batch with events := [] })

def takeIfDue (batch : RawEventBatch ε) (nowMs : Int) :
    Option (RawFeedEvent ε) × RawEventBatch ε :=
  match batch.events with
  | [] => (none, batch)
  | first :: _ =>
      if batch.maxEvents ≤ batch.events.length ∨ batch.maxAgeMs ≤ nowMs - first.receivedAtMs then
        batch.take
      else (none, batch)

@[simp] theorem add_events (batch : RawEventBatch ε) (raw : RawEvent ε) :
    (batch.add raw).events = batch.events ++ [raw] := rfl

@[simp] theorem add_venue (batch : RawEventBatch ε) (raw : RawEvent ε) :
    (batch.add raw).venue = batch.venue := rfl

end RawEventBatch

/-! ## The scraper -/

/-- Where a connection is. -/
inductive Phase (ε : Type) where
  /-- There is none. -/
  | closed
  /-- At the top of the loop. -/
  | top
  /-- A poll has read these entries, which are not judged yet. -/
  | reading (event : String) (left : List (ReadEntry ε))
  /-- A tick was yielded, and the queue has not taken it. -/
  | yielded (tick : MarketTick) (raw : RawEvent ε) (left : List (ReadEntry ε))
  | saving
  /-- A request failed. -/
  | failed
  | closing
  /-- A price has raised; there is none, and nothing more was handed on. -/
  | raised

/-- There is no connection. -/
def Phase.ended {ε : Type} : Phase ε → Bool
  | .closed | .raised => true
  | _ => false

structure Process (ε : Type) where
  poller : ListingPoller
  resalePrices : ResalePrices
  phase : Phase ε
  rawBatch : RawEventBatch ε
  /-- Its reading is complete from this creation time on. -/
  sinceMs : Option Int
  /-- The ticks its connection has handed on, with their raw listings. -/
  taken : List (MarketTick × RawEvent ε)
  /-- The feed events its connection has handed on. -/
  fed : List (RawFeedEvent ε)
  /-- The raw listings that waited when a price raised. -/
  lost : List (RawEvent ε)

/-- A tick the queue took, and the prices it was judged against. -/
structure Handed where
  tick : MarketTick
  prices : ResalePrices

/-- An entry that was not recorded. -/
structure Dropped where
  offer : Option DMarketOffer
  verdict : Verdict
  prices : ResalePrices

structure Scraper (ε : Type) where
  /-- How many of the newest listings have not appeared. -/
  hidden : Nat
  /-- What the edge Redis holds under `RESUME_KEY`. -/
  stored : Option String
  /-- The process that stored it was complete from this creation time on. -/
  storedSinceMs : Option Int
  process : Option (Process ε)
  handed : List Handed
  dropped : List Dropped
  /-- The listings the backend named as recorded. -/
  vouched : Finset String

/-- What a process does next. -/
inductive Action (ε : Type) where
  /-- `listen_websocket_stream`: whether Redis fails, and what the backend would answer. -/
  | listen (redisFails : Bool) (backend : Option (Int × Finset String)) (nowMs : Int)
  /-- The build and the hashes read; nothing if Redis fails. -/
  | refresh (answer : Option (Option String × EdgeHashes))
  | live (visits : List (Visit ε))
  | catchUp (visits : List (Visit ε))
  | judge
  /-- The queue takes the tick. -/
  | hand
  /-- The raw listings are handed on if they are due, once everything read is judged. -/
  | flush (nowMs : Int)
  | save (redisFails : Bool)
  /-- After a failed request: the raw listings still pending are handed on. -/
  | flushPending
  | saveLast (redisFails : Bool)

inductive ScraperEvent (ε : Type) where
  | arrive (count : Nat)
  | boot
  | act (action : Action ε)
  | die
  /-- The edge Redis loses what it holds. -/
  | wipe

/-- What the machine runs on. -/
structure ScraperWorld (ε F : Type) where
  market : Market ε
  parseOffer : ε → Option DMarketOffer
  details : ε → OfferDetails
  /-- `SEEN_LISTINGS_MAX` -/
  maxSeen : Nat
  /-- `MAX_CATCH_UP_HOURS` -/
  maxCatchUpMs : Int
  /-- The venue its listings are resold on. -/
  resaleVenue : String
  order : SetOrder
  /-- How lists and dictionaries are shown. -/
  repr : Json F → String

section
variable {ε : Type}

namespace Process

def new (maxSeen : Nat) (resaleVenue : String) : Process ε where
  poller := .new maxSeen
  resalePrices := .new resaleVenue
  phase := .closed
  rawBatch := .new venue
  sinceMs := none
  taken := []
  fed := []
  lost := []

/-- A connection opens. -/
def connect (p : Process ε) : Process ε :=
  { p with phase := .top, rawBatch := .new venue, taken := [], fed := [], lost := [] }

/-- The ghost of a process that has a floor. -/
def mark (p : Process ε) : Process ε := { p with sinceMs := p.sinceMs.or p.poller.nextFloorMs }

/-- After a call of the poller, whether it returns or raises. -/
def called (p : Process ε) (event : String) :
    EStateM.Result FetchError ListingPoller (List (ReadEntry ε)) → Process ε
  | .ok read poller => { p with poller := poller, phase := .reading event read }.mark
  | .error _ poller => { p with poller := poller, phase := .failed }

/-- The raw listings a connection hands on. -/
def feed (p : Process ε) (phase : Phase ε) :
    Option (RawFeedEvent ε) × RawEventBatch ε → Process ε
  | (event?, batch) => { p with phase := phase, rawBatch := batch, fed := p.fed ++ event?.toList }

/-- What was judged last. -/
def record (p : Process ε) (offer : DMarketOffer) (tick : MarketTick) (raw : RawEvent ε)
    (left : List (ReadEntry ε)) : Process ε :=
  { p with
    poller := p.poller.noteRecorded offer
    rawBatch := p.rawBatch.add raw
    phase := .yielded tick raw left }

/-- An `OverflowError` ends the connection. -/
def overflow (p : Process ε) : Process ε :=
  { p with phase := .raised, rawBatch := .new venue, lost := p.rawBatch.events }

end Process

namespace Scraper

variable {F : Type} [PyFloat F] (w : ScraperWorld ε F)

/-- Nothing has run yet. -/
def start (hidden : Nat) : Scraper ε := ⟨hidden, none, none, none, [], [], ∅⟩

def set (st : Scraper ε) (p : Process ε) : Scraper ε := { st with process := some p }

/-- `_resume`: the edge Redis first, else the backend. -/
def resume (st : Scraper ε) (p : Process ε) (redisFails : Bool)
    (backend : Option (Int × Finset String)) (nowMs : Int) : Scraper ε :=
  match if redisFails then none else parseResumeDocument w.repr st.stored with
  | some point =>
      st.set { p with
        poller := p.poller.resumeFrom w.order (cursorCreatedAtMs F) point nowMs w.maxCatchUpMs
        sinceMs := st.storedSinceMs.map fun since => max since (nowMs - w.maxCatchUpMs) }.mark
  | none =>
      match backend with
      | none => st.set p
      | some (newestMs, recordedIds) =>
          { st.set { p with
              poller := p.poller.resumeFrom w.order (cursorCreatedAtMs F) ⟨newestMs, recordedIds, []⟩
                nowMs w.maxCatchUpMs }.mark with
            vouched := st.vouched ∪ recordedIds }

/-- `_save_resume_point` -/
def save (F : Type) [PyFloat F] (st : Scraper ε) (p : Process ε) (redisFails : Bool) : Scraper ε :=
  match p.poller.newestMs with
  | none => st.set p
  | some _ =>
      let st := st.set { p with poller := p.poller.dropOldRecorded }
      if redisFails then st
      else { st with stored := some (resumeDocument F p.poller), storedSinceMs := p.sinceMs }

/-- One entry of what a poll read. -/
def judgeNext (st : Scraper ε) (p : Process ε) (event : String) (item : ReadEntry ε)
    (left : List (ReadEntry ε)) : Scraper ε :=
  match judge p.resalePrices item.offer (w.details item.entry) item.receivedAtMs with
  | .error _ => st.set p.overflow
  | .ok (verdict, tick?) =>
      match tick?, item.offer with
      | some tick, some offer =>
          st.set (p.record offer tick ⟨event, item.receivedAtMs, item.entry⟩ left)
      | _, _ =>
          { st.set { p with phase := .reading event left } with
            dropped := st.dropped ++ [⟨item.offer, verdict, p.resalePrices⟩] }

def act (st : Scraper ε) (p : Process ε) : Action ε → Option (Scraper ε)
  | .listen redisFails backend nowMs =>
      if p.phase.ended then
        if p.poller.started then some (st.set p.connect)
        else some (st.resume w p.connect redisFails backend nowMs)
      else none
  | .refresh answer =>
      match p.phase, answer with
      | .top, some (buildId, hashes) =>
          some (st.set { p with resalePrices := (p.resalePrices.refresh buildId hashes).2 })
      | .top, none => some st
      | _, _ => none
  | .live visits =>
      match p.phase with
      | .top =>
          -- without prices nothing is read
          if p.resalePrices.latestPriceCents.keys = [] then none
          else
            some { st.set (p.called "listed"
                (livePoll w.parseOffer w.order (w.market.fetch st.hidden visits) p.poller)) with
              hidden := Market.hiddenAfter st.hidden visits }
      | _ => none
  | .catchUp visits =>
      match p.phase with
      | .top =>
          if p.resalePrices.latestPriceCents.keys = [] ∨ p.poller.gaps = [] then none
          else
            some { st.set (p.called "catch_up"
                (catchUpPage w.parseOffer (w.market.fetch st.hidden visits) p.poller)) with
              hidden := Market.hiddenAfter st.hidden visits }
      | _ => none
  | .judge =>
      match p.phase with
      | .reading event (item :: left) => some (st.judgeNext w p event item left)
      | _ => none
  | .hand =>
      match p.phase with
      | .yielded tick raw left =>
          some { st.set { p with phase := .reading raw.event left, taken := p.taken ++ [(tick, raw)] } with
            handed := st.handed ++ [⟨tick, p.resalePrices⟩] }
      | _ => none
  | .flush nowMs =>
      match p.phase with
      | .reading _ [] => some (st.set (p.feed .saving (p.rawBatch.takeIfDue nowMs)))
      | _ => none
  | .save redisFails =>
      match p.phase with
      | .saving => some (st.save F { p with phase := .top } redisFails)
      | _ => none
  | .flushPending =>
      match p.phase with
      | .failed => some (st.set (p.feed .closing p.rawBatch.take))
      | _ => none
  | .saveLast redisFails =>
      match p.phase with
      | .closing => some (st.save F { p with phase := .closed } redisFails)
      | _ => none

def step (st : Scraper ε) : ScraperEvent ε → Option (Scraper ε)
  | .arrive count => some { st with hidden := st.hidden - count }
  | .boot =>
      match st.process with
      | none => some (st.set (.new w.maxSeen w.resaleVenue))
      | some _ => none
  | .act action => st.process.bind fun p => st.act w p action
  | .die => some { st with process := none }
  | .wipe => some { st with stored := none }

end Scraper

end

end BrandSniper.Dmarket
