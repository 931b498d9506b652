import BrandSniper.Dmarket.Coverage
import BrandSniper.Kit.Base64
import BrandSniper.Kit.JsonObjects

/-!
# Saving and resuming the poller

The resume document of the edge Redis (`resume_document`,
`parse_resume_document`) and the creation time a cursor points at
(`cursor_created_at_ms`). A document is read back as the resume point it was
written from (`parse_resumeDocument`).

A resumed poller drops a gap whose cursor time is not later than its lower
end. Listings are created at whole seconds and the lower end belongs to the
gap, so unread listings of that very second go with it; `resumed_keeps` says
that nothing else is lost.
-/

namespace BrandSniper.Dmarket

open Kit Json

variable {F : Type} [PyFloat F]

/-! ## Cursors -/

/-- The base64 digits that the cursor's length is short of. -/
def paddedCursor (cursor : String) : List Char :=
  cursor.toList ++ List.replicate ((4 - cursor.toList.length % 4) % 4) '='

/-- The JSON value a cursor holds. -/
def cursorPosition? (cursor : String) : Option (Json F) :=
  (Base64.decode? (paddedCursor cursor)).bind fun bytes =>
    (String.fromUTF8? ⟨bytes.toArray⟩).bind loads

variable (F) in
def cursorCreatedAtMs (cursor : String) : Option Int :=
  match (cursorPosition? cursor : Option (Json F)) with
  | some (.arr (.int created :: _)) => some created
  | _ => none

variable (F) in
def offersCursor (createdAtMs : Int) (offerId : String) : String :=
  String.ofList (Base64.encode
    (String.ofList (dumps (F := F) (.arr [.int createdAtMs, .str offerId]))).toUTF8.data.toList)

/-- A cursor built from a time points at that time. -/
theorem cursorCreatedAtMs_offersCursor [LawfulPyFloat F] (createdAtMs : Int) (offerId : String) :
    cursorCreatedAtMs F (offersCursor F createdAtMs offerId) = some createdAtMs := by
  have hpadded : ∀ data, paddedCursor (String.ofList (Base64.encode data)) = Base64.encode data := by
    intro data
    rw [paddedCursor, String.toList_ofList, Base64.length_encode]
    exact List.append_nil _
  have hunique : UniqueKeys (F := F) (.arr [.int createdAtMs, .str offerId]) := by
    rw [UniqueKeys]
    simp [UniqueKeysItems, UniqueKeys]
  have hbytes : ∀ s : String, String.fromUTF8? ⟨s.toUTF8.data.toList.toArray⟩ = some s := by
    intro s
    rw [Array.toArray_toList, String.fromUTF8?, String.toUTF8_eq_toByteArray,
      dif_pos s.isValidUTF8]
    rfl
  have hposition : cursorPosition? (offersCursor F createdAtMs offerId)
      = some (.arr [.int createdAtMs, .str offerId] : Json F) := by
    rw [cursorPosition?, offersCursor, hpadded, Base64.decode_encode, Option.bind_some, hbytes,
      Option.bind_some, loads_dumps hunique]
  rw [cursorCreatedAtMs, hposition]

/-! ## The resume document -/

def CatchUpGap.toJson (gap : CatchUpGap) : Json F :=
  .obj [("cursor", .str gap.cursor), ("until_ms", .int gap.untilMs),
    ("skip_ids", .arr ((sortedIds gap.skipIds).map .str))]

/-- What `isinstance(value, int)` lets through. A boolean is an integer. -/
def int? : Json F → Option Int
  | .int z => some z
  | .bool b => some (if b then 1 else 0)
  | _ => none

/-- `str(value)`, given how lists and dictionaries are shown. -/
def pyStr (repr : Json F → String) : Json F → String
  | .str s => s
  | .int z => toString z
  | .bool b => if b then "True" else "False"
  | .null => "None"
  | .float x => String.ofList (PyFloat.repr x)
  | j => repr j

def CatchUpGap.fromJson (repr : Json F → String) : Json F → Option CatchUpGap
  | .obj document =>
      match getField document "cursor", (getField document "until_ms").bind int?,
        (getField document "skip_ids").getD (.arr []) with
      | some (.str cursor), some untilMs, .arr skipIds =>
          some ⟨cursor, untilMs, (skipIds.map (pyStr repr)).toFinset⟩
      | _, _, _ => none
  | _ => none

/-- `json.dumps` of the resume point, for what is left of the recorded listings. -/
def resumeJson (p : ListingPoller) : Json F :=
  .obj [("version", .int 1), ("newest_ms", p.newestMs.elim .null .int),
    ("recorded", .obj (p.recorded.items.map fun kv => (kv.1, .int kv.2))),
    ("gaps", .arr (p.gaps.map CatchUpGap.toJson))]

variable (F) in
def resumeDocument (p : ListingPoller) : String :=
  String.ofList (dumps (resumeJson p.dropOldRecorded : Json F))

/-- `version == RESUME_VERSION`: one is also `1.0` and `True`. -/
def isResumeVersion : Json F → Bool
  | .int z => z = 1
  | .bool b => b
  | .float x => PyFloat.repr x = ['1', '.', '0']
  | _ => false

def parseResumeDocument (repr : Json F → String) (text : Option String) : Option ResumePoint :=
  match text.bind (loads (F := F)) with
  | some (.obj document) =>
      if (getField document "version").any isResumeVersion then
        match (getField document "newest_ms").bind int?,
          (getField document "recorded").getD (.obj []), (getField document "gaps").getD (.arr []) with
        | some newestMs, .obj recorded, .arr gaps =>
            some ⟨newestMs, (keys recorded).toFinset, gaps.filterMap (CatchUpGap.fromJson repr)⟩
        | _, _, _ => none
      else none
  | _ => none

theorem fromJson_toJson (repr : Json F → String) (gap : CatchUpGap) :
    CatchUpGap.fromJson repr gap.toJson = some gap := by
  have hids : ((sortedIds gap.skipIds).map Json.str).map (pyStr repr) = sortedIds gap.skipIds := by
    rw [List.map_map]
    exact List.map_id _
  have hset : (sortedIds gap.skipIds).toFinset = gap.skipIds := by
    ext x
    rw [List.mem_toFinset, mem_sortedIds]
  show some (CatchUpGap.mk gap.cursor gap.untilMs
    (((sortedIds gap.skipIds).map Json.str).map (pyStr repr)).toFinset) = some gap
  rw [hids, hset]

omit [PyFloat F] in
theorem uniqueKeys_resumeJson (p : ListingPoller) : UniqueKeys (resumeJson p : Json F) := by
  have hgap : ∀ gap : CatchUpGap, UniqueKeys (gap.toJson : Json F) := by
    intro gap
    have hids : UniqueKeysItems ((sortedIds gap.skipIds).map (Json.str (F := F))) := by
      rw [uniqueKeysItems_iff]
      intro j hj
      obtain ⟨s, -, rfl⟩ := List.mem_map.mp hj
      rw [UniqueKeys]
      trivial
    simp [CatchUpGap.toJson, UniqueKeys, UniqueKeysFields, UniqueKeysField, keys, hids]
  have hrecorded : UniqueKeys (.obj (p.recorded.items.map fun kv => (kv.1, .int kv.2)) : Json F) := by
    rw [UniqueKeys]
    refine ⟨?_, ?_⟩
    · rw [keys, List.map_map]
      exact p.recorded.nodupKeys
    · rw [uniqueKeysFields_iff]
      intro field hfield
      obtain ⟨kv, -, rfl⟩ := List.mem_map.mp hfield
      rw [UniqueKeys]
      trivial
  have hgaps : UniqueKeysItems (p.gaps.map (CatchUpGap.toJson (F := F))) := by
    rw [uniqueKeysItems_iff]
    intro j hj
    obtain ⟨gap, -, rfl⟩ := List.mem_map.mp hj
    exact hgap gap
  have hnewest : UniqueKeys (p.newestMs.elim .null .int : Json F) := by
    cases p.newestMs with
    | none => rw [Option.elim_none, UniqueKeys]; trivial
    | some newest => rw [Option.elim_some, UniqueKeys]; trivial
  rw [UniqueKeys] at hrecorded
  simp only [resumeJson, UniqueKeys, UniqueKeysFields, UniqueKeysField, hnewest, hgaps, keys,
    List.map_cons, List.map_nil, and_true, true_and]
  exact ⟨by decide, hrecorded⟩

/-- The resume point a poller saves. -/
def savedPoint (p : ListingPoller) (newestMs : Int) : ResumePoint where
  newestMs := newestMs
  recordedIds := p.dropOldRecorded.recorded.keys.toFinset
  gaps := p.gaps

theorem parse_resumeDocument [LawfulPyFloat F] (repr : Json F → String) {p : ListingPoller}
    {newestMs : Int} (h : p.newestMs = some newestMs) :
    parseResumeDocument repr (some (resumeDocument F p)) = some (savedPoint p newestMs) := by
  have hgaps : (p.gaps.map CatchUpGap.toJson).filterMap (CatchUpGap.fromJson repr) = p.gaps := by
    rw [List.filterMap_map]
    have hid : (CatchUpGap.fromJson repr ∘ CatchUpGap.toJson) = some := funext (fromJson_toJson repr)
    rw [hid, List.filterMap_some]
  have hrecorded : keys (p.dropOldRecorded.recorded.items.map fun kv => (kv.1, (.int kv.2 : Json F)))
      = p.dropOldRecorded.recorded.keys := by
    rw [keys, List.map_map]
    rfl
  have hkept : p.dropOldRecorded.newestMs = p.newestMs ∧ p.dropOldRecorded.gaps = p.gaps := by
    unfold ListingPoller.dropOldRecorded
    split <;> exact ⟨rfl, rfl⟩
  have hfields : (getField [("version", (.int 1 : Json F)),
      ("newest_ms", p.dropOldRecorded.newestMs.elim .null .int),
      ("recorded", .obj (p.dropOldRecorded.recorded.items.map fun kv => (kv.1, .int kv.2))),
      ("gaps", .arr (p.dropOldRecorded.gaps.map CatchUpGap.toJson))] "version").any isResumeVersion
        = true := rfl
  rw [parseResumeDocument, Option.bind_some, resumeDocument,
    loads_dumps (uniqueKeys_resumeJson p.dropOldRecorded), resumeJson]
  dsimp only
  rw [if_pos hfields, hkept.1, hkept.2, h]
  show some (ResumePoint.mk newestMs (keys _).toFinset (List.filterMap _ _)) = _
  rw [hrecorded, hgaps]
  rfl

/-! ## The recorded listings -/

/-- The creation time a listing was last noted with. -/
def lastNoted : List DMarketOffer → String → Option Int
  | [], _ => none
  | offer :: rest, listingId =>
      (lastNoted rest listingId).or
        (if offer.offerId = listingId then some offer.createdAtMs else none)

theorem lastNoted_append (a b : List DMarketOffer) (listingId : String) :
    lastNoted (a ++ b) listingId = (lastNoted b listingId).or (lastNoted a listingId) := by
  induction a with
  | nil => rw [List.nil_append, lastNoted, Option.or_none]
  | cons offer rest ih => rw [List.cons_append, lastNoted, ih, lastNoted, Option.or_assoc]

/-- A recorded listing is kept with the time it was last noted with, unless that time is too far
below the newest one. -/
def Remembers (st : PollRun) : Prop :=
  ∀ listingId created, lastNoted st.noted listingId = some created →
    st.poller.recorded.get? listingId = some created ∨
      ∃ newest, st.poller.newestMs = some newest ∧ created < newest - resumeOverlapMs

theorem remembers_start (maxSeen : Nat) : Remembers (.start maxSeen) := by
  intro listingId created h
  cases h

theorem Remembers.note {st : PollRun} (h : Remembers st) (offer : DMarketOffer) :
    Remembers { st with
      poller := st.poller.noteRecorded offer, noted := st.noted ++ [offer] } := by
  intro listingId created hnoted
  rw [lastNoted_append, lastNoted, lastNoted, Option.none_or] at hnoted
  show (st.poller.recorded.set offer.offerId offer.createdAtMs).get? listingId = some created ∨ _
  rw [OrderedDict.get?_set]
  split at hnoted
  · rename_i hsame
    rw [Option.some_or] at hnoted
    rw [if_pos hsame]
    exact .inl hnoted
  · rename_i hother
    rw [Option.none_or] at hnoted
    rw [if_neg hother]
    exact h listingId created hnoted

theorem Remembers.resumed {newestMs : Int} {ids : List String} {st : PollRun} (h : Remembers st) :
    Remembers { st with
      poller := ids.foldl (fun p listingId => (p.remember listingId).record listingId newestMs)
        st.poller
      noted := st.noted ++ ids.map fun listingId => ⟨listingId, newestMs⟩ } := by
  induction ids generalizing st with
  | nil =>
      rw [List.map_nil, List.append_nil]
      exact h
  | cons listingId rest ih =>
      have hone : Remembers { st with
          poller := (st.poller.remember listingId).record listingId newestMs
          noted := st.noted ++ [⟨listingId, newestMs⟩] } := h.note ⟨listingId, newestMs⟩
      have hrest := ih hone
      rw [List.append_assoc] at hrest
      exact hrest

/-- The newest time of a live poll does not fall. -/
theorem newest_readLive {ε : Type} {parseOffer : ε → Option DMarketOffer} {floorMs : Option Int}
    {seen : OrderedDict String Unit} {receivedAtMs : Int} {walk : LiveWalk ε} {entry : ε}
    {newest : Int} (h : ∃ n, walk.newestMs = some n ∧ newest ≤ n) :
    ∃ n, (readLive parseOffer floorMs seen receivedAtMs walk entry).newestMs = some n ∧
      newest ≤ n := by
  obtain ⟨n, hn, hle⟩ := h
  unfold readLive
  split
  · exact ⟨n, hn, hle⟩
  · rename_i offer _
    have hmax : newest ≤ max n offer.createdAtMs := hle.trans (le_max_left _ _)
    dsimp only
    rw [hn]
    split
    · exact ⟨_, rfl, hmax⟩
    · split
      · exact ⟨_, rfl, hmax⟩
      · exact ⟨_, rfl, hmax⟩

theorem newest_foldl_readLive {ε : Type} {parseOffer : ε → Option DMarketOffer}
    {floorMs : Option Int} {seen : OrderedDict String Unit} {receivedAtMs : Int} (entries : List ε)
    {walk : LiveWalk ε} {newest : Int} (h : ∃ n, walk.newestMs = some n ∧ newest ≤ n) :
    ∃ n, (entries.foldl (readLive parseOffer floorMs seen receivedAtMs) walk).newestMs = some n ∧
      newest ≤ n := by
  induction entries generalizing walk with
  | nil => exact h
  | cons entry rest ih => exact ih (newest_readLive h)

theorem newest_livePages {ε : Type} {parseOffer : ε → Option DMarketOffer} {fetch : Fetch ε}
    {floorMs : Option Int} {seen : OrderedDict String Unit} {left : Nat} {cursor : Option String}
    {walk : LiveWalk ε} {result : LiveWalk ε × Option String} {newest : Int}
    (h : ∃ n, walk.newestMs = some n ∧ newest ≤ n)
    (hpages : livePages parseOffer fetch floorMs seen left cursor walk = some result) :
    ∃ n, result.1.newestMs = some n ∧ newest ≤ n := by
  induction left generalizing cursor walk with
  | zero =>
      cases hpages
      exact h
  | succ left ih =>
      obtain ⟨⟨page, receivedAtMs⟩, -, hgoes⟩ := Option.bind_eq_some_iff.mp hpages
      have hpage : ∃ n, (page.entries.foldl (readLive parseOffer floorMs seen receivedAtMs)
          { walk with oldestMs := none }).newestMs = some n ∧ newest ≤ n :=
        newest_foldl_readLive page.entries h
      dsimp only at hgoes
      split at hgoes
      · cases hgoes
        exact hpage
      · exact ih hpage hgoes

theorem Remembers.of_newest {st st' : PollRun} (h : Remembers st) (hnoted : st'.noted = st.noted)
    (hrecorded : st'.poller.recorded = st.poller.recorded)
    (hnewest : ∀ newest, st.poller.newestMs = some newest →
      ∃ n, st'.poller.newestMs = some n ∧ newest ≤ n) : Remembers st' := by
  intro listingId created hlast
  rw [hnoted] at hlast
  rw [hrecorded]
  rcases h listingId created hlast with hget | ⟨newest, hbefore, hold⟩
  · exact .inl hget
  · obtain ⟨n, hn, hle⟩ := hnewest newest hbefore
    exact .inr ⟨n, hn, by omega⟩

theorem Remembers.save {st : PollRun} (h : Remembers st) :
    Remembers { st with poller := st.poller.dropOldRecorded } := by
  intro listingId created hlast
  unfold ListingPoller.dropOldRecorded
  rcases h listingId created hlast with hget | hold
  · cases hnewest : st.poller.newestMs with
    | none => exact .inl hget
    | some newest =>
        dsimp only
        by_cases hnear : newest - resumeOverlapMs ≤ created
        · refine .inl ?_
          rw [OrderedDict.get?_filter, hget, Option.filter_some, if_pos (decide_eq_true hnear)]
        · exact .inr ⟨newest, rfl, by omega⟩
  · obtain ⟨newest, hnewest, hlow⟩ := hold
    rw [hnewest]
    exact .inr ⟨newest, rfl, hlow⟩

theorem Remembers.step {ε : Type} {parseOffer : ε → Option DMarketOffer} {order : SetOrder}
    {position : String → Option Int} {st st' : PollRun} {e : PollEvent ε} (h : Remembers st)
    (hstep : st.step parseOffer order position e = some st') : Remembers st' := by
  cases e with
  | resume point nowMs maxCatchUpMs =>
      rw [PollRun.step] at hstep
      split at hstep
      · cases hstep
      · cases hstep
        have hfloored : Remembers { st with poller := { st.poller with
            nextFloorMs := some (max (point.newestMs - resumeOverlapMs) (nowMs - maxCatchUpMs)) } } :=
          h
        exact hfloored.resumed.of_newest rfl rfl fun newest hnewest => ⟨newest, hnewest, le_refl _⟩
  | live fetch =>
      cases hstep
      rw [livePoll_eq]
      split
      · exact h
      · rename_i walk behind hpages
        refine h.of_newest rfl rfl fun newest hnewest => ?_
        exact newest_livePages ⟨newest, hnewest, le_refl _⟩ hpages
  | catchUp fetch =>
      cases hstep
      cases hcall : catchUpPage parseOffer fetch st.poller with
      | error err p =>
          rw [catchUpPage_of_raise parseOffer hcall]
          exact h
      | ok read p =>
          obtain ⟨-, hnewest, -, hrecorded⟩ := catchUpPage_kept parseOffer hcall
          exact h.of_newest rfl hrecorded fun newest hbefore =>
            ⟨newest, hnewest.trans hbefore, le_refl _⟩
  | note offer =>
      cases hstep
      exact h.note offer
  | save =>
      cases hstep
      exact h.save

/-! ## What a restart keeps -/

theorem started_step {ε : Type} {parseOffer : ε → Option DMarketOffer} {order : SetOrder}
    {position : String → Option Int} {st st' : PollRun} {e : PollEvent ε}
    (h : st.step parseOffer order position e = some st') (hstarted : st.poller.started = true) :
    st'.poller.started = true := by
  cases e with
  | resume point nowMs maxCatchUpMs =>
      rw [PollRun.step, if_pos hstarted] at h
      cases h
  | live fetch =>
      cases h
      rw [livePoll_eq]
      split
      · exact hstarted
      · rename_i walk behind hpages
        show (Option.isSome (walk.newestMs.elim _ _) || walk.newestMs.isSome) = true
        cases hnewest : walk.newestMs with
        | some newest => rfl
        | none =>
            obtain ⟨hbefore, -⟩ := livePages_blank parseOffer hpages hnewest
            rw [ListingPoller.started, show st.poller.newestMs = none from hbefore] at hstarted
            exact hstarted
  | catchUp fetch =>
      cases h
      cases hcall : catchUpPage parseOffer fetch st.poller with
      | error err p =>
          rw [catchUpPage_of_raise parseOffer hcall]
          exact hstarted
      | ok read p =>
          obtain ⟨hfloor, hnewest, -⟩ := catchUpPage_kept parseOffer hcall
          show (p.nextFloorMs.isSome || p.newestMs.isSome) = true
          rw [hfloor, hnewest]
          exact hstarted
  | note offer =>
      cases h
      exact hstarted
  | save =>
      cases h
      rw [← (dropOldRecorded_kept st.poller).2.2.2] at hstarted
      exact hstarted

section
variable {ε : Type} {parseOffer : ε → Option DMarketOffer} {m : Market ε} {order : SetOrder}
  {position : String → Option Int}

/-- A cursor of the market points at a creation time that no listing after it is newer than. -/
def Market.CursorTimes (m : Market ε) (parseOffer : ε → Option DMarketOffer)
    (position : String → Option Int) : Prop :=
  ∀ cursor rest, m.after cursor = some rest → ∃ created, position cursor = some created ∧
    ∀ entry ∈ rest, ∀ offer, parseOffer entry = some offer → offer.createdAtMs ≤ created

/-- An entry of an open gap that the poller still has to read. -/
structure Unread (m : Market ε) (parseOffer : ε → Option DMarketOffer) (st : PollRun)
    (gap : CatchUpGap) (rest : List ε) (entry : ε) (offer : DMarketOffer) : Prop where
  isOpen : gap ∈ st.poller.gaps
  after : m.after gap.cursor = some rest
  mem : entry ∈ rest
  parses : parseOffer entry = some offer
  unread : offer.offerId ∉ st.returned
  inGap : gap.untilMs ≤ offer.createdAtMs

/-- What the restarted poller owes the one that saved the resume point. -/
structure Resumes (m : Market ε) (parseOffer : ε → Option DMarketOffer) (order : SetOrder)
    (position : String → Option Int) (st : PollRun) (newestMs nowMs maxCatchUpMs : Int)
    (point : ResumePoint) (fresh : ListingPoller) : Prop where
  /-- Each unread listing not too old is in a gap, or at or above the floor. -/
  keeps : ∀ gap rest entry offer, Unread m parseOffer st gap rest entry offer →
    nowMs - maxCatchUpMs ≤ offer.createdAtMs →
    (∃ gap' ∈ fresh.gaps, m.after gap'.cursor = some rest ∧ gap'.untilMs ≤ offer.createdAtMs) ∨
      ∃ floor, fresh.nextFloorMs = some floor ∧ floor ≤ offer.createdAtMs
  /-- No listing recorded near the newest time, and not later with an older time, is returned. -/
  skips : ∀ before offer later, st.noted = before ++ offer :: later →
    (∀ o ∈ offer :: later, o.offerId = offer.offerId → newestMs - resumeOverlapMs ≤ o.createdAtMs) →
    ∀ (es : List (PollEvent ε)) (st' : PollRun),
      runFrom (PollRun.step parseOffer order position) ⟨fresh, [], []⟩ es = some st' →
      (point.recordedIds ∪ st'.returned.toFinset).card ≤ fresh.maxSeen →
      offer.offerId ∉ st'.returned

/-- No unread listing below the new floor was created at the lower end of its gap when the cursor
of the gap has come to that time. -/
def NoTie (m : Market ε) (parseOffer : ε → Option DMarketOffer) (position : String → Option Int)
    (st : PollRun) (newestMs nowMs maxCatchUpMs : Int) : Prop :=
  ∀ gap rest entry offer, Unread m parseOffer st gap rest entry offer →
    offer.createdAtMs < max (newestMs - resumeOverlapMs) (nowMs - maxCatchUpMs) →
    position gap.cursor = some offer.createdAtMs →
    offer.createdAtMs ≠ max gap.untilMs (nowMs - maxCatchUpMs)

theorem untilMs_clipGap (oldestAllowedMs : Int) (gap : CatchUpGap) :
    (ListingPoller.clipGap oldestAllowedMs gap).untilMs = max gap.untilMs oldestAllowedMs := by
  unfold ListingPoller.clipGap
  split
  · rename_i hlow
    exact (max_eq_right hlow.le).symm
  · rename_i hhigh
    exact (max_eq_left (not_lt.mp hhigh)).symm

theorem cursor_clipGap (oldestAllowedMs : Int) (gap : CatchUpGap) :
    (ListingPoller.clipGap oldestAllowedMs gap).cursor = gap.cursor := by
  unfold ListingPoller.clipGap
  split <;> rfl

/-- A gap whose cursor is above its lower end is resumed. -/
theorem clipGap_mem_resumeFrom {point : ResumePoint} {nowMs maxCatchUpMs : Int} {p : ListingPoller}
    {gap : CatchUpGap} (hgap : gap ∈ point.gaps) {created : Int}
    (hposition : position gap.cursor = some created)
    (hopen : max gap.untilMs (nowMs - maxCatchUpMs) < created) :
    ListingPoller.clipGap (nowMs - maxCatchUpMs) gap
      ∈ (p.resumeFrom order position point nowMs maxCatchUpMs).gaps := by
  refine List.mem_append_right _ (List.mem_filter.mpr ⟨List.mem_map.mpr ⟨gap, hgap, rfl⟩, ?_⟩)
  rw [decide_eq_true_eq, CatchUpGap.remainingMs, cursor_clipGap, hposition, untilMs_clipGap]
  exact lt_max_of_lt_right (Int.sub_pos_of_lt hopen)

theorem keeps_of_noTie (htimes : m.CursorTimes parseOffer position) {st : PollRun}
    {newestMs nowMs maxCatchUpMs : Int}
    (hok : NoTie m parseOffer position st newestMs nowMs maxCatchUpMs) {p : ListingPoller}
    {gap : CatchUpGap} {rest : List ε} {entry : ε} {offer : DMarketOffer}
    (h : Unread m parseOffer st gap rest entry offer)
    (hage : nowMs - maxCatchUpMs ≤ offer.createdAtMs) :
    let fresh := p.resumeFrom order position (savedPoint st.poller newestMs) nowMs maxCatchUpMs
    (∃ gap' ∈ fresh.gaps, m.after gap'.cursor = some rest ∧ gap'.untilMs ≤ offer.createdAtMs) ∨
      ∃ floor, fresh.nextFloorMs = some floor ∧ floor ≤ offer.createdAtMs := by
  intro fresh
  obtain ⟨created, hposition, hnewest⟩ := htimes gap.cursor rest h.after
  have hcreated := hnewest entry h.mem offer h.parses
  have huntil : max gap.untilMs (nowMs - maxCatchUpMs) ≤ offer.createdAtMs := max_le h.inGap hage
  by_cases hfloor : offer.createdAtMs < max (newestMs - resumeOverlapMs) (nowMs - maxCatchUpMs)
  · left
    have hopen : max gap.untilMs (nowMs - maxCatchUpMs) < created := by
      rcases lt_or_eq_of_le (huntil.trans hcreated) with hlt | heq
      · exact hlt
      · -- the cursor, the lower end and the listing are all at one time
        have hsame : created = offer.createdAtMs := le_antisymm (heq ▸ huntil) hcreated
        exact absurd (le_antisymm (by omega) huntil)
          (hok gap rest entry offer h hfloor (hsame ▸ hposition))
    refine ⟨_, clipGap_mem_resumeFrom h.isOpen hposition hopen, ?_, ?_⟩
    · rw [cursor_clipGap]
      exact h.after
    · rw [untilMs_clipGap]
      exact huntil
  · right
    exact ⟨_, nextFloorMs_resumeFrom _ _ _ _ _ _, not_lt.mp hfloor⟩

/-- A listing last noted near the newest time is in the resume point. -/
theorem mem_recordedIds_of_remembers {st : PollRun} (h : Remembers st) {newestMs : Int}
    (hnewest : st.poller.newestMs = some newestMs) {listingId : String} {created : Int}
    (hlast : lastNoted st.noted listingId = some created)
    (hnear : newestMs - resumeOverlapMs ≤ created) :
    listingId ∈ (savedPoint st.poller newestMs).recordedIds := by
  rcases h.save listingId created hlast with hget | ⟨newest, hsame, hold⟩
  · have hkey : listingId ∈ st.poller.dropOldRecorded.recorded.keys := by
      refine OrderedDict.contains_iff_mem.mp ?_
      rw [OrderedDict.contains, hget]
      rfl
    exact List.mem_toFinset.mpr hkey
  · have hkept : st.poller.dropOldRecorded.newestMs = st.poller.newestMs := by
      unfold ListingPoller.dropOldRecorded
      split <;> rfl
    rw [hkept, hnewest] at hsame
    obtain rfl := Option.some.inj hsame
    omega

theorem lastNoted_near (before : List DMarketOffer) {later : List DMarketOffer}
    {offer : DMarketOffer} {bound : Int}
    (h : ∀ o ∈ offer :: later, o.offerId = offer.offerId → bound ≤ o.createdAtMs) :
    ∃ created, lastNoted (before ++ offer :: later) offer.offerId = some created ∧
      bound ≤ created := by
  have hlater : ∀ l : List DMarketOffer,
      (∀ o ∈ l, o.offerId = offer.offerId → bound ≤ o.createdAtMs) →
      ∀ created, lastNoted l offer.offerId = some created → bound ≤ created := by
    intro l
    induction l with
    | nil =>
        intro _ created hnone
        cases hnone
    | cons o rest ih =>
        intro hall created hlast
        rw [lastNoted] at hlast
        cases hrest : lastNoted rest offer.offerId with
        | some c =>
            rw [hrest, Option.some_or] at hlast
            obtain rfl := Option.some.inj hlast
            exact ih (fun o ho => hall o (List.mem_cons_of_mem _ ho)) c hrest
        | none =>
            rw [hrest, Option.none_or] at hlast
            split at hlast
            · rename_i hid
              obtain rfl := Option.some.inj hlast
              exact hall o List.mem_cons_self hid
            · cases hlast
  have hsome : ∃ created, lastNoted (offer :: later) offer.offerId = some created := by
    rw [lastNoted, if_pos rfl]
    cases lastNoted later offer.offerId with
    | none => exact ⟨_, rfl⟩
    | some c => exact ⟨_, rfl⟩
  obtain ⟨created, hcreated⟩ := hsome
  refine ⟨created, ?_, hlater _ h created hcreated⟩
  rw [lastNoted_append, hcreated, Option.some_or]

theorem foldl_resume_keeps {newestMs : Int} {ids : List String} {p : ListingPoller}
    {returned : List String} (h : Keeps p returned) (hnodup : ids.Nodup)
    (hnew : ∀ x ∈ ids, p.seen.contains x = false) :
    Keeps (ids.foldl (fun p listingId => (p.remember listingId).record listingId newestMs) p)
      (returned ++ ids) := by
  have hseen : ∀ (l : List String) (a b : ListingPoller), a.seen = b.seen → a.maxSeen = b.maxSeen →
      (l.foldl (fun p listingId => (p.remember listingId).record listingId newestMs) a).seen
        = (l.foldl ListingPoller.remember b).seen := by
    intro l
    induction l with
    | nil => exact fun _ _ h _ => h
    | cons listingId rest ih =>
        intro a b hs hm
        refine ih _ _ ?_ hm
        show (a.remember listingId).seen = (b.remember listingId).seen
        rw [ListingPoller.remember, ListingPoller.remember, hs, hm]
  refine (h.foldl_remember hnodup hnew).congr (hseen ids p p rfl rfl) ?_
  rw [foldl_remember]
  exact (foldl_resume newestMs ids p).2.1

/-- The restarted poller returns no listing of its resume point. -/
theorem not_mem_returned_of_resumed {point : ResumePoint} {nowMs maxCatchUpMs : Int} {maxSeen : Nat}
    {es : List (PollEvent ε)} {st : PollRun}
    (hrun : runFrom (PollRun.step parseOffer order position)
      ⟨(ListingPoller.new maxSeen).resumeFrom order position point nowMs maxCatchUpMs, [], []⟩ es
        = some st)
    (hcard : (point.recordedIds ∪ st.returned.toFinset).card ≤ maxSeen) {listingId : String}
    (hrecorded : listingId ∈ point.recordedIds) : listingId ∉ st.returned := by
  have hfresh : Keeps ((ListingPoller.new maxSeen).resumeFrom order position point nowMs maxCatchUpMs)
      (order.iter point.recordedIds ++ []) := by
    rw [List.append_nil]
    exact (@foldl_resume_keeps _ _ _ [] (keeps_nil _) (order.nodup _) fun _ _ => rfl).congr rfl rfl
  have hkeeps := runFrom_inv
    (fun st : PollRun => Keeps st.poller (order.iter point.recordedIds ++ st.returned) ∧
      st.poller.maxSeen = maxSeen ∧ st.poller.started = true)
    (fun st e st' h hstep => ?_)
    ⟨hfresh, maxSeen_resumeFrom order position point nowMs maxCatchUpMs _, by
      rw [ListingPoller.started, nextFloorMs_resumeFrom]
      rfl⟩ hrun
  · have hids : (order.iter point.recordedIds ++ st.returned).toFinset
        = point.recordedIds ∪ st.returned.toFinset := by
      ext x
      rw [List.toFinset_append, Finset.mem_union, Finset.mem_union, List.mem_toFinset,
        order.mem_iter]
    have hnodup := hkeeps.1.nodup (by rw [hids, hkeeps.2.1]; exact hcard)
    intro hmem
    exact (List.nodup_append.mp hnodup).2.2 listingId ((order.mem_iter _ _).mpr hrecorded) listingId
      hmem rfl
  · obtain ⟨hkeep, hmax, hstarted⟩ := h
    refine ⟨?_, (maxSeen_step parseOffer hstep).trans hmax, started_step hstep hstarted⟩
    cases e with
    | resume point nowMs maxCatchUpMs =>
        rw [PollRun.step, if_pos hstarted] at hstep
        cases hstep
    | live fetch =>
        cases hstep
        cases hcall : livePoll parseOffer order fetch st.poller with
        | error err p =>
            rw [livePoll_of_raise parseOffer hcall]
            exact hkeep
        | ok read p =>
            have hnext := livePoll_keeps parseOffer hkeep hcall
            rwa [List.append_assoc] at hnext
    | catchUp fetch =>
        cases hstep
        cases hcall : catchUpPage parseOffer fetch st.poller with
        | error err p =>
            rw [catchUpPage_of_raise parseOffer hcall]
            exact hkeep
        | ok read p =>
            have hnext := catchUpPage_keeps parseOffer hkeep hcall
            rwa [List.append_assoc] at hnext
    | note offer =>
        cases hstep
        exact hkeep.congr rfl rfl
    | save =>
        cases hstep
        obtain ⟨hseen, hmax', -, -⟩ := dropOldRecorded_kept st.poller
        exact hkeep.congr hseen hmax'

/-- A run against the market is a run of the poller. -/
theorem run_step {st st' : MarketRun} {e : MarketEvent ε}
    (h : st.step m parseOffer order position e = some st') :
    st'.run = st.run ∨
      ∃ pollEvent, st.run.step parseOffer order position pollEvent = some st'.run := by
  cases e with
  | arrive count =>
      cases h
      exact .inl rfl
  | resume point nowMs maxCatchUpMs =>
      obtain ⟨run, hrun, rfl⟩ := Option.map_eq_some_iff.mp h
      exact .inr ⟨_, hrun⟩
  | live visits =>
      cases h
      exact .inr ⟨.live (m.fetch st.hidden visits), rfl⟩
  | catchUp visits =>
      cases h
      exact .inr ⟨.catchUp (m.fetch st.hidden visits), rfl⟩
  | note offer =>
      cases h
      exact .inr ⟨.note offer, rfl⟩
  | save =>
      cases h
      exact .inr ⟨.save, rfl⟩

theorem remembers_of_run {hidden maxSeen : Nat} {es : List (MarketEvent ε)} {st : MarketRun}
    (hrun : runFrom (MarketRun.step m parseOffer order position) (.start hidden maxSeen) es
      = some st) : Remembers st.run := by
  refine runFrom_inv (fun st : MarketRun => Remembers st.run) (fun st e st' h hstep => ?_)
    (remembers_start maxSeen) hrun
  rcases run_step hstep with hsame | ⟨pollEvent, hpoll⟩
  · rw [hsame]
    exact h
  · exact h.step hpoll

/-- A restart loses no unread listing and repeats no recorded one, whatever the poller had done,
unless the cursor of an open gap has come to the gap's lower end with listings of that time
unread. -/
theorem resumes_of_run [LawfulPyFloat F] (repr : Json F → String)
    (htimes : m.CursorTimes parseOffer (cursorCreatedAtMs F)) {hidden maxSeen : Nat}
    {es : List (MarketEvent ε)} {st : MarketRun}
    (hrun : runFrom (MarketRun.step m parseOffer order (cursorCreatedAtMs F))
      (.start hidden maxSeen) es = some st)
    {newestMs nowMs maxCatchUpMs : Int} (hnewest : st.run.poller.newestMs = some newestMs)
    (hok : NoTie m parseOffer (cursorCreatedAtMs F) st.run newestMs nowMs maxCatchUpMs)
    (maxSeen' : Nat) : ∃ point,
      parseResumeDocument repr (some (resumeDocument F st.run.poller)) = some point ∧
      Resumes m parseOffer order (cursorCreatedAtMs F) st.run newestMs nowMs maxCatchUpMs point
        ((ListingPoller.new maxSeen').resumeFrom order (cursorCreatedAtMs F) point nowMs
          maxCatchUpMs) := by
  refine ⟨savedPoint st.run.poller newestMs, parse_resumeDocument repr hnewest, ?_, ?_⟩
  · intro gap rest entry offer hunread hage
    exact keeps_of_noTie htimes hok hunread hage
  · intro before offer later hnoted hnear es' st' hrun' hcard
    obtain ⟨created, hlast, hbound⟩ := lastNoted_near before hnear
    rw [← hnoted] at hlast
    have hmem := mem_recordedIds_of_remembers (remembers_of_run hrun) hnewest hlast hbound
    rw [maxSeen_resumeFrom] at hcard
    exact not_mem_returned_of_resumed hrun' hcard hmem

end

/-- Nine listings come after a, of which the first poll reads the page; b and c are below it, five
seconds older. -/
def tiedMarket : Market DMarketOffer where
  history := (List.range 9).map (fun i => ⟨toString i, 300000⟩)
    ++ [⟨"a", 100000⟩, ⟨"b", 95000⟩, ⟨"c", 95000⟩]
  cursor := fun offer => offersCursor FloatText offer.createdAtMs offer.offerId

def request (arrived : Nat) : Visit DMarketOffer := ⟨arrived, some 0, 0, ⟨[], none⟩⟩

/-- The second poll falls behind at a; catching up reads b, and c stays in the gap. -/
def fallBehindRun : List (MarketEvent DMarketOffer) :=
  [.live [request 0], .live (request 9 :: List.replicate 9 (request 0))]

theorem lawful_tiedMarket : tiedMarket.Lawful some where
  sorted := by
    have hsorted : tiedMarket.history.Pairwise fun a b => b.createdAtMs ≤ a.createdAtMs := by decide
    refine hsorted.imp fun hab offer older ha hb => ?_
    obtain rfl := Option.some.inj ha
    obtain rfl := Option.some.inj hb
    exact hab
  cursors := by decide +kernel

theorem cursorTimes_tiedMarket : tiedMarket.CursorTimes some (cursorCreatedAtMs FloatText) := by
  intro cursor rest hafter
  obtain ⟨before, offer, hhistory, rfl⟩ := tiedMarket.after_eq_some hafter
  refine ⟨offer.createdAtMs, cursorCreatedAtMs_offersCursor _ _, fun older holder o ho => ?_⟩
  have hsorted := lawful_tiedMarket.sorted
  rw [hhistory] at hsorted
  exact (List.pairwise_cons.mp (List.pairwise_append.mp hsorted).2.1).1 older holder offer o rfl ho

/-- The gap of that run once its first page was read is not resumed, and c is below the floor. -/
theorem not_resumes_tiedGap : tiedMarket.Lawful some ∧
    tiedMarket.CursorTimes some (cursorCreatedAtMs FloatText) ∧ ∃ st point,
      runFrom (MarketRun.step tiedMarket some .sorted (cursorCreatedAtMs FloatText))
        (.start 9 200000) (fallBehindRun ++ [.catchUp [request 0]]) = some st ∧
      st.run.poller.newestMs = some 300000 ∧
      parseResumeDocument (F := FloatText) (fun _ => "") (some (resumeDocument FloatText st.run.poller))
        = some point ∧
      ¬ Resumes tiedMarket some .sorted (cursorCreatedAtMs FloatText) st.run 300000 310000 1000000
        point ((ListingPoller.new 200000).resumeFrom .sorted (cursorCreatedAtMs FloatText) point
          310000 1000000) := by
  refine ⟨lawful_tiedMarket, cursorTimes_tiedMarket, ?_⟩
  have hrun : ((runFrom (MarketRun.step tiedMarket some .sorted (cursorCreatedAtMs FloatText))
      (.start 9 200000) (fallBehindRun ++ [.catchUp [request 0]])).any fun st =>
        decide (st.run.poller.newestMs = some 300000 ∧ "c" ∉ st.run.returned ∧
          st.run.poller.gaps = [⟨offersCursor FloatText 95000 "b", 95000, ∅⟩])) = true := by
    decide +kernel
  obtain ⟨st, hst, hfields⟩ := (Option.any_eq_true _ _).mp hrun
  obtain ⟨hnewest, hreturned, hgaps⟩ := of_decide_eq_true hfields
  refine ⟨st, savedPoint st.run.poller 300000, hst, hnewest, parse_resumeDocument _ hnewest,
    fun hresumes => ?_⟩
  have hunread : Unread tiedMarket some st.run ⟨offersCursor FloatText 95000 "b", 95000, ∅⟩
      [⟨"c", 95000⟩] ⟨"c", 95000⟩ ⟨"c", 95000⟩ :=
    { isOpen := by rw [hgaps]; exact List.mem_singleton_self _
      after := by decide +kernel
      mem := List.mem_singleton_self _
      parses := rfl
      unread := hreturned
      inGap := le_refl _ }
  have hclosed : ((ListingPoller.new 200000).resumeFrom .sorted (cursorCreatedAtMs FloatText)
      (savedPoint st.run.poller 300000) 310000 1000000).gaps = [] := by
    have hkept := (foldl_resume 300000
      (SetOrder.sorted.iter (savedPoint st.run.poller 300000).recordedIds)
      { ListingPoller.new 200000 with nextFloorMs := some 180000 }).2.2.1
    have hpoint : (savedPoint st.run.poller 300000).gaps
        = [⟨offersCursor FloatText 95000 "b", 95000, ∅⟩] := hgaps
    unfold ListingPoller.resumeFrom
    rw [hpoint]
    refine List.append_eq_nil_iff.mpr ⟨hkept, ?_⟩
    rw [List.map_singleton, ListingPoller.clipGap, if_neg (by decide), List.filter_singleton,
      CatchUpGap.remainingMs, cursorCreatedAtMs_offersCursor]
    rfl
  rcases hresumes.keeps _ _ _ _ hunread (by decide) with ⟨gap, hgap, -⟩ | ⟨floor, hfloor, hle⟩
  · rw [hclosed] at hgap
    cases hgap
  · rw [nextFloorMs_resumeFrom] at hfloor
    obtain rfl := Option.some.inj hfloor
    have hbelow : ¬ max (300000 - resumeOverlapMs) (310000 - 1000000) ≤ (95000 : Int) := by decide
    exact hbelow hle

/-- Before that page was read, a restart keeps the gap. -/
theorem resumes_of_run_fallBehind : ∃ st point,
    runFrom (MarketRun.step tiedMarket some .sorted (cursorCreatedAtMs FloatText))
      (.start 9 200000) fallBehindRun = some st ∧
    parseResumeDocument (F := FloatText) (fun _ => "") (some (resumeDocument FloatText st.run.poller))
      = some point ∧
    Resumes tiedMarket some .sorted (cursorCreatedAtMs FloatText) st.run 300000 310000 1000000 point
      ((ListingPoller.new 200000).resumeFrom .sorted (cursorCreatedAtMs FloatText) point 310000
        1000000) := by
  have hrun : ((runFrom (MarketRun.step tiedMarket some .sorted (cursorCreatedAtMs FloatText))
      (.start 9 200000) fallBehindRun).any fun st =>
        decide (st.run.poller.newestMs = some 300000 ∧
          st.run.poller.gaps = [⟨offersCursor FloatText 100000 "a", 95000, ∅⟩])) = true := by
    decide +kernel
  obtain ⟨st, hst, hfields⟩ := (Option.any_eq_true _ _).mp hrun
  obtain ⟨hnewest, hgaps⟩ := of_decide_eq_true hfields
  have hok : NoTie tiedMarket some (cursorCreatedAtMs FloatText) st.run 300000 310000 1000000 := by
    intro gap rest entry offer hunread _ hposition heq
    have hgap := hunread.isOpen
    rw [hgaps] at hgap
    obtain rfl := List.mem_singleton.mp hgap
    rw [cursorCreatedAtMs_offersCursor] at hposition
    rw [← Option.some.inj hposition] at heq
    exact absurd heq (by decide)
  obtain ⟨point, hpoint, hresumes⟩ :=
    resumes_of_run (fun _ => "") cursorTimes_tiedMarket hst hnewest hok 200000
  exact ⟨st, point, hst, hpoint, hresumes⟩

end BrandSniper.Dmarket
