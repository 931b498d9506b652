import BrandSniper.Listener.BatchDelivery

/-!
# The invariant of batch delivery

It links the three places a batch can be. Every text in a stream is
that of a batch an ID was drawn for, every request of the backend carries the
payload of one (`Sound`), and a task knows of the ID of an entry what the entry
says (`Tracks`), as long as it is there: no ID is given out twice. So an entry
that a task deletes is one whose batch it has seen committed, or has added to
another stream in the same transaction, and two requests of one batch ID have
one payload, so the backend never refuses one as a conflict.

`Grows` is what every step gives; each fact about a task holds on under it.
-/

namespace BrandSniper.BatchPath

open Kit Json Batch Bulk Delivery StreamAdoption

variable {F : Type}

/-! ## What is promised -/

def HasText (text : String) (e : Entry) : Prop := valueOf e.2 "payload" = some (.text text)

theorem HasText.unique {text text' : String} {e : Entry} (h : HasText text e) (h' : HasText text' e) :
    text = text' := by
  unfold HasText at h h'
  rw [h] at h'
  cases h'
  rfl

section
variable [PyFloat F] (S : Setting F)

/-- The keys of the venue's three streams. -/
def Setting.keys : List String := [S.store.pendingKey, S.store.deadLetterKey, S.store.malformedKey]

def InStreams (d : Durable F) (text : String) : Prop :=
  ∃ key ∈ S.keys, ∃ e ∈ d.streams.entriesAt key, HasText text e

/-- A request has stored the rows of the body's payload. -/
def Committed (d : Durable F) (body : List (String × Json F)) : Prop :=
  ∃ payload batchId r, validate S.types body = some payload ∧ payload.batchId = some batchId ∧
    d.backend.Wrote r payload batchId

def Kept (d : Durable F) (text : String) : Prop :=
  InStreams S d text ∨ ∃ body, loads text = some (.obj body) ∧ Committed S d body

/-- From one state of a run to a later one. -/
structure DeliversOnce (s s' : BatchSystem F) : Prop where
  kept : ∀ text, InStreams S s.durable text → Kept S s'.durable text
  /-- A request stores all rows of its payload, or none. -/
  together : ∀ r payload phase, s'.durable.backend.requests r = some ⟨payload, phase⟩ →
    s'.durable.backend.rows.stored r = [] ∨
      FullRows S.sha256 payload (s'.durable.backend.rows.stored r)
  once : ∀ r r' payload payload' batchId, s'.durable.backend.Wrote r payload batchId →
    s'.durable.backend.Wrote r' payload' batchId → r = r'
  noConflict : ∀ r payload, s'.durable.backend.requests r ≠ some ⟨payload, .answered .conflict⟩

/-! ## The invariant -/

structure Sound (d : Durable F) : Prop where
  ids : d.issued.map StoredBatch.batchId = (List.range d.issued.length).map S.uuid
  dicts : ∀ b ∈ d.issued, UniqueKeys (.obj b.payload)
  entries : ∀ key, ∀ e ∈ d.streams.entriesAt key, ∃ b ∈ d.issued, HasText (batchText b) e
  requests : ∀ r payload phase, d.backend.requests r = some ⟨payload, phase⟩ →
    ∃ b ∈ d.issued, validate S.types b.payload = some payload
  backend : d.backend.Inv S.sha256

/-- An entry with the ID says the text, if it is still there. -/
structure Tracks (d : Durable F) (key : String) (id : Nat) (text : String) : Prop where
  past : id ≤ d.streams.lastIdAt key
  text : ∀ e ∈ d.streams.entriesAt key, e.1 = id → HasText text e

/-- The batch is one that an ID was drawn for; the IDs of its entries may differ. -/
def Issued (d : Durable F) (batch : StoredBatch F) : Prop :=
  ∃ b ∈ d.issued, b.payload = batch.payload

def SendingOk (d : Durable F) (batch : StoredBatch F) : Sending → Prop
  | .awaiting _ r => ∃ payload phase, d.backend.requests r = some ⟨payload, phase⟩ ∧
      validate S.types batch.payload = some payload
  | .sent => Committed S d batch.payload
  | _ => True

/-- What is left of the page. -/
def ReaderOk (d : Durable F) (key : String) (reader : Reader) : Prop :=
  ∀ e ∈ reader.rest, ∃ b ∈ d.issued, HasText (batchText b) e ∧ Tracks d key e.1 (batchText b)

/-- The batch a reader has yielded. -/
structure Given (d : Durable F) (key : String) (reader : Reader) (batch : StoredBatch F) : Prop where
  issued : Issued d batch
  tracks : ∀ id page rest, reader = .suspended id page rest → Tracks d key id (batchText batch)

def TaskOk (d : Durable F) : Task F → Prop
  | .recovery reader given => ReaderOk d S.store.pendingKey reader ∧
      ∀ batch, given = some batch → Given d S.store.pendingKey reader batch
  | .consumer buffers => ∀ batchId, buffers.batchId = some batchId →
      buffers.batch S.venue batchId ∈ d.issued ∧ buffers.closing = true
  | .delivery recordId batch sending => Issued d batch ∧
      Tracks d S.store.pendingKey recordId (batchText batch) ∧ SendingOk S d batch sending
  | .replay _ reader given => ReaderOk d S.store.deadLetterKey reader ∧
      ∀ batch sending, given = some (batch, sending) →
        Given d S.store.deadLetterKey reader batch ∧ SendingOk S d batch sending

structure Inv (s : BatchSystem F) : Prop where
  sound : Sound S s.durable
  tasks : ∀ task t, s.tasks task = some t → TaskOk S s.durable t

/-! ## What every step gives -/

/-- A later state of what outlives the processes. -/
structure Grows (d d' : Durable F) : Prop where
  streams : StreamStore.Extends d.streams d'.streams
  issued : d.issued <+: d'.issued
  requests : ∀ r payload phase, d.backend.requests r = some ⟨payload, phase⟩ →
    ∃ phase', d'.backend.requests r = some ⟨payload, phase'⟩
  wrote : ∀ r payload batchId, d.backend.Wrote r payload batchId →
    d'.backend.Wrote r payload batchId

structure Keeps (d d' : Durable F) : Prop where
  sound : Sound S d'
  grows : Grows d d'
  kept : ∀ text, Kept S d text → Kept S d' text

end

section
variable [PyFloat F] {S : Setting F} {d d' d'' : Durable F}

omit [PyFloat F] in
theorem Grows.refl (d : Durable F) : Grows d d where
  streams := .refl _
  issued := List.prefix_refl _
  requests := fun _ _ phase hr => ⟨phase, hr⟩
  wrote := fun _ _ _ h => h

omit [PyFloat F] in
theorem Grows.trans (h : Grows d d') (h' : Grows d' d'') : Grows d d'' where
  streams := h.streams.trans h'.streams
  issued := h.issued.trans h'.issued
  requests := by
    intro r payload phase hr
    obtain ⟨phase', hr'⟩ := h.requests r payload phase hr
    exact h'.requests r payload phase' hr'
  wrote := fun r payload batchId hw => h'.wrote r payload batchId (h.wrote r payload batchId hw)

theorem Keeps.refl (h : Sound S d) : Keeps S d d := ⟨h, .refl d, fun _ h => h⟩

theorem Keeps.trans (h : Keeps S d d') (h' : Keeps S d' d'') : Keeps S d d'' :=
  ⟨h'.sound, h.grows.trans h'.grows, fun text hkept => h'.kept text (h.kept text hkept)⟩

omit [PyFloat F] in
theorem Tracks.mono {key : String} {id : Nat} {text : String} (h : Tracks d key id text)
    (hgrows : Grows d d') : Tracks d' key id text where
  past := h.past.trans (hgrows.streams.lastIdAt_le key)
  text := by
    intro e he hid
    exact h.text e (hgrows.streams.old key e he (hid ▸ h.past)) hid

omit [PyFloat F] in
theorem Issued.mono {batch : StoredBatch F} (h : Issued d batch) (hgrows : Grows d d') :
    Issued d' batch := by
  obtain ⟨b, hb, heq⟩ := h
  exact ⟨b, hgrows.issued.subset hb, heq⟩

omit [PyFloat F] in
theorem Committed.mono {body : List (String × Json F)} (h : Committed S d body)
    (hgrows : Grows d d') : Committed S d' body := by
  obtain ⟨payload, batchId, r, hread, hid, hwrote⟩ := h
  exact ⟨payload, batchId, r, hread, hid, hgrows.wrote r payload batchId hwrote⟩

omit [PyFloat F] in
theorem SendingOk.mono {batch : StoredBatch F} {sending : Sending} (h : SendingOk S d batch sending)
    (hgrows : Grows d d') : SendingOk S d' batch sending := by
  cases sending with
  | attempt n => trivial
  | awaiting n r =>
      obtain ⟨payload, phase, hr, hread⟩ := h
      obtain ⟨phase', hr'⟩ := hgrows.requests r payload phase hr
      exact ⟨payload, phase', hr', hread⟩
  | sent => exact Committed.mono h hgrows
  | failed error => trivial

theorem ReaderOk.mono {key : String} {reader : Reader} (h : ReaderOk d key reader)
    (hgrows : Grows d d') : ReaderOk d' key reader := by
  intro e he
  obtain ⟨b, hb, htext, htracks⟩ := h e he
  exact ⟨b, hgrows.issued.subset hb, htext, htracks.mono hgrows⟩

theorem Given.mono {key : String} {reader : Reader} {batch : StoredBatch F}
    (h : Given d key reader batch) (hgrows : Grows d d') : Given d' key reader batch where
  issued := h.issued.mono hgrows
  tracks := fun id page rest hreader => (h.tracks id page rest hreader).mono hgrows

theorem TaskOk.mono {t : Task F} (h : TaskOk S d t) (hgrows : Grows d d') : TaskOk S d' t := by
  cases t with
  | recovery reader given =>
      exact ⟨h.1.mono hgrows, fun batch hgiven => (h.2 batch hgiven).mono hgrows⟩
  | consumer buffers =>
      intro batchId hid
      exact ⟨hgrows.issued.subset (h batchId hid).1, (h batchId hid).2⟩
  | delivery recordId batch sending =>
      exact ⟨h.1.mono hgrows, h.2.1.mono hgrows, h.2.2.mono hgrows⟩
  | replay left reader given =>
      refine ⟨h.1.mono hgrows, ?_⟩
      intro batch sending hgiven
      exact ⟨(h.2 batch sending hgiven).1.mono hgrows, (h.2 batch sending hgiven).2.mono hgrows⟩

/-- An entry that goes has to be kept elsewhere. -/
theorem Kept.step {text : String} (h : Kept S d text) (hgrows : Grows d d')
    (hstay : ∀ key, ∀ e ∈ d.streams.entriesAt key,
      e ∈ d'.streams.entriesAt key ∨ ∃ gone, HasText gone e ∧ Kept S d' gone) : Kept S d' text := by
  rcases h with ⟨key, hkey, e, he, htext⟩ | ⟨body, hread, hcommitted⟩
  · rcases hstay key e he with hthere | ⟨gone, hgone, hkept⟩
    · exact Or.inl ⟨key, hkey, e, hthere, htext⟩
    · rwa [htext.unique hgone]
  · exact Or.inr ⟨body, hread, hcommitted.mono hgrows⟩

/-! ## IDs -/

theorem Sound.eq_of_batchId (h : Sound S d) {b b' : StoredBatch F} (hb : b ∈ d.issued)
    (hb' : b' ∈ d.issued) (hid : b.batchId = b'.batchId) : b = b' := by
  have hnodup : (d.issued.map StoredBatch.batchId).Nodup := by
    rw [h.ids]
    exact List.nodup_range.map S.uuid_injective
  exact List.inj_on_of_nodup_map hnodup hb hb' hid

theorem Sound.uuid_of_mem (h : Sound S d) {b : StoredBatch F} (hb : b ∈ d.issued) :
    ∃ n, b.batchId = S.uuid n := by
  have hmem : b.batchId ∈ (List.range d.issued.length).map S.uuid := by
    rw [← h.ids]
    exact List.mem_map_of_mem hb
  obtain ⟨n, -, hn⟩ := List.mem_map.mp hmem
  exact ⟨n, hn.symm⟩

omit [PyFloat F] in
theorem batchId_of_validate {b : StoredBatch F} {n : Nat} (hid : b.batchId = S.uuid n)
    {payload : BulkIngestionPayload F} (h : validate S.types b.payload = some payload) :
    payload.batchId = some b.batchId := by
  unfold validate at h
  obtain ⟨batchId, hbatchId, h⟩ := Option.bind_eq_some_iff.mp h
  obtain ⟨venue, -, h⟩ := Option.bind_eq_some_iff.mp h
  obtain ⟨ticks, -, h⟩ := Option.bind_eq_some_iff.mp h
  have hid' : payload.batchId = batchId := by
    dsimp only at h
    split at h
    · cases h
      rfl
    · obtain ⟨feedEvents, -, h⟩ := Option.bind_eq_some_iff.mp h
      cases h
      rfl
  have hfield : getField b.payload "batch_id" = some (.str b.batchId) := rfl
  rw [Bulk.optional, hfield] at hbatchId
  dsimp only at hbatchId
  rw [hid, S.reads_uuid] at hbatchId
  cases hbatchId
  rw [hid', hid]

/-- The requests of one batch ID carry one payload. -/
theorem Sound.onePayload (h : Sound S d) : d.backend.OnePayload := by
  intro r r' payload payload' phase phase' batchId hr hr' hid hid'
  obtain ⟨b, hb, hread⟩ := h.requests r payload phase hr
  obtain ⟨b', hb', hread'⟩ := h.requests r' payload' phase' hr'
  obtain ⟨n, hn⟩ := h.uuid_of_mem hb
  obtain ⟨n', hn'⟩ := h.uuid_of_mem hb'
  rw [batchId_of_validate hn hread] at hid
  rw [batchId_of_validate hn' hread'] at hid'
  have heq : b = b' := h.eq_of_batchId hb hb' (Option.some.inj (hid.trans hid'.symm))
  rw [heq, hread'] at hread
  exact (Option.some.inj hread).symm

end

/-! ## Streams -/

section
variable [PyFloat F] {S : Setting F} {d : Durable F}

theorem keeps_streams {r : StreamStore Fields} (h : Sound S d)
    (hextends : StreamStore.Extends d.streams r)
    (hentries : ∀ key, ∀ e ∈ r.entriesAt key,
      e ∈ d.streams.entriesAt key ∨ ∃ b ∈ d.issued, HasText (batchText b) e)
    (hstay : ∀ key, ∀ e ∈ d.streams.entriesAt key,
      e ∈ r.entriesAt key ∨ ∃ gone, HasText gone e ∧ Kept S { d with streams := r } gone) :
    Keeps S d { d with streams := r } := by
  have hgrows : Grows d { d with streams := r } :=
    { Grows.refl d with streams := hextends }
  refine ⟨{ h with entries := ?_ }, hgrows, fun text hkept => hkept.step hgrows hstay⟩
  intro key e he
  rcases hentries key e he with hold | hnew
  · exact h.entries key e hold
  · exact hnew

/-- An entry is added. -/
theorem keeps_xadd (h : Sound S d) (now : Nat) (key : String) {fields : Fields} {b : StoredBatch F}
    (hb : b ∈ d.issued) (htext : valueOf fields "payload" = some (.text (batchText b))) :
    Keeps S d { d with streams := d.streams.xadd now key fields } := by
  apply keeps_streams h (StreamStore.extends_xadd _ _ _ _)
  · intro other e he
    rcases StreamStore.mem_of_mem_xadd he with hold | ⟨-, rfl⟩
    · exact Or.inl hold
    · exact Or.inr ⟨b, hb, htext⟩
  · intro other e he
    exact Or.inl (StreamStore.mem_entriesAt_xadd now fields he)

/-- An entry whose batch the backend has is deleted. -/
theorem keeps_xdel (h : Sound S d) {key : String} {id : Nat} {text : String}
    {body : List (String × Json F)} (htracks : Tracks d key id text)
    (hread : loads text = some (.obj body)) (hcommitted : Committed S d body) :
    Keeps S d { d with streams := d.streams.xdel key id } := by
  apply keeps_streams h (StreamStore.extends_xdel _ _ _)
  · intro other e he
    exact Or.inl (StreamStore.mem_of_mem_xdel he)
  · intro other e he
    have hleft : e ∈ (d.streams.xdel key id).entriesAt other ∨ other = key ∧ e.1 = id :=
      StreamStore.mem_entriesAt_xdel he
    rcases hleft with hthere | ⟨rfl, hid⟩
    · exact Or.inl hthere
    · exact Or.inr ⟨text, htracks.text e he hid, Or.inr ⟨body, hread, hcommitted⟩⟩

/-- An entry goes to another stream in one transaction. -/
theorem keeps_move (h : Sound S d) (now : Nat) {key target : String} {id : Nat} {fields : Fields}
    {b : StoredBatch F} (htarget : target ∈ S.keys) (hb : b ∈ d.issued)
    (htext : valueOf fields "payload" = some (.text (batchText b)))
    (htracks : Tracks d key id (batchText b)) :
    Keeps S d { d with streams := (d.streams.xadd now target fields).xdel key id } := by
  have hextends := (StreamStore.extends_xadd d.streams now target fields).trans
    (StreamStore.extends_xdel _ key id)
  -- the new entry has an ID of its own, also where the two streams are one
  have hnew : (d.streams.nextIdAt target now, fields)
      ∈ ((d.streams.xadd now target fields).xdel key id).entriesAt target := by
    have hadded : (d.streams.nextIdAt target now, fields)
        ∈ (d.streams.xadd now target fields).entriesAt target := by
      rw [StreamStore.entriesAt_xadd]
      exact List.mem_append_right _ (List.mem_singleton_self _)
    have hleft : (d.streams.nextIdAt target now, fields)
          ∈ ((d.streams.xadd now target fields).xdel key id).entriesAt target ∨
        target = key ∧ d.streams.nextIdAt target now = id :=
      StreamStore.mem_entriesAt_xdel hadded
    rcases hleft with hthere | ⟨rfl, hid⟩
    · exact hthere
    · have hlt := StreamStore.lastIdAt_lt_nextIdAt d.streams target now
      have hpast := htracks.past
      omega
  apply keeps_streams h hextends
  · intro other e he
    rcases StreamStore.mem_of_mem_xadd (StreamStore.mem_of_mem_xdel he) with hold | ⟨-, rfl⟩
    · exact Or.inl hold
    · exact Or.inr ⟨b, hb, htext⟩
  · intro other e he
    have hleft : e ∈ ((d.streams.xadd now target fields).xdel key id).entriesAt other ∨
        other = key ∧ e.1 = id :=
      StreamStore.mem_entriesAt_xdel (StreamStore.mem_entriesAt_xadd now fields he)
    rcases hleft with hthere | ⟨rfl, hid⟩
    · exact Or.inl hthere
    · exact Or.inr ⟨batchText b, htracks.text e he hid, Or.inl ⟨target, htarget, _, hnew, htext⟩⟩

end

/-! ## The backend -/

section
variable [PyFloat F] {S : Setting F} {d : Durable F}

theorem keeps_backend {e : BulkEvent F} {backend : BulkBackend F} (h : Sound S d)
    (hstep : d.backend.step S.sha256 e = some backend)
    (hreceive : ∀ r payload, e = .receive r payload →
      ∃ b ∈ d.issued, validate S.types b.payload = some payload) :
    Keeps S d { d with backend } := by
  have hgrows : Grows d { d with backend } :=
    { Grows.refl d with
      requests := fun r payload phase hr => BulkBackend.requests_step hstep hr
      wrote := fun r payload batchId hwrote => hwrote.step hstep }
  refine ⟨{ h with requests := ?_, backend := h.backend.step hstep }, hgrows, ?_⟩
  · intro r payload phase hr
    rcases BulkBackend.requests_of_step hstep hr with rfl | ⟨old, hold⟩
    · exact hreceive r payload rfl
    · exact h.requests r payload old hold
  · intro text hkept
    exact hkept.step hgrows fun key e he => Or.inl he

/-- What a success of the backend says: the payload of the request is stored. -/
theorem committed_of_answered {body : List (String × Json F)} {r : Nat}
    {payload : BulkIngestionPayload F} {answer : BulkAnswer} (h : Sound S d)
    (hbody : ∃ b ∈ d.issued, b.payload = body) (hread : validate S.types body = some payload)
    (hr : d.backend.requests r = some ⟨payload, .answered answer⟩) : Committed S d body := by
  obtain ⟨b, hb, rfl⟩ := hbody
  obtain ⟨n, hn⟩ := h.uuid_of_mem hb
  have hid := batchId_of_validate hn hread
  obtain ⟨r', hwrote⟩ := h.backend.wrote_of_answered h.onePayload hr hid
  exact ⟨payload, b.batchId, r', hread, hid, hwrote⟩

end

end BrandSniper.BatchPath
