import BrandSniper.Listener.DeliveryInvariant

/-!
# Delivery loses nothing and stores nothing twice

One lemma for each kind of task says what its steps give: the streams and the
backend keep what they have (`Keeps`), and the task and what it schedules know
what they should (`TaskOk`). A run composes them.
-/

namespace BrandSniper.BatchPath

open Kit Json Batch Bulk Delivery StreamAdoption

variable {F : Type}

/-! ## Tasks -/

/-- What a step of a task gives: the states of the task and of the delivery it schedules are as
they should be. -/
structure StepOk [PyFloat F] (S : Setting F) (d : Durable F) (o : Outcome F) : Prop where
  keeps : Keeps S d o.durable
  task : ∀ t, o.task = some t → TaskOk S o.durable t
  scheduled : ∀ t, o.scheduled = some t → TaskOk S o.durable t

section
variable [PyFloat F] {S : Setting F} {d d' : Durable F}

/-- A step that schedules nothing. -/
theorem StepOk.alone {o : Outcome F} (hkeeps : Keeps S d o.durable)
    (htask : ∀ t, o.task = some t → TaskOk S o.durable t) (hnone : o.scheduled = none) :
    StepOk S d o where
  keeps := hkeeps
  task := htask
  scheduled := by
    intro t ht
    rw [hnone] at ht
    cases ht

theorem stepOk_task {t : Task F} (hkeeps : Keeps S d d') (ht : TaskOk S d' t) :
    StepOk S d ⟨d', some t, none⟩ := by
  refine .alone hkeeps ?_ rfl
  rintro _ ⟨⟩
  exact ht

theorem stepOk_ended (hkeeps : Keeps S d d') : StepOk S d ⟨d', none, none⟩ :=
  .alone hkeeps (by rintro _ ⟨⟩) rfl

/-! ### Sending -/

omit [PyFloat F] in
theorem sendingOk_start (d : Durable F) (batch : StoredBatch F) :
    SendingOk S d batch S.startSending := by
  rw [Setting.startSending]
  split <;> trivial

omit [PyFloat F] in
theorem sendingOk_afterError (d : Durable F) (batch : StoredBatch F) (n : Nat) (error : String)
    (retryable : Bool) : SendingOk S d batch (S.afterError n error retryable) := by
  rw [Setting.afterError]
  split <;> trivial

omit [PyFloat F] in
theorem sendingOk_afterStatus {batch : StoredBatch F} (n status : Nat) (detail : String)
    (hsuccess : isSuccess status = true → Committed S d batch.payload) :
    SendingOk S d batch (S.afterStatus n status detail) := by
  rw [Setting.afterStatus]
  split
  · exact hsuccess ‹_›
  · exact sendingOk_afterError _ _ _ _ _

theorem send_ok {batch : StoredBatch F} {sending sending' : Sending} {a : Action F}
    (h : Sound S d) (hissued : Issued d batch) (hok : SendingOk S d batch sending)
    (hstep : S.send d batch sending a = some (d', sending')) :
    Keeps S d d' ∧ SendingOk S d' batch sending' := by
  cases a with
  | post r =>
      cases sending with
      | attempt n =>
          obtain ⟨payload, hread, hstep⟩ := Option.bind_eq_some_iff.mp hstep
          obtain ⟨backend, hbackend, heq⟩ := Option.map_eq_some_iff.mp hstep
          cases heq
          obtain ⟨b, hb, hpayload⟩ := hissued
          refine ⟨keeps_backend h hbackend ?_, payload, .received, ?_, hread⟩
          · rintro r' payload' ⟨⟩
            exact ⟨b, hb, hpayload ▸ hread⟩
          · exact BulkBackend.requests_receive hbackend
      | awaiting n r => cases hstep
      | sent => cases hstep
      | failed error => cases hstep
  | answered detail =>
      cases sending with
      | awaiting n r =>
          obtain ⟨payload, phase, hr, hread⟩ := hok
          simp only [Setting.send, hr] at hstep
          cases phase with
          | answered answer =>
              cases hstep
              exact ⟨.refl h, sendingOk_afterStatus n _ detail
                fun _ => committed_of_answered h hissued hread hr⟩
          | _ => cases hstep
      | attempt n => cases hstep
      | sent => cases hstep
      | failed error => cases hstep
  | refused status detail =>
      rw [Setting.send] at hstep
      split at hstep
      · cases hstep
      · rename_i hstatus
        obtain ⟨n, -, heq⟩ := Option.map_eq_some_iff.mp hstep
        cases heq
        refine ⟨.refl h, sendingOk_afterStatus n status detail fun hsuccess => ?_⟩
        exact absurd (by simp [hsuccess]) hstatus
  | disconnected error =>
      obtain ⟨n, -, heq⟩ := Option.map_eq_some_iff.mp hstep
      cases heq
      exact ⟨.refl h, sendingOk_afterError _ _ _ _ _⟩
  | raised error =>
      obtain ⟨n, -, heq⟩ := Option.map_eq_some_iff.mp hstep
      cases heq
      exact ⟨.refl h, trivial⟩
  | _ => cases hstep

/-! ### Reading -/

omit [PyFloat F] in
/-- No two entries of a stream have one ID. -/
theorem eq_of_id {r : StreamStore Fields} {key : String} {e e' : Entry}
    (he : e ∈ r.entriesAt key) (he' : e' ∈ r.entriesAt key) (hid : e.1 = e'.1) : e = e' :=
  List.inj_on_of_nodup_map (List.pairwise_map.mpr
    ((r.sorted_entriesAt key).imp fun hlt => Nat.ne_of_lt hlt)) he he' hid

/-- What is known of an entry that is there. -/
theorem Sound.tracks (h : Sound S d) {key : String} {e : Entry} (he : e ∈ d.streams.entriesAt key) :
    ∃ b ∈ d.issued, HasText (batchText b) e ∧ Tracks d key e.1 (batchText b) := by
  obtain ⟨b, hb, htext⟩ := h.entries key e he
  refine ⟨b, hb, htext, d.streams.le_lastIdAt key e he, ?_⟩
  intro e' he' hid
  rwa [eq_of_id he' he hid]

omit [PyFloat F] in
theorem valueOf_malformedFields (key : String) (id : Nat) (payload error : String) :
    valueOf (malformedFields key id payload error) "payload" = some (.text payload) := by
  simp [valueOf, malformedFields]

omit [PyFloat F] in
theorem valueOf_deadLetterFields (text error : String) :
    valueOf (deadLetterFields text error) "payload" = some (.text text) := by
  simp [valueOf, deadLetterFields]

theorem batchText_congr {b b' : StoredBatch F} (h : b.payload = b'.payload) :
    batchText b = batchText b' := by
  rw [batchText, h, batchText]

/-- What a step of a reader gives. -/
structure ReadOk (S : Setting F) (d : Durable F) (key : String)
    (o : Durable F × Reader × Option (StoredBatch F)) : Prop where
  keeps : Keeps S d o.1
  reader : ReaderOk o.1 key o.2.1
  given : ∀ batch, o.2.2 = some batch → Given o.1 key o.2.1 batch

theorem fetch_ok {key : String} {reader : Reader} {o : Durable F × Reader × Option (StoredBatch F)}
    (h : Sound S d) (hstep : S.read d key reader .fetch = some o) : ReadOk S d key o := by
  obtain ⟨s, hs, rfl⟩ := Option.map_eq_some_iff.mp hstep
  cases reader with
  | fetching last =>
      cases hs
      refine ⟨.refl h, ?_, by rintro _ ⟨⟩⟩
      intro e he
      dsimp only [Delivery.fetch] at he
      split at he
      · rw [rest_ofPage] at he
        exact h.tracks (List.mem_of_mem_filter (List.mem_of_mem_take he))
      · cases he
  | _ => cases hs

/-- An entry of the page is read as its batch, or goes to the malformed stream with its text. -/
theorem handle_ok [LawfulPyFloat F] {key : String} {reader : Reader} {now : Nat}
    {o : Durable F × Reader × Option (StoredBatch F)} (h : Sound S d) (hreader : ReaderOk d key reader)
    (hstep : S.read d key reader (.handle now) = some o) : ReadOk S d key o := by
  obtain ⟨s, hs, rfl⟩ := Option.map_eq_some_iff.mp hstep
  cases reader with
  | handling page rest =>
      cases rest with
      | nil => cases hs
      | cons entry rest =>
          obtain ⟨b, hb, htext, htracks⟩ := hreader entry List.mem_cons_self
          have hrest : ReaderOk d key (.handling page rest) :=
            fun e he => hreader e (List.mem_cons_of_mem entry he)
          cases hs
          cases hread : readEntry F S.client entry.1 entry.2 with
          | batch batch =>
              obtain rfl := (readEntry_batchText (h.dicts b hb) htext).1 batch hread
              rw [handle_batch hread]
              refine ⟨.refl h, hrest, ?_⟩
              rintro _ ⟨⟩
              refine ⟨⟨b, hb, rfl⟩, ?_⟩
              rintro id page' rest' ⟨⟩
              exact htracks
          | malformed payload error =>
              obtain rfl := (readEntry_batchText (h.dicts b hb) htext).2 payload error hread
              rw [handle_malformed hread]
              have htarget : S.store.malformedKey ∈ S.keys := by simp [Setting.keys]
              have hmoved := keeps_move h now htarget hb (valueOf_malformedFields key entry.1 _ error)
                htracks
              refine ⟨hmoved, ?_, by rintro _ ⟨⟩⟩
              show ReaderOk _ key (afterEntry pageSize page rest)
              rw [ReaderOk, rest_afterEntry]
              exact hrest.mono hmoved.grows
          | raises =>
              simp only [Delivery.handle, hread]
              exact ⟨.refl h, List.forall_mem_nil _, by rintro _ ⟨⟩⟩
  | _ => cases hs

theorem iterate_ok [LawfulPyFloat F] {key : String} {reader : Reader} {a : Action F}
    {o : Durable F × Reader × Option (StoredBatch F)} (h : Sound S d) (hreader : ReaderOk d key reader)
    (hstep : S.iterate d key reader a = some o) : ReadOk S d key o := by
  cases a with
  | fetch => exact fetch_ok h hstep
  | handle now => exact handle_ok h hreader hstep
  | _ => cases hstep

/-- The reader goes on with the rest of its page. -/
theorem readerOk_afterEntry {key : String} {id : Nat} {page rest : List Entry}
    (h : ReaderOk d key (.suspended id page rest)) :
    ReaderOk d key (afterEntry pageSize page rest) := by
  rw [ReaderOk, rest_afterEntry]
  exact h

end

/-! ### The consumer -/

section
variable [PyFloat F] {S : Setting F} {d : Durable F} {o : Outcome F}

/-- The buffers get an ID, a new one where they have none. -/
theorem draw_ok {buffers : Consumer F} (h : Sound S d) (hok : TaskOk S d (.consumer buffers)) :
    Keeps S d (S.draw d buffers).1 ∧ (S.draw d buffers).2 ∈ (S.draw d buffers).1.issued ∧
      (S.draw d buffers).2 = buffers.batch S.venue (S.draw d buffers).2.batchId := by
  rw [Setting.draw]
  cases hid : buffers.batchId with
  | some batchId => exact ⟨.refl h, (hok batchId hid).1, rfl⟩
  | none =>
      have hold : ∀ b ∈ d.issued, b ∈ d.issued ++ [buffers.batch S.venue (S.uuid d.issued.length)] :=
        fun b hb => List.mem_append_left _ hb
      refine ⟨⟨⟨?_, ?_, ?_, ?_, h.backend⟩, ?_, fun text hkept => ?_⟩,
        List.mem_append_right _ (List.mem_singleton_self _), rfl⟩
      · dsimp only
        rw [List.map_append, h.ids, List.length_append, List.length_singleton, List.range_succ,
          List.map_append]
        rfl
      · intro b hb
        rcases List.mem_append.mp hb with hb | hb
        · exact h.dicts b hb
        · rw [List.mem_singleton.mp hb]
          apply uniqueKeys_payload
          · intro fields hfields
            obtain ⟨dict, -, rfl⟩ := List.mem_map.mp hfields
            exact dict.2
          · intro fields hfields
            obtain ⟨dict, -, rfl⟩ := List.mem_map.mp hfields
            exact dict.2
      · intro key e he
        obtain ⟨b, hb, htext⟩ := h.entries key e he
        exact ⟨b, hold b hb, htext⟩
      · intro r payload phase hr
        obtain ⟨b, hb, hread⟩ := h.requests r payload phase hr
        exact ⟨b, hold b hb, hread⟩
      · exact { Grows.refl d with issued := List.prefix_append _ _ }
      · exact hkept

/-- After an error, the last flush has the ID and the same buffers. -/
theorem afterError_ok {buffers : Consumer F} {batchId : String}
    (hissued : buffers.batch S.venue batchId ∈ d.issued) :
    ∀ t, buffers.afterError batchId = some t → TaskOk S d t := by
  intro t ht
  rw [Consumer.afterError] at ht
  split at ht
  · cases ht
  · cases ht
    rintro _ ⟨⟩
    exact ⟨hissued, rfl⟩

theorem afterFlush_ok (buffers : Consumer F) :
    ∀ t, buffers.afterFlush = some t → TaskOk S d t := by
  intro t ht
  rw [Consumer.afterFlush] at ht
  split at ht
  · cases ht
  · cases ht
    rintro _ ⟨⟩

omit [PyFloat F] in
/-- The entry that was just added has the next ID. -/
theorem tracks_added (now : Nat) (key : String) {fields : Fields} {text : String}
    (htext : valueOf fields "payload" = some (.text text)) :
    Tracks { d with streams := d.streams.xadd now key fields } key (d.streams.nextIdAt key now)
      text where
  past := by
    dsimp only
    rw [StreamStore.lastIdAt_xadd]
  text := by
    intro e he hid
    dsimp only at he
    rw [StreamStore.entriesAt_xadd] at he
    rcases List.mem_append.mp he with hold | hnew
    · have hle := d.streams.le_lastIdAt key e hold
      have hlt := d.streams.lastIdAt_lt_nextIdAt key now
      omega
    · rw [List.mem_singleton.mp hnew]
      exact htext

theorem add_ok {batch : StoredBatch F} {text : String} (h : Sound S d) (now : Nat)
    (hbatch : batch ∈ d.issued) (htext : serialize batch = some text) :
    Keeps S d (S.add d now text) ∧
      Tracks (S.add d now text) S.store.pendingKey (d.streams.nextIdAt S.store.pendingKey now)
        (batchText batch) := by
  have hpayload : valueOf [(.text "payload", .text text)] "payload"
      = some (.text (batchText batch)) := by
    rw [serialize_eq_some htext]
    simp [valueOf]
  exact ⟨keeps_xadd h now S.store.pendingKey hbatch hpayload, tracks_added now _ hpayload⟩

theorem flush_ok {buffers : Consumer F} {now : Nat} {outcome : FlushOutcome} (h : Sound S d)
    (hok : TaskOk S d (.consumer buffers)) (hstep : S.flush d buffers now outcome = some o) :
    StepOk S d o := by
  obtain ⟨hkeeps, hmem, hbatch⟩ := draw_ok h hok
  rw [Setting.flush] at hstep
  generalize S.draw d buffers = drawn at hkeeps hmem hbatch hstep
  obtain ⟨d1, batch⟩ := drawn
  dsimp only at hkeeps hmem hbatch hstep
  have hissued : ∀ d' : Durable F, Grows d1 d' → buffers.batch S.venue batch.batchId ∈ d'.issued :=
    fun d' hgrows => hbatch ▸ hgrows.issued.subset hmem
  cases outcome with
  | failed =>
      cases hstep
      exact .alone hkeeps (afterError_ok (hissued d1 (.refl d1))) rfl
  | unanswered =>
      obtain ⟨text, htext, rfl⟩ := Option.map_eq_some_iff.mp hstep
      obtain ⟨hadded, -⟩ := add_ok hkeeps.sound now hmem htext
      exact .alone (hkeeps.trans hadded) (afterError_ok (hissued _ hadded.grows)) rfl
  | unscheduled =>
      obtain ⟨text, htext, rfl⟩ := Option.map_eq_some_iff.mp hstep
      obtain ⟨hadded, -⟩ := add_ok hkeeps.sound now hmem htext
      exact stepOk_ended (hkeeps.trans hadded)
  | stored =>
      obtain ⟨text, htext, rfl⟩ := Option.map_eq_some_iff.mp hstep
      obtain ⟨hadded, htracks⟩ := add_ok hkeeps.sound now hmem htext
      refine ⟨hkeeps.trans hadded, afterFlush_ok buffers, ?_⟩
      rintro _ ⟨⟩
      exact ⟨⟨batch, hadded.grows.issued.subset hmem, rfl⟩, htracks, sendingOk_start _ _⟩

theorem consumerStep_ok {buffers : Consumer F} {a : Action F} (h : Sound S d)
    (hok : TaskOk S d (.consumer buffers)) (hstep : S.consumerStep d buffers a = some o) :
    StepOk S d o := by
  -- while the loop runs there is no ID, so the buffers may change
  have hopen : ∀ {buffers' : Consumer F}, buffers.closing ≠ true →
      buffers'.batchId = buffers.batchId → TaskOk S d (.consumer buffers') := by
    intro buffers' hclosing hsame batchId hid
    exact absurd (hok batchId (hsame ▸ hid)).2 hclosing
  cases a with
  | buffer record =>
      rw [Setting.consumerStep] at hstep
      split at hstep
      · cases hstep
      · cases hstep
        exact stepOk_task (.refl h) (hopen ‹_› rfl)
  | bufferEvent record =>
      rw [Setting.consumerStep] at hstep
      split at hstep
      · cases hstep
      · cases hstep
        exact stepOk_task (.refl h) (hopen ‹_› rfl)
  | close =>
      cases hstep
      refine stepOk_task (.refl h) ?_
      intro batchId hid
      exact ⟨(hok batchId hid).1, rfl⟩
  | flush now outcome =>
      rw [Setting.consumerStep] at hstep
      split at hstep
      · cases hstep
      · exact flush_ok h hok hstep
  | _ => cases hstep

end

/-! ### Readers and deliveries -/

section
variable [PyFloat F] [LawfulPyFloat F] {S : Setting F} {d : Durable F} {o : Outcome F}

theorem recoveryStep_ok {reader : Reader} {given : Option (StoredBatch F)} {a : Action F}
    (h : Sound S d) (hok : TaskOk S d (.recovery reader given))
    (hstep : S.recoveryStep d reader given a = some o) : StepOk S d o := by
  obtain ⟨hreader, hgiven⟩ := hok
  cases given with
  | none =>
      obtain ⟨read, hread, rfl⟩ := Option.map_eq_some_iff.mp hstep
      have hread := iterate_ok h hreader hread
      exact stepOk_task hread.keeps ⟨hread.reader, hread.given⟩
  | some batch =>
      obtain ⟨hissued, htracks⟩ := hgiven batch rfl
      cases reader with
      | suspended id page rest =>
          cases a with
          | schedule =>
              cases hstep
              refine ⟨.refl h, ?_, ?_⟩
              · rintro _ ⟨⟩
                exact ⟨readerOk_afterEntry hreader, by rintro _ ⟨⟩⟩
              · rintro _ ⟨⟩
                exact ⟨hissued, htracks id page rest rfl, sendingOk_start d batch⟩
          | _ => cases hstep
      | _ => cases hstep

theorem loads_issued {batch : StoredBatch F} (h : Sound S d) (hissued : Issued d batch) :
    loads (batchText batch) = some (.obj batch.payload) := by
  obtain ⟨b, hb, hpayload⟩ := hissued
  exact loads_batchText (hpayload ▸ h.dicts b hb)

theorem deliveryStep_ok {recordId : Nat} {batch : StoredBatch F} {sending : Sending} {a : Action F}
    (h : Sound S d) (hok : TaskOk S d (.delivery recordId batch sending))
    (hstep : S.deliveryStep d recordId batch sending a = some o) : StepOk S d o := by
  obtain ⟨hissued, htracks, hsending⟩ := hok
  cases a with
  | acknowledge =>
      cases sending with
      | sent =>
          cases hstep
          exact stepOk_ended (keeps_xdel h htracks (loads_issued h hissued) hsending)
      | _ => cases hstep
  | deadLetter now =>
      cases sending with
      | failed error =>
          obtain ⟨text, htext, rfl⟩ := Option.map_eq_some_iff.mp hstep
          obtain ⟨b, hb, hpayload⟩ := hissued
          obtain rfl := serialize_eq_some htext
          have hsame := batchText_congr hpayload
          rw [← hsame] at htracks ⊢
          exact stepOk_ended (keeps_move h now (by simp [Setting.keys]) hb
            (valueOf_deadLetterFields _ error) htracks)
      | _ => cases hstep
  | _ =>
      dsimp only [Setting.deliveryStep] at hstep
      obtain ⟨⟨d', sending'⟩, hsend, rfl⟩ := Option.map_eq_some_iff.mp hstep
      obtain ⟨hkeeps, hsent⟩ := send_ok h hissued hsending hsend
      exact stepOk_task hkeeps
        ⟨hissued.mono hkeeps.grows, htracks.mono hkeeps.grows, hsent⟩

omit [LawfulPyFloat F] in
theorem afterReplayed_ok {left id : Nat} {page rest : List Entry}
    (hreader : ReaderOk d S.store.deadLetterKey (.suspended id page rest)) :
    ∀ t, afterReplayed left page rest = some t → TaskOk S d (F := F) t := by
  intro t ht
  rw [afterReplayed] at ht
  split at ht
  · cases ht
  · cases ht
    exact ⟨readerOk_afterEntry hreader, by rintro _ _ ⟨⟩⟩

theorem replayStep_ok {left : Nat} {reader : Reader} {given : Option (StoredBatch F × Sending)}
    {a : Action F} (h : Sound S d) (hok : TaskOk S d (.replay left reader given))
    (hstep : S.replayStep d left reader given a = some o) : StepOk S d o := by
  obtain ⟨hreader, hgiven⟩ := hok
  cases given with
  | none =>
      obtain ⟨read, hread, rfl⟩ := Option.map_eq_some_iff.mp hstep
      have hread := iterate_ok h hreader hread
      refine stepOk_task hread.keeps ⟨hread.reader, ?_⟩
      intro batch sending hgiven
      obtain ⟨batch', hbatch', heq⟩ := Option.map_eq_some_iff.mp hgiven
      cases heq
      exact ⟨hread.given batch hbatch', sendingOk_start _ _⟩
  | some given =>
      obtain ⟨batch, sending⟩ := given
      obtain ⟨hbatch, hsending⟩ := hgiven batch sending rfl
      cases a with
      | next deleted =>
          cases reader with
          | suspended id page rest =>
              cases sending with
              | sent =>
                  cases deleted with
                  | true =>
                      cases hstep
                      have hgone := keeps_xdel h (hbatch.tracks id page rest rfl)
                        (loads_issued h hbatch.issued) hsending
                      exact .alone hgone (afterReplayed_ok (hreader.mono hgone.grows)) rfl
                  | false =>
                      cases hstep
                      exact .alone (.refl h) (afterReplayed_ok hreader) rfl
              | failed error =>
                  cases deleted with
                  | true => cases hstep
                  | false =>
                      cases hstep
                      exact .alone (.refl h) (afterReplayed_ok hreader) rfl
              | attempt n => cases hstep
              | awaiting n r => cases hstep
          | _ => cases hstep
      | _ =>
          dsimp only [Setting.replayStep] at hstep
          obtain ⟨⟨d', sending'⟩, hsend, rfl⟩ := Option.map_eq_some_iff.mp hstep
          obtain ⟨hkeeps, hsent⟩ := send_ok h hbatch.issued hsending hsend
          refine stepOk_task hkeeps ⟨hreader.mono hkeeps.grows, ?_⟩
          rintro _ _ ⟨⟩
          exact ⟨hbatch.mono hkeeps.grows, hsent⟩

theorem taskStep_ok {t : Task F} {a : Action F} (h : Sound S d) (hok : TaskOk S d t)
    (hstep : S.taskStep d t a = some o) : StepOk S d o := by
  cases t with
  | recovery reader given => exact recoveryStep_ok h hok hstep
  | consumer buffers => exact consumerStep_ok h hok hstep
  | delivery recordId batch sending => exact deliveryStep_ok h hok hstep
  | replay left reader given => exact replayStep_ok h hok hstep

end

/-! ## Runs -/

section
variable [PyFloat F] {S : Setting F} {s s' : BatchSystem F}

theorem inv_initial (S : Setting F) : Inv S .initial where
  sound := {
    ids := rfl
    dicts := List.forall_mem_nil _
    entries := fun _ => List.forall_mem_nil _
    requests := by rintro _ _ _ ⟨⟩
    backend := BulkBackend.inv_empty S.sha256 }
  tasks := by rintro _ _ ⟨⟩

/-- The tasks go on with what outlives them. -/
theorem Inv.durable {d : Durable F} (h : Inv S s) (hkeeps : Keeps S s.durable d) :
    Inv S ⟨d, s.tasks⟩ where
  sound := hkeeps.sound
  tasks := fun task t ht => (h.tasks task t ht).mono hkeeps.grows

omit [PyFloat F] in
theorem tasks_put (s : BatchSystem F) (task : Nat) (t : Option (Task F)) (other : Nat) :
    (s.put task t).tasks other = if other = task then t else s.tasks other :=
  Function.update_apply _ _ _ _

theorem Inv.put (h : Inv S s) (task : Nat) {t : Option (Task F)}
    (ht : ∀ t', t = some t' → TaskOk S s.durable t') : Inv S (s.put task t) where
  sound := h.sound
  tasks := by
    intro other t' hother
    rw [tasks_put] at hother
    split at hother
    · exact ht t' hother
    · exact h.tasks other t' hother

theorem Inv.start {task : Nat} {t : Task F} (h : Inv S s) (ht : TaskOk S s.durable t)
    (hstart : s.start task t = some s') : Inv S s' ∧ s'.durable = s.durable := by
  rw [BatchSystem.start] at hstart
  split at hstart
  · cases hstart
    refine ⟨h.put task ?_, rfl⟩
    rintro _ ⟨⟩
    exact ht
  · cases hstart

theorem Inv.schedule {task : Nat} {t : Option (Task F)} (h : Inv S s)
    (ht : ∀ t', t = some t' → TaskOk S s.durable t')
    (hschedule : s.schedule task t = some s') : Inv S s' ∧ s'.durable = s.durable := by
  cases t with
  | none =>
      cases hschedule
      exact ⟨h, rfl⟩
  | some t => exact h.start (ht t rfl) hschedule

/-- Every step of every party keeps the invariant, and what is kept. -/
theorem Inv.step [LawfulPyFloat F] {e : BatchEvent F} (h : Inv S s) (hstep : S.step s e = some s') :
    Inv S s' ∧ Keeps S s.durable s'.durable := by
  -- a new task holds nothing
  have hstart : ∀ {task : Nat} {t : Task F}, TaskOk S s.durable t → s.start task t = some s' →
      Inv S s' ∧ Keeps S s.durable s'.durable := by
    intro task t ht hstart
    obtain ⟨hI, hsame⟩ := h.start ht hstart
    rw [hsame]
    exact ⟨hI, .refl h.sound⟩
  cases e with
  | startRecovery task =>
      exact hstart (t := .recovery (.fetching none) none) ⟨List.forall_mem_nil _, by rintro _ ⟨⟩⟩ hstep
  | startConsumer task =>
      exact hstart (t := .consumer ⟨[], [], none, false⟩) (by rintro _ ⟨⟩) hstep
  | startReplay task limit =>
      rw [Setting.step] at hstep
      split at hstep
      · cases hstep
      · exact hstart (t := .replay limit (.fetching none) none)
          ⟨List.forall_mem_nil _, by rintro _ _ ⟨⟩⟩ hstep
  | act task a scheduled =>
      obtain ⟨t, ht, hstep⟩ := Option.bind_eq_some_iff.mp hstep
      obtain ⟨outcome, houtcome, hschedule⟩ := Option.bind_eq_some_iff.mp hstep
      have hok := taskStep_ok h.sound (h.tasks task t ht) houtcome
      have hput : Inv S (BatchSystem.mk outcome.durable s.tasks |>.put task outcome.task) :=
        (h.durable hok.keeps).put task hok.task
      obtain ⟨hI, hsame⟩ := hput.schedule hok.scheduled hschedule
      rw [hsame]
      exact ⟨hI, hok.keeps⟩
  | stop task =>
      cases hstep
      exact ⟨h.put task (by rintro _ ⟨⟩), .refl h.sound⟩
  | backend e =>
      rw [Setting.step] at hstep
      split at hstep
      · cases hstep
      · rename_i hreceive
        obtain ⟨backend, hbackend, rfl⟩ := Option.map_eq_some_iff.mp hstep
        have hkeeps := keeps_backend h.sound hbackend (by
          rintro r payload rfl
          exact absurd rfl hreceive)
        exact ⟨h.durable hkeeps, hkeeps⟩

theorem Inv.run [LawfulPyFloat F] {es : List (BatchEvent F)} (h : Inv S s)
    (hrun : runFrom S.step s es = some s') : Inv S s' ∧ Keeps S s.durable s'.durable := by
  refine runFrom_inv (fun s' => Inv S s' ∧ Keeps S s.durable s'.durable) ?_
    ⟨h, Keeps.refl h.sound⟩ hrun
  intro mid e next ⟨hmid, hkeeps⟩ hstep
  obtain ⟨hnext, hkeeps'⟩ := hmid.step hstep
  exact ⟨hnext, hkeeps.trans hkeeps'⟩

/-- In every run, whatever is stopped and whatever answers are lost: what a stream holds at some
moment is kept at every later one, no batch is stored twice, and none is refused as a conflict. -/
theorem deliversOnce_of_run [LawfulPyFloat F] {before after : List (BatchEvent F)}
    (hmid : runFrom S.step .initial before = some s) (hend : runFrom S.step s after = some s') :
    DeliversOnce S s s' := by
  obtain ⟨hI, -⟩ := (inv_initial S).run hmid
  obtain ⟨hI', hkeeps⟩ := hI.run hend
  have hbackend := hI'.sound.backend
  exact {
    kept := fun text htext => hkeeps.kept text (Or.inl htext)
    together := fun r payload phase hr => (hbackend.phases r payload phase hr).stored_of_fail
    once := fun r r' payload payload' batchId hwrote hwrote' => hbackend.wrote_unique hwrote hwrote'
    noConflict := fun r payload => hbackend.not_conflict hI'.sound.onePayload }

end

/-! ### A run -/

/-- Texts and numbers are read as they are. -/
def plainTypes : ScalarTypes FloatText where
  int
    | .int z => some z
    | _ => none
  str
    | .str s => some s
    | _ => none
  unitFloat _ := none
  uuid
    | .str s => some s
    | _ => none
  strip s := s

theorem repr_inj {n n' : Nat} (h : toString n = toString n') : n = n' := by
  have hdigits : Nat.toDigits 10 n = Nat.toDigits 10 n' := by
    rw [← Nat.toList_repr, ← Nat.toList_repr]
    exact congrArg String.toList h
  calc
    n = Nat.ofDigitChars 10 (Nat.toDigits 10 n) 0 := Nat.ofDigitChars_ten_toDigits.symm
    _ = n' := by rw [hdigits, Nat.ofDigitChars_ten_toDigits]

/-- A deployment whose IDs count up. -/
def countingSetting : Setting FloatText where
  client := listenerClient
  venue := "skinport"
  maxAttempts := 2
  types := plainTypes
  sha256 text := text
  uuid n := "00000000-0000-4000-8000-00000000000" ++ toString n
  uuid_injective := fun _ _ h => repr_inj (String.append_right_inj _ |>.mp h)
  reads_uuid _ := rfl

/-- A tick of the listener. -/
def bufferedTick : Dict FloatText :=
  ⟨[("market_hash_name", .str "AK-47 | Redline"), ("price_cents", .int 1250),
    ("timestamp", .int 1700000000)], by
      refine ⟨?_, trivial, trivial, trivial, trivial⟩
      decide⟩

/-- A batch is stored, and its delivery crashes after the backend has committed. -/
def crashedDelivery : List (BatchEvent FloatText) :=
  [.startConsumer 0, .act 0 (.buffer bufferedTick) 0, .act 0 (.flush 5 .stored) 1,
    .act 1 (.post 0) 0, .backend (.register 0 (.ofEpochSeconds 1)), .backend (.resolveItem 0 4),
    .backend (.storeTicks 0), .backend (.storeEvents 0), .backend (.commit 0), .stop 0, .stop 1]

/-- The next process delivers it again: the first attempt times out, the second is answered. -/
def recoveredDelivery : List (BatchEvent FloatText) :=
  [.startRecovery 2, .act 2 .fetch 0, .act 2 (.handle 6) 0, .act 2 .schedule 3,
    .act 3 (.post 1) 0, .act 3 (.disconnected "") 0, .act 3 (.post 2) 0,
    .backend (.register 2 (.ofEpochSeconds 2)), .backend (.readBatch 2), .backend (.commit 2),
    .backend (.answer 2), .act 3 (.answered "") 0, .act 3 .acknowledge 0]

theorem deliversOnce_of_run_recoveredDelivery :
    ∃ s s', runFrom countingSetting.step .initial crashedDelivery = some s ∧
      runFrom countingSetting.step s recoveredDelivery = some s' ∧
      DeliversOnce countingSetting s s' := by
  have hrun : (runFrom countingSetting.step .initial
      (crashedDelivery ++ recoveredDelivery)).isSome = true := by decide +kernel
  obtain ⟨s', hs'⟩ := Option.isSome_iff_exists.mp hrun
  rw [runFrom_append] at hs'
  obtain ⟨s, hs, hend⟩ := Option.bind_eq_some_iff.mp hs'
  exact ⟨s, s', hs, hend, deliversOnce_of_run hs hend⟩

end BrandSniper.BatchPath
