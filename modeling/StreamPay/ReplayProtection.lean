import StreamPay.SettlementDeliveries

/-! Replay protection over both in-memory stores: metering events are looked up
among the checkpoints, all others in the replay guard. -/
namespace StreamPay
open Interleaving

theorem InMemoryMeteringCheckpointStore.get_apply (events : InMemoryMeteringCheckpointStore)
    (call : MeteringCall) (eventId : String) :
    (apply events call).2.get eventId =
      if (apply events call).1.isAccepted = true ∧ eventId = call.eventId then some call.record
      else events.get eventId := by
  cases h : (apply events call).1.isAccepted with
  | false => simp [apply_rejected h]
  | true =>
    rw [(apply_accepted h).2.2, InsertionMap.get_set]
    simp

open InMemoryMeteringCheckpointStore

namespace IngestionSystem
variable {ι : Type*}

abbrev InMemory (ι : Type*) :=
  IngestionSystem ι InMemoryProcessedIndexerEventStore InMemoryMeteringCheckpointStore

/-- An event that would be taken as new by its store is not in the other one. -/
def KeepsToOneStore (runtime : IngestionRuntime) (calls : ι → IngestCall) (s : InMemory ι) (i : ι) :
    Prop :=
  ∀ event, s.progress i = .waiting → readEvent runtime (calls i) = .ok event →
    if isMeteringEvent event.eventType then
      s.stores.meteringCheckpoints.get event.eventId = none →
      event.sequence = some (latestSequence event.streamId s.stores.meteringCheckpoints.values+1) →
      s.stores.processedEvents.get event.eventId = none
    else
      s.stores.processedEvents.get event.eventId = none →
      s.stores.meteringCheckpoints.get event.eventId = none

/-- No id is in both stores; metering events that were taken as new are among
the checkpoints, each for one call. -/
structure OneStoreInvariant (s : InMemory ι) : Prop where
  unfailed : ∀ eventId row, s.stores.processedEvents.get eventId = some row → row.status ≠ .failed
  apart : ∀ eventId, s.stores.processedEvents.get eventId = none ∨
    s.stores.meteringCheckpoints.get eventId = none
  metered : ∀ i eventId, (s.progress i).newId true = some eventId →
    ∃ record, s.stores.meteringCheckpoints.get eventId = some record
  once : Exclusive fun i => (s.progress i).newId true

theorem oneStoreInvariant_start : OneStoreInvariant (start noEvents : InMemory ι) where
  unfailed _ _ hrow := by cases hrow
  apart _ := Or.inl rfl
  metered _ _ hnew := by cases hnew
  once _ _ _ hnew := by cases hnew

variable {runtime : IngestionRuntime} {calls : ι → IngestCall} {s t : InMemory ι} {i : ι}

section Turns
variable {call : IngestCall} {stores stores' : IngestionState InMemoryProcessedIndexerEventStore
    InMemoryMeteringCheckpointStore} {progress progress' : IngestionProgress}

/-- A row of the replay guard was there before, or has just been claimed. -/
theorem row_of_turn (h : inMemoryService.Turn runtime call stores progress progress' stores')
    (hcompleted : ∀ event, progress ≠ .completed event false) {eventId : String}
    {row : InMemoryProcessedIndexerEvent}
    (hrow : stores'.processedEvents.get eventId = some row) :
    (∃ old, stores.processedEvents.get eventId = some old ∧
      (old.status ≠ .failed → row.status ≠ .failed)) ∨
    stores.processedEvents.get eventId = none ∧ row.status ≠ .failed ∧ progress = .waiting ∧
      ∃ read, readEvent runtime call = .ok read ∧ isMeteringEvent read.eventType = false ∧
        read.eventId = eventId := by
  cases hold : stores.processedEvents.get eventId with
  | some old =>
    obtain ⟨row',hrow',_,hlive⟩ := keeps_of_turn h hcompleted eventId old hold
    obtain rfl := Option.some.inj (hrow.symm.trans hrow')
    exact Or.inl ⟨old, rfl, hlive⟩
  | none =>
    -- only a claim makes a row
    right
    cases h with
    | claimed read hread htype =>
      obtain ⟨_,_,hget⟩ | ⟨hsame,_⟩ := InMemoryProcessedIndexerEventStore.claim_cases
        stores.processedEvents read.eventId (runtime.fingerprintEvent read)
      · have hrow' := (hget eventId).symm.trans hrow
        split_ifs at hrow' with hid
        · obtain rfl := Option.some.inj hrow'
          exact ⟨rfl, nofun, rfl, read, hread, htype, hid.symm⟩
        · rw [hold] at hrow'
          cases hrow'
      · have hrow' := (congrArg (·.get eventId) hsame).symm.trans hrow
        cases hold.symm.trans hrow'
    | completed event =>
      have hrow' := (InsertionMap.get_modify _ _ _ _).symm.trans hrow
      split_ifs at hrow' with hid
      · rw [← hid, hold] at hrow'
        cases hrow'
      · cases hold.symm.trans hrow'
    | failed event => exact absurd rfl (hcompleted event)
    | refused _ _ => cases hold.symm.trans hrow
    | applied _ _ _ _ _ => cases hold.symm.trans hrow
    | returned _ _ _ _ => cases hold.symm.trans hrow

/-- Checkpoints stay. -/
theorem checkpoint_kept (h : inMemoryService.Turn runtime call stores progress progress' stores')
    {eventId : String} {record : InMemoryCheckpoint}
    (hrecord : stores.meteringCheckpoints.get eventId = some record) :
    stores'.meteringCheckpoints.get eventId = some record := by
  cases h with
  | applied read sequence _ _ _ =>
    refine (get_apply _ _ _).trans ((if_neg ?_).trans hrecord)
    rintro ⟨haccepted,hid⟩
    rw [hid, (apply_accepted haccepted).1] at hrecord
    cases hrecord
  | refused _ _ | claimed _ _ _ | completed _ | failed _ | returned _ _ _ _ => exact hrecord

/-- A checkpoint was there before, or has just been made for the next sequence
of its stream. -/
theorem checkpoint_of_turn (h : inMemoryService.Turn runtime call stores progress progress' stores')
    {eventId : String} {record : InMemoryCheckpoint}
    (hrecord : stores'.meteringCheckpoints.get eventId = some record) :
    stores.meteringCheckpoints.get eventId = some record ∨
    stores.meteringCheckpoints.get eventId = none ∧ progress = .waiting ∧
      ∃ read, readEvent runtime call = .ok read ∧ isMeteringEvent read.eventType = true ∧
        read.eventId = eventId ∧ read.sequence =
          some (latestSequence read.streamId stores.meteringCheckpoints.values+1) := by
  cases h with
  | applied read sequence hread htype hsequence =>
    have hrecord' := (get_apply _ _ _).symm.trans hrecord
    split_ifs at hrecord' with hnew
    · obtain ⟨haccepted,rfl⟩ := hnew
      obtain ⟨hfree,hnext,_⟩ := apply_accepted haccepted
      exact Or.inr ⟨hfree, rfl, read, hread, htype, rfl, hsequence.trans (congrArg some hnext)⟩
    · exact Or.inl hrecord'
  | refused _ _ | claimed _ _ _ | completed _ | failed _ | returned _ _ _ _ => exact Or.inl hrecord

/-- Whoever takes a metering event as new makes its checkpoint, unless it had before. -/
theorem metered_of_turn (h : inMemoryService.Turn runtime call stores progress progress' stores')
    {eventId : String} (hnew : progress'.newId true = some eventId) :
    progress.newId true = some eventId ∨
    stores.meteringCheckpoints.get eventId = none ∧
      ∃ record, stores'.meteringCheckpoints.get eventId = some record := by
  obtain ⟨event,hevent,htype,rfl⟩ := IngestionProgress.newId_eq_some.mp hnew
  cases h with
  | refused _ _ => cases hevent
  | failed _ => cases hevent
  | applied read sequence _ _ _ =>
    obtain ⟨rfl,next,hdecision⟩ := IngestionProgress.newEvent_applied hevent
    have hdecision : (InMemoryMeteringCheckpointStore.apply stores.meteringCheckpoints
        ⟨read.streamId, read.eventId, sequence⟩).1 = .accepted next := Option.some.inj hdecision
    have haccepted : (InMemoryMeteringCheckpointStore.apply stores.meteringCheckpoints
        ⟨read.streamId, read.eventId, sequence⟩).1.isAccepted = true := by
      rw [hdecision]
      rfl
    exact Or.inr ⟨(apply_accepted haccepted).1,
      _, (get_apply _ _ _).trans (if_pos ⟨haccepted, rfl⟩)⟩
  | claimed read _ hother =>
    -- the replay guard takes no metering events
    obtain ⟨rfl,_⟩ := IngestionProgress.newEvent_claimed hevent
    rw [hother] at htype
    cases htype
  | completed _ => exact Or.inl hnew
  | returned _ hsame _ _ =>
    rw [hsame] at hevent
    exact Or.inl (IngestionProgress.newId_eq_some.mpr ⟨event, hevent, htype, rfl⟩)

/-- An id that is in both stores came into one of them against the condition. -/
theorem OneStoreInvariant.apart_of_turn (h : OneStoreInvariant s)
    (hcompleted : ∀ event, s.progress i ≠ .completed event false)
    (hone : KeepsToOneStore runtime calls s i)
    (hturn : inMemoryService.Turn runtime (calls i) s.stores (s.progress i) progress' stores')
    (eventId : String) : stores'.processedEvents.get eventId = none ∨
      stores'.meteringCheckpoints.get eventId = none := by
  by_contra hboth
  obtain ⟨hrow,hrecord⟩ := not_or.mp hboth
  obtain ⟨row,hrow⟩ := Option.ne_none_iff_exists'.mp hrow
  obtain ⟨record,hrecord⟩ := Option.ne_none_iff_exists'.mp hrecord
  obtain ⟨old,hold,_⟩ | ⟨hfree,_,hwaiting,read,hread,htype,rfl⟩ :=
    row_of_turn hturn hcompleted hrow
  · -- the checkpoint is new, of an event that the replay guard has
    obtain hkept | ⟨hnew,hwaiting,read,hread,htype,rfl,hsequence⟩ :=
      checkpoint_of_turn hturn hrecord
    · obtain hnone | hnone := h.apart eventId
      · cases hold.symm.trans hnone
      · cases hkept.symm.trans hnone
    · have hnone := hone read hwaiting hread
      rw [if_pos htype] at hnone
      cases hold.symm.trans (hnone hnew hsequence)
  · -- the row is new, and the checkpoint of its id cannot be
    have hnone := hone read hwaiting hread
    rw [if_neg (by rw [htype]; exact Bool.false_ne_true)] at hnone
    obtain hkept | ⟨_,_,read',hread',htype',_,_⟩ := checkpoint_of_turn hturn hrecord
    · cases hkept.symm.trans (hnone hfree)
    · obtain rfl := Except.ok.inj (hread.symm.trans hread')
      cases htype.symm.trans htype'

end Turns

variable [DecidableEq ι]

theorem OneStoreInvariant.step (h : OneStoreInvariant s)
    (hcompleted : ∀ event, s.progress i ≠ .completed event false)
    (hone : KeepsToOneStore runtime calls s i)
    (hstep : IngestionSystem.step inMemoryService runtime calls s i = some t) :
    OneStoreInvariant t := by
  have hturn := turn_of_step hstep
  have hothers := (step_eq_some hstep).2
  constructor
  · intro eventId row hrow
    obtain ⟨old,hold,hlive⟩ | ⟨_,hlive,_⟩ := row_of_turn hturn hcompleted hrow
    · exact hlive (h.unfailed eventId old hold)
    · exact hlive
  · exact h.apart_of_turn hcompleted hone hturn
  · intro j eventId hnew
    have hkept (hbefore : (s.progress j).newId true = some eventId) :
        ∃ record, t.stores.meteringCheckpoints.get eventId = some record := by
      obtain ⟨record,hrecord⟩ := h.metered j eventId hbefore
      exact ⟨record, checkpoint_kept hturn hrecord⟩
    by_cases hji : j = i
    · subst hji
      obtain hbefore | ⟨_,hrecord⟩ := metered_of_turn hturn hnew
      · exact hkept hbefore
      · exact hrecord
    · rw [hothers j hji] at hnew
      exact hkept hnew
  · refine h.once.of_others (fun j hji => by rw [hothers j hji]) fun eventId hnew j hji hj => ?_
    obtain hbefore | ⟨hfree,_⟩ := metered_of_turn hturn hnew
    · exact hji (h.once j i eventId hj hbefore)
    · obtain ⟨record,hrecord⟩ := h.metered j eventId hj
      cases hrecord.symm.trans hfree

theorem oneStoreInvariant_of_reaches
    (hs : ReachesWhile (step inMemoryService runtime calls) (KeepsToOneStore runtime calls)
      (start noEvents) s) : OneStoreInvariant s := by
  induction hs with
  | refl => exact oneStoreInvariant_start
  | tail i hs hone hstep ih => exact ih.step (completed_of_reaches hs) hone hstep

/-- Each id is answered as new at most once, if no event is new to its store
while the other store has its id. -/
theorem event_accepted_once {j : ι} {event event' : IndexerEventPayload}
    (hs : ReachesWhile (step inMemoryService runtime calls) (KeepsToOneStore runtime calls)
      (start noEvents) s)
    (hi : s.progress i = .returned (.accepted false event))
    (hj : s.progress j = .returned (.accepted false event'))
    (hid : event.eventId = event'.eventId) : i = j := by
  have hreplay := replayInvariant_of_reaches hs
  have hone := oneStoreInvariant_of_reaches hs
  have hnew (k : ι) (event : IndexerEventPayload)
      (hk : s.progress k = .returned (.accepted false event)) :
      (s.progress k).newId (isMeteringEvent event.eventType) = some event.eventId := by
    rw [hk]
    exact IngestionProgress.newId_accepted event
  -- one call in each store
  have hmixed (k l : ι) (hk : (s.progress k).newId true = some event.eventId)
      (hl : (s.progress l).newId false = some event.eventId) : False := by
    obtain ⟨record,hrecord⟩ := hone.metered k _ hk
    obtain ⟨row,hrow,_⟩ := hreplay.owned l _ hl
    obtain hnone | hnone := hone.apart event.eventId
    · cases hrow.symm.trans hnone
    · cases hrecord.symm.trans hnone
  have hi' := hnew i event hi
  have hj' := hnew j event' hj
  rw [← hid] at hj'
  cases hmetering : isMeteringEvent event.eventType <;>
    cases hmetering' : isMeteringEvent event'.eventType <;> rw [hmetering] at hi' <;>
    rw [hmetering'] at hj'
  · exact hreplay.once i j _ hi' hj'
  · exact (hmixed j i hj' hi').elim
  · exact (hmixed i j hi' hj').elim
  · exact hone.once i j _ hi' hj'

section SampleReplay

/-- Three turns of the first delivery. -/
theorem delivery_accepted_once :
    ∃ s event, ReachesWhile (step inMemoryService settledRuntime deliveries)
        (KeepsToOneStore settledRuntime deliveries) (start noEvents) s ∧
      s.progress 0 = .returned (.accepted false event) ∧
      ∀ j event', s.progress j = .returned (.accepted false event') →
        event'.eventId = event.eventId → j = 0 := by
  let claimed : IngestionState InMemoryProcessedIndexerEventStore
      InMemoryMeteringCheckpointStore := { noEvents with
    processedEvents := (InMemoryProcessedIndexerEventStore.claim .empty "event-1"
      (settledRuntime.fingerprintEvent (deliveredEvent 0))).2 }
  have hreceive : inMemoryService.receive settledRuntime noEvents (deliveries 0) =
      (.claimed (deliveredEvent 0) (some .claimed), claimed) := by
    rw [EventIngestionService.receive, readEvent_deliveries]
    rfl
  let first : InMemory (Fin 3) := start noEvents
  have hturn₁ : inMemoryService.advance settledRuntime (deliveries 0) first.stores
      (first.progress 0) = some (.claimed (deliveredEvent 0) (some .claimed), claimed) :=
    congrArg some hreceive
  obtain ⟨s₁,hstep₁,hclaimed,_⟩ := step_of_advance hturn₁
  have hturn₂ : inMemoryService.advance settledRuntime (deliveries 0) s₁.stores (s₁.progress 0) =
      some (.completed (deliveredEvent 0) true,
        ⟨InMemoryProcessedIndexerEventStore.complete s₁.stores.processedEvents "event-1",
          s₁.stores.meteringCheckpoints⟩) := by
    rw [hclaimed]
    rfl
  obtain ⟨s₂,hstep₂,hcompleted,_⟩ := step_of_advance hturn₂
  have hturn₃ : inMemoryService.advance settledRuntime (deliveries 0) s₂.stores (s₂.progress 0) =
      some (.returned (.accepted false (deliveredEvent 0)), s₂.stores) := by
    rw [hcompleted]
    rfl
  obtain ⟨s₃,hstep₃,hreturned,_⟩ := step_of_advance hturn₃
  have hfree : KeepsToOneStore settledRuntime deliveries first 0 := by
    intro event _ _
    split_ifs
    · exact fun _ _ => rfl
    · exact fun _ => rfl
  have hs : ReachesWhile (step inMemoryService settledRuntime deliveries)
      (KeepsToOneStore settledRuntime deliveries) first s₃ := by
    refine .tail 0 (.tail 0 (.tail 0 .refl hfree hstep₁) ?_ hstep₂) ?_ hstep₃
    · intro event hwaiting
      cases hclaimed.symm.trans hwaiting
    · intro event hwaiting
      cases hcompleted.symm.trans hwaiting
  exact ⟨s₃, _, hs, hreturned, fun j event' hj hid => event_accepted_once hs hj hreturned hid⟩

/-- A usage event, and then a settled event of its id. -/
def usageThenSettled (i : Fin 2) : IngestCall :=
  if i.val = 0 then sampleCall "stream-a" else settledCall "stream-a"

theorem readEvent_usage :
    readEvent settledRuntime (sampleCall "stream-a") = .ok (sampleEvent "stream-a") := by
  have hbody : sampleBody "stream-a" ≠ settledBody "stream-a" := by decide +kernel
  have hbody' : sampleBody "stream-a" ≠ settledBody "stream-b" := by decide +kernel
  have hhmac : settledRuntime.hmacHex "indexer-secret" (sampleBody "stream-a") =
      sampleRuntime.hmacHex "indexer-secret" (sampleBody "stream-a") := by
    simp only [settledRuntime, hbody, hbody', ↓reduceIte]
  have hheader : truthy (sampleCall "stream-a").signatureHeader = some (signaturePrefix ++
      settledRuntime.hmacHex "indexer-secret" (sampleCall "stream-a").rawBody) := by
    rw [show (sampleCall "stream-a").rawBody = sampleBody "stream-a" from rfl, hhmac]
    exact truthy_signed _
  have hjson : settledRuntime.parseJson (sampleBody "stream-a") = some (sampleJson "stream-a") := by
    simp only [settledRuntime, hbody, hbody', sampleRuntime, ↓reduceIte]
  exact readEvent_signed rfl hheader hjson rfl

/-- The id of a usage event is accepted as new again with another type. -/
theorem usage_id_accepted_again :
    ¬ ∀ (runtime : IngestionRuntime) (calls : Fin 2 → IngestCall) (s : InMemory (Fin 2))
      (i j : Fin 2) (event event' : IndexerEventPayload),
      Reaches (step inMemoryService runtime calls) (start noEvents) s →
      s.progress i = .returned (.accepted false event) →
      s.progress j = .returned (.accepted false event') → event.eventId = event'.eventId →
      i = j := by
  intro h
  have hmetered : inMemoryService.ingest settledRuntime noEvents (usageThenSettled 0) =
      (.accepted false (sampleEvent "stream-a"), sampleState) := by
    rw [EventIngestionService.ingest, show usageThenSettled 0 = sampleCall "stream-a" from rfl,
      readEvent_usage]
    rfl
  let calls := usageThenSettled
  obtain ⟨n,s,hexec,hfirst,hstores,hothers⟩ : ∃ n s,
      exec (step inMemoryService settledRuntime calls) (start noEvents) (List.replicate n 0) =
        some s ∧
      s.progress 0 = .returned (inMemoryService.ingest settledRuntime noEvents (calls 0)).1 ∧
      s.stores = (inMemoryService.ingest settledRuntime noEvents (calls 0)).2 ∧
      ∀ j ≠ 0, s.progress j = .waiting :=
    exec_alone rfl
  obtain ⟨m,t,hexec',hsecond,_,hothers'⟩ : ∃ m t,
      exec (step inMemoryService settledRuntime calls) s (List.replicate m 1) = some t ∧
      t.progress 1 = .returned (inMemoryService.ingest settledRuntime s.stores (calls 1)).1 ∧
      t.stores = (inMemoryService.ingest settledRuntime s.stores (calls 1)).2 ∧
      ∀ j ≠ 1, t.progress j = s.progress j :=
    exec_alone (hothers 1 (by decide))
  have hsettled : (inMemoryService.ingest settledRuntime s.stores (calls 1)).1 =
      .accepted false (settledEvent "stream-a") := by
    rw [hstores, hmetered, EventIngestionService.ingest,
      show calls 1 = settledCall "stream-a" from rfl, readEvent_settled (Or.inl rfl)]
    rfl
  rw [hmetered] at hfirst
  rw [hsettled] at hsecond
  have hsame := h settledRuntime calls t 0 1 _ _
    ((reaches_of_exec _ hexec).trans (reaches_of_exec _ hexec'))
    ((hothers' 0 (by decide)).trans hfirst) hsecond rfl
  exact absurd hsame (by decide)

end SampleReplay

end IngestionSystem

end StreamPay
