import StreamPay.SettlementDeliveries

/-! Ingested events over a replay guard whose calls may throw, before or after
they have taken effect. -/
namespace StreamPay

inductive FaultTime
  | beforeEffect | afterEffect
  deriving DecidableEq, Repr

/-- Which calls of an `ingest` throw; it makes each of them once at most. -/
structure StoreFaults where
  claim : Option FaultTime := none
  complete : Option FaultTime := none
  fail : Option FaultTime := none
  deriving DecidableEq, Repr

/-- A store call from state `s` with its answer and the state it leaves. -/
def interrupted {σ α : Type*} (s : σ) (result : Option α × σ) : Option FaultTime → Option α × σ
  | none => result
  | some .beforeEffect => (none, s)
  | some .afterEffect => (none, result.2)

def ProcessedIndexerEventStore.interruptedBy {π : Type*} (store : ProcessedIndexerEventStore π)
    (faults : StoreFaults) : ProcessedIndexerEventStore π where
  claim s eventId fingerprint := interrupted s (store.claim s eventId fingerprint) faults.claim
  complete s eventId := interrupted s (store.complete s eventId) faults.complete
  fail s eventId := interrupted s (store.fail s eventId) faults.fail

namespace InMemoryProcessedIndexerEventStore

def statusOf (events : InMemoryProcessedIndexerEventStore) (eventId : String) :
    Option ProcessedIndexerEventStatus :=
  (events.get eventId).map InMemoryProcessedIndexerEvent.status

/-- A claim of the event would be answered `claimed`. -/
def IsClaimable (events : InMemoryProcessedIndexerEventStore) (eventId fingerprint : String) :
    Prop :=
  (claim events eventId fingerprint).1 = .claimed

/-- The row was not being processed, and is so after the call. -/
def LeftProcessing (events events' : InMemoryProcessedIndexerEventStore) (eventId : String) :
    Prop :=
  events.statusOf eventId ≠ some .processing ∧ events'.statusOf eventId = some .processing

variable {events : InMemoryProcessedIndexerEventStore} {eventId fingerprint : String}

theorem statusOf_claim (h : events.IsClaimable eventId fingerprint) (id : String) :
    (claim events eventId fingerprint).2.statusOf id =
      if id = eventId then some .processing else events.statusOf id := by
  obtain ⟨_,_,hget⟩ | ⟨_,hconflict | ⟨hother,_⟩⟩ := claim_cases events eventId fingerprint
  · rw [statusOf, hget]
    split_ifs <;> rfl
  · exact absurd (hconflict.symm.trans h) (by decide)
  · exact absurd h hother

theorem claim_of_not_claimable (h : ¬ events.IsClaimable eventId fingerprint) :
    (claim events eventId fingerprint).2 = events := by
  obtain ⟨hclaimed,_⟩ | ⟨hsame,_⟩ := claim_cases events eventId fingerprint
  · exact absurd hclaimed h
  · exact hsame

theorem status_of_claimable (h : events.IsClaimable eventId fingerprint) :
    events.statusOf eventId ≠ some .processing := by
  obtain ⟨_,hown,_⟩ | ⟨_,hconflict | ⟨hother,_⟩⟩ := claim_cases events eventId fingerprint
  · intro hprocessing
    obtain ⟨row,hrow,hstatus⟩ := Option.map_eq_some_iff.mp hprocessing
    rw [(hown row hrow).2] at hstatus
    cases hstatus
  · exact absurd (hconflict.symm.trans h) (by decide)
  · exact absurd h hother

theorem statusOf_modify (status : ProcessedIndexerEventStatus) (id : String) :
    InMemoryProcessedIndexerEventStore.statusOf
      (events.modify eventId fun event => { event with status := status }) id =
      if id = eventId then (events.statusOf id).map fun _ => status else events.statusOf id := by
  rw [statusOf, InsertionMap.get_modify]
  split_ifs with hid
  · rw [hid, Option.map_map, statusOf, Option.map_map]
    rfl
  · rfl

end InMemoryProcessedIndexerEventStore

open InMemoryProcessedIndexerEventStore

/-- The claim has not thrown after it took effect, and of `complete` and `fail`
one has taken effect if it was reached. -/
def StoreFaults.Settles (faults : StoreFaults) : Prop :=
  match faults.claim with
  | some .beforeEffect => True
  | some .afterEffect => False
  | none => faults.complete ≠ some .beforeEffect ∨ faults.fail ≠ some .beforeEffect

/-- Any checkpoint store beside the in-memory replay guard, whose calls throw. -/
def interruptedService {μ : Type*} (meteringCheckpoints : MeteringCheckpointStore μ)
    (faults : StoreFaults) : EventIngestionService InMemoryProcessedIndexerEventStore μ :=
  ⟨InMemoryProcessedIndexerEventStore.store.interruptedBy faults, meteringCheckpoints⟩

variable {μ : Type*} {meteringCheckpoints : MeteringCheckpointStore μ} {faults : StoreFaults}
  {events : InMemoryProcessedIndexerEventStore}

namespace EventIngestionService
variable {π : Type*} {service : EventIngestionService π μ} {runtime : IngestionRuntime}

theorem ingestSettlement_of_claimed (s : IngestionState π μ) (event : IndexerEventPayload)
    (correlationId : Option String) {claimed : π}
    (h : service.processedEvents.claim s.processedEvents event.eventId
      (runtime.fingerprintEvent event) = (some .claimed, claimed)) :
    (service.ingestSettlement runtime s event correlationId).2.processedEvents =
      (service.completeClaim claimed { event with correlationId := correlationId }).2 := by
  simp only [ingestSettlement, h]

/-- Without a new claim only the claim itself reaches the store. -/
theorem ingestSettlement_of_not_claimed {s : IngestionState π μ} {event : IndexerEventPayload}
    {correlationId : Option String}
    (h : (service.processedEvents.claim s.processedEvents event.eventId
      (runtime.fingerprintEvent event)).1 ≠ some .claimed) :
    (service.ingestSettlement runtime s event correlationId).2.processedEvents =
      (service.processedEvents.claim s.processedEvents event.eventId
        (runtime.fingerprintEvent event)).2 := by
  simp only [ingestSettlement]
  split
  · rfl
  · rfl
  · rfl
  · rename_i hclaim
    exact absurd hclaim h
  · rfl

end EventIngestionService

/-- The status that a claimed row has when the call returns. -/
def StoreFaults.finalStatus (faults : StoreFaults) : ProcessedIndexerEventStatus :=
  match faults.complete, faults.fail with
  | none, _ => .completed
  | some .beforeEffect, some .beforeEffect => .processing
  | some .afterEffect, some .beforeEffect => .completed
  | some _, _ => .failed

theorem statusOf_completeClaim {event : IndexerEventPayload}
    (hprocessing : events.statusOf event.eventId = some .processing) (id : String) :
    ((interruptedService meteringCheckpoints faults).completeClaim events event).2.statusOf id =
      if id = event.eventId then some faults.finalStatus else events.statusOf id := by
  have hcomplete (events : InMemoryProcessedIndexerEventStore) :
      (complete events event.eventId).statusOf id =
        if id = event.eventId then (events.statusOf id).map fun _ => .completed
        else events.statusOf id := statusOf_modify _ _
  have hfail (events : InMemoryProcessedIndexerEventStore) :
      (fail events event.eventId).statusOf id =
        if id = event.eventId then (events.statusOf id).map fun _ => .failed
        else events.statusOf id := statusOf_modify _ _
  obtain ⟨_,completeFault,failFault⟩ := faults
  -- by the faults of complete and fail, each with none, before and after
  by_cases hid : id = event.eventId
  · subst hid
    rcases completeFault with _ | _ | _ <;> rcases failFault with _ | _ | _ <;>
      simp [EventIngestionService.completeClaim, interruptedService, StoreFaults.finalStatus,
        ProcessedIndexerEventStore.interruptedBy, interrupted,
        InMemoryProcessedIndexerEventStore.store, hcomplete, hfail, hprocessing]
  · rcases completeFault with _ | _ | _ <;> rcases failFault with _ | _ | _ <;>
      simp [EventIngestionService.completeClaim, interruptedService,
        ProcessedIndexerEventStore.interruptedBy, interrupted,
        InMemoryProcessedIndexerEventStore.store, hcomplete, hfail, hid]

/-- Where a claim takes effect, the row ends as the faults have it. -/
theorem statusOf_ingestSettlement {s : IngestionState InMemoryProcessedIndexerEventStore μ}
    {runtime : IngestionRuntime} {event : IndexerEventPayload} (correlationId : Option String)
    (hclaim : s.processedEvents.IsClaimable event.eventId (runtime.fingerprintEvent event))
    (id : String) :
    ((interruptedService meteringCheckpoints faults).ingestSettlement runtime s event
        correlationId).2.processedEvents.statusOf id =
      if id = event.eventId then
        match faults.claim with
        | none => some faults.finalStatus
        | some .beforeEffect => s.processedEvents.statusOf id
        | some .afterEffect => some .processing
      else s.processedEvents.statusOf id := by
  have hclaimed : InMemoryProcessedIndexerEventStore.claim s.processedEvents event.eventId
      (runtime.fingerprintEvent event) = (.claimed, (InMemoryProcessedIndexerEventStore.claim
        s.processedEvents event.eventId (runtime.fingerprintEvent event)).2) :=
    Prod.ext hclaim rfl
  have hstatus := statusOf_claim hclaim
  obtain ⟨claimFault,completeFault,failFault⟩ := faults
  rcases claimFault with _ | _ | _
  · -- the claim is answered, and the call goes on to complete it
    rw [EventIngestionService.ingestSettlement_of_claimed _ _ correlationId
      (congrArg (Prod.map some fun claimed => claimed) hclaimed)]
    have hprocessing := (hstatus event.eventId).trans (if_pos rfl)
    refine (@statusOf_completeClaim _ _ _ _ { event with correlationId := correlationId }
      hprocessing id).trans ?_
    rw [hstatus]
    split_ifs <;> rfl
  · exact (ite_self _).symm
  · -- the claim has taken effect, but the call does not know
    exact hstatus id

theorem ingestSettlement_of_not_claimable
    {s : IngestionState InMemoryProcessedIndexerEventStore μ} {runtime : IngestionRuntime}
    {event : IndexerEventPayload} (correlationId : Option String)
    (hclaim : ¬ s.processedEvents.IsClaimable event.eventId (runtime.fingerprintEvent event)) :
    ((interruptedService meteringCheckpoints faults).ingestSettlement runtime s event
      correlationId).2.processedEvents = s.processedEvents := by
  have hsame := claim_of_not_claimable hclaim
  obtain ⟨claimFault,_,_⟩ := faults
  rcases claimFault with _ | _ | _
  · rw [EventIngestionService.ingestSettlement_of_not_claimed]
    · exact hsame
    · exact fun h => hclaim (Option.some.inj h)
  · rfl
  · exact hsame

theorem finalStatus_eq_processing_iff (faults : StoreFaults) :
    faults.finalStatus = .processing ↔
      faults.complete = some .beforeEffect ∧ faults.fail = some .beforeEffect := by
  obtain ⟨_,completeFault,failFault⟩ := faults
  rcases completeFault with _ | _ | _ <;> rcases failFault with _ | _ | _ <;>
    simp [StoreFaults.finalStatus]

/-- A call leaves no row in processing exactly if its faults settle the claim
that it is about to make, where that claim can take effect. -/
theorem not_left_processing_iff (meteringCheckpoints : MeteringCheckpointStore μ)
    (faults : StoreFaults) (runtime : IngestionRuntime)
    (s : IngestionState InMemoryProcessedIndexerEventStore μ) (call : IngestCall) :
    (∀ eventId, ¬ LeftProcessing s.processedEvents
        ((interruptedService meteringCheckpoints faults).ingest runtime s call).2.processedEvents
        eventId) ↔
      ∀ event, readEvent runtime call = .ok event → isMeteringEvent event.eventType = false →
        s.processedEvents.IsClaimable event.eventId (runtime.fingerprintEvent event) →
          faults.Settles := by
  have hsame {events : InMemoryProcessedIndexerEventStore} (h : events = s.processedEvents)
      (eventId : String) : ¬ LeftProcessing s.processedEvents events eventId :=
    fun hleft => hleft.1 (h ▸ hleft.2)
  unfold EventIngestionService.ingest
  cases hread : readEvent runtime call with
  | error failure => exact iff_of_true (hsame rfl) fun event h => by cases h
  | ok event =>
    simp only [Except.ok.injEq, forall_eq']
    cases htype : isMeteringEvent event.eventType with
    | true =>
      refine iff_of_true (hsame ?_) fun h => by cases h
      simp only [↓reduceIte, EventIngestionService.ingestMetering]
      cases event.sequence <;> rfl
    | false =>
      simp only [Bool.false_eq_true, ↓reduceIte, forall_const]
      by_cases hclaim : s.processedEvents.IsClaimable event.eventId (runtime.fingerprintEvent event)
      · have hstatus : ∀ id, ((interruptedService meteringCheckpoints faults).ingestSettlement runtime
            s event call.correlationId).2.processedEvents.statusOf id = _ :=
          statusOf_ingestSettlement call.correlationId hclaim
        have hbefore := status_of_claimable hclaim
        -- the row of the event decides, since the others stay as they are
        have hrow : (∀ eventId, ¬ LeftProcessing s.processedEvents
            ((interruptedService meteringCheckpoints faults).ingestSettlement runtime s event
              call.correlationId).2.processedEvents eventId) ↔
            ((interruptedService meteringCheckpoints faults).ingestSettlement runtime s event
              call.correlationId).2.processedEvents.statusOf event.eventId ≠ some .processing := by
          constructor
          · exact fun h hprocessing => h event.eventId ⟨hbefore, hprocessing⟩
          · rintro h eventId ⟨hold,hnew⟩
            by_cases hid : eventId = event.eventId
            · exact h (hid ▸ hnew)
            · rw [hstatus, if_neg hid] at hnew
              exact hold hnew
        rw [hrow, hstatus, if_pos rfl, forall_prop_of_true hclaim]
        have hfinal := finalStatus_eq_processing_iff faults
        unfold StoreFaults.Settles
        cases faults.claim with
        | none => simp only [ne_eq, Option.some.injEq, hfinal, not_and_or]
        | some time => cases time <;> simp [hbefore]
      · exact iff_of_true (hsame (ingestSettlement_of_not_claimable _ hclaim))
          fun h => absurd h hclaim

theorem readEvent_ne_in_progress {runtime : IngestionRuntime} {call : IngestCall}
    {failure : IngestionFailure} (h : readEvent runtime call = .error failure) :
    failure ≠ inProgressFailure := by
  unfold readEvent at h
  split at h
  · obtain rfl := Except.error.inj h
    decide
  · split_ifs at h
    · obtain rfl := Except.error.inj h
      decide
    · split at h
      · obtain rfl := Except.error.inj h
        decide
      · split at h
        · obtain rfl := Except.error.inj h
          decide
        · cases h

theorem meteringResult_ne_in_progress (event : IndexerEventPayload)
    (decision : Option MeteringCheckpointDecision) :
    meteringResult event decision ≠ .rejected inProgressFailure := by
  intro h
  rcases decision with _ | (_ | _ | _ | _ | _) <;>
    simp [meteringResult, inProgressFailure] at h

theorem processing_of_inProgress_claim {eventId fingerprint : String}
    (h : (InMemoryProcessedIndexerEventStore.claim events eventId fingerprint).1 = .inProgress) :
    events.statusOf eventId = some .processing := by
  unfold InMemoryProcessedIndexerEventStore.claim at h
  split at h
  · cases h
  · rename_i existing hexisting
    split_ifs at h
    split at h
    · cases h
    · rename_i hstatus
      rw [InMemoryProcessedIndexerEventStore.statusOf, hexisting, Option.map_some, hstatus]
    · cases h

/-- Only a row that is being processed makes a call answer so. -/
theorem processing_of_in_progress {runtime : IngestionRuntime}
    {s : IngestionState InMemoryProcessedIndexerEventStore μ} {call : IngestCall}
    (h : ((interruptedService meteringCheckpoints faults).ingest runtime s call).1 =
      .rejected inProgressFailure) :
    ∃ eventId, s.processedEvents.statusOf eventId = some .processing := by
  unfold EventIngestionService.ingest at h
  cases hread : readEvent runtime call with
  | error failure =>
    rw [hread] at h
    exact absurd (IngestionResult.rejected.inj h) (readEvent_ne_in_progress hread)
  | ok event =>
    simp only [hread] at h
    split_ifs at h with htype
    · simp only [EventIngestionService.ingestMetering] at h
      split at h
      · cases h
      · exact absurd h (meteringResult_ne_in_progress _ _)
    · simp only [EventIngestionService.ingestSettlement] at h
      split at h
      · cases h
      · cases h
      · rename_i hclaim
        refine ⟨event.eventId,
          @processing_of_inProgress_claim _ event.eventId (runtime.fingerprintEvent event) ?_⟩
        change (interrupted s.processedEvents _ faults.claim).1 = _ at hclaim
        cases hfault : faults.claim with
        | none =>
          rw [hfault] at hclaim
          exact Option.some.inj hclaim
        | some time =>
          rw [hfault] at hclaim
          cases time <;> cases hclaim
      · -- a new claim is accepted, or rejected for want of the store
        unfold EventIngestionService.completeClaim at h
        split at h <;> cases h
      · cases h

/-- Calls one after the other, with the faults that each of them meets. -/
def ingestWith (meteringCheckpoints : MeteringCheckpointStore μ) (runtime : IngestionRuntime)
    (s : IngestionState InMemoryProcessedIndexerEventStore μ) (attempt : IngestCall × StoreFaults) :
    IngestionResult × IngestionState InMemoryProcessedIndexerEventStore μ :=
  (interruptedService meteringCheckpoints attempt.2).ingest runtime s attempt.1

/-- Where the faults of every call settle its claim, no call finds an event in progress. -/
theorem never_in_progress (runtime : IngestionRuntime)
    {s : IngestionState InMemoryProcessedIndexerEventStore μ}
    (hstart : ∀ eventId, s.processedEvents.statusOf eventId ≠ some .processing)
    {attempts : List (IngestCall × StoreFaults)}
    (hsettles : ∀ attempt ∈ attempts, attempt.2.Settles) :
    ∀ entry ∈ Lockstep.log (ingestWith meteringCheckpoints runtime) s attempts,
      entry.2 ≠ .rejected inProgressFailure := by
  induction attempts generalizing s with
  | nil => simp [Lockstep.log]
  | cons attempt attempts ih =>
    obtain ⟨hfirst,hrest⟩ := List.forall_mem_cons.mp hsettles
    rw [Lockstep.log, List.forall_mem_cons]
    constructor
    · intro hanswer
      obtain ⟨eventId,hprocessing⟩ := processing_of_in_progress hanswer
      exact hstart eventId hprocessing
    · refine ih (fun eventId hprocessing => ?_) hrest
      have hkept := (not_left_processing_iff meteringCheckpoints attempt.2 runtime s attempt.1).mpr
        fun _ _ _ _ => hfirst
      exact hkept eventId ⟨hstart eventId, hprocessing⟩

section SampleFaults
open IngestionSystem

/-- Completing the claim fails, and so does marking it failed. -/
def neitherSettled : StoreFaults where
  complete := some .beforeEffect
  fail := some .beforeEffect

theorem claim_left_processing :
    ¬ ∀ (faults : StoreFaults) (runtime : IngestionRuntime)
      (s : IngestionState InMemoryProcessedIndexerEventStore InMemoryMeteringCheckpointStore)
      (call : IngestCall) (eventId : String),
      ¬ LeftProcessing s.processedEvents
        ((interruptedService InMemoryMeteringCheckpointStore.store faults).ingest runtime s
          call).2.processedEvents eventId := by
  intro h
  have hleft : LeftProcessing noEvents.processedEvents
      ((interruptedService InMemoryMeteringCheckpointStore.store neitherSettled).ingest
        settledRuntime noEvents (settledCall "stream-a")).2.processedEvents "event-1" := by
    rw [EventIngestionService.ingest, readEvent_settled (Or.inl rfl)]
    refine ⟨fun hbefore => ?_, rfl⟩
    cases hbefore
  exact h _ _ _ _ _ hleft

end SampleFaults

end StreamPay
