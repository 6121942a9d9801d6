import StreamPay.EventIngestion

/-! What an acknowledged metering event leaves in the in-memory checkpoint
store, over runs of the indexer webhook. -/
namespace StreamPay
open Lockstep

/-- The in-memory checkpoint store rejects no call. -/
def InMemoryMeteringCheckpointStore.store :
    MeteringCheckpointStore InMemoryMeteringCheckpointStore where
  apply events call := ((InMemoryMeteringCheckpointStore.apply events call).map some id)

def InMemoryProcessedIndexerEventStore.store :
    ProcessedIndexerEventStore InMemoryProcessedIndexerEventStore where
  claim events eventId fingerprint := ((claim events eventId fingerprint).map some id)
  complete events eventId := (some (), complete events eventId)
  fail events eventId := (some (), fail events eventId)

/-- Any replay guard beside the in-memory checkpoint store. -/
def meteringService {π : Type*} (processedEvents : ProcessedIndexerEventStore π) :
    EventIngestionService π InMemoryMeteringCheckpointStore :=
  ⟨processedEvents, InMemoryMeteringCheckpointStore.store⟩

/-- The metering events answered `accepted: true`, in order. -/
def acknowledgedUsage (answers : List (IngestCall × IngestionResult)) :
    List IndexerEventPayload :=
  answers.filterMap fun answer =>
    match answer.2 with
    | .accepted _ event => if isMeteringEvent event.eventType then some event else none
    | .rejected _ => none

def usageAt (events : InMemoryMeteringCheckpointStore) (eventId : String) :
    Option (String × Option ℕ) :=
  (events.get eventId).map fun record => (record.streamId, some record.sequence)

/-- The stream and sequence of the first of the events with an id. -/
def firstUsage (acknowledged : List IndexerEventPayload) (eventId : String) :
    Option (String × Option ℕ) :=
  (acknowledged.find? fun event => event.eventId = eventId).map
    fun event => (event.streamId, event.sequence)

theorem firstUsage_append (xs ys : List IndexerEventPayload) (eventId : String) :
    firstUsage (xs ++ ys) eventId = (firstUsage xs eventId).or (firstUsage ys eventId) := by
  simp only [firstUsage, List.find?_append, Option.map_or]

/-- `apply` adds a record where there was none and keeps all others. -/
theorem usageAt_apply (events : InMemoryMeteringCheckpointStore) (call : MeteringCall)
    (eventId : String) :
    usageAt (InMemoryMeteringCheckpointStore.apply events call).2 eventId =
      (usageAt events eventId).or
        (if (InMemoryMeteringCheckpointStore.apply events call).1.isAccepted = true ∧
            call.eventId = eventId then some (call.streamId, some call.sequence) else none) := by
  cases h : (InMemoryMeteringCheckpointStore.apply events call).1.isAccepted with
  | false => simp [InMemoryMeteringCheckpointStore.apply_rejected h]
  | true =>
    obtain ⟨hget,_,hset⟩ := InMemoryMeteringCheckpointStore.apply_accepted h
    rw [hset]
    by_cases he : eventId = call.eventId
    · simp [usageAt, he, hget, MeteringCall.record]
    · have hne : ¬ call.eventId = eventId := fun h' => he h'.symm
      simp [usageAt, InsertionMap.get_set_of_ne _ _ he, hne]

theorem acknowledgedUsage_append (xs ys : List (IngestCall × IngestionResult)) :
    acknowledgedUsage (xs ++ ys) = acknowledgedUsage xs ++ acknowledgedUsage ys :=
  List.filterMap_append

/-- A usage event is acknowledged when its sequence is taken or its id is known. -/
theorem firstUsage_meteringResult (call : IngestCall) {event : IndexerEventPayload}
    (htype : isMeteringEvent event.eventType = true) (decision : MeteringCheckpointDecision)
    (eventId : String) :
    firstUsage (acknowledgedUsage [(call, meteringResult event (some decision))]) eventId =
      if (decision.isAccepted = true ∨ decision.isDuplicate = true) ∧ event.eventId = eventId then
        some (event.streamId, event.sequence) else none := by
  by_cases hid : event.eventId = eventId <;> cases decision <;>
    simp [acknowledgedUsage, firstUsage, meteringResult, htype, hid,
      MeteringCheckpointDecision.isAccepted, MeteringCheckpointDecision.isDuplicate]

theorem apply_usage (events : InMemoryMeteringCheckpointStore) (call : IngestCall)
    {event : IndexerEventPayload} {sequence : ℕ}
    (htype : isMeteringEvent event.eventType = true) (hsequence : event.sequence = some sequence)
    (eventId : String) :
    let applied := InMemoryMeteringCheckpointStore.apply events
      ⟨event.streamId, event.eventId, sequence⟩
    usageAt applied.2 eventId = (usageAt events eventId).or
      (firstUsage (acknowledgedUsage [(call, meteringResult event (some applied.1))]) eventId) := by
  intro applied
  have happlied := usageAt_apply events ⟨event.streamId, event.eventId, sequence⟩ eventId
  rw [happlied, firstUsage_meteringResult call htype, hsequence]
  cases hdup : applied.1.isDuplicate with
  | false => simp [applied]
  | true =>
    -- the id is known: what is recorded under it stays
    obtain ⟨record,hrecord⟩ := InMemoryMeteringCheckpointStore.apply_duplicate hdup
    by_cases hid : event.eventId = eventId
    · have hknown : usageAt events eventId = some (record.streamId, some record.sequence) := by
        rw [← hid, usageAt, hrecord, Option.map_some]
      rw [hknown, Option.some_or, Option.some_or]
    · simp [hid]

section
variable {π : Type*} (processedEvents : ProcessedIndexerEventStore π) (runtime : IngestionRuntime)

/-- A call records its usage under the event id exactly when it acknowledges a
usage event whose id is new. -/
theorem ingest_usage (s : IngestionState π InMemoryMeteringCheckpointStore) (call : IngestCall)
    (eventId : String) :
    usageAt ((meteringService processedEvents).ingest runtime s call).2.meteringCheckpoints
        eventId =
      (usageAt s.meteringCheckpoints eventId).or (firstUsage (acknowledgedUsage
        [(call, ((meteringService processedEvents).ingest runtime s call).1)]) eventId) := by
  -- rejected, an event of another type, or a usage event with a sequence
  rcases (meteringService processedEvents).ingest_cases runtime s call with
    ⟨⟨failure,hresult⟩,hsame⟩ | ⟨⟨duplicate,event,hresult,htype⟩,hsame⟩ |
    ⟨event,sequence,htype,hsequence,hresult,hstore⟩
  · simp [hresult, hsame, acknowledgedUsage, firstUsage]
  · simp [hresult, hsame, htype, acknowledgedUsage, firstUsage]
  · rw [hresult, hstore]
    exact apply_usage s.meteringCheckpoints call htype hsequence eventId

/-- The store records the first acknowledged usage of every event id. -/
theorem run_usage (s : IngestionState π InMemoryMeteringCheckpointStore) (calls : List IngestCall)
    (eventId : String) :
    usageAt (run ((meteringService processedEvents).ingest runtime) s calls).meteringCheckpoints
        eventId =
      (usageAt s.meteringCheckpoints eventId).or (firstUsage (acknowledgedUsage
        (log ((meteringService processedEvents).ingest runtime) s calls)) eventId) := by
  induction calls generalizing s with
  | nil => simp [run, log, acknowledgedUsage, firstUsage]
  | cons call calls ih =>
    rw [run, ih, ingest_usage, Option.or_assoc, ← firstUsage_append, ← acknowledgedUsage_append]
    rfl

theorem meteringResult_accepted {event event' : IndexerEventPayload}
    {decision : MeteringCheckpointDecision} {duplicate : Bool}
    (h : meteringResult event (some decision) = .accepted duplicate event') :
    event = event' ∧ decision.isDuplicate = duplicate ∧ decision.isAccepted = !duplicate := by
  cases decision with
  | accepted _ | duplicate _ =>
    obtain ⟨rfl,rfl⟩ := IngestionResult.accepted.inj h
    exact ⟨rfl, rfl, rfl⟩
  | late _ | gap _ _ | gapTooLarge _ _ => cases h

/-- An acknowledged usage event is a duplicate exactly when its id is recorded. -/
theorem accepted_usage (s : IngestionState π InMemoryMeteringCheckpointStore) (call : IngestCall)
    {duplicate : Bool} {event : IndexerEventPayload}
    (hanswer : ((meteringService processedEvents).ingest runtime s call).1 =
      .accepted duplicate event)
    (htype : isMeteringEvent event.eventType = true) :
    (usageAt s.meteringCheckpoints event.eventId).isSome = duplicate := by
  rcases (meteringService processedEvents).ingest_cases runtime s call with
    ⟨⟨failure,hresult⟩,_⟩ | ⟨⟨_,other,hresult,hother⟩,_⟩ | ⟨other,sequence,_,_,hresult,_⟩
  · rw [hresult] at hanswer
    cases hanswer
  · rw [hresult] at hanswer
    obtain ⟨_,rfl⟩ := IngestionResult.accepted.inj hanswer
    rw [hother] at htype
    cases htype
  · rw [hresult] at hanswer
    obtain ⟨rfl,hdup,hacc⟩ := meteringResult_accepted hanswer
    cases duplicate with
    | true =>
      obtain ⟨record,hrecord⟩ := InMemoryMeteringCheckpointStore.apply_duplicate hdup
      rw [usageAt, hrecord]
      rfl
    | false =>
      rw [usageAt, (InMemoryMeteringCheckpointStore.apply_accepted hacc).1]
      rfl

/-- Every acknowledged usage event leaves, from its acknowledgement to the end
of the run, the stream and sequence of the first event acknowledged under its
id. That is the event itself unless it is answered as a duplicate, which
happens exactly when its id was acknowledged before. -/
theorem acknowledged_usage_recorded (p : π) (before after : List IngestCall) (call : IngestCall)
    (duplicate : Bool) (event : IndexerEventPayload)
    (hanswer : ((meteringService processedEvents).ingest runtime
      (run ((meteringService processedEvents).ingest runtime) ⟨p,.empty⟩ before) call).1 =
        .accepted duplicate event)
    (htype : isMeteringEvent event.eventType = true) :
    ∃ first,
      (acknowledgedUsage (log ((meteringService processedEvents).ingest runtime) ⟨p,.empty⟩ before)
        ++ [event]).find? (fun earlier => earlier.eventId = event.eventId) = some first ∧
      (duplicate = true ↔ ∃ earlier ∈ acknowledgedUsage
        (log ((meteringService processedEvents).ingest runtime) ⟨p,.empty⟩ before),
          earlier.eventId = event.eventId) ∧
      (duplicate = false → first = event) ∧
      usageAt (run ((meteringService processedEvents).ingest runtime) ⟨p,.empty⟩
        (before ++ call :: after)).meteringCheckpoints event.eventId =
          some (first.streamId, first.sequence) := by
  let ingest := (meteringService processedEvents).ingest runtime
  let acknowledged := acknowledgedUsage (log ingest ⟨p,.empty⟩ before)
  let sameId := fun earlier : IndexerEventPayload => decide (earlier.eventId = event.eventId)
  obtain ⟨first,hfirst⟩ : ∃ first, (acknowledged ++ [event]).find? sameId = some first := by
    apply Option.isSome_iff_exists.mp
    rw [List.find?_isSome]
    exact ⟨event, by simp, by simp [sameId]⟩
  have hbefore : usageAt (run ingest ⟨p,.empty⟩ before).meteringCheckpoints event.eventId =
      firstUsage acknowledged event.eventId := by
    rw [run_usage]
    rfl
  -- the store answers from the ids acknowledged before the call
  have hknown : (acknowledged.find? sameId).isSome = duplicate := by
    rw [← accepted_usage processedEvents runtime _ call hanswer htype]
    exact (congrArg Option.isSome hbefore).trans Option.isSome_map |>.symm
  have hcall : acknowledgedUsage [(call, (ingest (run ingest ⟨p,.empty⟩ before) call).1)] =
      [event] := by
    simp [ingest, acknowledgedUsage, hanswer, htype]
  have hafter : usageAt (run ingest ⟨p,.empty⟩ (before ++ call :: after)).meteringCheckpoints
      event.eventId = some (first.streamId, first.sequence) := by
    -- what is first after the call stays first whatever follows
    rw [run_append, run, run_usage, ingest_usage, hbefore, hcall, ← firstUsage_append, firstUsage,
      hfirst]
    rfl
  refine ⟨first, hfirst, ?_, ?_, hafter⟩
  · rw [← hknown, List.find?_isSome]
    simp only [sameId, decide_eq_true_eq]
    rfl
  · intro hnew
    rw [hnew, Option.isSome_eq_false_iff, Option.isNone_iff_eq_none] at hknown
    rw [List.find?_append, hknown] at hfirst
    simpa [sameId] using hfirst.symm

end

def bytes (text : String) : List UInt8 := text.toList.map fun c => c.toNat.toUInt8

def sampleBody (streamId : String) : List UInt8 :=
  bytes "\x7b\"eventId\":\"event-1\",\"eventType\":\"metering\",\"streamId\":\"" ++
    (bytes streamId ++ bytes "\",\"occurredAt\":\"2026-01-01T00:00:00Z\",\"sequence\":1\x7d")

def sampleJson (streamId : String) : Json :=
  .object [("eventId", .string "event-1"), ("eventType", .string "metering"),
    ("streamId", .string streamId), ("occurredAt", .string "2026-01-01T00:00:00Z"),
    ("sequence", .number (.finite 1))]

/-- JSON values and digests of the bodies of two streams, under the secret
`indexer-secret`. -/
def sampleRuntime : IngestionRuntime where
  hmacHex _ rawBody :=
    if rawBody = sampleBody "stream-a" then
      "2cb4f1b6bc0f2387d69a4f4f88da82082a88e04bf57759438d3be91a437ab982"
    else "80d242c49f8dde8c063d23bfdf11db237c019e21353fad90efbdefaf18bf1581"
  parseJson rawBody :=
    if rawBody = sampleBody "stream-a" then some (sampleJson "stream-a")
    else if rawBody = sampleBody "stream-b" then some (sampleJson "stream-b")
    else none
  fingerprintEvent event := event.eventId

def sampleCall (streamId : String) : IngestCall where
  secret := some "indexer-secret"
  rawBody := sampleBody streamId
  signatureHeader := some (signaturePrefix ++ sampleRuntime.hmacHex "indexer-secret"
    (sampleBody streamId))
  correlationId := none

def sampleEvent (streamId : String) : IndexerEventPayload where
  eventId := "event-1"
  eventType := "metering"
  streamId := streamId
  occurredAt := "2026-01-01T00:00:00Z"
  chainId := none
  transactionHash := none
  sequence := some 1
  data := none
  correlationId := none

theorem sampleBodies_differ : sampleBody "stream-b" ≠ sampleBody "stream-a" := by
  intro h
  have hstream := List.append_cancel_right (List.append_cancel_left h)
  exact absurd hstream (by decide)

theorem truthy_signed (digest : String) :
    truthy (some (signaturePrefix ++ digest)) = some (signaturePrefix ++ digest) := by
  simp [truthy, signaturePrefix]

theorem readEvent_sample {streamId : String} (h : streamId = "stream-a" ∨ streamId = "stream-b") :
    readEvent sampleRuntime (sampleCall streamId) = .ok (sampleEvent streamId) := by
  have hjson : sampleRuntime.parseJson (sampleBody streamId) = some (sampleJson streamId) := by
    rcases h with rfl | rfl
    · simp only [sampleRuntime, ↓reduceIte]
    · simp only [sampleRuntime, sampleBodies_differ, ↓reduceIte]
  have hpayload : parsePayload (sampleJson streamId) = some (sampleEvent streamId) := by
    rcases h with rfl | rfl <;> rfl
  exact readEvent_signed rfl (truthy_signed _) hjson hpayload

def sampleState : IngestionState InMemoryProcessedIndexerEventStore
    InMemoryMeteringCheckpointStore :=
  ⟨.empty, InsertionMap.set .empty "event-1" ⟨"stream-a", "event-1", 1⟩⟩

def sampleIngest := (meteringService InMemoryProcessedIndexerEventStore.store).ingest sampleRuntime

theorem ingest_sample {streamId : String} (h : streamId = "stream-a" ∨ streamId = "stream-b")
    (s : IngestionState InMemoryProcessedIndexerEventStore InMemoryMeteringCheckpointStore) :
    sampleIngest s (sampleCall streamId) =
      (meteringService InMemoryProcessedIndexerEventStore.store).ingestMetering s
        (sampleEvent streamId) := by
  unfold sampleIngest EventIngestionService.ingest
  rw [readEvent_sample h]
  rfl

theorem sample_recorded : run sampleIngest ⟨.empty,.empty⟩ [sampleCall "stream-a"] = sampleState := by
  have happly : InMemoryMeteringCheckpointStore.apply .empty ⟨"stream-a", "event-1", 1⟩ =
      (.accepted 1, InsertionMap.set .empty "event-1" ⟨"stream-a", "event-1", 1⟩) :=
    InMemoryMeteringCheckpointStore.apply_of_next rfl rfl
  rw [run, run, ingest_sample (Or.inl rfl)]
  simp only [EventIngestionService.ingestMetering, meteringService,
    InMemoryMeteringCheckpointStore.store, sampleEvent, happly]
  rfl

theorem sample_duplicate {streamId : String} (h : streamId = "stream-a" ∨ streamId = "stream-b") :
    sampleIngest sampleState (sampleCall streamId) =
      (.accepted true (sampleEvent streamId), sampleState) := by
  rw [ingest_sample h]
  rfl

/-- Sent twice, the first usage event of a stream is acknowledged twice and
recorded once. -/
theorem acknowledged_usage_recorded_redelivered :
    ∃ first : IndexerEventPayload, usageAt (run sampleIngest ⟨.empty,.empty⟩
      ([sampleCall "stream-a"] ++ sampleCall "stream-a" :: [])).meteringCheckpoints "event-1" =
        some (first.streamId, first.sequence) := by
  have hanswer : (sampleIngest (run sampleIngest ⟨.empty,.empty⟩ [sampleCall "stream-a"])
      (sampleCall "stream-a")).1 = .accepted true (sampleEvent "stream-a") := by
    rw [sample_recorded, sample_duplicate (Or.inl rfl)]
  obtain ⟨first,_,_,_,hrecord⟩ := acknowledged_usage_recorded
    InMemoryProcessedIndexerEventStore.store sampleRuntime .empty [sampleCall "stream-a"] []
    (sampleCall "stream-a") true (sampleEvent "stream-a") hanswer rfl
  exact ⟨first, hrecord⟩

/-- An event id used again by another stream is acknowledged, and nothing is
recorded for that stream. -/
theorem reused_id_not_recorded :
    ¬ ∀ (runtime : IngestionRuntime) (calls : List IngestCall) (call : IngestCall)
      (duplicate : Bool) (event : IndexerEventPayload),
      let ingest := (meteringService InMemoryProcessedIndexerEventStore.store).ingest runtime
      let answered := ingest (run ingest ⟨.empty,.empty⟩ calls) call
      answered.1 = .accepted duplicate event → isMeteringEvent event.eventType = true →
      ∃ record ∈ answered.2.meteringCheckpoints.values,
        record.streamId = event.streamId ∧ some record.sequence = event.sequence := by
  intro h
  have hanswer : sampleIngest (run sampleIngest ⟨.empty,.empty⟩ [sampleCall "stream-a"])
      (sampleCall "stream-b") = (.accepted true (sampleEvent "stream-b"), sampleState) := by
    rw [sample_recorded, sample_duplicate (Or.inr rfl)]
  obtain ⟨record,hrecord,hstream,_⟩ := h sampleRuntime [sampleCall "stream-a"]
    (sampleCall "stream-b") true (sampleEvent "stream-b") (congrArg Prod.fst hanswer) rfl
  unfold sampleIngest at hanswer
  rw [hanswer] at hrecord
  obtain rfl : record = ⟨"stream-a", "event-1", 1⟩ := List.mem_singleton.mp hrecord
  exact absurd hstream (by decide)

end StreamPay
