import StreamPay.Library.JsString
import StreamPay.Library.Json
import StreamPay.MeteringCheckpoints
import StreamPay.ProcessedIndexerEvents

/-! The indexer webhook: signature and payload checks, then the metering
checkpoint for usage events or the replay guard for all others. -/
namespace StreamPay

structure IndexerEventPayload where
  eventId : String
  eventType : String
  streamId : String
  occurredAt : String
  chainId : Option String
  transactionHash : Option String
  sequence : Option ℕ
  data : Option (List (String × Json))
  correlationId : Option String

inductive IngestionFailureCode
  | missingSecret | invalidSignature | invalidJson | invalidPayload | idempotencyUnavailable
  | meteringGap | lateMeteringEvent | idempotencyConflict | settlementInProgress
  deriving DecidableEq, Repr

structure IngestionFailure where
  code : IngestionFailureCode
  message : String
  deriving DecidableEq, Repr

inductive IngestionResult
  | accepted (duplicate : Bool) (event : IndexerEventPayload)
  | rejected (failure : IngestionFailure)

/-- The `MeteringCheckpointStore` interface; `none` is a rejected promise. -/
structure MeteringCheckpointStore (μ : Type*) where
  apply : μ → MeteringCall → Option MeteringCheckpointDecision × μ

/-- The `ProcessedIndexerEventStore` interface; `none` is a rejected promise. -/
structure ProcessedIndexerEventStore (π : Type*) where
  claim : π → String → String → Option ProcessedIndexerEventClaim × π
  complete : π → String → Option Unit × π
  fail : π → String → Option Unit × π

/-- What the service uses from its runtime: the hex digest of an HMAC-SHA256,
`JSON.parse` of a body (`none` when it throws) and the event fingerprint. -/
structure IngestionRuntime where
  hmacHex : String → List UInt8 → String
  parseJson : List UInt8 → Option Json
  fingerprintEvent : IndexerEventPayload → String

/-- One `ingest` call, with the secret the environment holds at that time. -/
structure IngestCall where
  secret : Option String
  rawBody : List UInt8
  signatureHeader : Option String
  correlationId : Option String

def signaturePrefix : String := "sha256="

/-- `Buffer.from(s, "hex")`: pairs of digits up to the first other pair. -/
def bufferFromHex : List Char → List UInt8
  | a :: b :: rest =>
    match hexDigit a, hexDigit b with
    | some high, some low => (16*high+low).toUInt8 :: bufferFromHex rest
    | _, _ => []
  | _ => []

def isValidSignature (runtime : IngestionRuntime) (rawBody : List UInt8)
    (signatureHeader secret : String) : Bool :=
  let header := signatureHeader.toList
  let incomingSignature :=
    if signaturePrefix.toList.isPrefixOf header then header.drop signaturePrefix.toList.length
    else header
  -- the lengths are compared first: `timingSafeEqual` throws on different ones
  let expected := bufferFromHex (runtime.hmacHex secret rawBody).toList
  let received := bufferFromHex incomingSignature
  expected.length = received.length && expected = received

theorem isValidSignature_signed (runtime : IngestionRuntime) (rawBody : List UInt8)
    (secret : String) :
    isValidSignature runtime rawBody (signaturePrefix ++ runtime.hmacHex secret rawBody) secret =
      true := by
  have hscheme (digits : List Char) :
      signaturePrefix.toList.isPrefixOf (signaturePrefix.toList ++ digits) = true :=
    List.isPrefixOf_iff_prefix.mpr (List.prefix_append _ _)
  simp [isValidSignature, hscheme]

def maxSafeInteger : ℤ := 2^53-1

def parseSequence (value : Option Json) : Option ℕ :=
  match value with
  | some (.number x) =>
    (x.integer?.filter fun n => 1 ≤ n ∧ n ≤ maxSafeInteger).map Int.toNat
  | _ => none

def isRecord (value : Option Json) : Option (List (String × Json)) :=
  match value with
  | some (.object members) => some members
  | _ => none

/-- `none` unless the four required fields are non-empty strings. -/
def parsePayload (candidate : Json) : Option IndexerEventPayload :=
  match candidate.getNonEmptyString "eventId", candidate.getNonEmptyString "eventType",
    candidate.getNonEmptyString "streamId", candidate.getNonEmptyString "occurredAt" with
  | some eventId, some eventType, some streamId, some occurredAt => some
    { eventId, eventType, streamId, occurredAt
      chainId := candidate.getString "chainId"
      transactionHash := candidate.getString "transactionHash"
      sequence := parseSequence (candidate.get "sequence")
      data := isRecord (candidate.get "data")
      correlationId := none }
  | _, _, _, _ => none

theorem parseSequence_range {value : Option Json} {sequence : ℕ}
    (h : parseSequence value = some sequence) :
    1 ≤ sequence ∧ (sequence:ℤ) ≤ maxSafeInteger := by
  unfold parseSequence at h
  split at h
  · obtain ⟨n,hn,rfl⟩ := Option.map_eq_some_iff.mp h
    have hrange : 1 ≤ n ∧ n ≤ maxSafeInteger := by
      simpa using (Option.filter_eq_some_iff.mp hn).2
    omega
  · cases h

/-- What the parser lets through names its event, type, stream and time, and
its sequence is a positive safe integer. -/
theorem parsePayload_wellFormed {candidate : Json} {event : IndexerEventPayload}
    (h : parsePayload candidate = some event) :
    event.eventId ≠ "" ∧ event.eventType ≠ "" ∧ event.streamId ≠ "" ∧ event.occurredAt ≠ "" ∧
      ∀ sequence, event.sequence = some sequence →
        1 ≤ sequence ∧ (sequence:ℤ) ≤ maxSafeInteger := by
  unfold parsePayload at h
  split at h
  · rename_i heventId heventType hstreamId hoccurredAt
    obtain rfl := Option.some.inj h
    exact ⟨Json.getNonEmptyString_ne heventId, Json.getNonEmptyString_ne heventType,
      Json.getNonEmptyString_ne hstreamId, Json.getNonEmptyString_ne hoccurredAt,
      fun _ hsequence => parseSequence_range hsequence⟩
  · cases h

def isMeteringEvent (eventType : String) : Bool :=
  eventType = "metering" || eventType = "metered" || eventType = "usage_recorded"

/-- A string that JavaScript takes for true. -/
def truthy (s : Option String) : Option String := s.filter fun s => s ≠ ""

/-- The checks before any store is asked, in the order of the source. -/
def readEvent (runtime : IngestionRuntime) (call : IngestCall) :
    Except IngestionFailure IndexerEventPayload :=
  match truthy call.secret with
  | none => .error ⟨.missingSecret, "Indexer webhook secret is not configured."⟩
  | some secret =>
    if ((truthy call.signatureHeader).any fun header =>
        isValidSignature runtime call.rawBody header secret) = false then
      .error ⟨.invalidSignature, "Webhook signature verification failed."⟩
    else match runtime.parseJson call.rawBody with
      | none => .error ⟨.invalidJson, "Webhook payload must be valid JSON."⟩
      | some payload =>
        match parsePayload payload with
        | none => .error ⟨.invalidPayload,
            "Webhook payload is missing one or more required fields."⟩
        | some event => .ok event

/-- A signed body with a well-formed payload passes the checks. -/
theorem readEvent_signed {runtime : IngestionRuntime} {call : IngestCall} {secret : String}
    {payload : Json} {event : IndexerEventPayload} (hsecret : truthy call.secret = some secret)
    (hheader : truthy call.signatureHeader =
      some (signaturePrefix ++ runtime.hmacHex secret call.rawBody))
    (hjson : runtime.parseJson call.rawBody = some payload)
    (hpayload : parsePayload payload = some event) : readEvent runtime call = .ok event := by
  simp [readEvent, hsecret, hheader, isValidSignature_signed, hjson, hpayload]

/-- The answer to a metering event once its checkpoint is known. -/
def meteringResult (event : IndexerEventPayload) :
    Option MeteringCheckpointDecision → IngestionResult
  | none => .rejected ⟨.idempotencyUnavailable, "Metering checkpoint storage is unavailable."⟩
  | some (.gap expected received) | some (.gapTooLarge expected received) =>
    .rejected ⟨.meteringGap,
      s!"Metering sequence gap: expected {expected}, received {received}."⟩
  | some (.late checkpoint) =>
    .rejected ⟨.lateMeteringEvent,
      s!"Late metering event rejected at checkpoint {checkpoint}."⟩
  | some (.duplicate _) => .accepted true event
  | some (.accepted _) => .accepted false event

def replayUnavailable : IngestionFailure :=
  ⟨.idempotencyUnavailable, "Webhook replay protection is unavailable."⟩

structure EventIngestionService (π μ : Type*) where
  processedEvents : ProcessedIndexerEventStore π
  meteringCheckpoints : MeteringCheckpointStore μ

structure IngestionState (π μ : Type*) where
  processedEvents : π
  meteringCheckpoints : μ

namespace EventIngestionService
variable {π μ : Type*} (service : EventIngestionService π μ) (runtime : IngestionRuntime)

/-- A metering event: only the checkpoint store is asked. -/
def ingestMetering (s : IngestionState π μ) (event : IndexerEventPayload) :
    IngestionResult × IngestionState π μ :=
  match event.sequence with
  | none => (.rejected ⟨.invalidPayload,
      "Metering events require a positive integer sequence."⟩, s)
  | some sequence =>
    let (checkpoint, meteringCheckpoints) := service.meteringCheckpoints.apply
      s.meteringCheckpoints ⟨event.streamId, event.eventId, sequence⟩
    (meteringResult event checkpoint, { s with meteringCheckpoints := meteringCheckpoints })

/-- Complete a new claim; one that cannot be completed is marked failed. -/
def completeClaim (processedEvents : π) (event : IndexerEventPayload) : IngestionResult × π :=
  match service.processedEvents.complete processedEvents event.eventId with
  | (some _, completed) => (.accepted false event, completed)
  | (none, uncertain) =>
    (.rejected replayUnavailable, (service.processedEvents.fail uncertain event.eventId).2)

/-- Any other event: claimed, then completed by the caller that claimed it. -/
def ingestSettlement (s : IngestionState π μ) (event : IndexerEventPayload)
    (correlationId : Option String) : IngestionResult × IngestionState π μ :=
  let answered := { event with correlationId := correlationId }
  let (claim, claimed) := service.processedEvents.claim s.processedEvents event.eventId
    (runtime.fingerprintEvent event)
  let (result, processedEvents) := match claim with
    | none => (.rejected replayUnavailable, claimed)
    | some .conflict => (.rejected ⟨.idempotencyConflict,
        "The event id is already bound to a different payload."⟩, claimed)
    | some .inProgress => (.rejected ⟨.settlementInProgress,
        "Settlement for this event is already being processed."⟩, claimed)
    | some .claimed => service.completeClaim claimed answered
    | some .duplicate => (.accepted true answered, claimed)
  (result, { s with processedEvents := processedEvents })

def ingest (s : IngestionState π μ) (call : IngestCall) :
    IngestionResult × IngestionState π μ :=
  match readEvent runtime call with
  | .error failure => (.rejected failure, s)
  | .ok event =>
    if isMeteringEvent event.eventType then service.ingestMetering s event
    else service.ingestSettlement runtime s event call.correlationId

/-- The settlement path never touches the checkpoints and answers with the
event it was given. -/
theorem ingestSettlement_spec (s : IngestionState π μ) (event : IndexerEventPayload)
    (correlationId : Option String) :
    (service.ingestSettlement runtime s event correlationId).2.meteringCheckpoints =
        s.meteringCheckpoints ∧
      ∀ duplicate answered, (service.ingestSettlement runtime s event correlationId).1 =
        .accepted duplicate answered → answered = { event with correlationId := correlationId } := by
  refine ⟨rfl, fun duplicate answered h => ?_⟩
  simp only [ingestSettlement] at h
  split at h
  · cases h
  · cases h
  · cases h
  · -- a new claim: accepted only when it could be completed
    unfold completeClaim at h
    split at h
    · cases h
      rfl
    · cases h
  · cases h
    rfl

/-- The three outcomes of a call: rejected with the checkpoints as they were,
an accepted event of another type, or a sequence decided by the store. -/
theorem ingest_cases (s : IngestionState π μ) (call : IngestCall) :
    ((∃ failure, (service.ingest runtime s call).1 = .rejected failure) ∧
      (service.ingest runtime s call).2.meteringCheckpoints = s.meteringCheckpoints) ∨
    ((∃ duplicate event, (service.ingest runtime s call).1 = .accepted duplicate event ∧
        isMeteringEvent event.eventType = false) ∧
      (service.ingest runtime s call).2.meteringCheckpoints = s.meteringCheckpoints) ∨
    ∃ event sequence, isMeteringEvent event.eventType = true ∧ event.sequence = some sequence ∧
      (service.ingest runtime s call).1 = meteringResult event
        (service.meteringCheckpoints.apply s.meteringCheckpoints
          ⟨event.streamId, event.eventId, sequence⟩).1 ∧
      (service.ingest runtime s call).2.meteringCheckpoints =
        (service.meteringCheckpoints.apply s.meteringCheckpoints
          ⟨event.streamId, event.eventId, sequence⟩).2 := by
  unfold ingest
  cases readEvent runtime call with
  | error failure => exact Or.inl ⟨⟨failure, rfl⟩, rfl⟩
  | ok event =>
    cases hmetering : isMeteringEvent event.eventType with
    | true =>
      simp only [hmetering, ↓reduceIte, ingestMetering]
      cases hsequence : event.sequence with
      | none => exact Or.inl ⟨⟨_, rfl⟩, rfl⟩
      | some sequence => exact Or.inr (Or.inr ⟨event, sequence, hmetering, hsequence, rfl, rfl⟩)
    | false =>
      obtain ⟨hsame,hevent⟩ := ingestSettlement_spec service runtime s event call.correlationId
      simp only [hmetering, Bool.false_eq_true, ↓reduceIte]
      cases hresult : (service.ingestSettlement runtime s event call.correlationId).1 with
      | rejected failure => exact Or.inl ⟨⟨failure, rfl⟩, hsame⟩
      | accepted duplicate answered =>
        refine Or.inr (Or.inl ⟨⟨duplicate, answered, rfl, ?_⟩, hsame⟩)
        rw [hevent duplicate answered hresult]
        exact hmetering

end EventIngestionService

end StreamPay
