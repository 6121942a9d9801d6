import StreamPay.ApiGate
import StreamPay.InterruptedIngestion
import StreamPay.WebhookSignatures

/-! The endpoint of the indexer webhook: the way of a request through its middleware,
the call of `ingest`, and the answer. -/
namespace StreamPay
open Express Lockstep

structure IndexerRequest extends ApiRequest where
  /-- What `express.raw()` makes of the body; `none` if that is no JSON. -/
  rawBody : Except BodyParserError (Option (List UInt8))
  xIndexerSignature : Option String
  xCorrelationId : Option String

structure IndexerEnvironment extends ApiEnvironment where
  indexerWebhookSecret : Option String

inductive IndexerAnswer
  | api (answer : ApiAnswer)
  | failure (status : ℕ) (failure : IngestionFailure)
  | accepted (status : ℕ) (duplicate : Bool) (eventId eventType : String)

/-- `/^[A-Za-z0-9._:-]{1,128}$/`. -/
def isCorrelationId (candidate : String) : Bool :=
  1 ≤ candidate.length && candidate.length ≤ 128 && candidate.toList.all fun c =>
    c.isAlphanum || c ∈ ['.', '_', ':', '-']

/-- `generated` is the random id that is drawn for the operation. -/
def resolveCorrelationId (candidate : Option String) (generated : String) : String :=
  (candidate.filter isCorrelationId).getD generated

def statusByCode : IngestionFailureCode → ℕ
  | .missingSecret => 500
  | .invalidSignature => 401
  | .invalidJson => 400
  | .invalidPayload => 400
  | .idempotencyUnavailable => 503
  | .idempotencyConflict => 409
  | .settlementInProgress => 409
  | .meteringGap => 409
  | .lateMeteringEvent => 409

def ingestionAnswer : IngestionResult → IndexerAnswer
  | .rejected failure => .failure (statusByCode failure.code) failure
  | .accepted duplicate event =>
    .accepted (if duplicate then 202 else 200) duplicate event.eventId event.eventType

/-- A request as it arrives: what the process and the store of the keys are then. -/
structure IndexerArrival where
  env : IndexerEnvironment
  store : ApiKeyStore
  request : IndexerRequest
  generated : String

section
variable (runtime : ApiRuntime) (arrival : IndexerArrival)

/-- The handlers of `router.post("/")` up to the call of `ingest`. -/
def indexerRoute (path : List Char) : Except ApiAnswer IngestCall :=
  match apiKeyAuthMiddleware runtime arrival.store path arrival.request.toApiRequest with
  | some answer => .error answer
  | none =>
  match requireRedisForMutation arrival.env.toApiEnvironment arrival.request.toApiRequest with
  | some answer => .error answer
  | none =>
  match arrival.request.rawBody with
  | .error error => .error (httpBodyErrorHandler error)
  | .ok none => .error (.explained 400 "invalid_body"
      "Indexer webhook requires the raw request body for signature verification.")
  | .ok (some rawBody) => .ok
    { secret := arrival.env.indexerWebhookSecret
      rawBody := rawBody
      signatureHeader := arrival.request.xIndexerSignature
      correlationId :=
        some (resolveCorrelationId arrival.request.xCorrelationId arrival.generated) }

/-- A request under `/webhooks/indexer`; any other one is `none`. -/
def admitIndexer : Option (Except ApiAnswer IngestCall) :=
  (mount "/webhooks/indexer".toList arrival.request.path.toList).map fun path =>
    if arrival.request.method = .options then .error .preflight
    else match dispatch arrival.request.method path
        [⟨.post, [], fun _ => indexerRoute runtime arrival path⟩] with
    | .handled outcome => outcome
    | .malformed => .error (.express 400)
    | .unmatched => .error (.express 404)

variable {π μ : Type*} (service : EventIngestionService π μ) (ingestion : IngestionRuntime)

def handleIndexer (s : IngestionState π μ) (arrival : IndexerArrival) :
    Option IndexerAnswer × IngestionState π μ :=
  match admitIndexer runtime arrival with
  | none => (none, s)
  | some (.error answer) => (some (.api answer), s)
  | some (.ok call) =>
    let (result,s) := service.ingest ingestion s call
    (some (ingestionAnswer result), s)

end

/-- The request was posted to the endpoint with a key that the store accepts, and with a
body that names the event and is signed under the secret of the process: the header has the
digits of the HMAC, and at most something behind them that is not looked at. -/
structure IndexerArrival.Authentic (runtime : ApiRuntime) (ingestion : IngestionRuntime)
    (arrival : IndexerArrival) (eventId eventType : String) : Prop where
  posted : arrival.request.method = .post
  addressed : mount "/webhooks/indexer".toList arrival.request.path.toList = some ['/']
  keyed : ∃ key, arrival.request.toApiRequest.Carries key ∧ arrival.store.Accepts runtime key
  guarded : redisMutationsRequired arrival.env.toApiEnvironment = true →
    arrival.env.redisClient = true
  signed : ∃ rawBody secret header, arrival.request.rawBody = .ok (some rawBody) ∧
    arrival.env.indexerWebhookSecret = some secret ∧ secret ≠ "" ∧
    arrival.request.xIndexerSignature = some header ∧
    (ingestion.Sha256Digests → ∃ digits more, incomingSignature header = digits ++ more ∧
      SpellsDigest digits (ingestion.hmacHex secret rawBody) ∧ NoPair more) ∧
    ∃ payload event, ingestion.parseJson rawBody = some payload ∧
      parsePayload payload = some event ∧ event.eventId = eventId ∧ event.eventType = eventType

/-- What passes the checks is signed under the secret and names its event. -/
theorem readEvent_eq_ok {runtime : IngestionRuntime} {call : IngestCall}
    {event : IndexerEventPayload} (h : readEvent runtime call = .ok event) :
    ∃ secret header payload, call.secret = some secret ∧ secret ≠ "" ∧
      call.signatureHeader = some header ∧
      isValidSignature runtime call.rawBody header secret = true ∧
      runtime.parseJson call.rawBody = some payload ∧ parsePayload payload = some event := by
  unfold readEvent at h
  split at h
  · cases h
  · rename_i secret hsecret
    split_ifs at h with hunsigned
    obtain ⟨header,hheader,hsigned⟩ :=
      (Option.any_eq_true _ _).mp (Bool.not_eq_false _ ▸ hunsigned)
    obtain ⟨hsome,hnonempty⟩ := Option.filter_eq_some_iff.mp hsecret
    split at h
    · cases h
    · rename_i payload hjson
      split at h
      · cases h
      · rename_i read hpayload
        obtain rfl := Except.ok.inj h
        exact ⟨secret, header, payload, hsome, of_decide_eq_true hnonempty,
          (Option.filter_eq_some_iff.mp hheader).1, hsigned, hjson, hpayload⟩

theorem event_of_meteringResult {event answered : IndexerEventPayload}
    {decision : Option MeteringCheckpointDecision} {duplicate : Bool}
    (h : meteringResult event decision = .accepted duplicate answered) : answered = event := by
  cases decision with
  | none => cases h
  | some decision => exact (meteringResult_accepted h).1.symm

theorem EventIngestionService.readEvent_of_accepted {π μ : Type*}
    {service : EventIngestionService π μ} {runtime : IngestionRuntime} {s : IngestionState π μ}
    {call : IngestCall} {duplicate : Bool} {answered : IndexerEventPayload}
    (h : (service.ingest runtime s call).1 = .accepted duplicate answered) :
    ∃ event, readEvent runtime call = .ok event ∧ answered.eventId = event.eventId ∧
      answered.eventType = event.eventType := by
  unfold EventIngestionService.ingest at h
  split at h
  · cases h
  · rename_i event hread
    refine ⟨event, hread, ?_⟩
    split_ifs at h
    · unfold EventIngestionService.ingestMetering at h
      split at h
      · cases h
      · rw [event_of_meteringResult h]
        exact ⟨rfl, rfl⟩
    · rw [(service.ingestSettlement_spec runtime s event call.correlationId).2 duplicate answered h]
      exact ⟨rfl, rfl⟩

section
variable {runtime : ApiRuntime} {ingestion : IngestionRuntime} {arrival : IndexerArrival}

theorem passed_requireRedis {env : ApiEnvironment} {request : ApiRequest}
    (hrequired : redisMutationsRequired env = true) (hpost : request.method = .post)
    (h : requireRedisForMutation env request = none) : env.redisClient = true := by
  simpa [requireRedisForMutation, hrequired, hpost] using h

/-- A call of `ingest` is made for a request that has passed all of the middleware. -/
theorem of_admitIndexer {call : IngestCall} (h : admitIndexer runtime arrival = some (.ok call)) :
    arrival.request.method = .post ∧
    mount "/webhooks/indexer".toList arrival.request.path.toList = some ['/'] ∧
    (∃ key, arrival.request.toApiRequest.Carries key ∧ arrival.store.Accepts runtime key) ∧
    (redisMutationsRequired arrival.env.toApiEnvironment = true → arrival.env.redisClient = true) ∧
    ∃ rawBody, arrival.request.rawBody = .ok (some rawBody) ∧ call.rawBody = rawBody ∧
      call.secret = arrival.env.indexerWebhookSecret ∧
      call.signatureHeader = arrival.request.xIndexerSignature := by
  obtain ⟨path,hpath,hrouted⟩ := Option.map_eq_some_iff.mp h
  split_ifs at hrouted
  split at hrouted
  · rename_i outcome hdispatch
    subst hrouted
    obtain ⟨route,hroute,values,params,hvalues,_,hserves,hhandler⟩ :=
      exists_route_of_dispatch hdispatch
    obtain rfl := List.mem_singleton.mp hroute
    have hpost : HttpMethod.post = arrival.request.method := by
      simpa [HttpMethod.serves] using hserves
    have hslash : path = ['/'] :=
      (of_matchPath_nil hvalues).resolve_left (mount_ne_nil hpath)
    subst hslash
    refine ⟨hpost.symm, hpath, ?_⟩
    dsimp only [indexerRoute] at hhandler
    split at hhandler
    · cases hhandler
    · rename_i hkeyed
      split at hhandler
      · cases hhandler
      · rename_i hredis
        split at hhandler
        · cases hhandler
        · cases hhandler
        · rename_i rawBody hraw
          obtain rfl := Except.ok.inj hhandler
          refine ⟨?_, ?_, rawBody, hraw, rfl, rfl, rfl⟩
          · exact (passed_apiKeyAuth hkeyed).resolve_left (by decide)
          · exact fun hrequired => passed_requireRedis hrequired hpost.symm hredis
  · cases hrouted
  · cases hrouted

/-- An event is accepted from an authentic request alone. -/
theorem authentic_of_accepted {π μ : Type*} {service : EventIngestionService π μ}
    {s : IngestionState π μ} {status : ℕ} {duplicate : Bool} {eventId eventType : String}
    (h : (handleIndexer runtime service ingestion s arrival).1 =
      some (.accepted status duplicate eventId eventType)) :
    arrival.Authentic runtime ingestion eventId eventType ∧
      status = if duplicate then 202 else 200 := by
  unfold handleIndexer at h
  split at h
  · cases h
  · cases h
  · rename_i call hadmitted
    obtain ⟨hpost,hpath,hkeyed,hredis,rawBody,hraw,hbody,hsecret,hheader⟩ := of_admitIndexer hadmitted
    have hresult := Option.some.inj h
    cases hingest : (service.ingest ingestion s call).1 with
    | rejected failure =>
      rw [hingest] at hresult
      cases hresult
    | accepted duplicate' answered =>
      rw [hingest] at hresult
      obtain ⟨rfl,rfl,rfl,rfl⟩ := IndexerAnswer.accepted.inj hresult
      obtain ⟨event,hread,hid,htype⟩ := EventIngestionService.readEvent_of_accepted hingest
      obtain ⟨secret,header,payload,hcall⟩ := readEvent_eq_ok hread
      rw [hbody, hsecret, hheader] at hcall
      obtain ⟨hconfigured,hnonempty,hsent,hsigned,hjson,hpayload⟩ := hcall
      have hspelled (hdigests : ingestion.Sha256Digests) := (isValidSignature_iff hdigests).mp hsigned
      refine ⟨⟨hpost, hpath, hkeyed, hredis, rawBody, secret, header, hraw, hconfigured, hnonempty,
        hsent, hspelled, payload, event, hjson, hpayload, hid.symm, htype.symm⟩, rfl⟩

/-- Over the in-memory stores, a call that accepts no new event changes nothing. -/
theorem ingest_kept (s : IngestionState InMemoryProcessedIndexerEventStore
    InMemoryMeteringCheckpointStore) (call : IngestCall)
    (h : ∀ event, (inMemoryService.ingest ingestion s call).1 ≠ .accepted false event) :
    (inMemoryService.ingest ingestion s call).2 = s := by
  unfold EventIngestionService.ingest at h ⊢
  cases hread : readEvent ingestion call with
  | error failure => rfl
  | ok event =>
    rw [hread] at h
    dsimp only at h ⊢
    split_ifs at h ⊢ with hmetering
    · unfold EventIngestionService.ingestMetering at h ⊢
      cases hsequence : event.sequence with
      | none => rfl
      | some sequence =>
        rw [hsequence] at h
        let applied := InMemoryMeteringCheckpointStore.apply s.meteringCheckpoints
          ⟨event.streamId, event.eventId, sequence⟩
        have hrejected : applied.1.isAccepted = false := by
          cases hdecision : applied.1 with
          | accepted next =>
            apply absurd _ (h event)
            change meteringResult event (some applied.1) = .accepted false event
            rw [hdecision]
            rfl
          | duplicate _ | late _ | gap _ _ | gapTooLarge _ _ => rfl
        have hsame := InMemoryMeteringCheckpointStore.apply_rejected hrejected
        exact congrArg (IngestionState.mk s.processedEvents) hsame
    · obtain ⟨hclaimed,_⟩ | ⟨hsame,hother⟩ := InMemoryProcessedIndexerEventStore.claim_cases
        s.processedEvents event.eventId (ingestion.fingerprintEvent event)
      · -- a new claim is completed, and the event accepted
        apply absurd _ (h { event with correlationId := call.correlationId })
        simp only [EventIngestionService.ingestSettlement, inMemoryService, replayService,
          InMemoryProcessedIndexerEventStore.store, Prod.map_fst, hclaimed]
        rfl
      · have hnot : (InMemoryProcessedIndexerEventStore.claim s.processedEvents event.eventId
            (ingestion.fingerprintEvent event)).1 ≠ .claimed := by
          rcases hother with hconflict | ⟨hnot,_⟩
          · rw [hconflict]
            exact ProcessedIndexerEventClaim.noConfusion
          · exact hnot
        have hclaim : (inMemoryService.processedEvents.claim s.processedEvents event.eventId
            (ingestion.fingerprintEvent event)).1 ≠ some .claimed :=
          fun hsome => hnot (Option.some.inj hsome)
        have hevents : (inMemoryService.ingestSettlement ingestion s event
            call.correlationId).2.processedEvents = s.processedEvents :=
          (EventIngestionService.ingestSettlement_of_not_claimed hclaim).trans hsame
        exact congrArg₂ IngestionState.mk hevents rfl

/-- Only an event that is accepted as new changes what the stores hold. -/
theorem stores_kept {s : IngestionState InMemoryProcessedIndexerEventStore
    InMemoryMeteringCheckpointStore} {arrival : IndexerArrival}
    (h : ∀ eventId eventType, (handleIndexer runtime inMemoryService ingestion s arrival).1 ≠
      some (.accepted 200 false eventId eventType)) :
    (handleIndexer runtime inMemoryService ingestion s arrival).2 = s := by
  unfold handleIndexer at h ⊢
  split
  · rfl
  · rfl
  · rename_i call hadmitted
    rw [hadmitted] at h
    apply ingest_kept
    intro event hnew
    apply h event.eventId event.eventType
    dsimp only
    rw [hnew]
    rfl

def IndexerAnswer.isNew : Option IndexerAnswer → Bool
  | some (.accepted _ duplicate _ _) => !duplicate
  | _ => false

/-- Over runs of requests to the endpoint, only those that are answered 200 count: each of
them is authentic, and so is each that is answered 202, and without all the others the
stores would hold the same and the answers would be the same. -/
theorem only_new_events_count (runtime : ApiRuntime) (ingestion : IngestionRuntime)
    (s : IngestionState InMemoryProcessedIndexerEventStore InMemoryMeteringCheckpointStore)
    (arrivals : List IndexerArrival) :
    let answers := log (handleIndexer runtime inMemoryService ingestion) s arrivals
    (∀ arrival status duplicate eventId eventType,
      (arrival, some (.accepted status duplicate eventId eventType)) ∈ answers →
      arrival.Authentic runtime ingestion eventId eventType ∧
        status = if duplicate then 202 else 200) ∧
    let counted := answers.filter fun answer => IndexerAnswer.isNew answer.2
    log (handleIndexer runtime inMemoryService ingestion) s (counted.map Prod.fst) = counted ∧
      run (handleIndexer runtime inMemoryService ingestion) s (counted.map Prod.fst) =
        run (handleIndexer runtime inMemoryService ingestion) s arrivals := by
  intro answers
  constructor
  · intro arrival status duplicate eventId eventType hanswer
    obtain ⟨before,hbefore⟩ := exists_state_of_mem_log hanswer
    exact authentic_of_accepted hbefore
  · apply log_of_filter
    intro before arrival hold
    apply stores_kept
    intro eventId eventType hnew
    rw [hnew] at hold
    cases hold

end

end StreamPay
