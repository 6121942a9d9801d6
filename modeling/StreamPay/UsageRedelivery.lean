import StreamPay.AcknowledgedUsage
import StreamPay.Library.NumberedText
import StreamPay.Library.PrefixCount

/-! Usage events that are delivered late, again and out of their order: how far the
checkpoint of a stream comes in the in-memory store. -/
namespace StreamPay
open Lockstep

/-- The usage events of an indexer: the ids of the events of each stream, numbered from 0,
and no id twice. -/
structure UsageLog where
  eventId : String → ℕ → String
  apart : ∀ {streamId i streamId' i'}, eventId streamId i = eventId streamId' i' →
    streamId = streamId' ∧ i = i'

/-- The event has a sequence that is one more than its number. -/
def UsageLog.call (events : UsageLog) (streamId : String) (i : ℕ) : MeteringCall :=
  ⟨streamId, events.eventId streamId i, i+1⟩

theorem UsageLog.call_inj {events : UsageLog} {streamId streamId' : String} {i i' : ℕ} :
    events.call streamId i = events.call streamId' i' ↔ streamId = streamId' ∧ i = i' := by
  constructor
  · intro h
    exact events.apart (congrArg MeteringCall.eventId h)
  · rintro ⟨rfl,rfl⟩
    rfl

/-- What a call of `ingest` brings to the checkpoint store. -/
def usageCall (runtime : IngestionRuntime) (call : IngestCall) : Option MeteringCall :=
  match readEvent runtime call with
  | .error _ => none
  | .ok event =>
    if isMeteringEvent event.eventType then
      event.sequence.map fun sequence => ⟨event.streamId, event.eventId, sequence⟩
    else none

theorem meteringCheckpoints_ingest {π : Type*} (processedEvents : ProcessedIndexerEventStore π)
    (runtime : IngestionRuntime) (s : IngestionState π InMemoryMeteringCheckpointStore)
    (call : IngestCall) :
    ((meteringService processedEvents).ingest runtime s call).2.meteringCheckpoints =
      run InMemoryMeteringCheckpointStore.apply s.meteringCheckpoints
        (usageCall runtime call).toList := by
  unfold EventIngestionService.ingest usageCall
  cases readEvent runtime call with
  | error failure => rfl
  | ok event =>
    dsimp only
    split_ifs with hmetering
    · unfold EventIngestionService.ingestMetering
      cases event.sequence with
      | none => rfl
      | some sequence => rfl
    · exact ((meteringService processedEvents).ingestSettlement_spec runtime s event
        call.correlationId).1

/-- Over a run the store sees the usage of the calls, and nothing else. -/
theorem meteringCheckpoints_run {π : Type*} (processedEvents : ProcessedIndexerEventStore π)
    (runtime : IngestionRuntime) (s : IngestionState π InMemoryMeteringCheckpointStore)
    (calls : List IngestCall) :
    (run ((meteringService processedEvents).ingest runtime) s calls).meteringCheckpoints =
      run InMemoryMeteringCheckpointStore.apply s.meteringCheckpoints
        (calls.filterMap (usageCall runtime)) := by
  induction calls generalizing s with
  | nil => rfl
  | cons call calls ih =>
    have hsplit : (call :: calls).filterMap (usageCall runtime) =
        (usageCall runtime call).toList ++ calls.filterMap (usageCall runtime) := by
      rw [List.filterMap_cons]
      cases usageCall runtime call <;> rfl
    rw [run, ih, meteringCheckpoints_ingest, hsplit, run_append]

section
variable (events : UsageLog) (store : InMemoryMeteringCheckpointStore)

/-- The store has the first events of each stream, up to its checkpoint. -/
def UsageLog.Recorded : Prop :=
  ∀ streamId i, store.get (events.eventId streamId i) =
    if i < latestSequence streamId store.values then some (events.call streamId i).record else none

variable {events store}

theorem UsageLog.recorded_empty : events.Recorded .empty := fun _ _ => rfl

/-- What the store decides about an event of the log. -/
theorem UsageLog.Recorded.decision (h : events.Recorded store) (streamId : String) (i : ℕ) :
    (InMemoryMeteringCheckpointStore.apply store (events.call streamId i)).1 =
      if i < latestSequence streamId store.values then .duplicate (i+1)
      else sequenceDecision (latestSequence streamId store.values) (i+1) := by
  have hget := h streamId i
  unfold InMemoryMeteringCheckpointStore.apply
  rw [UsageLog.call, hget]
  split_ifs <;> rfl

/-- Only the event that comes next changes the store. -/
theorem UsageLog.Recorded.apply_of_ne (h : events.Recorded store) {streamId : String} {i : ℕ}
    (hi : i ≠ latestSequence streamId store.values) :
    (InMemoryMeteringCheckpointStore.apply store (events.call streamId i)).2 = store := by
  apply InMemoryMeteringCheckpointStore.apply_rejected
  rw [h.decision]
  split_ifs with hold
  · rfl
  · rw [Bool.eq_false_iff]
    intro haccepted
    have hnext := (sequenceDecision_isAccepted_iff _ _).mp haccepted
    omega

theorem UsageLog.Recorded.apply_next (h : events.Recorded store) (streamId : String) :
    (InMemoryMeteringCheckpointStore.apply store
        (events.call streamId (latestSequence streamId store.values))).2.values =
      store.values ++ [(events.call streamId (latestSequence streamId store.values)).record] ∧
    events.Recorded (InMemoryMeteringCheckpointStore.apply store
      (events.call streamId (latestSequence streamId store.values))).2 := by
  let next := events.call streamId (latestSequence streamId store.values)
  have hfree : store.get next.eventId = none := by
    rw [show next.eventId = events.eventId streamId _ from rfl, h streamId _,
      if_neg (Nat.lt_irrefl _)]
  have hset : (InMemoryMeteringCheckpointStore.apply store next).2 =
      store.set next.eventId next.record := by
    rw [InMemoryMeteringCheckpointStore.apply_of_next hfree rfl]
  have hvalues := InMemoryMeteringCheckpointStore.values_set_record hfree
  refine ⟨by rw [hset, hvalues], ?_⟩
  intro other i
  rw [hset, hvalues, latestSequence_append, InsertionMap.get_set, h other i]
  change (if events.eventId other i = events.eventId streamId _ then some next.record else _) =
    if i < (if streamId = other then
      max (latestSequence other store.values) (latestSequence streamId store.values+1) else _) then
      some (events.call other i).record else none
  by_cases hsame : events.eventId other i =
      events.eventId streamId (latestSequence streamId store.values)
  · obtain ⟨rfl,rfl⟩ := events.apart hsame
    rw [if_pos rfl, if_pos rfl, if_pos (by omega)]
  · rw [if_neg hsame]
    by_cases hother : streamId = other
    · subst hother
      have hi : i ≠ latestSequence streamId store.values := fun he => hsame (he ▸ rfl)
      rw [if_pos rfl]
      congr 1
      apply propext
      omega
    · rw [if_neg hother]

/-- The checkpoint counts the events of the stream that have come by in their order. -/
theorem UsageLog.recorded_run (usage : List MeteringCall)
    (hlogged : ∀ call ∈ usage, ∃ streamId i, call = events.call streamId i) :
    events.Recorded (run InMemoryMeteringCheckpointStore.apply .empty usage) ∧
    ∀ streamId, latestSequence streamId
        (run InMemoryMeteringCheckpointStore.apply .empty usage).values =
      PrefixCount.count (events.call streamId) usage := by
  induction usage using List.reverseRecOn with
  | nil => exact ⟨UsageLog.recorded_empty, fun _ => rfl⟩
  | append_singleton usage call ih =>
    obtain ⟨hrecorded,hcount⟩ := ih fun call hcall => hlogged call (List.mem_append_left _ hcall)
    obtain ⟨streamId,i,rfl⟩ := hlogged call (List.mem_append_right usage List.mem_cons_self)
    let store := run InMemoryMeteringCheckpointStore.apply .empty usage
    have hafter : run InMemoryMeteringCheckpointStore.apply .empty
        (usage ++ [events.call streamId i]) =
        (InMemoryMeteringCheckpointStore.apply store (events.call streamId i)).2 :=
      run_append _ _ usage [events.call streamId i]
    rw [hafter]
    by_cases hi : i = latestSequence streamId store.values
    · subst hi
      obtain ⟨hvalues,hnext⟩ := UsageLog.Recorded.apply_next hrecorded streamId
      refine ⟨hnext, fun other => ?_⟩
      rw [hvalues, latestSequence_append, PrefixCount.count_append_singleton, PrefixCount.advance,
        ← hcount other]
      change (if streamId = other then
        max (latestSequence other store.values) (latestSequence streamId store.values+1) else _) = _
      by_cases hother : streamId = other
      · subst hother
        rw [if_pos rfl, if_pos rfl]
        exact Nat.max_eq_right (Nat.le_succ _)
      · rw [if_neg hother, if_neg fun hcall => hother (UsageLog.call_inj.mp hcall).1]
    · rw [UsageLog.Recorded.apply_of_ne hrecorded hi]
      refine ⟨hrecorded, fun other => ?_⟩
      rw [PrefixCount.count_append_singleton, PrefixCount.advance, ← hcount other, if_neg]
      intro hcall
      obtain ⟨rfl,hnext⟩ := UsageLog.call_inj.mp hcall
      exact hi hnext

/-- Usage converges under redelivery. Whatever else is delivered, also late, again and out
of order, the checkpoint of a stream has come to an event exactly if the events up to it
have been delivered in their order at some time, not necessarily in a row; and an event of
the log is answered by what has come of its stream: as a duplicate up to the checkpoint,
as the next one, or as a gap, and never as late. -/
theorem usage_converges {π : Type*} (processedEvents : ProcessedIndexerEventStore π)
    (runtime : IngestionRuntime) (p : π) (calls : List IngestCall)
    (hlogged : ∀ call ∈ calls.filterMap (usageCall runtime), ∃ streamId i,
      call = events.call streamId i) (streamId : String) :
    let store := (run ((meteringService processedEvents).ingest runtime) ⟨p, .empty⟩
      calls).meteringCheckpoints
    (∀ k, k ≤ latestSequence streamId store.values ↔
      ((List.range k).map (events.call streamId)).Sublist
        (calls.filterMap (usageCall runtime))) ∧
    ∀ i, (InMemoryMeteringCheckpointStore.apply store (events.call streamId i)).1 =
        if i < latestSequence streamId store.values then .duplicate (i+1)
        else sequenceDecision (latestSequence streamId store.values) (i+1) := by
  intro store
  have hstore : store = run InMemoryMeteringCheckpointStore.apply .empty
      (calls.filterMap (usageCall runtime)) :=
    meteringCheckpoints_run processedEvents runtime ⟨p, .empty⟩ calls
  obtain ⟨hrecorded,hcount⟩ := UsageLog.recorded_run _ hlogged
  rw [hstore]
  refine ⟨fun k => ?_, hrecorded.decision streamId⟩
  rw [hcount streamId]
  exact PrefixCount.le_count_iff (events.call streamId) k _

end

section SampleRedelivery

def countedId (streamId : String) (i : ℕ) : String :=
  String.ofList (List.replicate i ':' ++ 'x' :: streamId.toList)

def countedUsage : UsageLog where
  eventId := countedId
  apart := by
    intro streamId i streamId' i' h
    obtain ⟨hcolons,hnames⟩ := NumberedText.append_cons_inj
      (fun hmem => absurd (List.eq_of_mem_replicate hmem) (by decide))
      (fun hmem => absurd (List.eq_of_mem_replicate hmem) (by decide)) (String.ofList_inj.mp h)
    exact ⟨String.toList_inj.mp hnames, by simpa using congrArg List.length hcolons⟩

def countedJson (i : ℕ) : Json :=
  .object [("eventId", .string (countedId "stream-a" i)), ("eventType", .string "metering"),
    ("streamId", .string "stream-a"), ("occurredAt", .string "2026-01-01T00:00:00Z"),
    ("sequence", .number (.finite ((i+1 : ℕ) : ℚ)))]

/-- A body of as many bytes as the event has in number stands for it. -/
def countedRuntime : IngestionRuntime where
  hmacHex _ _ := "aa"
  parseJson rawBody := some (countedJson rawBody.length)
  fingerprintEvent event := event.eventId

def countedCall (i : ℕ) : IngestCall where
  secret := some "indexer-secret"
  rawBody := List.replicate i 0
  signatureHeader := some (signaturePrefix ++ "aa")
  correlationId := none

theorem usageCall_counted {i : ℕ} (hi : i < 2) :
    usageCall countedRuntime (countedCall i) = some (countedUsage.call "stream-a" i) := by
  have hjson : countedRuntime.parseJson (countedCall i).rawBody = some (countedJson i) := by
    exact congrArg (fun n => some (countedJson n)) List.length_replicate
  have hpayload : parsePayload (countedJson i) = some ⟨countedId "stream-a" i, "metering",
      "stream-a", "2026-01-01T00:00:00Z", none, none, some (i+1), none, none⟩ := by
    have hid : countedId "stream-a" i ≠ "" := by
      intro h
      have hlist := congrArg String.toList h
      simp [countedId] at hlist
    have heventId : (countedJson i).getNonEmptyString "eventId" = some (countedId "stream-a" i) :=
      Option.filter_eq_some_iff.mpr ⟨rfl, decide_eq_true hid⟩
    have hinteger : JsNumber.integer? (.finite ((i+1 : ℕ) : ℚ)) = some ((i+1 : ℕ) : ℤ) := by
      rw [JsNumber.integer?, if_pos (Rat.den_natCast (i+1)), Rat.num_natCast]
    have hsafe : 1 ≤ ((i+1 : ℕ) : ℤ) ∧ ((i+1 : ℕ) : ℤ) ≤ maxSafeInteger := by
      rw [maxSafeInteger]
      omega
    have hsequence : parseSequence ((countedJson i).get "sequence") = some (i+1) := by
      change ((JsNumber.integer? (.finite ((i+1 : ℕ) : ℚ))).filter _).map Int.toNat = _
      rw [hinteger, Option.filter_some, if_pos (decide_eq_true hsafe), Option.map_some]
      rfl
    have heventType : (countedJson i).getNonEmptyString "eventType" = some "metering" := rfl
    have hstreamId : (countedJson i).getNonEmptyString "streamId" = some "stream-a" := rfl
    have hoccurredAt : (countedJson i).getNonEmptyString "occurredAt" =
        some "2026-01-01T00:00:00Z" := rfl
    simp only [parsePayload, heventId, heventType, hstreamId, hoccurredAt, hsequence]
    rfl
  rw [usageCall, readEvent_signed rfl (truthy_signed "aa") hjson hpayload]
  rfl

/-- The second event comes first, and once more after the first one. -/
theorem usage_converges_of_early_event :
    2 ≤ latestSequence "stream-a" (run ((meteringService
      InMemoryProcessedIndexerEventStore.store).ingest countedRuntime) ⟨.empty, .empty⟩
        [countedCall 1, countedCall 0, countedCall 1]).meteringCheckpoints.values := by
  have husage : [countedCall 1, countedCall 0, countedCall 1].filterMap
      (usageCall countedRuntime) = [countedUsage.call "stream-a" 1,
        countedUsage.call "stream-a" 0, countedUsage.call "stream-a" 1] := by
    simp only [List.filterMap_cons, List.filterMap_nil, usageCall_counted Nat.zero_lt_two,
      usageCall_counted Nat.one_lt_two]
  have hlogged : ∀ call ∈ [countedCall 1, countedCall 0, countedCall 1].filterMap
      (usageCall countedRuntime), ∃ streamId i, call = countedUsage.call streamId i := by
    rw [husage]
    simp only [List.mem_cons, List.not_mem_nil, or_false]
    rintro call (rfl | rfl | rfl)
    all_goals exact ⟨_, _, rfl⟩
  have hconverges := (usage_converges InMemoryProcessedIndexerEventStore.store countedRuntime
    .empty [countedCall 1, countedCall 0, countedCall 1] hlogged "stream-a").1 2
  refine hconverges.mpr ?_
  rw [husage]
  exact List.sublist_cons_self _ _

end SampleRedelivery

end StreamPay
