import Mathlib.Data.List.Range
import StreamPay.Library.InsertionMap
import StreamPay.Library.Lockstep

/-! The in-memory metering checkpoint store: one flat map keyed by event id,
from which the checkpoint of a stream is recomputed on every call. -/
namespace StreamPay
open Lockstep

def maxMeteringGap : ℕ := 100

inductive MeteringCheckpointDecision
  | accepted (nextSequence : ℕ)
  | duplicate (nextSequence : ℕ)
  | late (checkpoint : ℕ)
  | gap (expectedSequence receivedSequence : ℕ)
  | gapTooLarge (expectedSequence receivedSequence : ℕ)
  deriving DecidableEq, Repr

def MeteringCheckpointDecision.isAccepted : MeteringCheckpointDecision → Bool
  | .accepted _ => true
  | _ => false

def MeteringCheckpointDecision.isDuplicate : MeteringCheckpointDecision → Bool
  | .duplicate _ => true
  | _ => false

structure InMemoryCheckpoint where
  streamId : String
  eventId : String
  sequence : ℕ
  deriving DecidableEq, Repr

abbrev InMemoryMeteringCheckpointStore := InsertionMap String InMemoryCheckpoint

structure MeteringCall where
  streamId : String
  eventId : String
  sequence : ℕ
  deriving DecidableEq, Repr

def MeteringCall.record (call : MeteringCall) : InMemoryCheckpoint :=
  ⟨call.streamId, call.eventId, call.sequence⟩

/-- The highest sequence among the records of a stream, 0 if there are none. -/
def latestSequence (streamId : String) (events : List InMemoryCheckpoint) : ℕ :=
  events.foldl (fun checkpoint event =>
    if event.streamId = streamId ∧ event.sequence > checkpoint then event.sequence
    else checkpoint) 0

/-- The decision for an event id that is not recorded yet. -/
def sequenceDecision (checkpoint sequence : ℕ) : MeteringCheckpointDecision :=
  let expectedSequence := checkpoint+1
  if sequence < expectedSequence then .late checkpoint
  else if sequence > expectedSequence+maxMeteringGap then .gapTooLarge expectedSequence sequence
  else if sequence > expectedSequence then .gap expectedSequence sequence
  else .accepted sequence

namespace InMemoryMeteringCheckpointStore

def apply (events : InMemoryMeteringCheckpointStore) (call : MeteringCall) :
    MeteringCheckpointDecision × InMemoryMeteringCheckpointStore :=
  match events.get call.eventId with
  | some existing => (.duplicate existing.sequence, events)
  | none =>
    let decision := sequenceDecision (latestSequence call.streamId events.values) call.sequence
    (decision, if decision.isAccepted then events.set call.eventId call.record else events)

def reset (_events : InMemoryMeteringCheckpointStore) : InMemoryMeteringCheckpointStore := .empty

def acceptedCalls (events : InMemoryMeteringCheckpointStore) (calls : List MeteringCall) :
    List MeteringCall :=
  ((log apply events calls).filter fun entry => entry.2.isAccepted).map Prod.fst

end InMemoryMeteringCheckpointStore

theorem latestSequence_append (streamId : String) (events : List InMemoryCheckpoint)
    (event : InMemoryCheckpoint) :
    latestSequence streamId (events ++ [event]) =
      if event.streamId = streamId then max (latestSequence streamId events) event.sequence
      else latestSequence streamId events := by
  simp only [latestSequence, List.foldl_append, List.foldl_cons, List.foldl_nil]
  by_cases hs : event.streamId = streamId
  · simp only [hs, true_and, ↓reduceIte, gt_iff_lt]
    split_ifs with hlt
    · exact (max_eq_right hlt.le).symm
    · exact (max_eq_left (not_lt.mp hlt)).symm
  · simp only [hs, false_and, ↓reduceIte]

theorem latestSequence_filter (streamId : String) (events : List InMemoryCheckpoint) :
    latestSequence streamId (events.filter fun event => event.streamId = streamId) =
      latestSequence streamId events := by
  induction events using List.reverseRecOn with
  | nil => rfl
  | append_singleton events event ih =>
    by_cases hs : event.streamId = streamId
    · rw [List.filter_append, List.filter_cons_of_pos (by simpa using hs), List.filter_nil,
        latestSequence_append, latestSequence_append, ih]
    · rw [List.filter_append, List.filter_cons_of_neg (by simpa using hs), List.filter_nil,
        List.append_nil, latestSequence_append, if_neg hs, ih]

theorem sequenceDecision_isAccepted_iff (checkpoint sequence : ℕ) :
    (sequenceDecision checkpoint sequence).isAccepted = true ↔ sequence = checkpoint+1 := by
  unfold sequenceDecision MeteringCheckpointDecision.isAccepted
  dsimp only
  split_ifs <;> simp <;> omega

theorem sequenceDecision_isDuplicate (checkpoint sequence : ℕ) :
    (sequenceDecision checkpoint sequence).isDuplicate = false := by
  unfold sequenceDecision MeteringCheckpointDecision.isDuplicate
  dsimp only
  split_ifs <;> rfl

namespace InMemoryMeteringCheckpointStore

/-- An accepted call is new, next in its stream, and recorded at the end. -/
theorem apply_accepted {events : InMemoryMeteringCheckpointStore} {call : MeteringCall}
    (h : (apply events call).1.isAccepted = true) :
    events.get call.eventId = none ∧
      call.sequence = latestSequence call.streamId events.values+1 ∧
      (apply events call).2 = events.set call.eventId call.record := by
  unfold apply at h ⊢
  cases hget : events.get call.eventId with
  | some existing => simp [hget, MeteringCheckpointDecision.isAccepted] at h
  | none =>
    simp only [hget] at h
    exact ⟨rfl, (sequenceDecision_isAccepted_iff _ _).mp h, by simp [h]⟩

theorem apply_of_next {events : InMemoryMeteringCheckpointStore} {call : MeteringCall}
    (hget : events.get call.eventId = none)
    (hseq : call.sequence = latestSequence call.streamId events.values+1) :
    apply events call = (.accepted call.sequence, events.set call.eventId call.record) := by
  have hdecision : sequenceDecision (latestSequence call.streamId events.values) call.sequence =
      .accepted call.sequence := by
    unfold sequenceDecision
    rw [← hseq]
    simp
  simp [apply, hget, hdecision, MeteringCheckpointDecision.isAccepted]

theorem values_set_record {events : InMemoryMeteringCheckpointStore} {call : MeteringCall}
    (hget : events.get call.eventId = none) :
    (events.set call.eventId call.record).values = events.values ++ [call.record] := by
  rw [InsertionMap.values, InsertionMap.entries_set_of_get_none _ _ hget, List.map_append]
  rfl

theorem apply_rejected {events : InMemoryMeteringCheckpointStore} {call : MeteringCall}
    (h : (apply events call).1.isAccepted = false) : (apply events call).2 = events := by
  unfold apply at h ⊢
  cases hget : events.get call.eventId with
  | some existing => rfl
  | none =>
    simp only [hget] at h
    simp [h]

theorem apply_duplicate {events : InMemoryMeteringCheckpointStore} {call : MeteringCall}
    (h : (apply events call).1.isDuplicate = true) :
    ∃ record, events.get call.eventId = some record := by
  cases hget : events.get call.eventId with
  | some record => exact ⟨record, rfl⟩
  | none =>
    simp only [apply, hget, sequenceDecision_isDuplicate] at h
    exact absurd h (by simp)

theorem entries_apply (events : InMemoryMeteringCheckpointStore) (call : MeteringCall) :
    (apply events call).2.entries = events.entries ++
      if (apply events call).1.isAccepted then [(call.eventId, call.record)] else [] := by
  cases h : (apply events call).1.isAccepted with
  | false => simp [apply_rejected h]
  | true =>
    obtain ⟨hget,_,hset⟩ := apply_accepted h
    rw [hset, InsertionMap.entries_set_of_get_none _ _ hget, if_pos rfl]

theorem acceptedCalls_cons (events : InMemoryMeteringCheckpointStore) (call : MeteringCall)
    (calls : List MeteringCall) :
    acceptedCalls events (call :: calls) =
      (if (apply events call).1.isAccepted then [call] else []) ++
        acceptedCalls (apply events call).2 calls := by
  rw [acceptedCalls, log, List.filter_cons, acceptedCalls]
  split_ifs <;> rfl

/-- The store lists the accepted calls, and nothing else. -/
theorem entries_run (events : InMemoryMeteringCheckpointStore) (calls : List MeteringCall) :
    (run apply events calls).entries = events.entries ++
      (acceptedCalls events calls).map fun call => (call.eventId, call.record) := by
  induction calls generalizing events with
  | nil => simp [run, acceptedCalls, log]
  | cons call calls ih =>
    rw [run, ih, entries_apply, acceptedCalls_cons, List.map_append, List.append_assoc]
    split_ifs <;> rfl

/-- The sequences a stream accepts continue its checkpoint without a gap. -/
theorem accepted_sequences (events : InMemoryMeteringCheckpointStore) (calls : List MeteringCall)
    (streamId : String) :
    ∃ n, ((acceptedCalls events calls).filter fun call => call.streamId = streamId).map
        MeteringCall.sequence = List.range' (latestSequence streamId events.values+1) n := by
  -- over the calls: the rest of the run continues the checkpoint the first call leaves
  induction calls generalizing events with
  | nil => exact ⟨0, rfl⟩
  | cons call calls ih =>
    obtain ⟨n,hn⟩ := ih (apply events call).2
    rw [acceptedCalls_cons]
    cases h : (apply events call).1.isAccepted with
    | false =>
      rw [apply_rejected h] at hn ⊢
      exact ⟨n, by simpa using hn⟩
    | true =>
      obtain ⟨hget,hseq,hset⟩ := apply_accepted h
      rw [hset] at hn ⊢
      rw [values_set_record hget, latestSequence_append] at hn
      by_cases hs : call.streamId = streamId
      · -- the accepted sequence is the new checkpoint of this stream
        refine ⟨n+1, ?_⟩
        have hmax : max (latestSequence streamId events.values) call.record.sequence =
            call.sequence := by
          rw [hs] at hseq
          exact max_eq_right (by simp only [MeteringCall.record, hseq]; omega)
        rw [if_pos (show call.record.streamId = streamId from hs), hmax] at hn
        rw [if_pos rfl, List.filter_append, List.map_append, hn, List.range'_succ,
          List.filter_cons_of_pos (by simpa using hs)]
        simp [hs ▸ hseq]
      · -- a call of another stream leaves this checkpoint and is filtered out
        refine ⟨n, ?_⟩
        rw [if_neg (show ¬ call.record.streamId = streamId from hs)] at hn
        rw [if_pos rfl, List.filter_append, List.filter_cons_of_neg (by simpa using hs)]
        exact hn

/-- The decision on a new event id depends on the records of its stream only. -/
theorem apply_decision_local {events events' : InMemoryMeteringCheckpointStore}
    {call : MeteringCall} (hnew : events.get call.eventId = none)
    (hnew' : events'.get call.eventId = none)
    (hsame : (events.values.filter fun event => event.streamId = call.streamId) =
      events'.values.filter fun event => event.streamId = call.streamId) :
    (apply events call).1 = (apply events' call).1 := by
  have hlatest : latestSequence call.streamId events.values =
      latestSequence call.streamId events'.values := by
    rw [← latestSequence_filter, hsame, latestSequence_filter]
  simp only [apply, hnew, hnew', hlatest]

/-- Runs of the metering store: each stream accepts exactly 1, 2, .., n in
order, no event id is recorded twice, every other decision changes nothing,
and other streams have no say in the decision on a new event id. -/
theorem metering_runs_contiguous (calls : List MeteringCall) :
    (∀ streamId, ∃ n, ((acceptedCalls .empty calls).filter
        fun call => call.streamId = streamId).map MeteringCall.sequence = List.range' 1 n) ∧
    ((acceptedCalls .empty calls).map MeteringCall.eventId).Nodup ∧
    (∀ call, (apply (run apply .empty calls) call).1.isAccepted = false →
      (apply (run apply .empty calls) call).2 = run apply .empty calls) ∧
    (∀ (calls' : List MeteringCall) (call : MeteringCall),
      (run apply .empty calls).get call.eventId = none →
      (run apply .empty calls').get call.eventId = none →
      ((run apply .empty calls).values.filter fun event => event.streamId = call.streamId) =
        ((run apply .empty calls').values.filter fun event => event.streamId = call.streamId) →
      (apply (run apply .empty calls) call).1 = (apply (run apply .empty calls') call).1) := by
  refine ⟨fun streamId => accepted_sequences .empty calls streamId, ?_,
    fun _ h => apply_rejected h, fun _ _ h h' hsame => apply_decision_local h h' hsame⟩
  -- the keys of the map are the event ids of the accepted calls
  have hnodup := (run apply .empty calls).nodup
  rw [entries_run] at hnodup
  simpa [InsertionMap.empty, Function.comp_def] using hnodup

end InMemoryMeteringCheckpointStore

end StreamPay
