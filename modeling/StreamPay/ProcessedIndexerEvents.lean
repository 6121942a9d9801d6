import StreamPay.Library.InsertionMap
import StreamPay.Library.Lockstep

/-! The replay guard of the indexer webhook: the PostgreSQL repository, one
definition per SQL statement, and its in-memory twin. -/
namespace StreamPay
open Lockstep

inductive ProcessedIndexerEventStatus
  | processing | completed | failed
  deriving DecidableEq, Repr

inductive ProcessedIndexerEventClaim
  | claimed | duplicate | inProgress | conflict
  deriving DecidableEq, Repr

/-- A row of `processed_indexer_events` without its primary key. -/
structure ProcessedIndexerEvent where
  payloadHash : String
  status : ProcessedIndexerEventStatus
  deriving DecidableEq, Repr

abbrev ProcessedIndexerEvents := InsertionMap String ProcessedIndexerEvent

namespace ProcessedIndexerEventRepository

/-- `INSERT .. ON CONFLICT (event_id) DO NOTHING`. -/
def insertEvent (table : ProcessedIndexerEvents) (eventId fingerprint : String) :
    ProcessedIndexerEvents :=
  if table.has eventId then table else table.set eventId ⟨fingerprint, .processing⟩

/-- `SELECT payload_hash, status .. WHERE event_id = ..`. -/
def selectEvent (table : ProcessedIndexerEvents) (eventId : String) :
    Option ProcessedIndexerEvent :=
  table.get eventId

/-- `UPDATE .. SET status = .. WHERE event_id = ..`. -/
def updateStatus (table : ProcessedIndexerEvents) (eventId : String)
    (status : ProcessedIndexerEventStatus) : ProcessedIndexerEvents :=
  table.modify eventId fun row => { row with status := status }

/-- What `claim` answers from the row its SELECT found. The conflict target is
the only unique key, so the 23505 branch of the source is never taken. -/
def claimAnswer (existing : Option ProcessedIndexerEvent) (fingerprint : String) :
    ProcessedIndexerEventClaim :=
  match existing with
  | none => .conflict
  | some row =>
    if row.payloadHash ≠ fingerprint then .conflict
    else match row.status with
      | .completed => .duplicate
      | .processing => .inProgress
      | .failed => .claimed

def claim (table : ProcessedIndexerEvents) (eventId fingerprint : String) :
    ProcessedIndexerEventClaim × ProcessedIndexerEvents :=
  let inserted := insertEvent table eventId fingerprint
  -- the SELECT runs after the INSERT, so it also finds a row this call has made
  (claimAnswer (selectEvent inserted eventId) fingerprint, inserted)

def complete (table : ProcessedIndexerEvents) (eventId : String) : ProcessedIndexerEvents :=
  updateStatus table eventId .completed

def fail (table : ProcessedIndexerEvents) (eventId : String) : ProcessedIndexerEvents :=
  updateStatus table eventId .failed

def reset (_table : ProcessedIndexerEvents) : ProcessedIndexerEvents := .empty

end ProcessedIndexerEventRepository

structure InMemoryProcessedIndexerEvent where
  fingerprint : String
  status : ProcessedIndexerEventStatus
  deriving DecidableEq, Repr

abbrev InMemoryProcessedIndexerEventStore := InsertionMap String InMemoryProcessedIndexerEvent

namespace InMemoryProcessedIndexerEventStore

def claim (events : InMemoryProcessedIndexerEventStore) (eventId fingerprint : String) :
    ProcessedIndexerEventClaim × InMemoryProcessedIndexerEventStore :=
  match events.get eventId with
  | none => (.claimed, events.set eventId ⟨fingerprint, .processing⟩)
  | some existing =>
    if existing.fingerprint ≠ fingerprint then (.conflict, events)
    else match existing.status with
      | .completed => (.duplicate, events)
      | .processing => (.inProgress, events)
      -- unlike the repository, a retry is marked as being processed again
      | .failed => (.claimed, events.set eventId { existing with status := .processing })

def complete (events : InMemoryProcessedIndexerEventStore) (eventId : String) :
    InMemoryProcessedIndexerEventStore :=
  events.modify eventId fun event => { event with status := .completed }

def fail (events : InMemoryProcessedIndexerEventStore) (eventId : String) :
    InMemoryProcessedIndexerEventStore :=
  events.modify eventId fun event => { event with status := .failed }

def reset (_events : InMemoryProcessedIndexerEventStore) : InMemoryProcessedIndexerEventStore :=
  .empty

end InMemoryProcessedIndexerEventStore

/-- The calls of the `ProcessedIndexerEventStore` interface. -/
inductive ProcessedIndexerEventCall
  | claim (eventId fingerprint : String)
  | complete (eventId : String)
  | fail (eventId : String)
  | reset
  deriving DecidableEq, Repr

/-- One call on the repository; only `claim` has an answer. -/
def ProcessedIndexerEventRepository.step (table : ProcessedIndexerEvents) :
    ProcessedIndexerEventCall → Option ProcessedIndexerEventClaim × ProcessedIndexerEvents
  | .claim eventId fingerprint => ((claim table eventId fingerprint).map some id)
  | .complete eventId => (none, complete table eventId)
  | .fail eventId => (none, fail table eventId)
  | .reset => (none, reset table)

def InMemoryProcessedIndexerEventStore.step (events : InMemoryProcessedIndexerEventStore) :
    ProcessedIndexerEventCall →
      Option ProcessedIndexerEventClaim × InMemoryProcessedIndexerEventStore
  | .claim eventId fingerprint => ((claim events eventId fingerprint).map some id)
  | .complete eventId => (none, complete events eventId)
  | .fail eventId => (none, fail events eventId)
  | .reset => (none, reset events)

def SameEvents (table : ProcessedIndexerEvents) (events : InMemoryProcessedIndexerEventStore) :
    Prop :=
  ∀ eventId, (table.get eventId).map (fun row => (row.payloadHash, row.status)) =
    (events.get eventId).map (fun event => (event.fingerprint, event.status))

def SameOutcome (r : Option ProcessedIndexerEventClaim × ProcessedIndexerEvents)
    (m : Option ProcessedIndexerEventClaim × InMemoryProcessedIndexerEventStore) : Prop :=
  r.1 = m.1 ∧ SameEvents r.2 m.2

/-- A claim finds a row for its event id, and that row is not its own failed one. -/
def ClaimsSettled (table : ProcessedIndexerEvents) : ProcessedIndexerEventCall → Prop
  | .claim eventId fingerprint => ∃ row, table.get eventId = some row ∧
      ¬ (row.payloadHash = fingerprint ∧ row.status = .failed)
  | _ => True

theorem same_events_empty : SameEvents .empty .empty := fun _ => rfl

theorem SameEvents.get_eq {table : ProcessedIndexerEvents}
    {events : InMemoryProcessedIndexerEventStore} (h : SameEvents table events) (eventId : String) :
    events.get eventId =
      (table.get eventId).map (fun row => ⟨row.payloadHash, row.status⟩) := by
  have hid := h eventId
  cases ht : table.get eventId with
  | none =>
    rw [ht] at hid
    exact Option.map_eq_none_iff.mp hid.symm
  | some row =>
    rw [ht] at hid
    obtain ⟨event, he, hpair⟩ := Option.map_eq_some_iff.mp hid.symm
    obtain ⟨hf,hs⟩ := Prod.mk.inj hpair
    rw [he, Option.map_some, ← hf, ← hs]

theorem SameEvents.updateStatus {table : ProcessedIndexerEvents}
    {events : InMemoryProcessedIndexerEventStore} (h : SameEvents table events) (eventId : String)
    (status : ProcessedIndexerEventStatus) :
    SameEvents (ProcessedIndexerEventRepository.updateStatus table eventId status)
      (events.modify eventId fun event => { event with status := status }) := by
  intro other
  simp only [ProcessedIndexerEventRepository.updateStatus, InsertionMap.get_modify]
  split_ifs with ho
  · simp only [h.get_eq, Option.map_map]
    rfl
  · exact h other

/-- A claim answers alike and leaves the maps alike exactly when it is settled
by a row already there. -/
theorem claim_same_outcome_iff {table : ProcessedIndexerEvents}
    {events : InMemoryProcessedIndexerEventStore} (h : SameEvents table events)
    (eventId fingerprint : String) :
    SameOutcome (ProcessedIndexerEventRepository.step table (.claim eventId fingerprint))
        (InMemoryProcessedIndexerEventStore.step events (.claim eventId fingerprint)) ↔
      ClaimsSettled table (.claim eventId fingerprint) := by
  have hm := h.get_eq eventId
  -- by the row under the event id, and then by its status
  cases ht : table.get eventId with
  | none =>
    -- a first claim: the repository selects the row it has just inserted
    rw [ht] at hm
    simp [SameOutcome, ProcessedIndexerEventRepository.step, InMemoryProcessedIndexerEventStore.step,
      ProcessedIndexerEventRepository.claim, ProcessedIndexerEventRepository.insertEvent,
      ProcessedIndexerEventRepository.selectEvent, ProcessedIndexerEventRepository.claimAnswer,
      InMemoryProcessedIndexerEventStore.claim, InsertionMap.has, ClaimsSettled, ht, hm]
  | some row =>
    rw [ht] at hm
    have hclaim : ProcessedIndexerEventRepository.claim table eventId fingerprint =
        (ProcessedIndexerEventRepository.claimAnswer (some row) fingerprint, table) := by
      simp [ProcessedIndexerEventRepository.claim, ProcessedIndexerEventRepository.insertEvent,
        ProcessedIndexerEventRepository.selectEvent, InsertionMap.has, ht]
    by_cases hf : row.payloadHash = fingerprint
    · cases hs : row.status with
      | failed =>
        -- a retry: the in-memory store marks the row processing, the table keeps it failed
        have hne : ¬ SameEvents table (events.set eventId ⟨row.payloadHash, .processing⟩) := by
          intro hsame
          simpa [ht, hs] using hsame eventId
        simp [SameOutcome, ProcessedIndexerEventRepository.step,
          InMemoryProcessedIndexerEventStore.step, InMemoryProcessedIndexerEventStore.claim,
          hclaim, hm, hs, hf, ClaimsSettled, ht, hf ▸ hne]
      | processing | completed =>
        simp [SameOutcome, ProcessedIndexerEventRepository.step,
          InMemoryProcessedIndexerEventStore.step, InMemoryProcessedIndexerEventStore.claim,
          ProcessedIndexerEventRepository.claimAnswer, hclaim, hm, hs, hf, ClaimsSettled, ht, h]
    · simp [SameOutcome, ProcessedIndexerEventRepository.step,
        InMemoryProcessedIndexerEventStore.step, InMemoryProcessedIndexerEventStore.claim,
        ProcessedIndexerEventRepository.claimAnswer, hclaim, hm, hf, ClaimsSettled, ht, h]

theorem step_same_outcome_iff {table : ProcessedIndexerEvents}
    {events : InMemoryProcessedIndexerEventStore} (h : SameEvents table events)
    (call : ProcessedIndexerEventCall) :
    SameOutcome (ProcessedIndexerEventRepository.step table call)
      (InMemoryProcessedIndexerEventStore.step events call) ↔ ClaimsSettled table call := by
  cases call with
  | claim eventId fingerprint => exact claim_same_outcome_iff h eventId fingerprint
  | complete eventId => exact iff_of_true ⟨rfl, h.updateStatus eventId .completed⟩ trivial
  | fail eventId => exact iff_of_true ⟨rfl, h.updateStatus eventId .failed⟩ trivial
  | reset => exact iff_of_true ⟨rfl, same_events_empty⟩ trivial

/-- From any common map, the two stores stay together exactly as long as every
claim is settled by a row already there. -/
theorem stores_agree_iff_claims_settled {table : ProcessedIndexerEvents}
    {events : InMemoryProcessedIndexerEventStore} (h : SameEvents table events)
    (calls : List ProcessedIndexerEventCall) :
    Agree ProcessedIndexerEventRepository.step InMemoryProcessedIndexerEventStore.step
        SameOutcome table events calls ↔
      Along ProcessedIndexerEventRepository.step InMemoryProcessedIndexerEventStore.step
        (fun t _ call => ClaimsSettled t call) table events calls :=
  agree_iff_along SameEvents (fun _ _ call hR => step_same_outcome_iff hR call)
    (fun _ _ call hR hC => ((step_same_outcome_iff hR call).mpr hC).2) table events calls h

/-- Only a claim adds a row, so until one is made the table stays empty. -/
theorem claims_settled_from_empty_iff (events : InMemoryProcessedIndexerEventStore)
    (calls : List ProcessedIndexerEventCall) :
    Along ProcessedIndexerEventRepository.step InMemoryProcessedIndexerEventStore.step
        (fun t _ call => ClaimsSettled t call) .empty events calls ↔
      ∀ eventId fingerprint, ProcessedIndexerEventCall.claim eventId fingerprint ∉ calls := by
  induction calls generalizing events with
  | nil => simp [Along]
  | cons call calls ih =>
    cases call with
    | claim eventId fingerprint =>
      apply iff_of_false
      · rintro ⟨⟨row,hrow,_⟩,_⟩
        simp at hrow
      · intro hno
        exact hno eventId fingerprint List.mem_cons_self
    | complete _ | fail _ | reset =>
      -- an update of the empty table is the empty table again
      exact (and_iff_right trivial).trans ((ih _).trans (by simp))

/-- Started empty, the repository answers as its in-memory twin and holds the
same map at every step exactly when nothing is ever claimed. -/
theorem repository_agrees_iff_never_claimed (calls : List ProcessedIndexerEventCall) :
    Agree ProcessedIndexerEventRepository.step InMemoryProcessedIndexerEventStore.step
        SameOutcome .empty .empty calls ↔
      ∀ eventId fingerprint, ProcessedIndexerEventCall.claim eventId fingerprint ∉ calls :=
  (stores_agree_iff_claims_settled same_events_empty calls).trans
    (claims_settled_from_empty_iff .empty calls)

/-- The first claim of an event is answered `in_progress` instead of `claimed`. -/
theorem first_claim_disagrees :
    ¬ ∀ calls : List ProcessedIndexerEventCall,
      Agree ProcessedIndexerEventRepository.step InMemoryProcessedIndexerEventStore.step
        SameOutcome .empty .empty calls := by
  intro h
  have hfirst := (h [.claim "evt-1" "hash-1"]).1.1
  exact absurd hfirst (by decide)

end StreamPay
