import StreamPay.MeteringCheckpoints
import StreamPay.Library.Interleaving

/-! Concurrent transactions of the PostgreSQL metering checkpoint store under
READ COMMITTED. Each statement is one step on the committed rows; the advisory
lock is held per hashed stream id until its transaction ends. -/
namespace StreamPay
open Lockstep Interleaving InMemoryMeteringCheckpointStore

/-- The committed rows of `metering_event_checkpoints`, by primary key. -/
abbrev MeteringEventCheckpoints := InsertionMap String InMemoryCheckpoint

/-- `SELECT max(sequence) .. WHERE stream_id = ..`, NULL when no row matches. -/
def selectLatest (table : MeteringEventCheckpoints) (streamId : String) : Option ℕ :=
  ((table.values.filter fun row => row.streamId = streamId).map InMemoryCheckpoint.sequence).max?

def InMemoryCheckpoint.conflicts (row row' : InMemoryCheckpoint) : Bool :=
  row.eventId = row'.eventId || (row.streamId = row'.streamId && row.sequence = row'.sequence)

inductive TxProgress
  | waiting
  | locked
  | unrecorded
  | inserting
  | inserted
  | decided (decision : MeteringCheckpointDecision)
  | returned (decision : MeteringCheckpointDecision)
  | threw
  deriving DecidableEq, Repr

def TxProgress.inFlight : TxProgress → Bool
  | .waiting | .returned _ | .threw => false
  | _ => true

structure TxSystem (ι κ : Type*) where
  table : MeteringEventCheckpoints
  /-- Holder of each advisory lock key. -/
  locks : κ → Option ι
  /-- Transactions whose row is inserted and not yet committed. -/
  pending : List ι
  progress : ι → TxProgress

/-- The next statement of a transaction, or an error that rolls it back. -/
inductive TxAction (ι : Type*)
  | next (i : ι)
  | abort (i : ι)

def TxAction.tx {ι : Type*} : TxAction ι → ι
  | .next i => i
  | .abort i => i

namespace TxSystem
variable {ι κ : Type*}

def start (table : MeteringEventCheckpoints) : TxSystem ι κ :=
  ⟨table, fun _ => none, [], fun _ => .waiting⟩

variable [DecidableEq ι] [DecidableEq κ]

def setProgress (s : TxSystem ι κ) (i : ι) (p : TxProgress) : TxSystem ι κ :=
  { s with progress := Function.update s.progress i p }

/-- End of a transaction: its lock and its uncommitted row are gone. -/
def finish (s : TxSystem ι κ) (i : ι) (key : κ) (p : TxProgress) : TxSystem ι κ where
  table := s.table
  locks := Function.update s.locks key none
  pending := s.pending.filter (· ≠ i)
  progress := Function.update s.progress i p

variable (hashtext : String → κ) (calls : ι → MeteringCall)

/-- `MeteringCheckpointRepository.apply`, statement by statement. A statement
that has to wait for another transaction is disabled. -/
def step (s : TxSystem ι κ) : TxAction ι → Option (TxSystem ι κ)
  | .next i =>
    let call := calls i
    let key := hashtext call.streamId
    match s.progress i with
    | .waiting =>
      -- `pg_advisory_xact_lock(hashtext(streamId))`
      if s.locks key = none then some { s with
        locks := Function.update s.locks key (some i)
        progress := Function.update s.progress i .locked }
      else none
    | .locked =>
      match s.table.get call.eventId with
      | some existing => some (s.setProgress i (.decided (.duplicate existing.sequence)))
      | none => some (s.setProgress i .unrecorded)
    | .unrecorded =>
      let decision := sequenceDecision ((selectLatest s.table call.streamId).getD 0) call.sequence
      some (s.setProgress i (if decision.isAccepted then .inserting else .decided decision))
    | .inserting =>
      -- a conflicting uncommitted row is waited for, a committed one raises 23505
      if s.pending.any fun j => (calls j).record.conflicts call.record then none
      else if s.table.has call.eventId || s.table.values.any fun row => row.conflicts call.record
      then some (s.finish i key .threw)
      else some { s with
        pending := i :: s.pending
        progress := Function.update s.progress i .inserted }
    -- COMMIT makes the row visible and lets the lock go in one step
    | .inserted => some { s.finish i key (.returned (.accepted call.sequence)) with
        table := s.table.set call.eventId call.record }
    | .decided decision => some (s.finish i key (.returned decision))
    | .returned _ | .threw => none
  | .abort i =>
    match s.progress i with
    | .waiting => some (s.setProgress i .threw)
    | .returned _ | .threw => none
    | _ => some (s.finish i (hashtext (calls i).streamId) .threw)

/-- What one step of transaction `i` can do, each with the guard it runs under. -/
inductive Move (s : TxSystem ι κ) (i : ι) : TxSystem ι κ → Prop
  | lock (hp : s.progress i = .waiting) (hfree : s.locks (hashtext (calls i).streamId) = none) :
      Move s i { s with
        locks := Function.update s.locks (hashtext (calls i).streamId) (some i)
        progress := Function.update s.progress i .locked }
  | duplicate (existing : InMemoryCheckpoint) (hp : s.progress i = .locked)
      (hget : s.table.get (calls i).eventId = some existing) :
      Move s i (s.setProgress i (.decided (.duplicate existing.sequence)))
  | unrecorded (hp : s.progress i = .locked) (hget : s.table.get (calls i).eventId = none) :
      Move s i (s.setProgress i .unrecorded)
  | reject (hp : s.progress i = .unrecorded) (hrej : (sequenceDecision
        (latestSequence (calls i).streamId s.table.values) (calls i).sequence).isAccepted = false) :
      Move s i (s.setProgress i (.decided (sequenceDecision
        (latestSequence (calls i).streamId s.table.values) (calls i).sequence)))
  | expected (hp : s.progress i = .unrecorded)
      (hseq : (calls i).sequence = latestSequence (calls i).streamId s.table.values+1) :
      Move s i (s.setProgress i .inserting)
  | insert (hp : s.progress i = .inserting) (hget : s.table.get (calls i).eventId = none)
      (hapart : ∀ j ∈ s.pending, (calls j).eventId ≠ (calls i).eventId) :
      Move s i { s with
        pending := i :: s.pending
        progress := Function.update s.progress i .inserted }
  | commit (hp : s.progress i = .inserted) :
      Move s i { s.finish i (hashtext (calls i).streamId)
          (.returned (.accepted (calls i).sequence)) with
        table := s.table.set (calls i).eventId (calls i).record }
  | answer (decision : MeteringCheckpointDecision) (hp : s.progress i = .decided decision) :
      Move s i (s.finish i (hashtext (calls i).streamId) (.returned decision))
  | throwWaiting (hp : s.progress i = .waiting) : Move s i (s.setProgress i .threw)
  | throwInFlight (hp : (s.progress i).inFlight = true) :
      Move s i (s.finish i (hashtext (calls i).streamId) .threw)

end TxSystem

theorem foldl_max_getD (xs : List ℕ) : xs.max?.getD 0 = xs.foldl max 0 := by
  cases xs with
  | nil => rfl
  | cons x xs =>
    rw [List.max?_cons', Option.getD_some, List.foldl_cons, Nat.zero_max]

/-- The SQL aggregate and the loop of the in-memory store find the same checkpoint. -/
theorem selectLatest_getD (table : MeteringEventCheckpoints) (streamId : String) :
    (selectLatest table streamId).getD 0 = latestSequence streamId table.values := by
  rw [selectLatest, foldl_max_getD]
  induction table.values using List.reverseRecOn with
  | nil => rfl
  | append_singleton events event ih =>
    rw [latestSequence_append, ← ih, List.filter_append, List.map_append, List.foldl_append]
    by_cases hs : event.streamId = streamId
    · simp [hs]
    · simp [hs]

namespace TxSystem
variable {ι κ : Type*} [DecidableEq ι] [DecidableEq κ]
  {hashtext : String → κ} {calls : ι → MeteringCall} {s s' : TxSystem ι κ}

theorem move_of_step {a : TxAction ι} (h : step hashtext calls s a = some s') :
    Move hashtext calls s a.tx s' := by
  -- by where the transaction stands
  cases a with
  | next i =>
    change Move hashtext calls s i s'
    cases hp : s.progress i with
    | waiting =>
      simp only [step, hp] at h
      split_ifs at h with hfree
      obtain rfl := Option.some.inj h
      exact .lock hp hfree
    | locked =>
      simp only [step, hp] at h
      split at h <;> obtain rfl := Option.some.inj h
      · exact .duplicate _ hp ‹_›
      · exact .unrecorded hp ‹_›
    | unrecorded =>
      simp only [step, hp, selectLatest_getD] at h
      obtain rfl := Option.some.inj h
      split_ifs with hacc
      · exact .expected hp ((sequenceDecision_isAccepted_iff _ _).mp hacc)
      · exact .reject hp (Bool.eq_false_iff.mpr hacc)
    | inserting =>
      simp only [step, hp] at h
      split_ifs at h with hwait hconf <;> obtain rfl := Option.some.inj h
      · exact .throwInFlight (by rw [hp]; rfl)
      · -- no conflict with a committed row, so in particular a free event id
        have hget : s.table.get (calls i).eventId = none := by
          rw [Bool.or_eq_true, not_or] at hconf
          simpa [InsertionMap.has] using hconf.1
        refine .insert hp hget fun j hj he => hwait (List.any_eq_true.mpr ⟨j, hj, ?_⟩)
        simp [InMemoryCheckpoint.conflicts, MeteringCall.record, he]
    | inserted =>
      simp only [step, hp] at h
      obtain rfl := Option.some.inj h
      exact .commit hp
    | decided decision =>
      simp only [step, hp] at h
      obtain rfl := Option.some.inj h
      exact .answer decision hp
    | returned _ | threw => simp [step, hp] at h
  | abort i =>
    change Move hashtext calls s i s'
    cases hp : s.progress i with
    | waiting =>
      simp only [step, hp] at h
      obtain rfl := Option.some.inj h
      exact .throwWaiting hp
    | locked | unrecorded | inserting | inserted | decided _ =>
      -- the lock is held, and the abort gives it back
      simp only [step, hp] at h
      obtain rfl := Option.some.inj h
      exact .throwInFlight (by rw [hp]; rfl)
    | returned _ | threw => simp [step, hp] at h

/-- The committed rows change only in the step in which an accepted call returns. -/
theorem table_eq_of_move {i : ι} (h : Move hashtext calls s i s')
    (hnot : ∀ decision, s'.progress i ≠ .returned decision) : s'.table = s.table := by
  cases h with
  | commit hp => exact absurd (by simp [finish]) (hnot (.accepted (calls i).sequence))
  | _ => rfl

end TxSystem

end StreamPay
