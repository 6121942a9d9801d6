import StreamPay.EventIngestion
import StreamPay.MeteringTransactions
import StreamPay.StreamRepository

/-! What the columns of `metering_event_checkpoints` take of the events that the
payload check lets through. -/
namespace StreamPay
open Interleaving

/-- A row of `metering_event_checkpoints` that the database takes as it is; a text that is
too long is no such row, also where the database would cut it since it ends in spaces. -/
def MeteringCall.fitsColumns (call : MeteringCall) : Bool :=
  isVarchar 255 call.eventId && isVarchar 255 call.streamId && isInteger call.sequence

namespace MeteringCheckpointRepository

/-- `MeteringCheckpointRepository.apply` in a transaction that runs alone; `none`
where it throws. -/
def apply (table : MeteringEventCheckpoints) (call : MeteringCall) :
    Option MeteringCheckpointDecision × MeteringEventCheckpoints :=
  -- the lock and the two queries can take any text without a NUL
  if !(isColumnText call.streamId && isColumnText call.eventId) then (none, table)
  else match table.get call.eventId with
  | some existing => (some (.duplicate existing.sequence), table)
  | none =>
    let decision := sequenceDecision ((selectLatest table call.streamId).getD 0) call.sequence
    if !decision.isAccepted then (some decision, table)
    -- the event id is free, the index on stream and sequence is checked by the INSERT
    else if call.fitsColumns && !table.values.any fun row =>
        row.streamId = call.streamId && row.sequence = call.sequence then
      (some decision, table.set call.eventId call.record)
    else (none, table)

/-- The answer tells that the event was accepted. -/
def accepts (table : MeteringEventCheckpoints) (call : MeteringCall) : Bool :=
  (apply table call).1.any MeteringCheckpointDecision.isAccepted

theorem isColumnText_of_fitsColumns {call : MeteringCall} (h : call.fitsColumns = true) :
    (isColumnText call.streamId && isColumnText call.eventId) = true := by
  simp only [MeteringCall.fitsColumns, isVarchar, Bool.and_eq_true] at h ⊢
  exact ⟨h.1.2.2, h.1.1.2⟩

theorem sequence_le_latestSequence {events : List InMemoryCheckpoint} {row : InMemoryCheckpoint}
    (h : row ∈ events) : row.sequence ≤ latestSequence row.streamId events := by
  induction events using List.reverseRecOn with
  | nil => cases h
  | append_singleton events event ih =>
    rw [latestSequence_append]
    rcases List.mem_append.mp h with hmem | hlast
    · have hle := ih hmem
      split_ifs
      · exact hle.trans (le_max_left _ _)
      · exact hle
    · obtain rfl := List.mem_singleton.mp hlast
      rw [if_pos rfl]
      exact le_max_right _ _

/-- The next sequence of a stream is free in the index. -/
theorem index_free {table : MeteringEventCheckpoints} {call : MeteringCall}
    (hseq : call.sequence = latestSequence call.streamId table.values+1) :
    (table.values.any fun row => row.streamId = call.streamId && row.sequence = call.sequence) =
      false := by
  apply List.any_eq_false.mpr
  intro row hrow htaken
  simp only [Bool.and_eq_true, decide_eq_true_eq] at htaken
  obtain ⟨hstream,hsame⟩ := htaken
  have hle := sequence_le_latestSequence hrow
  rw [hstream] at hle
  omega

section Alone
variable {κ : Type*} [DecidableEq κ] (hashtext : String → κ)

/-- A transaction that runs alone on a row that fits comes to the same decision and
the same table, statement by statement. -/
theorem exec_alone (table : MeteringEventCheckpoints) (call : MeteringCall)
    (hfits : call.fitsColumns = true)
    (hkeys : ∀ row ∈ table.values, row.eventId = call.eventId → table.has call.eventId = true) :
    ∃ (n : ℕ) (decision : MeteringCheckpointDecision),
      (exec (TxSystem.step hashtext fun _ => call) (TxSystem.start table)
        (List.replicate n (.next ()))).map (fun s => (s.progress (), s.table)) =
        some (.returned decision, (apply table call).2) ∧ (apply table call).1 = some decision := by
  have htext := isColumnText_of_fitsColumns hfits
  cases hget : table.get call.eventId with
  | some existing =>
    refine ⟨3, .duplicate existing.sequence, ?_, ?_⟩
    · simp [List.replicate, exec, TxSystem.step, TxSystem.start, TxSystem.setProgress,
        TxSystem.finish, hget, apply, htext]
    · simp [apply, htext, hget]
  | none =>
    cases haccepted : (sequenceDecision (latestSequence call.streamId table.values)
      call.sequence).isAccepted with
    | false =>
      refine ⟨4, sequenceDecision (latestSequence call.streamId table.values) call.sequence, ?_, ?_⟩
      · simp [List.replicate, exec, TxSystem.step, TxSystem.start, TxSystem.setProgress,
          TxSystem.finish, hget, apply, htext, selectLatest_getD, haccepted]
      · simp [apply, htext, hget, selectLatest_getD, haccepted]
    | true =>
      have hseq := (sequenceDecision_isAccepted_iff _ _).mp haccepted
      have hfree := index_free hseq
      have hdecision : sequenceDecision (latestSequence call.streamId table.values) call.sequence =
          .accepted call.sequence := by
        unfold sequenceDecision
        rw [← hseq]
        simp
      have hconflicts : ¬ ∃ row ∈ table.values, row.conflicts call.record = true := by
        rintro ⟨row,hrow,hconflict⟩
        rcases Bool.or_eq_true_iff.mp hconflict with hid | htaken
        · have hhas := hkeys row hrow (of_decide_eq_true hid)
          rw [InsertionMap.has, hget] at hhas
          cases hhas
        · exact List.any_eq_false.mp hfree row hrow htaken
      refine ⟨5, .accepted call.sequence, ?_, ?_⟩
      · simp [List.replicate, exec, TxSystem.step, TxSystem.start, TxSystem.setProgress,
          TxSystem.finish, hget, apply, htext, selectLatest_getD, haccepted, hconflicts, hfits,
          hfree, InsertionMap.has]
      · simp [apply, htext, hget, selectLatest_getD, hdecision, hfits, hfree,
          MeteringCheckpointDecision.isAccepted]

end Alone

end MeteringCheckpointRepository

section LongIds

end LongIds

end StreamPay
