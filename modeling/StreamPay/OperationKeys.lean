import Mathlib.Data.List.Pairwise
import StreamPay.ReconciliationCounters

/-! The operation keys of the corrections of any number of jobs that share the
in-memory source and the checkpoint store. -/
namespace StreamPay
open Interleaving

/-- The other job id goes on behind this one with a colon and a text that, with a
colon behind it, begins this record id. -/
def Continues (jobId recordId jobId' recordId' : String) : Prop :=
  ∃ middle, jobId' = jobId ++ ":" ++ middle ∧ recordId = middle ++ ":" ++ recordId'

/-- Two corrections whose ids are joined to one key in different ways. -/
def Collide (jobId recordId jobId' recordId' : String) : Prop :=
  Continues jobId recordId jobId' recordId' ∨ Continues jobId' recordId' jobId recordId

/-- One text cut at two places that hold the same letter. -/
theorem append_cons_eq_append_cons_iff {α : Type*} {a : α} {before before' after after' : List α} :
    before ++ a :: after = before' ++ a :: after' ↔
      (before = before' ∧ after = after') ∨
      (∃ middle, before' = before ++ a :: middle ∧ after = middle ++ a :: after') ∨
      ∃ middle, before = before' ++ a :: middle ∧ after' = middle ++ a :: after := by
  constructor
  · intro h
    rcases List.append_eq_append_iff.mp h with ⟨middle,hbefore,hafter⟩ | ⟨middle,hbefore,hafter⟩
    · cases middle with
      | nil => exact Or.inl ⟨by rw [hbefore, List.append_nil], (List.cons.inj hafter).2⟩
      | cons b middle =>
        obtain ⟨rfl,hrest⟩ := List.cons.inj hafter
        exact Or.inr (Or.inl ⟨middle, hbefore, hrest⟩)
    · cases middle with
      | nil => exact Or.inl ⟨by rw [hbefore, List.append_nil], (List.cons.inj hafter).2.symm⟩
      | cons b middle =>
        obtain ⟨rfl,hrest⟩ := List.cons.inj hafter
        exact Or.inr (Or.inr ⟨middle, hbefore, hrest⟩)
  · rintro (⟨rfl,rfl⟩ | ⟨middle,rfl,rfl⟩ | ⟨middle,rfl,rfl⟩)
    · rfl
    · simp
    · simp

theorem exists_string {P : List Char → Prop} : (∃ cs, P cs) ↔ ∃ s : String, P s.toList := by
  constructor
  · rintro ⟨cs,h⟩
    exact ⟨String.ofList cs, by rwa [String.toList_ofList]⟩
  · rintro ⟨s,h⟩
    exact ⟨s.toList, h⟩

theorem makeOperationKey_eq_iff {jobId recordId jobId' recordId' : String} :
    makeOperationKey jobId recordId = makeOperationKey jobId' recordId' ↔
      (jobId = jobId' ∧ recordId = recordId') ∨ Collide jobId recordId jobId' recordId' := by
  have hcut : makeOperationKey jobId recordId = makeOperationKey jobId' recordId' ↔
      jobId.toList ++ ':' :: recordId.toList = jobId'.toList ++ ':' :: recordId'.toList := by
    unfold makeOperationKey
    rw [← String.toList_inj]
    simp
  have hcontinues (job record job' record' : String) : Continues job record job' record' ↔
      ∃ middle, job'.toList = job.toList ++ ':' :: middle ∧
        record.toList = middle ++ ':' :: record'.toList := by
    rw [exists_string]
    refine exists_congr fun middle => ?_
    rw [← String.toList_inj, ← @String.toList_inj record]
    simp
  rw [hcut, append_cons_eq_append_cons_iff, Collide, hcontinues, hcontinues, String.toList_inj,
    String.toList_inj]

theorem Continues.ne {jobId recordId jobId' recordId' : String}
    (h : Continues jobId recordId jobId' recordId') : jobId ≠ jobId' := by
  obtain ⟨middle,rfl,_⟩ := h
  intro hsame
  have hlength := congrArg String.length hsame
  simp only [String.length_append] at hlength
  have hcolon : (":" : String).length = 1 := by decide
  omega

theorem Collide.ne {jobId recordId jobId' recordId' : String}
    (h : Collide jobId recordId jobId' recordId') : jobId ≠ jobId' :=
  h.elim Continues.ne fun h' => h'.ne.symm

theorem Collide.symm {jobId recordId jobId' recordId' : String}
    (h : Collide jobId recordId jobId' recordId') : Collide jobId' recordId' jobId recordId :=
  Or.symm h

/-- Job ids without a colon are safe, whatever the record ids. -/
theorem not_collide_of_no_colon {jobId jobId' : String} (h : ':' ∉ jobId.toList)
    (h' : ':' ∉ jobId'.toList) (recordId recordId' : String) :
    ¬ Collide jobId recordId jobId' recordId' := by
  rintro (⟨middle,rfl,_⟩ | ⟨middle,rfl,_⟩)
  · exact h' (by simp)
  · exact h (by simp)

/-- The corrections among some effects have the keys of the job. -/
def Keyed (jobId : String) (effects : List ReconciliationEffect) : Prop :=
  ∀ mismatch, .applyMismatch mismatch ∈ effects →
    mismatch.operationKey = makeOperationKey jobId mismatch.id

theorem Keyed.append {jobId : String} {effects effects' : List ReconciliationEffect}
    (h : Keyed jobId effects) (h' : Keyed jobId effects') : Keyed jobId (effects ++ effects') :=
  fun mismatch hmem => (List.mem_append.mp hmem).elim (h mismatch) (h' mismatch)

theorem Keyed.save (jobId : String) (checkpoint : ReconciliationCheckpoint) :
    Keyed jobId [.save checkpoint] :=
  fun mismatch hmem => by simp at hmem

section
variable {config : ReconciliationConfig} {st st' : RunState}

theorem visitRecord_keyed {record : ReconciliationRecord} (h : Keyed config.jobId st.effects)
    (hvisit : visitRecord config st record = .ok st') : Keyed config.jobId st'.effects := by
  unfold visitRecord at hvisit
  split at hvisit
  · cases hvisit
  · split at hvisit
    · cases hvisit
    · obtain rfl := Except.ok.inj hvisit
      exact h
    · dsimp only at hvisit
      split_ifs at hvisit
      · obtain rfl := Except.ok.inj hvisit
        exact h
      · obtain rfl := Except.ok.inj hvisit
        exact h
      · obtain rfl := Except.ok.inj hvisit
        apply h.append
        intro mismatch hmem
        simp only [List.mem_cons, ReconciliationEffect.applyMismatch.injEq, reduceCtorEq,
          List.not_mem_nil, or_false] at hmem
        rw [hmem]

theorem visitRecords_keyed {batch : List ReconciliationRecord}
    {error : Option ReconciliationInputError} (h : Keyed config.jobId st.effects)
    (hvisits : visitRecords config batch st = (st', error)) : Keyed config.jobId st'.effects := by
  induction batch generalizing st with
  | nil =>
    obtain rfl := (Prod.mk.inj hvisits).1
    exact h
  | cons record rest ih =>
    simp only [visitRecords] at hvisits
    split at hvisits
    · obtain rfl := (Prod.mk.inj hvisits).1
      exact h
    · rename_i next hnext
      exact ih (visitRecord_keyed h hnext) hvisits

theorem batchLoop_keyed {records : List ReconciliationRecord} {fuel batches : ℕ}
    {outcome : Except ReconciliationInputError Bool} (h : Keyed config.jobId st.effects)
    (hloop : batchLoop records config fuel st batches = some (st', outcome)) :
    Keyed config.jobId st'.effects := by
  induction fuel generalizing st batches with
  | zero => cases hloop
  | succ fuel ih =>
    simp only [batchLoop] at hloop
    split at hloop
    · obtain ⟨rfl,_⟩ := Prod.mk.inj (Option.some.inj hloop)
      exact h
    · split at hloop
      · obtain ⟨rfl,_⟩ := Prod.mk.inj (Option.some.inj hloop)
        exact h
      · split at hloop
        · rename_i visited error hvisits
          obtain ⟨rfl,_⟩ := Prod.mk.inj (Option.some.inj hloop)
          exact visitRecords_keyed h hvisits
        · rename_i visited hvisits
          have hbatch (nextCursor : Option ℕ) :
              Keyed config.jobId (endBatch nextCursor visited).effects :=
            (visitRecords_keyed h hvisits).append (.save config.jobId _)
          split_ifs at hloop
          · obtain ⟨rfl,_⟩ := Prod.mk.inj (Option.some.inj hloop)
            exact hbatch _
          · exact ih (hbatch _) hloop

end

/-- Whatever a run is asked for, and however it ends. -/
theorem run_keyed {records : List ReconciliationRecord} {store : InMemoryCheckpointStore}
    {options : ReconciliationOptions} {effects : List ReconciliationEffect}
    {outcome : Except ReconciliationInputError ReconciliationResult}
    (h : ReconciliationService.run records store options = some (effects, outcome)) :
    Keyed options.jobId effects := by
  unfold ReconciliationService.run at h
  split at h
  · obtain ⟨rfl,_⟩ := Prod.mk.inj (Option.some.inj h)
    exact fun mismatch hmem => by cases hmem
  · rename_i config hconfig
    obtain ⟨⟨st',ending⟩,hloop,heq⟩ := Option.map_eq_some_iff.mp h
    obtain ⟨rfl,_⟩ := Prod.mk.inj heq
    rw [← (normalizeOptions_ok hconfig).1]
    exact batchLoop_keyed (fun mismatch hmem => by cases hmem) hloop

/-- A run that has been started, with the effects it has not had yet. One that is
interrupted does not go on. -/
structure ReconciliationProcess where
  jobId : String
  pending : List ReconciliationEffect

/-- A call of `applyMismatch`, and whether the source kept the correction. -/
structure CorrectionCall where
  jobId : String
  recordId : String
  kept : Bool
  deriving DecidableEq

/-- The calls are listed with the latest one first. -/
structure SharedReconciliation where
  source : InMemoryReconciliationSource
  store : InMemoryCheckpointStore
  running : List ReconciliationProcess
  calls : List CorrectionCall

inductive ReconciliationAction
  | start (options : ReconciliationOptions)
  | advance (process : ℕ)

namespace SharedReconciliation

def start : SharedReconciliation := ⟨.empty, .empty, [], []⟩

def performOne (shared : SharedReconciliation) (jobId : String) :
    ReconciliationEffect → SharedReconciliation
  | .applyMismatch mismatch => { shared with
      source := shared.source.applyMismatch mismatch
      calls := ⟨jobId, mismatch.id, mismatch.operationKey ∉ shared.source.appliedKeys⟩ ::
        shared.calls }
  | .save checkpoint => { shared with store := shared.store.save checkpoint }

/-- Runs of any jobs take turns. The effects of a run are settled when it starts: it
loads its checkpoint once, and the records are fixed. -/
def step (records : List ReconciliationRecord) (shared : SharedReconciliation) :
    ReconciliationAction → Option SharedReconciliation
  | .start options =>
    (ReconciliationService.run records shared.store options).map fun (effects,_) =>
      { shared with running := shared.running ++ [⟨options.jobId, effects⟩] }
  | .advance process =>
    match shared.running[process]? with
    | none => none
    | some ⟨_, []⟩ => none
    | some ⟨jobId, effect :: pending⟩ => some { shared.performOne jobId effect with
        running := shared.running.set process ⟨jobId, pending⟩ }

end SharedReconciliation

namespace CorrectionCall

def key (call : CorrectionCall) : String := makeOperationKey call.jobId call.recordId

def Collides (call other : CorrectionCall) : Prop :=
  Collide call.jobId call.recordId other.jobId other.recordId

/-- Of the calls with one key the first is kept. -/
inductive Marked : List CorrectionCall → Prop
  | nil : Marked []
  | cons {call : CorrectionCall} {earlier : List CorrectionCall} : Marked earlier →
      (call.kept = true ↔ ∀ other ∈ earlier, other.key ≠ call.key) → Marked (call :: earlier)

/-- A call that is dropped repeats one that was kept, of its own job and record. -/
def NoneDroppedForAnother : List CorrectionCall → Prop
  | [] => True
  | call :: earlier => (call.kept = false → ∃ first ∈ earlier, first.kept = true ∧
      first.jobId = call.jobId ∧ first.recordId = call.recordId) ∧ NoneDroppedForAnother earlier

theorem key_eq_iff {call other : CorrectionCall} : call.key = other.key ↔
    (call.jobId = other.jobId ∧ call.recordId = other.recordId) ∨ call.Collides other :=
  makeOperationKey_eq_iff

instance : Std.Symm fun call other : CorrectionCall => ¬ call.Collides other :=
  ⟨fun _ _ hnot hcollides => hnot hcollides.symm⟩

theorem Marked.exists_kept {calls : List CorrectionCall} (h : Marked calls)
    {call : CorrectionCall} (hcall : call ∈ calls) :
    ∃ first ∈ calls, first.kept = true ∧ first.key = call.key := by
  induction h generalizing call with
  | nil => cases hcall
  | @cons latest earlier _ hlatest ih =>
    have hearlier {other : CorrectionCall} (hother : other ∈ earlier)
        (hkey : other.key = call.key) :
        ∃ first ∈ latest :: earlier, first.kept = true ∧ first.key = call.key := by
      obtain ⟨first,hfirst,hkept,hsame⟩ := ih hother
      exact ⟨first, List.mem_cons_of_mem _ hfirst, hkept, hsame.trans hkey⟩
    rcases List.mem_cons.mp hcall with rfl | hmem
    · -- a call that was dropped met its key among the earlier ones
      by_cases hkept : call.kept = true
      · exact ⟨call, List.mem_cons_self, hkept, rfl⟩
      · rw [hlatest] at hkept
        push Not at hkept
        obtain ⟨other,hother,hkey⟩ := hkept
        exact hearlier hother hkey
    · exact hearlier hmem rfl

theorem noneDroppedForAnother_iff {calls : List CorrectionCall} (h : Marked calls) :
    NoneDroppedForAnother calls ↔ calls.Pairwise fun call other => ¬ call.Collides other := by
  induction h with
  | nil => exact iff_of_true trivial .nil
  | @cons latest earlier hmarked hlatest ih =>
    rw [NoneDroppedForAnother, ih, List.pairwise_cons]
    apply and_congr_left
    intro hapart
    constructor
    · intro hown other hother hcollides
      -- the call was dropped for the first one with the key of the other
      have hdropped : latest.kept = false := by
        rw [Bool.eq_false_iff, ne_eq, hlatest]
        exact fun hall => hall other hother (key_eq_iff.mpr (Or.inr hcollides.symm))
      obtain ⟨first,hfirst,_,hjob,hrecord⟩ := hown hdropped
      have hcollide : first.Collides other := by
        rw [Collides, hjob, hrecord]
        exact hcollides
      have hne : first ≠ other := fun heq => hcollide.ne (by rw [heq])
      exact hapart.forall hfirst hother hne hcollide
    · intro hfree hdropped
      rw [Bool.eq_false_iff, ne_eq, hlatest] at hdropped
      push Not at hdropped
      obtain ⟨other,hother,hkey⟩ := hdropped
      obtain ⟨first,hfirst,hkept,hsame⟩ := hmarked.exists_kept hother
      rcases key_eq_iff.mp (hsame.trans hkey) with ⟨hjob,hrecord⟩ | hcollides
      · exact ⟨first, hfirst, hkept, hjob, hrecord⟩
      · exact absurd hcollides.symm (hfree first hfirst)

end CorrectionCall

namespace SharedReconciliation

/-- The source knows the keys of the calls, and the runs go on with their own keys. -/
structure Consistent (shared : SharedReconciliation) : Prop where
  marked : CorrectionCall.Marked shared.calls
  known : ∀ key, key ∈ shared.source.appliedKeys ↔ ∃ call ∈ shared.calls, call.key = key
  pending : ∀ process ∈ shared.running, Keyed process.jobId process.pending

theorem consistent_start : start.Consistent :=
  ⟨.nil, fun key => by simp [start, InMemoryReconciliationSource.empty], fun process hmem => by
    cases hmem⟩

variable {shared shared' : SharedReconciliation}

theorem Consistent.applyMismatch (h : shared.Consistent) {jobId : String}
    {mismatch : ReconciliationMismatch}
    (hkey : mismatch.operationKey = makeOperationKey jobId mismatch.id) :
    (shared.performOne jobId (.applyMismatch mismatch)).Consistent := by
  refine ⟨.cons h.marked ?_, fun key => ?_, h.pending⟩
  · simp only [decide_eq_true_eq, h.known, not_exists, not_and]
    rw [hkey]
    exact Iff.rfl
  · have hcalls : (∃ call ∈ (shared.performOne jobId (.applyMismatch mismatch)).calls,
        call.key = key) ↔ mismatch.operationKey = key ∨ ∃ call ∈ shared.calls, call.key = key := by
      rw [hkey]
      exact List.exists_mem_cons_iff _ _ _
    rw [hcalls, ← h.known]
    simp only [performOne, InMemoryReconciliationSource.applyMismatch]
    split_ifs with hknown
    · refine (or_iff_right_of_imp ?_).symm
      rintro rfl
      exact hknown
    · rw [List.mem_append, List.mem_singleton, or_comm, eq_comm]

theorem Consistent.step {records : List ReconciliationRecord} {action : ReconciliationAction}
    (h : shared.Consistent) (hstep : step records shared action = some shared') :
    shared'.Consistent := by
  cases action with
  | start options =>
    obtain ⟨⟨effects,outcome⟩,hrun,rfl⟩ := Option.map_eq_some_iff.mp hstep
    refine ⟨h.marked, h.known, fun process hmem => ?_⟩
    rcases List.mem_append.mp hmem with hold | hnew
    · exact h.pending process hold
    · rw [List.mem_singleton.mp hnew]
      exact run_keyed hrun
  | advance process =>
    rw [SharedReconciliation.step] at hstep
    split at hstep
    · cases hstep
    · cases hstep
    · rename_i jobId effect pending hprocess
      obtain rfl := Option.some.inj hstep
      have hkeyed := h.pending _ (List.mem_of_getElem? hprocess)
      -- the effect is one of a run, and has the keys of its job
      have hperformed : (shared.performOne jobId effect).Consistent := by
        cases effect with
        | save checkpoint => exact ⟨h.marked, h.known, h.pending⟩
        | applyMismatch mismatch =>
          exact h.applyMismatch (hkeyed mismatch List.mem_cons_self)
      refine ⟨hperformed.marked, hperformed.known, fun other hother => ?_⟩
      rcases List.mem_or_eq_of_mem_set hother with hold | rfl
      · exact h.pending other hold
      · exact fun mismatch hmem => hkeyed mismatch (List.mem_cons_of_mem _ hmem)

end SharedReconciliation

/-- Two corrections have different keys exactly if they do not collide, and in every
run of any jobs over one source no correction is dropped for another exactly as
long as no two of those passed to the source collide. -/
theorem corrections_apart_iff (jobId recordId jobId' recordId' : String) :
    (((jobId, recordId) ≠ (jobId', recordId') →
        makeOperationKey jobId recordId ≠ makeOperationKey jobId' recordId') ↔
      ¬ Collide jobId recordId jobId' recordId') ∧
    ∀ (records : List ReconciliationRecord) (actions : List ReconciliationAction)
      (shared : SharedReconciliation),
      exec (SharedReconciliation.step records) .start actions = some shared →
      (CorrectionCall.NoneDroppedForAnother shared.calls ↔
        shared.calls.Pairwise fun call other => ¬ call.Collides other) := by
  constructor
  · rw [ne_eq, ne_eq, makeOperationKey_eq_iff, Prod.mk.injEq]
    constructor
    · intro h hcollide
      exact h (fun hsame => hcollide.ne hsame.1) (Or.inr hcollide)
    · intro h hdiffer hkeys
      exact hkeys.elim hdiffer h
  · intro records actions shared hexec
    have hconsistent : shared.Consistent := (reaches_of_exec actions hexec).invariant
      SharedReconciliation.Consistent (fun _ _ _ h _ hstep => h.step hstep)
      SharedReconciliation.consistent_start
    exact CorrectionCall.noneDroppedForAnother_iff hconsistent.marked

/-- Two runs of a job at the same time, of which the second repeats a correction. -/
theorem corrections_apart_in_overlapping_runs :
    ((("nightly", "stream-1") ≠ ("weekly", "stream-1") →
        makeOperationKey "nightly" "stream-1" ≠ makeOperationKey "weekly" "stream-1") ↔
      ¬ Collide "nightly" "stream-1" "weekly" "stream-1") ∧
    ∃ shared, exec (SharedReconciliation.step nightlyRecords) .start
        [.start (confirmed.options "nightly"), .start (confirmed.options "nightly"),
          .advance 0, .advance 1] = some shared ∧
      shared.calls = [⟨"nightly", "stream-1", false⟩, ⟨"nightly", "stream-1", true⟩] ∧
      (CorrectionCall.NoneDroppedForAnother shared.calls ↔
        shared.calls.Pairwise fun call other => ¬ call.Collides other) := by
  have hcalls : (exec (SharedReconciliation.step nightlyRecords) .start
      [.start (confirmed.options "nightly"), .start (confirmed.options "nightly"),
        .advance 0, .advance 1]).map SharedReconciliation.calls =
      some [⟨"nightly", "stream-1", false⟩, ⟨"nightly", "stream-1", true⟩] := by decide
  obtain ⟨shared,hexec,hmade⟩ := Option.map_eq_some_iff.mp hcalls
  have hapart := corrections_apart_iff "nightly" "stream-1" "weekly" "stream-1"
  exact ⟨hapart.1, shared, hexec, hmade, hapart.2 _ _ shared hexec⟩

/-- Two records that have to be corrected, of which one id ends like the other. -/
def regionalRecords : List ReconciliationRecord :=
  [{ id := "7", expectedAmount := "10", actualAmount := "9.5" },
    { id := "eu:7", expectedAmount := "4", actualAmount := "5" }]

/-- The job `nightly` counts `eu:7` as applied, but the source drops it for record `7` of
the job `nightly:eu`. -/
theorem correction_dropped_for_another_job :
    (¬ ∀ jobId recordId jobId' recordId' : String, jobId.isBlank = false →
      recordId.isBlank = false → jobId'.isBlank = false → recordId'.isBlank = false →
      (jobId, recordId) ≠ (jobId', recordId') →
      makeOperationKey jobId recordId ≠ makeOperationKey jobId' recordId') ∧
    ¬ ∀ (records : List ReconciliationRecord) (actions : List ReconciliationAction)
      (shared : SharedReconciliation), (∀ record ∈ records, record.WellFormed) →
      exec (SharedReconciliation.step records) .start actions = some shared →
      CorrectionCall.NoneDroppedForAnother shared.calls := by
  constructor
  · intro h
    exact h "nightly:eu" "7" "nightly" "eu:7" (by decide) (by decide) (by decide) (by decide)
      (by decide) (by decide)
  · intro h
    have hcalls : (exec (SharedReconciliation.step regionalRecords) .start
        [.start (confirmed.options "nightly:eu"), .advance 0,
          .start (confirmed.options "nightly"), .advance 1, .advance 1, .advance 1]).map
            SharedReconciliation.calls =
        some [⟨"nightly", "eu:7", false⟩, ⟨"nightly", "7", true⟩,
          ⟨"nightly:eu", "7", true⟩] := by decide
    obtain ⟨shared,hexec,hmade⟩ := Option.map_eq_some_iff.mp hcalls
    have hwf : ∀ record ∈ regionalRecords, record.WellFormed := by
      intro record hrecord
      rcases List.mem_pair.mp hrecord with rfl | rfl <;> exact ⟨by decide, by decide, by decide⟩
    have hown := h regionalRecords _ shared hwf hexec
    rw [hmade] at hown
    obtain ⟨first,hfirst,_,hjob,hrecord⟩ := hown.1 rfl
    rcases List.mem_pair.mp hfirst with rfl | rfl
    · exact absurd hrecord (by decide)
    · exact absurd hjob (by decide)

end StreamPay
