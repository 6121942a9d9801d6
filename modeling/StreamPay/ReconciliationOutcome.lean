import StreamPay.ReconciliationCounters

/-! What the apply runs of a job come to if none is interrupted: the outcome is that
of the records, however they are cut into batches and runs. -/
namespace StreamPay
open Interleaving

/-- Of the mismatches of one id only the first. -/
def firstOfEachId (found : List ReconciliationMismatch) : List ReconciliationMismatch :=
  found.eraseDupsBy fun mismatch other => mismatch.id == other.id

theorem corrections_eq_firstOfEachId (jobId : String) (processed : List String)
    (records : List ReconciliationRecord) : corrections jobId processed records =
      firstOfEachId ((records.filterMap fun record => record.mismatch? jobId).filter
        fun mismatch => mismatch.id ∉ processed) := by
  induction records generalizing processed with
  | nil => rfl
  | cons record rest ih =>
    rw [corrections, List.filterMap_cons]
    cases hm : record.mismatch? jobId with
    | none => exact ih processed
    | some mismatch =>
      have hid : mismatch.id = record.id := by rw [record_of_mismatch? hm]
      dsimp only
      by_cases hp : record.id ∈ processed
      · rw [if_pos hp, List.filter_cons_of_neg (by simp [hid, hp])]
        exact ih processed
      · rw [if_neg hp, List.filter_cons_of_pos (by simp [hid, hp]), firstOfEachId,
          List.eraseDupsBy_cons, ih, firstOfEachId, List.filter_filter]
        -- what follows has another id than the first one
        have hrest (other : ReconciliationMismatch) :
            decide (other.id ∉ processed ++ [record.id]) =
              (decide ((other.id == mismatch.id) = false) && decide (other.id ∉ processed)) := by
          rw [hid]
          simp [and_comm]
        simp only [hrest]

theorem corrections_nil_eq (jobId : String) (records : List ReconciliationRecord) :
    corrections jobId [] records =
      firstOfEachId (records.filterMap fun record => record.mismatch? jobId) := by
  have hnone (found : List ReconciliationMismatch) :
      found.filter (fun mismatch => mismatch.id ∉ ([] : List String)) = found :=
    List.filter_eq_self.mpr fun _ _ => by simp
  rw [corrections_eq_firstOfEachId, hnone]

theorem nodup_corrections (jobId : String) (processed : List String)
    (records : List ReconciliationRecord) :
    (correctedIds (corrections jobId processed records)).Nodup := by
  induction records generalizing processed with
  | nil => exact List.nodup_nil
  | cons record rest ih =>
    rw [corrections]
    cases hm : record.mismatch? jobId with
    | none => exact ih processed
    | some mismatch =>
      have hid : mismatch.id = record.id := by rw [record_of_mismatch? hm]
      dsimp only
      split_ifs with hp
      · exact ih processed
      · refine List.nodup_cons.mpr ⟨fun hmem => ?_, ih _⟩
        obtain ⟨other,hother,hsame⟩ := List.mem_map.mp hmem
        have hsame' : other.id = record.id := hsame.trans hid
        have hnew := (mem_corrections.mp hother).1
        exact hnew (List.mem_append_right _ (List.mem_singleton.mpr hsame'))

theorem operationKey_of_mem_corrections {jobId : String} {processed : List String}
    {records : List ReconciliationRecord} {mismatch : ReconciliationMismatch}
    (h : mismatch ∈ corrections jobId processed records) :
    mismatch.operationKey = makeOperationKey jobId mismatch.id := by
  obtain ⟨_,record,_,hm⟩ := mem_corrections.mp h
  exact operationKey_of_mismatch? hm

/-- The corrections of a job have different operation keys. -/
theorem nodup_operationKeys (jobId : String) (processed : List String)
    (records : List ReconciliationRecord) :
    ((corrections jobId processed records).map fun mismatch => mismatch.operationKey).Nodup := by
  have hkeys : ((corrections jobId processed records).map fun mismatch => mismatch.operationKey) =
      (correctedIds (corrections jobId processed records)).map (makeOperationKey jobId) := by
    rw [correctedIds, List.map_map]
    exact List.map_congr_left fun mismatch hmem => operationKey_of_mem_corrections hmem
  rw [hkeys]
  exact (nodup_corrections jobId processed records).map (makeOperationKey_injective jobId)

/-- Corrections whose keys are all new reach the source one after the other. -/
theorem applied_perform {job : ReconciliationJob} (effects : List ReconciliationEffect)
    (hkeys : job.source.appliedKeys = job.source.applied.map fun mismatch => mismatch.operationKey)
    (hnew : ((job.source.applied ++ passedMismatches effects).map
      fun mismatch => mismatch.operationKey).Nodup) :
    (job.perform effects).source.applied = job.source.applied ++ passedMismatches effects ∧
    (job.perform effects).source.appliedKeys =
      (job.perform effects).source.applied.map fun mismatch => mismatch.operationKey := by
  induction effects generalizing job with
  | nil => exact ⟨(List.append_nil _).symm, hkeys⟩
  | cons effect rest ih =>
    cases effect with
    | save checkpoint => exact @ih (job.performOne (.save checkpoint)) hkeys hnew
    | applyMismatch mismatch =>
      have hsplit : job.source.applied ++ passedMismatches (.applyMismatch mismatch :: rest) =
          job.source.applied ++ [mismatch] ++ passedMismatches rest := by
        rw [List.append_assoc]
        rfl
      rw [hsplit] at hnew ⊢
      have hunknown : mismatch.operationKey ∉ job.source.appliedKeys := by
        rw [List.map_append, List.nodup_append, List.map_append, List.nodup_append] at hnew
        intro hknown
        rw [hkeys] at hknown
        exact hnew.1.2.2 _ hknown _ (List.mem_singleton_self _) rfl
      have hone : (job.performOne (.applyMismatch mismatch)).source =
          ⟨job.source.applied ++ [mismatch], job.source.appliedKeys ++ [mismatch.operationKey]⟩ :=
        if_neg hunknown
      have hall := @ih (job.performOne (.applyMismatch mismatch))
        (by rw [hone, List.map_append, hkeys]; rfl) (by rw [hone]; exact hnew)
      rw [hone] at hall
      exact hall

/-- A run with a batch size of 1 to 1000 and room for a batch, confirmed. -/
structure ApplyRun.Permitted (run : ApplyRun) : Prop where
  batchSize : (normalizeBatchSize run.batchSize).isSome = true
  batches : JsNumber.natLt 0 (run.maxBatches.getD .infinity) = true
  confirmed : run.confirmation = some (run.expectedConfirmation.getD "APPLY-RECONCILIATION")

theorem ApplyRun.Permitted.accepted {run : ApplyRun} (h : run.Permitted) {jobId : String}
    (hjob : jobId.isBlank = false) :
    ∃ config, normalizeOptions (run.options jobId) = .ok config := by
  obtain ⟨batchSize,hbatchSize⟩ := Option.isSome_iff_exists.mp h.batchSize
  have hconfirmed := h.confirmed
  unfold normalizeOptions
  simp only [ApplyRun.options, hjob, hbatchSize, hconfirmed, Bool.false_eq_true, ↓reduceIte,
    ne_eq, not_true_eq_false, and_false]
  exact ⟨_, rfl⟩

/-- The last save of a loop over batches has the counters that the loop ends with. -/
theorem batchLoop_saved {records : List ReconciliationRecord} {config : ReconciliationConfig}
    (hmode : config.mode = .apply) (hb : 1 ≤ config.batchSize) {fuel count : ℕ}
    {st st' : RunState} {ended : Bool}
    (h : batchLoop records config fuel st count = some (st', .ok ended)) :
    st' = st ∨ ∃ effects saved, st'.effects = effects ++ [.save saved] ∧
      saved.jobId = st.checkpoint.jobId ∧ saved.SameCounts st'.checkpoint := by
  induction fuel generalizing st count with
  | zero => cases h
  | succ fuel ih =>
    cases batchPass_of_batchLoop hmode hb h with
    | idle => exact Or.inl rfl
    | last hlast hvisits =>
      rename_i st₁
      obtain ⟨saved,heffects,hown,hsame⟩ := endBatch_save none st₁
      exact Or.inr ⟨_, saved, heffects, hown.trans hvisits.visited.own, hsame⟩
    | more hmore hvisits hrest =>
      rename_i st₁
      obtain ⟨saved,heffects,hown,hsame⟩ := endBatch_save
        (some (st.checkpoint.nextCursor.getD 0+config.batchSize)) st₁
      rcases ih hrest with rfl | ⟨effects,last,hlast,hjob,hcounts⟩
      · exact Or.inr ⟨_, saved, heffects, hown.trans hvisits.visited.own, hsame⟩
      · have hown' : (endBatch (some (st.checkpoint.nextCursor.getD 0+config.batchSize))
            st₁).checkpoint.jobId = st.checkpoint.jobId := hvisits.visited.own
        exact Or.inr ⟨effects, last, hlast, hjob.trans hown', hcounts⟩

/-- A loop that has had its batches leaves the counters as they were against the cursor. -/
theorem stopped_batches {records : List ReconciliationRecord} {config : ReconciliationConfig}
    {exact : Prop} (hmode : config.mode = .apply) (hb : 1 ≤ config.batchSize) {fuel count : ℕ}
    {st st' : RunState} (htallied : TalliedAtCursor records config.jobId exact st.checkpoint)
    (h : batchLoop records config fuel st count = some (st', .ok false)) :
    TalliedAtCursor records config.jobId exact st'.checkpoint := by
  induction fuel generalizing st count with
  | zero => cases h
  | succ fuel ih =>
    cases batchPass_of_batchLoop hmode hb h with
    | idle => exact htallied
    | more hmore hvisits hrest => exact ih (htallied.endBatch hmore hvisits.visited) hrest

/-- A permitted run reads at least one batch, so it comes further in the records. -/
theorem runEnd_of_permitted {length batchSize start : ℕ} {left : Option ℕ}
    (hb : 1 ≤ batchSize) (hleft : left ≠ some 0) :
    runEnd length batchSize start left = .complete ∨
    ∃ cursor, runEnd length batchSize start left = .stopped cursor ∧
      start < cursor ∧ cursor < length := by
  match left with
  | none => exact Or.inl rfl
  | some 0 => exact absurd rfl hleft
  | some (n+1) =>
    have hle : 1 ≤ (n+1)*batchSize := Nat.mul_pos (Nat.succ_pos n) hb
    simp only [runEnd]
    split_ifs with hlt
    · exact Or.inr ⟨_, rfl, by omega, hlt⟩
    · exact Or.inl rfl

/-- What a permitted run has made of the stored position and its counters. -/
inductive PermittedRun (records : List ReconciliationRecord) (jobId : String)
    (store : InMemoryCheckpointStore) (effects : List ReconciliationEffect)
    (result : ReconciliationResult) : Prop
  | finished : result.complete = true →
      passedMismatches effects = corrections jobId (store.position jobId).processed
        (records.drop (store.position jobId).start) →
      result.scanned = records.length → result.mismatches = differing jobId records →
      PermittedRun records jobId store effects result
  | further (cursor : ℕ) : result.complete = false → (store.position jobId).start < cursor →
      passedMismatches effects = corrections jobId (store.position jobId).processed
        ((records.drop (store.position jobId).start).take
          (cursor-(store.position jobId).start)) →
      ((store.perform effects).position jobId).Same ⟨cursor,
        (store.position jobId).processed ++ correctedIds (passedMismatches effects)⟩ →
      TalliedAtCursor records jobId True ((store.perform effects).checkpoint jobId) →
      PermittedRun records jobId store effects result

theorem run_of_permitted {records : List ReconciliationRecord}
    (hwf : ∀ r ∈ records, r.WellFormed) {jobId : String} (hblank : jobId.isBlank = false)
    {run : ApplyRun} (hrun : run.Permitted) (store : InMemoryCheckpointStore)
    (htallied : TalliedAtCursor records jobId True (store.checkpoint jobId)) :
    ∃ effects result, ReconciliationService.run records store (run.options jobId) =
      some (effects, .ok result) ∧ PermittedRun records jobId store effects result := by
  obtain ⟨config,hconfig⟩ := hrun.accepted hblank
  obtain ⟨hjob,hmode,hb,hover,hmax⟩ := normalizeOptions_ok hconfig
  obtain rfl : config.jobId = jobId := hjob
  have hfrom : config.startFrom (store.position config.jobId) = store.position config.jobId := by
    rw [ReconciliationConfig.startFrom, hover]
    rfl
  -- the run may read one batch at least, so that it comes further or to the end
  have hleft : config.maxBatches.natsBelow ≠ some 0 := by
    intro hzero
    have hroom := (JsNumber.natLt_iff 0 config.maxBatches).mp (by rw [hmax]; exact hrun.batches)
    exact lt_irrefl 0 (hroom 0 hzero)
  obtain ⟨ending,hend⟩ : ∃ ending, runEnd records.length config.batchSize
    (store.position config.jobId).start config.maxBatches.natsBelow = ending := ⟨_, rfl⟩
  obtain ⟨effects,result,hran,hcomplete,hpassed,hsame⟩ := run_eq hwf store hconfig hfrom hend
  have hcorrects (processed : List String) (rs : List ReconciliationRecord) :
      config.corrects processed rs = corrections config.jobId processed rs :=
    if_neg (by rw [hmode]; exact ReconciliationMode.noConfusion)
  rw [hcorrects] at hpassed hsame
  refine ⟨effects, result, hran, ?_⟩
  -- the loop behind the run has the counters
  rcases loop_of_run hran with ⟨_,error,herror⟩ | ⟨config',st',loopEnd,hconfig',hloop,heffects,hout⟩
  · cases herror
  obtain rfl := Except.ok.inj (hconfig.symm.trans hconfig')
  obtain ⟨ended,rfl⟩ : ∃ ended, loopEnd = .ok ended := by
    cases loopEnd with
    | error error => cases hout
    | ok ended => exact ⟨ended, rfl⟩
  obtain rfl := Except.ok.inj hout
  have hinit : TalliedAtCursor records config.jobId True
      (RunState.init config (store.load config.jobId)).checkpoint := htallied
  rcases runEnd_of_permitted hb hleft with hdone | ⟨cursor,hstopped,hfurther,hlt⟩
  · obtain rfl := hend.symm.trans hdone
    obtain rfl : ended = true := hcomplete
    obtain ⟨hscanned,hmismatches⟩ := (completed_batches hmode hb hinit hloop).1 trivial
    rw [List.take_length] at hmismatches
    exact .finished rfl hpassed hscanned hmismatches
  · obtain rfl := hend.symm.trans hstopped
    obtain rfl : ended = false := hcomplete
    rw [← hpassed] at hsame
    refine .further cursor rfl hfurther hpassed hsame ?_
    have hstart : ((store.perform effects).position config.jobId).start = cursor := hsame.1
    rcases batchLoop_saved hmode hb hloop with rfl | ⟨before,saved,hsaved,hown,hcounts⟩
    · -- a run without effects would not have come further
      obtain rfl : effects = [] := heffects
      exact absurd hstart hfurther.ne
    · have hown' : saved.jobId = config.jobId :=
        hown.trans InMemoryCheckpointStore.checkpoint_jobId
      -- the checkpoint that the next run loads is the last one saved
      have hload := store.load_perform_save before saved
      rw [← hsaved, ← heffects, hown'] at hload
      rw [InMemoryCheckpointStore.checkpoint, hload]
      exact (stopped_batches hmode hb hinit hloop).congr
        ⟨hcounts.1.symm, hcounts.2.1.symm, hcounts.2.2.symm⟩

namespace ReconciliationJob

/-- Where a job stands between two runs: its corrections and counters are those of
the records before its cursor. -/
structure Progress (records : List ReconciliationRecord) (jobId : String)
    (job : ReconciliationJob) : Prop where
  applied : job.source.applied =
    corrections jobId [] (records.take (job.store.position jobId).start)
  keys : job.source.appliedKeys = job.source.applied.map fun mismatch => mismatch.operationKey
  processed : ∀ id, id ∈ (job.store.position jobId).processed ↔
    id ∈ correctedIds job.source.applied
  tallied : TalliedAtCursor records jobId True (job.store.checkpoint jobId)

theorem progress_start (records : List ReconciliationRecord) (jobId : String) :
    start.Progress records jobId := by
  have hload : InMemoryCheckpointStore.empty.load jobId = none := InsertionMap.get_empty _
  have hposition : start.store.position jobId = .zero := by
    rw [start, InMemoryCheckpointStore.position, hload]
  have hcheckpoint : start.store.checkpoint jobId = ⟨jobId, none, [], 0, 0⟩ := by
    rw [start, InMemoryCheckpointStore.checkpoint, hload]
    rfl
  refine ⟨by rw [hposition]; rfl, rfl, fun id => by rw [hposition]; exact Iff.rfl, ?_⟩
  rw [hcheckpoint]
  exact ⟨Nat.zero_le _, fun _ => ⟨rfl, rfl⟩, fun hfalse => absurd trivial hfalse⟩

/-- A job that has come to the end of the records. -/
structure Finished (records : List ReconciliationRecord) (jobId : String)
    (job : ReconciliationJob) (result : ReconciliationResult) : Prop where
  applied : job.source.applied =
    firstOfEachId (records.filterMap fun record => record.mismatch? jobId)
  scanned : result.scanned = records.length
  mismatches : result.mismatches =
    (records.filterMap fun record => record.mismatch? jobId).length

variable {records : List ReconciliationRecord} {jobId : String} {job : ReconciliationJob}

/-- What a segment behind the cursor has passed joins the corrections before it. -/
theorem Progress.perform (h : job.Progress records jobId) {effects : List ReconciliationEffect}
    {segment : List ReconciliationRecord}
    (hpassed : passedMismatches effects =
      corrections jobId (job.store.position jobId).processed segment) :
    (job.perform effects).source.applied =
      corrections jobId [] (records.take (job.store.position jobId).start ++ segment) ∧
    (job.perform effects).source.appliedKeys =
      (job.perform effects).source.applied.map fun mismatch => mismatch.operationKey := by
  have hall : job.source.applied ++ passedMismatches effects =
      corrections jobId [] (records.take (job.store.position jobId).start ++ segment) := by
    rw [hpassed, corrections_congr jobId h.processed, corrections_append, ← h.applied,
      List.nil_append]
  have hnew := nodup_operationKeys jobId []
    (records.take (job.store.position jobId).start ++ segment)
  rw [← hall] at hnew ⊢
  exact applied_perform effects h.keys hnew

theorem store_perform (job : ReconciliationJob) (effects : List ReconciliationEffect) :
    (job.perform effects).store = job.store.perform effects := by
  induction effects generalizing job with
  | nil => rfl
  | cons effect rest ih => cases effect <;> exact ih _

/-- A permitted run that nothing interrupts: it finishes the job, or takes it further. -/
theorem Progress.step (h : job.Progress records jobId) (hwf : ∀ r ∈ records, r.WellFormed)
    (hblank : jobId.isBlank = false) {run : ApplyRun} (hrun : run.Permitted) :
    ∃ next result, step records jobId job { run with } = some next ∧
      next.returned = some result ∧
      (result.complete = true ∧ next.Finished records jobId result ∨
        result.complete = false ∧ next.Progress records jobId ∧
          (job.store.position jobId).start < (next.store.position jobId).start) := by
  obtain ⟨effects,result,hran,hmade⟩ := run_of_permitted hwf hblank hrun job.store h.tallied
  refine ⟨{ job.perform effects with returned := some result }, result, ?_, rfl, ?_⟩
  · rw [ReconciliationJob.step, hran]
    rfl
  cases hmade with
  | finished hcomplete hpassed hscanned hmismatches =>
    obtain ⟨happlied,_⟩ := h.perform hpassed
    rw [List.take_append_drop, corrections_nil_eq] at happlied
    rw [differing, ← List.length_filterMap_eq_countP] at hmismatches
    exact Or.inl ⟨hcomplete, happlied, hscanned, hmismatches⟩
  | further cursor hcomplete hlt hpassed hsame htallied =>
    obtain ⟨happlied,hkeys⟩ := h.perform hpassed
    rw [← store_perform] at hsame htallied
    have hstart : ((job.perform effects).store.position jobId).start = cursor := hsame.1
    have htake : records.take (job.store.position jobId).start ++
        (records.drop (job.store.position jobId).start).take
          (cursor-(job.store.position jobId).start) = records.take cursor := by
      rw [← List.take_add, Nat.add_sub_cancel' hlt.le]
    have hids : correctedIds (job.perform effects).source.applied =
        correctedIds job.source.applied ++ correctedIds (passedMismatches effects) := by
      rw [happlied, corrections_append, List.nil_append, ← h.applied, hpassed,
        ← corrections_congr jobId h.processed, correctedIds, List.map_append]
      rfl
    refine Or.inr ⟨hcomplete, ⟨?_, hkeys, fun id => ?_, htallied⟩, ?_⟩
    · rw [hstart, ← htake]
      exact happlied
    · rw [hids, List.mem_append, ← h.processed, ← List.mem_append]
      exact hsame.2 id
    · rw [hstart]
      exact hlt

/-- The first runs of a sequence, none of them interrupted. -/
def uninterrupted (runs : ℕ → ApplyRun) (n : ℕ) : List InterruptibleRun :=
  (List.range n).map fun i => { runs i with }

theorem uninterrupted_succ (runs : ℕ → ApplyRun) (n : ℕ) :
    uninterrupted runs (n+1) = { runs 0 with } :: uninterrupted (fun i => runs (i+1)) n := by
  rw [uninterrupted, List.range_succ_eq_map, List.map_cons, List.map_map]
  rfl

/-- Run number `n`, counted from 0, is the first to return complete. -/
def FirstComplete (records : List ReconciliationRecord) (jobId : String) (job : ReconciliationJob)
    (runs : ℕ → ApplyRun) (n : ℕ) (last : ReconciliationJob) (result : ReconciliationResult) :
    Prop :=
  exec (step records jobId) job (uninterrupted runs (n+1)) = some last ∧
  last.returned = some result ∧ result.complete = true ∧
  ∀ m < n, ∃ earlier, exec (step records jobId) job (uninterrupted runs (m+1)) = some earlier ∧
    earlier.returned.any ReconciliationResult.complete = false

theorem Progress.completes (h : job.Progress records jobId) (hwf : ∀ r ∈ records, r.WellFormed)
    (hblank : jobId.isBlank = false) {runs : ℕ → ApplyRun} (hruns : ∀ i, (runs i).Permitted) :
    ∃ n last result, FirstComplete records jobId job runs n last result ∧
      last.Finished records jobId result := by
  -- on the number of records left, of which every run takes some
  induction hleft : records.length-(job.store.position jobId).start using Nat.strong_induction_on
    generalizing job runs with
  | h left ih =>
    obtain ⟨next,result,hstep,hreturned,hdone⟩ := h.step hwf hblank (hruns 0)
    have hfirst (tail : List InterruptibleRun) :
        exec (ReconciliationJob.step records jobId) job ({ runs 0 with } :: tail) =
          exec (ReconciliationJob.step records jobId) next tail := by
      rw [exec, hstep, Option.bind_some]
    rcases hdone with ⟨hcomplete,hfinished⟩ | ⟨hmore,hnext,hlt⟩
    · refine ⟨0, next, result, ⟨?_, hreturned, hcomplete, fun m hm => by omega⟩, hfinished⟩
      rw [uninterrupted_succ, hfirst]
      rfl
    · have hle : (next.store.position jobId).start ≤ records.length := by
        rw [InMemoryCheckpointStore.position_eq_checkpoint]
        exact hnext.tallied.1
      have hlater (i : ℕ) : (runs (i+1)).Permitted := hruns (i+1)
      obtain ⟨n,last,final,⟨hexec,hlast,hcomplete,hearlier⟩,hfinished⟩ :=
        ih (records.length-(next.store.position jobId).start) (by omega) hnext
          hlater rfl
      refine ⟨n+1, last, final, ⟨?_, hlast, hcomplete, fun m hm => ?_⟩, hfinished⟩
      · rw [uninterrupted_succ, hfirst]
        exact hexec
      · rw [uninterrupted_succ, hfirst]
        cases m with
        | zero => exact ⟨next, rfl, by rw [hreturned]; exact hmore⟩
        | succ m => exact hearlier m (by omega)

/-- The runs of a job end, and then the first mismatch of every id has been corrected,
in the order of the records, and every record and mismatch has been counted once. -/
theorem outcome_of_permitted_runs (records : List ReconciliationRecord)
    (hwf : ∀ record ∈ records, record.WellFormed) (jobId : String)
    (hblank : jobId.isBlank = false) (runs : ℕ → ApplyRun) (hruns : ∀ i, (runs i).Permitted) :
    ∃ n last result, FirstComplete records jobId start runs n last result ∧
      last.source.applied =
        firstOfEachId (records.filterMap fun record => record.mismatch? jobId) ∧
      result.scanned = records.length ∧
      result.mismatches = (records.filterMap fun record => record.mismatch? jobId).length := by
  obtain ⟨n,last,result,hfirst,hfinished⟩ :=
    (progress_start records jobId).completes hwf hblank hruns
  exact ⟨n, last, result, hfirst, hfinished.applied, hfinished.scanned, hfinished.mismatches⟩

/-- Runs that each read one batch, of one record more than the run before. -/
def growingRuns (n : ℕ) : ApplyRun where
  confirmation := some "APPLY-RECONCILIATION"
  batchSize := some (.finite (if n < 1000 then n+1 else 1000 : ℕ))
  maxBatches := some (.finite 1)

theorem growingRuns_permitted (n : ℕ) : (growingRuns n).Permitted := by
  have hroom : JsNumber.natLt 0 (.finite 1) = true := by decide
  refine ⟨?_, hroom, rfl⟩
  have hsize : ∀ b : ℕ, 1 ≤ b → b ≤ 1000 →
      (normalizeBatchSize (some (.finite b))).isSome = true := by
    intro b hpos hle
    have hinteger : JsNumber.integer? (.finite b) = some (b : ℤ) := by
      simp [JsNumber.integer?]
    simp only [normalizeBatchSize, Option.getD_some, hinteger]
    rw [if_pos ⟨by omega, by omega⟩]
    rfl
  apply hsize
  · split_ifs <;> omega
  · split_ifs <;> omega

theorem outcome_of_growing_runs :
    ∃ n last result, FirstComplete nightlyRecords "nightly" start growingRuns n last result ∧
      last.source.applied =
        firstOfEachId (nightlyRecords.filterMap fun record => record.mismatch? "nightly") ∧
      result.scanned = nightlyRecords.length ∧
      result.mismatches =
        (nightlyRecords.filterMap fun record => record.mismatch? "nightly").length :=
  outcome_of_permitted_runs nightlyRecords nightlyRecords_wellFormed "nightly" (by decide)
    growingRuns growingRuns_permitted

end ReconciliationJob

end StreamPay
