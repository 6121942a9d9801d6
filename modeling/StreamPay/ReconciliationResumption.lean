import StreamPay.Library.Interleaving
import StreamPay.ReconciliationDryRun

/-! Apply runs of a job over the in-memory source, of which any call may throw.
What a run has had until then are the first ones of its effects. -/
namespace StreamPay
open Interleaving

structure InMemoryReconciliationSource where
  applied : List ReconciliationMismatch
  appliedKeys : List String

namespace InMemoryReconciliationSource

def empty : InMemoryReconciliationSource := ⟨[], []⟩

/-- Idempotent for the operation key. -/
def applyMismatch (source : InMemoryReconciliationSource) (mismatch : ReconciliationMismatch) :
    InMemoryReconciliationSource :=
  if mismatch.operationKey ∈ source.appliedKeys then source
  else {
    applied := source.applied ++ [mismatch]
    appliedKeys := source.appliedKeys ++ [mismatch.operationKey] }

end InMemoryReconciliationSource

/-- What is kept between the runs of a job. -/
structure ReconciliationJob where
  source : InMemoryReconciliationSource
  store : InMemoryCheckpointStore
  /-- What the last run returned, unless it threw. -/
  returned : Option ReconciliationResult

/-- An apply run, and how many effects it has had when one of its calls throws.
A call that throws may have taken effect; reading a batch has none. -/
structure InterruptibleRun extends ApplyRun where
  thrownAfter : Option ℕ := none

namespace ReconciliationJob

def start : ReconciliationJob := ⟨.empty, .empty, none⟩

def performOne (job : ReconciliationJob) : ReconciliationEffect → ReconciliationJob
  | .applyMismatch mismatch => { job with source := job.source.applyMismatch mismatch }
  | .save checkpoint => { job with store := job.store.save checkpoint }

def perform (job : ReconciliationJob) (effects : List ReconciliationEffect) : ReconciliationJob :=
  effects.foldl performOne job

def step (records : List ReconciliationRecord) (jobId : String) (job : ReconciliationJob)
    (run : InterruptibleRun) : Option ReconciliationJob :=
  (ReconciliationService.run records job.store (run.options jobId)).map fun (effects,outcome) =>
    match run.thrownAfter with
    | some n => { job.perform (effects.take n) with returned := none }
    | none => { job.perform effects with returned := outcome.toOption }

end ReconciliationJob

/-- What an apply run makes of a record: it is counted, and skipped or corrected
if the amounts differ. -/
inductive Visit (jobId : String) (st : RunState) (record : ReconciliationRecord) : RunState → Prop
  | equal : record.mismatch? jobId = none → Visit jobId st record { st with
      checkpoint := { st.checkpoint with scanned := st.checkpoint.scanned+1 } }
  | skipped (mismatch : ReconciliationMismatch) : record.mismatch? jobId = some mismatch →
      record.id ∈ st.processed → Visit jobId st record { st with
        checkpoint := { st.checkpoint with
          scanned := st.checkpoint.scanned+1
          mismatches := st.checkpoint.mismatches+1 }
        mismatchesFound := st.mismatchesFound ++ [mismatch]
        skipped := st.skipped+1 }
  | corrected (mismatch : ReconciliationMismatch) (checkpoint : ReconciliationCheckpoint) :
      record.mismatch? jobId = some mismatch → record.id ∉ st.processed →
      checkpoint = { st.checkpoint with
        scanned := st.checkpoint.scanned+1
        mismatches := st.checkpoint.mismatches+1
        processedIds := sortedIds (st.processed ++ [record.id]) } →
      Visit jobId st record {
        checkpoint
        processed := st.processed ++ [record.id]
        mismatchesFound := st.mismatchesFound ++ [mismatch]
        applied := st.applied+1
        skipped := st.skipped
        effects := st.effects ++ [.applyMismatch mismatch, .save checkpoint] }

theorem visit_of_visitRecord {config : ReconciliationConfig} (hmode : config.mode = .apply)
    {st st' : RunState} {record : ReconciliationRecord}
    (h : visitRecord config st record = .ok st') : Visit config.jobId st record st' := by
  have hdry : config.mode ≠ .dryRun := by
    rw [hmode]
    exact ReconciliationMode.noConfusion
  simp only [visitRecord, hdry, ↓reduceIte] at h
  -- a blank id and amounts that are no decimals are errors
  split at h
  · cases h
  · split at h
    · cases h
    · rename_i hdiff
      obtain rfl := Except.ok.inj h
      exact .equal (by simp [ReconciliationRecord.mismatch?, hdiff])
    · rename_i difference hdiff
      have hm : record.mismatch? config.jobId =
          some ⟨record, difference, makeOperationKey config.jobId record.id⟩ := by
        simp [ReconciliationRecord.mismatch?, hdiff]
      split at h
      · rename_i hp
        obtain rfl := Except.ok.inj h
        exact .skipped _ hm hp
      · rename_i hp
        obtain rfl := Except.ok.inj h
        exact .corrected _ _ hm hp rfl

theorem operationKey_of_mismatch? {jobId : String} {record : ReconciliationRecord}
    {mismatch : ReconciliationMismatch} (h : record.mismatch? jobId = some mismatch) :
    mismatch.operationKey = makeOperationKey jobId mismatch.id := by
  unfold ReconciliationRecord.mismatch? at h
  split at h
  · rw [← Option.some.inj h]
  · cases h

theorem makeOperationKey_injective (jobId : String) :
    Function.Injective (makeOperationKey jobId) :=
  fun _ _ h => (String.append_right_inj _).mp h

namespace ReconciliationJob

/-- What holds between any two effects of the runs of a job: the source was
corrected once for each id of `applied`, the checkpoint names such ids only, and
names those of all mismatches before its cursor. -/
structure Sound (records : List ReconciliationRecord) (jobId : String) (job : ReconciliationJob) :
    Prop where
  keys : job.source.appliedKeys = job.source.applied.map fun mismatch => mismatch.operationKey
  nodup : (correctedIds job.source.applied).Nodup
  due : ∀ mismatch ∈ job.source.applied, ∃ record ∈ records,
    record.mismatch? jobId = some mismatch
  recorded : ∀ id ∈ (job.store.position jobId).processed, id ∈ correctedIds job.source.applied
  behind : ∀ record ∈ records.take (job.store.position jobId).start,
    (record.mismatch? jobId).isSome = true → record.id ∈ (job.store.position jobId).processed

variable {records : List ReconciliationRecord} {jobId : String} {job : ReconciliationJob}

theorem sound_start (records : List ReconciliationRecord) (jobId : String) :
    start.Sound records jobId := by
  have hload : InMemoryCheckpointStore.empty.position jobId = .zero := by
    simp [InMemoryCheckpointStore.position, InMemoryCheckpointStore.load,
      InMemoryCheckpointStore.empty]
  constructor <;> simp [start, hload, InMemoryReconciliationSource.empty, correctedIds,
    ReconciliationPosition.zero]

/-- An operation key is known exactly if the id has been corrected. -/
theorem Sound.mem_appliedKeys (h : job.Sound records jobId) {id : String} :
    makeOperationKey jobId id ∈ job.source.appliedKeys ↔
      id ∈ correctedIds job.source.applied := by
  rw [h.keys, correctedIds, List.mem_map, List.mem_map]
  refine exists_congr fun mismatch => and_congr_right fun hmem => ?_
  obtain ⟨_,_,hm⟩ := h.due mismatch hmem
  rw [operationKey_of_mismatch? hm, (makeOperationKey_injective jobId).eq_iff]

theorem Sound.applyMismatch (h : job.Sound records jobId) {record : ReconciliationRecord}
    (hrecord : record ∈ records) {mismatch : ReconciliationMismatch}
    (hm : record.mismatch? jobId = some mismatch) :
    (job.performOne (.applyMismatch mismatch)).Sound records jobId ∧
    ∀ id, id ∈ correctedIds (job.performOne (.applyMismatch mismatch)).source.applied ↔
      id ∈ correctedIds job.source.applied ∨ id = record.id := by
  have hid : mismatch.id = record.id := by rw [record_of_mismatch? hm]
  have hkey : mismatch.operationKey ∈ job.source.appliedKeys ↔
      record.id ∈ correctedIds job.source.applied := by
    rw [operationKey_of_mismatch? hm, hid, h.mem_appliedKeys]
  simp only [performOne, InMemoryReconciliationSource.applyMismatch]
  -- by whether the correction has been made before its checkpoint was lost
  by_cases hknown : mismatch.operationKey ∈ job.source.appliedKeys
  · rw [if_pos hknown]
    refine ⟨h, fun id => (or_iff_left_of_imp ?_).symm⟩
    rintro rfl
    exact hkey.mp hknown
  · rw [if_neg hknown]
    have hids : correctedIds (job.source.applied ++ [mismatch]) =
        correctedIds job.source.applied ++ [record.id] := by
      simp [correctedIds, hid]
    refine ⟨?_, fun id => by rw [hids, List.mem_append, List.mem_singleton]⟩
    exact {
      keys := by rw [List.map_append, h.keys]; rfl
      nodup := by
        rw [hids]
        have hnew : record.id ∉ correctedIds job.source.applied := mt hkey.mpr hknown
        exact List.nodup_append.mpr ⟨h.nodup, List.nodup_singleton _, fun a ha b hb hab =>
          hnew (List.mem_singleton.mp hb ▸ hab ▸ ha)⟩
      due := fun other hother => by
        rcases List.mem_append.mp hother with hold | hnew
        · exact h.due other hold
        · exact ⟨record, hrecord, List.mem_singleton.mp hnew ▸ hm⟩
      recorded := fun id hrecorded => by
        rw [hids]
        exact List.mem_append_left _ (h.recorded id hrecorded)
      behind := h.behind }

theorem Sound.save (h : job.Sound records jobId) {checkpoint : ReconciliationCheckpoint}
    (hjob : checkpoint.jobId = jobId)
    (hrecorded : ∀ id ∈ checkpoint.processedIds, id ∈ correctedIds job.source.applied)
    (hbehind : ∀ record ∈ records.take (checkpoint.nextCursor.getD 0),
      (record.mismatch? jobId).isSome = true → record.id ∈ checkpoint.processedIds) :
    (job.performOne (.save checkpoint)).Sound records jobId := by
  have hposition : (job.performOne (.save checkpoint)).store.position jobId =
      ⟨checkpoint.nextCursor.getD 0, checkpoint.processedIds⟩ := by
    rw [← hjob]
    exact InMemoryCheckpointStore.position_save job.store checkpoint
  exact {
    keys := h.keys
    nodup := h.nodup
    due := h.due
    recorded := fun id hid => by
      rw [hposition] at hid
      exact hrecorded id hid
    behind := by
      rw [hposition]
      exact hbehind }

/-- Where a run stands in between: whatever its effects are cut to is sound, and
what it takes as processed has been corrected. -/
structure Underway (records : List ReconciliationRecord) (jobId : String) (job : ReconciliationJob)
    (st : RunState) (seen : List ReconciliationRecord) : Prop where
  sound : ∀ effects, effects <+: st.effects → (job.perform effects).Sound records jobId
  own : st.checkpoint.jobId = jobId
  corrected : ∀ id ∈ st.processed, id ∈ correctedIds (job.perform st.effects).source.applied
  behind : ∀ record ∈ records.take (st.checkpoint.nextCursor.getD 0),
    (record.mismatch? jobId).isSome = true → record.id ∈ st.processed
  seen : ∀ record ∈ seen, (record.mismatch? jobId).isSome = true → record.id ∈ st.processed

theorem perform_concat (job : ReconciliationJob) (effects : List ReconciliationEffect)
    (effect : ReconciliationEffect) :
    job.perform (effects ++ [effect]) = (job.perform effects).performOne effect := by
  simp [perform]

/-- One more effect that is sound when all before it have been had. -/
theorem sound_concat {effects : List ReconciliationEffect} {effect : ReconciliationEffect}
    (hbefore : ∀ cut, cut <+: effects → (job.perform cut).Sound records jobId)
    (hlast : ((job.perform effects).performOne effect).Sound records jobId)
    (cut : List ReconciliationEffect) (hcut : cut <+: effects ++ [effect]) :
    (job.perform cut).Sound records jobId := by
  rcases List.prefix_concat_iff.mp hcut with rfl | hshorter
  · rw [perform_concat]
    exact hlast
  · exact hbefore cut hshorter

variable {st st' : RunState} {seen : List ReconciliationRecord}

theorem Underway.visit (h : Underway records jobId job st seen) {record : ReconciliationRecord}
    (hrecord : record ∈ records) (hvisit : Visit jobId st record st') :
    Underway records jobId job st' (seen ++ [record]) := by
  have hseen {ids : List String} (hids : ∀ id ∈ st.processed, id ∈ ids)
      (hown : (record.mismatch? jobId).isSome = true → record.id ∈ ids) :
      ∀ r ∈ seen ++ [record], (r.mismatch? jobId).isSome = true → r.id ∈ ids := by
    intro r hr hdiffers
    rcases List.mem_append.mp hr with hold | hnew
    · exact hids _ (h.seen r hold hdiffers)
    · obtain rfl := List.mem_singleton.mp hnew
      exact hown hdiffers
  cases hvisit with
  | equal hm =>
    refine ⟨h.sound, h.own, h.corrected, h.behind, hseen (fun _ hid => hid) fun hdiffers => ?_⟩
    rw [hm] at hdiffers
    cases hdiffers
  | skipped mismatch hm hp =>
    exact ⟨h.sound, h.own, h.corrected, h.behind, hseen (fun _ hid => hid) fun _ => hp⟩
  | corrected mismatch checkpoint hm hp hcheckpoint =>
    -- two effects, and the run may be cut off between them
    have hgrown : ∀ id ∈ st.processed, id ∈ st.processed ++ [record.id] :=
      fun _ => List.mem_append_left _
    obtain ⟨happlied,hids⟩ := (h.sound st.effects List.prefix_rfl).applyMismatch hrecord hm
    have hcorrected : ∀ id ∈ st.processed ++ [record.id], id ∈ correctedIds
        ((job.perform st.effects).performOne (.applyMismatch mismatch)).source.applied := by
      intro id hid
      rw [hids]
      exact (List.mem_append.mp hid).imp (h.corrected id) List.mem_singleton.mp
    have hbehind : ∀ r ∈ records.take (st.checkpoint.nextCursor.getD 0),
        (r.mismatch? jobId).isSome = true → r.id ∈ st.processed ++ [record.id] :=
      fun r hr hdiffers => hgrown _ (h.behind r hr hdiffers)
    have hsaved := happlied.save (show checkpoint.jobId = jobId by rw [hcheckpoint]; exact h.own)
      (by rw [hcheckpoint]; exact fun id hid => hcorrected id (mem_sortedIds.mp hid))
      (by rw [hcheckpoint]; exact fun r hr hdiffers => mem_sortedIds.mpr (hbehind r hr hdiffers))
    have hsplit : st.effects ++ [.applyMismatch mismatch, .save checkpoint] =
        (st.effects ++ [.applyMismatch mismatch]) ++ [.save checkpoint] := by simp
    refine ⟨?_, by rw [hcheckpoint]; exact h.own, ?_, by rw [hcheckpoint]; exact hbehind,
      hseen hgrown fun _ => List.mem_append_right _ (List.mem_singleton_self _)⟩
    · rw [hsplit]
      refine sound_concat (sound_concat h.sound happlied) ?_
      rw [perform_concat]
      exact hsaved
    · rw [hsplit, perform_concat, perform_concat]
      exact hcorrected

theorem Underway.visits {config : ReconciliationConfig} (hmode : config.mode = .apply)
    (hjob : config.jobId = jobId) {batch : List ReconciliationRecord} (hbatch : batch ⊆ records)
    (h : Underway records jobId job st seen) (hvisits : visitRecords config batch st = (st', none)) :
    Underway records jobId job st' (seen ++ batch) := by
  induction batch generalizing st seen with
  | nil =>
    obtain rfl := (Prod.mk.inj hvisits).1
    rwa [List.append_nil]
  | cons record rest ih =>
    simp only [visitRecords] at hvisits
    split at hvisits
    · cases (Prod.mk.inj hvisits).2
    · rename_i next hnext
      rw [List.cons_subset] at hbatch
      have hvisit := h.visit hbatch.1 (hjob ▸ visit_of_visitRecord hmode hnext)
      rw [List.append_cons]
      exact ih hbatch.2 hvisit hvisits

theorem Underway.endBatch (h : Underway records jobId job st seen) (nextCursor : Option ℕ)
    (hseen : records.take (nextCursor.getD 0) ⊆ seen) :
    Underway records jobId job (endBatch nextCursor st) seen := by
  have hbehind : ∀ record ∈ records.take (nextCursor.getD 0),
      (record.mismatch? jobId).isSome = true → record.id ∈ st.processed :=
    fun record hrecord => h.seen record (hseen hrecord)
  have hsaved : ((job.perform st.effects).performOne (.save { st.checkpoint with
      nextCursor, processedIds := sortedIds st.processed })).Sound records jobId :=
    (h.sound st.effects List.prefix_rfl).save h.own
      (fun id hid => h.corrected id (mem_sortedIds.mp hid))
      fun record hrecord hdiffers => mem_sortedIds.mpr (hbehind record hrecord hdiffers)
  refine ⟨sound_concat h.sound hsaved, h.own, ?_, hbehind, h.seen⟩
  intro id hid
  rw [StreamPay.endBatch, perform_concat]
  exact h.corrected id hid

/-- The loop over the batches, up to where it stops; all records have been seen
if it comes to their end. -/
theorem Underway.batches {config : ReconciliationConfig} (hwf : ∀ r ∈ records, r.WellFormed)
    (hmode : config.mode = .apply) (hjob : config.jobId = jobId) (hb : 1 ≤ config.batchSize)
    {fuel count : ℕ} {outcome : Except ReconciliationInputError Bool}
    (h : Underway records jobId job st (records.take (st.checkpoint.nextCursor.getD 0)))
    (hloop : batchLoop records config fuel st count = some (st', outcome)) :
    ∃ seen, Underway records jobId job st' seen ∧ (outcome = .ok true → records ⊆ seen) := by
  induction fuel generalizing st count with
  | zero => cases hloop
  | succ fuel ih =>
    cases hlt : JsNumber.natLt count config.maxBatches with
    | false =>
      simp only [batchLoop, hlt, Bool.not_false, ↓reduceIte, Option.some.injEq,
        Prod.mk.injEq] at hloop
      obtain ⟨rfl,rfl⟩ := hloop
      exact ⟨_, h, fun hend => by cases Except.ok.inj hend⟩
    | true =>
      obtain ⟨batch,hbatch⟩ : ∃ batch, (records.drop (st.checkpoint.nextCursor.getD 0)).take
        config.batchSize = batch := ⟨_, rfl⟩
      have hsub : batch ⊆ records := fun r hr => by
        rw [← hbatch] at hr
        exact List.mem_of_mem_drop (List.mem_of_mem_take hr)
      obtain ⟨visited,hvisits,_⟩ := @visitRecords_eq config batch st fun r hr => hwf r (hsub hr)
      have hvisited := h.visits hmode hjob hsub hvisits
      -- what has been seen reaches up to the cursor behind the batch
      have hseen : records.take (st.checkpoint.nextCursor.getD 0) ++ batch =
          records.take (st.checkpoint.nextCursor.getD 0+config.batchSize) := by
        rw [← hbatch, List.take_add]
      rw [hseen] at hvisited
      rw [batchLoop_succ hlt (hbatch ▸ hvisits) hb] at hloop
      split_ifs at hloop with hmore
      · exact ih (hvisited.endBatch (some _) fun _ hr => hr) hloop
      · obtain ⟨rfl,rfl⟩ := Prod.mk.inj (Option.some.inj hloop)
        refine ⟨_, hvisited.endBatch none (by simp), fun _ => ?_⟩
        rw [List.take_of_length_le (not_lt.mp hmore)]
        exact List.Subset.refl _

theorem Sound.underway (h : job.Sound records jobId) (config : ReconciliationConfig)
    (hjob : config.jobId = jobId) {st : RunState}
    (hst : RunState.init config (job.store.load config.jobId) = st) :
    Underway records jobId job st (records.take (st.checkpoint.nextCursor.getD 0)) := by
  obtain ⟨hcursor,hprocessed,hown,hnothing⟩ := RunState.init_load config job.store
  rw [hst, hjob] at hcursor hprocessed hown
  rw [hst] at hnothing
  have hmem (id : String) : id ∈ st.processed ↔ id ∈ (job.store.position jobId).processed := by
    rw [hprocessed, List.mem_eraseDups]
  have hbehind : ∀ record ∈ records.take (st.checkpoint.nextCursor.getD 0),
      (record.mismatch? jobId).isSome = true → record.id ∈ st.processed := by
    intro record hrecord hdiffers
    rw [hcursor] at hrecord
    exact (hmem _).mpr (h.behind record hrecord hdiffers)
  refine ⟨fun cut hcut => ?_, hown, fun id hid => ?_, hbehind, hbehind⟩
  · -- there are no effects yet to be cut
    rw [hnothing, List.prefix_nil] at hcut
    rw [hcut]
    exact h
  · rw [hnothing]
    exact h.recorded id ((hmem id).mp hid)

/-- Every record whose amounts differ has had a correction under its id. -/
def AllCorrected (records : List ReconciliationRecord) (jobId : String) (job : ReconciliationJob) :
    Prop :=
  ∀ record ∈ records, (record.mismatch? jobId).isSome = true →
    record.id ∈ correctedIds job.source.applied

/-- The effects of an apply run: what they are cut to is sound, and a run that
returns complete has had everything corrected. -/
theorem Sound.run (h : job.Sound records jobId) (hwf : ∀ r ∈ records, r.WellFormed)
    (run : ApplyRun) : ∃ effects outcome,
      ReconciliationService.run records job.store (run.options jobId) = some (effects, outcome) ∧
      (∀ cut, cut <+: effects → (job.perform cut).Sound records jobId) ∧
      ∀ result, outcome = .ok result → result.complete = true →
        (job.perform effects).AllCorrected records jobId := by
  cases hconfig : normalizeOptions (run.options jobId) with
  | error error =>
    refine ⟨[], .error error, by simp only [ReconciliationService.run, hconfig], ?_, ?_⟩
    · intro cut hcut
      rw [List.prefix_nil.mp hcut]
      exact h
    · rintro result ⟨⟩
  | ok config =>
    obtain ⟨hjob,hmode,hb,hover,_⟩ := normalizeOptions_ok hconfig
    obtain ⟨st,hst⟩ : ∃ st, RunState.init config (job.store.load config.jobId) = st := ⟨_, rfl⟩
    obtain ⟨st',complete,hloop⟩ : ∃ st' complete,
        batchLoop records config (records.length+1) st 0 = some (st', .ok complete) := by
      obtain ⟨st',hloop,_⟩ := @batchLoop_eq config records st hwf hb (records.length+1) 0
        (by omega) _ rfl
      exact ⟨st', _, hloop⟩
    obtain ⟨seen,hend,hall⟩ := (h.underway config hjob hst).batches hwf hmode hjob hb hloop
    have hresume : config.startOver = false := hover
    refine ⟨st'.effects, .ok (st'.result config complete), ?_, hend.sound, ?_⟩
    · simp only [ReconciliationService.run, hconfig, hresume, Bool.false_eq_true, ↓reduceIte, hst,
        hloop, Option.map_some]
      rfl
    · intro result hresult hcomplete record hrecord hdiffers
      obtain rfl := Except.ok.inj hresult
      have hseen := hall (congrArg Except.ok hcomplete) hrecord
      exact hend.corrected _ (hend.seen record hseen hdiffers)

/-- What holds of a job between its runs. -/
structure Settled (records : List ReconciliationRecord) (jobId : String)
    (job : ReconciliationJob) : Prop extends job.Sound records jobId where
  complete : job.returned.any ReconciliationResult.complete = true →
    job.AllCorrected records jobId

theorem Sound.returns (h : job.Sound records jobId) (returned : Option ReconciliationResult) :
    Sound records jobId { job with returned } :=
  ⟨h.keys, h.nodup, h.due, h.recorded, h.behind⟩

theorem Settled.step (h : job.Settled records jobId) (hwf : ∀ r ∈ records, r.WellFormed)
    (run : InterruptibleRun) :
    ∃ next, step records jobId job run = some next ∧ next.Settled records jobId := by
  obtain ⟨effects,outcome,hrun,hsound,hcomplete⟩ := h.toSound.run hwf run.toApplyRun
  refine ⟨_, congrArg _ hrun, ?_⟩
  cases run.thrownAfter with
  | some n =>
    -- a run that has thrown has returned nothing
    have hcut := hsound (effects.take n) (List.take_prefix n effects)
    exact ⟨hcut.returns none, fun hnone => by cases hnone⟩
  | none =>
    have hall := hsound effects List.prefix_rfl
    refine ⟨hall.returns outcome.toOption, fun hreturned => ?_⟩
    cases outcome with
    | error error => cases hreturned
    | ok result => exact hcomplete result rfl hreturned

theorem Settled.exec (h : job.Settled records jobId) (hwf : ∀ r ∈ records, r.WellFormed)
    (runs : List InterruptibleRun) :
    ∃ last, exec (ReconciliationJob.step records jobId) job runs = some last ∧
      last.Settled records jobId := by
  induction runs generalizing job with
  | nil => exact ⟨job, rfl, h⟩
  | cons run rest ih =>
    obtain ⟨next,hnext,hsettled⟩ := h.step hwf run
    obtain ⟨last,hlast,hend⟩ := ih hsettled
    exact ⟨last, by rw [Interleaving.exec, hnext]; exact hlast, hend⟩

/-- However many runs of the job are cut off by a call that throws, before or
after it takes effect: once the last run returns complete, the source has been
corrected once for each id with a mismatch, and for no other. -/
theorem corrected_once_after_interruptions (records : List ReconciliationRecord)
    (hwf : ∀ record ∈ records, record.WellFormed) (jobId : String)
    (runs : List InterruptibleRun) :
    ∃ job, exec (step records jobId) start runs = some job ∧
      (job.returned.any ReconciliationResult.complete = true →
        (∀ record ∈ records, (record.mismatch? jobId).isSome = true →
          (correctedIds job.source.applied).count record.id = 1) ∧
        ∀ mismatch ∈ job.source.applied, ∃ record ∈ records,
          record.mismatch? jobId = some mismatch) := by
  have hstart : start.Settled records jobId :=
    ⟨sound_start records jobId, fun hnone => by cases hnone⟩
  obtain ⟨job,hexec,hsettled⟩ := hstart.exec hwf runs
  refine ⟨job, hexec, fun hreturned => ⟨fun record hrecord hdiffers => ?_, hsettled.due⟩⟩
  have hcorrected := hsettled.complete hreturned record hrecord hdiffers
  exact List.count_eq_one_of_mem hsettled.nodup hcorrected

/-- A run whose first correction is not saved, one that stops behind it, and one more. -/
theorem corrected_once_after_two_interruptions :
    ∃ job, exec (step nightlyRecords "nightly") start
        [{ confirmation := some "APPLY-RECONCILIATION", thrownAfter := some 1 },
          { confirmation := some "APPLY-RECONCILIATION", thrownAfter := some 2 },
          { confirmation := some "APPLY-RECONCILIATION" }] = some job ∧
      (job.returned.any ReconciliationResult.complete = true →
        (∀ record ∈ nightlyRecords, (record.mismatch? "nightly").isSome = true →
          (correctedIds job.source.applied).count record.id = 1) ∧
        ∀ mismatch ∈ job.source.applied, ∃ record ∈ nightlyRecords,
          record.mismatch? "nightly" = some mismatch) :=
  corrected_once_after_interruptions nightlyRecords nightlyRecords_wellFormed "nightly" _

end ReconciliationJob

end StreamPay
