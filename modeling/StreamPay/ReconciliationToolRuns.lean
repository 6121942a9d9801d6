import StreamPay.ReconciliationResumption
import StreamPay.ReconciliationTool

/-! The processes of the reconciliation tool carry out a job in memory: what is stored at
their path is its checkpoint, and they have corrected what it has, some of it twice. -/
namespace StreamPay
open Interleaving

namespace ReconciliationTool

/-- The path holds the checkpoint of the job, or none. -/
def Carries (path jobId : String) (files : CheckpointFiles) (job : ReconciliationJob) : Prop :=
  (JsonCheckpointStore.mk path).load files jobId = job.store.load jobId

variable {path jobId : String} {records : List ReconciliationRecord}

theorem Carries.of_get {files files' : CheckpointFiles} {job job' : ReconciliationJob}
    (h : Carries path jobId files job) (hget : files'.get path = files.get path)
    (hstore : job'.store = job.store) : Carries path jobId files' job' := by
  rw [Carries, JsonCheckpointStore.load, hget, hstore]
  exact h

theorem carries_save (path : String) (files : CheckpointFiles) (job : ReconciliationJob)
    {checkpoint : ReconciliationCheckpoint} (hjob : checkpoint.jobId = jobId) :
    Carries path jobId ((JsonCheckpointStore.mk path).save files checkpoint)
      (job.performOne (.save checkpoint)) := by
  have hget := (JsonCheckpointStore.mk path).get_save files checkpoint
  have hfile : (JsonCheckpointStore.mk path).load
      ((JsonCheckpointStore.mk path).save files checkpoint) jobId = some checkpoint := by
    rw [JsonCheckpointStore.load, hget]
    exact if_pos hjob
  have hmemory : (job.performOne (.save checkpoint)).store.load jobId = some checkpoint := by
    rw [← hjob]
    exact InsertionMap.get_set_self _ _ _
  exact hfile.trans hmemory.symm

/-- A source has what was applied to it before, and the new mismatch at most. -/
theorem applied_of_applyMismatch {source : InMemoryReconciliationSource}
    {mismatch : ReconciliationMismatch} {id : String}
    (h : id ∈ correctedIds (source.applyMismatch mismatch).applied) :
    id ∈ correctedIds source.applied ∨ id = mismatch.id := by
  unfold InMemoryReconciliationSource.applyMismatch at h
  split_ifs at h
  · exact Or.inl h
  · rw [correctedIds, List.map_append] at h
    exact (List.mem_append.mp h).imp_right List.mem_singleton.mp

theorem applied_mono (job : ReconciliationJob) (effects : List ReconciliationEffect) :
    correctedIds job.source.applied ⊆ correctedIds (job.perform effects).source.applied := by
  induction effects generalizing job with
  | nil => exact List.Subset.refl _
  | cons effect effects ih =>
    refine List.Subset.trans ?_ (ih (job.performOne effect))
    cases effect with
    | save checkpoint => exact List.Subset.refl _
    | applyMismatch mismatch =>
      rw [ReconciliationJob.performOne, InMemoryReconciliationSource.applyMismatch]
      split_ifs
      · exact List.Subset.refl _
      · exact List.map_subset _ (List.subset_append_left _ _)

/-- The job has had some of the effects, and its corrections are those of the process. -/
structure CarriedOut (path jobId : String) (files : CheckpointFiles) (job : ReconciliationJob)
    (effects whole : List ReconciliationEffect) (cut : List ToolOperation) : Prop where
  first : whole <+: effects
  all : cut = effects.flatMap (operations path) → whole = effects
  carries : Carries path jobId (performAll files cut) (job.perform whole)
  corrected : ∀ id ∈ correctedIds (job.perform whole).source.applied,
    id ∈ correctedIds job.source.applied ∨ id ∈ correctedBy cut

theorem CarriedOut.nothing {files : CheckpointFiles} {job : ReconciliationJob}
    (hcarries : Carries path jobId files job) {effects : List ReconciliationEffect}
    (hsome : effects.flatMap (operations path) = [] → effects = []) :
    CarriedOut path jobId files job effects [] [] where
  first := List.nil_prefix
  all h := (hsome h.symm).symm
  carries := hcarries
  corrected _ hid := Or.inl hid

/-- Wherever a process is cut off, the job has had the effects up to there. -/
theorem SavesEach.carriedOut {processed final : List String}
    {effects : List ReconciliationEffect} (h : SavesEach jobId processed effects final)
    {files : CheckpointFiles} {job : ReconciliationJob} (hcarries : Carries path jobId files job)
    {cut : List ToolOperation} (hcut : cut <+: effects.flatMap (operations path)) :
    ∃ whole, CarriedOut path jobId files job effects whole cut := by
  induction h generalizing files job cut with
  | nil processed =>
    rw [List.flatMap_nil, List.prefix_nil] at hcut
    rw [hcut]
    exact ⟨[], .nothing hcarries fun _ => rfl⟩
  | @saved processed final effects checkpoint hjob hids _ ih =>
    have hoperations : (ReconciliationEffect.save checkpoint :: effects).flatMap
        (operations path) = .writeFile (path ++ ".tmp") checkpoint ::
          .rename (path ++ ".tmp") path :: effects.flatMap (operations path) := rfl
    rw [hoperations] at hcut
    rcases List.prefix_cons_iff.mp hcut with rfl | ⟨cut₁,rfl,hcut₁⟩
    · exact ⟨[], .nothing hcarries fun h => by cases h⟩
    rcases List.prefix_cons_iff.mp hcut₁ with rfl | ⟨cut₂,rfl,hcut₂⟩
    · refine ⟨[], List.nil_prefix, fun h => (by cases h), hcarries.of_get ?_ rfl, fun _ => Or.inl⟩
      exact InsertionMap.get_set_of_ne _ _ (tmp_ne path).symm
    · obtain ⟨whole,hwhole⟩ := ih (carries_save path files job hjob) hcut₂
      refine ⟨.save checkpoint :: whole, List.cons_prefix_cons.mpr ⟨rfl, hwhole.first⟩,
        fun h => ?_, hwhole.carries, hwhole.corrected⟩
      rw [hoperations, List.cons.injEq, List.cons.injEq] at h
      rw [hwhole.all h.2.2]
  | @corrected processed final effects mismatch checkpoint hnew hjob hids _ ih =>
    have hoperations : (.applyMismatch mismatch :: ReconciliationEffect.save checkpoint ::
        effects).flatMap (operations path) = .applyMismatch mismatch ::
          .writeFile (path ++ ".tmp") checkpoint :: .rename (path ++ ".tmp") path ::
          effects.flatMap (operations path) := rfl
    let corrected := job.performOne (.applyMismatch mismatch)
    have hcorrected (id : String) (hid : id ∈ correctedIds corrected.source.applied) :
        id ∈ correctedIds job.source.applied ∨ id = mismatch.id := applied_of_applyMismatch hid
    rw [hoperations] at hcut
    rcases List.prefix_cons_iff.mp hcut with rfl | ⟨cut₁,rfl,hcut₁⟩
    · exact ⟨[], .nothing hcarries fun h => by cases h⟩
    rcases List.prefix_cons_iff.mp hcut₁ with rfl | ⟨cut₂,rfl,hcut₂⟩
    · refine ⟨[.applyMismatch mismatch], ⟨_, rfl⟩, fun h => (by cases h), hcarries,
        fun id hid => ?_⟩
      exact (hcorrected id hid).imp_right List.mem_singleton.mpr
    rcases List.prefix_cons_iff.mp hcut₂ with rfl | ⟨cut₃,rfl,hcut₃⟩
    · refine ⟨[.applyMismatch mismatch], ⟨_, rfl⟩, fun h => (by cases h),
        hcarries.of_get ?_ rfl, fun id hid => ?_⟩
      · exact InsertionMap.get_set_of_ne _ _ (tmp_ne path).symm
      · exact (hcorrected id hid).imp_right List.mem_singleton.mpr
    · obtain ⟨whole,hwhole⟩ := ih (carries_save path files corrected hjob) hcut₃
      refine ⟨.applyMismatch mismatch :: .save checkpoint :: whole,
        List.cons_prefix_cons.mpr ⟨rfl, List.cons_prefix_cons.mpr ⟨rfl, hwhole.first⟩⟩,
        fun h => ?_, hwhole.carries, fun id hid => ?_⟩
      · rw [hoperations, List.cons.injEq, List.cons.injEq, List.cons.injEq] at h
        rw [hwhole.all h.2.2.2]
      · rcases hwhole.corrected id hid with hid | hid
        · exact (hcorrected id hid).imp_right fun h => List.mem_cons.mpr (Or.inl h)
        · exact Or.inr (List.mem_cons_of_mem _ hid)

def applyRun (options : ReconciliationOptions) : ApplyRun where
  confirmation := options.confirmation
  expectedConfirmation := options.expectedConfirmation
  batchSize := options.batchSize
  maxBatches := options.maxBatches

/-- Options that apply and do not start over are those of an apply run. -/
theorem runLoading_eq_run (records : List ReconciliationRecord) {options : ReconciliationOptions}
    (hmode : options.mode = .apply) (hjob : options.jobId = jobId)
    (hresume : options.startOver ≠ some true) {load : String → Option ReconciliationCheckpoint}
    {store : InMemoryCheckpointStore} (hload : load jobId = store.load jobId) :
    ReconciliationService.runLoading records load options =
      ReconciliationService.run records store ((applyRun options).options jobId) := by
  have hsame : normalizeOptions options = normalizeOptions ((applyRun options).options jobId) := by
    obtain ⟨job,mode,confirmation,expected,batchSize,startOver,maxBatches⟩ := options
    obtain rfl := hmode
    obtain rfl := hjob
    match startOver with
    | none => rfl
    | some false => rfl
    | some true => exact absurd rfl hresume
  rw [run_eq_runLoading, ReconciliationService.runLoading, ReconciliationService.runLoading, hsame]
  cases hconfig : normalizeOptions ((applyRun options).options jobId) with
  | error error => rfl
  | ok config =>
    have hown : config.jobId = jobId := (normalizeOptions_ok hconfig).1
    simp only [hown, hload]

theorem mem_of_scanned {ending : RunEnd} {start : ℕ} {record : ReconciliationRecord}
    (h : record ∈ ending.scanned records start) : record ∈ records := by
  cases ending with
  | idle => cases h
  | stopped cursor => exact List.mem_of_mem_drop (List.mem_of_mem_take h)
  | complete => exact List.mem_of_mem_drop h

/-- A run corrects nothing that agrees. -/
theorem due_of_run (hwf : ∀ record ∈ records, record.WellFormed) {store : InMemoryCheckpointStore}
    {run : ApplyRun} {effects : List ReconciliationEffect}
    {outcome : Except ReconciliationInputError ReconciliationResult}
    (hrun : ReconciliationService.run records store (run.options jobId) = some (effects, outcome))
    {mismatch : ReconciliationMismatch} (hmem : .applyMismatch mismatch ∈ effects) :
    ∃ record ∈ records, record.id = mismatch.id ∧ (record.mismatch? jobId).isSome = true := by
  cases hconfig : normalizeOptions (run.options jobId) with
  | error error =>
    simp only [ReconciliationService.run, hconfig] at hrun
    rw [← (Prod.mk.inj (Option.some.inj hrun)).1] at hmem
    cases hmem
  | ok config =>
    obtain ⟨hjob,hmode,_⟩ := normalizeOptions_ok hconfig
    obtain ⟨effects',result,hrun',_,hpassed,_⟩ := run_eq hwf store hconfig rfl rfl
    obtain rfl := (Prod.mk.inj (Option.some.inj (hrun.symm.trans hrun'))).1
    have hmem' : mismatch ∈ passedMismatches effects :=
      List.mem_filterMap.mpr ⟨_, hmem, rfl⟩
    have hnotDry : config.mode ≠ .dryRun := by
      rw [hmode]
      exact ReconciliationMode.noConfusion
    rw [hpassed, ReconciliationConfig.corrects, if_neg hnotDry] at hmem'
    obtain ⟨_,record,hfirst,hm⟩ := mem_corrections.mp hmem'
    have hown : config.jobId = jobId := hjob
    rw [hown] at hm
    refine ⟨record, mem_of_scanned (List.mem_of_find?_eq_some hfirst), ?_, ?_⟩
    · rw [record_of_mismatch? hm]
    · rw [hm]
      rfl

/-- What holds between any two processes: a job in memory is as far as they are. -/
structure InStep (records : List ReconciliationRecord) (path jobId : String)
    (files : CheckpointFiles) (reports : List ToolReport) (job : ReconciliationJob) : Prop where
  carries : Carries path jobId files job
  sound : job.Sound records jobId
  reported : ∀ id ∈ correctedIds job.source.applied, ∃ report ∈ reports, id ∈ report.corrected
  due : ∀ report ∈ reports, ∀ id ∈ report.corrected,
    ∃ record ∈ records, record.id = id ∧ (record.mismatch? jobId).isSome = true
  complete : ∀ report ∈ reports, ∀ result, report.result = some result →
    result.complete = true → job.AllCorrected records jobId

variable {number : String → JsNumber}

theorem InStep.other {files files' : CheckpointFiles} {reports : List ToolReport}
    {job : ReconciliationJob} (h : InStep records path jobId files reports job)
    (hget : files'.get path = files.get path) :
    InStep records path jobId files' reports job :=
  ⟨h.carries.of_get hget rfl, h.sound, h.reported, h.due, h.complete⟩

/-- A process that is killed tells of no result. -/
theorem result_of_tell {process : ToolProcess} {planned : List ToolOperation}
    {outcome : Except String ReconciliationResult} {result : ReconciliationResult}
    (h : (tell process planned outcome).result = some result) :
    process.killedAfter = none ∧ outcome = .ok result := by
  simp only [tell] at h
  split_ifs at h with hkilled
  cases outcome with
  | error error => cases h
  | ok returned =>
    exact ⟨Option.not_isSome_iff_eq_none.mp hkilled, congrArg _ (Option.some.inj h)⟩

/-- The process at the path takes the job as far as it comes itself. -/
theorem InStep.apply {files : CheckpointFiles} {reports : List ToolReport}
    {job : ReconciliationJob} (h : InStep records path jobId files reports job)
    (hwf : ∀ record ∈ records, record.WellFormed) {process : ToolProcess} {options : CliOptions}
    (hparsed : parseCliArgs number process.args = .ok options)
    (hpath : options.checkpointPath = path) (hjob : options.jobId = jobId)
    (hresume : options.startOver ≠ some true) (hmode : options.mode = .apply)
    (hinput : process.input options.inputPath = .records records) :
    ∃ planned outcome next, main number files process.input process.args =
        some (planned, outcome) ∧
      InStep records path jobId (performAll files (done process planned))
        (reports ++ [tell process planned outcome]) next := by
  let run := (applyRun options.toReconciliationOptions).options jobId
  obtain ⟨effects,outcome,hrun,hsound,hcomplete⟩ :=
    h.sound.run hwf (applyRun options.toReconciliationOptions)
  have hmain : main number files process.input process.args = some
      (effects.flatMap (operations path), outcome.mapError ReconciliationInputError.message) := by
    have hsame := runLoading_eq_run records hmode hjob hresume h.carries
    simp only [main, hparsed, hinput, hpath, hsame, hrun, Option.map_some]
  have hsaves : ∃ processed final, SavesEach jobId processed effects final := by
    obtain ⟨effects',outcome',processed,final,hrun',hsaves,_⟩ :=
      @runLoading_saves records job.store.load run fun checkpoint hload =>
        job.store.keyed jobId checkpoint hload
    rw [← run_eq_runLoading, hrun] at hrun'
    obtain ⟨rfl,_⟩ := Prod.mk.inj (Option.some.inj hrun')
    exact ⟨processed, final, hsaves⟩
  obtain ⟨processed,final,hsaves⟩ := hsaves
  obtain ⟨whole,hwhole⟩ := hsaves.carriedOut h.carries
    (done_isPrefix process (effects.flatMap (operations path)))
  refine ⟨_, _, job.perform whole, hmain, hwhole.carries, hsound whole hwhole.first, ?_, ?_, ?_⟩
  · intro id hid
    rcases hwhole.corrected id hid with hid | hid
    · obtain ⟨report,hreport,hid⟩ := h.reported id hid
      exact ⟨report, List.mem_append_left _ hreport, hid⟩
    · exact ⟨_, List.mem_append_right _ (List.mem_singleton_self _), hid⟩
  · intro report hreport id hid
    rcases List.mem_append.mp hreport with hreport | hreport
    · exact h.due report hreport id hid
    · rw [List.mem_singleton.mp hreport] at hid
      have hplanned : id ∈ correctedBy (effects.flatMap (operations path)) :=
        (List.Sublist.filterMap _ (done_isPrefix process _).sublist).subset hid
      obtain ⟨mismatch,hmem,rfl⟩ := mem_effects_of_corrected hplanned
      exact due_of_run hwf hrun hmem
  · intro report hreport result hresult hdone
    rcases List.mem_append.mp hreport with hreport | hreport
    · intro record hrecord hdiffers
      exact applied_mono job whole (h.complete report hreport result hresult hdone record hrecord
        hdiffers)
    · rw [List.mem_singleton.mp hreport] at hresult
      obtain ⟨hended,hreturned⟩ := result_of_tell hresult
      have hall : done process (effects.flatMap (operations path)) =
          effects.flatMap (operations path) := by rw [done, hended]
      rw [hwhole.all hall]
      cases outcome with
      | error error => cases hreturned
      | ok returned => exact hcomplete result (congrArg _ (Except.ok.inj hreturned)) hdone

end ReconciliationTool
end StreamPay
