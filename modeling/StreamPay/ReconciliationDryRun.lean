import StreamPay.ReconciliationPositions

/-! A dry run and the apply runs after it share the checkpoint of their job. -/
namespace StreamPay

/-- The free options of an apply run of a job, which does not start over. -/
structure ApplyRun where
  confirmation : Option String := none
  expectedConfirmation : Option String := none
  batchSize : Option JsNumber := none
  maxBatches : Option JsNumber := none

def ApplyRun.options (run : ApplyRun) (jobId : String) : ReconciliationOptions where
  jobId := jobId
  mode := .apply
  confirmation := run.confirmation
  expectedConfirmation := run.expectedConfirmation
  batchSize := run.batchSize
  maxBatches := run.maxBatches

structure DryRun where
  confirmation : Option String := none
  expectedConfirmation : Option String := none
  batchSize : Option JsNumber := none
  startOver : Option Bool := none
  maxBatches : Option JsNumber := none

def DryRun.options (run : DryRun) (jobId : String) : ReconciliationOptions where
  jobId := jobId
  mode := .dryRun
  confirmation := run.confirmation
  expectedConfirmation := run.expectedConfirmation
  batchSize := run.batchSize
  startOver := run.startOver
  maxBatches := run.maxBatches

def returnsComplete : Except ReconciliationInputError ReconciliationResult → Bool
  | .ok result => result.complete
  | .error _ => false

/-- Apply runs of a job until one returns `complete: true`: what they pass to
`applyMismatch` together, or `none` if the runs end before that. -/
def applyUntilComplete (records : List ReconciliationRecord) (jobId : String) :
    List ApplyRun → InMemoryCheckpointStore → Option (List ReconciliationMismatch)
  | [], _ => none
  | run :: rest, store =>
    match ReconciliationService.run records store (run.options jobId) with
    | none => none
    | some (effects, outcome) =>
      if returnsComplete outcome then some (passedMismatches effects)
      else (applyUntilComplete records jobId rest (store.perform effects)).map
        (passedMismatches effects ++ ·)

/-- Whatever the runs and their batches, the corrections are those of the records
from the stored position on. -/
theorem applyUntilComplete_eq {records : List ReconciliationRecord}
    (hwf : ∀ record ∈ records, record.WellFormed) {jobId : String} {runs : List ApplyRun}
    {store : InMemoryCheckpointStore} {passed : List ReconciliationMismatch}
    (h : applyUntilComplete records jobId runs store = some passed) :
    passed = corrections jobId (store.position jobId).processed
      (records.drop (store.position jobId).start) := by
  induction runs generalizing store passed with
  | nil => exact absurd h (by simp [applyUntilComplete])
  | cons run rest ih =>
    rw [applyUntilComplete] at h
    cases hconfig : normalizeOptions (run.options jobId) with
    | error error =>
      -- a refused run has no effects
      have hrun : ReconciliationService.run records store (run.options jobId) =
          some ([], .error error) := by simp only [ReconciliationService.run, hconfig]
      simp only [hrun, returnsComplete, Bool.false_eq_true, ↓reduceIte] at h
      obtain ⟨tail,htail,rfl⟩ := Option.map_eq_some_iff.mp h
      exact ih htail
    | ok config =>
      obtain ⟨hjob,hmode,_,hover,_⟩ := normalizeOptions_ok hconfig
      have hfrom : config.startFrom (store.position config.jobId) = store.position jobId := by
        rw [ReconciliationConfig.startFrom, hover, hjob]
        rfl
      have hcorrects (processed : List String) (rs : List ReconciliationRecord) :
          config.corrects processed rs = corrections jobId processed rs := by
        rw [ReconciliationConfig.corrects, if_neg (by simp [hmode, ApplyRun.options]), hjob]
        rfl
      obtain ⟨ending,hend⟩ : ∃ ending, runEnd records.length config.batchSize
        (store.position jobId).start config.maxBatches.natsBelow = ending := ⟨_, rfl⟩
      obtain ⟨effects,result,hrun,hcomplete,hpassed,hsame⟩ := run_eq hwf store hconfig hfrom hend
      rw [hcorrects] at hpassed hsame
      rw [show config.jobId = jobId from hjob] at hsame
      simp only [hrun, returnsComplete, hcomplete] at h
      cases ending with
      | idle =>
        simp only [RunEnd.isComplete, Bool.false_eq_true, ↓reduceIte] at h
        obtain ⟨tail,htail,rfl⟩ := Option.map_eq_some_iff.mp h
        rw [hpassed, ih htail, hsame.1, corrections_congr jobId hsame.2]
        rfl
      | stopped cursor =>
        -- the next run takes over at the cursor with the ids corrected so far
        simp only [RunEnd.isComplete, Bool.false_eq_true, ↓reduceIte] at h
        obtain ⟨tail,htail,rfl⟩ := Option.map_eq_some_iff.mp h
        have hle := (runEnd_stopped hend).1
        have hsplit : records.drop (store.position jobId).start =
            RunEnd.scanned records (store.position jobId).start (.stopped cursor) ++
              records.drop cursor := by
          have htake := (List.take_append_drop (cursor-(store.position jobId).start)
            (records.drop (store.position jobId).start)).symm
          rwa [List.drop_drop, Nat.add_sub_cancel' hle] at htake
        rw [hsplit, corrections_append, hpassed, ih htail, hsame.1,
          corrections_congr jobId hsame.2]
        rfl
      | complete =>
        simp only [RunEnd.isComplete, ↓reduceIte] at h
        rw [← Option.some.inj h, hpassed]
        rfl

theorem exists_applyUntilComplete {records : List ReconciliationRecord}
    (hwf : ∀ record ∈ records, record.WellFormed) {jobId : String}
    (hjob : jobId.isBlank = false) (store : InMemoryCheckpointStore) :
    ∃ runs passed, applyUntilComplete records jobId runs store = some passed := by
  let run : ApplyRun := { confirmation := some "APPLY-RECONCILIATION" }
  obtain ⟨config,hconfig⟩ : ∃ config, normalizeOptions (run.options jobId) = .ok config := by
    have hsize : normalizeBatchSize none = some 100 := by decide
    simp [normalizeOptions, ApplyRun.options, run, hjob, hsize]
  have hunlimited : config.maxBatches.natsBelow = none := by
    rw [(normalizeOptions_ok hconfig).2.2.2.2]
    rfl
  obtain ⟨effects,result,hrun,hcomplete,_⟩ := run_eq hwf store hconfig rfl rfl
  rw [hunlimited] at hcomplete
  refine ⟨[run], passedMismatches effects, ?_⟩
  simp only [applyUntilComplete, hrun, returnsComplete, hcomplete, runEnd, RunEnd.isComplete,
    ↓reduceIte]

/-- Where a dry run leaves its job: behind its last batch, at the beginning if it
came to the end of the records, unmoved if it read nothing. -/
def dryRunLeaves (length : ℕ) (jobId : String) (dry : DryRun) (stored : ReconciliationPosition) :
    ReconciliationPosition :=
  match normalizeOptions (dry.options jobId) with
  | .error _ => stored
  | .ok config =>
    (runEnd length config.batchSize (config.startFrom stored).start
      config.maxBatches.natsBelow).leaves stored (config.startFrom stored) []

theorem position_after_dryRun {records : List ReconciliationRecord}
    (hwf : ∀ record ∈ records, record.WellFormed) (store : InMemoryCheckpointStore)
    (jobId : String) (dry : DryRun) :
    ∃ effects outcome, ReconciliationService.run records store (dry.options jobId) =
        some (effects, outcome) ∧
      ((store.perform effects).position jobId).Same
        (dryRunLeaves records.length jobId dry (store.position jobId)) := by
  unfold dryRunLeaves
  cases hconfig : normalizeOptions (dry.options jobId) with
  | error error =>
    refine ⟨[], .error error, ?_, rfl, fun _ => Iff.rfl⟩
    simp only [ReconciliationService.run, hconfig]
  | ok config =>
    obtain ⟨hjob,hmode,_⟩ := normalizeOptions_ok hconfig
    obtain ⟨effects,result,hrun,_,_,hsame⟩ := run_eq hwf store hconfig rfl rfl
    have hnone (processed : List String) (rs : List ReconciliationRecord) :
        config.corrects processed rs = [] := if_pos hmode
    rw [hnone, show config.jobId = jobId from hjob] at hsame
    exact ⟨effects, .ok result, hrun, hsame⟩

/-- The apply runs after the dry run make the same set of corrections, however
they are cut into runs and batches, as without the dry run. -/
def DryRunHarmless (records : List ReconciliationRecord) (store : InMemoryCheckpointStore)
    (jobId : String) (dry : DryRun) : Prop :=
  ∀ effects outcome, ReconciliationService.run records store (dry.options jobId) =
      some (effects, outcome) →
    ∀ runs runs' passed passed',
      applyUntilComplete records jobId runs (store.perform effects) = some passed →
      applyUntilComplete records jobId runs' store = some passed' →
      ∀ mismatch, mismatch ∈ passed ↔ mismatch ∈ passed'

def ReconciliationPosition.pending (p : ReconciliationPosition)
    (records : List ReconciliationRecord) (id : String) : Option ReconciliationRecord :=
  pendingMismatch p.processed (records.drop p.start) id

theorem ReconciliationPosition.Same.pending_eq {p q : ReconciliationPosition} (h : p.Same q)
    (records : List ReconciliationRecord) (id : String) :
    p.pending records id = q.pending records id := by
  simp only [ReconciliationPosition.pending, pendingMismatch, h.1, h.2 id]

/-- A dry run has no influence on later corrections exactly when the same mismatch
of every id is pending from where it leaves the job as from where it found it. -/
theorem dryRun_harmless_iff {records : List ReconciliationRecord}
    (hwf : ∀ record ∈ records, record.WellFormed) (store : InMemoryCheckpointStore)
    (jobId : String) (dry : DryRun) :
    DryRunHarmless records store jobId dry ↔
      ∀ id, (dryRunLeaves records.length jobId dry (store.position jobId)).pending records id =
        (store.position jobId).pending records id := by
  obtain ⟨effects,outcome,hdry,hsame⟩ := position_after_dryRun hwf store jobId dry
  have hiff := same_corrections_iff jobId ((store.perform effects).position jobId).processed
    (store.position jobId).processed
    (records.drop ((store.perform effects).position jobId).start)
    (records.drop (store.position jobId).start)
  have hpending : (∀ id, pendingMismatch ((store.perform effects).position jobId).processed
        (records.drop ((store.perform effects).position jobId).start) id =
        pendingMismatch (store.position jobId).processed
          (records.drop (store.position jobId).start) id) ↔
      ∀ id, (dryRunLeaves records.length jobId dry (store.position jobId)).pending records id =
        (store.position jobId).pending records id :=
    forall_congr' fun id => by rw [← hsame.pending_eq]; rfl
  rw [← hpending, ← hiff]
  constructor
  · intro h
    cases hblank : jobId.isBlank with
    | false =>
      obtain ⟨runs,passed,hruns⟩ := exists_applyUntilComplete hwf hblank (store.perform effects)
      obtain ⟨runs',passed',hruns'⟩ := exists_applyUntilComplete hwf hblank store
      have hmem := h effects outcome hdry runs runs' passed passed' hruns hruns'
      rwa [applyUntilComplete_eq hwf hruns, applyUntilComplete_eq hwf hruns'] at hmem
    | true =>
      -- a blank job id is refused before anything happens
      have hrefused : normalizeOptions (dry.options jobId) = .error ⟨"jobId is required"⟩ :=
        if_pos hblank
      have hnothing : effects = [] := by
        simp only [ReconciliationService.run, hrefused, Option.some.injEq, Prod.mk.injEq] at hdry
        exact hdry.1.symm
      rw [hnothing]
      exact fun _ => Iff.rfl
  · intro h effects' outcome' hdry' runs runs' passed passed' hruns hruns'
    obtain rfl : effects = effects' := by
      have := hdry.symm.trans hdry'
      exact congrArg Prod.fst (Option.some.inj this)
    rw [applyUntilComplete_eq hwf hruns, applyUntilComplete_eq hwf hruns']
    exact h

def InMemoryCheckpointStore.empty : InMemoryCheckpointStore where
  checkpoints := .empty
  keyed jobId checkpoint h := by simp at h

/-- Two records, of which the first has to be corrected. -/
def nightlyRecords : List ReconciliationRecord :=
  [{ id := "stream-1", expectedAmount := "10", actualAmount := "9.5" },
    { id := "stream-2", expectedAmount := "4.25", actualAmount := "4.250" }]

theorem nightlyRecords_wellFormed : ∀ record ∈ nightlyRecords, record.WellFormed := by
  intro record hrecord
  rcases List.mem_pair.mp hrecord with rfl | rfl <;> exact ⟨by decide, by decide, by decide⟩

theorem complete_dryRun_harmless :
    DryRunHarmless nightlyRecords .empty "nightly" { batchSize := some (.finite 1) } := by
  refine (dryRun_harmless_iff nightlyRecords_wellFormed .empty "nightly" _).mpr fun id => ?_
  have hleaves : dryRunLeaves nightlyRecords.length "nightly"
      { batchSize := some (.finite 1) } .zero = .zero := rfl
  exact congrArg (·.pending nightlyRecords id) hleaves

/-- A dry run stopped behind the first record: the apply run completes without a correction. -/
theorem stopped_dryRun_hides_mismatch :
    ¬ ∀ (records : List ReconciliationRecord) (store : InMemoryCheckpointStore) (jobId : String)
      (dry : DryRun), (∀ record ∈ records, record.WellFormed) →
        DryRunHarmless records store jobId dry := by
  intro h
  let apply : ApplyRun := { confirmation := some "APPLY-RECONCILIATION" }
  let mismatch : ReconciliationMismatch := {
    id := "stream-1"
    expectedAmount := "10"
    actualAmount := "9.5"
    difference := "-0.5"
    operationKey := "reconciliation:nightly:stream-1" }
  have hdry : ReconciliationService.run nightlyRecords .empty
      (DryRun.options { batchSize := some (.finite 1), maxBatches := some (.finite 1) } "nightly") =
      some ([.save ⟨"nightly", some 1, [], 1, 1⟩],
        .ok ⟨.dryRun, 1, 1, 0, 0, some 1, false, [mismatch]⟩) := by decide
  have hafter : applyUntilComplete nightlyRecords "nightly" [apply]
      (InMemoryCheckpointStore.empty.perform [.save ⟨"nightly", some 1, [], 1, 1⟩]) =
      some [] := by decide
  have hbefore : applyUntilComplete nightlyRecords "nightly" [apply] .empty =
      some [mismatch] := by decide
  have hsame := h _ _ _ _ nightlyRecords_wellFormed _ _ hdry _ _ _ _ hafter hbefore mismatch
  exact absurd (hsame.mpr List.mem_cons_self) (by simp)

end StreamPay
