import StreamPay.ReconciliationRuns

/-! Where a run finds and leaves its job: the position kept in the checkpoint. -/
namespace StreamPay

/-- Where the next run of a job starts and what it takes as processed. -/
structure ReconciliationPosition where
  start : ℕ
  processed : List String

def ReconciliationPosition.zero : ReconciliationPosition := ⟨0, []⟩

/-- Positions from which runs make the same corrections. -/
def ReconciliationPosition.Same (p q : ReconciliationPosition) : Prop :=
  p.start = q.start ∧ ∀ id, id ∈ p.processed ↔ id ∈ q.processed

namespace InMemoryCheckpointStore

def position (store : InMemoryCheckpointStore) (jobId : String) : ReconciliationPosition :=
  match store.load jobId with
  | none => .zero
  | some checkpoint => ⟨checkpoint.nextCursor.getD 0, checkpoint.processedIds⟩

theorem perform_append (store : InMemoryCheckpointStore)
    (effects effects' : List ReconciliationEffect) :
    store.perform (effects ++ effects') = (store.perform effects).perform effects' := by
  induction effects generalizing store with
  | nil => rfl
  | cons effect rest ih =>
    cases effect with
    | applyMismatch mismatch => exact ih store
    | save checkpoint => exact ih (store.save checkpoint)

theorem load_perform_save (store : InMemoryCheckpointStore) (effects : List ReconciliationEffect)
    (checkpoint : ReconciliationCheckpoint) :
    (store.perform (effects ++ [.save checkpoint])).load checkpoint.jobId = some checkpoint := by
  rw [perform_append]
  exact InsertionMap.get_set_self _ _ _

theorem position_save (store : InMemoryCheckpointStore) (checkpoint : ReconciliationCheckpoint) :
    (store.save checkpoint).position checkpoint.jobId =
      ⟨checkpoint.nextCursor.getD 0, checkpoint.processedIds⟩ := by
  have hload : (store.save checkpoint).load checkpoint.jobId = some checkpoint :=
    InsertionMap.get_set_self _ _ _
  rw [position, hload]

end InMemoryCheckpointStore

/-- Where a run leaves its job, if it corrects the records of `corrected`. -/
def RunEnd.leaves (before used : ReconciliationPosition) (corrected : List String) :
    RunEnd → ReconciliationPosition
  | .idle => before
  | .stopped cursor => ⟨cursor, used.processed ++ corrected⟩
  | .complete => ⟨0, used.processed ++ corrected⟩

def ReconciliationConfig.startFrom (config : ReconciliationConfig) (stored : ReconciliationPosition) :
    ReconciliationPosition :=
  if config.startOver then .zero else stored

theorem normalizeBatchSize_pos {batchSize : Option JsNumber} {b : ℕ}
    (h : normalizeBatchSize batchSize = some b) : 1 ≤ b := by
  unfold normalizeBatchSize at h
  split at h
  · split_ifs at h with hn
    rw [← Option.some.inj h]
    omega
  · exact absurd h (by simp)

theorem normalizeOptions_ok {options : ReconciliationOptions} {config : ReconciliationConfig}
    (h : normalizeOptions options = .ok config) :
    config.jobId = options.jobId ∧ config.mode = options.mode ∧ 1 ≤ config.batchSize ∧
      config.startOver = options.startOver.getD false ∧
      config.maxBatches = options.maxBatches.getD .infinity := by
  unfold normalizeOptions at h
  split_ifs at h
  split at h
  · exact absurd h (by simp)
  · rename_i b hb
    dsimp only at h
    split_ifs at h
    rw [← Except.ok.inj h]
    exact ⟨rfl, rfl, normalizeBatchSize_pos hb, rfl, rfl⟩

theorem mem_sortedIds {processed : List String} {id : String} :
    id ∈ sortedIds processed ↔ id ∈ processed :=
  List.mem_insertionSort _

theorem ReconciliationConfig.corrects_congr (config : ReconciliationConfig)
    {processed processed' : List String} (h : ∀ id, id ∈ processed ↔ id ∈ processed')
    (records : List ReconciliationRecord) :
    config.corrects processed records = config.corrects processed' records := by
  unfold ReconciliationConfig.corrects
  split_ifs
  · rfl
  · exact corrections_congr config.jobId h records

/-- A run that resumes starts from the position that its job has been left in. -/
theorem RunState.init_load (config : ReconciliationConfig) (store : InMemoryCheckpointStore) :
    let st := RunState.init config (store.load config.jobId)
    st.checkpoint.nextCursor.getD 0 = (store.position config.jobId).start ∧
      st.processed = (store.position config.jobId).processed.eraseDups ∧
      st.checkpoint.jobId = config.jobId ∧ st.effects = [] := by
  rw [InMemoryCheckpointStore.position]
  cases hload : store.load config.jobId with
  | none => exact ⟨rfl, rfl, rfl, rfl⟩
  | some checkpoint => exact ⟨rfl, rfl, store.keyed _ _ hload, rfl⟩

/-- A run whose options are accepted: it ends, corrects what it scans and leaves
its job where it stopped. -/
theorem run_eq {records : List ReconciliationRecord}
    (hwf : ∀ record ∈ records, record.WellFormed) (store : InMemoryCheckpointStore)
    {options : ReconciliationOptions} {config : ReconciliationConfig}
    (hconfig : normalizeOptions options = .ok config) {p : ReconciliationPosition}
    (hp : config.startFrom (store.position config.jobId) = p) {ending : RunEnd}
    (hending : runEnd records.length config.batchSize p.start config.maxBatches.natsBelow =
      ending) :
    ∃ effects result, ReconciliationService.run records store options =
        some (effects, .ok result) ∧ result.complete = ending.isComplete ∧
      passedMismatches effects = config.corrects p.processed (ending.scanned records p.start) ∧
      ((store.perform effects).position config.jobId).Same
        (ending.leaves (store.position config.jobId) p
          (correctedIds (config.corrects p.processed (ending.scanned records p.start)))) := by
  obtain ⟨_,_,hb,_⟩ := normalizeOptions_ok hconfig
  set previous := if config.startOver then none else store.load config.jobId with hprevious
  set st := RunState.init config previous with hst
  have hstart : st.checkpoint.nextCursor.getD 0 = p.start ∧
      (∀ id, id ∈ st.processed ↔ id ∈ p.processed) ∧ st.checkpoint.jobId = config.jobId := by
    rw [← hp, ReconciliationConfig.startFrom, hst, hprevious]
    cases hover : config.startOver with
    | true => exact ⟨rfl, fun id => List.mem_eraseDups, rfl⟩
    | false =>
      obtain ⟨hcursor,hprocessed,hjob,_⟩ := RunState.init_load config store
      simp only [Bool.false_eq_true, ↓reduceIte]
      exact ⟨hcursor, fun id => by rw [hprocessed, List.mem_eraseDups], hjob⟩
  obtain ⟨hcursor,hproc,hjob⟩ := hstart
  have hleft : config.batchesLeft 0 = config.maxBatches.natsBelow := by
    cases h : config.maxBatches.natsBelow <;> simp [ReconciliationConfig.batchesLeft, h]
  have hending' : runEnd records.length config.batchSize (st.checkpoint.nextCursor.getD 0)
      (config.batchesLeft 0) = ending := by
    rw [hcursor, hleft, hending]
  obtain ⟨st',hloop,hran⟩ := batchLoop_eq hwf hb (records.length+1) 0
    (show records.length-st.checkpoint.nextCursor.getD 0 < records.length+1 by omega) hending'
  have hcorrects := config.corrects_congr hproc
    (ending.scanned records (st.checkpoint.nextCursor.getD 0))
  have hpassed := hran.passed
  have hprocessed := hran.processed
  rw [hcorrects, hcursor] at hpassed hprocessed
  have hmem (id : String) : id ∈ st'.processed ↔ id ∈ p.processed ++ correctedIds
      (config.corrects p.processed (ending.scanned records p.start)) := by
    rw [hprocessed, List.mem_append, List.mem_append, hproc]
  refine ⟨st'.effects, st'.result config ending.isComplete, ?_, rfl, ?_, ?_⟩
  · unfold ReconciliationService.run
    simp only [hconfig, ← hprevious, ← hst, hloop, Option.map_some]
    rfl
  · rw [hpassed]
    exact List.nil_append _
  · -- the last save of a run is where the job is left
    have hsaved (cursor : Option ℕ) (h : st'.Saved cursor) :
        ((store.perform st'.effects).position config.jobId).Same ⟨cursor.getD 0,
          p.processed ++ correctedIds (config.corrects p.processed
            (ending.scanned records p.start))⟩ := by
      obtain ⟨effects,checkpoint,heffects,hid,hnext,hids⟩ := h
      have hload := store.load_perform_save effects checkpoint
      rw [← heffects, hid, hran.jobId, hjob] at hload
      simp only [InMemoryCheckpointStore.position, hload]
      exact ⟨congrArg (·.getD 0) hnext, fun id => by rw [hids, mem_sortedIds, hmem]⟩
    have hend := hran.left
    cases ending with
    | idle =>
      obtain rfl := hend
      exact ⟨rfl, fun _ => Iff.rfl⟩
    | stopped cursor => exact hsaved _ hend
    | complete => exact hsaved _ hend

end StreamPay
