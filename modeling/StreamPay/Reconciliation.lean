import Mathlib.Data.List.Sort
import StreamPay.Library.InsertionMap
import StreamPay.Library.JsNumber
import StreamPay.Library.JsString
import StreamPay.ReconciliationAmounts

/-! The resumable reconciliation run over a fixed list of records. What a run
does to the outside is the list of its effects, in order. -/
namespace StreamPay

structure ReconciliationRecord where
  id : String
  expectedAmount : String
  actualAmount : String
  status : Option String := none
  metadata : Option String := none
  deriving DecidableEq, Repr

structure ReconciliationMismatch extends ReconciliationRecord where
  difference : String
  operationKey : String
  deriving DecidableEq, Repr

/-- A checkpoint without its update time, which nothing reads. Cursors are kept
as the numbers spelled by the texts that `readBatch` hands out. -/
structure ReconciliationCheckpoint where
  jobId : String
  nextCursor : Option ℕ
  processedIds : List String
  scanned : ℕ
  mismatches : ℕ
  deriving DecidableEq, Repr

inductive ReconciliationMode
  | dryRun | apply
  deriving DecidableEq, Repr

structure ReconciliationOptions where
  jobId : String
  mode : ReconciliationMode
  confirmation : Option String := none
  expectedConfirmation : Option String := none
  batchSize : Option JsNumber := none
  startOver : Option Bool := none
  maxBatches : Option JsNumber := none

structure ReconciliationConfig where
  jobId : String
  mode : ReconciliationMode
  confirmation : String
  expectedConfirmation : String
  batchSize : ℕ
  startOver : Bool
  maxBatches : JsNumber

structure ReconciliationResult where
  mode : ReconciliationMode
  scanned : ℕ
  mismatches : ℕ
  applied : ℕ
  skipped : ℕ
  nextCursor : Option ℕ
  complete : Bool
  mismatchesFound : List ReconciliationMismatch
  deriving DecidableEq, Repr

/-- A call that a run makes on the source or on the checkpoint store. -/
inductive ReconciliationEffect
  | applyMismatch (mismatch : ReconciliationMismatch)
  | save (checkpoint : ReconciliationCheckpoint)
  deriving DecidableEq, Repr

def makeOperationKey (jobId recordId : String) : String :=
  "reconciliation:" ++ jobId ++ ":" ++ recordId

/-- The batch size of a run: 100 by default, refused outside 1 to 1000. -/
def normalizeBatchSize (batchSize : Option JsNumber) : Option ℕ :=
  match (batchSize.getD (.finite 100)).integer? with
  | some n => if 1 ≤ n ∧ n ≤ 1000 then some n.toNat else none
  | none => none

def normalizeOptions (options : ReconciliationOptions) :
    Except ReconciliationInputError ReconciliationConfig :=
  if options.jobId.isBlank then .error ⟨"jobId is required"⟩
  else match normalizeBatchSize options.batchSize with
    | none => .error ⟨"batchSize must be an integer between 1 and 1000"⟩
    | some batchSize =>
      let expectedConfirmation := options.expectedConfirmation.getD "APPLY-RECONCILIATION"
      if options.mode = .apply ∧ options.confirmation ≠ some expectedConfirmation then
        .error ⟨"apply mode requires confirmation phrase " ++ expectedConfirmation⟩
      else .ok {
        jobId := options.jobId
        mode := options.mode
        confirmation := options.confirmation.getD ""
        expectedConfirmation
        batchSize
        startOver := options.startOver.getD false
        maxBatches := options.maxBatches.getD .infinity }

structure ReconciliationBatch where
  records : List ReconciliationRecord
  nextCursor : Option ℕ

/-- `InMemoryReconciliationSource.readBatch`. -/
def readBatch (records : List ReconciliationRecord) (cursor : Option ℕ) (batchSize : ℕ) :
    ReconciliationBatch :=
  let start := cursor.getD 0
  let batch := (records.drop start).take batchSize
  let next := start+batch.length
  ⟨batch, if next < records.length then some next else none⟩

/-- The local variables of a run, and the effects it has had. -/
structure RunState where
  checkpoint : ReconciliationCheckpoint
  processed : List String
  mismatchesFound : List ReconciliationMismatch
  applied : ℕ
  skipped : ℕ
  effects : List ReconciliationEffect

/-- `[...processed].sort()`. -/
def sortedIds (processed : List String) : List String :=
  processed.insertionSort fun a b => a.sortsBefore b

def visitRecord (config : ReconciliationConfig) (st : RunState) (record : ReconciliationRecord) :
    Except ReconciliationInputError RunState :=
  if record.id.isBlank then .error ⟨"reconciliation record id is required"⟩
  else match compareAmounts record.expectedAmount record.actualAmount with
    | .error error => .error error
    | .ok none => .ok { st with
        checkpoint := { st.checkpoint with scanned := st.checkpoint.scanned+1 } }
    | .ok (some difference) =>
      let checkpoint := { st.checkpoint with
        scanned := st.checkpoint.scanned+1
        mismatches := st.checkpoint.mismatches+1 }
      let mismatch := ⟨record, difference, makeOperationKey config.jobId record.id⟩
      let mismatchesFound := st.mismatchesFound ++ [mismatch]
      if config.mode = .dryRun then .ok { st with checkpoint, mismatchesFound }
      else if record.id ∈ st.processed then
        .ok { st with checkpoint, mismatchesFound, skipped := st.skipped+1 }
      else
        let processed := st.processed ++ [record.id]
        -- saved at once, with the cursor the batch started from
        let checkpoint := { checkpoint with processedIds := sortedIds processed }
        .ok {
          checkpoint
          processed
          mismatchesFound
          applied := st.applied+1
          skipped := st.skipped
          effects := st.effects ++ [.applyMismatch mismatch, .save checkpoint] }

/-- The loop over a batch; an error keeps what was done before it. -/
def visitRecords (config : ReconciliationConfig) :
    List ReconciliationRecord → RunState → RunState × Option ReconciliationInputError
  | [], st => (st, none)
  | record :: rest, st =>
    match visitRecord config st record with
    | .error error => (st, some error)
    | .ok st' => visitRecords config rest st'

/-- The end of a batch: the cursor moves on and the checkpoint is saved. -/
def endBatch (nextCursor : Option ℕ) (st : RunState) : RunState :=
  let checkpoint := { st.checkpoint with nextCursor }
  { st with
    checkpoint
    effects := st.effects ++
      [.save { checkpoint with processedIds := sortedIds st.processed }] }

/-- The loop over the batches, ending with whether the source is exhausted. It
has at most `fuel` batches to read, and is `none` if that is not enough. -/
def batchLoop (records : List ReconciliationRecord) (config : ReconciliationConfig) :
    ℕ → RunState → ℕ → Option (RunState × Except ReconciliationInputError Bool)
  | 0, _, _ => none
  | fuel+1, st, batches =>
    if !JsNumber.natLt batches config.maxBatches then some (st, .ok false)
    else
      let batch := readBatch records st.checkpoint.nextCursor config.batchSize
      if batch.records.length > config.batchSize then
        some (st, .error ⟨"source returned more records than requested batch size"⟩)
      else match visitRecords config batch.records st with
        | (st', some error) => some (st', .error error)
        | (st', none) =>
          let st' := endBatch batch.nextCursor st'
          if batch.nextCursor = none ∨ batch.records.length = 0 then some (st', .ok true)
          else batchLoop records config fuel st' (batches+1)

def RunState.init (config : ReconciliationConfig) (previous : Option ReconciliationCheckpoint) :
    RunState :=
  let checkpoint := previous.getD ⟨config.jobId, none, [], 0, 0⟩
  ⟨checkpoint, checkpoint.processedIds.eraseDups, [], 0, 0, []⟩

def RunState.result (config : ReconciliationConfig) (st : RunState) (complete : Bool) :
    ReconciliationResult where
  mode := config.mode
  scanned := st.checkpoint.scanned
  mismatches := st.checkpoint.mismatches
  applied := st.applied
  skipped := st.skipped
  nextCursor := if complete then none else st.checkpoint.nextCursor
  complete := complete
  mismatchesFound := st.mismatchesFound

/-- `InMemoryCheckpointStore`: every checkpoint is kept under its own job id. -/
structure InMemoryCheckpointStore where
  checkpoints : InsertionMap String ReconciliationCheckpoint
  keyed : ∀ jobId checkpoint, checkpoints.get jobId = some checkpoint → checkpoint.jobId = jobId

namespace InMemoryCheckpointStore

def load (store : InMemoryCheckpointStore) (jobId : String) : Option ReconciliationCheckpoint :=
  store.checkpoints.get jobId

def save (store : InMemoryCheckpointStore) (checkpoint : ReconciliationCheckpoint) :
    InMemoryCheckpointStore where
  checkpoints := store.checkpoints.set checkpoint.jobId checkpoint
  keyed jobId other h := by
    rw [InsertionMap.get_set] at h
    split_ifs at h with hj
    · rw [← Option.some.inj h, hj]
    · exact store.keyed jobId other h

def perform (store : InMemoryCheckpointStore) : List ReconciliationEffect → InMemoryCheckpointStore
  | [] => store
  | .applyMismatch _ :: effects => store.perform effects
  | .save checkpoint :: effects => (store.save checkpoint).perform effects

end InMemoryCheckpointStore

/-- `ReconciliationService.run`: its effects, and its result or the error it
throws. Reading past the last record takes one batch more than there are records. -/
def ReconciliationService.run (records : List ReconciliationRecord)
    (store : InMemoryCheckpointStore) (options : ReconciliationOptions) :
    Option (List ReconciliationEffect × Except ReconciliationInputError ReconciliationResult) :=
  match normalizeOptions options with
  | .error error => some ([], .error error)
  | .ok config =>
    let previous := if config.startOver then none else store.load config.jobId
    (batchLoop records config (records.length+1) (RunState.init config previous) 0).map
      fun (st, outcome) => (st.effects, outcome.map (st.result config))

end StreamPay
