import StreamPay.Library.Interleaving
import StreamPay.JsonCheckpoints
import StreamPay.ReconciliationArguments

/-! The reconciliation tool as processes over files: each loads the checkpoint, corrects
records and saves, and may be killed between any two of its operations. -/
namespace StreamPay
open Interleaving

/-- `ReconciliationService.run`, over what a checkpoint store loads. -/
def ReconciliationService.runLoading (records : List ReconciliationRecord)
    (load : String → Option ReconciliationCheckpoint) (options : ReconciliationOptions) :
    Option (List ReconciliationEffect × Except ReconciliationInputError ReconciliationResult) :=
  match normalizeOptions options with
  | .error error => some ([], .error error)
  | .ok config =>
    let previous := if config.startOver then none else load config.jobId
    (batchLoop records config (records.length+1) (RunState.init config previous) 0).map
      fun (st, outcome) => (st.effects, outcome.map (st.result config))

theorem run_eq_runLoading (records : List ReconciliationRecord) (store : InMemoryCheckpointStore)
    (options : ReconciliationOptions) : ReconciliationService.run records store options =
      ReconciliationService.runLoading records store.load options := rfl

/-- What a process has done to the source and to the files, one operation after the other. -/
inductive ToolOperation
  | applyMismatch (mismatch : ReconciliationMismatch)
  | writeFile (path : String) (checkpoint : ReconciliationCheckpoint)
  | rename (oldPath newPath : String)
  deriving DecidableEq, Repr

/-- What stands at the input path. -/
inductive ToolInput
  | unreadable (message : String)
  | notArray
  | records (records : List ReconciliationRecord)

structure ToolProcess where
  args : List String
  input : String → ToolInput
  /-- How many operations it comes to. -/
  killedAfter : Option ℕ := none

/-- What a process has corrected, and the correction that it has not come to save. -/
structure ToolReport where
  killed : Bool
  corrected : List String
  unsaved : Option String
  result : Option ReconciliationResult
  deriving DecidableEq, Repr

namespace ReconciliationTool

/-- A save is a write beside the file, and a rename. -/
def operations (path : String) : ReconciliationEffect → List ToolOperation
  | .applyMismatch mismatch => [.applyMismatch mismatch]
  | .save checkpoint =>
    [.writeFile (path ++ ".tmp") checkpoint, .rename (path ++ ".tmp") path]

def perform (files : CheckpointFiles) : ToolOperation → CheckpointFiles
  | .applyMismatch _ => files
  | .writeFile path checkpoint => files.set path checkpoint
  | .rename oldPath newPath => files.rename oldPath newPath

def performAll (files : CheckpointFiles) (done : List ToolOperation) : CheckpointFiles :=
  done.foldl perform files

/-- The operations of a process that is not killed, and what it ends with: the result, or
the message that it prints. -/
def main (number : String → JsNumber) (files : CheckpointFiles) (input : String → ToolInput)
    (args : List String) : Option (List ToolOperation × Except String ReconciliationResult) :=
  match parseCliArgs number args with
  | .error error => some ([], .error error.message)
  | .ok options =>
    match input options.inputPath with
    | .unreadable message => some ([], .error message)
    | .notArray =>
      some ([], .error "input file must contain an array of reconciliation records")
    | .records records =>
      let store : JsonCheckpointStore := ⟨options.checkpointPath⟩
      (ReconciliationService.runLoading records (store.load files)
        options.toReconciliationOptions).map fun (effects, outcome) =>
          (effects.flatMap (operations options.checkpointPath),
            outcome.mapError ReconciliationInputError.message)

def done (process : ToolProcess) (planned : List ToolOperation) : List ToolOperation :=
  match process.killedAfter with
  | none => planned
  | some n => planned.take n

def step (number : String → JsNumber) (files : CheckpointFiles) (process : ToolProcess) :
    Option CheckpointFiles :=
  (main number files process.input process.args).map fun (planned, _) =>
    performAll files (done process planned)

def correctedBy (done : List ToolOperation) : List String :=
  done.filterMap fun
    | .applyMismatch mismatch => some mismatch.id
    | _ => none

/-- The correction behind which no file has been renamed. -/
def unsavedIn (done : List ToolOperation) : Option String :=
  done.foldl (fun unsaved operation => match operation with
    | .applyMismatch mismatch => some mismatch.id
    | .writeFile _ _ => unsaved
    | .rename _ _ => none) none

def tell (process : ToolProcess) (planned : List ToolOperation)
    (outcome : Except String ReconciliationResult) : ToolReport where
  killed := process.killedAfter.isSome
  corrected := correctedBy (done process planned)
  unsaved := unsavedIn (done process planned)
  result := if process.killedAfter.isSome then none else outcome.toOption

/-- What is told of a process that has taken a path for its checkpoint. -/
def report (number : String → JsNumber) (path : String) (files : CheckpointFiles)
    (process : ToolProcess) : Option ToolReport :=
  match parseCliArgs number process.args with
  | .error _ => none
  | .ok options =>
    if options.checkpointPath = path then
      (main number files process.input process.args).map fun (planned, outcome) =>
        tell process planned outcome
    else none

/-- Each correction is followed by a save that names it along with all before it. -/
inductive SavesEach (jobId : String) :
    List String → List ReconciliationEffect → List String → Prop
  | nil (processed : List String) : SavesEach jobId processed [] processed
  | saved {processed final : List String} {effects : List ReconciliationEffect}
      {checkpoint : ReconciliationCheckpoint} :
      checkpoint.jobId = jobId → (∀ id, id ∈ checkpoint.processedIds ↔ id ∈ processed) →
      SavesEach jobId processed effects final →
      SavesEach jobId processed (.save checkpoint :: effects) final
  | corrected {processed final : List String} {effects : List ReconciliationEffect}
      {mismatch : ReconciliationMismatch} {checkpoint : ReconciliationCheckpoint} :
      mismatch.id ∉ processed → checkpoint.jobId = jobId →
      (∀ id, id ∈ checkpoint.processedIds ↔ id ∈ processed ++ [mismatch.id]) →
      SavesEach jobId (processed ++ [mismatch.id]) effects final →
      SavesEach jobId processed (.applyMismatch mismatch :: .save checkpoint :: effects) final

theorem SavesEach.append {jobId : String} {first second third : List String}
    {effects effects' : List ReconciliationEffect} (h : SavesEach jobId first effects second)
    (h' : SavesEach jobId second effects' third) :
    SavesEach jobId first (effects ++ effects') third := by
  induction h with
  | nil processed => exact h'
  | saved hjob hids _ ih => exact .saved hjob hids (ih h')
  | corrected hnew hjob hids _ ih => exact .corrected hnew hjob hids (ih h')

/-- From one state of a run to a later one. -/
structure Grows (config : ReconciliationConfig) (st st' : RunState)
    (new : List ReconciliationEffect) : Prop where
  effects : st'.effects = st.effects ++ new
  saves : SavesEach st.checkpoint.jobId st.processed new st'.processed
  job : st'.checkpoint.jobId = st.checkpoint.jobId
  asked : ∀ mismatch, .applyMismatch mismatch ∈ new → config.mode = .apply

variable {config : ReconciliationConfig} {records : List ReconciliationRecord}
  {st st' st'' : RunState} {new new' : List ReconciliationEffect}

/-- Only the counters have changed. -/
theorem Grows.nothing (heffects : st'.effects = st.effects)
    (hprocessed : st'.processed = st.processed)
    (hjob : st'.checkpoint.jobId = st.checkpoint.jobId) : Grows config st st' [] where
  effects := heffects.trans (List.append_nil _).symm
  saves := hprocessed ▸ .nil st'.processed
  job := hjob
  asked _ h := absurd h List.not_mem_nil

theorem Grows.trans (h : Grows config st st' new) (h' : Grows config st' st'' new') :
    Grows config st st'' (new ++ new') where
  effects := by rw [h'.effects, h.effects, List.append_assoc]
  saves := h.saves.append (h.job ▸ h'.saves)
  job := h'.job.trans h.job
  asked mismatch hmem := (List.mem_append.mp hmem).elim (h.asked mismatch) (h'.asked mismatch)

theorem visitRecord_grows {record : ReconciliationRecord}
    (h : visitRecord config st record = .ok st') :
    st'.checkpoint.nextCursor = st.checkpoint.nextCursor ∧ ∃ new, Grows config st st' new := by
  unfold visitRecord at h
  -- a blank id and amounts that are no decimals are errors
  split at h
  · cases h
  · split at h
    · cases h
    · obtain rfl := Except.ok.inj h
      exact ⟨rfl, [], .nothing rfl rfl rfl⟩
    · dsimp only at h
      split_ifs at h with hdry hknown
      · obtain rfl := Except.ok.inj h
        exact ⟨rfl, [], .nothing rfl rfl rfl⟩
      · obtain rfl := Except.ok.inj h
        exact ⟨rfl, [], .nothing rfl rfl rfl⟩
      · obtain rfl := Except.ok.inj h
        have hmode : config.mode = .apply := by
          cases hmode : config.mode with
          | dryRun => exact absurd hmode hdry
          | apply => rfl
        exact ⟨rfl, _, rfl, .corrected hknown rfl (fun id => mem_sortedIds) (.nil _), rfl,
          fun _ _ => hmode⟩

theorem visitRecords_grows (st : RunState) (batch : List ReconciliationRecord) :
    (visitRecords config batch st).1.checkpoint.nextCursor = st.checkpoint.nextCursor ∧
      ∃ new, Grows config st (visitRecords config batch st).1 new := by
  induction batch generalizing st with
  | nil => exact ⟨rfl, [], .nothing rfl rfl rfl⟩
  | cons record rest ih =>
    rw [visitRecords]
    split
    · exact ⟨rfl, [], .nothing rfl rfl rfl⟩
    · rename_i st' hvisit
      obtain ⟨hcursor,new,hgrows⟩ := visitRecord_grows hvisit
      obtain ⟨hcursor',new',hgrows'⟩ := ih st'
      exact ⟨hcursor'.trans hcursor, new ++ new', hgrows.trans hgrows'⟩

theorem endBatch_grows (config : ReconciliationConfig) (st : RunState) (nextCursor : Option ℕ) :
    ∃ new, Grows config st (endBatch nextCursor st) new := by
  refine ⟨_, rfl, .saved rfl (fun id => mem_sortedIds) (.nil _), rfl, fun mismatch hmem => ?_⟩
  cases List.mem_singleton.mp hmem

/-- A batch that is not the last one takes the cursor on. -/
theorem readBatch_advances {cursor : Option ℕ} {b : ℕ} {batch : ReconciliationBatch}
    (hbatch : readBatch records cursor b = batch) (hmore : batch.nextCursor ≠ none)
    (hsome : batch.records.length ≠ 0) :
    cursor.getD 0 < batch.nextCursor.getD 0 ∧ batch.nextCursor.getD 0 < records.length := by
  obtain rfl := hbatch
  unfold readBatch at hmore hsome ⊢
  dsimp only at hmore hsome ⊢
  split_ifs at hmore ⊢ with hlt
  · rw [Option.getD_some]
    omega
  · exact absurd rfl hmore

/-- The loop over the batches comes to an end, since every batch takes the cursor on. -/
theorem batchLoop_grows {fuel : ℕ} (count : ℕ)
    (hfuel : records.length-st.checkpoint.nextCursor.getD 0 < fuel) :
    ∃ st' outcome new, batchLoop records config fuel st count = some (st', outcome) ∧
      Grows config st st' new := by
  induction fuel generalizing st count with
  | zero => omega
  | succ fuel ih =>
    cases hlt : JsNumber.natLt count config.maxBatches with
    | false =>
      refine ⟨st, .ok false, [], ?_, .nothing rfl rfl rfl⟩
      rw [batchLoop, hlt]
      rfl
    | true =>
      obtain ⟨batch,hbatch⟩ : ∃ batch,
          readBatch records st.checkpoint.nextCursor config.batchSize = batch := ⟨_, rfl⟩
      have hle : ¬batch.records.length > config.batchSize := by
        rw [← hbatch, readBatch, List.length_take]
        omega
      obtain ⟨hcursor,new,hgrows⟩ := @visitRecords_grows config st batch.records
      simp only [batchLoop, hlt, Bool.not_true, Bool.false_eq_true, ↓reduceIte, hbatch, hle]
      cases hvisit : visitRecords config batch.records st with
      | mk st₁ thrown =>
        rw [hvisit] at hcursor hgrows
        cases thrown with
        | some error => exact ⟨st₁, .error error, new, rfl, hgrows⟩
        | none =>
          obtain ⟨saves,hsaves⟩ := endBatch_grows config st₁ batch.nextCursor
          have hboth := hgrows.trans hsaves
          dsimp only
          split_ifs with hend
          · exact ⟨_, .ok true, _, rfl, hboth⟩
          · rw [not_or] at hend
            obtain ⟨hon,hin⟩ := readBatch_advances hbatch hend.1 hend.2
            have hnext : records.length-(endBatch batch.nextCursor st₁).checkpoint.nextCursor.getD 0
                < fuel := by
              change records.length-batch.nextCursor.getD 0 < fuel
              omega
            obtain ⟨st₂,outcome,rest,hloop,hrest⟩ := ih (count+1) hnext
            exact ⟨st₂, outcome, _, hloop, hboth.trans hrest⟩

/-- The ids that a job finds processed when it loads the checkpoint at a path. -/
def storedIds (path jobId : String) (files : CheckpointFiles) : List String :=
  ((JsonCheckpointStore.mk path).load files jobId).elim [] fun checkpoint =>
    checkpoint.processedIds

theorem tmp_ne (path : String) : path ++ ".tmp" ≠ path := by
  intro h
  have hlength := congrArg String.length h
  rw [String.length_append] at hlength
  have htmp : ".tmp".length = 4 := rfl
  omega

variable {path jobId : String}

theorem runLoading_saves (records : List ReconciliationRecord)
    {load : String → Option ReconciliationCheckpoint} (options : ReconciliationOptions)
    (hown : ∀ checkpoint, load options.jobId = some checkpoint →
      checkpoint.jobId = options.jobId) :
    ∃ effects outcome processed final,
      ReconciliationService.runLoading records load options = some (effects, outcome) ∧
      SavesEach options.jobId processed effects final ∧
      (options.startOver ≠ some true → ∀ id, id ∈ processed ↔
        id ∈ (load options.jobId).elim [] fun checkpoint => checkpoint.processedIds) ∧
      ∀ mismatch, .applyMismatch mismatch ∈ effects →
        ∃ config, normalizeOptions options = .ok config ∧ config.mode = .apply := by
  cases hconfig : normalizeOptions options with
  | error error =>
    refine ⟨[], .error error, _, _, ?_, .nil _, fun _ id => Iff.rfl,
      fun _ hmem => absurd hmem List.not_mem_nil⟩
    simp only [ReconciliationService.runLoading, hconfig]
  | ok config =>
    obtain ⟨hjob,_,_,hover,_⟩ := normalizeOptions_ok hconfig
    obtain ⟨previous,hprevious⟩ : ∃ previous,
        (if config.startOver then none else load config.jobId) = previous := ⟨_, rfl⟩
    have hstart : (RunState.init config previous).checkpoint.jobId = options.jobId := by
      cases previous with
      | none => exact hjob
      | some checkpoint =>
        split_ifs at hprevious
        exact hown checkpoint (hjob ▸ hprevious)
    obtain ⟨st,outcome,effects,hloop,hgrows⟩ :=
      @batchLoop_grows config records (RunState.init config previous) (records.length+1) 0
        (by omega)
    have heffects : st.effects = effects := hgrows.effects
    refine ⟨st.effects, outcome.map (st.result config), _, _, ?_,
      heffects ▸ hstart ▸ hgrows.saves, fun hresume id => ?_, fun mismatch hmem => ?_⟩
    · simp only [ReconciliationService.runLoading, hconfig, hprevious, hloop, Option.map_some]
    · have hnot : config.startOver = false := by
        rw [hover]
        cases hgiven : options.startOver with
        | none => rfl
        | some again =>
          cases again with
          | false => rfl
          | true => exact absurd hgiven hresume
      rw [hnot, if_neg Bool.false_ne_true, hjob] at hprevious
      rw [hprevious, RunState.init, List.mem_eraseDups]
      cases previous <;> rfl
    · exact ⟨config, rfl, hgrows.asked mismatch (heffects ▸ hmem)⟩

/-- The operations of a run that saves at a path, from what it has loaded there. -/
def Planned (options : CliOptions) (files : CheckpointFiles) (planned : List ToolOperation) :
    Prop :=
  ∃ effects processed final, planned = effects.flatMap (operations options.checkpointPath) ∧
    SavesEach options.jobId processed effects final ∧
    (options.startOver ≠ some true → ∀ id, id ∈ processed ↔
      id ∈ storedIds options.checkpointPath options.jobId files) ∧
    ∀ mismatch, .applyMismatch mismatch ∈ effects →
      ∃ config, normalizeOptions options.toReconciliationOptions = .ok config ∧
        config.mode = .apply

theorem planned_nil (options : CliOptions) (files : CheckpointFiles) :
    Planned options files [] :=
  ⟨[], _, _, rfl, .nil _, fun _ _ => Iff.rfl, fun _ hmem => absurd hmem List.not_mem_nil⟩

theorem main_planned {number : String → JsNumber} (files : CheckpointFiles)
    (input : String → ToolInput) {args : List String} {options : CliOptions}
    (hparsed : parseCliArgs number args = .ok options) :
    ∃ planned outcome, main number files input args = some (planned, outcome) ∧
      Planned options files planned := by
  simp only [main, hparsed]
  cases input options.inputPath with
  | unreadable message => exact ⟨_, _, rfl, planned_nil options files⟩
  | notArray => exact ⟨_, _, rfl, planned_nil options files⟩
  | records records =>
    obtain ⟨effects,outcome,processed,final,hrun,hsaves,hloaded,hasked⟩ :=
      @runLoading_saves records ((JsonCheckpointStore.mk options.checkpointPath).load files)
        options.toReconciliationOptions fun checkpoint hload => by
          rw [JsonCheckpointStore.load_eq] at hload
          exact of_decide_eq_true (Option.filter_eq_some_iff.mp hload).2
    refine ⟨effects.flatMap (operations options.checkpointPath),
      outcome.mapError ReconciliationInputError.message, ?_, effects, processed, final, rfl,
      hsaves, hloaded, hasked⟩
    dsimp only
    rw [hrun]
    rfl

theorem mem_effects_of_corrected {effects : List ReconciliationEffect} {path id : String}
    (h : id ∈ correctedBy (effects.flatMap (operations path))) :
    ∃ mismatch, .applyMismatch mismatch ∈ effects ∧ mismatch.id = id := by
  obtain ⟨operation,hmem,hid⟩ := List.mem_filterMap.mp h
  obtain ⟨effect,heffect,hoperation⟩ := List.mem_flatMap.mp hmem
  cases effect with
  | applyMismatch mismatch =>
    rw [List.mem_singleton.mp hoperation] at hid
    exact ⟨mismatch, heffect, Option.some.inj hid⟩
  | save checkpoint =>
    rcases List.mem_cons.mp hoperation with rfl | hoperation
    · cases hid
    · rw [List.mem_singleton.mp hoperation] at hid
      cases hid

/-- A process touches nothing unless its arguments are options one behind the other, and
it corrects nothing unless the last of them ask for that. -/
theorem corrects_only_when_asked (number : String → JsNumber) (files : CheckpointFiles)
    (input : String → ToolInput) (args : List String) :
    ∃ planned outcome, main number files input args = some (planned, outcome) ∧
      ((∃ given, SpellsOptions args given ∧ (correctedBy planned ≠ [] →
        (given.filterMap CliOption.mode?).getLast? = some .apply ∧
        (given.filterMap CliOption.confirmation?).getLast? =
          some (some "APPLY-RECONCILIATION"))) ∨
      planned = [] ∧ ∃ arg ∈ args, readArg arg = none ∧
        outcome = .error ("unknown argument " ++ arg)) := by
  rcases spells_or_unknown number .initial args with ⟨given,hgiven⟩ | ⟨arg,hmem,hread,herror⟩
  · have hparsed := (parseCliArgs_ok_iff number args _).mpr ⟨given, hgiven, rfl⟩
    obtain ⟨planned,outcome,hmain,effects,_,_,rfl,_,_,hasked⟩ :=
      main_planned files input hparsed
    refine ⟨_, outcome, hmain, Or.inl ⟨given, hgiven, fun hcorrects => ?_⟩⟩
    obtain ⟨id,hid⟩ := List.exists_mem_of_ne_nil _ hcorrects
    obtain ⟨mismatch,hmismatch,_⟩ := mem_effects_of_corrected hid
    obtain ⟨config,hconfig,hmode⟩ := hasked mismatch hmismatch
    exact asked_to_apply hconfig hmode
  · refine ⟨[], .error ("unknown argument " ++ arg), ?_, Or.inr ⟨rfl, arg, hmem, hread, rfl⟩⟩
    rw [main, parseCliArgs, herror]

theorem done_isPrefix (process : ToolProcess) (planned : List ToolOperation) :
    done process planned <+: planned := by
  unfold done
  cases process.killedAfter with
  | none => exact List.prefix_rfl
  | some n => exact List.take_prefix n planned

/-- A process may share the checkpoint of a job, for which it resumes; it writes nothing else
at its path. -/
def Keeps (number : String → JsNumber) (path jobId : String) (process : ToolProcess) : Prop :=
  ∀ options, parseCliArgs number process.args = .ok options →
    if options.checkpointPath = path then options.jobId = jobId ∧ options.startOver ≠ some true
    else options.checkpointPath ++ ".tmp" ≠ path

/-- What holds between any two processes. -/
structure Kept (path jobId : String) (files : CheckpointFiles) (reports : List ToolReport) :
    Prop where
  killed : ∀ report ∈ reports, report.unsaved ≠ none → report.killed = true
  nodup : ∀ report ∈ reports, report.corrected.Nodup
  saved : ∀ report ∈ reports, ∀ id ∈ report.corrected,
    id ∈ storedIds path jobId files ∨ report.unsaved = some id
  apart : reports.Pairwise fun first second =>
    ∀ id ∈ first.corrected, id ∈ second.corrected → first.unsaved = some id

variable {number : String → JsNumber}

end ReconciliationTool
end StreamPay
