import Mathlib.Data.List.Induction
import StreamPay.Library.Lockstep
import StreamPay.ReconciliationDryRun

/-! The file-backed checkpoint store of the command line against the store in
memory. A file is kept as the checkpoint that its JSON text stands for. -/
namespace StreamPay

abbrev CheckpointFiles := InsertionMap String ReconciliationCheckpoint

/-- `fs.rename`: the file appears under its new path in one step. -/
def CheckpointFiles.rename (files : CheckpointFiles) (oldPath newPath : String) :
    CheckpointFiles :=
  match files.get oldPath with
  | some checkpoint => (files.delete oldPath).set newPath checkpoint
  | none => files

structure JsonCheckpointStore where
  path : String

namespace JsonCheckpointStore

/-- There is nothing to load before the file exists, or for another job. -/
def load (store : JsonCheckpointStore) (files : CheckpointFiles) (jobId : String) :
    Option ReconciliationCheckpoint :=
  match files.get store.path with
  | some value => if value.jobId = jobId then some value else none
  | none => none

def save (store : JsonCheckpointStore) (files : CheckpointFiles)
    (checkpoint : ReconciliationCheckpoint) : CheckpointFiles :=
  let temporaryPath := store.path ++ ".tmp"
  CheckpointFiles.rename (files.set temporaryPath checkpoint) temporaryPath store.path

end JsonCheckpointStore

inductive CheckpointCall
  | load (jobId : String)
  | save (checkpoint : ReconciliationCheckpoint)
  deriving DecidableEq

/-- A call on the files; the answer to a save is empty. -/
def JsonCheckpointStore.step (store : JsonCheckpointStore) (files : CheckpointFiles) :
    CheckpointCall → Option ReconciliationCheckpoint × CheckpointFiles
  | .load jobId => (store.load files jobId, files)
  | .save checkpoint => (none, store.save files checkpoint)

def InMemoryCheckpointStore.step (store : InMemoryCheckpointStore) :
    CheckpointCall → Option ReconciliationCheckpoint × InMemoryCheckpointStore
  | .load jobId => (store.load jobId, store)
  | .save checkpoint => (none, store.save checkpoint)

def CheckpointCall.saved? : CheckpointCall → Option ReconciliationCheckpoint
  | .save checkpoint => some checkpoint
  | .load _ => none

def saves (calls : List CheckpointCall) : List ReconciliationCheckpoint :=
  calls.filterMap CheckpointCall.saved?

def lastSave (calls : List CheckpointCall) : Option ReconciliationCheckpoint :=
  (saves calls).getLast?

def lastSaveFor (jobId : String) (calls : List CheckpointCall) : Option ReconciliationCheckpoint :=
  ((saves calls).filter fun checkpoint => checkpoint.jobId = jobId).getLast?

/-- No other job saves between the last save of a job and a load of it. -/
def LoadsLatestJob (calls : List CheckpointCall) : Prop :=
  ∀ before jobId after, calls = before ++ .load jobId :: after →
    (∃ checkpoint ∈ saves before, checkpoint.jobId = jobId) →
    ∃ checkpoint, lastSave before = some checkpoint ∧ checkpoint.jobId = jobId

theorem saves_append (calls later : List CheckpointCall) :
    saves (calls ++ later) = saves calls ++ saves later := List.filterMap_append

theorem lastSave_save (calls : List CheckpointCall) (checkpoint : ReconciliationCheckpoint) :
    lastSave (calls ++ [.save checkpoint]) = some checkpoint := by
  rw [lastSave, saves_append]
  exact List.getLast?_concat

theorem lastSave_load (calls : List CheckpointCall) (jobId : String) :
    lastSave (calls ++ [.load jobId]) = lastSave calls := by
  rw [lastSave, saves_append]
  exact congrArg List.getLast? (List.append_nil _)

theorem lastSaveFor_save (jobId : String) (calls : List CheckpointCall)
    (checkpoint : ReconciliationCheckpoint) :
    lastSaveFor jobId (calls ++ [.save checkpoint]) =
      if jobId = checkpoint.jobId then some checkpoint else lastSaveFor jobId calls := by
  have hsaves : saves [.save checkpoint] = [checkpoint] := rfl
  rw [lastSaveFor, saves_append, List.filter_append, hsaves]
  by_cases h : jobId = checkpoint.jobId
  · rw [if_pos h, List.filter_cons_of_pos (by simp [h])]
    exact List.getLast?_concat
  · rw [if_neg h, List.filter_cons_of_neg (by simpa using Ne.symm h), List.filter_nil,
      List.append_nil, lastSaveFor]

theorem lastSaveFor_load (jobId : String) (calls : List CheckpointCall) (loaded : String) :
    lastSaveFor jobId (calls ++ [.load loaded]) = lastSaveFor jobId calls := by
  rw [lastSaveFor, saves_append]
  exact congrArg (fun saved => (List.filter _ saved).getLast?) (List.append_nil _)

/-- The last save for a job is the last one, if that is one for the job. -/
theorem lastSaveFor_eq_filter_iff (jobId : String) (calls : List CheckpointCall) :
    lastSaveFor jobId calls = (lastSave calls).filter (fun checkpoint => checkpoint.jobId = jobId) ↔
      ((∃ checkpoint ∈ saves calls, checkpoint.jobId = jobId) →
        ∃ checkpoint, lastSave calls = some checkpoint ∧ checkpoint.jobId = jobId) := by
  rw [lastSaveFor, lastSave]
  induction saves calls using List.reverseRecOn with
  | nil => simp
  | append_singleton earlier last _ =>
    rw [List.getLast?_concat, List.filter_append]
    by_cases hlast : last.jobId = jobId
    · simp [Option.filter, hlast]
    · rw [List.filter_cons_of_neg (by simpa using hlast), List.filter_nil, List.append_nil,
        Option.filter_some_neg (by simpa using hlast)]
      simp [hlast]

theorem JsonCheckpointStore.get_save (store : JsonCheckpointStore) (files : CheckpointFiles)
    (checkpoint : ReconciliationCheckpoint) :
    (store.save files checkpoint).get store.path = some checkpoint := by
  simp only [save, CheckpointFiles.rename, InsertionMap.get_set_self]

/-- The file holds the last save, whichever job it was for. -/
theorem JsonCheckpointStore.get_run (store : JsonCheckpointStore) {files : CheckpointFiles}
    (hfresh : files.get store.path = none) (calls : List CheckpointCall) :
    (Lockstep.run store.step files calls).get store.path = lastSave calls := by
  have hinv : (Lockstep.run store.step files calls).get store.path =
      lastSave ((Lockstep.log store.step files calls).map Prod.fst) :=
    Lockstep.run_invariant
      (fun log (files : CheckpointFiles) => files.get store.path = lastSave (log.map Prod.fst))
      hfresh (fun log files call h => by
        rw [List.map_append]
        cases call with
        | load jobId => exact h.trans (lastSave_load _ jobId).symm
        | save checkpoint =>
          exact (store.get_save files checkpoint).trans (lastSave_save _ checkpoint).symm) calls
  rwa [Lockstep.map_fst_log] at hinv

/-- The store in memory keeps the last save of each job. -/
theorem InMemoryCheckpointStore.load_run (calls : List CheckpointCall) (jobId : String) :
    (Lockstep.run InMemoryCheckpointStore.step .empty calls).load jobId =
      lastSaveFor jobId calls := by
  have hinv : (Lockstep.run InMemoryCheckpointStore.step .empty calls).load jobId =
      lastSaveFor jobId ((Lockstep.log InMemoryCheckpointStore.step .empty calls).map Prod.fst) :=
    Lockstep.run_invariant
      (fun log (store : InMemoryCheckpointStore) =>
        store.load jobId = lastSaveFor jobId (log.map Prod.fst)) rfl
      (fun log store call h => by
        rw [List.map_append]
        cases call with
        | load loaded => exact h.trans (lastSaveFor_load jobId _ loaded).symm
        | save checkpoint =>
          rw [List.map_singleton, lastSaveFor_save, ← h]
          exact InsertionMap.get_set _ _ _ _) calls
  rwa [Lockstep.map_fst_log] at hinv

theorem JsonCheckpointStore.load_eq (store : JsonCheckpointStore) (files : CheckpointFiles)
    (jobId : String) : store.load files jobId =
      (files.get store.path).filter fun checkpoint => checkpoint.jobId = jobId := by
  unfold load
  cases files.get store.path with
  | none => rfl
  | some value =>
    by_cases h : value.jobId = jobId <;> simp [Option.filter, h]

/-- The file and the memory load the same exactly if no other job saves before a
job loads what it saved. -/
theorem jsonCheckpoints_agree_iff (store : JsonCheckpointStore) {files : CheckpointFiles}
    (hfresh : files.get store.path = none) (calls : List CheckpointCall) :
    Lockstep.log store.step files calls =
        Lockstep.log InMemoryCheckpointStore.step .empty calls ↔ LoadsLatestJob calls := by
  rw [Lockstep.log_eq_log_iff]
  have hload (before : List CheckpointCall) (jobId : String) :
      (store.step (Lockstep.run store.step files before) (.load jobId)).1 =
          (InMemoryCheckpointStore.step (Lockstep.run InMemoryCheckpointStore.step .empty before)
            (.load jobId)).1 ↔
        ((∃ checkpoint ∈ saves before, checkpoint.jobId = jobId) →
          ∃ checkpoint, lastSave before = some checkpoint ∧ checkpoint.jobId = jobId) := by
    simp only [JsonCheckpointStore.step, InMemoryCheckpointStore.step, store.load_eq,
      store.get_run hfresh, InMemoryCheckpointStore.load_run]
    rw [eq_comm, lastSaveFor_eq_filter_iff]
  constructor
  · exact fun h before jobId after heq => (hload before jobId).mp (h before _ after heq)
  · intro h before call after heq
    cases call with
    | load jobId => exact (hload before jobId).mpr (h before jobId after heq)
    | save checkpoint => rfl

section SampleJobs

/-- The default path, and two jobs that save to it. -/
def defaultCheckpoints : JsonCheckpointStore := ⟨"reconciliation-checkpoint.json"⟩

def savedBy (jobId : String) : CheckpointCall := .save ⟨jobId, some 1, [], 1, 0⟩

theorem jsonCheckpoints_agree_on_one_job :
    Lockstep.log defaultCheckpoints.step .empty [savedBy "nightly", .load "nightly"] =
      Lockstep.log InMemoryCheckpointStore.step .empty [savedBy "nightly", .load "nightly"] := by
  refine (jsonCheckpoints_agree_iff defaultCheckpoints rfl _).mpr fun before jobId after heq _ => ?_
  match before with
  | [] => cases (List.cons.inj heq).1
  | [_] =>
    obtain ⟨rfl,hload⟩ := List.cons.inj heq
    obtain rfl := CheckpointCall.load.inj (List.cons.inj hload).1
    exact ⟨_, rfl, rfl⟩
  | _ :: _ :: before => simp at heq

/-- The second job takes the checkpoint of the first one away. -/
theorem checkpoint_of_other_job_lost :
    ¬ ∀ (store : JsonCheckpointStore) (files : CheckpointFiles) (calls : List CheckpointCall),
      files.get store.path = none → Lockstep.log store.step files calls =
        Lockstep.log InMemoryCheckpointStore.step .empty calls := by
  intro h
  have hagree := h defaultCheckpoints .empty
    [savedBy "nightly", savedBy "hourly", .load "nightly"] rfl
  exact absurd hagree (by decide +kernel)

end SampleJobs

end StreamPay
