import StreamPay.StreamReads
import StreamPay.StreamLifecycle

/-! Deleted streams, over every run of requests that read and write: what can
change them, how requests on them are answered and where they are shown. -/
namespace StreamPay
open Interleaving StreamRepository

/-- A turn of a writing request, or a query of a reading one. -/
inductive StreamsEvent (ι : Type*)
  | turn (action : StreamsAction ι)
  | read (query : StreamsQuery) (now : Date)

/-- The status of the HTTP response. -/
def StreamsAnswer.status : StreamsAnswer → ℕ
  | .error status _ => status
  | .validationFailed _ => 400
  | .validationError _ => 400
  | .stream status _ _ => status
  | .null => 200
  | .noContent => 204

/-- The stream that a PATCH or a DELETE is about to write. -/
def StreamStatement.writes : StreamStatement → Option Uuid
  | .updateById text _ _ _ => parseUuid text
  | .softDeleteById text _ => parseUuid text
  | _ => none

def StreamsRequest.isPatchOrDelete : StreamsRequest → Bool
  | .patch _ _ | .delete _ => true
  | _ => false

namespace StreamsSystem
variable {ι : Type*} [DecidableEq ι]

def stepOrRead (runtime : StreamsRuntime) (requests : ι → StreamsRequest) (s : StreamsSystem ι) :
    StreamsEvent ι → Option (StreamsSystem ι)
  | .turn action => step runtime requests s action
  | .read _ _ => some s

/-- What holds of the deleted streams in every step. -/
structure KeepsDeleted (runtime : StreamsRuntime) (requests : ι → StreamsRequest)
    (s : StreamsSystem ι) (e : StreamsEvent ι) (t : StreamsSystem ι) : Prop where
  /-- Only a restore of the stream changes its row, and only two of its fields. -/
  frame : ∀ id row, s.table.findRow id = some row → row.deletedAt ≠ none →
    t.table.findRow id = some row ∨
    ∃ i generated now text clock, e = .turn (.execute i generated now) ∧
      s.progress i = .sent (.restoreById text clock) ∧ parseUuid text = some id ∧
      t.table.findRow id = some { row with
        deletedAt := none, updatedAt := Date.toTimestamp clock }
  /-- A PATCH or DELETE that reaches a deleted stream is answered with 404. -/
  refused : ∀ i generated now statement id row, e = .turn (.execute i generated now) →
    s.progress i = .sent statement → statement.writes = some id →
    s.table.findRow id = some row → row.deletedAt ≠ none →
    ∃ result, t.progress i = .written statement result ∧
      ∀ table clock, (StreamPay.respond table clock statement result).status = 404
  /-- One that is refused before is answered with 400. -/
  invalid : ∀ i now answer, e = .turn (.send i now) → (requests i).isPatchOrDelete = true →
    t.progress i = .answered none answer → answer.status = 400
  hidden : ∀ query now id row, e = .read query now → query.includesDeleted = false →
    s.table.findRow id = some row → row.deletedAt ≠ none →
    id ∉ (answerQuery runtime s.table now query).ids

/-- A PATCH that reaches a deleted stream carries values that the columns read, and a
lock that is such a value. -/
def PatchesReadable (s : StreamsSystem ι) : StreamsEvent ι → Prop
  | .turn (.execute i _ _) => ∀ text updates currentUpdatedAt clock id row,
      s.progress i = .sent (.updateById text updates currentUpdatedAt clock) →
      parseUuid text = some id → s.table.findRow id = some row → row.deletedAt ≠ none →
      isRefused updates currentUpdatedAt = false
  | _ => True

end StreamsSystem

section
variable {table : StreamsTable} {generated : Uuid} {now : Timestamp} {text : String} {id : Uuid}
  {row : StreamRow} {updates : UpdateStreamParams} {currentUpdatedAt : Option Date} {clock : Date}

/-- The UPDATE of a PATCH finds no row, unless the database cannot read it. -/
theorem execute_update_of_deleted (hid : parseUuid text = some id)
    (hrow : table.findRow id = some row) (hdeleted : row.deletedAt ≠ none) :
    (execute table generated now (.updateById text updates currentUpdatedAt clock)).1 =
      if isRefused updates currentUpdatedAt then .threw else .updated none := by
  have hlive : row.deletedAt.isNone = false := by
    cases hat : row.deletedAt with
    | none => exact absurd hat hdeleted
    | some _ => rfl
  have htarget : (table.findRow id).filter (isCurrent currentUpdatedAt) = none := by
    rw [hrow, Option.filter_some_neg (by simp [isCurrent, hlive])]
  simp only [execute, hid, Option.bind_some, updateById, htarget]
  split_ifs <;> rfl

theorem execute_delete_of_deleted (hid : parseUuid text = some id)
    (hrow : table.findRow id = some row) (hdeleted : row.deletedAt ≠ none) :
    (execute table generated now (.softDeleteById text clock)).1 = .deleted false := by
  have hlive : row.deletedAt.isNone = false := by
    cases hat : row.deletedAt with
    | none => exact absurd hat hdeleted
    | some _ => rfl
  have htarget : ((table.findRow id).filter fun row => row.deletedAt.isNone) = none := by
    rw [hrow, Option.filter_some_neg (by simp [hlive])]
  simp only [execute, hid, softDeleteById, htarget]

end

/-- A request that is refused for itself is answered with 400. -/
theorem status_of_invalid {runtime : StreamsRuntime} {now : Date} {request : StreamsRequest}
    {answer : StreamsAnswer} (hrequest : request.isPatchOrDelete = true)
    (h : prepare runtime now request = .error answer) : answer.status = 400 := by
  cases request with
  | patch text body =>
    obtain ⟨issue,rfl⟩ := prepare_patch_error h
    rfl
  | delete text =>
    simp only [prepare] at h
    split at h
    · obtain rfl := Except.error.inj h
      rfl
    · cases h
  | create body => cases hrequest
  | restore text => cases hrequest

namespace StreamsSystem
variable {ι : Type*} [DecidableEq ι] {runtime : StreamsRuntime} {requests : ι → StreamsRequest}
  {s t : StreamsSystem ι}

theorem frame_of_turn {a : StreamsAction ι} (hturn : Turn s a t) {id : Uuid} {row : StreamRow}
    (hrow : s.table.findRow id = some row) (hdeleted : row.deletedAt ≠ none) :
    t.table.findRow id = some row ∨
    ∃ i generated now text clock, StreamsEvent.turn a = .turn (.execute i generated now) ∧
      s.progress i = .sent (.restoreById text clock) ∧ parseUuid text = some id ∧
      t.table.findRow id = some { row with
        deletedAt := none, updatedAt := Date.toTimestamp clock } := by
  cases hturn with
  | idle htable _ _ => exact Or.inl (htable ▸ hrow)
  | execute i generated now statement result table hsent _ heffect =>
    obtain ⟨row',hrow',hchange⟩ := heffect.row hrow
    cases hchange with
    | kept _ => exact Or.inl hrow'
    | patched text updates currentUpdatedAt clock _ hcurrent _ =>
      have hlive : row.deletedAt = none := by
        simp only [isCurrent, Bool.and_eq_true, Option.isNone_iff_eq_none] at hcurrent
        exact hcurrent.1
      exact absurd hlive hdeleted
    | deleted text clock hlive => exact absurd hlive hdeleted
    | restored text clock hid _ =>
      exact Or.inr ⟨i, generated, now, text, clock, rfl, hsent, hid, hrow'⟩

theorem progress_of_execute {i : ι} {generated : Uuid} {now : Timestamp}
    {statement : StreamStatement} (hsent : s.progress i = .sent statement)
    (h : step runtime requests s (.execute i generated now) = some t) :
    t.progress i = .written statement (StreamPay.execute s.table generated now statement).1 := by
  simp only [step, hsent] at h
  obtain rfl := Option.some.inj h
  exact (progress_setProgress i i _).trans (if_pos rfl)

theorem invalid_of_send {i : ι} {now : Date} {answer : StreamsAnswer}
    (h : step runtime requests s (.send i now) = some t)
    (hrequest : (requests i).isPatchOrDelete = true)
    (hanswer : t.progress i = .answered none answer) : answer.status = 400 := by
  simp only [step] at h
  split at h
  · split at h
    · rename_i answer' hprepare
      obtain rfl := Option.some.inj h
      rw [progress_setProgress, if_pos rfl] at hanswer
      obtain ⟨_,rfl⟩ := StreamsProgress.answered.inj hanswer
      exact status_of_invalid hrequest hprepare
    · obtain rfl := Option.some.inj h
      rw [progress_setProgress, if_pos rfl] at hanswer
      cases hanswer
  · cases h

omit [DecidableEq ι] in
/-- The statement of a PATCH or DELETE finds nothing, if it can be read. -/
theorem refused_of_readable {i : ι} {generated : Uuid} {now : Timestamp}
    {statement : StreamStatement} {id : Uuid} {row : StreamRow}
    (hreadable : s.PatchesReadable (.turn (.execute i generated now)))
    (hsent : s.progress i = .sent statement) (hwrites : statement.writes = some id)
    (hrow : s.table.findRow id = some row) (hdeleted : row.deletedAt ≠ none) (table : StreamsTable)
    (clock : Date) : (StreamPay.respond table clock statement
      (StreamPay.execute s.table generated now statement).1).status = 404 := by
  cases statement with
  | updateById text updates currentUpdatedAt at' =>
    have hread := hreadable text updates currentUpdatedAt at' id row hsent hwrites hrow hdeleted
    rw [execute_update_of_deleted hwrites hrow hdeleted, hread]
    rfl
  | softDeleteById text at' =>
    rw [execute_delete_of_deleted hwrites hrow hdeleted]
    rfl
  | create data => cases hwrites
  | restoreById text at' => cases hwrites

theorem keepsDeleted_iff {e : StreamsEvent ι} (h : stepOrRead runtime requests s e = some t) :
    KeepsDeleted runtime requests s e t ↔ s.PatchesReadable e := by
  constructor
  · intro hkeeps
    cases e with
    | read query now => trivial
    | turn action =>
      cases action with
      | send i now => trivial
      | respond i now => trivial
      | execute i generated now =>
        intro text updates currentUpdatedAt clock id row hsent hid hrow hdeleted
        obtain ⟨result,hwritten,hanswer⟩ :=
          hkeeps.refused i generated now _ id row rfl hsent hid hrow hdeleted
        have hstep : step runtime requests s (.execute i generated now) = some t := h
        rw [progress_of_execute hsent hstep] at hwritten
        obtain ⟨_,rfl⟩ := StreamsProgress.written.inj hwritten
        have hstatus := hanswer s.table clock
        rw [execute_update_of_deleted hid hrow hdeleted] at hstatus
        -- an update that the database refuses is answered with 500
        by_contra hrefused
        rw [if_pos (by simpa using hrefused)] at hstatus
        change 500 = 404 at hstatus
        omega
  · intro hreadable
    constructor
    case frame =>
      intro id row hrow hdeleted
      cases e with
      | turn action => exact frame_of_turn (turn_of_step h) hrow hdeleted
      | read query now =>
        obtain rfl := Option.some.inj h
        exact Or.inl hrow
    case refused =>
      rintro i generated now statement id row rfl hsent hwrites hrow hdeleted
      have hstep : step runtime requests s (.execute i generated now) = some t := h
      exact ⟨_, progress_of_execute hsent hstep,
        refused_of_readable hreadable hsent hwrites hrow hdeleted⟩
    case invalid =>
      rintro i now answer rfl hrequest hanswer
      have hstep : step runtime requests s (.send i now) = some t := h
      exact invalid_of_send hstep hrequest hanswer
    case hidden =>
      rintro query now id row rfl hquery hrow hdeleted hshown
      obtain ⟨row',hrow',hlive⟩ := shown_of_answerQuery hquery hshown
      obtain rfl := Option.some.inj (hrow.symm.trans hrow')
      exact hdeleted hlive

/-- A run of requests keeps to what is said of deleted streams exactly if every
PATCH that reaches one carries values, its lock among them, that the columns read. -/
theorem deleted_streams_kept_iff (runtime : StreamsRuntime) (requests : ι → StreamsRequest)
    (table : StreamsTable) (events : List (StreamsEvent ι)) :
    Along (stepOrRead runtime requests) (KeepsDeleted runtime requests) (start table) events ↔
      Along (stepOrRead runtime requests) (fun s e _ => s.PatchesReadable e) (start table)
        events := by
  have hstep : ∀ (s : StreamsSystem ι) (e : StreamsEvent ι) (t : StreamsSystem ι),
      stepOrRead runtime requests s e = some t →
        (KeepsDeleted runtime requests s e t ↔ s.PatchesReadable e) :=
    fun _ _ _ h => keepsDeleted_iff h
  exact along_congr hstep (start table) events

section SampleDeletion

/-- A POST, a DELETE of the stream and a PATCH with an empty status. -/
def emptyStatus (i : Fin 3) : StreamsRequest :=
  if i.val = 0 then sampleCreate
  else if i.val = 1 then .delete sampleStreamId.text
  else patchStatus ""

/-- The request is about to send an update of the sample stream that is refused. -/
def sendsUnreadable (progress : StreamsProgress) : Bool :=
  match progress with
  | .sent (.updateById text updates currentUpdatedAt _) =>
    isRefused updates currentUpdatedAt && parseUuid text = some sampleStreamId
  | _ => false

/-- The database refuses the empty status, and the PATCH is answered with 500. -/
theorem deleted_stream_patched_with_500 :
    ¬ ∀ (runtime : StreamsRuntime) (requests : Fin 3 → StreamsRequest)
      (events : List (StreamsEvent (Fin 3))),
      Along (stepOrRead runtime requests) (KeepsDeleted runtime requests) (start noStreams)
        events := by
  intro h
  let step := stepOrRead sampleStreamsRuntime emptyStatus
  have hrun : ((exec step (start noStreams) ([.send 0 0, .execute 0 sampleStreamId 0, .send 1 1,
      .execute 1 sampleStreamId 0, .send 2 2].map .turn)).bind fun s =>
        (step s (.turn (.execute 2 sampleStreamId 0))).map fun _ =>
          ((s.table.findRow sampleStreamId).map StreamOf.deletedAt,
            sendsUnreadable (s.progress 2))) = some (some (some 1000), true) := by
    decide +kernel
  obtain ⟨s,hs,hrest⟩ := Option.bind_eq_some_iff.mp hrun
  obtain ⟨t,ht,hseen⟩ := Option.map_eq_some_iff.mp hrest
  obtain ⟨hrow,hsends⟩ := Prod.mk.inj hseen
  obtain ⟨row,hrow,hdeleted⟩ := Option.map_eq_some_iff.mp hrow
  have hkeeps := (h sampleStreamsRuntime emptyStatus _).last hs ht
  have hreadable := (keepsDeleted_iff ht).mp hkeeps
  unfold sendsUnreadable at hsends
  split at hsends
  · rename_i text updates currentUpdatedAt clock hsent
    rw [Bool.and_eq_true, decide_eq_true_eq] at hsends
    have hread := hreadable text updates currentUpdatedAt clock sampleStreamId row hsent hsends.2
      hrow (by rw [hdeleted]; exact Option.some_ne_none _)
    rw [hsends.1] at hread
    cases hread
  · cases hsends

end SampleDeletion

end StreamsSystem

end StreamPay
