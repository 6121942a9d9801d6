import Mathlib.Logic.Function.Basic
import StreamPay.StreamsApi
import StreamPay.Library.Interleaving

/-! Requests on streams that are handled side by side. A request reads the
clock and sends its statement, the database performs it at some later time, and
the answer is made after that. -/
namespace StreamPay
open Interleaving StreamRepository

/-- How far a request has come; an answer keeps what was written for it. -/
inductive StreamsProgress
  | received
  | sent (statement : StreamStatement)
  | written (statement : StreamStatement) (result : StatementResult)
  | answered (outcome : Option (StreamStatement × StatementResult)) (answer : StreamsAnswer)

def StreamsProgress.outcome : StreamsProgress → Option (StreamStatement × StatementResult)
  | .written statement result => some (statement, result)
  | .answered outcome _ => outcome
  | _ => none

structure StreamsSystem (ι : Type*) where
  table : StreamsTable
  progress : ι → StreamsProgress

inductive StreamsAction (ι : Type*)
  | send (i : ι) (now : Date)
  | execute (i : ι) (generated : Uuid) (now : Timestamp)
  | respond (i : ι) (now : Date)

/-- What a statement can do to the rows of the table. -/
inductive Effect (table : StreamsTable) (generated : Uuid) (now : Timestamp) :
    StreamStatement → StatementResult → StreamsTable → Prop
  | unchanged {statement : StreamStatement} {result : StatementResult} :
      (∀ stream, result ≠ .updated (some stream)) → result ≠ .restored true →
      Effect table generated now statement result table
  | created (data : NewStream) (ratePerSecond totalAmount : ℤ) (table' : StreamsTable) :
      table.findRow (data.id.getD generated) = none →
      (∀ id, table'.findRow id = if id = data.id.getD generated
        then some (insertedRow data ratePerSecond totalAmount generated now)
        else table.findRow id) →
      Effect table generated now (.create data)
        (.created (insertedRow data ratePerSecond totalAmount generated now).fetch) table'
  | updated (text : String) (id : Uuid) (updates : UpdateStreamParams)
      (currentUpdatedAt : Option Date) (clock : Date) (row : StreamRow) (table' : StreamsTable) :
      parseUuid text = some id → table.findRow id = some row →
      isCurrent currentUpdatedAt row = true → isRefused updates currentUpdatedAt = false →
      (∀ id', table'.findRow id' =
        if id' = id then some (patched updates clock row) else table.findRow id') →
      Effect table generated now (.updateById text updates currentUpdatedAt clock)
        (.updated (some (patched updates clock row).fetch)) table'
  | deleted (text : String) (id : Uuid) (clock : Date) (row : StreamRow) (table' : StreamsTable) :
      parseUuid text = some id → table.findRow id = some row → row.deletedAt = none →
      (∀ id', table'.findRow id' =
        if id' = id then some { row with deletedAt := some (Date.toTimestamp clock) }
        else table.findRow id') →
      Effect table generated now (.softDeleteById text clock) (.deleted true) table'
  | restored (text : String) (id : Uuid) (clock : Date) (row : StreamRow) (table' : StreamsTable) :
      parseUuid text = some id → table.findRow id = some row → row.deletedAt ≠ none →
      (∀ id', table'.findRow id' =
        if id' = id
        then some { row with deletedAt := none, updatedAt := Date.toTimestamp clock }
        else table.findRow id') →
      Effect table generated now (.restoreById text clock) (.restored true) table'

theorem execute_effect (table : StreamsTable) (generated : Uuid) (now : Timestamp)
    (statement : StreamStatement) :
    Effect table generated now statement (execute table generated now statement).1
      (execute table generated now statement).2 := by
  -- an id that is no UUID, an error of the database or no row: the table stays
  cases statement with
  | create data =>
    simp only [execute]
    cases hcreate : create table data generated now with
    | none => exact .unchanged (by simp) (by simp)
    | some created =>
      obtain ⟨stream,table'⟩ := created
      obtain ⟨ratePerSecond,totalAmount,_,_,hfree,rfl,hrows⟩ := create_eq_some hcreate
      exact .created data ratePerSecond totalAmount table' hfree hrows
  | updateById text updates currentUpdatedAt clock =>
    simp only [execute]
    cases hid : parseUuid text with
    | none => exact .unchanged (by simp) (by simp)
    | some id =>
      rw [Option.bind_some]
      cases hupdate : updateById table id updates currentUpdatedAt clock with
      | none => exact .unchanged (by simp) (by simp)
      | some updated =>
        obtain ⟨stream,table'⟩ := updated
        cases stream with
        | none =>
          obtain rfl := updateById_none hupdate
          exact .unchanged (by simp) (by simp)
        | some stream =>
          obtain ⟨row,hrow,hcurrent,hread,rfl,hrows⟩ := updateById_some hupdate
          exact .updated text id updates currentUpdatedAt clock row table' hid hrow hcurrent hread
            hrows
  | softDeleteById text clock =>
    simp only [execute]
    cases hid : parseUuid text with
    | none => exact .unchanged (by simp) (by simp)
    | some id =>
      cases hdelete : softDeleteById table id clock with
      | mk found table' =>
        simp only [hdelete]
        cases found with
        | false =>
          obtain rfl := softDeleteById_false hdelete
          exact .unchanged (by simp) (by simp)
        | true =>
          obtain ⟨row,hrow,hlive,hrows⟩ := softDeleteById_true hdelete
          exact .deleted text id clock row table' hid hrow hlive hrows
  | restoreById text clock =>
    simp only [execute]
    cases hid : parseUuid text with
    | none => exact .unchanged (by simp) (by simp)
    | some id =>
      cases hrestore : restoreById table id clock with
      | mk found table' =>
        simp only [hrestore]
        cases found with
        | false =>
          obtain rfl := restoreById_false hrestore
          exact .unchanged (by simp) (by simp)
        | true =>
          obtain ⟨row,hrow,hdeleted,hrows⟩ := restoreById_true hrestore
          exact .restored text id clock row table' hid hrow hdeleted hrows

/-- The stream whose `updatedAt` a statement has set. -/
def touched : StreamStatement × StatementResult → Option Uuid
  | (.updateById text _ _ _, .updated (some _)) => parseUuid text
  | (.restoreById text _, .restored true) => parseUuid text
  | _ => none

theorem touched_eq_none {statement : StreamStatement} {result : StatementResult}
    (hupdated : ∀ stream, result ≠ .updated (some stream)) (hrestored : result ≠ .restored true) :
    touched (statement, result) = none := by
  unfold touched
  split
  · rename_i heq
    exact absurd (Prod.mk.inj heq).2 (hupdated _)
  · rename_i heq
    exact absurd (Prod.mk.inj heq).2 hrestored
  · rfl

/-- What a statement with its result does to the row of a stream. -/
inductive RowEffect (id : Uuid) (row : StreamRow) :
    StreamStatement → StatementResult → StreamRow → Prop
  | kept {statement : StreamStatement} {result : StatementResult} :
      touched (statement, result) ≠ some id → RowEffect id row statement result row
  | patched (text : String) (updates : UpdateStreamParams) (currentUpdatedAt : Option Date)
      (clock : Date) : parseUuid text = some id → isCurrent currentUpdatedAt row = true →
      isRefused updates currentUpdatedAt = false →
      RowEffect id row (.updateById text updates currentUpdatedAt clock)
        (.updated (some (patched updates clock row).fetch)) (patched updates clock row)
  | deleted (text : String) (clock : Date) : row.deletedAt = none →
      RowEffect id row (.softDeleteById text clock) (.deleted true)
        { row with deletedAt := some (Date.toTimestamp clock) }
  | restored (text : String) (clock : Date) : parseUuid text = some id → row.deletedAt ≠ none →
      RowEffect id row (.restoreById text clock) (.restored true)
        { row with deletedAt := none, updatedAt := Date.toTimestamp clock }

/-- No row is lost, and each is changed in one of these ways. -/
theorem Effect.row {table table' : StreamsTable} {generated : Uuid} {now : Timestamp}
    {statement : StreamStatement} {result : StatementResult}
    (h : Effect table generated now statement result table') {id : Uuid} {row : StreamRow}
    (hrow : table.findRow id = some row) :
    ∃ row', table'.findRow id = some row' ∧ RowEffect id row statement result row' := by
  cases h with
  | unchanged hupdated hrestored =>
    have huntouched : touched (statement, result) ≠ some id := by
      rw [touched_eq_none hupdated hrestored]
      exact (Option.some_ne_none id).symm
    exact ⟨row, hrow, .kept huntouched⟩
  | created data ratePerSecond totalAmount _ hfree hrows =>
    refine ⟨row, ?_, .kept (by simp [touched])⟩
    have hother : id ≠ data.id.getD generated := fun he => by
      rw [he, hfree] at hrow
      cases hrow
    rw [hrows, if_neg hother, hrow]
  | updated text id' updates currentUpdatedAt clock old _ hid hold hcurrent hread hrows =>
    by_cases he : id = id'
    · subst he
      obtain rfl := Option.some.inj (hold.symm.trans hrow)
      exact ⟨_, by rw [hrows, if_pos rfl], .patched text updates currentUpdatedAt clock hid hcurrent
        hread⟩
    · refine ⟨row, by rw [hrows, if_neg he, hrow], .kept fun htouched => he ?_⟩
      exact Option.some.inj (htouched.symm.trans hid)
  | deleted text id' clock old _ hid hold hlive hrows =>
    by_cases he : id = id'
    · subst he
      obtain rfl := Option.some.inj (hold.symm.trans hrow)
      exact ⟨_, by rw [hrows, if_pos rfl], .deleted text clock hlive⟩
    · exact ⟨row, by rw [hrows, if_neg he, hrow], .kept (by simp [touched])⟩
  | restored text id' clock old _ hid hold hdeleted hrows =>
    by_cases he : id = id'
    · subst he
      obtain rfl := Option.some.inj (hold.symm.trans hrow)
      exact ⟨_, by rw [hrows, if_pos rfl], .restored text clock hid hdeleted⟩
    · refine ⟨row, by rw [hrows, if_neg he, hrow], .kept fun htouched => he ?_⟩
      exact Option.some.inj (htouched.symm.trans hid)

/-- A row has the id of an earlier one, unless it is the row that was created. -/
theorem Effect.origin {table table' : StreamsTable} {generated : Uuid} {now : Timestamp}
    {statement : StreamStatement} {result : StatementResult}
    (h : Effect table generated now statement result table') {id : Uuid} {row' : StreamRow}
    (hrow' : table'.findRow id = some row') :
    (∃ row, table.findRow id = some row) ∨
    ∃ data ratePerSecond totalAmount, statement = .create data ∧
      row' = insertedRow data ratePerSecond totalAmount generated now := by
  have hold {id' : Uuid} {row new : StreamRow} (hrow : table.findRow id' = some row)
      (hrows : ∀ id, table'.findRow id = if id = id' then some new else table.findRow id) :
      ∃ row, table.findRow id = some row := by
    rw [hrows] at hrow'
    split_ifs at hrow' with hid
    · exact ⟨row, hid ▸ hrow⟩
    · exact ⟨row', hrow'⟩
  cases h with
  | unchanged _ _ => exact Or.inl ⟨row', hrow'⟩
  | created data ratePerSecond totalAmount _ _ hrows =>
    rw [hrows] at hrow'
    split_ifs at hrow' with hid
    · exact Or.inr ⟨data, ratePerSecond, totalAmount, rfl, (Option.some.inj hrow').symm⟩
    · exact Or.inl ⟨row', hrow'⟩
  | updated text id' updates currentUpdatedAt clock row _ _ hrow _ _ hrows =>
    exact Or.inl (hold hrow hrows)
  | deleted text id' clock row _ _ hrow _ hrows => exact Or.inl (hold hrow hrows)
  | restored text id' clock row _ _ hrow _ hrows => exact Or.inl (hold hrow hrows)

namespace StreamsSystem
variable {ι : Type*} [DecidableEq ι]

/-- No request has been looked at. -/
def start (table : StreamsTable) : StreamsSystem ι := ⟨table, fun _ => .received⟩

def setProgress (s : StreamsSystem ι) (i : ι) (progress : StreamsProgress) : StreamsSystem ι :=
  { s with progress := Function.update s.progress i progress }

def step (runtime : StreamsRuntime) (requests : ι → StreamsRequest) (s : StreamsSystem ι) :
    StreamsAction ι → Option (StreamsSystem ι)
  | .send i now =>
    match s.progress i with
    | .received =>
      match prepare runtime now (requests i) with
      -- a check that fails is answered without a statement
      | .error answer => some (s.setProgress i (.answered none answer))
      | .ok statement => some (s.setProgress i (.sent statement))
    | _ => none
  | .execute i generated now =>
    match s.progress i with
    | .sent statement =>
      let (result,table) := execute s.table generated now statement
      some { s.setProgress i (.written statement result) with table := table }
    | _ => none
  | .respond i now =>
    match s.progress i with
    | .written statement result =>
      some (s.setProgress i
        (.answered (some (statement, result)) (respond s.table now statement result)))
    | _ => none

variable {runtime : StreamsRuntime} {requests : ι → StreamsRequest} {s t : StreamsSystem ι}

theorem progress_setProgress (i j : ι) (progress : StreamsProgress) :
    (s.setProgress i progress).progress j = if j = i then progress else s.progress j :=
  Function.update_apply _ _ _ _

theorem outcome_execute (i j : ι) (statement : StreamStatement) (result : StatementResult)
    (table : StreamsTable) :
    (({ s.setProgress i (.written statement result) with table := table } :
      StreamsSystem ι).progress j).outcome =
        if j = i then some (statement, result) else (s.progress j).outcome := by
  have hprogress : ({ s.setProgress i (.written statement result) with table := table } :
      StreamsSystem ι).progress j = if j = i then .written statement result else s.progress j :=
    progress_setProgress i j _
  rw [hprogress]
  split_ifs <;> rfl

/-- What a turn can do: only a statement that is performed changes the table and
the outcome of its request. -/
inductive Turn (s : StreamsSystem ι) : StreamsAction ι → StreamsSystem ι → Prop
  | idle {a : StreamsAction ι} {t : StreamsSystem ι} : t.table = s.table →
      (∀ j, (t.progress j).outcome = (s.progress j).outcome) →
      (∀ i generated now, a ≠ .execute i generated now) → Turn s a t
  | execute (i : ι) (generated : Uuid) (now : Timestamp) (statement : StreamStatement)
      (result : StatementResult) (table : StreamsTable) : s.progress i = .sent statement →
      StreamPay.execute s.table generated now statement = (result, table) →
      Effect s.table generated now statement result table →
      Turn s (.execute i generated now)
        { s.setProgress i (.written statement result) with table := table }

theorem turn_of_step {a : StreamsAction ι} (h : step runtime requests s a = some t) :
    Turn s a t := by
  -- a request that has not been written, or whose outcome stays
  have hidle (i : ι) (progress : StreamsProgress)
      (hsame : progress.outcome = (s.progress i).outcome) (j : ι) :
      ((s.setProgress i progress).progress j).outcome = (s.progress j).outcome := by
    rw [progress_setProgress]
    split_ifs with hj
    · rw [hj, hsame]
    · rfl
  cases a with
  | send i now =>
    simp only [step] at h
    split at h
    · rename_i hreceived
      split at h
      · obtain rfl := Option.some.inj h
        exact .idle rfl (hidle i _ (by rw [hreceived]; rfl)) (by simp)
      · obtain rfl := Option.some.inj h
        exact .idle rfl (hidle i _ (by rw [hreceived]; rfl)) (by simp)
    · cases h
  | execute i generated now =>
    simp only [step] at h
    split at h
    · rename_i statement hsent
      obtain rfl := Option.some.inj h
      exact .execute i generated now statement _ _ hsent rfl
        (execute_effect s.table generated now statement)
    · cases h
  | respond i now =>
    simp only [step] at h
    split at h
    · rename_i statement result hwritten
      obtain rfl := Option.some.inj h
      exact .idle rfl (hidle i _ (by rw [hwritten]; rfl)) (by simp)
    · cases h

/-- A statement that the request leads to, with a result of it. -/
def Performed (runtime : StreamsRuntime) (request : StreamsRequest) (statement : StreamStatement)
    (result : StatementResult) : Prop :=
  (∃ now, prepare runtime now request = .ok statement) ∧
  ∃ table generated now, result = (StreamPay.execute table generated now statement).1

/-- What a request can have come to. -/
def FromRequest (runtime : StreamsRuntime) (request : StreamsRequest) : StreamsProgress → Prop
  | .received => True
  | .sent statement => ∃ now, prepare runtime now request = .ok statement
  | .written statement result => Performed runtime request statement result
  | .answered none answer => ∃ now, prepare runtime now request = .error answer
  | .answered (some (statement,result)) answer => Performed runtime request statement result ∧
      ∃ table now, answer = StreamPay.respond table now statement result

theorem fromRequest_step {a : StreamsAction ι} (h : step runtime requests s a = some t)
    (hs : ∀ i, FromRequest runtime (requests i) (s.progress i)) (i : ι) :
    FromRequest runtime (requests i) (t.progress i) := by
  have hset (j : ι) (progress : StreamsProgress)
      (hprogress : FromRequest runtime (requests j) progress) :
      FromRequest runtime (requests i) ((s.setProgress j progress).progress i) := by
    rw [progress_setProgress]
    split_ifs with hj
    · rwa [hj]
    · exact hs i
  cases a with
  | send j now =>
    simp only [step] at h
    split at h
    · split at h
      · rename_i answer hprepare
        obtain rfl := Option.some.inj h
        exact hset j _ ⟨now, hprepare⟩
      · rename_i statement hprepare
        obtain rfl := Option.some.inj h
        exact hset j _ ⟨now, hprepare⟩
    · cases h
  | execute j generated now =>
    simp only [step] at h
    split at h
    · rename_i statement hsent
      obtain rfl := Option.some.inj h
      have hprepare := hs j
      rw [hsent] at hprepare
      exact hset j _ ⟨hprepare, s.table, generated, now, rfl⟩
    · cases h
  | respond j now =>
    simp only [step] at h
    split at h
    · rename_i statement result hwritten
      obtain rfl := Option.some.inj h
      have hperformed := hs j
      rw [hwritten] at hperformed
      exact hset j _ ⟨hperformed, s.table, now, rfl⟩
    · cases h

theorem fromRequest_of_reaches {C : StreamsSystem ι → StreamsAction ι → Prop}
    {table : StreamsTable} (hs : ReachesWhile (step runtime requests) C (start table) s) (i : ι) :
    FromRequest runtime (requests i) (s.progress i) := by
  have hstart (i : ι) :
      FromRequest runtime (requests i) ((start table : StreamsSystem ι).progress i) := trivial
  have hall := hs.invariant (fun s => ∀ i, FromRequest runtime (requests i) (s.progress i))
    (fun _ _ _ hs _ h => fromRequest_step h hs) hstart
  exact hall i

end StreamsSystem

end StreamPay
