import StreamPay.DeletedStreams

/-! What the table shows of a stream against a record of the writes that were
accepted: the requests alone, whatever their interleaving, account for it. -/
namespace StreamPay
open Interleaving StreamRepository

/-- An accepted write, as far as clients know of it. -/
inductive RecordEvent
  | created (stream : Stream)
  | patched (updates : UpdateStreamParams) (lock : Option Date) (now : Date)
  | deleted (now : Date)
  | restored (now : Date)

/-- A stream with the updates in it; fields that are missing are left untouched. -/
def Stream.patch (stream : Stream) (updates : UpdateStreamParams) (now : Date) : Stream :=
  { stream with
    labels := (updates.labels.map some).getD stream.labels
    offChainMemo := updates.offChainMemo.getD stream.offChainMemo
    status := (requestedStatus updates).getD stream.status
    updatedAt := now }

/-- The record after an event, where the event may happen. -/
def RecordEvent.next : Option Stream → RecordEvent → Option (Option Stream)
  | none, .created stream => some (some stream)
  | some stream, .patched updates lock now =>
    if stream.deletedAt = none ∧ ∀ date ∈ lock, date = stream.updatedAt
    then some (some (stream.patch updates now)) else none
  | some stream, .deleted now =>
    if stream.deletedAt = none then some (some { stream with deletedAt := some now }) else none
  | some stream, .restored now =>
    if stream.deletedAt ≠ none
    then some (some { stream with deletedAt := none, updatedAt := now }) else none
  | _, _ => none

/-- What the result of a statement tells about a stream. -/
def eventOf (id : Uuid) : StreamStatement × StatementResult → Option RecordEvent
  | (.create _, .created stream) => if stream.id = id then some (.created stream) else none
  | (.updateById text updates lock now, .updated (some _)) =>
    if parseUuid text = some id then some (.patched updates lock now) else none
  | (.softDeleteById text now, .deleted true) =>
    if parseUuid text = some id then some (.deleted now) else none
  | (.restoreById text now, .restored true) =>
    if parseUuid text = some id then some (.restored now) else none
  | _ => none

/-- The record of a stream, as the table has it. -/
def StreamsTable.record (table : StreamsTable) (id : Uuid) : Option Stream :=
  (table.findRow id).map StreamRow.fetch

section Execute
variable {table table' : StreamsTable} {id id' : Uuid}

/-- A write changes the record of its own stream by its event, and no other. -/
theorem exec_event_of_write {row : StreamRow} {event : RecordEvent}
    (hrows : ∀ id, table'.findRow id = if id = id' then some row else table.findRow id)
    (hnext : RecordEvent.next (table.record id') event = some (some row.fetch)) (id : Uuid) :
    exec RecordEvent.next (table.record id) (if id' = id then some event else none).toList =
      some (table'.record id) := by
  rw [StreamsTable.record.eq_def table' id, hrows]
  by_cases hid : id = id'
  · rw [if_pos hid.symm, if_pos hid, hid, Option.toList_some, exec, hnext]
    rfl
  · rw [if_neg (Ne.symm hid), if_neg hid]
    rfl

theorem record_of_findRow {row : StreamRow} (hrow : table.findRow id = some row) :
    table.record id = some row.fetch := congrArg (Option.map StreamRow.fetch) hrow

/-- The driver's dates come back as they were sent. -/
theorem toDate_toTimestamp (date : Date) : Timestamp.toDate (Date.toTimestamp date) = date :=
  Int.mul_ediv_cancel_left date (by decide)

theorem fetch_patched (updates : UpdateStreamParams) (now : Date) (row : StreamRow) :
    (patched updates now row).fetch = row.fetch.patch updates now := by
  simp only [patched, StreamRow.fetch, Stream.patch, toDate_toTimestamp]

/-- What a lock compares, the client can compare. -/
theorem lock_of_isCurrent {lock : Option Date} {row : StreamRow}
    (h : isCurrent lock row = true) :
    row.fetch.deletedAt = none ∧ ∀ date ∈ lock, date = row.fetch.updatedAt := by
  obtain ⟨hlive,hlock⟩ := Bool.and_eq_true_iff.mp h
  constructor
  · rw [StreamRow.fetch, Option.isNone_iff_eq_none.mp hlive]
    rfl
  · intro date hdate
    rw [Option.mem_def.mp hdate, Option.all_some, decide_eq_true_eq] at hlock
    rw [StreamRow.fetch, hlock, toDate_toTimestamp]

/-- One statement: its result tells exactly what it has done to each stream. -/
theorem exec_event (table : StreamsTable) (generated : Uuid) (now : Timestamp)
    (statement : StreamStatement) (id : Uuid) :
    exec RecordEvent.next (table.record id)
      (eventOf id (statement, (execute table generated now statement).1)).toList =
        some ((execute table generated now statement).2.record id) := by
  cases statement with
  | create data =>
    cases hcreate : create table data generated now with
    | none => simp only [execute, hcreate]; rfl
    | some created =>
      obtain ⟨stream,table'⟩ := created
      obtain ⟨ratePerSecond,totalAmount,_,_,hfree,rfl,hrows⟩ := create_eq_some hcreate
      simp only [execute, hcreate]
      apply exec_event_of_write hrows
      rw [StreamsTable.record, hfree]
      rfl
  | updateById text updates lock clock =>
    simp only [execute]
    cases hid : parseUuid text with
    | none => rfl
    | some id' =>
      rw [Option.bind_some]
      cases hupdate : updateById table id' updates lock clock with
      | none => rfl
      | some updated =>
        obtain ⟨stream,table'⟩ := updated
        cases stream with
        | none =>
          rw [updateById_none hupdate]
          rfl
        | some stream =>
          obtain ⟨row,hrow,hcurrent,_,_,hrows⟩ := updateById_some hupdate
          simp only [eventOf, hid, Option.some.injEq]
          apply exec_event_of_write hrows
          rw [record_of_findRow hrow, RecordEvent.next, if_pos (lock_of_isCurrent hcurrent),
            fetch_patched]
  | softDeleteById text clock =>
    simp only [execute]
    cases hid : parseUuid text with
    | none => rfl
    | some id' =>
      cases hdelete : softDeleteById table id' clock with
      | mk found table' =>
        cases found with
        | false =>
          simp only [hdelete]
          rw [softDeleteById_false hdelete]
          rfl
        | true =>
          obtain ⟨row,hrow,hlive,hrows⟩ := softDeleteById_true hdelete
          simp only [hdelete, eventOf, hid, Option.some.injEq]
          apply exec_event_of_write hrows
          have hnone : row.fetch.deletedAt = none := by
            rw [StreamRow.fetch, hlive]
            rfl
          rw [record_of_findRow hrow, RecordEvent.next, if_pos hnone]
          simp only [StreamRow.fetch, Option.map_some, toDate_toTimestamp]
  | restoreById text clock =>
    simp only [execute]
    cases hid : parseUuid text with
    | none => rfl
    | some id' =>
      cases hrestore : restoreById table id' clock with
      | mk found table' =>
        cases found with
        | false =>
          simp only [hrestore]
          rw [restoreById_false hrestore]
          rfl
        | true =>
          obtain ⟨row,hrow,hdeleted,hrows⟩ := restoreById_true hrestore
          simp only [hrestore, eventOf, hid, Option.some.injEq]
          apply exec_event_of_write hrows
          have hsome : row.fetch.deletedAt ≠ none := by
            rw [StreamRow.fetch]
            exact fun hnone => hdeleted (Option.map_eq_none_iff.mp hnone)
          rw [record_of_findRow hrow, RecordEvent.next, if_pos hsome]
          simp only [StreamRow.fetch, Option.map_none, toDate_toTimestamp]

end Execute

/-- PATCH is answered with 200 whatever the second read finds, and so is a restore. -/
theorem status_updated (table : StreamsTable) (now : Date) (statement : StreamStatement)
    (stream : Stream) : (respond table now statement (.updated (some stream))).status = 200 := by
  simp only [respond]
  cases respond.reread table now statement <;> rfl

theorem status_restored (table : StreamsTable) (now : Date) (statement : StreamStatement) :
    (respond table now statement (.restored true)).status = 200 := by
  simp only [respond]
  cases respond.reread table now statement <;> rfl

/-- A statement succeeds and tells of a stream, or it fails and tells of none. -/
theorem execute_result (table : StreamsTable) (generated : Uuid) (now : Timestamp)
    (statement : StreamStatement) :
    let result := (execute table generated now statement).1
    (∃ id event, eventOf id (statement, result) = some event ∧
      ∀ table now, (respond table now statement result).status < 300) ∨
    (∀ id, eventOf id (statement, result) = none) ∧
      ∀ table now, ¬ (respond table now statement result).status < 300 := by
  intro result
  have hthrew (h : result = .threw) : (∀ id, eventOf id (statement, result) = none) ∧
      ∀ table now, ¬ (respond table now statement result).status < 300 := by
    rw [h]
    constructor
    · intro id
      cases statement <;> rfl
    · intro table now
      exact of_decide_eq_false rfl
  cases statement with
  | create data =>
    cases hcreate : create table data generated now with
    | none => exact Or.inr (hthrew (by simp only [result, execute, hcreate]))
    | some created =>
      have hresult : result = .created created.1 := by simp only [result, execute, hcreate]
      rw [hresult]
      exact Or.inl ⟨created.1.id, _, if_pos rfl, fun _ _ => of_decide_eq_true rfl⟩
  | updateById text updates lock clock =>
    cases hupdate : (parseUuid text).bind fun id => updateById table id updates lock clock with
    | none => exact Or.inr (hthrew (by simp only [result, execute, hupdate]))
    | some updated =>
      obtain ⟨id,hid,_⟩ := Option.bind_eq_some_iff.mp hupdate
      have hresult : result = .updated updated.1 := by simp only [result, execute, hupdate]
      rw [hresult]
      cases updated.1 with
      | none => exact Or.inr ⟨fun _ => rfl, fun _ _ => of_decide_eq_false rfl⟩
      | some stream =>
        refine Or.inl ⟨id, _, if_pos hid, fun table now => ?_⟩
        rw [status_updated]
        decide
  | softDeleteById text clock =>
    cases hid : parseUuid text with
    | none => exact Or.inr (hthrew (by simp only [result, execute, hid]))
    | some id =>
      have hresult : result = .deleted (softDeleteById table id clock).1 := by
        simp only [result, execute, hid]
      rw [hresult]
      cases (softDeleteById table id clock).1 with
      | false => exact Or.inr ⟨fun _ => rfl, fun _ _ => of_decide_eq_false rfl⟩
      | true => exact Or.inl ⟨id, _, if_pos hid, fun _ _ => of_decide_eq_true rfl⟩
  | restoreById text clock =>
    cases hid : parseUuid text with
    | none => exact Or.inr (hthrew (by simp only [result, execute, hid]))
    | some id =>
      have hresult : result = .restored (restoreById table id clock).1 := by
        simp only [result, execute, hid]
      rw [hresult]
      cases (restoreById table id clock).1 with
      | false => exact Or.inr ⟨fun _ => rfl, fun _ _ => of_decide_eq_false rfl⟩
      | true =>
        refine Or.inl ⟨id, _, if_pos hid, fun table now => ?_⟩
        rw [status_restored]
        decide

/-- A request that fails a check is answered with 400, or with 500 for a date. -/
theorem status_of_prepare_error {runtime : StreamsRuntime} {now : Date} {request : StreamsRequest}
    {answer : StreamsAnswer} (h : prepare runtime now request = .error answer) :
    ¬ answer.status < 300 := by
  have h400 : ¬ 400 < 300 := by decide
  cases request with
  | create body =>
    simp only [prepare] at h
    split at h
    · obtain rfl := Except.error.inj h
      exact h400
    · split at h
      · obtain rfl := Except.error.inj h
        exact of_decide_eq_false rfl
      · cases h
  | patch text body =>
    rw [status_of_invalid rfl h]
    exact h400
  | delete text =>
    rw [status_of_invalid rfl h]
    exact h400
  | restore text =>
    simp only [prepare] at h
    split at h
    · obtain rfl := Except.error.inj h
      exact h400
    · cases h

namespace StreamsSystem
variable {ι : Type*} [DecidableEq ι] {runtime : StreamsRuntime} {requests : ι → StreamsRequest}

/-- The statements that were performed, in their order, with the requests they come from. -/
abbrev WriteLog (ι : Type*) := List (ι × StreamStatement × StatementResult)

def performs (s : StreamsSystem ι) :
    StreamsAction ι → Option (ι × StreamStatement × StatementResult)
  | .execute i generated now =>
    match s.progress i with
    | .sent statement =>
      some (i, statement, (StreamPay.execute s.table generated now statement).1)
    | _ => none
  | _ => none

/-- What a log tells of a stream. -/
def events (log : WriteLog ι) (id : Uuid) : List RecordEvent :=
  log.filterMap fun entry => eventOf id entry.2

/-- The requests and the table are as the log has them. -/
structure Recorded (runtime : StreamsRuntime) (requests : ι → StreamsRequest)
    (table : StreamsTable) (s : StreamsSystem ι × WriteLog ι) : Prop where
  fromRequest : ∀ i, FromRequest runtime (requests i) (s.1.progress i)
  nodup : (s.2.map Prod.fst).Nodup
  outcome_iff : ∀ i outcome, (i, outcome) ∈ s.2 ↔ (s.1.progress i).outcome = some outcome
  records : ∀ id, exec RecordEvent.next (table.record id) (events s.2 id) =
    some (s.1.table.record id)

omit [DecidableEq ι] in
theorem recorded_start (table : StreamsTable) :
    Recorded runtime requests table (start table, []) where
  fromRequest _ := trivial
  nodup := List.nodup_nil
  outcome_iff i outcome := by
    constructor
    · exact fun h => absurd h List.not_mem_nil
    · intro h
      cases h
  records _ := rfl

theorem Recorded.step {table : StreamsTable} {s t : StreamsSystem ι} {log : WriteLog ι}
    (h : Recorded runtime requests table (s, log)) {a : StreamsAction ι}
    (hstep : step runtime requests s a = some t) :
    Recorded runtime requests table (t, log ++ (performs s a).toList) := by
  have hfrom := fromRequest_step hstep h.fromRequest
  cases turn_of_step hstep with
  | idle htable houtcome hquiet =>
    have hnone : performs s a = none := by
      cases a with
      | execute i generated now => exact absurd rfl (hquiet i generated now)
      | send | respond => rfl
    rw [hnone, Option.toList_none, List.append_nil]
    constructor
    case fromRequest => exact hfrom
    case nodup => exact h.nodup
    case outcome_iff =>
      intro i outcome
      rw [houtcome]
      exact h.outcome_iff i outcome
    case records =>
      rw [htable]
      exact h.records
  | execute i generated now statement result table' hsent hexecute _ =>
    have hsome : performs s (.execute i generated now) = some (i, statement, result) := by
      simp only [performs, hsent, hexecute]
    -- the request has no outcome yet, so it is not in the log
    have hfresh (outcome : StreamStatement × StatementResult) : (i, outcome) ∉ log := by
      intro hmem
      have houtcome := (h.outcome_iff i outcome).mp hmem
      rw [hsent] at houtcome
      cases houtcome
    rw [hsome, Option.toList_some]
    constructor
    case fromRequest => exact hfrom
    case nodup =>
      rw [List.map_append, List.map_singleton]
      apply h.nodup.append (List.nodup_singleton i)
      rw [List.disjoint_singleton]
      intro hmem
      obtain ⟨⟨_,outcome⟩,hentry,rfl⟩ := List.mem_map.mp hmem
      exact hfresh outcome hentry
    case outcome_iff =>
      intro j outcome
      rw [outcome_execute, List.mem_append, List.mem_singleton, h.outcome_iff]
      split_ifs with hj
      · rw [hj, hsent]
        constructor
        · rintro (hnone | hnew)
          · cases hnone
          · exact congrArg some (Prod.mk.inj hnew).2.symm
        · intro hnew
          exact Or.inr (Prod.ext rfl (Option.some.inj hnew).symm)
      · exact or_iff_left fun hnew => hj (Prod.mk.inj hnew).1
    case records =>
      intro id
      have hevent := exec_event s.table generated now statement id
      rw [hexecute] at hevent
      have hone : events [(i, statement, result)] id =
          (eventOf id (statement, result)).toList := by
        rw [events, List.filterMap_cons]
        cases eventOf id (statement, result) <;> rfl
      rw [events, List.filterMap_append, exec_append, ← events, h.records id, Option.bind_some,
        ← events, hone]
      exact hevent

omit [DecidableEq ι] in
/-- What was performed is what the request led to. -/
theorem Recorded.prepared {table : StreamsTable} {s : StreamsSystem ι} {log : WriteLog ι}
    (h : Recorded runtime requests table (s, log)) (i : ι)
    (performed : StreamStatement × StatementResult) (hmem : (i, performed) ∈ log) :
    ∃ now, prepare runtime now (requests i) = .ok performed.1 := by
  have houtcome := (h.outcome_iff i performed).mp hmem
  have hfrom := h.fromRequest i
  cases hprogress : s.progress i with
  | received | sent =>
    rw [hprogress] at houtcome
    cases houtcome
  | written statement result =>
    rw [hprogress] at houtcome hfrom
    obtain rfl := Option.some.inj houtcome
    exact hfrom.1
  | answered outcome answer =>
    rw [hprogress] at houtcome hfrom
    obtain rfl : outcome = some performed := houtcome
    exact hfrom.1.1

theorem recorded_of_exec {table : StreamsTable} {s : StreamsSystem ι} {log : WriteLog ι}
    (actions : List (StreamsAction ι))
    (h : exec (recording (step runtime requests) performs) (start table, []) actions =
      some (s, log)) : Recorded runtime requests table (s, log) := by
  refine (reaches_of_exec actions h).invariant (Recorded runtime requests table) ?_
    (recorded_start table)
  intro s a t hs _ ha
  obtain ⟨hstep,hlog⟩ := recording_eq_some.mp ha
  have hnext := hs.step hstep
  rw [← hlog] at hnext
  exact hnext

/-- Every interleaving of requests amounts to the writes it accepts, one after the other.
Each request has performed at most one statement, it is answered with success if and only
if that statement tells of a stream, and what these events say of a stream, each of them
allowed by the record before it, is what is read of it. So a request that is refused
leaves no trace, and no accepted write is lost, doubled or undone by another request. -/
theorem streams_amount_to_their_writes (runtime : StreamsRuntime) (requests : ι → StreamsRequest)
    (table : StreamsTable) (actions : List (StreamsAction ι)) (s : StreamsSystem ι)
    (log : WriteLog ι) (h : exec (recording (step runtime requests) performs)
      (start table, []) actions = some (s, log)) :
    (log.map Prod.fst).Nodup ∧
    (∀ i performed, (i, performed) ∈ log →
      ∃ now, prepare runtime now (requests i) = .ok performed.1) ∧
    (∀ i outcome answer, s.progress i = .answered outcome answer →
      (∀ performed, (i, performed) ∈ log ↔ outcome = some performed) ∧
      (answer.status < 300 ↔
        ∃ performed id event, (i, performed) ∈ log ∧ eventOf id performed = some event)) ∧
    ∀ id, ∃ record, exec RecordEvent.next (table.record id) (events log id) = some record ∧
      ∀ includeDeleted now, findById s.table id includeDeleted now =
        (record.filter fun stream => includeDeleted || stream.deletedAt.isNone).map
          fun stream => (stream, calculateAccruedEstimate stream now) := by
  have hinv := recorded_of_exec actions h
  refine ⟨hinv.nodup, hinv.prepared, fun i outcome answer hanswered => ?_, fun id => ?_⟩
  · have hperformed (performed : StreamStatement × StatementResult) :
        (i, performed) ∈ log ↔ outcome = some performed := by
      rw [hinv.outcome_iff i performed, hanswered]
      rfl
    refine ⟨hperformed, ?_⟩
    have hfrom := hinv.fromRequest i
    rw [hanswered] at hfrom
    cases outcome with
    | none =>
      obtain ⟨now,hprepare⟩ := hfrom
      refine iff_of_false (status_of_prepare_error hprepare) ?_
      rintro ⟨performed,_,_,hmem,_⟩
      exact Option.some_ne_none performed ((hperformed performed).mp hmem).symm
    | some outcome =>
      obtain ⟨⟨_,table',generated,time,hresult⟩,table'',now,rfl⟩ := hfrom
      have hcases := execute_result table' generated time outcome.1
      rw [← hresult] at hcases
      rcases hcases with ⟨id,event,hevent,hstatus⟩ | ⟨hnone,hstatus⟩
      · exact iff_of_true (hstatus table'' now)
          ⟨outcome, id, event, (hperformed outcome).mpr rfl, hevent⟩
      · refine iff_of_false (hstatus table'' now) ?_
        rintro ⟨performed,id,event,hmem,hevent⟩
        obtain rfl := Option.some.inj ((hperformed performed).mp hmem)
        rw [hnone id] at hevent
        cases hevent
  · refine ⟨s.table.record id, hinv.records id, fun includeDeleted now => ?_⟩
    rw [findById, StreamsTable.record]
    cases s.table.findRow id with
    | none => rfl
    | some row =>
      have hlive : row.fetch.deletedAt.isNone = row.deletedAt.isNone := Option.isNone_map
      rw [Option.map_some, Option.filter_some, Option.filter_some, hlive]
      split_ifs <;> rfl

/-- A stream is deleted while a PATCH of it is on its way. -/
def overtaken (i : Fin 3) : StreamsRequest :=
  if i.val = 0 then sampleCreate
  else if i.val = 1 then .delete sampleStreamId.text else patchStatus "paused"

def overtaking : List (StreamsAction (Fin 3)) :=
  [.send 0 0, .execute 0 sampleStreamId 0, .send 2 5, .send 1 6, .execute 1 sampleStreamId 0,
    .execute 2 sampleStreamId 0, .respond 2 7]

theorem overtaken_patch_leaves_no_trace : ∃ (s : StreamsSystem (Fin 3)) (log : WriteLog (Fin 3)),
    exec (recording (step sampleStreamsRuntime overtaken) performs) (start noStreams, [])
      overtaking = some (s, log) ∧
    (events log sampleStreamId).length = 2 ∧
    ∃ record, exec RecordEvent.next none (events log sampleStreamId) = some record ∧
      findById s.table sampleStreamId false 9 =
        (record.filter fun stream => stream.deletedAt.isNone).map
          fun stream => (stream, calculateAccruedEstimate stream 9) := by
  have hrun : ((exec (recording (step sampleStreamsRuntime overtaken) performs)
      (start noStreams, []) overtaking).map fun s => (events s.2 sampleStreamId).length) =
        some 2 := by
    decide +kernel
  obtain ⟨⟨s,log⟩,hexec,htwo⟩ := Option.map_eq_some_iff.mp hrun
  obtain ⟨_,_,_,hrecords⟩ := streams_amount_to_their_writes sampleStreamsRuntime overtaken
    noStreams overtaking s log hexec
  obtain ⟨record,hrecord,hfound⟩ := hrecords sampleStreamId
  exact ⟨s, log, hexec, htwo, record, hrecord, hfound false 9⟩

end StreamsSystem

end StreamPay
