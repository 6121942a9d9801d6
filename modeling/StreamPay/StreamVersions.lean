import StreamPay.StreamLifecycle

/-! The `updatedAt` of a row as a client has it: a date in milliseconds, which a
PATCH sends back to be compared with the microseconds of the row. -/
namespace StreamPay
open Interleaving StreamRepository

/-- A PATCH of a stream that its handler and the database accept, with the
`updatedAt` that the stream was returned with. -/
structure ValidPatch (runtime : StreamsRuntime) (id : Uuid) (updatedAt : Date) (text : String)
    (body : Json) : Prop where
  path : parseUuid text = some id
  accepted : patchIssue runtime text (orEmpty body) = none
  readable : isRefused (repositoryUpdates (orEmpty body)) (some updatedAt) = false
  notNull : setsNull (repositoryUpdates (orEmpty body)) = false
  token : (orEmpty body).get "updatedAt" = some (.string (IsoDate.toISOString updatedAt))

/-- The lock comes back as the date that it was made from. -/
theorem ValidPatch.lock {runtime : StreamsRuntime} {id : Uuid} {updatedAt : Date} {text : String}
    {body : Json} (h : ValidPatch runtime id updatedAt text body) :
    requestedLock runtime (orEmpty body) = some (some updatedAt) := by
  have htruthy : (Json.string (IsoDate.toISOString updatedAt)).isTruthy = true := by
    simp [Json.isTruthy, IsoDate.toISOString_ne_empty]
  have hdate : runtime.newDate (.string (IsoDate.toISOString updatedAt)) = some updatedAt := by
    rw [StreamsRuntime.newDate, IsoDate.parse_toISOString, Option.some_or]
  rw [requestedLock, h.token, Option.filter_some_pos htruthy, Option.map_some, hdate]

/-- It is accepted exactly if the row has a whole number of milliseconds. -/
theorem ValidPatch.succeeds_iff {runtime : StreamsRuntime} {table : StreamsTable} {id : Uuid}
    {row : StreamRow} {text : String} {body : Json} {clock clock' : Date} {generated : Uuid}
    {now : Timestamp} (h : ValidPatch runtime id row.fetch.updatedAt text body)
    (hrow : table.findRow id = some row) (hlive : row.deletedAt = none) :
    (∃ stream accruedEstimate,
      (handle runtime table (.patch text body) clock generated now clock').1 =
        .stream 200 stream accruedEstimate) ↔ 1000 ∣ row.updatedAt := by
  have hprepare : prepare runtime clock (.patch text body) = .ok (.updateById text
      (repositoryUpdates (orEmpty body)) (some row.fetch.updatedAt) clock) := by
    simp [prepare, h.accepted, h.lock]
  have hcurrent : isCurrent (some row.fetch.updatedAt) row = true ↔ 1000 ∣ row.updatedAt := by
    rw [← Date.toTimestamp_toDate_eq_iff, isCurrent, hlive]
    simp [StreamRow.fetch, eq_comm]
  simp only [handle, hprepare, execute, h.path, Option.bind_some]
  -- the driver has cut off the microseconds of any other row
  by_cases hwhole : 1000 ∣ row.updatedAt
  · obtain ⟨table',hupdate⟩ := updateById_of_current clock h.readable h.notNull hrow
      (hcurrent.mpr hwhole)
    rw [hupdate]
    refine iff_of_true ?_ hwhole
    simp only [respond]
    split
    · exact ⟨_, _, rfl⟩
    · exact ⟨_, _, rfl⟩
  · have hmissed : updateById table id (repositoryUpdates (orEmpty body))
        (some row.fetch.updatedAt) clock = some (none, table) := by
      have htarget : (table.findRow id).filter (isCurrent (some row.fetch.updatedAt)) = none := by
        rw [hrow, Option.filter_some_neg (Bool.not_eq_true _ ▸ fun he => hwhole (hcurrent.mp he))]
      simp [updateById, h.readable, htarget]
    rw [hmissed]
    refine iff_of_false ?_ hwhole
    rintro ⟨stream,accruedEstimate,hanswer⟩
    cases hanswer

namespace StreamsSystem
variable {ι : Type*}

/-- Request `i` has set the `updatedAt` of the stream. -/
def HasTouched (s : StreamsSystem ι) (i : ι) (id : Uuid) : Prop :=
  (s.progress i).outcome.bind touched = some id

/-- The rows that requests have touched have the time of the application, the
others still have the time of the database. -/
structure VersionInvariant (s : StreamsSystem ι) : Prop where
  stamped : ∀ i id, s.HasTouched i id →
    ∃ row, s.table.findRow id = some row ∧ 1000 ∣ row.updatedAt
  unstamped : ∀ id row, s.table.findRow id = some row → (∀ i, ¬ s.HasTouched i id) →
    row.updatedAt = row.createdAt

theorem versionInvariant_start : VersionInvariant (start noStreams : StreamsSystem ι) where
  stamped i id h := by simp [HasTouched, start, StreamsProgress.outcome] at h
  unstamped id row h := by simp [start, noStreams, StreamsTable.findRow] at h

variable [DecidableEq ι] {runtime : StreamsRuntime} {requests : ι → StreamsRequest}
  {s t : StreamsSystem ι}

theorem hasTouched_execute (i j : ι) (statement : StreamStatement) (result : StatementResult)
    (table : StreamsTable) (id : Uuid) :
    StreamsSystem.HasTouched
        { s.setProgress i (.written statement result) with table := table } j id ↔
      if j = i then touched (statement, result) = some id else s.HasTouched j id := by
  rw [HasTouched, outcome_execute]
  split_ifs <;> rfl

/-- A statement that touches a row stamps it. -/
theorem stamped_of_touched {table table' : StreamsTable} {generated : Uuid} {now : Timestamp}
    {statement : StreamStatement} {result : StatementResult} {id : Uuid}
    (h : Effect table generated now statement result table')
    (htouched : touched (statement, result) = some id) :
    ∃ row, table'.findRow id = some row ∧ 1000 ∣ row.updatedAt := by
  cases h with
  | unchanged hupdated hrestored =>
    rw [touched_eq_none hupdated hrestored] at htouched
    cases htouched
  | created data ratePerSecond totalAmount _ _ _ => cases htouched
  | updated text id' updates currentUpdatedAt clock row _ hid _ _ _ hrows =>
    obtain rfl := Option.some.inj (hid.symm.trans htouched)
    exact ⟨_, by rw [hrows, if_pos rfl], dvd_mul_right 1000 clock⟩
  | deleted text id' clock row _ _ _ _ _ => cases htouched
  | restored text id' clock row _ hid _ _ hrows =>
    obtain rfl := Option.some.inj (hid.symm.trans htouched)
    exact ⟨_, by rw [hrows, if_pos rfl], dvd_mul_right 1000 clock⟩

/-- A stamped row is stamped after any statement. -/
theorem stays_stamped {table table' : StreamsTable} {generated : Uuid} {now : Timestamp}
    {statement : StreamStatement} {result : StatementResult} {id : Uuid} {row : StreamRow}
    (h : Effect table generated now statement result table')
    (hrow : table.findRow id = some row) (hwhole : 1000 ∣ row.updatedAt) :
    ∃ row', table'.findRow id = some row' ∧ 1000 ∣ row'.updatedAt := by
  obtain ⟨row',hrow',hchange⟩ := h.row hrow
  refine ⟨row', hrow', ?_⟩
  cases hchange with
  | kept _ => exact hwhole
  | patched text updates currentUpdatedAt clock _ _ _ => exact dvd_mul_right 1000 clock
  | deleted text clock _ => exact hwhole
  | restored text clock _ _ => exact dvd_mul_right 1000 clock

/-- A row that a statement does not touch is a new one, or keeps its times. -/
theorem stays_unstamped {table table' : StreamsTable} {generated : Uuid} {now : Timestamp}
    {clock : Date} {request : StreamsRequest} {statement : StreamStatement}
    {result : StatementResult} {id : Uuid} {row' : StreamRow}
    (h : Effect table generated now statement result table')
    (hprepare : prepare runtime clock request = .ok statement)
    (hrow' : table'.findRow id = some row') (huntouched : touched (statement, result) ≠ some id)
    (hbefore : ∀ row, table.findRow id = some row → row.updatedAt = row.createdAt) :
    row'.updatedAt = row'.createdAt := by
  obtain ⟨row,hrow⟩ | ⟨data,ratePerSecond,totalAmount,rfl,rfl⟩ := h.origin hrow'
  · obtain ⟨after,hafter,hchange⟩ := h.row hrow
    obtain rfl := Option.some.inj (hafter.symm.trans hrow')
    cases hchange with
    | kept _ => exact hbefore row hrow
    | patched text updates currentUpdatedAt clock hid _ _ => exact absurd hid huntouched
    | deleted text clock _ => exact hbefore row hrow
    | restored text clock hid _ => exact absurd hid huntouched
  · -- the schemas name neither time, so both are the database's `now()`
    obtain ⟨hcreated,hupdated⟩ := prepare_create hprepare
    simp [insertedRow, hcreated, hupdated]

theorem VersionInvariant.turn (h : VersionInvariant s)
    (hfrom : ∀ i, FromRequest runtime (requests i) (s.progress i)) {a : StreamsAction ι}
    (ht : Turn s a t) : VersionInvariant t := by
  cases ht with
  | idle htable hsame _ =>
    have htouched (i : ι) (id : Uuid) : t.HasTouched i id ↔ s.HasTouched i id := by
      rw [HasTouched, hsame, HasTouched]
    constructor
    · intro i id hi
      rw [htable]
      exact h.stamped i id ((htouched i id).mp hi)
    · intro id row hrow hnone
      rw [htable] at hrow
      exact h.unstamped id row hrow fun i hi => hnone i ((htouched i id).mpr hi)
  | execute i generated now statement result table hsent _ heffect =>
    constructor
    · intro j id hj
      rw [hasTouched_execute] at hj
      by_cases hji : j = i
      · rw [if_pos hji] at hj
        exact stamped_of_touched heffect hj
      · rw [if_neg hji] at hj
        obtain ⟨row,hrow,hwhole⟩ := h.stamped j id hj
        exact stays_stamped heffect hrow hwhole
    · intro id row' hrow' hnone
      have hbefore (j : ι) : ¬ s.HasTouched j id := by
        intro hj
        apply hnone j
        rw [hasTouched_execute]
        split_ifs with hji
        · rw [hji, HasTouched, hsent] at hj
          cases hj
        · exact hj
      have hown := mt (hasTouched_execute (s := s) i i statement result table id).mpr (hnone i)
      rw [if_pos rfl] at hown
      have hprepare := hfrom i
      rw [hsent] at hprepare
      obtain ⟨clock,hprepare⟩ := hprepare
      exact stays_unstamped heffect hprepare hrow' hown
        fun row hrow => h.unstamped id row hrow hbefore

theorem versionInvariant_of_reaches (hs : Reaches (step runtime requests) (start noStreams) s) :
    VersionInvariant s := by
  induction hs with
  | refl => exact versionInvariant_start
  | tail a hs _ hstep ih => exact ih.turn (fromRequest_of_reaches hs) (turn_of_step hstep)

/-- A PATCH with the `updatedAt` that a stream is returned with succeeds exactly
if a request has set it before, or else the row was created at a whole millisecond. -/
theorem returned_version_accepted_iff {id : Uuid} {readAt clock clock' : Date} {stream : Stream}
    {accruedEstimate : ℚ} {text : String} {body : Json} (generated : Uuid) (now : Timestamp)
    (hs : Reaches (step runtime requests) (start noStreams) s)
    (hread : findById s.table id false readAt = some (stream, accruedEstimate))
    (hpatch : ValidPatch runtime id stream.updatedAt text body) :
    (∃ stream' accruedEstimate',
      (handle runtime s.table (.patch text body) clock generated now clock').1 =
        .stream 200 stream' accruedEstimate') ↔
      (∃ i, s.HasTouched i id) ∨ ∃ row, s.table.findRow id = some row ∧ 1000 ∣ row.createdAt := by
  have hversion := versionInvariant_of_reaches hs
  obtain ⟨row,htarget,hstream⟩ := Option.map_eq_some_iff.mp hread
  obtain ⟨rfl,_⟩ := Prod.mk.inj hstream
  obtain ⟨hrow,hlive⟩ := Option.filter_eq_some_iff.mp htarget
  have hlive' : row.deletedAt = none := by simpa using hlive
  rw [hpatch.succeeds_iff hrow hlive']
  -- whether the row has the time of the application or still that of the database
  by_cases htouched : ∃ i, s.HasTouched i id
  · obtain ⟨i,hi⟩ := htouched
    obtain ⟨row',hrow',hwhole⟩ := hversion.stamped i id hi
    obtain rfl := Option.some.inj (hrow.symm.trans hrow')
    exact iff_of_true hwhole (Or.inl ⟨i, hi⟩)
  · rw [hversion.unstamped id row hrow (not_exists.mp htouched)]
    constructor
    · exact fun hwhole => Or.inr ⟨row, hrow, hwhole⟩
    · rintro (hi | ⟨row',hrow',hwhole⟩)
      · exact absurd hi htouched
      · obtain rfl := Option.some.inj (hrow.symm.trans hrow')
        exact hwhole

section SampleVersions

/-- A POST, and a PATCH that is not locked. -/
def creating (i : Fin 2) : StreamsRequest := if i.val = 0 then sampleCreate else patchStatus "paused"

def versioned (updatedAt : String) : Json := .object [("updatedAt", .string updatedAt)]

def versionOf (s : StreamsSystem ι) : Option Date :=
  (findById s.table sampleStreamId false 9).map fun x => x.1.updatedAt

theorem sampleVersion (updatedAt : Date) (token : String)
    (h : IsoDate.toISOString updatedAt = token) (hread : isReadableDate updatedAt = true)
    (hlock : patchIssue sampleStreamsRuntime sampleStreamId.text (versioned token) = none) :
    ValidPatch sampleStreamsRuntime sampleStreamId updatedAt sampleStreamId.text
      (versioned token) where
  path := by decide +kernel
  accepted := hlock
  readable := congrArg (! ·) hread
  notNull := rfl
  token := h ▸ rfl

theorem version_of_patch_accepted :
    ∃ (s : StreamsSystem (Fin 2)) (stream : Stream) (accruedEstimate : ℚ),
      Reaches (step sampleStreamsRuntime creating) (start noStreams) s ∧
      findById s.table sampleStreamId false 9 = some (stream, accruedEstimate) ∧
      ∃ stream' accruedEstimate', (handle sampleStreamsRuntime s.table
        (.patch sampleStreamId.text (versioned "1970-01-01T00:00:00.005Z")) 9 sampleStreamId 0
        9).1 = .stream 200 stream' accruedEstimate' := by
  have hrun : (exec (step sampleStreamsRuntime creating) (start noStreams) [.send 0 1,
      .execute 0 sampleStreamId 1500, .send 1 5, .execute 1 sampleStreamId 5250]).map
        (fun s => (versionOf s, (s.progress 1).outcome.bind touched)) =
      some (some 5, some sampleStreamId) := by
    decide +kernel
  obtain ⟨s,hs,hseen⟩ := Option.map_eq_some_iff.mp hrun
  obtain ⟨hversion,htouched⟩ := Prod.mk.inj hseen
  obtain ⟨⟨stream,accruedEstimate⟩,hread,hupdatedAt⟩ := Option.map_eq_some_iff.mp hversion
  have hupdatedAt : stream.updatedAt = 5 := hupdatedAt
  have hpatch := sampleVersion stream.updatedAt "1970-01-01T00:00:00.005Z"
    (by rw [hupdatedAt]; decide) (by rw [hupdatedAt]; decide) (by decide +kernel)
  exact ⟨s, stream, accruedEstimate, reaches_of_exec _ hs, hread,
    (returned_version_accepted_iff sampleStreamId 0 (reaches_of_exec _ hs) hread hpatch).mpr
      (Or.inl ⟨1, htouched⟩)⟩

/-- A row created half a millisecond after the one that its answer shows. -/
theorem version_of_create_refused :
    ¬ ∀ (runtime : StreamsRuntime) (requests : Fin 2 → StreamsRequest) (s : StreamsSystem (Fin 2))
      (id : Uuid) (readAt clock clock' : Date) (stream : Stream) (accruedEstimate : ℚ)
      (text : String) (body : Json) (generated : Uuid) (now : Timestamp),
      Reaches (step runtime requests) (start noStreams) s →
      findById s.table id false readAt = some (stream, accruedEstimate) →
      ValidPatch runtime id stream.updatedAt text body →
      ∃ stream' accruedEstimate',
        (handle runtime s.table (.patch text body) clock generated now clock').1 =
          .stream 200 stream' accruedEstimate' := by
  intro h
  have hrun : (exec (step sampleStreamsRuntime creating) (start noStreams)
      [.send 0 1, .execute 0 sampleStreamId 1500]).map
        (fun s => (versionOf s, (handle sampleStreamsRuntime s.table
          (.patch sampleStreamId.text (versioned "1970-01-01T00:00:00.001Z")) 9 sampleStreamId 0
          9).1)) =
      some (some 1, .error 404 "Stream not found or update conflict") := by
    decide +kernel
  obtain ⟨s,hs,hseen⟩ := Option.map_eq_some_iff.mp hrun
  obtain ⟨hversion,hrefused⟩ := Prod.mk.inj hseen
  obtain ⟨⟨stream,accruedEstimate⟩,hread,hupdatedAt⟩ := Option.map_eq_some_iff.mp hversion
  have hupdatedAt : stream.updatedAt = 1 := hupdatedAt
  have hpatch := sampleVersion stream.updatedAt "1970-01-01T00:00:00.001Z"
    (by rw [hupdatedAt]; decide) (by rw [hupdatedAt]; decide) (by decide +kernel)
  obtain ⟨_,_,haccepted⟩ := h sampleStreamsRuntime creating s sampleStreamId 9 9 9 stream
    accruedEstimate _ _ sampleStreamId 0 (reaches_of_exec _ hs) hread hpatch
  rw [hrefused] at haccepted
  cases haccepted

end SampleVersions

end StreamsSystem

end StreamPay
