import StreamPay.StreamExport
import StreamPay.StreamsApi

/-! The reading requests of `/api/v1/streams`, each with the query that it sends. -/
namespace StreamPay

structure FindAllParams where
  payer : Option String := none
  recipient : Option String := none
  status : Option StreamStatus := none
  limit : Option ℚ := none
  offset : Option ℚ := none
  includeDeleted : Option Bool := none

def FindAllParams.selects (params : FindAllParams) (row : StreamRow) : Bool :=
  textFilter params.payer row.payer && textFilter params.recipient row.recipient &&
  params.status.all (row.status = ·) && (params.includeDeleted = some true || row.deletedAt.isNone)

structure StreamsPage where
  streams : List Stream
  total : ℕ
  limit : ℚ
  offset : ℚ

/-- LIMIT and OFFSET take whole numbers that fit a bigint. -/
def rowCount (q : ℚ) : Option ℕ :=
  if q.den = 1 && 0 ≤ q.num && q.num < 2^63 then some q.num.toNat else none

namespace StreamRepository

/-- `ORDER BY created_at DESC`; rows of one time may come in any order, and are
left in that of the table. -/
def newestFirst (rows : List StreamRow) : List StreamRow :=
  rows.insertionSort fun a b => b.createdAt ≤ a.createdAt

/-- `none` where the database refuses the query. -/
def findAll (table : StreamsTable) (params : FindAllParams) : Option StreamsPage :=
  let limit := min (params.limit.getD 20) 100
  let offset := params.offset.getD 0
  let selected := table.rows.filter params.selects
  if !(params.payer.all isColumnText && params.recipient.all isColumnText) then none
  else (rowCount limit).bind fun most => (rowCount offset).map fun skipped =>
    { streams := (((newestFirst selected).drop skipped).take most).map StreamRow.fetch
      total := selected.length
      limit
      offset }

end StreamRepository

/-- What `getStreamsQuerySchema` keeps of a query. -/
structure GetStreamsQuery where
  payer : Option String := none
  recipient : Option String := none
  status : Option StreamStatus := none
  limit : Option ℚ := none
  offset : Option ℚ := none

def GetStreamsQuery.toParams (query : GetStreamsQuery) : FindAllParams where
  payer := query.payer
  recipient := query.recipient
  status := query.status
  limit := query.limit
  offset := query.offset

inductive StreamsQuery
  | get (id : String) (includeDeleted : Option String)
  | accrualPreview (id : String)
  | list (query : GetStreamsQuery)
  /-- One read of the loop of `GET /export.csv`. -/
  | exportBatch (params : ExportParams)

inductive StreamsQueryAnswer
  | error (status : ℕ) (error : String)
  | stream (stream : Stream) (accruedEstimate : ℚ)
  | preview (preview : AccrualResult)
  | page (page : StreamsPage)
  | batch (batch : ExportBatch)

def answerQuery (runtime : StreamsRuntime) (table : StreamsTable) (now : Date) :
    StreamsQuery → StreamsQueryAnswer
  | .get id includeDeleted =>
    match parseUuid id with
    | none => .error 400 "Invalid stream ID format"
    | some id =>
      match StreamRepository.findById table id (includeDeleted = some "true") now with
      | none => .error 404 "Stream not found"
      | some (stream,accruedEstimate) => .stream stream accruedEstimate
  | .accrualPreview id =>
    if (runtime.uuidIssue id).isSome then .error 400 "Invalid stream ID format"
    else match parseUuid id with
      -- the database cannot read the id
      | none => .error 500 "Internal server error"
      | some id =>
        match StreamRepository.findById table id false now with
        | none => .error 404 "Stream not found"
        | some (stream,_) => .preview (AccrualService.calculateAccrual stream now)
  | .list query =>
    match StreamRepository.findAll table query.toParams with
    | none => .error 500 "Internal server error"
    | some page => .page page
  | .exportBatch params => .batch (StreamRepository.findForExport table params)

/-- The streams that an answer tells about. -/
def StreamsQueryAnswer.ids : StreamsQueryAnswer → List Uuid
  | .error _ _ => []
  | .stream shown _ => [shown.id]
  | .preview accrual => [accrual.streamId]
  | .page found => found.streams.map StreamOf.id
  | .batch read => read.rows.map StreamOf.id

def StreamsQuery.includesDeleted : StreamsQuery → Bool
  | .get _ includeDeleted => includeDeleted = some "true"
  | _ => false

namespace StreamRepository
variable {table : StreamsTable}

theorem mem_findAll {params : FindAllParams} {page : StreamsPage}
    (hpage : findAll table params = some page) {stream : Stream} (h : stream ∈ page.streams) :
    ∃ row ∈ table.rows, params.selects row = true ∧ stream = row.fetch := by
  simp only [findAll] at hpage
  split_ifs at hpage
  obtain ⟨most,_,hskipped⟩ := Option.bind_eq_some_iff.mp hpage
  obtain ⟨skipped,_,rfl⟩ := Option.map_eq_some_iff.mp hskipped
  obtain ⟨row,hrow,rfl⟩ := List.mem_map.mp h
  have hsorted := List.mem_of_mem_drop (List.mem_of_mem_take hrow)
  obtain ⟨hmem,hselects⟩ := List.mem_filter.mp ((List.mem_insertionSort _).mp hsorted)
  exact ⟨row, hmem, hselects, rfl⟩

theorem mem_findForExport {params : ExportParams} {stream : Stream}
    (h : stream ∈ (findForExport table params).rows) :
    ∃ row ∈ table.rows, params.selects row = true ∧ stream = row.fetch := by
  have hdata : stream ∈ ((byCreation (table.rows.filter fun row =>
      params.selects row && params.afterCursor row)).take
        (params.batchSize.getD 500+1)).map StreamRow.fetch := by
    simp only [findForExport] at h
    split_ifs at h
    · exact List.mem_of_mem_take h
    · exact h
  obtain ⟨row,hrow,rfl⟩ := List.mem_map.mp hdata
  obtain ⟨hmem,hselected⟩ := List.mem_filter.mp
    ((byCreation_perm _).mem_iff.mp (List.mem_of_mem_take hrow))
  rw [Bool.and_eq_true] at hselected
  exact ⟨row, hmem, hselected.1, rfl⟩

theorem findById_eq_some {id : Uuid} {includeDeleted : Bool} {now : Date} {stream : Stream}
    {accruedEstimate : ℚ}
    (h : findById table id includeDeleted now = some (stream, accruedEstimate)) :
    ∃ row, table.findRow row.id = some row ∧ (includeDeleted = true ∨ row.deletedAt = none) ∧
      stream = row.fetch := by
  obtain ⟨row,hrow,heq⟩ := Option.map_eq_some_iff.mp h
  obtain ⟨hfind,hshown⟩ := Option.filter_eq_some_iff.mp hrow
  rw [Bool.or_eq_true, Option.isNone_iff_eq_none] at hshown
  have hid : row.id = id := StreamsTable.findRow_id hfind
  exact ⟨row, hid ▸ hfind, hshown, (Prod.mk.inj heq).1.symm⟩

/-- A stream that is found without asking for deleted ones is not deleted. -/
theorem live_of_findById {uuid : Uuid} {includeDeleted : Bool} {now : Date} {stream : Stream}
    {accruedEstimate : ℚ} (hexcluded : includeDeleted = false)
    (hfound : findById table uuid includeDeleted now = some (stream, accruedEstimate)) {id : Uuid}
    (h : id ∈ [stream.id]) : ∃ row, table.findRow id = some row ∧ row.deletedAt = none := by
  obtain ⟨row,hrow,hshown,rfl⟩ := findById_eq_some hfound
  obtain rfl := List.mem_singleton.mp h
  have hnot : includeDeleted ≠ true := by
    rw [hexcluded]
    exact Bool.false_ne_true
  exact ⟨row, hrow, hshown.resolve_left hnot⟩

end StreamRepository

/-- A query that does not ask for deleted streams tells about none. -/
theorem shown_of_answerQuery {runtime : StreamsRuntime} {table : StreamsTable} {now : Date}
    {query : StreamsQuery} (hquery : query.includesDeleted = false) {id : Uuid}
    (h : id ∈ (answerQuery runtime table now query).ids) :
    ∃ row, table.findRow id = some row ∧ row.deletedAt = none := by
  cases query with
  | get text includeDeleted =>
    simp only [answerQuery] at h
    split at h
    · cases h
    · split at h
      · cases h
      · rename_i uuid _ stream accruedEstimate hfound
        exact StreamRepository.live_of_findById hquery hfound h
  | accrualPreview text =>
    -- the preview never asks for deleted streams
    simp only [answerQuery] at h
    split_ifs at h
    · cases h
    · split at h
      · cases h
      · split at h
        · cases h
        · rename_i uuid _ stream accruedEstimate hfound
          exact StreamRepository.live_of_findById rfl hfound h
  | list query =>
    simp only [answerQuery] at h
    split at h
    · cases h
    · rename_i page hpage
      obtain ⟨stream,hstream,rfl⟩ := List.mem_map.mp h
      obtain ⟨row,hrow,hselects,rfl⟩ := StreamRepository.mem_findAll hpage hstream
      refine ⟨row, StreamsTable.findRow_of_mem hrow, ?_⟩
      simpa [FindAllParams.selects, GetStreamsQuery.toParams] using
        (Bool.and_eq_true_iff.mp hselects).2
  | exportBatch params =>
    obtain ⟨stream,hstream,rfl⟩ := List.mem_map.mp h
    obtain ⟨row,hrow,hselects,rfl⟩ := StreamRepository.mem_findForExport hstream
    refine ⟨row, StreamsTable.findRow_of_mem hrow, ?_⟩
    exact Option.isNone_iff_eq_none.mp (Bool.and_eq_true_iff.mp hselects).2

end StreamPay
