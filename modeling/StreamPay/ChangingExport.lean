import StreamPay.StreamExport
import StreamPay.StreamRequests

/-! The CSV export of a table that other requests change between the batches. -/
namespace StreamPay
open Interleaving KeysetPaging

/-- The loop of `GET /export.csv` and the table that it reads. -/
structure ExportRun where
  table : StreamsTable
  cursor : Option ExportCursor
  written : List Stream
  ended : Bool
  /-- The tables that the batches were read from, the latest one last. -/
  reads : List StreamsTable

inductive ExportStep
  | readBatch
  | request (statement : StreamStatement) (generated : Uuid) (now : Timestamp)

/-- A row of the table is to be exported. -/
def ExportParams.Matches (filters : ExportParams) (id : Uuid) (table : StreamsTable) : Prop :=
  ∃ row, table.findRow id = some row ∧ filters.selects row = true

def StreamsTable.InMilliseconds (table : StreamsTable) : Prop :=
  ∀ row ∈ table.rows, 1000 ∣ row.createdAt

/-- A stream in the order of the export. -/
def Stream.exportKey (stream : Stream) : Date ×ₗ Uuid := toLex (stream.createdAt, stream.id)

/-- The key of the row that a stream was read from. -/
def Stream.rowKey (stream : Stream) : Timestamp ×ₗ Uuid :=
  toLex (Date.toTimestamp stream.createdAt, stream.id)

namespace ExportRun

def start (table : StreamsTable) : ExportRun := ⟨table, none, [], false, []⟩

def readBatch (filters : ExportParams) (run : ExportRun) : ExportRun :=
  let batch := StreamRepository.findForExport run.table { filters with
    cursorCreatedAt := run.cursor.map ExportCursor.createdAt
    cursorId := run.cursor.map ExportCursor.id }
  let run := { run with written := run.written ++ batch.rows, reads := run.reads ++ [run.table] }
  match batch.nextCursor with
  | none => { run with ended := true }
  | some next => { run with cursor := some next }

def step (filters : ExportParams) (run : ExportRun) : ExportStep → Option ExportRun
  | .readBatch => if run.ended then none else some (run.readBatch filters)
  | .request statement generated now =>
    some { run with table := (execute run.table generated now statement).2 }

end ExportRun

theorem Stream.exportKey_lt_of_rowKey_lt {a b : Stream} (h : a.rowKey < b.rowKey) :
    a.exportKey < b.exportKey := by
  have hmono : StrictMono Date.toTimestamp := fun _ _ hlt => mul_lt_mul_of_pos_left hlt (by decide)
  refine Prod.Lex.toLex_lt_toLex.mpr ((Prod.Lex.toLex_lt_toLex.mp h).imp ?_ ?_)
  · exact hmono.lt_iff_lt.mp
  · exact And.imp_left (hmono.injective ·)

/-- A creation time in whole milliseconds reaches the program as it is. -/
theorem rowKey_fetch {row : StreamRow} (h : 1000 ∣ row.createdAt) :
    row.fetch.rowKey = exportKey row :=
  (cursorKey_eq_iff row).mpr h

/-- No statement takes a row away or moves it in the order of the export. -/
theorem Effect.exportKey {table table' : StreamsTable} {generated : Uuid} {now : Timestamp}
    {statement : StreamStatement} {result : StatementResult}
    (h : Effect table generated now statement result table') {id : Uuid} {row : StreamRow}
    (hrow : table.findRow id = some row) :
    ∃ row', table'.findRow id = some row' ∧ StreamPay.exportKey row' = StreamPay.exportKey row := by
  obtain ⟨row',hrow',hchange⟩ := h.row hrow
  refine ⟨row', hrow', ?_⟩
  cases hchange with
  | kept _ => rfl
  | patched text updates currentUpdatedAt clock _ _ _ => rfl
  | deleted text clock _ => rfl
  | restored text clock _ _ => rfl

/-- A table in whole milliseconds makes exact cursors. -/
theorem nextCursor_of_inMilliseconds {rows : List StreamRow} (b : ℕ)
    (h : ∀ row ∈ rows, 1000 ∣ row.createdAt) :
    nextCursor cursorKey b rows = nextCursor exportKey b rows := by
  rw [nextCursor, nextCursor]
  split_ifs
  · cases hlast : (rows.take b).getLast? with
    | none => rfl
    | some row =>
      have hmem := List.mem_of_mem_take (List.mem_of_getLast? hlast)
      exact congrArg some ((cursorKey_eq_iff row).mpr (h row hmem))
  · rfl

namespace ExportRun

/-- The rows that the next batch is taken from. -/
def rest (filters : ExportParams) (run : ExportRun) : List StreamRow :=
  after exportKey (exportListing run.table filters) (run.cursor.map ExportCursor.key)

/-- What holds of the loop after each of its reads, whatever the other requests do. -/
structure Exports (filters : ExportParams) (run : ExportRun) : Prop where
  fresh : run.reads = [] → run.cursor = none ∧ run.ended = false
  sorted : run.written.Pairwise fun a b => a.rowKey < b.rowKey
  present : ∀ stream ∈ run.written, ∃ row, run.table.findRow stream.id = some row ∧
    exportKey row = stream.rowKey
  before : run.ended = false → ∀ stream ∈ run.written, ∃ c, run.cursor = some c ∧
    stream.rowKey ≤ c.key
  covered : ∀ id, run.reads ≠ [] → (∀ table ∈ run.reads, filters.Matches id table) →
    ∃ row, run.table.findRow id = some row ∧ (id ∈ run.written.map StreamOf.id ∨
      run.ended = false ∧ ∃ c, run.cursor = some c ∧ c.key < exportKey row)

variable {filters : ExportParams} {run : ExportRun}

theorem exports_start (table : StreamsTable) : (start table).Exports filters where
  fresh _ := ⟨rfl, rfl⟩
  sorted := List.Pairwise.nil
  present := by simp [start]
  before := by simp [start]
  covered := by simp [start]

theorem Exports.request (h : run.Exports filters) (statement : StreamStatement)
    (generated : Uuid) (now : Timestamp) :
    Exports filters { run with table := (execute run.table generated now statement).2 } := by
  have hkept {id : Uuid} {row : StreamRow} (hrow : run.table.findRow id = some row) :=
    (execute_effect run.table generated now statement).exportKey hrow
  exact {
    fresh := h.fresh
    sorted := h.sorted
    present := fun stream hstream => by
      obtain ⟨row,hrow,hkey⟩ := h.present stream hstream
      obtain ⟨row',hrow',hkey'⟩ := hkept hrow
      exact ⟨row', hrow', hkey'.trans hkey⟩
    before := h.before
    covered := fun id hreads hmatches => by
      obtain ⟨row,hrow,hcovered⟩ := h.covered id hreads hmatches
      obtain ⟨row',hrow',hkey'⟩ := hkept hrow
      exact ⟨row', hrow', hkey' ▸ hcovered⟩ }

theorem mem_rest {row : StreamRow} : row ∈ run.rest filters ↔
    row ∈ run.table.rows ∧ filters.selects row = true ∧
      ∀ c, run.cursor = some c → c.key < exportKey row := by
  simp only [rest, after, exportListing, List.mem_filter, (byCreation_perm _).mem_iff, and_assoc]
  cases run.cursor <;> simp

theorem rest_pairwise (run : ExportRun) : (run.rest filters).Pairwise (exportKey · < exportKey ·) :=
  after_pairwise (exportListing_strict run.table filters) _

def page (filters : ExportParams) (run : ExportRun) : List StreamRow :=
  (run.rest filters).take (filters.batchSize.getD 500)

theorem mem_of_page {row : StreamRow} (h : row ∈ run.page filters) : row ∈ run.table.rows :=
  (mem_rest.mp (List.mem_of_mem_take h)).1

/-- A read writes the first rows of the rest; it ends the loop if these are all,
and else leaves the cursor at the last of them. -/
theorem readBatch_cases (hwhole : run.table.InMilliseconds) :
    (nextCursor exportKey (filters.batchSize.getD 500) (run.rest filters) = none ∧
      run.readBatch filters = { run with
        written := run.written ++ (run.page filters).map StreamRow.fetch
        reads := run.reads ++ [run.table]
        ended := true }) ∨
    ∃ c : ExportCursor,
      nextCursor exportKey (filters.batchSize.getD 500) (run.rest filters) = some c.key ∧
      run.readBatch filters = { run with
        written := run.written ++ (run.page filters).map StreamRow.fetch
        reads := run.reads ++ [run.table]
        cursor := some c } := by
  have hexact := nextCursor_of_inMilliseconds (filters.batchSize.getD 500)
    fun row (hrow : row ∈ run.rest filters) => hwhole row (mem_rest.mp hrow).1
  have hrest : after exportKey (exportListing run.table filters)
      (run.cursor.map ExportCursor.key) = run.rest filters := rfl
  rw [← hexact, nextCursor]
  simp only [readBatch, findForExport_eq run.table filters rfl run.cursor hrest, page]
  split_ifs
  · cases hlast : ((run.rest filters).take (filters.batchSize.getD 500)).getLast? with
    | none => exact Or.inl ⟨rfl, rfl⟩
    | some row => exact Or.inr ⟨⟨Timestamp.toDate row.createdAt, row.id⟩, rfl, rfl⟩
  · exact Or.inl ⟨rfl, rfl⟩

theorem fetch_page (hwhole : run.table.InMilliseconds) {stream : Stream}
    (h : stream ∈ (run.page filters).map StreamRow.fetch) :
    ∃ row ∈ run.page filters, stream.id = row.id ∧ stream.rowKey = exportKey row := by
  obtain ⟨row,hrow,rfl⟩ := List.mem_map.mp h
  exact ⟨row, hrow, rfl, rowKey_fetch (hwhole row (mem_of_page hrow))⟩

/-- What was written before comes before the rows of the page. -/
theorem Exports.lt_page (h : run.Exports filters) (hended : run.ended = false) {stream : Stream}
    (hstream : stream ∈ run.written) {row : StreamRow} (hrow : row ∈ run.page filters) :
    stream.rowKey < exportKey row := by
  obtain ⟨c,hc,hle⟩ := h.before hended stream hstream
  exact hle.trans_lt ((mem_rest.mp (List.mem_of_mem_take hrow)).2.2 c hc)

/-- What is written after the page has been added. -/
theorem Exports.sorted_append (h : run.Exports filters) (hwhole : run.table.InMilliseconds)
    (hended : run.ended = false) :
    (run.written ++ (run.page filters).map StreamRow.fetch).Pairwise fun a b =>
      a.rowKey < b.rowKey := by
  refine List.pairwise_append.mpr ⟨h.sorted, ?_, fun a ha b hb => ?_⟩
  · refine List.pairwise_map.mpr ?_
    have hpage : (run.page filters).Pairwise (exportKey · < exportKey ·) :=
      run.rest_pairwise.sublist (List.take_sublist _ _)
    refine hpage.imp_of_mem fun ha hb hlt => ?_
    rwa [rowKey_fetch (hwhole _ (mem_of_page ha)), rowKey_fetch (hwhole _ (mem_of_page hb))]
  · obtain ⟨row,hrow,_,hkey⟩ := fetch_page hwhole hb
    rw [hkey]
    exact h.lt_page hended ha hrow

theorem Exports.present_append (h : run.Exports filters) (hwhole : run.table.InMilliseconds)
    {stream : Stream} (hstream : stream ∈ run.written ++ (run.page filters).map StreamRow.fetch) :
    ∃ row, run.table.findRow stream.id = some row ∧ exportKey row = stream.rowKey := by
  rcases List.mem_append.mp hstream with hold | hnew
  · exact h.present stream hold
  · obtain ⟨row,hrow,hid,hkey⟩ := fetch_page hwhole hnew
    refine ⟨row, ?_, hkey.symm⟩
    rw [hid]
    exact StreamsTable.findRow_of_mem (mem_of_page hrow)

/-- A row that matches at every read so far, this one included, is written by now
or is left for the reads after this one. -/
theorem Exports.covered_append (h : run.Exports filters) (hb : 1 ≤ filters.batchSize.getD 500)
    {id : Uuid} (hmatches : ∀ table ∈ run.reads ++ [run.table], filters.Matches id table) :
    ∃ row, run.table.findRow id = some row ∧
      (id ∈ (run.written ++ (run.page filters).map StreamRow.fetch).map StreamOf.id ∨
        ∃ c, nextCursor exportKey (filters.batchSize.getD 500) (run.rest filters) = some c ∧
          c < exportKey row) := by
  obtain ⟨row,hrow,hselects⟩ := hmatches run.table (by simp)
  have hid := StreamsTable.findRow_id hrow
  refine ⟨row, hrow, ?_⟩
  have hbefore : id ∈ run.written.map StreamOf.id ∨ row ∈ run.rest filters := by
    have hmem := List.mem_of_find?_eq_some hrow
    -- at the first read there is no cursor yet, so all that matches is left
    by_cases hreads : run.reads = []
    · refine Or.inr (mem_rest.mpr ⟨hmem, hselects, fun c hc => ?_⟩)
      rw [(h.fresh hreads).1] at hc
      cases hc
    · obtain ⟨row',hrow',hcovered⟩ :=
        h.covered id hreads fun table htable => hmatches table (by simp [htable])
      obtain rfl := Option.some.inj (hrow.symm.trans hrow')
      refine hcovered.imp_right fun ⟨_,c,hc,hlt⟩ => mem_rest.mpr ⟨hmem, hselects, fun c' hc' => ?_⟩
      obtain rfl := Option.some.inj (hc.symm.trans hc')
      exact hlt
  rw [List.map_append, List.mem_append, or_assoc]
  refine hbefore.imp_right fun hrest => ?_
  refine (mem_page_or_behind run.rest_pairwise hb hrest).imp_left fun hpage => ?_
  rw [List.map_map]
  exact List.mem_map.mpr ⟨row, hpage, hid⟩

theorem Exports.readBatch (h : run.Exports filters) (hb : 1 ≤ filters.batchSize.getD 500)
    (hwhole : run.table.InMilliseconds) (hended : run.ended = false) :
    (run.readBatch filters).Exports filters := by
  rcases @readBatch_cases filters run hwhole with ⟨hlast,hrun⟩ | ⟨c,hnext,hrun⟩
  · -- the last page leaves nothing behind it
    rw [hrun]
    exact {
      fresh := by simp
      sorted := h.sorted_append hwhole hended
      present := fun stream hstream => h.present_append hwhole hstream
      before := by simp
      covered := fun id _ hmatches => by
        obtain ⟨row,hrow,hcovered⟩ := h.covered_append hb hmatches
        refine ⟨row, hrow, Or.inl (hcovered.resolve_right ?_)⟩
        rintro ⟨c,hc,_⟩
        rw [hlast] at hc
        cases hc }
  · rw [hrun]
    exact {
      fresh := by simp
      sorted := h.sorted_append hwhole hended
      present := fun stream hstream => h.present_append hwhole hstream
      before := fun _ stream hstream => by
        refine ⟨c, rfl, ?_⟩
        rcases List.mem_append.mp hstream with hold | hnew
        · -- the stream comes before the row at the cursor
          obtain ⟨row,hrow,hkey⟩ := exists_nextCursor hnext
          exact hkey ▸ (h.lt_page hended hold hrow).le
        · obtain ⟨row,hrow,_,hkey⟩ := fetch_page hwhole hnew
          rw [hkey]
          exact le_nextCursor run.rest_pairwise hnext hrow
      covered := fun id _ hmatches => by
        obtain ⟨row,hrow,hcovered⟩ := h.covered_append hb hmatches
        refine ⟨row, hrow, hcovered.imp_right ?_⟩
        rintro ⟨key,hkey,hlt⟩
        obtain rfl := Option.some.inj (hnext.symm.trans hkey)
        exact ⟨hended, c, rfl, hlt⟩ }

/-- Every run that reads whole milliseconds only exports as it should. -/
theorem exports_step {t : ExportRun} {e : ExportStep} (hb : 1 ≤ filters.batchSize.getD 500)
    (h : step filters run e = some t)
    (hexports : (∀ table ∈ run.reads, table.InMilliseconds) → run.Exports filters)
    (hwhole : ∀ table ∈ t.reads, table.InMilliseconds) : t.Exports filters := by
  cases e with
  | readBatch =>
    simp only [step] at h
    split_ifs at h with hended
    obtain rfl := Option.some.inj h
    have hreads : (run.readBatch filters).reads = run.reads ++ [run.table] := by
      simp only [readBatch]
      split <;> rfl
    rw [hreads] at hwhole
    have hbefore := hexports fun table htable => hwhole table (List.mem_append_left _ htable)
    exact hbefore.readBatch hb (hwhole run.table (by simp)) (Bool.eq_false_iff.mpr hended)
  | request statement generated now =>
    obtain rfl := Option.some.inj h
    exact (hexports hwhole).request statement generated now

/-- While other requests insert, patch, delete and restore streams between the
batches, no stream is written twice, what is written grows in `(createdAt, id)`,
and once the loop has ended, each row that was to be exported at every read of a
batch has been written. -/
theorem export_of_changing_table (filters : ExportParams)
    (hb : 1 ≤ filters.batchSize.getD 500) (table : StreamsTable) (steps : List ExportStep)
    (run : ExportRun) (hrun : exec (step filters) (start table) steps = some run)
    (hwhole : ∀ table ∈ run.reads, table.InMilliseconds) :
    (run.written.map StreamOf.id).Nodup ∧
    run.written.Pairwise (fun a b => a.exportKey < b.exportKey) ∧
    (run.ended = true → ∀ id, (∀ table ∈ run.reads, filters.Matches id table) →
      id ∈ run.written.map StreamOf.id) := by
  have hinv : (∀ table ∈ run.reads, table.InMilliseconds) → run.Exports filters :=
    (reaches_of_exec steps hrun).invariant
      (fun run => (∀ table ∈ run.reads, table.InMilliseconds) → run.Exports filters)
      (fun _ _ _ hexports _ hstep => exports_step hb hstep hexports)
      fun _ => exports_start table
  have hexports := hinv hwhole
  refine ⟨?_, hexports.sorted.imp Stream.exportKey_lt_of_rowKey_lt, fun hended id hmatches => ?_⟩
  · -- two with one id would have been read from one row, and have one key
    refine List.pairwise_map.mpr (hexports.sorted.imp_of_mem fun {a b} ha hb hlt hid => ?_)
    obtain ⟨row,hrow,hkey⟩ := hexports.present a ha
    obtain ⟨row',hrow',hkey'⟩ := hexports.present b hb
    obtain rfl := Option.some.inj (hrow.symm.trans ((congrArg _ hid).trans hrow'))
    exact hlt.ne (hkey.symm.trans hkey')
  · have hreads : run.reads ≠ [] := fun hnil => by
      rw [(hexports.fresh hnil).2] at hended
      cases hended
    obtain ⟨row,_,hcovered⟩ := hexports.covered id hreads hmatches
    refine hcovered.resolve_right ?_
    rintro ⟨hfalse,_⟩
    rw [hended] at hfalse
    cases hfalse

/-- The first stream is written and deleted, the second one is patched, and then read. -/
def sampleExportSteps : List ExportStep :=
  [.readBatch, .request (.softDeleteById "00000000-0000-4000-8000-000000000001" 5)
    ⟨"00000000-0000-4000-8000-000000000005", by decide⟩ 5000,
    .request (.updateById "00000000-0000-4000-8000-000000000002" { labels := some ["kept"] } none 6)
      ⟨"00000000-0000-4000-8000-000000000006", by decide⟩ 6000, .readBatch]

theorem export_of_changing_table_sample : ∃ run,
    exec (step { batchSize := some 1 }) (start (twoStreams 1000 2000)) sampleExportSteps =
      some run ∧
    (run.written.map StreamOf.id).Nodup ∧
    run.written.Pairwise (fun a b => a.exportKey < b.exportKey) ∧
    (run.ended = true → ∀ id, (∀ table ∈ run.reads,
        ExportParams.Matches { batchSize := some 1 } id table) →
      id ∈ run.written.map StreamOf.id) := by
  have hread : (exec (step { batchSize := some 1 }) (start (twoStreams 1000 2000))
      sampleExportSteps).map (fun run => run.reads.all fun table =>
        table.rows.all fun row => 1000 ∣ row.createdAt) = some true := by
    decide +kernel
  obtain ⟨run,hrun,hall⟩ := Option.map_eq_some_iff.mp hread
  refine ⟨run, hrun, export_of_changing_table _ (by decide) _ _ run hrun ?_⟩
  simpa [StreamsTable.InMilliseconds] using hall

end ExportRun

end StreamPay
