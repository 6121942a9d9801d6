import Mathlib.Data.Prod.Lex
import StreamPay.Streams
import StreamPay.Library.KeysetPaging

/-! The CSV export: `StreamRepository.findForExport` and the loop that reads the
table through it, batch by batch. -/
namespace StreamPay
open KeysetPaging

structure ExportParams where
  payer : Option String := none
  recipient : Option String := none
  status : Option StreamStatus := none
  /-- Exclusive cursor: resume after this (createdAt, id) pair. -/
  cursorCreatedAt : Option Date := none
  cursorId : Option Uuid := none
  batchSize : Option ℕ := none

structure ExportCursor where
  createdAt : Date
  id : Uuid
  deriving DecidableEq

structure ExportBatch where
  rows : List Stream
  nextCursor : Option ExportCursor

/-- An absent or empty filter text selects every row. -/
def textFilter (filter : Option String) (text : String) : Bool :=
  match filter with
  | none => true
  | some wanted => wanted = "" || text = wanted

def ExportParams.selects (params : ExportParams) (row : StreamRow) : Bool :=
  textFilter params.payer row.payer && textFilter params.recipient row.recipient &&
  params.status.all (row.status = ·) && row.deletedAt.isNone

/-- The keyset condition, once both parts of the cursor are set. -/
def ExportParams.afterCursor (params : ExportParams) (row : StreamRow) : Bool :=
  match params.cursorCreatedAt, params.cursorId with
  | some createdAt, some id => row.createdAt > Date.toTimestamp createdAt ||
      (row.createdAt = Date.toTimestamp createdAt && row.id > id)
  | _, _ => true

def exportKey (row : StreamRow) : Timestamp ×ₗ Uuid := toLex (row.createdAt, row.id)

namespace StreamRepository

/-- `ORDER BY created_at, id`. -/
def byCreation (rows : List StreamRow) : List StreamRow :=
  rows.insertionSort fun a b => exportKey a ≤ exportKey b

def findForExport (table : StreamsTable) (params : ExportParams) : ExportBatch :=
  let batchSize := params.batchSize.getD 500
  let selected := table.rows.filter fun row => params.selects row && params.afterCursor row
  -- one row more than the batch shows whether there is another one
  let data := ((byCreation selected).take (batchSize+1)).map StreamRow.fetch
  let hasMore : Bool := data.length > batchSize
  let rows := if hasMore then data.take batchSize else data
  { rows
    nextCursor := if hasMore && rows.length > 0
      then rows.getLast?.map fun row => ⟨row.createdAt, row.id⟩
      else none }

end StreamRepository

/-- The loop of `GET /export.csv` from a cursor on: the rows it writes, or `none`
if it has not ended after `fuel` batches. -/
def exportLoop (table : StreamsTable) (filters : ExportParams) :
    ℕ → Option ExportCursor → Option (List Stream)
  | 0, _ => none
  | fuel+1, cursor =>
    let batch := StreamRepository.findForExport table { filters with
      cursorCreatedAt := cursor.map ExportCursor.createdAt
      cursorId := cursor.map ExportCursor.id }
    match batch.nextCursor with
    | none => some batch.rows
    | some next => (exportLoop table filters fuel (some next)).map (batch.rows ++ ·)

def exportListing (table : StreamsTable) (filters : ExportParams) : List StreamRow :=
  StreamRepository.byCreation (table.rows.filter filters.selects)

/-- The key that the cursor made from a row stands for. -/
def cursorKey (row : StreamRow) : Timestamp ×ₗ Uuid :=
  toLex (Date.toTimestamp (Timestamp.toDate row.createdAt), row.id)

def ExportCursor.key (cursor : ExportCursor) : Timestamp ×ₗ Uuid :=
  toLex (Date.toTimestamp cursor.createdAt, cursor.id)

theorem cursorKey_le (row : StreamRow) : cursorKey row ≤ exportKey row := by
  rcases lt_or_eq_of_le (Date.toTimestamp_toDate_le row.createdAt) with hlt | heq
  · exact Prod.Lex.toLex_le_toLex.mpr (Or.inl hlt)
  · exact Prod.Lex.toLex_le_toLex.mpr (Or.inr ⟨heq, le_rfl⟩)

theorem cursorKey_eq_iff (row : StreamRow) :
    cursorKey row = exportKey row ↔ 1000 ∣ row.createdAt := by
  rw [cursorKey, exportKey, toLex_inj, Prod.mk.injEq, Date.toTimestamp_toDate_eq_iff]
  exact and_iff_left rfl

theorem byCreation_perm (rows : List StreamRow) : (StreamRepository.byCreation rows).Perm rows :=
  List.perm_insertionSort _ _

theorem byCreation_pairwise (rows : List StreamRow) :
    (StreamRepository.byCreation rows).Pairwise (exportKey · ≤ exportKey ·) := by
  have : Std.Total fun a b : StreamRow => exportKey a ≤ exportKey b := ⟨fun _ _ => le_total _ _⟩
  have : IsTrans StreamRow fun a b => exportKey a ≤ exportKey b := ⟨fun _ _ _ => le_trans⟩
  exact List.pairwise_insertionSort _ rows

/-- Rows of a table with distinct ids are listed with strictly growing keys. -/
theorem byCreation_strict {rows : List StreamRow} (h : (rows.map StreamOf.id).Nodup) :
    (StreamRepository.byCreation rows).Pairwise (exportKey · < exportKey ·) := by
  have hids : ((StreamRepository.byCreation rows).map StreamOf.id).Nodup :=
    ((byCreation_perm rows).map _).nodup_iff.mpr h
  refine (byCreation_pairwise rows).imp₂ (fun a b hle hne => lt_of_le_of_ne hle ?_)
    (List.pairwise_map.mp hids)
  intro hkey
  exact hne (congrArg (fun k => (ofLex k).2) hkey)

theorem byCreation_filter {rows : List StreamRow} (h : (rows.map StreamOf.id).Nodup)
    (test : StreamRow → Bool) :
    StreamRepository.byCreation (rows.filter test) =
      (StreamRepository.byCreation rows).filter test := by
  have hinj {a b : StreamRow} (ha : a ∈ rows) (hb : b ∈ rows)
      (hab : exportKey a ≤ exportKey b) (hba : exportKey b ≤ exportKey a) : a = b :=
    List.inj_on_of_nodup_map h ha hb (congrArg (fun k => (ofLex k).2) (le_antisymm hab hba))
  have hperm : (StreamRepository.byCreation (rows.filter test)).Perm
      ((StreamRepository.byCreation rows).filter test) :=
    (byCreation_perm _).trans ((byCreation_perm rows).symm.filter test)
  -- both sides are sorted lists of the same rows, and a key belongs to one row only
  refine hperm.eq_of_pairwise (fun a b ha hb => hinj ?_ ?_) (byCreation_pairwise _)
    ((byCreation_pairwise rows).filter test)
  · exact (List.mem_filter.mp ((byCreation_perm _).mem_iff.mp ha)).1
  · exact (byCreation_perm _).mem_iff.mp (List.mem_filter.mp hb).1

theorem exportListing_strict (table : StreamsTable) (filters : ExportParams) :
    (exportListing table filters).Pairwise (exportKey · < exportKey ·) :=
  byCreation_strict (table.ids_nodup.sublist (List.filter_sublist.map _))

/-- The query with a cursor finds the rows of the listing behind its key. -/
theorem selected_eq_after (table : StreamsTable) (filters : ExportParams)
    (cursor : Option ExportCursor) :
    StreamRepository.byCreation (table.rows.filter fun row => filters.selects row &&
        ExportParams.afterCursor { filters with
          cursorCreatedAt := cursor.map ExportCursor.createdAt
          cursorId := cursor.map ExportCursor.id } row) =
      after exportKey (exportListing table filters) (cursor.map ExportCursor.key) := by
  have hids : ((table.rows.filter filters.selects).map StreamOf.id).Nodup :=
    table.ids_nodup.sublist (List.filter_sublist.map _)
  rw [exportListing, after, ← byCreation_filter hids, List.filter_filter]
  congr 1
  refine List.filter_congr fun row _ => ?_
  rw [Bool.and_comm]
  congr 1
  cases cursor with
  | none => rfl
  | some c =>
    rw [Bool.eq_iff_iff]
    simp [ExportParams.afterCursor, ExportCursor.key, exportKey, Prod.Lex.toLex_lt_toLex,
      @eq_comm _ row.createdAt]

/-- One batch: a page of the listing and the cursor made from its last row. -/
theorem findForExport_eq (table : StreamsTable) (filters : ExportParams) {b : ℕ}
    (hb : filters.batchSize.getD 500 = b) (cursor : Option ExportCursor) {rest : List StreamRow}
    (hrest : after exportKey (exportListing table filters) (cursor.map ExportCursor.key) = rest) :
    StreamRepository.findForExport table { filters with
        cursorCreatedAt := cursor.map ExportCursor.createdAt
        cursorId := cursor.map ExportCursor.id } =
      ⟨(rest.take b).map StreamRow.fetch, if b < rest.length
        then (rest.take b).getLast?.map fun row => ⟨Timestamp.toDate row.createdAt, row.id⟩
        else none⟩ := by
  have hselected := (selected_eq_after table filters cursor).trans hrest
  have hlen : ((rest.take (b+1)).map StreamRow.fetch).length > b ↔ b < rest.length := by
    rw [List.length_map, List.length_take]
    omega
  unfold StreamRepository.findForExport
  simp only [ExportParams.selects] at hselected ⊢
  simp only [hselected, hb]
  by_cases hmore : b < rest.length
  · have htake : ((rest.take (b+1)).map StreamRow.fetch).take b =
        (rest.take b).map StreamRow.fetch := by
      rw [← List.map_take, List.take_take, min_eq_left (Nat.le_succ b)]
    simp only [hlen.mpr hmore, hmore, decide_true, ↓reduceIte, htake, Bool.true_and]
    congr 1
    cases b with
    | zero => simp
    | succ b =>
      have hpos : 0 < ((rest.take (b+1)).map StreamRow.fetch).length := by
        rw [List.length_map, List.length_take]
        omega
      rw [if_pos (by simpa using hpos), List.getLast?_map, Option.map_map]
      rfl
  · have htake : rest.take (b+1) = rest.take b := by
      rw [List.take_of_length_le (by omega), List.take_of_length_le (by omega)]
    simp [htake, hmore]

/-- The loop reads the pages of the listing, with cursors cut to milliseconds. -/
theorem exportLoop_eq_readPages (table : StreamsTable) (filters : ExportParams) {b : ℕ}
    (hb : filters.batchSize.getD 500 = b) (fuel : ℕ) (cursor : Option ExportCursor) :
    exportLoop table filters fuel cursor =
      (readPages exportKey cursorKey (exportListing table filters) b fuel
        (cursor.map ExportCursor.key)).map (List.map StreamRow.fetch) := by
  induction fuel generalizing cursor with
  | zero => rfl
  | succ fuel ih =>
    have hbatch := findForExport_eq table filters hb cursor rfl
    simp only [exportLoop, readPages, hbatch, nextCursor]
    split_ifs with hmore
    · cases hlast : ((after exportKey (exportListing table filters)
          (cursor.map ExportCursor.key)).take b).getLast? with
      | none => rfl
      | some row =>
        simp only [Option.map_some]
        rw [ih, Option.map_map, Option.map_map]
        congr 1
        funext rows
        simp
    · rfl

/-- Rows of one table are told apart by what the program sees of them. -/
theorem eq_of_fetch_eq (table : StreamsTable) {rows rows' : List StreamRow}
    (hsub : rows ⊆ table.rows) (hsub' : rows' ⊆ table.rows)
    (h : rows.map StreamRow.fetch = rows'.map StreamRow.fetch) : rows = rows' := by
  induction rows generalizing rows' with
  | nil => exact (List.map_eq_nil_iff.mp h.symm).symm
  | cons row rows ih =>
    obtain ⟨row',rest,rfl,hrow,hrest⟩ := List.map_eq_cons_iff.mp h.symm
    rw [List.cons_subset] at hsub hsub'
    have hid : row.fetch.id = row'.fetch.id := congrArg StreamOf.id hrow.symm
    rw [List.inj_on_of_nodup_map table.ids_nodup hsub.1 hsub'.1 hid,
      ih hsub.2 hsub'.2 hrest.symm]

theorem exportListing_subset (table : StreamsTable) (filters : ExportParams) :
    exportListing table filters ⊆ table.rows := fun _ hrow =>
  (List.mem_filter.mp ((byCreation_perm _).mem_iff.mp hrow)).1

/-- The loop ends after writing each row of the listing once, in order. -/
def ExportsListing (table : StreamsTable) (filters : ExportParams) : Prop :=
  ∃ fuel, exportLoop table filters fuel none =
    some ((exportListing table filters).map StreamRow.fetch)

theorem exportsListing_iff_readPages (table : StreamsTable) (filters : ExportParams) {b : ℕ}
    (hb : filters.batchSize.getD 500 = b) :
    ExportsListing table filters ↔
      ∃ fuel, readPages exportKey cursorKey (exportListing table filters) b fuel none =
        some (exportListing table filters) := by
  have hloop := exportLoop_eq_readPages table filters hb
  constructor
  · rintro ⟨fuel,h⟩
    rw [hloop] at h
    obtain ⟨out,hout,heq⟩ := Option.map_eq_some_iff.mp h
    -- fetched rows determine the rows read, since both are rows of the table
    have hsub := exportListing_subset table filters
    have hout' := eq_of_fetch_eq table (fun _ hrow => hsub (readPages_subset hout hrow)) hsub heq
    exact ⟨fuel, hout.trans (congrArg some hout')⟩
  · rintro ⟨fuel,h⟩
    exact ⟨fuel, by rw [hloop, Option.map_none, h, Option.map_some]⟩

/-- The export ends and writes each matching row that is not deleted once and
in order exactly when every row at the end of a full batch, with more rows to
come, was created at a whole millisecond. -/
theorem export_writes_once_iff (table : StreamsTable) (filters : ExportParams)
    (hb : 1 ≤ filters.batchSize.getD 500) :
    ExportsListing table filters ↔
      ∀ row, LastOfPage (filters.batchSize.getD 500) (exportListing table filters) row →
        1000 ∣ row.createdAt := by
  rw [exportsListing_iff_readPages table filters rfl,
    readPages_eq_iff (exportListing_strict table filters) hb cursorKey_le]
  simp only [cursorKey_eq_iff]

def newStream (id : Uuid) (createdAt : Timestamp) : StreamRow where
  id := id
  payer := "payer"
  recipient := "recipient"
  status := .active
  ratePerSecond := 1
  startTime := createdAt
  endTime := none
  totalAmount := 1
  lastSettledAt := createdAt
  labels := some []
  offChainMemo := none
  createdAt := createdAt
  updatedAt := createdAt
  deletedAt := none
  chainId := "stellar-testnet"
  contractAddress := none
  transactionHash := none
  metadata := none

def twoStreams (first second : Timestamp) : StreamsTable where
  rows := [newStream ⟨"00000000-0000-4000-8000-000000000001", by decide⟩ first,
    newStream ⟨"00000000-0000-4000-8000-000000000002", by decide⟩ second]
  ids_nodup := by simp [newStream]

theorem export_writes_once_whole_milliseconds :
    ExportsListing (twoStreams 1000 2000) { batchSize := some 1 } := by
  refine (export_writes_once_iff (twoStreams 1000 2000) { batchSize := some 1 } (by decide)).mpr
    fun row hrow => ?_
  obtain ⟨k,_,hget⟩ := hrow
  have hmem := exportListing_subset _ _ (List.mem_of_getElem? hget)
  rcases List.mem_pair.mp hmem with rfl | rfl <;> decide

/-- Two rows within one millisecond: the first batch of one is read for ever. -/
theorem sub_millisecond_rows_not_exported :
    ¬ ∀ (table : StreamsTable) (filters : ExportParams), 1 ≤ filters.batchSize.getD 500 →
      ExportsListing table filters := by
  intro h
  have hpages := (exportsListing_iff_readPages (twoStreams 1500 1700) { batchSize := some 1 }
    rfl).mp (h _ _ (by decide))
  rw [readPages_eq_iff (exportListing_strict _ _) (by decide) cursorKey_le] at hpages
  have hexact := hpages _ ⟨0, by decide, rfl⟩
  rw [cursorKey_eq_iff] at hexact
  exact absurd hexact (by decide)

end StreamPay
