import StreamPay.Accrual
import StreamPay.Columns
import StreamPay.Library.Json

/-! `StreamRepository`: what its statements do to the table. A method that
throws gives `none`. -/
namespace StreamPay

/-- What is inserted; columns that are left out take their default. -/
structure NewStream where
  payer : String
  recipient : String
  ratePerSecond : String
  startTime : Date
  totalAmount : String
  id : Option Uuid := none
  status : Option StreamStatus := none
  endTime : Option Date := none
  lastSettledAt : Option Date := none
  labels : Option (Option (List String)) := none
  offChainMemo : Option String := none
  createdAt : Option Date := none
  updatedAt : Option Date := none
  deletedAt : Option Date := none
  chainId : Option String := none
  contractAddress : Option String := none
  transactionHash : Option String := none
  metadata : Option String := none

/-- What `updateById` writes; missing fields are left untouched. -/
structure UpdateStreamParams where
  labels : Option (List String) := none
  offChainMemo : Option (Option String) := none
  /-- As the caller has it: the type `stream_status` checks it. -/
  status : Option Json := none

def StreamStatus.name : StreamStatus → String
  | .active => "active"
  | .paused => "paused"
  | .cancelled => "cancelled"
  | .completed => "completed"

def StreamStatus.ofName (name : String) : Option StreamStatus :=
  [.active, .paused, .cancelled, .completed].find? fun status => status.name = name

/-- A value for a column of type `stream_status`: NULL, or one of its names;
`none` is a value that the type refuses. -/
def statusColumn : Json → Option (Option StreamStatus)
  | .null => some none
  | .string name => (StreamStatus.ofName name).map some
  | _ => none

/-- The digits before and after the point of `/^\d+(\.\d+)?$/`. -/
def decimalDigits (text : String) : Option (List Char × List Char) :=
  let whole := text.toList.takeWhile Char.isDigit
  if whole.isEmpty then none
  else match text.toList.dropWhile Char.isDigit with
    | [] => some (whole, [])
    | c :: fraction =>
      if c = '.' && !fraction.isEmpty && fraction.all Char.isDigit then some (whole, fraction)
      else none

/-- A decimal text in a column `decimal(20,9)`, in billionths: rounded to nine
places, half away from zero, and refused from twelve integer digits on. -/
def decimalColumn (text : String) : Option ℤ :=
  (decimalDigits text).bind fun (whole,fraction) =>
    let kept := (fraction ++ List.replicate 9 '0').take 9
    let units := Nat.ofDigitChars 10 (whole ++ kept) 0
    -- the tenth decimal place decides on the rounding
    let units := if (fraction[9]?).any (· ≥ '5') then units+1 else units
    if units < 10^20 then some units else none

namespace StreamsTable

def findRow (table : StreamsTable) (id : Uuid) : Option StreamRow :=
  table.rows.find? fun row => row.id = id

/-- `UPDATE`: rewrites the rows that the WHERE clause selects, under their ids. -/
def update (table : StreamsTable) (selects : StreamRow → Bool) (set : StreamRow → StreamRow)
    (hset : ∀ row, (set row).id = row.id) : StreamsTable where
  rows := table.rows.map fun row => if selects row then set row else row
  ids_nodup := by
    have hids : (table.rows.map fun row => if selects row then set row else row).map StreamOf.id =
        table.rows.map StreamOf.id := by
      rw [List.map_map]
      apply List.map_congr_left
      intro row _
      by_cases h : selects row = true <;> simp [h, hset]
    rw [hids]
    exact table.ids_nodup

/-- `INSERT`, refused when the id is taken. -/
def insert (table : StreamsTable) (row : StreamRow) : Option StreamsTable :=
  if h : row.id ∈ table.rows.map StreamOf.id then none
  else some {
    rows := table.rows ++ [row]
    ids_nodup := by
      rw [List.map_append]
      exact List.nodup_append.mpr ⟨table.ids_nodup, List.nodup_singleton _, fun a ha b hb hab =>
        h (List.mem_singleton.mp hb ▸ hab ▸ ha)⟩ }

end StreamsTable

namespace StreamRepository

/-- The row that an INSERT makes; `generated` and `now` are what the database
has for `gen_random_uuid()` and `now()`. -/
def insertedRow (data : NewStream) (ratePerSecond totalAmount : ℤ) (generated : Uuid)
    (now : Timestamp) : StreamRow where
  id := data.id.getD generated
  payer := data.payer
  recipient := data.recipient
  status := data.status.getD .active
  ratePerSecond := ratePerSecond
  startTime := Date.toTimestamp data.startTime
  endTime := data.endTime.map Date.toTimestamp
  totalAmount := totalAmount
  lastSettledAt := (data.lastSettledAt.map Date.toTimestamp).getD now
  labels := data.labels.getD (some [])
  offChainMemo := data.offChainMemo
  createdAt := (data.createdAt.map Date.toTimestamp).getD now
  updatedAt := (data.updatedAt.map Date.toTimestamp).getD now
  deletedAt := data.deletedAt.map Date.toTimestamp
  chainId := data.chainId.getD "stellar-testnet"
  contractAddress := data.contractAddress
  transactionHash := data.transactionHash
  metadata := data.metadata

def fitsColumns (row : StreamRow) : Bool :=
  isVarchar 255 row.payer && isVarchar 255 row.recipient && isVarchar 50 row.chainId &&
  row.contractAddress.all (isVarchar 255) && row.transactionHash.all (isVarchar 66) &&
  row.offChainMemo.all isColumnText && row.metadata.all isColumnText

/-- The dates that an INSERT sends along. -/
def sentDates (data : NewStream) : List Date :=
  data.startTime :: [data.endTime, data.lastSettledAt, data.createdAt, data.updatedAt,
    data.deletedAt].reduceOption

def create (table : StreamsTable) (data : NewStream) (generated : Uuid) (now : Timestamp) :
    Option (Stream × StreamsTable) :=
  (decimalColumn data.ratePerSecond).bind fun ratePerSecond =>
  (decimalColumn data.totalAmount).bind fun totalAmount =>
    let row := insertedRow data ratePerSecond totalAmount generated now
    if fitsColumns row && (sentDates data).all isReadableDate then
      (table.insert row).map fun table' => (row.fetch, table')
    else none

def findById (table : StreamsTable) (id : Uuid) (includeDeleted : Bool) (now : Date) :
    Option (Stream × ℚ) :=
  ((table.findRow id).filter fun row => includeDeleted || row.deletedAt.isNone).map fun row =>
    (row.fetch, calculateAccruedEstimate row.fetch now)

/-- The WHERE clause of `updateById` behind the id. -/
def isCurrent (currentUpdatedAt : Option Date) (row : StreamRow) : Bool :=
  row.deletedAt.isNone && currentUpdatedAt.all fun date => row.updatedAt = Date.toTimestamp date

/-- The status that an update sets, if it sets one. -/
def requestedStatus (updates : UpdateStreamParams) : Option StreamStatus :=
  updates.status.bind fun value => (statusColumn value).join

def patched (updates : UpdateStreamParams) (now : Date) (row : StreamRow) : StreamRow :=
  { row with
    labels := (updates.labels.map some).getD row.labels
    offChainMemo := updates.offChainMemo.getD row.offChainMemo
    status := (requestedStatus updates).getD row.status
    updatedAt := Date.toTimestamp now }

/-- The database refuses to read the update or its lock, whatever the rows are. -/
def isRefused (updates : UpdateStreamParams) (currentUpdatedAt : Option Date) : Bool :=
  updates.offChainMemo.any (fun memo => memo.any fun text => !isColumnText text) ||
  updates.status.any (fun value => (statusColumn value).isNone) ||
  currentUpdatedAt.any fun date => !isReadableDate date

def setsNull (updates : UpdateStreamParams) : Bool :=
  updates.status.any fun value => statusColumn value = some none

def updateById (table : StreamsTable) (id : Uuid) (updates : UpdateStreamParams)
    (currentUpdatedAt : Option Date) (now : Date) : Option (Option Stream × StreamsTable) :=
  if isRefused updates currentUpdatedAt then none
  else match (table.findRow id).filter (isCurrent currentUpdatedAt) with
    | none => some (none, table)
    | some row =>
      -- the column `status` is NOT NULL
      if setsNull updates then none
      else some (some (patched updates now row).fetch,
        table.update (fun row => row.id = id && isCurrent currentUpdatedAt row)
          (patched updates now) fun _ => rfl)

def softDeleteById (table : StreamsTable) (id : Uuid) (now : Date) : Bool × StreamsTable :=
  match (table.findRow id).filter fun row => row.deletedAt.isNone with
  | none => (false, table)
  -- unlike a restore, a deletion leaves updatedAt as it is
  | some _ => (true, table.update (fun row => row.id = id && row.deletedAt.isNone)
      (fun row => { row with deletedAt := some (Date.toTimestamp now) }) fun _ => rfl)

def restoreById (table : StreamsTable) (id : Uuid) (now : Date) : Bool × StreamsTable :=
  match (table.findRow id).filter fun row => row.deletedAt.isSome with
  | none => (false, table)
  | some _ => (true, table.update (fun row => row.id = id && row.deletedAt.isSome)
      (fun row => { row with deletedAt := none, updatedAt := Date.toTimestamp now }) fun _ => rfl)

end StreamRepository

namespace StreamsTable

theorem findRow_id {table : StreamsTable} {id : Uuid} {row : StreamRow}
    (h : table.findRow id = some row) : row.id = id := by
  simpa using List.find?_some h

theorem findRow_of_mem {table : StreamsTable} {row : StreamRow}
    (h : row ∈ table.rows) : table.findRow row.id = some row := by
  cases hfind : table.findRow row.id with
  | none =>
    have hno := List.find?_eq_none.mp hfind row h
    simp at hno
  | some other =>
    have hmem := List.mem_of_find?_eq_some hfind
    rw [List.inj_on_of_nodup_map table.ids_nodup hmem h (findRow_id hfind)]

theorem findRow_update (table : StreamsTable) (selects : StreamRow → Bool)
    (set : StreamRow → StreamRow) (hset : ∀ row, (set row).id = row.id) (id : Uuid) :
    (table.update selects set hset).findRow id =
      (table.findRow id).map fun row => if selects row then set row else row := by
  have hsame : ((fun row : StreamRow => decide (row.id = id)) ∘
      fun row => if selects row then set row else row) = fun row => decide (row.id = id) := by
    funext row
    by_cases h : selects row = true <;> simp [h, hset]
  rw [findRow, update, List.find?_map, hsame]
  rfl

theorem insert_eq_some {table table' : StreamsTable} {row : StreamRow}
    (h : table.insert row = some table') :
    table.findRow row.id = none ∧ table'.rows = table.rows ++ [row] := by
  unfold insert at h
  split_ifs at h with hid
  obtain rfl := Option.some.inj h
  refine ⟨?_, rfl⟩
  apply List.find?_eq_none.mpr
  intro r hr hsame
  exact hid (of_decide_eq_true hsame ▸ List.mem_map_of_mem hr)

theorem findRow_insert {table table' : StreamsTable} {row : StreamRow}
    (h : table.insert row = some table') (id : Uuid) :
    table'.findRow id = if id = row.id then some row else table.findRow id := by
  obtain ⟨hfree,hrows⟩ := insert_eq_some h
  rw [findRow, hrows, List.find?_append]
  split_ifs with hid
  · rw [hid]
    change (table.findRow row.id).or _ = _
    simp [hfree]
  · have hother : ¬ row.id = id := fun he => hid he.symm
    simp [hother, findRow]

end StreamsTable

namespace StreamRepository
variable {table table' : StreamsTable} {id : Uuid} {now : Date}

/-- An update that selects by id among others changes the row of that id only. -/
theorem findRow_update_id {row : StreamRow} (hrow : table.findRow id = some row)
    {selects : StreamRow → Bool} (hselects : selects row = true) (set : StreamRow → StreamRow)
    (hset : ∀ row, (set row).id = row.id) (id' : Uuid) :
    (table.update (fun row => row.id = id && selects row) set hset).findRow id' =
      if id' = id then some (set row) else table.findRow id' := by
  rw [StreamsTable.findRow_update]
  split_ifs with hid
  · have hself := StreamsTable.findRow_id hrow
    rw [hid, hrow, Option.map_some]
    simp [hself, hselects]
  · cases hother : table.findRow id' with
    | none => rfl
    | some other =>
      have hne : ¬ other.id = id := by
        rw [StreamsTable.findRow_id hother]
        exact hid
      simp [hne]

/-- What `updateById` returns when it changes a row, and the table after it. -/
theorem updateById_some {updates : UpdateStreamParams} {currentUpdatedAt : Option Date}
    {stream : Stream}
    (h : updateById table id updates currentUpdatedAt now = some (some stream, table')) :
    ∃ row, table.findRow id = some row ∧ isCurrent currentUpdatedAt row = true ∧
      isRefused updates currentUpdatedAt = false ∧ stream = (patched updates now row).fetch ∧
      ∀ id', table'.findRow id' =
        if id' = id then some (patched updates now row) else table.findRow id' := by
  cases hrefused : isRefused updates currentUpdatedAt with
  | true => simp [updateById, hrefused] at h
  | false =>
    cases htarget : (table.findRow id).filter (isCurrent currentUpdatedAt) with
    | none => simp [updateById, hrefused, htarget] at h
    | some row =>
      obtain ⟨hrow,hcurrent⟩ := Option.filter_eq_some_iff.mp htarget
      simp only [updateById, hrefused, htarget, Bool.false_eq_true, ↓reduceIte] at h
      split_ifs at h
      obtain ⟨hstream,rfl⟩ := Prod.mk.inj (Option.some.inj h)
      obtain rfl := Option.some.inj hstream
      exact ⟨row, hrow, hcurrent, rfl, rfl, findRow_update_id hrow hcurrent _ _⟩

theorem updateById_none {updates : UpdateStreamParams} {currentUpdatedAt : Option Date}
    (h : updateById table id updates currentUpdatedAt now = some (none, table')) :
    table' = table := by
  cases hrefused : isRefused updates currentUpdatedAt with
  | true => simp [updateById, hrefused] at h
  | false =>
    cases htarget : (table.findRow id).filter (isCurrent currentUpdatedAt) with
    | none =>
      simp only [updateById, hrefused, htarget, Bool.false_eq_true, ↓reduceIte] at h
      exact (Prod.mk.inj (Option.some.inj h)).2.symm
    | some row =>
      simp only [updateById, hrefused, htarget, Bool.false_eq_true, ↓reduceIte] at h
      split_ifs at h
      cases (Prod.mk.inj (Option.some.inj h)).1

/-- An update that the columns take changes the row that is current. -/
theorem updateById_of_current (now : Date) {updates : UpdateStreamParams}
    {currentUpdatedAt : Option Date} {row : StreamRow}
    (hrefused : isRefused updates currentUpdatedAt = false)
    (hnull : setsNull updates = false) (hrow : table.findRow id = some row)
    (hcurrent : isCurrent currentUpdatedAt row = true) :
    ∃ table', updateById table id updates currentUpdatedAt now =
      some (some (patched updates now row).fetch, table') := by
  have htarget : (table.findRow id).filter (isCurrent currentUpdatedAt) = some row :=
    Option.filter_eq_some_iff.mpr ⟨hrow, hcurrent⟩
  simp only [updateById, hrefused, htarget, hnull, Bool.false_eq_true, ↓reduceIte]
  exact ⟨_, rfl⟩

theorem softDeleteById_true {deleted : StreamsTable}
    (h : softDeleteById table id now = (true, deleted)) :
    ∃ row, table.findRow id = some row ∧ row.deletedAt = none ∧ ∀ id', deleted.findRow id' =
      if id' = id then some { row with deletedAt := some (Date.toTimestamp now) }
      else table.findRow id' := by
  unfold softDeleteById at h
  split at h
  · cases (Prod.mk.inj h).1
  · rename_i row htarget
    obtain ⟨hrow,hlive⟩ := Option.filter_eq_some_iff.mp htarget
    obtain rfl := (Prod.mk.inj h).2
    exact ⟨row, hrow, Option.isNone_iff_eq_none.mp hlive, findRow_update_id hrow hlive _ _⟩

theorem softDeleteById_false {deleted : StreamsTable}
    (h : softDeleteById table id now = (false, deleted)) : deleted = table := by
  unfold softDeleteById at h
  split at h
  · exact (Prod.mk.inj h).2.symm
  · cases (Prod.mk.inj h).1

theorem restoreById_true {restored : StreamsTable}
    (h : restoreById table id now = (true, restored)) :
    ∃ row, table.findRow id = some row ∧ row.deletedAt ≠ none ∧ ∀ id', restored.findRow id' =
      if id' = id then some { row with deletedAt := none, updatedAt := Date.toTimestamp now }
      else table.findRow id' := by
  unfold restoreById at h
  split at h
  · cases (Prod.mk.inj h).1
  · rename_i row htarget
    obtain ⟨hrow,hdeleted⟩ := Option.filter_eq_some_iff.mp htarget
    obtain rfl := (Prod.mk.inj h).2
    exact ⟨row, hrow, Option.isSome_iff_ne_none.mp hdeleted, findRow_update_id hrow hdeleted _ _⟩

theorem restoreById_false {restored : StreamsTable}
    (h : restoreById table id now = (false, restored)) : restored = table := by
  unfold restoreById at h
  split at h
  · exact (Prod.mk.inj h).2.symm
  · cases (Prod.mk.inj h).1

theorem create_eq_some {data : NewStream} {generated : Uuid} {time : Timestamp} {stream : Stream}
    (h : create table data generated time = some (stream, table')) :
    ∃ ratePerSecond totalAmount, decimalColumn data.ratePerSecond = some ratePerSecond ∧
      decimalColumn data.totalAmount = some totalAmount ∧
      table.findRow (data.id.getD generated) = none ∧
      stream = (insertedRow data ratePerSecond totalAmount generated time).fetch ∧
      ∀ id', table'.findRow id' = if id' = data.id.getD generated
        then some (insertedRow data ratePerSecond totalAmount generated time)
        else table.findRow id' := by
  obtain ⟨ratePerSecond,hrate,h⟩ := Option.bind_eq_some_iff.mp h
  obtain ⟨totalAmount,htotal,h⟩ := Option.bind_eq_some_iff.mp h
  dsimp only at h
  split_ifs at h
  obtain ⟨inserted,hinsert,heq⟩ := Option.map_eq_some_iff.mp h
  obtain ⟨rfl,rfl⟩ := Prod.mk.inj heq
  exact ⟨ratePerSecond, totalAmount, hrate, htotal, (StreamsTable.insert_eq_some hinsert).1, rfl,
    StreamsTable.findRow_insert hinsert⟩

end StreamRepository

end StreamPay
