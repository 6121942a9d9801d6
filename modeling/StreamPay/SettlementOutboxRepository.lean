import Mathlib.Algebra.Ring.Int.Defs
import Mathlib.Data.List.Sort
import StreamPay.Columns
import StreamPay.SettlementOutbox

/-! The PostgreSQL settlement outbox, one definition per SQL statement. -/
namespace StreamPay

/-- The table: `id` is the primary key, `event_key` has a unique index. -/
structure SettlementOutboxTable (P : Type*) where
  rows : List (SettlementOutbox P)
  ids_nodup : (rows.map SettlementOutbox.id).Nodup
  keys_nodup : (rows.map SettlementOutbox.eventKey).Nodup

/-- What drizzle-orm and node-postgres make of the values and errors of a query. -/
structure OutboxDriver (P : Type*) where
  /-- `new Date(String(..))` of a timestamp in a raw result. -/
  readDate : ℤ → ℤ
  /-- The JSON text of the payload is one that a column `jsonb` takes. -/
  isJsonb : P → Bool
  /-- The error that a query throws has the `code` of PostgreSQL. -/
  showsCode : Bool

inductive OutboxError
  | database
  | message (text : String)
  deriving DecidableEq, Repr

namespace SettlementOutboxTable
variable {P : Type*}

def empty : SettlementOutboxTable P := ⟨[], List.nodup_nil, List.nodup_nil⟩

theorem nodup_append_singleton {κ : Type*} {xs : List κ} {x : κ} (h : xs.Nodup) (hx : x ∉ xs) :
    (xs ++ [x]).Nodup :=
  List.nodup_append.mpr ⟨h, List.nodup_singleton x, by
    intro a ha b hb
    rw [List.mem_singleton.mp hb]
    exact ne_of_mem_of_not_mem ha hx⟩

/-- `INSERT`, refused with 23505 when either key is taken. -/
def insert (table : SettlementOutboxTable P) (row : SettlementOutbox P) :
    Option (SettlementOutboxTable P) :=
  if h : row.id ∉ table.rows.map SettlementOutbox.id ∧
      row.eventKey ∉ table.rows.map SettlementOutbox.eventKey then
    some ⟨table.rows ++ [row],
      by rw [List.map_append]; exact nodup_append_singleton table.ids_nodup h.1,
      by rw [List.map_append]; exact nodup_append_singleton table.keys_nodup h.2⟩
  else none

theorem insert_eq_some {table table' : SettlementOutboxTable P} {row : SettlementOutbox P}
    (h : table.insert row = some table') : row.id ∉ table.rows.map SettlementOutbox.id ∧
      row.eventKey ∉ table.rows.map SettlementOutbox.eventKey ∧
      table'.rows = table.rows ++ [row] := by
  unfold insert at h
  split_ifs at h with hfree
  obtain rfl := Option.some.inj h
  exact ⟨hfree.1, hfree.2, rfl⟩

def update (table : SettlementOutboxTable P) (f : RowUpdate P) : SettlementOutboxTable P where
  rows := table.rows.map f.apply
  ids_nodup := by
    rw [List.map_map, show SettlementOutbox.id ∘ f.apply = SettlementOutbox.id from
      funext f.id_eq]
    exact table.ids_nodup
  keys_nodup := by
    rw [List.map_map, show SettlementOutbox.eventKey ∘ f.apply = SettlementOutbox.eventKey from
      funext f.eventKey_eq]
    exact table.keys_nodup

theorem rowOf_update (table : SettlementOutboxTable P) (f : RowUpdate P)
    (eventKey : String) :
    rowOf (table.update f).rows eventKey = (rowOf table.rows eventKey).map f.apply := by
  simp only [rowOf, update, List.find?_map, Function.comp_def, f.eventKey_eq]

/-- The unique index makes every row the row of its event key. -/
theorem rowOf_of_mem (table : SettlementOutboxTable P)
    {row : SettlementOutbox P} (h : row ∈ table.rows) :
    rowOf table.rows row.eventKey = some row := by
  cases hrow : rowOf table.rows row.eventKey with
  | none => exact absurd (List.find?_eq_none.mp hrow row h) (by simp)
  | some other =>
    have hmem := List.mem_of_find?_eq_some hrow
    rw [List.inj_on_of_nodup_map table.keys_nodup hmem h (rowOf_eventKey hrow)]

theorem update_onlyIf_of_false (table : SettlementOutboxTable P)
    {test : SettlementOutbox P → Bool} (f : RowUpdate P) (h : ∀ row ∈ table.rows, test row = false) :
    table.update (f.onlyIf test) = table := by
  cases table with
  | mk rows ids keys =>
    have hrows : rows.map (f.onlyIf test).apply = rows := by
      conv_rhs => rw [← List.map_id rows]
      exact List.map_congr_left fun row hrow => if_neg (by simp [h row hrow])
    simp only [update, hrows]

end SettlementOutboxTable

namespace SettlementOutboxRepository
variable {P : Type*}

def insertedRow (input : NewSettlementOutbox P) (id : Uuid) (now : ℤ) : SettlementOutbox P where
  id := (input.id.getD id).text
  eventKey := input.eventKey
  eventType := input.eventType
  aggregateId := input.aggregateId
  payload := input.payload
  status := input.status.getD .pending
  attempts := input.attempts.getD 0
  maxAttempts := input.maxAttempts.getD 8
  availableAt := input.availableAt.getD now
  leaseUntil := input.leaseUntil
  leaseToken := input.leaseToken
  lastError := input.lastError
  processedAt := input.processedAt
  createdAt := input.createdAt.getD now
  updatedAt := input.updatedAt.getD now

/-- The dates that an INSERT sends along. -/
def sentDates (input : NewSettlementOutbox P) : List ℤ :=
  [input.availableAt, input.leaseUntil, input.processedAt, input.createdAt,
    input.updatedAt].reduceOption

def meetsChecks (row : SettlementOutbox P) : Bool :=
  isInteger row.attempts && 0 ≤ row.attempts && isInteger row.maxAttempts && 0 < row.maxAttempts

/-- What an INSERT stores, unless the database refuses a value. -/
def storedRow (driver : OutboxDriver P) (input : NewSettlementOutbox P) (id : Uuid) (now : ℤ) :
    Option (SettlementOutbox P) :=
  let row := insertedRow input id now
  if (sentDates input).all isReadableDate && meetsChecks row && driver.isJsonb row.payload then
    (varchar 255 row.eventKey).bind fun eventKey =>
    (varchar 100 row.eventType).bind fun eventType =>
    (varchar 255 row.aggregateId).bind fun aggregateId =>
    (row.leaseToken.mapM (varchar 100)).bind fun leaseToken =>
    (row.lastError.mapM textColumn).map fun lastError =>
      { row with eventKey, eventType, aggregateId, leaseToken, lastError }
  else none

/-- `generated` is the random id the column default would draw. -/
def enqueue (driver : OutboxDriver P) (table : SettlementOutboxTable P)
    (input : NewSettlementOutbox P) (generated : Uuid) (now : ℤ) :
    Except OutboxError (SettlementOutbox P) × SettlementOutboxTable P :=
  match storedRow driver input generated now with
  | none => (.error .database, table)
  | some row =>
    match table.insert row with
    | some table' => (.ok row, table')
    | none =>
      -- an error without the code 23505 is thrown on
      if !driver.showsCode then (.error .database, table)
      else match rowOf table.rows input.eventKey with
        | some existing => (.ok existing, table)
        | none => (.error (.message "Outbox event key already exists but cannot be read"), table)

/-- The row read back from the raw result; empty texts become null. `readDate`
is what `new Date(String(..))` makes of a timestamp of the driver. -/
def asOutboxRow (readDate : ℤ → ℤ) (row : SettlementOutbox P) : SettlementOutbox P :=
  { row with
    availableAt := readDate row.availableAt
    leaseUntil := row.leaseUntil.map readDate
    leaseToken := row.leaseToken.filter (· ≠ "")
    lastError := row.lastError.filter (· ≠ [])
    processedAt := row.processedAt.map readDate
    createdAt := readDate row.createdAt
    updatedAt := readDate row.updatedAt }

/-- `ORDER BY created_at, id`. -/
def createdBefore (a b : SettlementOutbox P) : Bool :=
  a.createdAt < b.createdAt || (a.createdAt = b.createdAt && a.id ≤ b.id)

def candidates (table : SettlementOutboxTable P) (limit now : ℤ) : List String :=
  (((table.rows.filter fun row => row.isDue now).insertionSort fun a b => createdBefore a b).take
    (max 1 (min limit 500)).toNat).map SettlementOutbox.id

def lease (leaseMs now : ℤ) (token : String) : RowUpdate P where
  apply row := { row with
    status := .processing
    leaseUntil := some (now+max 1000 leaseMs)
    leaseToken := some token
    updatedAt := now }
  id_eq _ := rfl
  eventKey_eq _ := rfl

/-- `token` is the random lease token of the call. -/
def claimDue (readDate : ℤ → ℤ) (table : SettlementOutboxTable P) (limit leaseMs now : ℤ)
    (token : String) : List (OutboxClaim P) × SettlementOutboxTable P :=
  let ids := candidates table limit now
  let update := (lease leaseMs now token).onlyIf fun row => row.id ∈ ids
  let returned := (table.rows.filter fun row => row.id ∈ ids).map update.apply
  (returned.map fun row => ⟨asOutboxRow readDate row, token⟩, table.update update)

/-- `UPDATE .. WHERE id = .. AND lease_token = ..`, and whether it hit one row. -/
def mark (table : SettlementOutboxTable P) (id leaseToken : String) (f : RowUpdate P) :
    Bool × SettlementOutboxTable P :=
  let test := fun row : SettlementOutbox P => row.id = id && row.leaseToken = some leaseToken
  (table.rows.countP test = 1, table.update (f.onlyIf test))

def succeeding (processedAt : ℤ) : RowUpdate P where
  apply row := row.succeed processedAt
  id_eq _ := rfl
  eventKey_eq _ := rfl

def failing (lastError : Utf16) (retryAt : ℤ) (dead : Bool) (now : ℤ) : RowUpdate P where
  apply row := { row.failWith lastError retryAt dead now with lastError := some lastError }
  id_eq _ := rfl
  eventKey_eq _ := rfl

/-- The statement with values that the database can read, or its refusal. -/
def markIf (readable : Bool) (table : SettlementOutboxTable P) (id leaseToken : String)
    (f : RowUpdate P) : Except OutboxError Bool × SettlementOutboxTable P :=
  if readable && isColumnText leaseToken then
    let (marked,table') := mark table id leaseToken f
    (.ok marked, table')
  else (.error .database, table)

/-- `id` is one that the table has given out. -/
def markSucceeded (table : SettlementOutboxTable P) (id leaseToken : String) (processedAt : ℤ) :
    Except OutboxError Bool × SettlementOutboxTable P :=
  markIf (isReadableDate processedAt) table id leaseToken (succeeding processedAt)

def markFailed (table : SettlementOutboxTable P) (id leaseToken : String) (error : Utf16)
    (retryAt : ℤ) (dead : Bool) (now : ℤ) : Except OutboxError Bool × SettlementOutboxTable P :=
  match textColumn (error.take 4000) with
  | none => (.error .database, table)
  | some lastError =>
    markIf (isReadableDate retryAt && isReadableDate now) table id leaseToken
      (failing lastError retryAt dead now)

theorem markIf_ok {readable : Bool} {table table' : SettlementOutboxTable P} {id token : String}
    {f : RowUpdate P} {marked : Bool} (h : markIf readable table id token f = (.ok marked, table')) :
    mark table id token f = (marked, table') := by
  unfold markIf at h
  split_ifs at h
  · obtain ⟨hmarked,htable⟩ := Prod.mk.inj h
    exact Prod.ext (Except.ok.inj hmarked) htable
  · cases (Prod.mk.inj h).1

theorem markFailed_ok {table table' : SettlementOutboxTable P} {id token : String} {error : Utf16}
    {retryAt now : ℤ} {dead marked : Bool}
    (h : markFailed table id token error retryAt dead now = (.ok marked, table')) :
    ∃ lastError, mark table id token (failing lastError retryAt dead now) = (marked, table') := by
  unfold markFailed at h
  split at h
  · cases (Prod.mk.inj h).1
  · exact ⟨_, markIf_ok h⟩

/-- A refused error leaves the table as a refused date does. -/
theorem markFailed_eq (table : SettlementOutboxTable P) (id token : String) (error : Utf16)
    (retryAt : ℤ) (dead : Bool) (now : ℤ) : (markFailed table id token error retryAt dead now).2 =
      (markIf ((textColumn (error.take 4000)).isSome && isReadableDate retryAt &&
        isReadableDate now) table id token
        (failing ((textColumn (error.take 4000)).getD []) retryAt dead now)).2 := by
  rw [markFailed]
  cases textColumn (error.take 4000) with
  | none => rfl
  | some lastError => rfl

/-- An update under a lease of the table changes the row of that lease alone. -/
theorem rowOf_mark (table : SettlementOutboxTable P)
    {row : SettlementOutbox P} {eventKey : String} (hrow : rowOf table.rows eventKey = some row)
    (token : String) (f : RowUpdate P) (key : String) :
    rowOf (mark table row.id token f).2.rows key =
      if key = eventKey ∧ row.leaseToken = some token then some (f.apply row)
      else rowOf table.rows key := by
  rw [mark, SettlementOutboxTable.rowOf_update]
  have hmem := List.mem_of_find?_eq_some hrow
  by_cases hk : key = eventKey
  · subst hk
    rw [hrow, Option.map_some]
    by_cases ht : row.leaseToken = some token <;> simp [RowUpdate.onlyIf, ht]
  · rw [if_neg (fun h => hk h.1)]
    cases hother : rowOf table.rows key with
    | none => rfl
    | some other =>
      -- rows of one id are one row, which has one event key
      have hid : other.id ≠ row.id := fun hid => by
        have he := List.inj_on_of_nodup_map table.ids_nodup (List.mem_of_find?_eq_some hother)
          hmem hid
        exact hk ((rowOf_eventKey hother).symm.trans (he ▸ rowOf_eventKey hrow))
      simp [RowUpdate.onlyIf, hid]

/-- The event keys of the table are such as their column keeps. -/
def KeysFit (table : SettlementOutboxTable P) : Prop :=
  ∀ row ∈ table.rows, isVarchar 255 row.eventKey = true

theorem keysFit_markIf {table : SettlementOutboxTable P} (h : KeysFit table) (readable : Bool)
    (id token : String) (f : RowUpdate P) : KeysFit (markIf readable table id token f).2 := by
  unfold markIf
  split_ifs
  · intro row hrow
    obtain ⟨before,hbefore,rfl⟩ := List.mem_map.mp hrow
    rw [(RowUpdate.onlyIf _ f).eventKey_eq]
    exact h before hbefore
  · exact h

section Enqueue
variable {driver : OutboxDriver P} {input : NewSettlementOutbox P} {id : Uuid} {now : ℤ}
  {row : SettlementOutbox P}

/-- What is stored differs from what is inserted in texts alone, and in those but little. -/
structure StoredAs (inserted row : SettlementOutbox P) : Prop where
  eq : row = { inserted with
    eventKey := row.eventKey
    eventType := row.eventType
    aggregateId := row.aggregateId
    leaseToken := row.leaseToken
    lastError := row.lastError }
  eventKey : varchar 255 inserted.eventKey = some row.eventKey
  leaseToken : inserted.leaseToken.mapM (varchar 100) = some row.leaseToken
  lastError : inserted.lastError.mapM textColumn = some row.lastError

theorem storedAs_of_storedRow (h : storedRow driver input id now = some row) :
    StoredAs (insertedRow input id now) row := by
  simp only [storedRow] at h
  split_ifs at h
  obtain ⟨eventKey,hkey,h⟩ := Option.bind_eq_some_iff.mp h
  obtain ⟨eventType,_,h⟩ := Option.bind_eq_some_iff.mp h
  obtain ⟨aggregateId,_,h⟩ := Option.bind_eq_some_iff.mp h
  obtain ⟨leaseToken,htoken,h⟩ := Option.bind_eq_some_iff.mp h
  obtain ⟨lastError,herror,rfl⟩ := Option.map_eq_some_iff.mp h
  exact ⟨rfl, hkey, htoken, herror⟩

theorem StoredAs.id_eq (h : StoredAs (insertedRow input id now) row) :
    row.id = (input.id.getD id).text := by
  rw [h.eq]
  rfl

/-- An INSERT adds the row that is stored, or changes nothing. -/
theorem enqueue_cases (driver : OutboxDriver P) (table : SettlementOutboxTable P)
    (input : NewSettlementOutbox P) (id : Uuid) (now : ℤ) :
    (enqueue driver table input id now).2 = table ∨ ∃ row table',
      storedRow driver input id now = some row ∧ table.insert row = some table' ∧
        (enqueue driver table input id now).2 = table' := by
  unfold enqueue
  cases hstored : storedRow driver input id now with
  | none => exact Or.inl rfl
  | some row =>
    cases hinsert : table.insert row with
    | some table' => exact Or.inr ⟨row, table', rfl, hinsert, by simp only [hinsert]⟩
    | none =>
      refine Or.inl ?_
      simp only [hinsert]
      split_ifs
      · rfl
      · split <;> rfl

theorem enqueue_of_known {table : SettlementOutboxTable P} (hfit : KeysFit table)
    (h : rowOf table.rows input.eventKey ≠ none) (id : Uuid) (now : ℤ) :
    (enqueue driver table input id now).2 = table := by
  obtain ⟨known,hknown⟩ := Option.ne_none_iff_exists'.mp h
  have hmem := List.mem_of_find?_eq_some hknown
  rcases enqueue_cases driver table input id now with hsame | ⟨row,table',hstored,hinsert,_⟩
  · exact hsame
  · -- the key is stored as it is, so it is taken
    have hkey := (storedAs_of_storedRow hstored).eventKey
    have hsame := varchar_of_isVarchar (hfit known hmem)
    rw [rowOf_eventKey hknown] at hsame
    obtain ⟨_,hfree,_⟩ := SettlementOutboxTable.insert_eq_some hinsert
    refine absurd (List.mem_map.mpr ⟨known, hmem, rowOf_eventKey hknown⟩) ?_
    rwa [Option.some.inj (hsame.symm.trans hkey)]

theorem enqueue_of_stored {table : SettlementOutboxTable P}
    (hstored : storedRow driver input id now = some row)
    (hkey : row.eventKey ∉ table.rows.map SettlementOutbox.eventKey)
    (hid : (input.id.getD id).text ∉ table.rows.map SettlementOutbox.id) :
    (enqueue driver table input id now).2.rows = table.rows ++ [row] := by
  rw [← (storedAs_of_storedRow hstored).id_eq] at hid
  have hinsert : table.insert row = some ⟨table.rows ++ [row], _, _⟩ := dif_pos ⟨hid, hkey⟩
  simp only [enqueue, hstored, hinsert]

theorem mem_enqueue {table : SettlementOutboxTable P} {other : SettlementOutbox P}
    (h : other ∈ (enqueue driver table input id now).2.rows) :
    other ∈ table.rows ∨ storedRow driver input id now = some other ∧
      (input.id.getD id).text ∉ table.rows.map SettlementOutbox.id := by
  rcases enqueue_cases driver table input id now with hsame | ⟨row,table',hstored,hinsert,hafter⟩
  · exact Or.inl (hsame ▸ h)
  · obtain ⟨hfree,_,hrows⟩ := SettlementOutboxTable.insert_eq_some hinsert
    rw [hafter, hrows] at h
    rcases List.mem_append.mp h with hold | hnew
    · exact Or.inl hold
    · rw [List.mem_singleton.mp hnew]
      exact Or.inr ⟨hstored, (storedAs_of_storedRow hstored).id_eq ▸ hfree⟩

theorem keysFit_enqueue {table : SettlementOutboxTable P} (h : KeysFit table)
    (driver : OutboxDriver P) (input : NewSettlementOutbox P) (generated : Uuid) (now : ℤ) :
    KeysFit (enqueue driver table input generated now).2 := by
  intro row hrow
  rcases mem_enqueue hrow with hold | ⟨hstored,_⟩
  · exact h row hold
  · exact isVarchar_of_varchar (storedAs_of_storedRow hstored).eventKey

end Enqueue

section Claim
variable (readDate : ℤ → ℤ) (limit leaseMs now : ℤ) (token : String)

theorem claimDue_of_not_due {table : SettlementOutboxTable P}
    (h : ∀ row ∈ table.rows, row.isDue now = false) :
    claimDue readDate table limit leaseMs now token = ([], table) := by
  have hfilter : (table.rows.filter fun row => row.isDue now) = [] :=
    List.filter_eq_nil_iff.mpr fun row hrow => by simp [h row hrow]
  have hids : candidates table limit now = [] := by simp [candidates, hfilter]
  have hnone : ∀ row ∈ table.rows, decide (row.id ∈ candidates table limit now) = false :=
    fun row _ => by simp [hids]
  unfold claimDue
  simp only [table.update_onlyIf_of_false (lease leaseMs now token) hnone]
  simp [hids]

/-- With a due row there is one that is claimed, and its attempts come back unchanged. -/
theorem exists_claimed {table : SettlementOutboxTable P}
    {row : SettlementOutbox P} (hrow : row ∈ table.rows) (hdue : row.isDue now = true) :
    ∃ c ∈ table.rows, ∃ claim ∈ (claimDue readDate table limit leaseMs now token).1,
      claim.row.eventKey = c.eventKey ∧ claim.row.attempts = c.attempts := by
  have hdueRow : row ∈ table.rows.filter fun row => row.isDue now :=
    List.mem_filter.mpr ⟨hrow, hdue⟩
  have hlen : 0 < (candidates table limit now).length := by
    have hpos := List.length_pos_of_mem hdueRow
    simp only [candidates, List.length_map, List.length_take, List.length_insertionSort]
    omega
  obtain ⟨id,hid⟩ := List.exists_mem_of_length_pos hlen
  obtain ⟨c,hc,hcid⟩ := List.mem_map.mp hid
  have hmem := (List.mem_filter.mp ((List.mem_insertionSort _).mp (List.mem_of_mem_take hc))).1
  have hsel : c ∈ table.rows.filter fun row => row.id ∈ candidates table limit now :=
    List.mem_filter.mpr ⟨hmem, by simpa [hcid] using hid⟩
  refine ⟨c, hmem, _, List.mem_map_of_mem (List.mem_map_of_mem hsel), ?_, ?_⟩
  · exact ((lease leaseMs now token).onlyIf _).eventKey_eq c
  · simp only [asOutboxRow, RowUpdate.onlyIf, hcid, hid, decide_true, ↓reduceIte, lease]

end Claim

end SettlementOutboxRepository

end StreamPay
