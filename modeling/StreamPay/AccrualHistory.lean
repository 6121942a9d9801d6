import Mathlib.Tactic.FieldSimp
import Mathlib.Tactic.Linarith
import StreamPay.StreamRepository

/-! Accrued amounts after updates of the status: the time that a stream was
active, against the time since its last settlement. -/
namespace StreamPay
open StreamRepository

structure UpdateCall where
  updates : UpdateStreamParams
  currentUpdatedAt : Option Date
  now : Date

/-- Calls of `updateById` for one stream, in the order of their times. -/
structure UpdateHistory where
  calls : List UpdateCall
  increasing : (calls.map UpdateCall.now).Pairwise (· < ·)

namespace StreamsTable

/-- A call that throws leaves the table as it is. -/
def afterCall (table : StreamsTable) (id : Uuid) (call : UpdateCall) : StreamsTable :=
  match updateById table id call.updates call.currentUpdatedAt call.now with
  | some (_,table') => table'
  | none => table

def afterCalls (table : StreamsTable) (id : Uuid) (calls : List UpdateCall) : StreamsTable :=
  calls.foldl (fun table call => table.afterCall id call) table

end StreamsTable

/-- What the accrual of a stream depends on, besides its status. -/
structure SameTerms (row row' : StreamRow) : Prop where
  lastSettledAt : row'.lastSettledAt = row.lastSettledAt
  endTime : row'.endTime = row.endTime
  ratePerSecond : row'.ratePerSecond = row.ratePerSecond

theorem SameTerms.trans {a b c : StreamRow} (h : SameTerms a b) (h' : SameTerms b c) :
    SameTerms a c where
  lastSettledAt := h'.lastSettledAt.trans h.lastSettledAt
  endTime := h'.endTime.trans h.endTime
  ratePerSecond := h'.ratePerSecond.trans h.ratePerSecond

/-- An update changes no term of the accrual, whatever status it sets. -/
theorem StreamsTable.terms_afterCall {table : StreamsTable} {id : Uuid} {row : StreamRow}
    (hrow : table.findRow id = some row) (call : UpdateCall) :
    ∃ row', (table.afterCall id call).findRow id = some row' ∧ SameTerms row row' := by
  unfold afterCall
  split
  · rename_i updated table' hupdate
    cases updated with
    | none =>
      rw [updateById_none hupdate]
      exact ⟨row, hrow, ⟨rfl, rfl, rfl⟩⟩
    | some stream =>
      obtain ⟨old,hold,_,_,_,hrows⟩ := updateById_some hupdate
      obtain rfl := Option.some.inj (hold.symm.trans hrow)
      exact ⟨patched call.updates call.now old, by rw [hrows, if_pos rfl], ⟨rfl, rfl, rfl⟩⟩
  · exact ⟨row, hrow, ⟨rfl, rfl, rfl⟩⟩

theorem StreamsTable.terms_afterCalls {table : StreamsTable} {id : Uuid} {row : StreamRow}
    (hrow : table.findRow id = some row) (calls : List UpdateCall) :
    ∃ row', (table.afterCalls id calls).findRow id = some row' ∧ SameTerms row row' := by
  -- over the calls: the terms of the first row are those of the row between
  induction calls generalizing table row with
  | nil => exact ⟨row, hrow, ⟨rfl, rfl, rfl⟩⟩
  | cons call calls ih =>
    obtain ⟨between,hbetween,hfirst⟩ := terms_afterCall hrow call
    obtain ⟨row',hrow',hrest⟩ := ih hbetween
    exact ⟨row', hrow', hfirst.trans hrest⟩

namespace UpdateHistory

/-- The row of the stream at a time: after the calls that were made until then. -/
def rowAt (history : UpdateHistory) (table : StreamsTable) (id : Uuid) (t : Date) :
    Option StreamRow :=
  (table.afterCalls id (history.calls.filter fun call => call.now ≤ t)).findRow id

def statusAt (history : UpdateHistory) (table : StreamsTable) (id : Uuid) (t : Date) :
    Option StreamStatus :=
  (history.rowAt table id t).map StreamOf.status

end UpdateHistory

/-- `min(T, endTime)`. -/
def accrualEnd (stream : Stream) (T : Date) : Date :=
  match stream.endTime with
  | some endTime => if T ≤ endTime then T else endTime
  | none => T

/-- The milliseconds from `lastSettledAt` to `min(T, endTime)`. -/
def accrualWindow (stream : Stream) (T : Date) : List Date :=
  (List.range (accrualEnd stream T-stream.lastSettledAt : ℤ).toNat).map fun k : ℕ =>
    (stream.lastSettledAt+k : ℤ)

/-- The seconds of the window in which the stream was active. -/
def UpdateHistory.activeSeconds (history : UpdateHistory) (table : StreamsTable) (id : Uuid)
    (window : List Date) : ℚ :=
  (window.countP fun t => history.statusAt table id t = some .active : ℚ)/1000

theorem mem_accrualWindow {stream : Stream} {T t : Date} :
    t ∈ accrualWindow stream T ↔ stream.lastSettledAt ≤ t ∧ t < accrualEnd stream T := by
  have hrange (a b t : ℤ) : (∃ k, k < (b-a).toNat ∧ a+k = t) ↔ a ≤ t ∧ t < b := by
    constructor
    · rintro ⟨k,hk,rfl⟩
      omega
    · intro h
      exact ⟨(t-a).toNat, by omega, by omega⟩
  simp only [accrualWindow, List.mem_map, List.mem_range]
  exact hrange _ _ _

theorem effectiveEnd_eq (stream : Stream) (T : Date) :
    effectiveEnd stream T = accrualEnd stream T := by
  have hsame (a b : ℤ) : (if a > b then b else a) = if a ≤ b then a else b := by
    split_ifs <;> omega
  unfold effectiveEnd accrualEnd
  cases stream.endTime with
  | none => rfl
  | some endTime => exact hsame T endTime

theorem elapsedSeconds_eq_length (stream : Stream) (T : Date) :
    elapsedSeconds stream T = ((accrualWindow stream T).length : ℚ)/1000 := by
  have hlength (a b : ℤ) : (((b-a).toNat : ℕ) : ℚ) = max 0 ((b-a : ℤ) : ℚ) := by
    rw [← Int.cast_natCast, Int.toNat_eq_max, max_comm]
    push_cast
    rfl
  rw [elapsedSeconds, effectiveEnd_eq, accrualWindow, List.length_map, List.length_range, hlength,
    ← max_div_div_right (by norm_num : (0:ℚ) ≤ 1000), zero_div]

theorem accrualEnd_eq {row row' : StreamRow} (h : SameTerms row row') (T : Date) :
    accrualEnd row'.fetch T = accrualEnd row.fetch T := by
  simp only [accrualEnd, StreamRow.fetch, h.endTime]

theorem accrualWindow_eq {row row' : StreamRow} (h : SameTerms row row') (T : Date) :
    accrualWindow row'.fetch T = accrualWindow row.fetch T := by
  rw [accrualWindow, accrualEnd_eq h]
  simp only [accrualWindow, StreamRow.fetch, h.lastSettledAt]

namespace UpdateHistory
variable (history : UpdateHistory) {table : StreamsTable} {id : Uuid} {row : StreamRow} {T : Date}

/-- What `calculateAccrual` has for the row that the stream has at a time. -/
def accruedAt (table : StreamsTable) (id : Uuid) (T : Date) : Option ℚ :=
  (history.rowAt table id T).map fun row => (AccrualService.calculateAccrual row.fetch T).accruedAmount

/-- An active stream accrues over its whole window. -/
theorem accruedAt_eq (hrow : table.findRow id = some row)
    (hactive : history.statusAt table id T = some .active) :
    history.accruedAt table id T =
      some (((accrualWindow row.fetch T).length : ℚ)/1000*row.fetch.rate) := by
  obtain ⟨row',hrow',hterms⟩ := StreamsTable.terms_afterCalls hrow
    (history.calls.filter fun call => call.now ≤ T)
  -- the row at T differs from the first one in no term of the accrual
  have hnow : history.rowAt table id T = some row' := hrow'
  have hstatus : row'.fetch.status = .active := by
    rw [statusAt, hnow, Option.map_some] at hactive
    exact Option.some.inj hactive
  have hrate : row'.fetch.rate = row.fetch.rate := by
    simp only [Stream.rate, StreamRow.fetch, hterms.ratePerSecond]
  rw [accruedAt, hnow, Option.map_some, AccrualService.calculateAccrual,
    if_neg (not_not.mpr hstatus), elapsedSeconds_eq_length, accrualWindow_eq hterms, hrate]

/-- An active stream has accrued its rate over the time that it was active exactly
if it was active ever since its last settlement, or has no rate. -/
theorem accrued_over_active_time_iff (hrow : table.findRow id = some row)
    (hactive : history.statusAt table id T = some .active) :
    history.accruedAt table id T =
      some (history.activeSeconds table id (accrualWindow row.fetch T)*row.fetch.rate) ↔
      row.ratePerSecond = 0 ∨
        ∀ t, row.fetch.lastSettledAt ≤ t → t < accrualEnd row.fetch T →
          history.statusAt table id t = some .active := by
  have hrate : row.fetch.rate = 0 ↔ row.ratePerSecond = 0 := by
    simp [Stream.rate, StreamRow.fetch]
  have hcount : ((accrualWindow row.fetch T).countP fun t =>
      history.statusAt table id t = some .active) = (accrualWindow row.fetch T).length ↔
      ∀ t, row.fetch.lastSettledAt ≤ t → t < accrualEnd row.fetch T →
        history.statusAt table id t = some .active := by
    simp only [List.countP_eq_length, mem_accrualWindow, and_imp, decide_eq_true_eq]
  rw [history.accruedAt_eq hrow hactive, activeSeconds, Option.some_inj, mul_eq_mul_right_iff,
    div_left_inj' (by norm_num : (1000:ℚ) ≠ 0), Nat.cast_inj, eq_comm, hcount, hrate, or_comm]

section SampleAccrual

def tickingId : Uuid := ⟨"00000000-0000-4000-8000-000000000004", by decide⟩

def tickingRow : StreamRow :=
  insertedRow ⟨"payer", "recipient", "1", 0, "100", none, some .active, none, some 0, none, none,
    none, none, none, none, none, none, none⟩ 1000000000 100000000000 tickingId 0

def tickingStream : StreamsTable := ⟨[tickingRow], List.nodup_singleton _⟩

def setStatus (status : String) (now : Date) : UpdateCall :=
  ⟨{ status := some (.string status) }, none, now⟩

def keptActive : UpdateHistory := ⟨[setStatus "active" 1], by decide⟩

def pausedOnce : UpdateHistory := ⟨[setStatus "paused" 1, setStatus "active" 2], by decide⟩

theorem accrued_while_kept_active :
    keptActive.accruedAt tickingStream tickingId 3 =
      some (keptActive.activeSeconds tickingStream tickingId (accrualWindow tickingRow.fetch 3)*
        tickingRow.fetch.rate) := by
  have hkept : ∀ t ∈ accrualWindow tickingRow.fetch 3,
      keptActive.statusAt tickingStream tickingId t = some .active := by
    decide +kernel
  exact (keptActive.accrued_over_active_time_iff rfl (by decide +kernel)).mpr
    (Or.inr fun t hfrom hto => hkept t (mem_accrualWindow.mpr ⟨hfrom, hto⟩))

/-- The millisecond between pause and resumption is accrued too. -/
theorem paused_time_accrued :
    ¬ ∀ (history : UpdateHistory) (table : StreamsTable) (id : Uuid) (row : StreamRow) (T : Date),
      table.findRow id = some row → history.statusAt table id T = some .active →
      history.accruedAt table id T =
        some (history.activeSeconds table id (accrualWindow row.fetch T)*row.fetch.rate) := by
  intro h
  have hactive : pausedOnce.statusAt tickingStream tickingId 3 = some .active := by decide +kernel
  have hequal := h pausedOnce tickingStream tickingId tickingRow 3 (by decide +kernel) hactive
  have haccrued : pausedOnce.accruedAt tickingStream tickingId 3 = some (3/1000) := by
    decide +kernel
  have hspent : pausedOnce.activeSeconds tickingStream tickingId (accrualWindow tickingRow.fetch 3)*
      tickingRow.fetch.rate = 2/1000 := by
    decide +kernel
  rw [haccrued, hspent] at hequal
  exact absurd hequal (by decide +kernel)

end SampleAccrual

end UpdateHistory

end StreamPay
