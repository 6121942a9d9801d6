import Mathlib.Data.Int.Notation
import Mathlib.Tactic.Common
import StreamPay.Library.JsString
import StreamPay.Library.Uuid

/-! Rows of the settlement outbox, what is enqueued and what is claimed. Times
are in milliseconds. -/
namespace StreamPay

inductive SettlementOutboxStatus
  | pending | processing | succeeded | failed | dead
  deriving DecidableEq, Repr

/-- A row of `settlement_outbox`; the payload is passed through unread. -/
structure SettlementOutbox (P : Type*) where
  id : String
  eventKey : String
  eventType : String
  aggregateId : String
  payload : P
  status : SettlementOutboxStatus
  attempts : ℤ
  maxAttempts : ℤ
  availableAt : ℤ
  leaseUntil : Option ℤ
  leaseToken : Option String
  lastError : Option Utf16
  processedAt : Option ℤ
  createdAt : ℤ
  updatedAt : ℤ
  deriving DecidableEq, Repr

/-- What is enqueued; for nullable columns `undefined` and `null` are the same. -/
structure NewSettlementOutbox (P : Type*) where
  eventKey : String
  eventType : String
  aggregateId : String
  payload : P
  id : Option Uuid := none
  status : Option SettlementOutboxStatus := none
  attempts : Option ℤ := none
  maxAttempts : Option ℤ := none
  availableAt : Option ℤ := none
  leaseUntil : Option ℤ := none
  leaseToken : Option String := none
  lastError : Option Utf16 := none
  processedAt : Option ℤ := none
  createdAt : Option ℤ := none
  updatedAt : Option ℤ := none

/-- A claimed row as the worker sees it, with the token of its lease. -/
structure OutboxClaim (P : Type*) where
  row : SettlementOutbox P
  leaseToken : String
  deriving DecidableEq, Repr

namespace SettlementOutbox
variable {P : Type*}

/-- Pending and available, or processing under an expired lease. -/
def isDue (row : SettlementOutbox P) (now : ℤ) : Bool :=
  (row.status = .pending && row.availableAt ≤ now) ||
  (row.status = .processing && row.leaseUntil.any (· < now))

def succeed (row : SettlementOutbox P) (processedAt : ℤ) : SettlementOutbox P :=
  { row with
    status := .succeeded
    leaseUntil := none
    leaseToken := none
    processedAt := some processedAt
    updatedAt := processedAt }

def failWith (row : SettlementOutbox P) (error : Utf16) (retryAt : ℤ) (dead : Bool) (now : ℤ) :
    SettlementOutbox P :=
  { row with
    status := if dead then .dead else .pending
    availableAt := retryAt
    leaseUntil := none
    leaseToken := none
    lastError := some (error.take 4000)
    updatedAt := now }

end SettlementOutbox

/-- What an `UPDATE` does to each row; no statement changes the two keys. -/
structure RowUpdate (P : Type*) where
  apply : SettlementOutbox P → SettlementOutbox P
  id_eq : ∀ row, (apply row).id = row.id
  eventKey_eq : ∀ row, (apply row).eventKey = row.eventKey

/-- The rewriting of the rows that a WHERE clause selects. -/
def RowUpdate.onlyIf {P : Type*} (test : SettlementOutbox P → Bool) (f : RowUpdate P) :
    RowUpdate P where
  apply row := if test row then f.apply row else row
  id_eq row := by split_ifs <;> simp [f.id_eq]
  eventKey_eq row := by split_ifs <;> simp [f.eventKey_eq]

def rowOf {P : Type*} (rows : List (SettlementOutbox P)) (eventKey : String) :
    Option (SettlementOutbox P) :=
  rows.find? fun row => row.eventKey = eventKey

section Rows
variable {P : Type*}

theorem rowOf_eventKey {rows : List (SettlementOutbox P)} {eventKey : String}
    {row : SettlementOutbox P} (h : rowOf rows eventKey = some row) : row.eventKey = eventKey := by
  simpa using List.find?_some h

theorem rowOf_append_singleton (rows : List (SettlementOutbox P)) (row : SettlementOutbox P)
    (eventKey : String) : rowOf (rows ++ [row]) eventKey =
      (rowOf rows eventKey).or (if row.eventKey = eventKey then some row else none) := by
  rw [rowOf, List.find?_append, rowOf]
  congr 1
  by_cases h : row.eventKey = eventKey <;> simp [h]

end Rows

end StreamPay
