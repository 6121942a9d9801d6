import Mathlib.Data.Int.Notation
import Mathlib.Data.List.Nodup
import StreamPay.Library.Uuid

/-! The `streams` table. The database keeps timestamps in microseconds; the
driver hands them over as dates in milliseconds. -/
namespace StreamPay

inductive StreamStatus
  | active | paused | cancelled | completed
  deriving DecidableEq, Repr

/-- A timestamp of the database, in microseconds. -/
abbrev Timestamp := ℤ

/-- A JavaScript `Date`, in milliseconds. -/
abbrev Date := ℤ

/-- A timestamp as the driver reads it: the microseconds are cut off. -/
def Timestamp.toDate (t : Timestamp) : Date := t / 1000

def Date.toTimestamp (d : Date) : Timestamp := 1000*d

/-- The columns of `streams` over the type `T` of points in time. Amounts are
in billionths, the scale of their columns. -/
structure StreamOf (T : Type) where
  id : Uuid
  payer : String
  recipient : String
  status : StreamStatus
  ratePerSecond : ℤ
  startTime : T
  endTime : Option T
  totalAmount : ℤ
  lastSettledAt : T
  labels : Option (List String)
  offChainMemo : Option String
  createdAt : T
  updatedAt : T
  deletedAt : Option T
  chainId : String
  contractAddress : Option String
  transactionHash : Option String
  metadata : Option String
  deriving DecidableEq

abbrev StreamRow := StreamOf Timestamp

abbrev Stream := StreamOf Date

/-- `SELECT *`: what the program sees of a row. -/
def StreamRow.fetch (row : StreamRow) : Stream where
  id := row.id
  payer := row.payer
  recipient := row.recipient
  status := row.status
  ratePerSecond := row.ratePerSecond
  startTime := Timestamp.toDate row.startTime
  endTime := row.endTime.map Timestamp.toDate
  totalAmount := row.totalAmount
  lastSettledAt := Timestamp.toDate row.lastSettledAt
  labels := row.labels
  offChainMemo := row.offChainMemo
  createdAt := Timestamp.toDate row.createdAt
  updatedAt := Timestamp.toDate row.updatedAt
  deletedAt := row.deletedAt.map Timestamp.toDate
  chainId := row.chainId
  contractAddress := row.contractAddress
  transactionHash := row.transactionHash
  metadata := row.metadata

/-- The table; `id` is the primary key. -/
structure StreamsTable where
  rows : List StreamRow
  ids_nodup : (rows.map StreamOf.id).Nodup

theorem Date.toTimestamp_toDate_le (t : Timestamp) :
    Date.toTimestamp (Timestamp.toDate t) ≤ t := by
  have h : ∀ n : ℤ, 1000*(n/1000) ≤ n := fun n => by omega
  exact h t

/-- Only a whole number of milliseconds survives the way there and back. -/
theorem Date.toTimestamp_toDate_eq_iff (t : Timestamp) :
    Date.toTimestamp (Timestamp.toDate t) = t ↔ 1000 ∣ t := by
  have h : ∀ n : ℤ, 1000*(n/1000) = n ↔ 1000 ∣ n := fun n => by omega
  exact h t

end StreamPay
