import Mathlib.Algebra.Order.Field.Rat
import Mathlib.Data.Rat.Cast.Defs
import StreamPay.Streams

/-! Accrued amounts of streams, with the arithmetic of doubles read as exact and
before they are rounded to nine places. -/
namespace StreamPay

structure AccrualResult where
  streamId : Uuid
  accruedAmount : ℚ
  calculationTimestamp : Date
  status : StreamStatus
  deriving DecidableEq

/-- The end of the calculation period: `now`, or `endTime` once it has passed. -/
def effectiveEnd (stream : Stream) (now : Date) : Date :=
  match stream.endTime with
  | some endTime => if now > endTime then endTime else now
  | none => now

def elapsedSeconds (stream : Stream) (now : Date) : ℚ :=
  max 0 ((effectiveEnd stream now-stream.lastSettledAt : ℤ)/1000)

/-- `parseFloat(stream.ratePerSecond)`. -/
def Stream.rate (stream : Stream) : ℚ := stream.ratePerSecond/1000000000

namespace AccrualService

def calculateAccrual (stream : Stream) (now : Date) : AccrualResult where
  streamId := stream.id
  accruedAmount := if stream.status ≠ .active then 0 else elapsedSeconds stream now*stream.rate
  calculationTimestamp := now
  status := stream.status

end AccrualService

namespace StreamRepository

def calculateAccruedEstimate (stream : Stream) (now : Date) : ℚ :=
  if stream.status ≠ .active then 0 else elapsedSeconds stream now*stream.rate

end StreamRepository

end StreamPay
