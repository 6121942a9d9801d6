import Mathlib.Algebra.Ring.Int.Defs
import StreamPay.InMemorySettlementOutbox

/-! The enqueueing side of `SettlementOutboxService` and the constants of its
worker side. -/
namespace StreamPay

/-- What a caller enqueues; the event key makes a retry safe. -/
structure SettlementSideEffect (P : Type*) where
  eventKey : String
  eventType : String
  aggregateId : String
  payload : P
  maxAttempts : Option ℤ := none
  deriving DecidableEq, Repr

def outboxLeaseMs : ℤ := 60000

def outboxBaseRetryMs : ℤ := 5000

def outboxMaxRetryMs : ℤ := 15*60000

def retryDelay (attempt : ℤ) : ℤ :=
  let safeAttempt := max 1 (min attempt 20)
  min (outboxBaseRetryMs*2^(safeAttempt-1).toNat) outboxMaxRetryMs

/-- Retries wait between 5 seconds and 15 minutes, whatever the attempt. -/
theorem retryDelay_bounds (attempt : ℤ) : 5000 ≤ retryDelay attempt ∧ retryDelay attempt ≤ 900000 := by
  have hpow : 0 < (2:ℤ)^(max 1 (min attempt 20)-1).toNat := Int.pow_pos (by decide)
  simp only [retryDelay, outboxBaseRetryMs, outboxMaxRetryMs]
  omega

namespace SettlementOutboxService
variable {P : Type*}

/-- The row that `enqueue` hands to the store, or the error it throws. -/
def newRow (effect : SettlementSideEffect P) (clock : ℤ) : Except String (NewSettlementOutbox P) :=
  if effect.eventKey.isBlank then .error "Settlement outbox eventKey is required"
  else if effect.eventType.isBlank then .error "Settlement outbox eventType is required"
  else if effect.aggregateId.isBlank then .error "Settlement outbox aggregateId is required"
  else .ok {
    eventKey := effect.eventKey
    eventType := effect.eventType
    aggregateId := effect.aggregateId
    payload := effect.payload
    maxAttempts := some (effect.maxAttempts.getD 8)
    availableAt := some clock }

/-- `clock` is the clock of the service, `now` the one that the store reads. -/
def enqueue (s : InMemorySettlementOutboxStore P) (effect : SettlementSideEffect P)
    (clock now : ℤ) : Except String (Option (SettlementOutbox P)) × InMemorySettlementOutboxStore P :=
  match newRow effect clock with
  | .error message => (.error message, s)
  | .ok input =>
    let (row,s') := s.enqueue input now
    (.ok row, s')

end SettlementOutboxService

end StreamPay
