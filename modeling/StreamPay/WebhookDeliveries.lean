import StreamPay.JobLease
import StreamPay.Library.Json
import StreamPay.Streams

/-! Outbound webhook deliveries: the rows and their repository, the request a
delivery is sent with, and what an attempt writes back. -/
namespace StreamPay

def maxAttempts : ℕ := 5
def baseDelayMs : ℕ := 5000
def maxDelayMs : ℕ := 300000

inductive WebhookDeliveryStatus
  | pending | success | failed
  deriving DecidableEq, Repr

structure WebhookSubscription where
  id : String
  url : String
  secret : String
  deriving DecidableEq, Repr

structure WebhookDelivery where
  id : String
  subscriptionId : String
  eventType : String
  payload : String
  status : WebhookDeliveryStatus
  attempts : ℕ
  nextAttemptAt : Option Date
  lastHttpStatus : Option ℕ
  lastError : Option String
  updatedAt : Date
  deriving DecidableEq, Repr

abbrev WebhookSubscriptions := InsertionMap String WebhookSubscription

/-- The table `webhook_deliveries`, one row for each id. -/
abbrev WebhookDeliveries := InsertionMap String WebhookDelivery

/-- The columns an update sets; the others keep their values. -/
structure WebhookDeliveryPatch where
  status : Option WebhookDeliveryStatus
  attempts : Option ℕ
  nextAttemptAt : Option Date
  lastHttpStatus : Option ℕ
  lastError : Option String
  deriving DecidableEq, Repr

def WebhookDeliveryPatch.apply (patch : WebhookDeliveryPatch) (now : Date)
    (row : WebhookDelivery) : WebhookDelivery :=
  { row with
    status := patch.status.getD row.status
    attempts := patch.attempts.getD row.attempts
    nextAttemptAt := patch.nextAttemptAt.or row.nextAttemptAt
    lastHttpStatus := patch.lastHttpStatus.or row.lastHttpStatus
    lastError := patch.lastError.or row.lastError
    updatedAt := now }

namespace WebhookRepository

def findSubscriptionById (subscriptions : WebhookSubscriptions) (id : String) :
    Option WebhookSubscription :=
  subscriptions.get id

/-- `WHERE status = 'pending' AND next_attempt_at <= now`; NULL is never due. -/
def isDue (now : Date) (row : WebhookDelivery) : Bool :=
  row.status = .pending && row.nextAttemptAt.any fun nextAttemptAt => nextAttemptAt ≤ now

def dueLimit : ℕ := 50

/-- The ids of a possible answer to `findDueDeliveries`: there is no ORDER BY,
so any due rows up to the limit, and all of them when they are fewer. -/
def IsDueBatch (deliveries : WebhookDeliveries) (now : Date) (ids : List String) : Prop :=
  ids.Nodup ∧ ids.length ≤ dueLimit ∧
    (∀ id ∈ ids, (deliveries.get id).any (isDue now) = true) ∧
    (ids.length < dueLimit →
      ∀ entry ∈ deliveries.entries, isDue now entry.2 = true → entry.1 ∈ ids)

instance (deliveries : WebhookDeliveries) (now : Date) (ids : List String) :
    Decidable (IsDueBatch deliveries now ids) :=
  inferInstanceAs (Decidable (_ ∧ _ ∧ _ ∧ _))

def dueRows (deliveries : WebhookDeliveries) (ids : List String) : List WebhookDelivery :=
  ids.filterMap deliveries.get

/-- `UPDATE .. WHERE id = ..`, whatever the row holds. -/
def updateDelivery (deliveries : WebhookDeliveries) (now : Date) (id : String)
    (patch : WebhookDeliveryPatch) : WebhookDeliveries :=
  deliveries.modify id (patch.apply now)

end WebhookRepository

/-- What sending needs from the runtime: HMAC-SHA256 in hex, `JSON.parse` and
the correlation id of the surrounding call, if any. -/
structure WebhookRuntime where
  hmacHex : String → String → String
  parseJson : String → Option Json
  correlationId : Option String

def signPayload (runtime : WebhookRuntime) (payload secret : String) : String :=
  "sha256=" ++ runtime.hmacHex payload secret

def correlationIdFromPayload (runtime : WebhookRuntime) (payload : String) : Option String :=
  (runtime.parseJson payload).bind fun value => value.getString "correlationId"

/-- The POST request of an attempt; an empty correlation id sends no header. -/
structure WebhookRequest where
  url : String
  signature : String
  event : String
  correlationId : Option String
  body : String
  deriving DecidableEq, Repr

def webhookRequest (runtime : WebhookRuntime) (sub : WebhookSubscription)
    (delivery : WebhookDelivery) : WebhookRequest where
  url := sub.url
  signature := signPayload runtime delivery.payload sub.secret
  event := delivery.eventType
  correlationId := ((correlationIdFromPayload runtime delivery.payload).or
    runtime.correlationId).filter fun id => id ≠ ""
  body := delivery.payload

/-- What `fetch` gives: a response with its status, or an error message. -/
inductive FetchOutcome
  | response (status : ℕ)
  | error (message : String)
  deriving DecidableEq, Repr

def responseOk (status : ℕ) : Bool := 200 ≤ status && status ≤ 299

/-- Exponential backoff, for attempts counted from 1. -/
def nextRetryDelay (attempt : ℕ) : ℕ := min (baseDelayMs*2^(attempt-1)) maxDelayMs

def subscriptionNotFound : WebhookDeliveryPatch where
  status := some .failed
  attempts := none
  nextAttemptAt := none
  lastHttpStatus := none
  lastError := some "Subscription not found"

def deliverySucceeded (attempts httpStatus : ℕ) : WebhookDeliveryPatch where
  status := some .success
  attempts := some attempts
  nextAttemptAt := none
  lastHttpStatus := some httpStatus
  lastError := none

/-- The last attempt fails the delivery for good, any other schedules a retry. -/
def deliveryFailed (now : Date) (attempts : ℕ) (httpStatus : Option ℕ) (errorMessage : String) :
    WebhookDeliveryPatch where
  status := some (if maxAttempts ≤ attempts then .failed else .pending)
  attempts := some attempts
  nextAttemptAt := if maxAttempts ≤ attempts then none else some (now+nextRetryDelay attempts)
  lastHttpStatus := httpStatus
  lastError := some errorMessage

end StreamPay
