import StreamPay.DeliveryAcknowledgements
import StreamPay.StreamsApi
import StreamPay.WebhookSubscriptions

/-! Outbound webhooks as one system: subscriptions that requests make and remove,
events that are enqueued for them, and the workers that send what is due. -/
namespace StreamPay
open Interleaving WebhookRepository

structure OutboundEvent where
  eventType : String
  streamId : String
  occurredAt : String
  data : Option Json
  correlationId : Option String

structure OutboundRuntime extends WebhooksRuntime, WebhookRuntime where
  /-- `z.string().uuid()` accepts the text. -/
  isUuid : String → Bool
  /-- `JSON.stringify(event)`. -/
  stringify : OutboundEvent → String

namespace WebhookRepository

/-- What `enqueue` stores; the id and the time of the row are drawn by the database. -/
def createDelivery (subscriptions : WebhookSubscriptionRows) (deliveries : WebhookDeliveries)
    (subscriptionId : Uuid) (eventType payload : String) (now : Date) (generated : Uuid)
    (createdAt : Timestamp) : Option (WebhookDelivery × WebhookDeliveries) :=
  let row := { enqueuedDelivery generated.text subscriptionId.text eventType payload now with
    updatedAt := Timestamp.toDate createdAt }
  -- the INSERT throws on a dangling reference, a taken id and a text that does not fit
  if subscriptions.has subscriptionId && !deliveries.has generated.text &&
      isVarchar 64 eventType && isColumnText payload then
    some (row, deliveries.set generated.text row)
  else none

def listSubscriptions (subscriptions : WebhookSubscriptionRows) : List WebhookSubscriptionRow :=
  subscriptions.values

/-- Whether there was one; its deliveries go with it. -/
def deleteSubscription (subscriptions : WebhookSubscriptionRows) (deliveries : WebhookDeliveries)
    (id : Uuid) : Bool × WebhookSubscriptionRows × WebhookDeliveries :=
  (subscriptions.has id, subscriptions.delete id,
    deliveries.filter fun _ delivery => delivery.subscriptionId ≠ id.text)

def pruneCutoff (now : Date) (olderThanDays : ℕ) : Date := now-olderThanDays*86400000

/-- Deliveries that were created before the cutoff go, in whatever state they are. -/
def pruneDeliveries (deliveries : WebhookDeliveries) (createdAt : String → Timestamp)
    (cutoff : Date) : WebhookDeliveries :=
  deliveries.filter fun id _ => Date.toTimestamp cutoff ≤ createdAt id

end WebhookRepository

inductive DeleteWebhookAnswer
  | error (status : ℕ) (error : String)
  | noContent
  | threw
  deriving DecidableEq

/-- The handler of `DELETE /webhooks/:id`. -/
def deleteWebhook (runtime : OutboundRuntime) (subscriptions : WebhookSubscriptionRows)
    (deliveries : WebhookDeliveries) (id : String) :
    DeleteWebhookAnswer × WebhookSubscriptionRows × WebhookDeliveries :=
  if runtime.isUuid id = false then
    (.error 400 "Invalid subscription ID format", subscriptions, deliveries)
  else match parseUuid id with
    -- a text that the database does not read as a uuid
    | none => (.threw, subscriptions, deliveries)
    | some uuid =>
      let (deleted, subscriptions', deliveries') :=
        deleteSubscription subscriptions deliveries uuid
      (if deleted then .noContent else .error 404 "Subscription not found",
        subscriptions', deliveries')

/-- How far a call of `enqueue` has come: the subscriptions that it has still to
serve, and the deliveries it has stored. With none left it returns them. -/
inductive EnqueueProgress
  | called
  | inserting (event : OutboundEvent) (left : List WebhookSubscriptionRow)
      (deliveries : List WebhookDelivery)
  | threw

/-- The subscriptions as the workers read them. -/
def WebhookSubscriptionRow.toSubscription (row : WebhookSubscriptionRow) : WebhookSubscription :=
  ⟨row.id.text, row.url, row.secret⟩

theorem Uuid.text_injective : Function.Injective Uuid.text := fun _ _ h => Uuid.ext h

def subscriptionsOf (rows : WebhookSubscriptionRows) : WebhookSubscriptions :=
  rows.mapKeys Uuid.text Uuid.text_injective WebhookSubscriptionRow.toSubscription

structure WebhookService (ι κ : Type*) where
  subscriptions : WebhookSubscriptionRows
  /-- The workers, with the table of the deliveries. -/
  workers : WebhookSystem ι
  /-- `created_at` of the deliveries. -/
  createdAt : String → Timestamp
  enqueues : κ → EnqueueProgress

/-- The turns of the workers, of requests and of the calls of `enqueue`. -/
inductive ServiceAction (ι κ : Type*)
  | worker (a : WebhookAction ι)
  | post (body : Json) (secret : String) (generated : Uuid) (now : Timestamp)
  | delete (id : String)
  | prune (olderThanDays : ℕ)
  | find (k : κ) (event : OutboundEvent) (throws : Bool)
  | insert (k : κ) (generated : Uuid) (now : Timestamp) (outcome : UpdateOutcome)

namespace WebhookService
variable {ι κ : Type*} [DecidableEq ι] [DecidableEq κ]

/-- No subscription, no delivery, nothing sent and no call under way. -/
def start (now : Date) (available : Bool) : WebhookService ι κ :=
  ⟨.empty, .start now .empty .empty available, fun _ => 0, fun _ => .called⟩

/-- The workers read the subscriptions as they are. -/
def system (s : WebhookService ι κ) : WebhookSystem ι :=
  { s.workers with subscriptions := subscriptionsOf s.subscriptions }

def setEnqueue (s : WebhookService ι κ) (k : κ) (progress : EnqueueProgress) :
    WebhookService ι κ :=
  { s with enqueues := Function.update s.enqueues k progress }

def store (s : WebhookService ι κ) (delivery : WebhookDelivery) (deliveries : WebhookDeliveries)
    (createdAt : Timestamp) : WebhookService ι κ :=
  { s with
    workers := { s.workers with deliveries := deliveries }
    createdAt := Function.update s.createdAt delivery.id createdAt }

/-- The row that the next INSERT of an `enqueue` stores, unless it throws. -/
def created (runtime : OutboundRuntime) (s : WebhookService ι κ) (event : OutboundEvent)
    (sub : WebhookSubscriptionRow) (generated : Uuid) (now : Timestamp) :
    Option (WebhookDelivery × WebhookDeliveries) :=
  createDelivery s.subscriptions s.workers.deliveries sub.id event.eventType
    (runtime.stringify event) s.workers.now generated now

def step (owner : ι → String) (runtime : OutboundRuntime) (s : WebhookService ι κ) :
    ServiceAction ι κ → Option (WebhookService ι κ)
  | .worker a =>
    (WebhookSystem.step owner runtime.toWebhookRuntime s.system a).map fun workers =>
      { s with workers := workers }
  | .post body secret generated now =>
    some { s with
      subscriptions :=
        (postWebhooks runtime.toWebhooksRuntime s.subscriptions body secret generated now).2 }
  | .delete id =>
    let rows := (deleteWebhook runtime s.subscriptions s.workers.deliveries id).2
    some { s with
      subscriptions := rows.1
      workers := { s.workers with deliveries := rows.2 } }
  | .prune olderThanDays =>
    some { s with
      workers := { s.workers with
        deliveries := pruneDeliveries s.workers.deliveries s.createdAt
          (pruneCutoff s.workers.now olderThanDays) } }
  | .find k event throws =>
    match s.enqueues k with
    | .called =>
      some (s.setEnqueue k (if throws then .threw else
        .inserting event (findEnabledSubscriptionsForEvent s.subscriptions event.eventType) []))
    | _ => none
  | .insert k generated now outcome =>
    match s.enqueues k with
    | .inserting event (sub :: left) deliveries =>
      match s.created runtime event sub generated now with
      | none => some (s.setEnqueue k .threw)
      | some (delivery,deliveries') =>
        -- a call that throws late has stored its row
        let stored := if outcome.takesEffect then s.store delivery deliveries' now else s
        some (stored.setEnqueue k (if outcome.returned then
            .inserting event left (deliveries ++ [delivery]) else .threw))
    | _ => none

end WebhookService

/-- What there is to tell of a turn: of subscriptions, of the deliveries that are
stored for them, and of responses to their requests. -/
inductive ServiceEvent (κ : Type*)
  | subscribed (sub : WebhookSubscriptionRow)
  | unsubscribed (id : Uuid)
  | found (k : κ) (event : OutboundEvent) (subs : List WebhookSubscriptionRow)
  | enqueued (k : κ) (id : String) (event : OutboundEvent) (sub : WebhookSubscriptionRow)
  | pruned (ids : List String)
  | responded (id : String) (outcome : FetchOutcome)

namespace WebhookService
variable {ι κ : Type*} [DecidableEq ι] [DecidableEq κ]

def eventOf (runtime : OutboundRuntime) (s : WebhookService ι κ) :
    ServiceAction ι κ → Option (ServiceEvent κ)
  | .worker (.receive _ deliveryId outcome) => some (.responded deliveryId outcome)
  | .worker _ => none
  | .post body secret generated now =>
    match postWebhooks runtime.toWebhooksRuntime s.subscriptions body secret generated now with
    | (.created id .., subscriptions) => (subscriptions.get id).map .subscribed
    | _ => none
  | .delete id =>
    match (deleteWebhook runtime s.subscriptions s.workers.deliveries id).1 with
    | .noContent => (parseUuid id).map .unsubscribed
    | _ => none
  | .prune olderThanDays =>
    some (.pruned ((s.workers.deliveries.entries.map Prod.fst).filter fun id =>
      s.createdAt id < Date.toTimestamp (pruneCutoff s.workers.now olderThanDays)))
  | .find k event throws =>
    if throws then none
    else some (.found k event (findEnabledSubscriptionsForEvent s.subscriptions event.eventType))
  | .insert k generated now outcome =>
    match s.enqueues k with
    | .inserting event (sub :: _) _ =>
      if outcome.takesEffect then
        (s.created runtime event sub generated now).map fun row => .enqueued k row.1.id event sub
      else none
    | _ => none

/-- The system with the story of its turns so far. -/
def tellingStep (owner : ι → String) (runtime : OutboundRuntime) :
    WebhookService ι κ × List (ServiceEvent κ) → ServiceAction ι κ →
      Option (WebhookService ι κ × List (ServiceEvent κ)) :=
  recording (step owner runtime) (eventOf runtime)

def subscribedId : ServiceEvent κ → Option Uuid
  | .subscribed sub => some sub.id
  | _ => none

def enqueuedId : ServiceEvent κ → Option String
  | .enqueued _ id _ _ => some id
  | _ => none

/-- The ids that the database draws are new: it has not given them out before. -/
def FreshIds (told : WebhookService ι κ × List (ServiceEvent κ)) : ServiceAction ι κ → Prop
  | .post _ _ generated _ => generated ∉ told.2.filterMap subscribedId
  | .insert _ generated _ _ => generated.text ∉ told.2.filterMap enqueuedId
  | _ => True

instance (told : WebhookService ι κ × List (ServiceEvent κ)) (a : ServiceAction ι κ) :
    Decidable (FreshIds told a) :=
  match a with
  | .post _ _ generated _ => inferInstanceAs (Decidable (generated ∉ told.2.filterMap subscribedId))
  | .insert _ generated _ _ =>
    inferInstanceAs (Decidable (generated.text ∉ told.2.filterMap enqueuedId))
  | .worker _ | .delete _ | .prune _ | .find .. => inferInstanceAs (Decidable True)

end WebhookService

end StreamPay
