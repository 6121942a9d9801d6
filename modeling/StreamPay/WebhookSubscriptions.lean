import StreamPay.Library.InsertionMap
import StreamPay.Library.JsString
import StreamPay.StreamRepository

/-! Subscriptions to events: `POST /webhooks` joins the event types to one text,
which `findEnabledSubscriptionsForEvent` takes apart again. -/
namespace StreamPay

/-- A row of `webhook_subscriptions`. -/
structure WebhookSubscriptionRow where
  id : Uuid
  url : String
  secret : String
  /-- Comma-separated list of event types to deliver; empty = all events. -/
  eventTypes : String
  enabled : Bool
  createdAt : Timestamp
  updatedAt : Timestamp
  deriving DecidableEq

/-- The table `webhook_subscriptions`. -/
abbrev WebhookSubscriptionRows := InsertionMap Uuid WebhookSubscriptionRow

/-- What `POST /webhooks` takes from zod. -/
structure WebhooksRuntime where
  /-- `z.string().url()` accepts the text. -/
  isUrl : String → Bool
  /-- The issue of `z.string()` with a value that is no string. -/
  typeIssue : Option Json → String
  /-- The issue of `z.array(..)` with a value that is no array. -/
  arrayIssue : Json → String
  /-- The issue of `z.string().min(1)` with the empty text. -/
  minIssue : String

structure CreateWebhookBody where
  url : String
  eventTypes : Option (List String)
  deriving DecidableEq

def WebhooksRuntime.eventTypeIssue (runtime : WebhooksRuntime) : Json → Option String
  | .string text => if text = "" then some runtime.minIssue else none
  | value => some (runtime.typeIssue (some value))

def eventTypesField (runtime : WebhooksRuntime) (body : Json) :
    Except (List String) (Option (List String)) :=
  match body.get "eventTypes" with
  | none => .ok none
  | some (.array items) =>
    match items.filterMap runtime.eventTypeIssue with
    | [] => .ok (some (items.filterMap fun
        | .string text => some text
        | _ => none))
    | issues => .error issues
  | some value => .error [runtime.arrayIssue value]

def urlField (runtime : WebhooksRuntime) (body : Json) : Except (List String) String :=
  match body.get "url" with
  | some (.string text) =>
    if runtime.isUrl text then .ok text else .error ["url must be a valid URL"]
  | value => .error [runtime.typeIssue value]

def fieldErrors {α : Type} (field : String) : Except (List String) α → List (String × List String)
  | .ok _ => []
  | .error issues => [(field, issues)]

/-- `createSchema.safeParse`. -/
def createSchema (runtime : WebhooksRuntime) (body : Json) :
    Except (List (String × List String)) CreateWebhookBody :=
  match body with
  | .object _ =>
    match urlField runtime body, eventTypesField runtime body with
    | .ok url, .ok eventTypes => .ok ⟨url, eventTypes⟩
    | url, eventTypes => .error (fieldErrors "url" url ++ fieldErrors "eventTypes" eventTypes)
  -- the issue of a body that is no object belongs to no field
  | _ => .error []

namespace WebhookRepository

structure NewWebhookSubscription where
  url : String
  secret : String
  eventTypes : String
  enabled : Bool

def fitsColumns (row : WebhookSubscriptionRow) : Bool :=
  isVarchar 2048 row.url && isVarchar 255 row.secret && isColumnText row.eventTypes

/-- `none` where the INSERT throws. -/
def createSubscription (subscriptions : WebhookSubscriptionRows) (data : NewWebhookSubscription)
    (generated : Uuid) (now : Timestamp) :
    Option (WebhookSubscriptionRow × WebhookSubscriptionRows) :=
  let row : WebhookSubscriptionRow :=
    ⟨generated, data.url, data.secret, data.eventTypes, data.enabled, now, now⟩
  if fitsColumns row && !subscriptions.has generated then
    some (row, subscriptions.set generated row)
  else none

/-- `text.split(",")`. -/
def splitCommas (text : String) : List String := (text.toList.splitOn ',').map String.ofList

def selectsEvent (eventType : String) (sub : WebhookSubscriptionRow) : Bool :=
  -- empty = all events
  sub.eventTypes = "" || eventType ∈ (splitCommas sub.eventTypes).map String.trimmed

/-- Return all enabled subscriptions that match a given event type. -/
def findEnabledSubscriptionsForEvent (subscriptions : WebhookSubscriptionRows)
    (eventType : String) : List WebhookSubscriptionRow :=
  (subscriptions.values.filter WebhookSubscriptionRow.enabled).filter (selectsEvent eventType)

end WebhookRepository

inductive WebhooksAnswer
  | validationError (issues : List (String × List String))
  /-- 201 with the subscription and the secret. -/
  | created (id : Uuid) (url : String) (eventTypes : List String) (enabled : Bool)
      (createdAt : Date) (secret : String)
  | threw
  deriving DecidableEq

/-- `eventTypes ? eventTypes.join(",") : ""`. -/
def joinedEventTypes (eventTypes : Option (List String)) : String :=
  (eventTypes.map (String.intercalate ",")).getD ""

/-- The handler of `POST /webhooks`; `secret` is drawn by it, the id and the time
by the database. -/
def postWebhooks (runtime : WebhooksRuntime) (subscriptions : WebhookSubscriptionRows) (body : Json)
    (secret : String) (generated : Uuid) (now : Timestamp) :
    WebhooksAnswer × WebhookSubscriptionRows :=
  match createSchema runtime body with
  | .error issues => (.validationError issues, subscriptions)
  | .ok parsed =>
    match WebhookRepository.createSubscription subscriptions
      ⟨parsed.url, secret, joinedEventTypes parsed.eventTypes, true⟩ generated now with
    | none => (.threw, subscriptions)
    | some (sub,subscriptions') =>
      (.created sub.id sub.url
        ((WebhookRepository.splitCommas sub.eventTypes).filter (· ≠ "")) sub.enabled
        (Timestamp.toDate sub.createdAt) secret, subscriptions')

namespace WebhookRepository

end WebhookRepository

def hookRuntime : WebhooksRuntime where
  isUrl _ := true
  typeIssue _ := "Invalid input: expected string"
  arrayIssue _ := "Invalid input: expected array"
  minIssue := "Too small: expected string to have >=1 characters"

def hookId : Uuid := ⟨"00000000-0000-4000-8000-000000000009", by decide⟩

def hookBody (eventTypes : List Json) : Json :=
  .object [("url", .string "https://example.com/hook"), ("eventTypes", .array eventTypes)]

end StreamPay
