import StreamPay.StreamRepository
import StreamPay.Library.IsoDate

/-! The writing requests of `/api/v1/streams`: what their handlers check, the
statement they send and the answer they make of its result. -/
namespace StreamPay

/-- What the handlers take from zod and from `new Date`. -/
structure StreamsRuntime where
  /-- The issue of `z.string().uuid()` with a text, if it has one. -/
  uuidIssue : String → Option String
  /-- `z.string().datetime()` accepts the text. -/
  isDatetime : String → Bool
  /-- The issue of `z.string()` with a value that is no string. -/
  typeIssue : Option Json → String
  /-- `new Date(..)` of anything but a text that `toISOString()` makes. -/
  otherDate : Json → Option Date

def StreamsRuntime.newDate (runtime : StreamsRuntime) (value : Json) : Option Date :=
  match value with
  | .string text => (IsoDate.parse text).or (runtime.otherDate value)
  | value => runtime.otherDate value

inductive StreamsRequest
  | create (body : Json)
  | patch (id : String) (body : Json)
  | delete (id : String)
  | restore (id : String)

inductive StreamsAnswer
  | error (status : ℕ) (error : String)
  /-- 400 with the `fieldErrors` of the body. -/
  | validationFailed (fieldErrors : List (String × List String))
  /-- 400 with the path and message of each issue. -/
  | validationError (details : List (String × String))
  | stream (status : ℕ) (stream : Stream) (accruedEstimate : Option ℚ)
  | null
  | noContent
  deriving DecidableEq

/-- The calls of the repository; ids are as the request has them. -/
inductive StreamStatement
  | create (data : NewStream)
  | updateById (id : String) (updates : UpdateStreamParams) (currentUpdatedAt : Option Date)
      (now : Date)
  | softDeleteById (id : String) (now : Date)
  | restoreById (id : String) (now : Date)

inductive StatementResult
  | created (stream : Stream)
  | updated (stream : Option Stream)
  | deleted (found : Bool)
  | restored (found : Bool)
  | threw
  deriving DecidableEq

/-- A uuid as the database reads it: in upper or lower case. -/
def parseUuid (id : String) : Option Uuid :=
  if h : isUuid id.toLower = true then some ⟨id.toLower, h⟩ else none

structure CreateStreamBody where
  payer : String
  recipient : String
  ratePerSecond : String
  startTime : String
  endTime : Option String
  totalAmount : String
  deriving DecidableEq

/-- A string field of a zod object: its value, or the issue with it. -/
def stringField (runtime : StreamsRuntime) (body : Json) (field : String)
    (accepts : String → Bool) (issue : String) : Except String String :=
  match body.get field with
  | some (.string text) => if accepts text then .ok text else .error issue
  | value => .error (runtime.typeIssue value)

/-- An optional field may be left out. -/
def optionalField (runtime : StreamsRuntime) (body : Json) (field : String)
    (accepts : String → Bool) (issue : String) : Except String (Option String) :=
  match body.get field with
  | none => .ok none
  | some _ => (stringField runtime body field accepts issue).map some

def fieldError {α : Type} (field : String) : Except String α → List (String × List String)
  | .ok _ => []
  | .error issue => [(field, [issue])]

def createStreamSchema (runtime : StreamsRuntime) (body : Json) :
    Except (List (String × List String)) CreateStreamBody :=
  let isDecimal (text : String) := (decimalDigits text).isSome
  let payer := stringField runtime body "payer" (· ≠ "") "payer is required"
  let recipient := stringField runtime body "recipient" (· ≠ "") "recipient is required"
  let ratePerSecond := stringField runtime body "ratePerSecond" isDecimal
    "ratePerSecond must be a positive decimal string"
  let startTime := stringField runtime body "startTime" runtime.isDatetime
    "startTime must be an ISO-8601 datetime"
  let endTime := optionalField runtime body "endTime" runtime.isDatetime
    "endTime must be an ISO-8601 datetime"
  let totalAmount := stringField runtime body "totalAmount" isDecimal
    "totalAmount must be a positive decimal string"
  match body with
  | .object _ =>
    match payer, recipient, ratePerSecond, startTime, endTime, totalAmount with
    | .ok payer, .ok recipient, .ok ratePerSecond, .ok startTime, .ok endTime, .ok totalAmount =>
      .ok ⟨payer, recipient, ratePerSecond, startTime, endTime, totalAmount⟩
    | _, _, _, _, _, _ => .error (fieldError "payer" payer ++ fieldError "recipient" recipient ++
        fieldError "ratePerSecond" ratePerSecond ++ fieldError "startTime" startTime ++
        fieldError "endTime" endTime ++ fieldError "totalAmount" totalAmount)
  -- the issue of a body that is no object belongs to no field
  | _ => .error []

def internalError : StreamsAnswer := .error 500 "Internal server error"

/-- The row that POST asks for; a date that is invalid makes the insert throw. -/
def newStreamOf (runtime : StreamsRuntime) (body : CreateStreamBody) : Option NewStream :=
  (runtime.newDate (.string body.startTime)).bind fun startTime =>
    let row : NewStream := {
      payer := body.payer
      recipient := body.recipient
      ratePerSecond := body.ratePerSecond
      startTime := startTime
      totalAmount := body.totalAmount
      status := some .active
      lastSettledAt := some startTime }
    match body.endTime.filter (· ≠ "") with
    | none => some row
    | some endTime => (runtime.newDate (.string endTime)).map fun endTime =>
        { row with endTime := some endTime }

def allowedUpdateFields : List String := ["labels", "offChainMemo", "status", "updatedAt"]

def isStreamStatus : Json → Bool
  | .string name => (StreamStatus.ofName name).isSome
  | _ => false

/-- The texts of an array of strings. -/
def labelTexts : Json → Option (List String)
  | .array items => items.mapM fun
    | .string text => some text
    | _ => none
  | _ => none

def memoText : Json → Option (Option String)
  | .null => some none
  | .string text => some (some text)
  | _ => none

/-- The lock that a PATCH asks for: `none` if its `updatedAt` is not given, and
`some none` if it is not a date. -/
def requestedLock (runtime : StreamsRuntime) (body : Json) : Option (Option Date) :=
  ((body.get "updatedAt").filter Json.isTruthy).map runtime.newDate

/-- The first check that a PATCH fails. -/
def patchIssue (runtime : StreamsRuntime) (id : String) (body : Json) : Option String :=
  if (runtime.uuidIssue id).isSome then some "Invalid stream ID format"
  else match body with
  | .object members =>
    let invalidFields := (members.map Prod.fst).filter (· ∉ allowedUpdateFields)
    if !invalidFields.isEmpty then
      some ("Invalid fields: " ++ String.intercalate ", " invalidFields)
    -- null and the empty text are not checked here, and are left to the column
    else if (body.get "status").any fun value => value.isTruthy && !isStreamStatus value then
      some "Invalid status value"
    else if (body.get "labels").any fun value => (labelTexts value).isNone then
      some "Labels must be an array of strings"
    else if (body.get "offChainMemo").any fun value => (memoText value).isNone then
      some "offChainMemo must be a string or null"
    else if requestedLock runtime body = some none then some "Invalid updatedAt format"
    else none
  | _ => some "Request body must be a JSON object"

def repositoryUpdates (body : Json) : UpdateStreamParams where
  labels := (body.get "labels").bind labelTexts
  offChainMemo := (body.get "offChainMemo").bind memoText
  status := body.get "status"

/-- `req.body ?? \x7b\x7d`. -/
def orEmpty : Json → Json
  | .null => .object []
  | body => body

/-- The handler up to its statement: an answer if a check fails. -/
def prepare (runtime : StreamsRuntime) (now : Date) :
    StreamsRequest → Except StreamsAnswer StreamStatement
  | .create body =>
    match createStreamSchema runtime body with
    | .error fieldErrors => .error (.validationFailed fieldErrors)
    | .ok body =>
      match newStreamOf runtime body with
      | none => .error internalError
      | some data => .ok (.create data)
  | .patch id body =>
    let requestBody := orEmpty body
    match patchIssue runtime id requestBody with
    | some issue => .error (.error 400 issue)
    | none => .ok (.updateById id (repositoryUpdates requestBody)
        (requestedLock runtime requestBody).join now)
  | .delete id =>
    match runtime.uuidIssue id with
    | some issue => .error (.validationError [("id", issue)])
    | none => .ok (.softDeleteById id now)
  | .restore id =>
    match runtime.uuidIssue id with
    | some issue => .error (.validationError [("id", issue)])
    | none => .ok (.restoreById id now)

/-- One statement on the table; `generated` and `now` are drawn by the database. -/
def execute (table : StreamsTable) (generated : Uuid) (now : Timestamp) :
    StreamStatement → StatementResult × StreamsTable
  | .create data =>
    match StreamRepository.create table data generated now with
    | some (stream,table') => (.created stream, table')
    | none => (.threw, table)
  | .updateById id updates currentUpdatedAt clock =>
    match (parseUuid id).bind fun id =>
      StreamRepository.updateById table id updates currentUpdatedAt clock with
    | some (stream,table') => (.updated stream, table')
    | none => (.threw, table)
  | .softDeleteById id clock =>
    match parseUuid id with
    | some id =>
      let (found,table') := StreamRepository.softDeleteById table id clock
      (.deleted found, table')
    | none => (.threw, table)
  | .restoreById id clock =>
    match parseUuid id with
    | some id =>
      let (found,table') := StreamRepository.restoreById table id clock
      (.restored found, table')
    | none => (.threw, table)

/-- The handler from the result of its statement on; PATCH and restore read the
row again. -/
def respond (table : StreamsTable) (now : Date) (statement : StreamStatement) :
    StatementResult → StreamsAnswer
  | .created stream => .stream 201 stream none
  | .updated none => .error 404 "Stream not found or update conflict"
  | .updated (some stream) =>
    -- the row as another request may have left it by now
    match reread table now statement with
    | some (stream,accruedEstimate) => .stream 200 stream (some accruedEstimate)
    | none => .stream 200 stream none
  | .deleted true => .noContent
  | .deleted false => .error 404 "Stream not found"
  | .restored true =>
    match reread table now statement with
    | some (stream,accruedEstimate) => .stream 200 stream (some accruedEstimate)
    | none => .null
  | .restored false => .error 404 "Deleted stream not found"
  | .threw => internalError
where
  reread (table : StreamsTable) (now : Date) : StreamStatement → Option (Stream × ℚ)
    | .updateById id .. => (parseUuid id).bind fun id =>
        StreamRepository.findById table id false now
    | .restoreById id _ => (parseUuid id).bind fun id =>
        StreamRepository.findById table id false now
    | _ => none

/-- A request handled alone: its clock is read at the start and at the end. -/
def handle (runtime : StreamsRuntime) (table : StreamsTable) (request : StreamsRequest)
    (clock : Date) (generated : Uuid) (now : Timestamp) (clock' : Date) :
    StreamsAnswer × StreamsTable :=
  match prepare runtime clock request with
  | .error answer => (answer, table)
  | .ok statement =>
    let (result,table') := execute table generated now statement
    (respond table' clock' statement result, table')

variable {runtime : StreamsRuntime} {now : Date} {text : String} {body : Json}

/-- POST leaves the columns with the times of the row to their defaults. -/
theorem prepare_create {request : StreamsRequest} {data : NewStream}
    (h : prepare runtime now request = .ok (.create data)) :
    data.createdAt = none ∧ data.updatedAt = none := by
  cases request with
  | create body =>
    simp only [prepare] at h
    split at h
    · cases h
    · split at h
      · cases h
      · rename_i body _ data' hnew
        obtain rfl := StreamStatement.create.inj (Except.ok.inj h)
        obtain ⟨startTime,_,hrow⟩ := Option.bind_eq_some_iff.mp hnew
        dsimp only at hrow
        split at hrow
        · obtain rfl := Option.some.inj hrow
          exact ⟨rfl, rfl⟩
        · obtain ⟨endTime,_,rfl⟩ := Option.map_eq_some_iff.mp hrow
          exact ⟨rfl, rfl⟩
  | patch text body =>
    simp only [prepare] at h
    split at h
    · cases h
    · cases Except.ok.inj h
  | delete text =>
    simp only [prepare] at h
    split at h
    · cases h
    · cases Except.ok.inj h
  | restore text =>
    simp only [prepare] at h
    split at h
    · cases h
    · cases Except.ok.inj h

theorem newStreamOf_eq_some {parsed : CreateStreamBody} {data : NewStream}
    (h : newStreamOf runtime parsed = some data) :
    data.status = some .active ∧ data.lastSettledAt = some data.startTime ∧
      data.ratePerSecond = parsed.ratePerSecond ∧ data.totalAmount = parsed.totalAmount := by
  obtain ⟨startTime,_,hrow⟩ := Option.bind_eq_some_iff.mp h
  dsimp only at hrow
  split at hrow
  · obtain rfl := Option.some.inj hrow
    exact ⟨rfl, rfl, rfl, rfl⟩
  · obtain ⟨endTime,_,rfl⟩ := Option.map_eq_some_iff.mp hrow
    exact ⟨rfl, rfl, rfl, rfl⟩

/-- A POST that is answered with 201 has made the row of its body. -/
theorem created_of_handle {table table' : StreamsTable} {clock clock' : Date} {generated : Uuid}
    {time : Timestamp} {stream : Stream} {accruedEstimate : Option ℚ}
    (h : handle runtime table (.create body) clock generated time clock' =
      (.stream 201 stream accruedEstimate, table')) :
    ∃ parsed data, createStreamSchema runtime body = .ok parsed ∧
      newStreamOf runtime parsed = some data ∧
      StreamRepository.create table data generated time = some (stream, table') := by
  cases hschema : createStreamSchema runtime body with
  | error fieldErrors => simp [handle, prepare, hschema] at h
  | ok parsed =>
    cases hdata : newStreamOf runtime parsed with
    | none => simp [handle, prepare, hschema, hdata, internalError] at h
    | some data =>
      cases hcreate : StreamRepository.create table data generated time with
      | none =>
        simp [handle, prepare, hschema, hdata, execute, hcreate, respond, internalError] at h
      | some created =>
        obtain ⟨stream',inserted⟩ := created
        simp only [handle, prepare, hschema, hdata, execute, hcreate, respond, Prod.mk.injEq,
          StreamsAnswer.stream.injEq] at h
        obtain ⟨⟨_,rfl,_⟩,rfl⟩ := h
        exact ⟨parsed, data, rfl, hdata, hcreate⟩

theorem prepare_patch {statement : StreamStatement}
    (h : prepare runtime now (.patch text body) = .ok statement) :
    patchIssue runtime text (orEmpty body) = none ∧
    statement = .updateById text (repositoryUpdates (orEmpty body))
      (requestedLock runtime (orEmpty body)).join now := by
  simp only [prepare] at h
  split at h
  · cases h
  · exact ⟨by assumption, (Except.ok.inj h).symm⟩

theorem prepare_patch_error {answer : StreamsAnswer}
    (h : prepare runtime now (.patch text body) = .error answer) :
    ∃ issue, answer = .error 400 issue := by
  simp only [prepare] at h
  split at h
  · exact ⟨_, (Except.error.inj h).symm⟩
  · cases h

/-- An update is answered with 200 only if it changed a row. -/
theorem updated_of_ok {table table' : StreamsTable} {generated : Uuid} {time : Timestamp}
    {clock : Date} {updates : UpdateStreamParams} {currentUpdatedAt : Option Date}
    {stream : Stream} {accruedEstimate : Option ℚ}
    (h : respond table' clock (.updateById text updates currentUpdatedAt now)
      (execute table generated time (.updateById text updates currentUpdatedAt now)).1 =
        .stream 200 stream accruedEstimate) :
    ∃ stream', (execute table generated time
      (.updateById text updates currentUpdatedAt now)).1 = .updated (some stream') := by
  simp only [execute] at h ⊢
  split at h
  · rename_i updated table'' _
    cases updated with
    | none => cases h
    | some stream' => exact ⟨stream', rfl⟩
  · cases h

end StreamPay
