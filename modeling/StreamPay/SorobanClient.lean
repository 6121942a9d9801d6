import StreamPay.Library.JsonText
import StreamPay.Library.JsonValue

/-! The client of the Soroban RPC: what it takes for a response, and how it sends again. -/

namespace StreamPay

structure SorobanClientConfig where
  rpcUrl : Utf16
  networkPassphrase : Utf16
  timeoutMs : Option ℕ := none
  maxRetries : Option ℕ := none
  baseDelayMs : Option ℚ := none

structure SorobanClient where
  rpcUrl : Utf16
  networkPassphrase : Utf16
  timeoutMs : ℕ
  maxRetries : ℕ
  baseDelayMs : ℚ

structure HttpAdapterRequest where
  url : Utf16
  method : String
  headers : List (String × Utf16)
  /-- The value whose JSON text is the body. -/
  payload : JsonValue
  timeoutMs : ℕ

/-- What becomes of a send until the timer of the client rings. -/
inductive HttpOutcome
  | response (status : ℕ) (json : JsonValue)
  | rejected (reason : Thrown)
  | timedOut

structure JsonRpcError where
  code : JsonNumber
  message : Utf16
  data : Option JsonValue

structure JsonRpcSuccess where
  id : Utf16
  result : JsonValue

inductive JsonRpcResponse
  | success (response : JsonRpcSuccess)
  | failure (id : Utf16) (error : JsonRpcError)

structure RpcOptions where
  retry : Bool
  idempotentRead : Bool

/-- What a call of the client does to the outside. -/
inductive RpcEffect
  | send (request : HttpAdapterRequest)
  | wait (ms : ℚ)

/-- The request ids that a call draws and what becomes of its sends, in order. -/
structure RpcRun where
  requestId : ℕ → Utf16
  outcome : ℕ → HttpOutcome

def numberText : JsonNumber → Utf16
  | .finite x => x.text.map JsonText.unit
  | .infinity negative => (if negative then "-Infinity" else "Infinity").utf16

/-- The milliseconds after which a timer of Node.js rings: a delay that is below 1 or does not
fit into 31 bits counts as 1, any other is truncated. -/
def setTimeout (delay : ℚ) : ℕ :=
  if 1 ≤ delay ∧ delay ≤ 2147483647 then delay.floor.toNat else 1

/-- The number `-1`. -/
def minusOne : Double := ⟨-2^1074, by decide +kernel, by decide +kernel⟩

namespace SorobanClient

def ofConfig (config : SorobanClientConfig) : SorobanClient where
  rpcUrl := config.rpcUrl
  networkPassphrase := config.networkPassphrase
  timeoutMs := config.timeoutMs.getD 8000
  maxRetries := config.maxRetries.getD 3
  baseDelayMs := config.baseDelayMs.getD 200

def parseResponse (value : JsonValue) : Except Thrown JsonRpcResponse :=
  if !value.isObjectOrArray then .error (.error "Invalid JSON-RPC response format".utf16)
  else if value.getString "jsonrpc".utf16 ≠ some "2.0".utf16 then
    .error (.error "Unexpected JSON-RPC version".utf16)
  else match value.getString "id".utf16 with
    | none => .error (.error "Missing JSON-RPC response id".utf16)
    | some id =>
      match (value.get "error".utf16).filter JsonValue.isObjectOrArray with
      | some rpcError => .ok (.failure id {
          code := (rpcError.getNumber "code".utf16).getD (.finite minusOne)
          message := (rpcError.getString "message".utf16).getD
            "Unknown RPC error".utf16
          data := rpcError.get "data".utf16 })
      | none =>
        -- a missing or null result becomes an empty object, any other is kept
        match value.get "result".utf16 with
        | none | some (.leaf .null) => .ok (.success ⟨id, .object []⟩)
        | some result => .ok (.success ⟨id, result⟩)

/-- What a send yields before the timer rings. -/
def withTimeout (timeoutMs : ℕ) : HttpOutcome → Except Thrown (ℕ × JsonValue)
  | .response status json => .ok (status, json)
  | .rejected reason => .error reason
  | .timedOut => .error (.error s!"Request timed out after {timeoutMs}ms".utf16)

/-- One pass through the `try` block, once the request has been sent. -/
def receive (client : SorobanClient) (outcome : HttpOutcome) : Except Thrown JsonRpcSuccess := do
  let (status,json) ← withTimeout client.timeoutMs outcome
  if status < 200 ∨ 300 ≤ status then throw (.error s!"Soroban RPC HTTP {status}".utf16)
  match ← parseResponse json with
  | .failure _ error =>
    throw (.error ("Soroban RPC ".utf16 ++ numberText error.code ++ ": ".utf16 ++ error.message))
  | .success response => return response

def backoffDelayForAttempt (client : SorobanClient) (attempt : ℕ) : ℚ :=
  client.baseDelayMs*2^(attempt-1)

def sleep (ms : ℚ) : RpcEffect := .wait (setTimeout ms)

def toSafeError (method : String) (error : Thrown) (idempotentRead : Bool) : Utf16 :=
  let detail := match error with
    | .error message => message
    | .other => "Unknown error".utf16
  let operationType := if idempotentRead then "idempotent read" else "write"
  s!"Soroban RPC {method} failed ({operationType}): ".utf16 ++ detail

def request (client : SorobanClient) (method : String) (params : List (Utf16 × JsonValue))
    (requestId : Utf16) : HttpAdapterRequest where
  url := client.rpcUrl
  method := "POST"
  headers := [("content-type", "application/json".utf16),
    ("x-network-passphrase", client.networkPassphrase)]
  payload := .object [("jsonrpc".utf16, .leaf (.string "2.0".utf16)),
    ("id".utf16, .leaf (.string requestId)), ("method".utf16, .leaf (.string method.utf16)),
    ("params".utf16, .object params)]
  timeoutMs := client.timeoutMs

/-- The loop with so many attempts left, after some. -/
def attempts (client : SorobanClient) (method : String) (params : List (Utf16 × JsonValue))
    (idempotentRead : Bool) (attemptLimit : ℕ) (run : RpcRun) :
    ℕ → ℕ → List RpcEffect × Except Utf16 JsonRpcSuccess
  | 0, _ => ([], .error "Unreachable retry state".utf16)
  | left+1, attempt =>
    let sent := RpcEffect.send (client.request method params (run.requestId attempt))
    match client.receive (run.outcome attempt) with
    | .ok response => ([sent], .ok response)
    | .error error =>
      let attempt := attempt+1
      if attempt ≥ attemptLimit then ([sent], .error (toSafeError method error idempotentRead))
      else
        let (effects,result) :=
          client.attempts method params idempotentRead attemptLimit run left attempt
        (sent :: sleep (client.backoffDelayForAttempt attempt) :: effects, result)

def rpcCall (client : SorobanClient) (method : String) (params : List (Utf16 × JsonValue))
    (options : RpcOptions) (run : RpcRun) : List RpcEffect × Except Utf16 JsonRpcSuccess :=
  let attemptLimit := if options.retry then client.maxRetries+1 else 1
  client.attempts method params options.idempotentRead attemptLimit run attemptLimit 0

end SorobanClient

structure SimulateContractCallResult where
  id : Utf16
  latestLedger : Option JsonNumber
  transactionData : Option Utf16
  minResourceFee : Option Utf16
  raw : JsonValue

structure SendTransactionResult where
  id : Utf16
  hash : Option Utf16
  status : Option Utf16
  raw : JsonValue

structure GetLedgerEntryResult where
  id : Utf16
  latestLedger : Option JsonNumber
  entries : Option (List JsonValue)
  raw : JsonValue

def SimulateContractCallResult.ofResponse (response : JsonRpcSuccess) :
    SimulateContractCallResult where
  id := response.id
  latestLedger := response.result.getNumber "latestLedger".utf16
  transactionData := response.result.getString "transactionData".utf16
  minResourceFee := response.result.getString "minResourceFee".utf16
  raw := response.result

def SendTransactionResult.ofResponse (response : JsonRpcSuccess) : SendTransactionResult where
  id := response.id
  hash := response.result.getString "hash".utf16
  status := response.result.getString "status".utf16
  raw := response.result

def GetLedgerEntryResult.ofResponse (response : JsonRpcSuccess) : GetLedgerEntryResult where
  id := response.id
  latestLedger := response.result.getNumber "latestLedger".utf16
  entries := response.result.getArray "entries".utf16
  raw := response.result

namespace SorobanClient

def simulateContractCall (client : SorobanClient) (transaction : Utf16)
    (resourceConfig : Option JsonValue) (run : RpcRun) :
    List RpcEffect × Except Utf16 SimulateContractCallResult :=
  -- an undefined member is left out of the body
  let params := ("transaction".utf16, JsonValue.leaf (.string transaction)) ::
    (resourceConfig.map fun config => ("resourceConfig".utf16, config)).toList
  let (effects,result) := client.rpcCall "simulateTransaction" params ⟨true, true⟩ run
  (effects, result.map .ofResponse)

def sendTransaction (client : SorobanClient) (transaction : Utf16) (run : RpcRun) :
    List RpcEffect × Except Utf16 SendTransactionResult :=
  let params := [("transaction".utf16, JsonValue.leaf (.string transaction))]
  let (effects,result) := client.rpcCall "sendTransaction" params ⟨false, false⟩ run
  (effects, result.map .ofResponse)

def getLedgerEntry (client : SorobanClient) (key : Utf16) (run : RpcRun) :
    List RpcEffect × Except Utf16 GetLedgerEntryResult :=
  let params := [("keys".utf16, JsonValue.array [.leaf (.string key)])]
  let (effects,result) := client.rpcCall "getLedgerEntries" params ⟨true, true⟩ run
  (effects, result.map .ofResponse)

end SorobanClient

end StreamPay
