import StreamPay.Library.FormText
import StreamPay.Library.JsonValue
import StreamPay.TransactionService

/-! The client that posts signed transactions to Horizon, and what a server that parses the
form reads of them. -/
namespace StreamPay
open FormText

structure FetchInit where
  method : Utf16
  headers : List (Utf16 × Utf16)
  body : Utf16

structure FetchResponse where
  ok : Bool
  status : ℕ
  /-- The body, where it is JSON. -/
  json : Option JsonValue

/-- `globalThis.fetch`: its promise is rejected where no response comes. -/
abbrev GlobalFetch := Utf16 → FetchInit → Except Thrown FetchResponse

structure HorizonSubmissionResult where
  hash : Utf16
  ledger : Option JsonNumber
  raw : Option JsonValue

structure HorizonNetworkClient where
  baseUrl : Utf16

namespace HorizonNetworkClient

/-- `typeof payload === "object"`, arrays included. -/
def asObject : JsonValue → Option JsonValue
  | .leaf _ => none
  | payload => some payload

def readPayload (json : Option JsonValue) : HorizonSubmissionResult :=
  let parsedPayload := json.bind asObject
  { hash := (parsedPayload.bind (·.getString "hash".utf16)).getD "unknown".utf16
    ledger := parsedPayload.bind (·.getNumber "ledger".utf16)
    raw := parsedPayload }

/-- What a submission tells: the hash and the ledger of a payload that is an object, so far as
they are a string and a number, and the payload itself. -/
inductive Reads : Option JsonValue → HorizonSubmissionResult → Prop
  | object {payload : JsonValue} (hobject : payload.isObjectOrArray = true) :
    Reads (some payload) ⟨(payload.getString "hash".utf16).getD "unknown".utf16,
      payload.getNumber "ledger".utf16, some payload⟩
  | other {json : Option JsonValue}
      (hother : ∀ payload, json = some payload → payload.isObjectOrArray = false) :
    Reads json ⟨"unknown".utf16, none, none⟩

theorem eq_readPayload_iff {json : Option JsonValue} {result : HorizonSubmissionResult} :
    result = readPayload json ↔ Reads json result := by
  constructor
  · rintro rfl
    cases json with
    | none => exact .other fun _ hnone => by cases hnone
    | some payload =>
      cases payload with
      | leaf x => exact .other fun _ hleaf => Option.some.inj hleaf ▸ rfl
      | array items => exact .object rfl
      | object members => exact .object rfl
  · intro h
    cases h with
    | @object payload hobject =>
      cases payload with
      | leaf x => cases hobject
      | array items => rfl
      | object members => rfl
    | other hother =>
      cases json with
      | none => rfl
      | some payload =>
        cases payload with
        | leaf x => rfl
        | array items => cases hother _ rfl
        | object members => cases hother _ rfl

/-- Without one slash at the end. -/
def base (client : HorizonNetworkClient) : Utf16 :=
  if client.baseUrl.getLast? = some 0x2F then client.baseUrl.dropLast else client.baseUrl

def endpoint (client : HorizonNetworkClient) : Utf16 := client.base ++ "/transactions".utf16

def postForm (body : Utf16) : FetchInit where
  method := "POST".utf16
  headers := [("Content-Type".utf16, "application/x-www-form-urlencoded".utf16)]
  body := body

/-- The request that is sent, or the error before there is one. -/
def request (client : HorizonNetworkClient) (globalFetch : Option GlobalFetch)
    (signedXdr : Utf16) : Except Thrown (GlobalFetch × Utf16 × FetchInit) :=
  match encodeURIComponent signedXdr with
  | none => .error (.error "URI malformed".utf16)
  | some encoded =>
    match globalFetch with
    | none =>
      .error (.error "Global fetch is unavailable in the runtime environment.".utf16)
    | some globalFetch => .ok (globalFetch, client.endpoint, postForm ("tx=".utf16 ++ encoded))

def submitSignedTransaction (client : HorizonNetworkClient) (globalFetch : Option GlobalFetch)
    (signedXdr : Utf16) : Except Thrown HorizonSubmissionResult := do
  let (globalFetch, endpoint, init) ← client.request globalFetch signedXdr
  let response ← globalFetch endpoint init
  if !response.ok then
    .error (.error ("Network rejected transaction with status ".utf16 ++
      (toString response.status).utf16))
  else .ok (readPayload response.json)

theorem endpoint_eq {client : HorizonNetworkClient} {base : Utf16}
    (hbase : base.getLast? ≠ some 0x2F)
    (h : client.baseUrl = base ∨ client.baseUrl = base ++ [0x2F]) :
    client.endpoint = base ++ "/transactions".utf16 := by
  rcases h with h | h
  · rw [endpoint, HorizonNetworkClient.base, h, if_neg hbase]
  · rw [endpoint, HorizonNetworkClient.base, h, List.getLast?_concat, if_pos rfl,
      List.dropLast_concat]

/-- A server that parses the form has the transaction as it was signed. -/
theorem form_of_encodeURIComponent (cs : List Char) :
    ∃ encoded, encodeURIComponent (cs.flatMap Char.utf16) = some encoded ∧
      (utf8Bytes ("tx=".utf16 ++ encoded)).bind formPairs = some [("tx".toList, cs)] := by
  have hencoded : encodeURIComponent (cs.flatMap Char.utf16) =
      some ((cs.flatMap encodeChar).flatMap Char.utf16) := by
    rw [encodeURIComponent, Utf16.chars_flatMap, Option.map_some]
  have hname : "tx".toList.all isUnreserved = true := by decide
  obtain ⟨cs',hcs,hform⟩ := formPairs_of_encodeURIComponent hencoded (List.all_eq_true.mp hname)
  rw [Utf16.chars_flatMap] at hcs
  obtain rfl := Option.some.inj hcs
  exact ⟨_, hencoded, hform⟩

theorem submit_of_request {client : HorizonNetworkClient} {globalFetch : Option GlobalFetch}
    {signedXdr url : Utf16} {fetch : GlobalFetch} {init : FetchInit}
    (h : client.request globalFetch signedXdr = .ok (fetch, url, init))
    (result : HorizonSubmissionResult) :
    client.submitSignedTransaction globalFetch signedXdr = .ok result ↔
      ∃ response, fetch url init = .ok response ∧ response.ok = true ∧
        Reads response.json result := by
  have hrun : client.submitSignedTransaction globalFetch signedXdr = (fetch url init).bind
      fun response => if !response.ok then .error (.error
        ("Network rejected transaction with status ".utf16 ++ (toString response.status).utf16))
      else .ok (readPayload response.json) := by
    rw [submitSignedTransaction, h]
    rfl
  simp only [hrun, ← eq_readPayload_iff]
  cases fetch url init with
  | error cause =>
    constructor
    · intro hresult
      cases hresult
    · rintro ⟨response,hresponse,_⟩
      cases hresponse
  | ok response =>
    change (if !response.ok then _ else _) = _ ↔ _
    cases hok : response.ok with
    | false =>
      constructor
      · intro hresult
        cases hresult
      · rintro ⟨response',hresponse,hok',_⟩
        rw [← Except.ok.inj hresponse, hok] at hok'
        cases hok'
    | true =>
      constructor
      · intro hresult
        exact ⟨response, rfl, hok, (Except.ok.inj hresult).symm⟩
      · rintro ⟨response',hresponse,_,rfl⟩
        rw [Except.ok.inj hresponse]
        rfl

/-- Every transaction that is made of characters, with separators and all, reaches the form
parser of the server as the only pair; the others are never sent. -/
theorem server_reads_what_was_signed (client : HorizonNetworkClient)
    (globalFetch : Option GlobalFetch) (signedXdr : Utf16) {base : Utf16}
    (hbase : base.getLast? ≠ some 0x2F)
    (hurl : client.baseUrl = base ∨ client.baseUrl = base ++ [0x2F]) :
    (∀ cs fetch, signedXdr = cs.flatMap Char.utf16 → globalFetch = some fetch →
      ∃ init, client.request globalFetch signedXdr =
          .ok (fetch, base ++ "/transactions".utf16, init) ∧
        init.method = "POST".utf16 ∧
        (utf8Bytes init.body).bind formPairs = some [("tx".toList, cs)] ∧
        ∀ result, client.submitSignedTransaction globalFetch signedXdr = .ok result ↔
          ∃ response, fetch (base ++ "/transactions".utf16) init = .ok response ∧
            response.ok = true ∧ Reads response.json result) ∧
    ((¬∃ cs : List Char, signedXdr = cs.flatMap Char.utf16) ∨ globalFetch = none →
      ∃ cause, client.request globalFetch signedXdr = .error cause ∧
        client.submitSignedTransaction globalFetch signedXdr = .error cause) := by
  constructor
  · rintro cs fetch rfl rfl
    obtain ⟨encoded,hencoded,hform⟩ := form_of_encodeURIComponent cs
    have hrequest : client.request (some fetch) (cs.flatMap Char.utf16) =
        .ok (fetch, base ++ "/transactions".utf16, postForm ("tx=".utf16 ++ encoded)) := by
      rw [request, hencoded, endpoint_eq hbase hurl]
    exact ⟨_, hrequest, rfl, hform, submit_of_request hrequest⟩
  · intro hnever
    have herror : ∃ cause, client.request globalFetch signedXdr = .error cause := by
      unfold request
      cases hencoded : encodeURIComponent signedXdr with
      | none => exact ⟨_, rfl⟩
      | some encoded =>
        rcases hnever with hsurrogate | hnone
        · -- what is encoded is made of characters
          obtain ⟨cs,hcs,_⟩ := Option.map_eq_some_iff.mp hencoded
          exact absurd ⟨cs, (Utf16.flatMap_of_chars hcs).symm⟩ hsurrogate
        · rw [hnone]
          exact ⟨_, rfl⟩
    obtain ⟨cause,hcause⟩ := herror
    refine ⟨cause, hcause, ?_⟩
    rw [submitSignedTransaction, hcause]
    rfl

/-- A transaction with separators in it, to a server that tells its hash. -/
theorem server_reads_ampersands : ∃ init,
    HorizonNetworkClient.request ⟨"https://horizon/".utf16⟩
      (some fun _ _ => .ok ⟨true, 200, none⟩) "a&tx=b+c%2B".utf16 =
        .ok (fun _ _ => .ok ⟨true, 200, none⟩, "https://horizon/transactions".utf16, init) ∧
      (utf8Bytes init.body).bind formPairs = some [("tx".toList, "a&tx=b+c%2B".toList)] := by
  have hread := @server_reads_what_was_signed ⟨"https://horizon/".utf16⟩
    (some fun _ _ => .ok ⟨true, 200, none⟩) "a&tx=b+c%2B".utf16 "https://horizon".utf16
    (by decide) (Or.inr (by decide))
  obtain ⟨init,hrequest,_,hform,_⟩ := hread.1 "a&tx=b+c%2B".toList _ rfl rfl
  exact ⟨init, hrequest, hform⟩

end HorizonNetworkClient
end StreamPay
