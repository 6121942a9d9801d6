import StreamPay.SorobanRetries

/-! Which values the client of the Soroban RPC takes for a successful response. -/
namespace StreamPay

/-- A response of JSON-RPC 2.0 with a string for its id, whatever else it has. -/
structure IsEnvelope (value : JsonValue) : Prop where
  version : value.getString "jsonrpc".utf16 = some "2.0".utf16
  id : (value.getString "id".utf16).isSome = true

def HasNoError (value : JsonValue) : Prop :=
  value.get "error".utf16 = none ∨ value.get "error".utf16 = some (.leaf .null)

def HasResultObject (value : JsonValue) : Prop :=
  ∃ members, value.get "result".utf16 = some (.object members)

/-- A successful response of JSON-RPC 2.0. -/
structure IsSuccessResponse (value : JsonValue) : Prop extends IsEnvelope value where
  noError : HasNoError value
  result : HasResultObject value

/-- The error is one that the client looks at. -/
def HasStructuredError (value : JsonValue) : Prop :=
  ((value.get "error".utf16).any JsonValue.isObjectOrArray) = true

/-- Neither an error nor a result of a shape that the client passes over. -/
def IsPlain (value : JsonValue) : Prop :=
  HasStructuredError value ∨ (HasNoError value ∧ HasResultObject value)

theorem isObjectOrArray_of_getString {value : JsonValue} {key s : Utf16}
    (h : value.getString key = some s) : value.isObjectOrArray = true := by
  cases value with
  | leaf x => cases h
  | array items => cases h
  | object members => rfl

theorem filter_eq_none_iff_not_structured {value : JsonValue} :
    (value.get "error".utf16).filter JsonValue.isObjectOrArray = none ↔
      ¬ HasStructuredError value := by
  rw [HasStructuredError]
  cases value.get "error".utf16 with
  | none => simp
  | some error => simp

/-- A value is parsed to a success exactly if it is an envelope without a structured error. -/
theorem parseResponse_success_iff {value : JsonValue} :
    (∃ response, SorobanClient.parseResponse value = .ok (.success response)) ↔
      IsEnvelope value ∧ ¬ HasStructuredError value := by
  constructor
  · rintro ⟨response,h⟩
    unfold SorobanClient.parseResponse at h
    split_ifs at h with _ hversion
    rw [not_not] at hversion
    split at h
    · cases h
    · rename_i id hid
      have henvelope : IsEnvelope value := ⟨hversion, by rw [hid]; rfl⟩
      split at h
      · cases Except.ok.inj h
      · rename_i hnone
        exact ⟨henvelope, filter_eq_none_iff_not_structured.mp hnone⟩
  · rintro ⟨⟨hversion,hid⟩,herror⟩
    obtain ⟨id,hid⟩ := Option.isSome_iff_exists.mp hid
    -- a value with a member under a key is an object
    have hnone := filter_eq_none_iff_not_structured.mpr herror
    simp only [SorobanClient.parseResponse, isObjectOrArray_of_getString hversion, hversion, hid,
      hnone, Bool.not_true, Bool.false_eq_true, ↓reduceIte, ne_eq, not_true_eq_false]
    split
    · exact ⟨_, rfl⟩
    · exact ⟨_, rfl⟩
    · exact ⟨_, rfl⟩

theorem not_structured_of_hasNoError {value : JsonValue} (h : HasNoError value) :
    ¬ HasStructuredError value := by
  rw [HasStructuredError]
  rcases h with hnone | hnull
  · rw [hnone]
    exact Bool.false_ne_true
  · rw [hnull]
    exact Bool.false_ne_true

namespace SorobanClient

/-- With a status of the 200s the body decides. -/
theorem succeeds_response_iff (client : SorobanClient) {status : ℕ} (hlow : 200 ≤ status)
    (hhigh : status < 300) (json : JsonValue) :
    (∃ response, client.receive (.response status json) = .ok response) ↔
      IsEnvelope json ∧ ¬ HasStructuredError json := by
  have hstatus : ¬ (status < 200 ∨ 300 ≤ status) := by omega
  rw [← parseResponse_success_iff]
  simp only [receive, withTimeout, bind, Except.bind, hstatus, ↓reduceIte]
  cases parseResponse json with
  | error error =>
    refine iff_of_false ?_ ?_
    · rintro ⟨response,hresponse⟩
      cases hresponse
    · rintro ⟨response,hresponse⟩
      cases hresponse
  | ok response =>
    cases response with
    | failure id error =>
      refine iff_of_false ?_ ?_
      · rintro ⟨response,hresponse⟩
        cases hresponse
      · rintro ⟨response,hresponse⟩
        cases hresponse
    | success response => exact iff_of_true ⟨_, rfl⟩ ⟨_, rfl⟩

theorem sendTransaction_succeeds_iff (client : SorobanClient) (transaction : Utf16)
    (run : RpcRun) : (∃ result, (client.sendTransaction transaction run).2 = .ok result) ↔
      ∃ response, client.receive (run.outcome 0) = .ok response := by
  rw [sendTransaction_eq]
  simp only [answer]
  cases client.receive (run.outcome 0) with
  | error error =>
    refine iff_of_false ?_ ?_
    · rintro ⟨result,hresult⟩
      cases hresult
    · rintro ⟨response,hresponse⟩
      cases hresponse
  | ok response => exact iff_of_true ⟨_, rfl⟩ ⟨_, rfl⟩

end SorobanClient

/-- An envelope without a structured error is a successful response exactly if it is plain. -/
theorem success_response_iff {json : JsonValue} :
    ((IsEnvelope json ∧ ¬ HasStructuredError json) ↔ IsSuccessResponse json) ↔
      (IsEnvelope json → IsPlain json) := by
  constructor
  · intro h henvelope
    by_cases hstructured : HasStructuredError json
    · exact Or.inl hstructured
    · -- the client takes it for a success, so it has to be one
      have hsuccess := h.mp ⟨henvelope, hstructured⟩
      exact Or.inr ⟨hsuccess.noError, hsuccess.result⟩
  · intro h
    constructor
    · rintro ⟨henvelope,hstructured⟩
      rcases h henvelope with hlooked | ⟨hnoError,hresult⟩
      · exact absurd hlooked hstructured
      · exact ⟨henvelope, hnoError, hresult⟩
    · intro hsuccess
      exact ⟨hsuccess.toIsEnvelope, not_structured_of_hasNoError hsuccess.noError⟩

/-- A body with a status of the 200s counts as a success exactly if it is a successful
response, unless it is an envelope whose error or result is passed over; and so for
the transactions that are sent. -/
theorem responses_recognised_iff (client : SorobanClient) (status : ℕ) (hlow : 200 ≤ status)
    (hhigh : status < 300) (json : JsonValue) :
    (((∃ response, client.receive (.response status json) = .ok response) ↔
        IsSuccessResponse json) ↔ (IsEnvelope json → IsPlain json)) ∧
    ∀ transaction run, run.outcome 0 = .response status json →
      (((∃ result, (client.sendTransaction transaction run).2 = .ok result) ↔
        IsSuccessResponse json) ↔ (IsEnvelope json → IsPlain json)) := by
  have hreceived := client.succeeds_response_iff hlow hhigh json
  constructor
  · rw [hreceived]
    exact success_response_iff
  · intro transaction run hrun
    rw [client.sendTransaction_succeeds_iff, hrun, hreceived]
    exact success_response_iff

/-- A response with this member besides the version and the id. -/
def responseWith (key : String) (value : JsonValue) : JsonValue :=
  .object [("jsonrpc".utf16, .leaf (.string "2.0".utf16)), ("id".utf16, .leaf (.string "1".utf16)),
    (key.utf16, value)]

def testnetClient : SorobanClient :=
  .ofConfig { rpcUrl := "https://soroban-testnet.stellar.org".utf16
              networkPassphrase := "Test SDF Network ; September 2015".utf16 }

def runOf (outcome : HttpOutcome) : RpcRun := ⟨fun _ => "1".utf16, fun _ => outcome⟩

theorem empty_result_recognised :
    (((∃ response, testnetClient.receive
          (.response 200 (responseWith "result" (.object []))) = .ok response) ↔
        IsSuccessResponse (responseWith "result" (.object []))) ↔
      (IsEnvelope (responseWith "result" (.object [])) →
        IsPlain (responseWith "result" (.object [])))) ∧
    (((∃ result, (testnetClient.sendTransaction "AAAA".utf16
          (runOf (.response 200 (responseWith "result" (.object []))))).2 = .ok result) ↔
        IsSuccessResponse (responseWith "result" (.object []))) ↔
      (IsEnvelope (responseWith "result" (.object [])) →
        IsPlain (responseWith "result" (.object [])))) := by
  have hall := responses_recognised_iff testnetClient 200 (by decide) (by decide)
    (responseWith "result" (.object []))
  exact ⟨hall.1, hall.2 _ (runOf _) rfl⟩

/-- A transaction that the server turns down with a text for an error counts as sent. -/
theorem text_error_taken_for_success :
    ¬ ∀ (client : SorobanClient) (status : ℕ) (json : JsonValue) (transaction : Utf16)
      (run : RpcRun), 200 ≤ status → status < 300 → run.outcome 0 = .response status json →
      ((∃ result, (client.sendTransaction transaction run).2 = .ok result) ↔
        IsSuccessResponse json) := by
  intro h
  obtain ⟨json,hjson⟩ : ∃ json, responseWith "error" (.leaf (.string "overloaded".utf16)) = json :=
    ⟨_, rfl⟩
  have henvelope : IsEnvelope json := by
    subst hjson
    exact ⟨by decide, by decide⟩
  have hpassedOver : ¬ HasStructuredError json := by
    subst hjson
    exact Bool.false_ne_true
  have hnone : json.get "result".utf16 = none := by
    subst hjson
    rfl
  have hreceived := (@SorobanClient.succeeds_response_iff testnetClient 200 (by decide)
    (by decide) json).mpr ⟨henvelope, hpassedOver⟩
  have hsent := (testnetClient.sendTransaction_succeeds_iff "AAAA".utf16
    (runOf (.response 200 json))).mpr hreceived
  have hsuccess := (h testnetClient 200 json "AAAA".utf16 (runOf (.response 200 json))
    (by decide) (by decide) rfl).mp hsent
  obtain ⟨members,hresult⟩ := hsuccess.result
  rw [hnone] at hresult
  cases hresult

end StreamPay
