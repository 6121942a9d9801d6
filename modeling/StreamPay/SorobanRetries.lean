import Mathlib.Data.ENat.Lattice
import StreamPay.SorobanClient

/-! How often the client of the Soroban RPC sends a request, and how long it waits in between. -/
namespace StreamPay
namespace SorobanClient

/-- What a send comes to: the response, or the detail of the error if there is none. -/
inductive Reply (client : SorobanClient) : HttpOutcome → Except Utf16 JsonRpcSuccess → Prop
  | exception (message : Utf16) : Reply client (.rejected (.error message)) (.error message)
  | thrownValue : Reply client (.rejected .other) (.error "Unknown error".utf16)
  | timeout :
    Reply client .timedOut (.error s!"Request timed out after {client.timeoutMs}ms".utf16)
  | status {status : ℕ} (json : JsonValue) (hstatus : status < 200 ∨ 300 ≤ status) :
    Reply client (.response status json) (.error s!"Soroban RPC HTTP {status}".utf16)
  | rejected {status : ℕ} {json : JsonValue} {message : Utf16} (hlow : 200 ≤ status)
      (hhigh : status < 300) (hparse : parseResponse json = .error (.error message)) :
    Reply client (.response status json) (.error message)
  | rpcError {status : ℕ} {json : JsonValue} {id : Utf16} {error : JsonRpcError}
      (hlow : 200 ≤ status) (hhigh : status < 300)
      (hparse : parseResponse json = .ok (.failure id error)) :
    Reply client (.response status json) (.error
      ("Soroban RPC ".utf16 ++ numberText error.code ++ ": ".utf16 ++ error.message))
  | success {status : ℕ} {json : JsonValue} {response : JsonRpcSuccess} (hlow : 200 ≤ status)
      (hhigh : status < 300) (hparse : parseResponse json = .ok (.success response)) :
    Reply client (.response status json) (.ok response)

/-- A status of the 200s, with a body that is parsed to a response without an error. -/
def Succeeds (outcome : HttpOutcome) : Prop :=
  ∃ status json response, outcome = .response status json ∧ 200 ≤ status ∧ status < 300 ∧
    parseResponse json = .ok (.success response)

/-- The position of the first send that succeeds, counted from 1; infinite if none does. -/
noncomputable def firstSuccess (run : RpcRun) : ℕ∞ :=
  ⨅ n : {n : ℕ // Succeeds (run.outcome n)}, ((n : ℕ) : ℕ∞)+1

/-- Sends up to number `n`, counted from 0, with a wait behind each but the last. -/
def sendTrace (client : SorobanClient) (method : String) (params : List (Utf16 × JsonValue))
    (run : RpcRun) (waits : ℕ → ℚ) (n : ℕ) : List RpcEffect :=
  .send (client.request method params (run.requestId 0)) ::
    (List.range n).flatMap fun i => [.wait (waits i),
      .send (client.request method params (run.requestId (i+1)))]

/-- Reads are sent until the first success, at most once more than there are retries, with
these waits in between; a transaction is sent once. The caller gets what the last send comes to. -/
structure SendsUntilSuccess (client : SorobanClient) (run : RpcRun) (waits : ℕ → ℚ)
    (n : ℕ) : Prop where
  count : (n : ℕ∞)+1 = min (firstSuccess run) (client.maxRetries+1)
  simulate : ∃ reply, Reply client (run.outcome n) reply ∧
    ∀ transaction resourceConfig, client.simulateContractCall transaction resourceConfig run =
      (client.sendTrace "simulateTransaction"
          (("transaction".utf16, .leaf (.string transaction)) ::
            (resourceConfig.map fun config => ("resourceConfig".utf16, config)).toList) run waits n,
        match reply with
        | .ok response => .ok {
            id := response.id
            latestLedger := response.result.getNumber "latestLedger".utf16
            transactionData := response.result.getString "transactionData".utf16
            minResourceFee := response.result.getString "minResourceFee".utf16
            raw := response.result }
        | .error detail => .error
          ("Soroban RPC simulateTransaction failed (idempotent read): ".utf16 ++ detail))
  ledgerEntry : ∃ reply, Reply client (run.outcome n) reply ∧
    ∀ key, client.getLedgerEntry key run =
      (client.sendTrace "getLedgerEntries" [("keys".utf16, .array [.leaf (.string key)])] run
          waits n,
        match reply with
        | .ok response => .ok {
            id := response.id
            latestLedger := response.result.getNumber "latestLedger".utf16
            entries := response.result.getArray "entries".utf16
            raw := response.result }
        | .error detail => .error
          ("Soroban RPC getLedgerEntries failed (idempotent read): ".utf16 ++ detail))
  transaction : ∃ reply, Reply client (run.outcome 0) reply ∧
    ∀ transaction, client.sendTransaction transaction run =
      ([.send (client.request "sendTransaction"
          [("transaction".utf16, .leaf (.string transaction))] (run.requestId 0))],
        match reply with
        | .ok response => .ok {
            id := response.id
            hash := response.result.getString "hash".utf16
            status := response.result.getString "status".utf16
            raw := response.result }
        | .error detail => .error
          ("Soroban RPC sendTransaction failed (write): ".utf16 ++ detail))

/-- The delays that come up before the last send: whole milliseconds that fit into 31 bits. -/
def DelaysFit (client : SorobanClient) (run : RpcRun) : Prop :=
  ∀ i : ℕ, (i : ℕ∞)+1 < min (firstSuccess run) (client.maxRetries+1) →
    ∃ ms : ℕ, client.baseDelayMs*2^i = ms ∧ 0 < ms ∧ ms ≤ 2147483647

/-- The text that an error leaves in that of the client. -/
def detail : Thrown → Utf16
  | .error message => message
  | .other => "Unknown error".utf16

/-- What the caller gets of the last send: its response, or its error in the words of the client. -/
def answer (client : SorobanClient) (method : String) (idempotentRead : Bool)
    (outcome : HttpOutcome) : Except Utf16 JsonRpcSuccess :=
  (client.receive outcome).mapError fun error => toSafeError method error idempotentRead

variable {client : SorobanClient} {method : String} {params : List (Utf16 × JsonValue)}
  {idempotentRead : Bool} {attemptLimit : ℕ} {run : RpcRun}

theorem receive_response {status : ℕ} (json : JsonValue) (hlow : 200 ≤ status)
    (hhigh : status < 300) :
    client.receive (.response status json) = (parseResponse json).bind fun
      | .failure _ error => .error (.error
        ("Soroban RPC ".utf16 ++ numberText error.code ++ ": ".utf16 ++ error.message))
      | .success response => .ok response := by
  have hstatus : ¬ (status < 200 ∨ 300 ≤ status) := by omega
  simp only [receive, withTimeout, bind, Except.bind, hstatus, ↓reduceIte]
  cases parseResponse json with
  | error cause => rfl
  | ok parsed =>
    cases parsed with
    | failure id error => rfl
    | success response => rfl

theorem receive_status {status : ℕ} (json : JsonValue) (hstatus : status < 200 ∨ 300 ≤ status) :
    client.receive (.response status json) =
      .error (.error s!"Soroban RPC HTTP {status}".utf16) := by
  simp only [receive, withTimeout, bind, Except.bind, hstatus, ↓reduceIte]
  rfl

theorem parseResponse_error {json : JsonValue} {cause : Thrown}
    (h : parseResponse json = .error cause) : ∃ message, cause = .error message := by
  unfold parseResponse at h
  split_ifs at h with _ _
  · exact ⟨_, (Except.error.inj h).symm⟩
  · exact ⟨_, (Except.error.inj h).symm⟩
  · split at h
    · exact ⟨_, (Except.error.inj h).symm⟩
    · split at h
      · cases h
      · split at h <;> cases h

/-- What is received of a send is what the send comes to. -/
theorem reply_receive (client : SorobanClient) (outcome : HttpOutcome) :
    Reply client outcome ((client.receive outcome).mapError detail) := by
  cases outcome with
  | timedOut => exact .timeout
  | rejected reason =>
    cases reason with
    | error message => exact .exception message
    | other => exact .thrownValue
  | response status json =>
    by_cases hstatus : status < 200 ∨ 300 ≤ status
    · rw [receive_status json hstatus]
      exact .status json hstatus
    · have hlow : 200 ≤ status := by omega
      have hhigh : status < 300 := by omega
      rw [receive_response json hlow hhigh]
      cases hparse : parseResponse json with
      | error cause =>
        obtain ⟨message,rfl⟩ := parseResponse_error hparse
        exact .rejected hlow hhigh hparse
      | ok parsed =>
        cases parsed with
        | failure id error => exact .rpcError hlow hhigh hparse
        | success response => exact .success hlow hhigh hparse

theorem receive_ok_iff {outcome : HttpOutcome} :
    (∃ response, client.receive outcome = .ok response) ↔ Succeeds outcome := by
  constructor
  · rintro ⟨response,h⟩
    have hreply := client.reply_receive outcome
    rw [h] at hreply
    cases hreply with
    | success hlow hhigh hparse => exact ⟨_, _, _, rfl, hlow, hhigh, hparse⟩
  · rintro ⟨status,json,response,rfl,hlow,hhigh,hparse⟩
    exact ⟨response, by rw [receive_response json hlow hhigh, hparse]; rfl⟩

/-- The attempts from a failed one on go up to one that succeeds, or to the limit. -/
theorem attempts_eq {n left attempt : ℕ}
    (hfailed : ∀ i < n, ¬ Succeeds (run.outcome (attempt+i)))
    (hlast : Succeeds (run.outcome (attempt+n)) ∨ attempt+n+1 = attemptLimit)
    (hleft : attempt+left = attemptLimit) (hn : n < left) :
    client.attempts method params idempotentRead attemptLimit run left attempt =
      (.send (client.request method params (run.requestId attempt)) ::
          (List.range n).flatMap (fun i => [sleep (client.baseDelayMs*2^(attempt+i)),
            .send (client.request method params (run.requestId (attempt+i+1)))]),
        client.answer method idempotentRead (run.outcome (attempt+n))) := by
  -- on the number of failures that are left
  induction n generalizing left attempt with
  | zero =>
    obtain ⟨left,rfl⟩ : ∃ l, left = l+1 := ⟨left-1, by omega⟩
    rw [attempts, answer, Nat.add_zero]
    cases hreceive : client.receive (run.outcome attempt) with
    | ok response => rfl
    | error error =>
      have hlimit : attempt+1 ≥ attemptLimit := by
        rcases hlast with hsucceeds | hlimit
        · rw [Nat.add_zero, ← receive_ok_iff, hreceive] at hsucceeds
          obtain ⟨response,hresponse⟩ := hsucceeds
          cases hresponse
        · omega
      dsimp only
      rw [if_pos hlimit]
      rfl
  | succ n ih =>
    obtain ⟨left,rfl⟩ : ∃ l, left = l+1 := ⟨left-1, by omega⟩
    have hnext : attempt+1+n = attempt+(n+1) := by omega
    have hrest := @ih left (attempt+1)
      (fun i hi => by
        have hlater := hfailed (i+1) (Nat.succ_lt_succ hi)
        rwa [show attempt+1+i = attempt+(i+1) by omega])
      (by rwa [hnext]) (by omega) (by omega)
    rw [hnext] at hrest
    have hfirst := hfailed 0 (Nat.succ_pos n)
    rw [Nat.add_zero] at hfirst
    rw [attempts]
    cases hreceive : client.receive (run.outcome attempt) with
    | ok response => exact absurd (receive_ok_iff.mp ⟨response, hreceive⟩) hfirst
    | error error =>
      have hmore : ¬ attempt+1 ≥ attemptLimit := by omega
      dsimp only
      rw [if_neg hmore, hrest]
      -- the waits and sends behind the next attempt are those of this one, moved on by one
      have hshift (i : ℕ) : attempt+1+i = attempt+(i+1) := by omega
      rw [List.range_succ_eq_map, List.flatMap_cons, List.flatMap_map]
      simp only [hshift, Nat.add_zero, backoffDelayForAttempt, Nat.add_sub_cancel,
        List.cons_append, List.nil_append, Nat.succ_eq_add_one]

/-- The first success comes at the first send of which it holds, or not within the retries. -/
theorem min_firstSuccess {n retries : ℕ} (hfailed : ∀ i < n, ¬ Succeeds (run.outcome i))
    (hlast : Succeeds (run.outcome n) ∨ n = retries) (hle : n ≤ retries) :
    min (firstSuccess run) (retries+1) = (n : ℕ∞)+1 := by
  have hlow (m : ℕ) (hm : ∀ i < m, ¬ Succeeds (run.outcome i)) :
      (m : ℕ∞)+1 ≤ firstSuccess run := by
    refine le_iInf fun success => ?_
    have hge : m ≤ success.1 := by
      by_contra hlt
      exact hm success.1 (not_le.mp hlt) success.2
    exact add_le_add_left (Nat.cast_le.mpr hge) 1
  apply le_antisymm
  · rcases hlast with hsucceeds | rfl
    · exact min_le_of_left_le (iInf_le_of_le ⟨n, hsucceeds⟩ le_rfl)
    · exact min_le_right _ _
  · exact le_min (hlow n hfailed) (add_le_add_left (Nat.cast_le.mpr hle) 1)

/-- A call with so many retries: how far it gets. -/
theorem attempts_up_to (client : SorobanClient) (run : RpcRun) (retries : ℕ) :
    ∃ n : ℕ, (n : ℕ∞)+1 = min (firstSuccess run) (retries+1) ∧
      ∀ method params idempotentRead,
        client.attempts method params idempotentRead (retries+1) run (retries+1) 0 =
          (client.sendTrace method params run (fun i => setTimeout (client.baseDelayMs*2^i)) n,
            client.answer method idempotentRead (run.outcome n)) := by
  classical
  have hends : ∃ n, Succeeds (run.outcome n) ∨ n = retries := ⟨retries, Or.inr rfl⟩
  obtain ⟨n,hfind⟩ : ∃ n, Nat.find hends = n := ⟨_, rfl⟩
  have hlast : Succeeds (run.outcome n) ∨ n = retries := hfind ▸ Nat.find_spec hends
  have hle : n ≤ retries := hfind ▸ Nat.find_min' hends (Or.inr rfl)
  have hfailed : ∀ i < n, ¬ Succeeds (run.outcome i) := by
    intro i hi hsucceeds
    exact Nat.find_min hends (hfind ▸ hi) (Or.inl hsucceeds)
  refine ⟨n, (min_firstSuccess hfailed hlast hle).symm, fun method params idempotentRead => ?_⟩
  have hall := @attempts_eq client method params idempotentRead (retries+1) run n (retries+1) 0
    (fun i hi => by rw [Nat.zero_add]; exact hfailed i hi)
    (by rw [Nat.zero_add]; exact hlast.imp_right (congrArg Nat.succ)) (Nat.zero_add _) (by omega)
  simp only [Nat.zero_add] at hall
  exact hall

theorem sendTransaction_eq (client : SorobanClient) (transaction : Utf16) (run : RpcRun) :
    client.sendTransaction transaction run =
      ([.send (client.request "sendTransaction"
          [("transaction".utf16, .leaf (.string transaction))] (run.requestId 0))],
        (client.answer "sendTransaction" false (run.outcome 0)).map .ofResponse) := by
  have hone := @attempts_eq client "sendTransaction"
    [("transaction".utf16, .leaf (.string transaction))] false 1 run 0 1 0
    (fun i hi => absurd hi (Nat.not_lt_zero i)) (Or.inr rfl) rfl Nat.zero_lt_one
  simp only [sendTransaction, rpcCall, Bool.false_eq_true, ↓reduceIte, hone]
  rfl

/-- An answer, with the error in the words of the client. -/
theorem answer_map {α : Type} (outcome : HttpOutcome) (fields : JsonRpcSuccess → α)
    {words : Utf16} (hwords : ∀ cause, toSafeError method cause idempotentRead =
      words ++ detail cause) :
    (client.answer method idempotentRead outcome).map fields =
      match (client.receive outcome).mapError detail with
      | .ok response => .ok (fields response)
      | .error detail => .error (words ++ detail) := by
  rw [answer]
  cases client.receive outcome with
  | ok response => rfl
  | error cause => exact congrArg Except.error (hwords cause)

/-- What the calls do: the timer truncates the delays, and cuts to 1 those that do not fit. -/
theorem sends_with_timer (client : SorobanClient) (run : RpcRun) :
    ∃ n, SendsUntilSuccess client run (fun i => setTimeout (client.baseDelayMs*2^i)) n := by
  obtain ⟨n,hn,hreads⟩ := attempts_up_to client run client.maxRetries
  refine ⟨n, hn, ⟨_, client.reply_receive _, fun transaction resourceConfig => ?_⟩,
    ⟨_, client.reply_receive _, fun key => ?_⟩, ⟨_, client.reply_receive _, fun transaction => ?_⟩⟩
  · simp only [simulateContractCall, rpcCall, ↓reduceIte, hreads]
    exact congrArg _ (answer_map (run.outcome n) SimulateContractCallResult.ofResponse
      (fun cause => by cases cause <;> rfl))
  · simp only [getLedgerEntry, rpcCall, ↓reduceIte, hreads]
    exact congrArg _ (answer_map (run.outcome n) GetLedgerEntryResult.ofResponse
      (fun cause => by cases cause <;> rfl))
  · rw [sendTransaction_eq]
    exact congrArg _ (answer_map (run.outcome 0) SendTransactionResult.ofResponse
      (fun cause => by cases cause <;> rfl))

/-- The waits of a trace. -/
def waitsOf (effects : List RpcEffect) : List ℚ := effects.filterMap fun
  | .wait ms => some ms
  | .send _ => none

theorem waitsOf_sendTrace (waits : ℕ → ℚ) (n : ℕ) :
    waitsOf (client.sendTrace method params run waits n) = (List.range n).map waits := by
  rw [sendTrace, waitsOf, List.filterMap_cons_none rfl, List.filterMap_flatMap,
    List.map_eq_flatMap]
  rfl

theorem sendTrace_congr {waits waits' : ℕ → ℚ} {n : ℕ} (h : ∀ i < n, waits i = waits' i) :
    client.sendTrace method params run waits n = client.sendTrace method params run waits' n := by
  rw [sendTrace, sendTrace, List.flatMap_congr]
  intro i hi
  rw [h i (List.mem_range.mp hi)]

/-- The waits are those of the timer. -/
theorem SendsUntilSuccess.waits_eq {waits : ℕ → ℚ} {n : ℕ}
    (h : SendsUntilSuccess client run waits n) :
    ∀ i < n, waits i = setTimeout (client.baseDelayMs*2^i) := by
  obtain ⟨m,hm⟩ := client.sends_with_timer run
  have hcount : n = m := by
    have hsucc : (n : ℕ∞)+1 = m+1 := h.count.trans hm.count.symm
    exact Nat.succ.inj (by exact_mod_cast hsucc)
  subst hcount
  obtain ⟨_,_,hsent⟩ := h.simulate
  obtain ⟨_,_,hwith⟩ := hm.simulate
  have htrace := congrArg (waitsOf ·.1) ((hsent [] none).symm.trans (hwith [] none))
  simp only [waitsOf_sendTrace] at htrace
  exact fun i hi => List.map_inj_left.mp htrace i (List.mem_range.mpr hi)

theorem SendsUntilSuccess.congr {waits waits' : ℕ → ℚ} {n : ℕ}
    (h : SendsUntilSuccess client run waits n) (hwaits : ∀ i < n, waits i = waits' i) :
    SendsUntilSuccess client run waits' n := by
  have hsame {method params} : client.sendTrace method params run waits n =
    client.sendTrace method params run waits' n := sendTrace_congr hwaits
  refine ⟨h.count, ?_, ?_, h.transaction⟩
  · simpa only [hsame] using h.simulate
  · simpa only [hsame] using h.ledgerEntry

theorem setTimeout_bounds (delay : ℚ) : 0 < setTimeout delay ∧ setTimeout delay ≤ 2147483647 := by
  rw [setTimeout]
  split_ifs with hfits
  · have hlow : 1 ≤ delay.floor := Rat.le_floor_iff.mpr (by exact_mod_cast hfits.1)
    have hhigh : delay.floor ≤ 2147483647 := by
      exact_mod_cast (Rat.floor_le delay).trans hfits.2
    omega
  · decide

/-- A timer keeps a delay of whole milliseconds that fits into 31 bits. -/
theorem setTimeout_eq_self_iff {delay : ℚ} : delay = setTimeout delay ↔
    ∃ ms : ℕ, delay = ms ∧ 0 < ms ∧ ms ≤ 2147483647 := by
  constructor
  · intro h
    exact ⟨setTimeout delay, h, setTimeout_bounds delay⟩
  · rintro ⟨ms,rfl,hpos,hle⟩
    have hfits : 1 ≤ (ms : ℚ) ∧ (ms : ℚ) ≤ 2147483647 := by
      exact ⟨by exact_mod_cast hpos, by exact_mod_cast hle⟩
    rw [setTimeout, if_pos hfits, ← Int.cast_natCast ms, Rat.floor_intCast, Int.toNat_natCast,
      Int.cast_natCast]

/-- The reads are sent again as they should be exactly if no delay is one that a timer changes. -/
theorem sends_until_first_success_iff (client : SorobanClient) (run : RpcRun) :
    (∃ n, SendsUntilSuccess client run (fun i => setTimeout (client.baseDelayMs*2^i)) n) ∧
      ((∃ n, SendsUntilSuccess client run (fun i => client.baseDelayMs*2^i) n) ↔
        DelaysFit client run) := by
  refine ⟨client.sends_with_timer run, ?_, ?_⟩
  · rintro ⟨n,h⟩ i hi
    rw [← h.count] at hi
    have hlt : i < n := by exact_mod_cast lt_of_add_lt_add_right hi
    exact setTimeout_eq_self_iff.mp (h.waits_eq i hlt)
  · intro hfit
    obtain ⟨n,h⟩ := client.sends_with_timer run
    refine ⟨n, h.congr fun i hi => (setTimeout_eq_self_iff.mpr (hfit i ?_)).symm⟩
    rw [← h.count]
    exact_mod_cast Nat.succ_lt_succ hi

/-- A client that sends a read up to 26 times. -/
def patientClient : SorobanClient where
  rpcUrl := "https://soroban-testnet.stellar.org".utf16
  networkPassphrase := "Test SDF Network ; September 2015".utf16
  timeoutMs := 8000
  maxRetries := 25
  baseDelayMs := 200

/-- No send is answered in time. -/
def silentRun : RpcRun := ⟨fun _ => "1".utf16, fun _ => .timedOut⟩

/-- After 25 failures a wait of 200 ms that was doubled 24 times does not fit into 31 bits. -/
theorem wait_cut_to_a_millisecond : ¬ ∀ (client : SorobanClient) (run : RpcRun),
    ∃ n, SendsUntilSuccess client run (fun i => client.baseDelayMs*2^i) n := by
  intro h
  obtain ⟨n,hn⟩ := h patientClient silentRun
  have hnever : ∀ i < 25, ¬ Succeeds (silentRun.outcome i) := by
    rintro i _ ⟨status,json,response,houtcome,_⟩
    cases houtcome
  have hcount : n = 25 := by
    have hsucc := hn.count.trans (min_firstSuccess hnever (Or.inr rfl) le_rfl)
    exact Nat.succ.inj (by exact_mod_cast hsucc)
  have hwait := hn.waits_eq 24 (by omega)
  obtain ⟨ms,hms,_,hle⟩ := setTimeout_eq_self_iff.mp hwait
  have hlong : ms = 3355443200 := by
    have hvalue : patientClient.baseDelayMs*2^24 = (3355443200 : ℕ) := by
      rw [patientClient]
      norm_num
    exact_mod_cast hms.symm.trans hvalue
  omega

end SorobanClient
end StreamPay
