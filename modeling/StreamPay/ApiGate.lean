import StreamPay.StreamsApi
import StreamPay.Library.Express
import StreamPay.Library.JsString

/-! The way of a request under `/api/v1` through the middleware and the routers,
up to its answer or to its first call of a repository. -/
namespace StreamPay
open Express

structure ApiKeyRecord where
  id : String
  /-- SHA-256 of the key, in lower-case hexadecimal digits. -/
  hash : String
  revoked : Bool

/-- The records of the store in the order in which they were added. -/
structure ApiKeyStore where
  records : List ApiKeyRecord

structure BodyParserError where
  status : ℕ
  type : String

structure ApiRequest where
  method : HttpMethod
  path : String
  query : Json
  xApiKey : Option String
  authorization : Option String
  contentLength : Option String
  /-- `req.is("application/json")`. -/
  isJson : Bool
  /-- What `express.json()` makes of the body. -/
  body : Except BodyParserError Json

/-- What the handlers read of the process: its environment and the cache. -/
structure ApiEnvironment where
  jwtSecret : Option String
  redisRequiredForMutations : Option String
  /-- `getRedisClient()` resolves to a client. -/
  redisClient : Bool

structure ApiRuntime extends StreamsRuntime where
  sha256 : String → String
  /-- The issues of `getStreamsQuerySchema` with a query. -/
  streamsQueryIssues : Json → List (String × String)
  /-- `createSchema.safeParse` of the webhooks: url and event types, or the field errors. -/
  parseSubscription : Json → Except (List (String × List String)) (String × Option (List String))

inductive ApiAnswer
  | error (status : ℕ) (error : String)
  | explained (status : ℕ) (error message : String)
  | validationError (issues : List (String × List String))
  | streams (answer : StreamsAnswer)
  /-- `cors()` answers a preflight itself. -/
  | preflight
  /-- The answer that Express makes where no handler does. -/
  | express (status : ℕ)

/-- A call of `StreamRepository` or `WebhookRepository`. -/
inductive RepositoryCall
  | statement (statement : StreamStatement)
  | findById (id : String) (includeDeleted : Bool)
  | findAll (params : Json)
  | findForExport (payer recipient status : Option Json)
  | createSubscription (url eventTypes : String)
  | listSubscriptions
  | deleteSubscription (id : String)

inductive ApiOutcome
  | answered (answer : ApiAnswer)
  | calls (call : RepositoryCall)

/-- The last record that fits is returned; the scan does not stop at it. -/
def ApiKeyStore.findKeyByValue (runtime : ApiRuntime) (store : ApiKeyStore) (apiKey : String) :
    Option ApiKeyRecord :=
  store.records.foldl (fun matched record =>
    if record.hash = runtime.sha256 apiKey && !record.revoked then some record else matched) none

/-- `/^ApiKey\\s+(.+)$/i` on the trimmed header. -/
def parseAuthorizationApiKey (headerValue : String) : Option String :=
  match dropText "apikey".toList headerValue.trimmed.toList with
  | none => none
  | some rest =>
    let key := rest.dropWhile Char.isTrimmed
    if key.length = rest.length || key.isEmpty || key.any (·.toNat ∈ [0xA, 0xD, 0x2028, 0x2029])
    then none
    else some (String.ofList key).trimmed

def getApiKeyFromRequest (request : ApiRequest) : Option String :=
  match (request.xApiKey.map String.trimmed).filter (· ≠ "") with
  | some headerApiKey => some headerApiKey
  | none => (request.authorization.filter (· ≠ "")).bind parseAuthorizationApiKey

/-- A middleware gives the answer that ends the request, or `none` if it calls `next`. -/
def apiKeyAuthMiddleware (runtime : ApiRuntime) (store : ApiKeyStore) (path : List Char)
    (request : ApiRequest) : Option ApiAnswer :=
  if path = "/streams/export.csv".toList then none
  else match (getApiKeyFromRequest request).filter (· ≠ "") with
    | none => some (.error 401 "API key missing")
    | some apiKey =>
      match store.findKeyByValue runtime apiKey with
      | none => some (.error 401 "API key invalid or revoked")
      | some _ => none

def redisMutationsRequired (env : ApiEnvironment) : Bool :=
  env.redisRequiredForMutations.any fun value =>
    value.trimmed.toLower ∈ ["1", "true", "yes", "on"]

def requireRedisForMutation (env : ApiEnvironment) (request : ApiRequest) : Option ApiAnswer :=
  if !redisMutationsRequired env || request.method ∉ [.post, .put, .patch, .delete] ||
      env.redisClient then none
  else some (.explained 503 "redis_unavailable"
    "This protected mutation is temporarily unavailable while Redis is recovering.")

/-- `Number.parseInt(.., 10)`; `none` is NaN. -/
def parseInt (text : String) : Option ℤ :=
  let unsigned (text : List Char) : Option ℕ :=
    let digits := text.takeWhile Char.isDigit
    if digits.isEmpty then none else some (Nat.ofDigitChars 10 digits 0)
  match text.toList.dropWhile Char.isTrimmed with
  | '-' :: rest => (unsigned rest).map fun n => -n
  | '+' :: rest => (unsigned rest).map Int.ofNat
  | rest => (unsigned rest).map Int.ofNat

def payloadTooLargeResponse : ApiAnswer :=
  .explained 413 "payload_too_large" "JSON request body exceeds 100kb limit."

def rejectOversizedJsonPayload (request : ApiRequest) : Option ApiAnswer :=
  if !request.isJson then none
  else match (request.contentLength.filter (· ≠ "")).bind parseInt with
    | none => none
    -- from there on the number is infinite, and let through
    | some declared => if declared ≤ 100*1024 || 2^1024-2^970 ≤ declared then none
      else some payloadTooLargeResponse

def httpBodyErrorHandler (error : BodyParserError) : ApiAnswer :=
  if error.status = 413 || error.type = "entity.too.large" then payloadTooLargeResponse
  else if error.status = 400 && error.type = "entity.parse.failed" then
    .explained 400 "invalid_json" "Request body must be valid JSON."
  else .express error.status

/-- The route of the export checks a bearer token of its own. -/
def requireAuth (env : ApiEnvironment) (request : ApiRequest) : Option ApiAnswer :=
  match env.jwtSecret.filter (· ≠ "") with
  | none => some (.error 500 "Server misconfiguration: missing JWT_SECRET")
  | some secret =>
    let token := request.authorization.bind fun header =>
      if header.toList.take 7 = "Bearer ".toList then some (String.ofList (header.toList.drop 7))
      else none
    match token.filter (· ≠ "") with
    | none => some (.error 401 "Unauthorized")
    | some token =>
      if token.toUTF8.data = secret.toUTF8.data then none else some (.error 401 "Unauthorized")

section
variable (runtime : ApiRuntime) (env : ApiEnvironment) (request : ApiRequest) (now : Date)

/-- A writing request comes to its statement, unless it fails a check. -/
def writeOutcome (write : StreamsRequest) : ApiOutcome :=
  match prepare runtime.toStreamsRuntime now write with
  | .error answer => .answered (.streams answer)
  | .ok statement => .calls (.statement statement)

def streamsRoutes (body : Json) : List (Route ApiOutcome) :=
  [⟨.post, [], fun _ => writeOutcome runtime now (.create body)⟩,
    ⟨.get, [.literal "export.csv".toList], fun _ =>
      match requireAuth env request with
      | some answer => .answered answer
      | none => .calls (.findForExport (request.query.get "payer") (request.query.get "recipient")
          (request.query.get "status"))⟩,
    ⟨.get, [.param, .literal "accrual-preview".toList], fun params =>
      let id := params.headD ""
      if (runtime.uuidIssue id).isSome then .answered (.error 400 "Invalid stream ID format")
      else .calls (.findById id false)⟩,
    ⟨.get, [.param], fun params =>
      let id := params.headD ""
      if (parseUuid id).isNone then .answered (.error 400 "Invalid stream ID format")
      else .calls (.findById id (request.query.getString "includeDeleted" = some "true"))⟩,
    ⟨.patch, [.param], fun params => writeOutcome runtime now (.patch (params.headD "") body)⟩,
    ⟨.post, [.param, .literal "restore".toList], fun params =>
      writeOutcome runtime now (.restore (params.headD ""))⟩,
    ⟨.delete, [.param], fun params => writeOutcome runtime now (.delete (params.headD ""))⟩,
    ⟨.get, [], fun _ =>
      match runtime.streamsQueryIssues request.query with
      | [] => .calls (.findAll request.query)
      | issues => .answered (.streams (.validationError issues))⟩]

def webhooksRoutes (body : Json) : List (Route ApiOutcome) :=
  [⟨.post, [], fun _ =>
      match runtime.parseSubscription body with
      | .error fieldErrors => .answered (.validationError fieldErrors)
      | .ok (url,eventTypes) =>
        .calls (.createSubscription url (String.intercalate "," (eventTypes.getD [])))⟩,
    ⟨.get, [], fun _ => .calls .listSubscriptions⟩,
    ⟨.delete, [.param], fun params =>
      let id := params.headD ""
      if (runtime.uuidIssue id).isSome then .answered (.error 400 "Invalid subscription ID format")
      else .calls (.deleteSubscription id)⟩]

/-- A router under a prefix; what it does not match goes on to the next one. -/
def mounted (text path : List Char) (routes : List (Route ApiOutcome)) (next : ApiOutcome) :
    ApiOutcome :=
  match mount text path with
  | none => next
  | some path =>
    match dispatch request.method path routes with
    | .handled outcome => outcome
    | .malformed => .answered (.express 400)
    | .unmatched => next

def v1Router (path : List Char) (body : Json) : ApiOutcome :=
  mounted request "/streams".toList path (streamsRoutes runtime env request now body)
    (mounted request "/webhooks".toList path (webhooksRoutes runtime body)
      (.answered (.express 404)))

/-- A request under `/api/v1`; any other one is `none`. -/
def handleV1 (store : ApiKeyStore) : Option ApiOutcome :=
  (mount "/api/v1".toList request.path.toList).map fun path =>
    if request.method = .options then .answered .preflight
    else match apiKeyAuthMiddleware runtime store path request with
    | some answer => .answered answer
    | none =>
    match requireRedisForMutation env request with
    | some answer => .answered answer
    | none =>
    match rejectOversizedJsonPayload request with
    | some answer => .answered answer
    | none =>
    match request.body with
    | .error error => .answered (httpBodyErrorHandler error)
    | .ok body => v1Router runtime env request now path body

end

/-- The store accepts a key: a record that is not revoked has its digest. -/
def ApiKeyStore.Accepts (runtime : ApiRuntime) (store : ApiKeyStore) (key : String) : Prop :=
  ∃ record ∈ store.records, record.hash = runtime.sha256 key ∧ record.revoked = false

/-- The request has the key in `x-api-key`, or in `Authorization` behind the
scheme ApiKey; white space around it does not count. -/
def ApiRequest.Carries (request : ApiRequest) (key : String) : Prop :=
  (∃ header, request.xApiKey = some header ∧ key = header.trimmed) ∨
  ∃ header scheme blanks rest, request.authorization = some header ∧
    header.trimmed.toList = scheme ++ blanks ++ rest ∧
    scheme.map Char.toLower = "apikey".toList ∧ blanks ≠ [] ∧
    (∀ c ∈ blanks, c.isTrimmed = true) ∧ key = (String.ofList rest).trimmed

/-- The export, by its exact path, with the secret of the process as bearer token. -/
def ApiRequest.IsAuthorizedExport (env : ApiEnvironment) (request : ApiRequest) : Prop :=
  (request.method = .get ∨ request.method = .head) ∧
  mount "/api/v1".toList request.path.toList = some "/streams/export.csv".toList ∧
  ∃ secret, env.jwtSecret = some secret ∧ request.authorization = some ("Bearer " ++ secret)

section
variable {runtime : ApiRuntime} {env : ApiEnvironment} {store : ApiKeyStore}
  {request : ApiRequest} {now : Date}

theorem accepts_of_findKeyByValue {apiKey : String} {record : ApiKeyRecord}
    (h : store.findKeyByValue runtime apiKey = some record) : store.Accepts runtime apiKey := by
  have hscan (records : List ApiKeyRecord) (matched : Option ApiKeyRecord)
      (h : records.foldl (fun matched record =>
        if record.hash = runtime.sha256 apiKey && !record.revoked then some record
        else matched) matched = some record) :
      matched = some record ∨ ∃ record ∈ records, record.hash = runtime.sha256 apiKey ∧
        record.revoked = false := by
    induction records generalizing matched with
    | nil => exact Or.inl h
    | cons first rest ih =>
      rcases ih _ h with hmatched | ⟨other,hother,hfits⟩
      · by_cases hfirst : (first.hash = runtime.sha256 apiKey && !first.revoked) = true
        · simp only [Bool.and_eq_true, decide_eq_true_eq, Bool.not_eq_true'] at hfirst
          exact Or.inr ⟨first, List.mem_cons_self, hfirst⟩
        · dsimp only at hmatched
          rw [if_neg hfirst] at hmatched
          exact Or.inl hmatched
      · exact Or.inr ⟨other, List.mem_cons_of_mem _ hother, hfits⟩
  exact (hscan store.records none h).resolve_left (Option.some_ne_none record).symm

theorem dropText_eq_some {text path rest : List Char} (h : dropText text path = some rest) :
    ∃ first, path = first ++ rest ∧ first.map Char.toLower = text := by
  unfold dropText at h
  split_ifs at h with htext
  obtain rfl := Option.some.inj h
  exact ⟨_, (List.take_append_drop _ _).symm, htext⟩

theorem carries_of_getApiKeyFromRequest {apiKey : String}
    (h : getApiKeyFromRequest request = some apiKey) : request.Carries apiKey := by
  unfold getApiKeyFromRequest at h
  split at h
  · rename_i key hkey
    obtain rfl := Option.some.inj h
    obtain ⟨header,hheader,htrim⟩ := Option.map_eq_some_iff.mp (Option.filter_eq_some_iff.mp hkey).1
    exact Or.inl ⟨header, hheader, htrim.symm⟩
  · obtain ⟨header,hheader,hparse⟩ := Option.bind_eq_some_iff.mp h
    refine Or.inr ⟨header, ?_⟩
    unfold parseAuthorizationApiKey at hparse
    split at hparse
    · cases hparse
    · rename_i rest hscheme
      obtain ⟨scheme,hsplit,hlower⟩ := dropText_eq_some hscheme
      dsimp only at hparse
      split_ifs at hparse with hmatch
      refine ⟨scheme, rest.takeWhile Char.isTrimmed, rest.dropWhile Char.isTrimmed,
        (Option.filter_eq_some_iff.mp hheader).1, ?_, hlower, ?_, ?_, (Option.some.inj hparse).symm⟩
      · rw [hsplit, List.append_assoc, List.takeWhile_append_dropWhile]
      · intro hnone
        -- dropping nothing would leave the length as it was
        have hlen := congrArg List.length (@List.takeWhile_append_dropWhile _ Char.isTrimmed rest)
        rw [hnone, List.nil_append] at hlen
        simp [hlen] at hmatch
      · exact fun c hc => List.mem_takeWhile_imp hc

/-- The middleware lets a request through with a key that the store accepts, and
on the path of the export. -/
theorem passed_apiKeyAuth {path : List Char}
    (h : apiKeyAuthMiddleware runtime store path request = none) :
    path = "/streams/export.csv".toList ∨
    ∃ key, request.Carries key ∧ store.Accepts runtime key := by
  unfold apiKeyAuthMiddleware at h
  split_ifs at h with hpath
  · exact Or.inl hpath
  · split at h
    · cases h
    · rename_i key hkey
      split at h
      · cases h
      · rename_i record hrecord
        exact Or.inr ⟨key, carries_of_getApiKeyFromRequest (Option.filter_eq_some_iff.mp hkey).1,
          accepts_of_findKeyByValue hrecord⟩

theorem passed_requireAuth (h : requireAuth env request = none) :
    ∃ secret, env.jwtSecret = some secret ∧ request.authorization = some ("Bearer " ++ secret) := by
  unfold requireAuth at h
  split at h
  · cases h
  · rename_i secret hsecret
    dsimp only at h
    split at h
    · cases h
    · rename_i token htoken
      split_ifs at h with hsame
      obtain ⟨header,hheader,hbearer⟩ :=
        Option.bind_eq_some_iff.mp (Option.filter_eq_some_iff.mp htoken).1
      split_ifs at hbearer with hscheme
      obtain rfl := Option.some.inj hbearer
      refine ⟨secret, (Option.filter_eq_some_iff.mp hsecret).1, hheader.trans (congrArg some ?_)⟩
      have hsecret' := String.toByteArray_inj.mp (ByteArray.ext hsame)
      rw [← hsecret', ← String.toList_inj, String.toList_append]
      calc header.toList
          = header.toList.take 7 ++ header.toList.drop 7 := (List.take_append_drop 7 _).symm
        _ = _ := by rw [hscheme, @String.toList_ofList (header.toList.drop 7)]

/-- A text that zod takes for a UUID can be read as one. -/
def ApiRuntime.ReadsUuids (runtime : ApiRuntime) : Prop :=
  ∀ text, runtime.uuidIssue text = none → (parseUuid text).isSome = true

/-- A write under an id that is no UUID is refused. -/
theorem writeOutcome_of_no_uuid {id : String} (hid : runtime.uuidIssue id ≠ none)
    {write : StreamsRequest} (hwrite : write = .delete id ∨ write = .restore id ∨
      ∃ body, write = .patch id body) (call : RepositoryCall) :
    writeOutcome runtime now write ≠ .calls call := by
  obtain ⟨issue,hissue⟩ := Option.ne_none_iff_exists'.mp hid
  rcases hwrite with rfl | rfl | ⟨body,rfl⟩
  · simp [writeOutcome, prepare, hissue]
  · simp [writeOutcome, prepare, hissue]
  · have hrefused : patchIssue runtime.toStreamsRuntime id (orEmpty body) =
        some "Invalid stream ID format" := if_pos (by rw [hissue]; rfl)
    simp [writeOutcome, prepare, hrefused]

/-- On the path of the export a repository is called by its own route only. -/
theorem streamsRoutes_export (huuid : runtime.ReadsUuids) {body : Json} {call : RepositoryCall}
    (h : dispatch request.method "/export.csv".toList (streamsRoutes runtime env request now body) =
      .handled (.calls call)) :
    (request.method = .get ∨ request.method = .head) ∧ requireAuth env request = none := by
  -- the name fits `/:id` as well, and is refused there since it is no UUID
  have hid : parseUuid "export.csv" = none := by decide +kernel
  have hissue : runtime.uuidIssue "export.csv" ≠ none := fun hnone => by
    have hread := huuid "export.csv" hnone
    rw [hid] at hread
    cases hread
  have hroot : matchPath [] "/export.csv".toList = none := by decide
  have hparam : matchPath [.param] "/export.csv".toList = some ["export.csv".toList] := by decide
  have hpreview : matchPath [.param, .literal "accrual-preview".toList] "/export.csv".toList =
    none := by decide
  have hrestore : matchPath [.param, .literal "restore".toList] "/export.csv".toList = none := by
    decide
  have hdecode : ["export.csv".toList].mapM decodeURIComponent = some ["export.csv"] := by
    have hplain : decodeURIComponent "export.csv".toList = some "export.csv" :=
      decodeURIComponent_of_plain (by decide)
    rw [List.mapM_cons, hplain, List.mapM_nil]
    rfl
  obtain ⟨route,hroute,values,params,hvalues,hparams,hserves,hhandler⟩ :=
    exists_route_of_dispatch h
  have hname (hpattern : route.pattern = [.param]) : params = ["export.csv"] := by
    rw [hpattern, hparam] at hvalues
    obtain rfl := Option.some.inj hvalues
    exact Option.some.inj (hparams.symm.trans hdecode)
  simp only [streamsRoutes, List.mem_cons, List.not_mem_nil, or_false] at hroute
  rcases hroute with rfl | rfl | rfl | rfl | rfl | rfl | rfl | rfl
  · -- POST / is at another path
    rw [hroot] at hvalues
    cases hvalues
  · -- GET /export.csv
    dsimp only at hhandler
    split at hhandler
    · cases hhandler
    · rename_i hauth
      exact ⟨HttpMethod.of_get_serves hserves, hauth⟩
  · -- GET /:id/accrual-preview is at another path
    rw [hpreview] at hvalues
    cases hvalues
  · -- GET /:id reads the name as an id
    rw [hname rfl] at hhandler
    simp [hid] at hhandler
  · -- PATCH /:id
    rw [hname rfl] at hhandler
    exact absurd hhandler.symm (writeOutcome_of_no_uuid hissue (Or.inr (Or.inr ⟨body, rfl⟩)) call)
  · -- POST /:id/restore is at another path
    rw [hrestore] at hvalues
    cases hvalues
  · -- DELETE /:id
    rw [hname rfl] at hhandler
    exact absurd hhandler.symm (writeOutcome_of_no_uuid hissue (Or.inl rfl) call)
  · -- GET / is at another path
    rw [hroot] at hvalues
    cases hvalues

/-- Under `/api/v1` a repository is called only for a request with an API key
that the store accepts, or for the export with its bearer token. -/
theorem repository_called_only_with_key (runtime : ApiRuntime) (huuid : runtime.ReadsUuids)
    (env : ApiEnvironment) (store : ApiKeyStore) (request : ApiRequest) (now : Date)
    (call : RepositoryCall) (h : handleV1 runtime env request now store = some (.calls call)) :
    (∃ key, request.Carries key ∧ store.Accepts runtime key) ∨ request.IsAuthorizedExport env := by
  obtain ⟨path,hpath,hhandled⟩ := Option.map_eq_some_iff.mp h
  split_ifs at hhandled
  split at hhandled
  · cases hhandled
  · rename_i hpassed
    -- with a key all is said; without one the path is that of the export
    refine (passed_apiKeyAuth hpassed).symm.imp_right ?_
    rintro rfl
    split at hhandled
    · cases hhandled
    · split at hhandled
      · cases hhandled
      · split at hhandled
        · cases hhandled
        · rename_i body _
          have hmount : mount "/streams".toList "/streams/export.csv".toList =
              some "/export.csv".toList := by decide
          have hother : mount "/webhooks".toList "/streams/export.csv".toList = none := by decide
          simp only [v1Router, mounted, hmount, hother] at hhandled
          split at hhandled
          · rename_i outcome hdispatch
            rw [hhandled] at hdispatch
            obtain ⟨hmethod,hauth⟩ := streamsRoutes_export huuid hdispatch
            exact ⟨hmethod, hpath, passed_requireAuth hauth⟩
          · cases hhandled
          · cases hhandled

end

section SampleExport

/-- As zod and the hash are on the request below. -/
def sampleApiRuntime : ApiRuntime where
  uuidIssue text := if (parseUuid text).isSome then none else some "Invalid UUID"
  isDatetime _ := true
  typeIssue _ := "Invalid input: expected string, received undefined"
  otherDate _ := none
  sha256 key := key
  streamsQueryIssues _ := []
  parseSubscription _ := .error []

def sampleEnvironment : ApiEnvironment := ⟨some "top secret", none, false⟩

def sampleExport : ApiRequest where
  method := .get
  path := "/api/v1/streams/export.csv"
  query := .object []
  xApiKey := none
  authorization := some "Bearer top secret"
  contentLength := none
  isJson := false
  body := .ok (.object [])

theorem export_called_with_bearer :
    (∃ key, sampleExport.Carries key ∧ ApiKeyStore.Accepts sampleApiRuntime ⟨[]⟩ key) ∨
    sampleExport.IsAuthorizedExport sampleEnvironment := by
  have huuid : sampleApiRuntime.ReadsUuids := by
    intro text htext
    simp only [sampleApiRuntime] at htext
    split_ifs at htext with hread
    exact hread
  exact repository_called_only_with_key sampleApiRuntime huuid sampleEnvironment ⟨[]⟩ sampleExport 0
    (.findForExport none none none) (by rfl)

end SampleExport

end StreamPay
