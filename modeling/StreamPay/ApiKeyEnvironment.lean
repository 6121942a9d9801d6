import StreamPay.ApiKeys
import StreamPay.Library.NumberedText
import StreamPay.WebhookSubscriptions

/-! The keys that the environment configures: how the store is built from them and
refreshed, and what a revocation leaves of a key that is configured twice. -/
namespace StreamPay
namespace ApiKeys

/-- `process.env`, as far as the store reads it. -/
structure KeyEnvironment where
  apiKeys : Option String
  apiKeyHashes : Option String

/-- `?.split(",").map((value) => value.trim()).filter(Boolean) ?? []`. -/
def configuredValues : Option String → List String
  | none => []
  | some value => ((WebhookRepository.splitCommas value).map String.trimmed).filter (· ≠ "")

def plaintextId (index : ℕ) : String := "env-" ++ toString index

def hashId (index : ℕ) : String := "env-hash-" ++ toString index

namespace ApiKeyStore

/-- `for (const x of xs)` with a body that may throw: the loop ends there, and the
store stays as the body has left it. -/
def forOf {β : Type} (body : ApiKeyStore → β → Except String Unit × ApiKeyStore) :
    List β → ApiKeyStore → Except String Unit × ApiKeyStore
  | [], store => (.ok (), store)
  | x :: xs, store =>
    match body store x with
    | (.error message, store) => (.error message, store)
    | (.ok (), store) => forOf body xs store

def addEnvKey (sha256 : Sha256) (store : ApiKeyStore) :
    String × ℕ → Except String Unit × ApiKeyStore
  | (apiKey,index) =>
    let (result,store) := store.addPlaintextKey sha256 (plaintextId index) apiKey false
    (result.map fun _ => (), store)

def addEnvHash (store : ApiKeyStore) : String × ℕ → Except String Unit × ApiKeyStore
  | (hash,index) =>
    if !isSha256Hex hash then
      (.error "API_KEY_HASHES must be a comma-separated list of SHA-256 hex hashes", store)
    else store.addKeyRecord (some ⟨some (hashId index), some hash, some false⟩)

def fromEnv (sha256 : Sha256) (env : KeyEnvironment) : Except String ApiKeyStore :=
  match forOf (addEnvKey sha256) (configuredValues env.apiKeys).zipIdx .empty with
  | (.error message, _) => .error message
  | (.ok (), store) =>
    match forOf addEnvHash (configuredValues env.apiKeyHashes).zipIdx store with
    | (.error message, _) => .error message
    | (.ok (), store) => .ok store

end ApiKeyStore

/-- What it throws, and what it leaves in the shared store. -/
def refreshApiKeyStore (sha256 : Sha256) (env : KeyEnvironment) (apiKeyStore : ApiKeyStore) :
    Except String Unit × ApiKeyStore :=
  let apiKeyStore := apiKeyStore.clear
  match ApiKeyStore.fromEnv sha256 env with
  | .error message => (.error message, apiKeyStore)
  | .ok replacement =>
    ApiKeyStore.forOf (fun store record =>
      store.addKeyRecord (some ⟨some record.id, some record.hash, some record.revoked⟩))
      replacement.getKeys apiKeyStore

/-- Every configured hash is one. -/
def KeyEnvironment.WellFormed (env : KeyEnvironment) : Prop :=
  ∀ hash ∈ configuredValues env.apiKeyHashes, isSha256Hex hash = true

theorem KeyEnvironment.wellFormed_of_no_hashes (apiKeys : Option String) :
    KeyEnvironment.WellFormed ⟨apiKeys, none⟩ := by
  intro hash hhash
  cases hhash

def envKeyRecord (sha256 : Sha256) (entry : String × ℕ) : ApiKeyRecord :=
  ⟨plaintextId entry.2, String.ofList (hexDigits (sha256.digest entry.1)), false⟩

def envHashRecord (entry : String × ℕ) : ApiKeyRecord := ⟨hashId entry.2, entry.1, false⟩

/-- The records that the environment configures, in their order. -/
def envRecords (sha256 : Sha256) (env : KeyEnvironment) : List ApiKeyRecord :=
  (configuredValues env.apiKeys).zipIdx.map (envKeyRecord sha256) ++
    (configuredValues env.apiKeyHashes).zipIdx.map envHashRecord

/-- A store of exactly these records in this order. -/
def Lists (store : ApiKeyStore) (records : List ApiKeyRecord) : Prop :=
  store.keys.entries = records.map fun record => (record.id, storedRecord record)

theorem plaintextId_ne_hashId (i j : ℕ) : plaintextId i ≠ hashId j := by
  intro h
  have hplain : plaintextId i = "env" ++ "-" ++ toString i := rfl
  have hhash : hashId j = "env-hash" ++ "-" ++ toString j := rfl
  rw [hplain, hhash] at h
  exact absurd (NumberedText.dash_append_injective h).1 (by decide)

/-- No two entries of the environment have the same id. -/
theorem nodup_id_envRecords (sha256 : Sha256) (env : KeyEnvironment) :
    ((envRecords sha256 env).map (·.id)).Nodup := by
  -- the number tells the entries of one list apart, the stem those of the two
  have hnumbered (values : List String) (stem : String) :
      (values.zipIdx.map fun entry => stem ++ toString entry.2).Nodup := by
    have hsplit : (values.zipIdx.map fun entry => stem ++ toString entry.2) =
        (values.zipIdx.map Prod.snd).map fun index => stem ++ toString index := by
      rw [List.map_map]
      rfl
    rw [hsplit, List.zipIdx_map_snd]
    exact List.Nodup.map (fun i j => NumberedText.stem_append_injective) List.nodup_range'
  rw [envRecords, List.map_append, List.map_map, List.map_map, List.nodup_append]
  refine ⟨hnumbered _ "env-", hnumbered _ "env-hash-", ?_⟩
  intro first hfirst second hsecond
  obtain ⟨⟨apiKey,i⟩,_,rfl⟩ := List.mem_map.mp hfirst
  obtain ⟨⟨hash,j⟩,_,rfl⟩ := List.mem_map.mp hsecond
  exact plaintextId_ne_hashId i j

theorem ne_empty_of_stem {stem text : String} (h : stem ≠ "") : stem ++ text ≠ "" := by
  intro hempty
  exact h (String.append_eq_empty_iff.mp hempty).1

/-- The records of the environment are valid if its hashes are. -/
theorem validRecord_envRecords {sha256 : Sha256} {env : KeyEnvironment} (h : env.WellFormed) :
    ∀ record ∈ envRecords sha256 env, ValidRecord record := by
  intro record hrecord
  rcases List.mem_append.mp hrecord with hplain | hhash
  · obtain ⟨⟨apiKey,index⟩,_,rfl⟩ := List.mem_map.mp hplain
    exact ⟨ne_empty_of_stem (by decide), isSha256Hex_hexDigits (sha256.length apiKey)⟩
  · obtain ⟨⟨hash,index⟩,hmem,rfl⟩ := List.mem_map.mp hhash
    exact ⟨ne_empty_of_stem (by decide), h hash (List.fst_mem_of_mem_zipIdx hmem)⟩

section
variable {store : ApiKeyStore} {records : List ApiKeyRecord}

theorem addKeyRecord_of_valid {record : ApiKeyRecord} (h : ValidRecord record) :
    store.addKeyRecord (some ⟨some record.id, some record.hash, some record.revoked⟩) =
      (.ok (), ⟨store.keys.set record.id (storedRecord record)⟩) := by
  rw [ApiKeyStore.addKeyRecord, checkRecord_ok_iff.mpr ⟨rfl, h⟩]

theorem Lists.set (h : Lists store records) {record : ApiKeyRecord}
    (hnew : record.id ∉ records.map (·.id)) :
    Lists ⟨store.keys.set record.id (storedRecord record)⟩ (records ++ [record]) := by
  have hfree : store.keys.get record.id = none := by
    rw [Option.eq_none_iff_forall_ne_some]
    intro entry hentry
    rw [InsertionMap.get_eq_some_iff, h] at hentry
    obtain ⟨other,hother,hsame⟩ := List.mem_map.mp hentry
    exact hnew (List.mem_map.mpr ⟨other, hother, congrArg Prod.fst hsame⟩)
  rw [Lists, InsertionMap.entries_set_of_get_none _ _ hfree, h, List.map_append]
  rfl

/-- A loop of which each pass adds a record under an id of its own adds them all. -/
theorem Lists.forOf {β : Type} {body : ApiKeyStore → β → Except String Unit × ApiKeyStore}
    (record : β → ApiKeyRecord) (xs : List β) (h : Lists store records)
    (hbody : ∀ x ∈ xs, ∀ store : ApiKeyStore,
      body store x = (.ok (), ⟨store.keys.set (record x).id (storedRecord (record x))⟩))
    (hnodup : ((records ++ xs.map record).map (·.id)).Nodup) :
    ∃ store', ApiKeyStore.forOf body xs store = (.ok (), store') ∧
      Lists store' (records ++ xs.map record) := by
  induction xs generalizing store records with
  | nil => exact ⟨store, rfl, by rwa [List.map_nil, List.append_nil]⟩
  | cons x xs ih =>
    -- the first record counts to those in the store from here on
    have hsplit : records ++ (x :: xs).map record = (records ++ [record x]) ++ xs.map record := by
      rw [List.map_cons, List.append_assoc, List.singleton_append]
    rw [hsplit] at hnodup ⊢
    have hnew : (record x).id ∉ records.map (·.id) := by
      intro hmem
      rw [List.map_append, List.map_append] at hnodup
      have hfirst := (List.nodup_append.mp hnodup).1
      exact (List.nodup_append.mp hfirst).2.2 _ hmem _ List.mem_cons_self rfl
    rw [ApiKeyStore.forOf, hbody x List.mem_cons_self]
    exact ih (h.set hnew) (fun y hy => hbody y (List.mem_cons_of_mem x hy)) hnodup

/-- A loop throws if one pass does, where none throws anything else. -/
theorem forOf_error {β : Type} {body : ApiKeyStore → β → Except String Unit × ApiKeyStore}
    {message : String} (xs : List β) (store : ApiKeyStore)
    (hbody : ∀ x ∈ xs, ∀ store, (body store x).1 = .ok () ∨ (body store x).1 = .error message)
    (hthrows : ∃ x ∈ xs, ∀ store, (body store x).1 = .error message) :
    (ApiKeyStore.forOf body xs store).1 = .error message := by
  induction xs generalizing store with
  | nil =>
    obtain ⟨x,hx,_⟩ := hthrows
    exact absurd hx List.not_mem_nil
  | cons x xs ih =>
    unfold ApiKeyStore.forOf
    -- either this pass throws, or one behind it
    rcases hpass : body store x with ⟨result,store'⟩
    have hx := hbody x List.mem_cons_self store
    rw [hpass] at hx
    rcases hx with rfl | rfl
    · obtain ⟨y,hy,hthrows⟩ := hthrows
      rcases List.mem_cons.mp hy with rfl | hrest
      · have hnow := hthrows store
        rw [hpass] at hnow
        cases hnow
      · exact ih store' (fun z hz => hbody z (List.mem_cons_of_mem x hz)) ⟨y, hrest, hthrows⟩
    · rfl

end

theorem mem_configuredValues_ne {value : Option String} {entry : String}
    (h : entry ∈ configuredValues value) : entry ≠ "" := by
  cases value with
  | none => cases h
  | some value => exact of_decide_eq_true (List.mem_filter.mp h).2

section
variable {sha256 : Sha256} {env : KeyEnvironment}

theorem addEnvKey_eq {entry : String × ℕ} (hkey : entry.1 ≠ "") (store : ApiKeyStore) :
    store.addEnvKey sha256 entry =
      (.ok (), ⟨store.keys.set (envKeyRecord sha256 entry).id
        (storedRecord (envKeyRecord sha256 entry))⟩) := by
  have hid : plaintextId entry.2 ≠ "" := ne_empty_of_stem (by decide)
  simp only [ApiKeyStore.addEnvKey, ApiKeyStore.addPlaintextKey, hashApiKey_of_ne hkey,
    ApiKeyStore.addKeyRecord, checkRecord_digest hid]
  rfl

theorem addEnvHash_eq {entry : String × ℕ} (hhash : isSha256Hex entry.1 = true)
    (store : ApiKeyStore) :
    store.addEnvHash entry =
      (.ok (), ⟨store.keys.set (envHashRecord entry).id (storedRecord (envHashRecord entry))⟩) := by
  have hid : hashId entry.2 ≠ "" := ne_empty_of_stem (by decide)
  have hvalid : ValidRecord (envHashRecord entry) := ⟨hid, hhash⟩
  rw [ApiKeyStore.addEnvHash, hhash]
  exact addKeyRecord_of_valid hvalid

theorem addEnvHash_error {entry : String × ℕ} (hhash : isSha256Hex entry.1 = false)
    (store : ApiKeyStore) : (store.addEnvHash entry).1 =
      .error "API_KEY_HASHES must be a comma-separated list of SHA-256 hex hashes" := by
  rw [ApiKeyStore.addEnvHash, hhash]
  rfl

/-- The plaintext keys never make the loop throw. -/
theorem forOf_addEnvKey (sha256 : Sha256) (env : KeyEnvironment) :
    ∃ store, ApiKeyStore.forOf (ApiKeyStore.addEnvKey sha256)
        (configuredValues env.apiKeys).zipIdx .empty = (.ok (), store) ∧
      Lists store ((configuredValues env.apiKeys).zipIdx.map (envKeyRecord sha256)) := by
  have hnodup := nodup_id_envRecords sha256 env
  rw [envRecords, List.map_append] at hnodup
  exact @Lists.forOf .empty [] _ (ApiKeyStore.addEnvKey sha256) (envKeyRecord sha256) _ rfl
    (fun entry hentry => addEnvKey_eq (mem_configuredValues_ne (List.fst_mem_of_mem_zipIdx hentry)))
    (List.nodup_append.mp hnodup).1

theorem fromEnv_of_wellFormed (h : env.WellFormed) :
    ∃ store, ApiKeyStore.fromEnv sha256 env = .ok store ∧
      Lists store (envRecords sha256 env) := by
  obtain ⟨plain,hplain,hlists⟩ := forOf_addEnvKey sha256 env
  obtain ⟨store,hstore,hall⟩ := hlists.forOf envHashRecord
    (configuredValues env.apiKeyHashes).zipIdx
    (fun entry hentry => addEnvHash_eq (h entry.1 (List.fst_mem_of_mem_zipIdx hentry)))
    (nodup_id_envRecords sha256 env)
  refine ⟨store, ?_, hall⟩
  rw [ApiKeyStore.fromEnv, hplain]
  dsimp only
  rw [hstore]

theorem fromEnv_of_not_wellFormed (h : ¬env.WellFormed) :
    ApiKeyStore.fromEnv sha256 env =
      .error "API_KEY_HASHES must be a comma-separated list of SHA-256 hex hashes" := by
  obtain ⟨plain,hplain,_⟩ := forOf_addEnvKey sha256 env
  obtain ⟨hash,hhash,hinvalid⟩ : ∃ hash ∈ configuredValues env.apiKeyHashes,
      isSha256Hex hash = false := by
    simpa [KeyEnvironment.WellFormed] using h
  obtain ⟨index,hindex⟩ := List.mem_iff_getElem?.mp hhash
  have hthrows := forOf_error (configuredValues env.apiKeyHashes).zipIdx plain
    (fun entry _ store => ?_)
    ⟨(hash,index), List.mk_mem_zipIdx_iff_getElem?.mpr hindex, addEnvHash_error hinvalid⟩
  · rw [ApiKeyStore.fromEnv, hplain]
    dsimp only
    rcases hloop : ApiKeyStore.forOf ApiKeyStore.addEnvHash
      (configuredValues env.apiKeyHashes).zipIdx plain with ⟨result,store⟩
    rw [hloop] at hthrows
    rw [show result = _ from hthrows]
  · cases hentry : isSha256Hex entry.1 with
    | true => exact Or.inl (by rw [addEnvHash_eq hentry])
    | false => exact Or.inr (addEnvHash_error hentry store)

end

/-- A stored record, added again, is stored as it is. -/
theorem storedRecord_again {record : ApiKeyRecord} (h : ValidRecord record) :
    ValidRecord (storedRecord record).record ∧
      storedRecord (storedRecord record).record = storedRecord record := by
  obtain ⟨buffer,hlength,hhash⟩ := exists_buffer h.hash
  have hagain : normalizeHash (normalizeHash record.hash) = normalizeHash record.hash := by
    rw [hhash, normalizeHash_hexDigits]
  constructor
  · refine ⟨h.id, ?_⟩
    change isSha256Hex (normalizeHash record.hash) = true
    rw [hhash]
    exact isSha256Hex_hexDigits hlength
  · simp only [storedRecord, hagain]

theorem Lists.getKeys {store : ApiKeyStore} {records : List ApiKeyRecord}
    (h : Lists store records) :
    store.getKeys = records.map fun record => (storedRecord record).record := by
  rw [ApiKeyStore.getKeys, InsertionMap.values, h, List.map_map, List.map_map]
  rfl

/-- The copy has the records of the store that it is made of, and no others. -/
theorem refreshApiKeyStore_of_wellFormed {sha256 : Sha256} {env : KeyEnvironment}
    (h : env.WellFormed) (store : ApiKeyStore) :
    ∃ built, ApiKeyStore.fromEnv sha256 env = .ok built ∧
      refreshApiKeyStore sha256 env store = (.ok (), built) := by
  obtain ⟨built,hbuilt,hlists⟩ := @fromEnv_of_wellFormed sha256 env h
  have hvalid := @validRecord_envRecords sha256 env h
  -- the records that are copied have their hashes in lower case already
  have hids : (built.getKeys.map (·.id)) = (envRecords sha256 env).map (·.id) := by
    rw [hlists.getKeys, List.map_map]
    rfl
  have hpass : ∀ record ∈ built.getKeys, ∀ store : ApiKeyStore,
      store.addKeyRecord (some ⟨some record.id, some record.hash, some record.revoked⟩) =
        (.ok (), ⟨store.keys.set record.id (storedRecord record)⟩) := by
    intro record hrecord store
    rw [hlists.getKeys] at hrecord
    obtain ⟨original,horiginal,rfl⟩ := List.mem_map.mp hrecord
    exact addKeyRecord_of_valid (storedRecord_again (hvalid original horiginal)).1
  obtain ⟨copy,hcopy,hcopied⟩ := @Lists.forOf .empty [] _
    (fun store record =>
      store.addKeyRecord (some ⟨some record.id, some record.hash, some record.revoked⟩))
    id built.getKeys rfl hpass
    (by rw [List.nil_append, List.map_id, hids]; exact nodup_id_envRecords sha256 env)
  have hsame : copy = built := by
    rw [List.nil_append, List.map_id] at hcopied
    have hentries : copy.keys.entries = built.keys.entries :=
      calc copy.keys.entries
          = built.getKeys.map fun record => (record.id, storedRecord record) := hcopied
        _ = (envRecords sha256 env).map fun record =>
              (record.id, storedRecord (storedRecord record).record) := by
            rw [hlists.getKeys, List.map_map]
            rfl
        _ = (envRecords sha256 env).map fun record => (record.id, storedRecord record) := by
            apply List.map_congr_left
            intro record hrecord
            rw [(storedRecord_again (hvalid record hrecord)).2]
        _ = built.keys.entries := hlists.symm
    exact congrArg ApiKeyStore.mk (InsertionMap.ext hentries)
  refine ⟨built, hbuilt, ?_⟩
  rw [hsame] at hcopy
  rw [refreshApiKeyStore, hbuilt]
  exact hcopy

/-- The refresh is all or nothing exactly if every configured hash is one, or there was
nothing in the store. -/
theorem refresh_all_or_nothing_iff (sha256 : Sha256) (env : KeyEnvironment)
    (store : ApiKeyStore) :
    ((∃ built, ApiKeyStore.fromEnv sha256 env = .ok built ∧
        refreshApiKeyStore sha256 env store = (.ok (), built)) ∨
      ∃ message, refreshApiKeyStore sha256 env store = (.error message, store)) ↔
    (∀ hash ∈ configuredValues env.apiKeyHashes, isSha256Hex hash = true) ∨ store = .empty := by
  by_cases h : env.WellFormed
  · exact iff_of_true (Or.inl (refreshApiKeyStore_of_wellFormed h store)) (Or.inl h)
  · have hthrows := @fromEnv_of_not_wellFormed sha256 env h
    have hrefresh : refreshApiKeyStore sha256 env store =
        (.error "API_KEY_HASHES must be a comma-separated list of SHA-256 hex hashes",
          .empty) := by
      rw [refreshApiKeyStore, hthrows]
      rfl
    constructor
    · rintro (⟨built,hbuilt,_⟩ | ⟨message,herror⟩)
      · rw [hthrows] at hbuilt
        cases hbuilt
      · rw [hrefresh] at herror
        exact Or.inr (congrArg Prod.snd herror).symm
    · rintro (hwell | rfl)
      · exact absurd hwell h
      · exact Or.inr ⟨_, hrefresh⟩

/-- With a text in the list that is no hash the store is left without its key. -/
theorem refresh_loses_key :
    ¬∀ (sha256 : Sha256) (env : KeyEnvironment) (store : ApiKeyStore),
      (∃ built, ApiKeyStore.fromEnv sha256 env = .ok built ∧
        refreshApiKeyStore sha256 env store = (.ok (), built)) ∨
      ∃ message, refreshApiKeyStore sha256 env store = (.error message, store) := by
  intro hclaim
  have hmalformed : ¬KeyEnvironment.WellFormed ⟨none, some "not-a-sha256-hex-digest"⟩ := by
    intro hwell
    exact absurd (hwell "not-a-sha256-hex-digest" (by decide)) (by decide)
  rcases hclaim sampleSha256 ⟨none, some "not-a-sha256-hex-digest"⟩
    (performAll sampleSha256 .empty [.addPlaintextKey "a" "key" false]) with
    ⟨built,hbuilt,_⟩ | ⟨message,herror⟩
  · rw [fromEnv_of_not_wellFormed hmalformed] at hbuilt
    cases hbuilt
  · rw [refreshApiKeyStore, fromEnv_of_not_wellFormed hmalformed] at herror
    have hlost : 0 = 1 := congrArg (fun outcome => outcome.2.getKeys.length) herror
    exact absurd hlost (by decide)

/-- The hashes of all configured keys, whether given as a key or as a hash. -/
def configuredHashes (sha256 : Sha256) (env : KeyEnvironment) : List String :=
  (configuredValues env.apiKeys).map (fun apiKey =>
    String.ofList (hexDigits (sha256.digest apiKey))) ++
  (configuredValues env.apiKeyHashes).map normalizeHash

theorem map_hash_envRecords (sha256 : Sha256) (env : KeyEnvironment) :
    (envRecords sha256 env).map (fun record => normalizeHash record.hash) =
      configuredHashes sha256 env := by
  have hplain : ((configuredValues env.apiKeys).zipIdx.map (envKeyRecord sha256)).map
        (fun record => normalizeHash record.hash) =
      (configuredValues env.apiKeys).map fun apiKey =>
        String.ofList (hexDigits (sha256.digest apiKey)) :=
    calc ((configuredValues env.apiKeys).zipIdx.map (envKeyRecord sha256)).map
          (fun record => normalizeHash record.hash)
        = (configuredValues env.apiKeys).zipIdx.map fun entry =>
            String.ofList (hexDigits (sha256.digest entry.1)) := by
          rw [List.map_map]
          apply List.map_congr_left
          intro entry _
          exact normalizeHash_hexDigits (sha256.digest entry.1)
      _ = ((configuredValues env.apiKeys).zipIdx.map Prod.fst).map fun apiKey =>
            String.ofList (hexDigits (sha256.digest apiKey)) := by
          rw [List.map_map]
          rfl
      _ = _ := by rw [List.zipIdx_map_fst]
  have hhashes : ((configuredValues env.apiKeyHashes).zipIdx.map envHashRecord).map
        (fun record => normalizeHash record.hash) =
      (configuredValues env.apiKeyHashes).map normalizeHash :=
    calc ((configuredValues env.apiKeyHashes).zipIdx.map envHashRecord).map
          (fun record => normalizeHash record.hash)
        = ((configuredValues env.apiKeyHashes).zipIdx.map Prod.fst).map normalizeHash := by
          rw [List.map_map, List.map_map]
          rfl
      _ = _ := by rw [List.zipIdx_map_fst]
  rw [envRecords, List.map_append, hplain, hhashes, configuredHashes]

theorem lookup_map_storedRecord (records : List ApiKeyRecord) (id : String) :
    (records.map fun record => (record.id, storedRecord record)).lookup id =
      (records.find? (·.id = id)).map storedRecord := by
  induction records with
  | nil => rfl
  | cons record records ih =>
    rw [List.map_cons, InsertionMap.lookup_cons_ite, ih, List.find?_cons]
    by_cases hid : record.id = id
    · rw [if_pos hid.symm, decide_eq_true hid]
      rfl
    · rw [if_neg (Ne.symm hid), decide_eq_false hid]

theorem Lists.reflects {store : ApiKeyStore} {records : List ApiKeyRecord}
    (h : Lists store records) (hvalid : ∀ record ∈ records, ValidRecord record) :
    Reflects store fun id => records.find? (·.id = id) := by
  refine ⟨fun id => ?_, fun id record hrecord => ?_, fun id record hrecord => ?_⟩
  · rw [InsertionMap.get, h]
    exact lookup_map_storedRecord records id
  · have hid := List.find?_some hrecord
    exact of_decide_eq_true hid
  · exact hvalid record (List.mem_of_find?_eq_some hrecord)

/-- Among records of different ids, a record is the only one with its hash exactly if
the hash occurs once. -/
theorem count_hash_eq_one_iff {records : List ApiKeyRecord} {record : ApiKeyRecord}
    (hnodup : (records.map (·.id)).Nodup) (hrecord : record ∈ records) :
    (records.map fun other => normalizeHash other.hash).count (normalizeHash record.hash) = 1 ↔
      ∀ other ∈ records, other.id ≠ record.id →
        normalizeHash other.hash ≠ normalizeHash record.hash := by
  obtain ⟨front,back,rfl⟩ := List.append_of_mem hrecord
  rw [List.map_append, List.map_cons, List.nodup_append, List.nodup_cons] at hnodup
  have hfront : ∀ other ∈ front, other.id ≠ record.id := fun other hother =>
    hnodup.2.2 _ (List.mem_map_of_mem hother) _ List.mem_cons_self
  have hback : ∀ other ∈ back, other.id ≠ record.id := fun other hother hid =>
    hnodup.2.1.1 (List.mem_map.mpr ⟨other, hother, hid⟩)
  -- the record itself counts for one, so that neither part may add to it
  have hcount : ((front ++ record :: back).map fun other => normalizeHash other.hash).count
        (normalizeHash record.hash) =
      (front.map fun other => normalizeHash other.hash).count (normalizeHash record.hash) +
        ((back.map fun other => normalizeHash other.hash).count (normalizeHash record.hash) +
          1) := by
    rw [List.map_append, List.map_cons, List.count_append, List.count_cons_self]
  have hpart (part : List ApiKeyRecord) :
      (part.map fun other => normalizeHash other.hash).count (normalizeHash record.hash) = 0 ↔
        ∀ other ∈ part, normalizeHash other.hash ≠ normalizeHash record.hash := by
    rw [List.count_eq_zero]
    simp only [List.mem_map, not_exists, not_and]
  rw [hcount]
  constructor
  · intro hone other hother hid
    have hfrontZero := (hpart front).mp (by omega)
    have hbackZero := (hpart back).mp (by omega)
    rcases List.mem_append.mp hother with hmem | hmem
    · exact hfrontZero other hmem
    · rcases List.mem_cons.mp hmem with rfl | hmem
      · exact absurd rfl hid
      · exact hbackZero other hmem
  · intro hothers
    have hfrontZero := (hpart front).mpr fun other hother =>
      hothers other (List.mem_append_left _ hother) (hfront other hother)
    have hbackZero := (hpart back).mpr fun other hother =>
      hothers other (List.mem_append_right _ (List.mem_cons_of_mem _ hother)) (hback other hother)
    omega

/-- A record is found by its id, if no other has it. -/
theorem find?_id_of_mem {records : List ApiKeyRecord} {record : ApiKeyRecord}
    (hnodup : (records.map (·.id)).Nodup) (hrecord : record ∈ records) :
    records.find? (·.id = record.id) = some record := by
  induction records with
  | nil => cases hrecord
  | cons first records ih =>
    rw [List.map_cons, List.nodup_cons] at hnodup
    rw [List.find?_cons]
    rcases List.mem_cons.mp hrecord with rfl | hrest
    · rw [decide_eq_true rfl]
    · have hne : first.id ≠ record.id := fun hid =>
        hnodup.1 (List.mem_map.mpr ⟨record, hrest, hid.symm⟩)
      rw [decide_eq_false hne]
      exact ih hnodup.2 hrest

theorem not_revoked_of_mem_envRecords {sha256 : Sha256} {env : KeyEnvironment}
    {record : ApiKeyRecord} (h : record ∈ envRecords sha256 env) : record.revoked = false := by
  rcases List.mem_append.mp h with hplain | hhash
  · obtain ⟨entry,_,rfl⟩ := List.mem_map.mp hplain
    rfl
  · obtain ⟨entry,_,rfl⟩ := List.mem_map.mp hhash
    rfl

theorem lists_of_fromEnv {sha256 : Sha256} {env : KeyEnvironment} {store : ApiKeyStore}
    (h : ApiKeyStore.fromEnv sha256 env = .ok store) :
    env.WellFormed ∧ Lists store (envRecords sha256 env) := by
  by_cases hwell : env.WellFormed
  · obtain ⟨built,hbuilt,hlists⟩ := @fromEnv_of_wellFormed sha256 env hwell
    obtain rfl : built = store := Except.ok.inj (hbuilt.symm.trans h)
    exact ⟨hwell, hlists⟩
  · rw [fromEnv_of_not_wellFormed hwell] at h
    cases h

/-- Every key of the environment is good. -/
theorem configured_key_found {sha256 : Sha256} {env : KeyEnvironment} {apiKey : String}
    (hwell : env.WellFormed) (h : apiKey ∈ configuredValues env.apiKeys) :
    ∃ store record, ApiKeyStore.fromEnv sha256 env = .ok store ∧
      store.findKeyByValue sha256 apiKey = .ok (some record) := by
  obtain ⟨store,hstore,hlists⟩ := @fromEnv_of_wellFormed sha256 env hwell
  have hreflects := hlists.reflects (validRecord_envRecords hwell)
  obtain ⟨found,hfound,hiff,_⟩ :=
    @Reflects.findKeyByValue sha256 apiKey _ _ hreflects (mem_configuredValues_ne h)
  obtain ⟨index,hindex⟩ := List.mem_iff_getElem?.mp h
  have hentry : (apiKey,index) ∈ (configuredValues env.apiKeys).zipIdx :=
    List.mk_mem_zipIdx_iff_getElem?.mpr hindex
  have hmem : envKeyRecord sha256 (apiKey,index) ∈ envRecords sha256 env :=
    List.mem_append_left _ (List.mem_map_of_mem hentry)
  have hsome := hiff.mpr ⟨_, _, find?_id_of_mem (nodup_id_envRecords sha256 env) hmem, rfl,
    normalizeHash_hexDigits (sha256.digest apiKey)⟩
  obtain ⟨record,rfl⟩ := Option.isSome_iff_exists.mp hsome
  exact ⟨store, record, hstore, hfound⟩

/-- What is found behind a revocation is what has the hash under another id. -/
theorem findKeyByValue_revokeKey {sha256 : Sha256} {env : KeyEnvironment} {store : ApiKeyStore}
    {apiKey : String} (hstore : ApiKeyStore.fromEnv sha256 env = .ok store) (hkey : apiKey ≠ "")
    (id : String) :
    ∃ found, (store.revokeKey id).findKeyByValue sha256 apiKey = .ok found ∧
      (found.isSome = true ↔ ∃ record ∈ envRecords sha256 env, record.id ≠ id ∧
        normalizeHash record.hash = String.ofList (hexDigits (sha256.digest apiKey))) := by
  obtain ⟨hwell,hlists⟩ := lists_of_fromEnv hstore
  have hreflects := hlists.reflects (validRecord_envRecords hwell)
  have hrevoked := @Reflects.revokeKey sha256 _ _ hreflects id
  obtain ⟨found,hfound,hiff,_⟩ := @Reflects.findKeyByValue sha256 apiKey _ _ hrevoked hkey
  refine ⟨found, hfound, hiff.trans ?_⟩
  constructor
  · rintro ⟨id',record,hrecord,hnot,hhash⟩
    rw [latest, Function.update_apply] at hrecord
    split_ifs at hrecord with hid
    · -- under this id there is only a revoked record
      obtain ⟨original,_,rfl⟩ := Option.map_eq_some_iff.mp hrecord
      cases hnot
    · have hid' := hreflects.named id' record hrecord
      rw [← hid'] at hid
      exact ⟨record, List.mem_of_find?_eq_some hrecord, hid, hhash⟩
  · rintro ⟨record,hrecord,hid,hhash⟩
    refine ⟨record.id, record, ?_, not_revoked_of_mem_envRecords hrecord, hhash⟩
    rw [latest, Function.update_of_ne hid]
    exact find?_id_of_mem (nodup_id_envRecords sha256 env) hrecord

/-- A key that the environment configures is refused after its revocation exactly if it
is configured once, as a key or as a hash. -/
theorem revocation_effective_iff {sha256 : Sha256} {env : KeyEnvironment} {store : ApiKeyStore}
    {apiKey : String} {record : ApiKeyRecord}
    (hstore : ApiKeyStore.fromEnv sha256 env = .ok store)
    (hfound : store.findKeyByValue sha256 apiKey = .ok (some record)) :
    (store.revokeKey record.id).findKeyByValue sha256 apiKey = .ok none ↔
      (configuredHashes sha256 env).count (String.ofList (hexDigits (sha256.digest apiKey))) =
        1 := by
  have hkey : apiKey ≠ "" := by
    rintro rfl
    cases hfound
  obtain ⟨hwell,hlists⟩ := lists_of_fromEnv hstore
  have hreflects := hlists.reflects (validRecord_envRecords hwell)
  obtain ⟨found,hsame,_,hfits⟩ := @Reflects.findKeyByValue sha256 apiKey _ _ hreflects hkey
  obtain rfl : found = some record := Except.ok.inj (hsame.symm.trans hfound)
  -- what was found is a record of the environment that has the hash of the key
  obtain ⟨original,horiginal,_,hhash⟩ := hfits record rfl
  have hid : original.id = record.id := hreflects.named record.id original horiginal
  have hmem := List.mem_of_find?_eq_some horiginal
  obtain ⟨after,hafter,hiff⟩ := findKeyByValue_revokeKey hstore hkey record.id
  have hnone : after = none ↔ ¬after.isSome = true := by
    rw [Option.not_isSome_iff_eq_none]
  rw [← map_hash_envRecords, ← hhash,
    count_hash_eq_one_iff (nodup_id_envRecords sha256 env) hmem, hafter, Except.ok.injEq, hnone,
    hiff, hid, hhash]
  simp only [not_exists, not_and, ne_eq]

theorem revocation_of_single_key : ∃ store record,
    ApiKeyStore.fromEnv sampleSha256 ⟨some " key, other-key,", none⟩ = .ok store ∧
      store.findKeyByValue sampleSha256 "key" = .ok (some record) ∧
      (store.revokeKey record.id).findKeyByValue sampleSha256 "key" = .ok none := by
  have hconfigured : configuredValues (some " key, other-key,") = ["key", "other-key"] := by decide
  have hwell := KeyEnvironment.wellFormed_of_no_hashes (some " key, other-key,")
  obtain ⟨store,record,hstore,hfound⟩ := @configured_key_found sampleSha256 _ "key" hwell
    (by rw [hconfigured]; exact List.mem_cons_self)
  refine ⟨store, record, hstore, hfound, (revocation_effective_iff hstore hfound).mpr ?_⟩
  rw [configuredHashes, hconfigured]
  decide

/-- A key that is listed twice stays good under the id that is not revoked. -/
theorem key_listed_twice_survives_revocation :
    ¬∀ (sha256 : Sha256) (env : KeyEnvironment) (store : ApiKeyStore) (apiKey : String)
        (record : ApiKeyRecord), ApiKeyStore.fromEnv sha256 env = .ok store →
      store.findKeyByValue sha256 apiKey = .ok (some record) →
      (store.revokeKey record.id).findKeyByValue sha256 apiKey = .ok none := by
  intro hclaim
  have hconfigured : configuredValues (some "key,key") = ["key", "key"] := by decide
  have hwell := KeyEnvironment.wellFormed_of_no_hashes (some "key,key")
  obtain ⟨store,record,hstore,hfound⟩ := @configured_key_found sampleSha256 _ "key" hwell
    (by rw [hconfigured]; exact List.mem_cons_self)
  have hrefused := hclaim _ _ store "key" record hstore hfound
  have hkey : "key" ≠ "" := by decide
  obtain ⟨found,hafter,hiff⟩ := findKeyByValue_revokeKey hstore hkey record.id
  obtain rfl : found = none := Except.ok.inj (hafter.symm.trans hrefused)
  -- whichever id is revoked, the other one is left
  have hlisted (index : ℕ) (hindex : ["key", "key"][index]? = some "key") :
      envKeyRecord sampleSha256 ("key",index) ∈ envRecords sampleSha256 ⟨some "key,key", none⟩ := by
    have hentry : ("key",index) ∈ (configuredValues (some "key,key")).zipIdx := by
      rw [hconfigured]
      exact List.mk_mem_zipIdx_iff_getElem?.mpr hindex
    exact List.mem_append_left _ (List.mem_map_of_mem hentry)
  have hsame (index : ℕ) := normalizeHash_hexDigits (sampleSha256.digest "key")
  by_cases hid : plaintextId 0 = record.id
  · have hother : plaintextId 1 ≠ record.id := by
      rw [← hid]
      decide
    cases hiff.mpr ⟨_, hlisted 1 rfl, hother, hsame 1⟩
  · cases hiff.mpr ⟨_, hlisted 0 rfl, hid, hsame 0⟩

end ApiKeys
end StreamPay
