import Mathlib.Data.List.Find
import StreamPay.ApiGate
import StreamPay.HexBuffers

/-! The store of API keys: what is kept of each record, and which keys it finds. -/
namespace StreamPay
namespace ApiKeys

/-- SHA-256 of a text in UTF-8: some function to 32 bytes. -/
structure Sha256 where
  digest : String → List UInt8
  length : ∀ text, (digest text).length = 32

/-- An argument of `addKeyRecord`; a field that is missing is `none`. -/
structure ApiKeyRecordInput where
  id : Option String
  hash : Option String
  /-- `none` if it is no boolean. -/
  revoked : Option Bool

structure StoredApiKeyRecord where
  record : ApiKeyRecord
  hashBuffer : List UInt8

structure ApiKeyStore where
  keys : InsertionMap String StoredApiKeyRecord

def hashApiKey (sha256 : Sha256) (apiKey : String) : Except String String :=
  if apiKey = "" then .error "API key is required for hashing"
  else .ok (String.ofList (hexDigits (sha256.digest apiKey)))

/-- `/^[0-9a-f]{64}$/i`. -/
def isSha256Hex (hash : String) : Bool := hash.toList.length = 64 && isHex hash.toList

def normalizeHash (hash : String) : String := String.ofList (hash.toList.map Char.toLower)

/-- `crypto.timingSafeEqual`, which throws on buffers of different lengths. -/
def timingSafeEqual (a b : List UInt8) : Except String Bool :=
  if a.length = b.length then .ok (a = b)
  else .error "Input buffers must have the same byte length"

/-- The checks of `addKeyRecord`. -/
def checkRecord (record : Option ApiKeyRecordInput) : Except String ApiKeyRecord :=
  match record with
  | none => .error "ApiKeyStore: invalid key record"
  | some record =>
    match record.id.filter (· ≠ ""), record.hash.filter (· ≠ ""), record.revoked with
    | some id, some hash, some revoked =>
      if !isSha256Hex hash then .error "ApiKeyStore: key hash must be a SHA-256 hex digest"
      else .ok ⟨id, hash, revoked⟩
    | _, _, _ => .error "ApiKeyStore: invalid key record"

/-- What the store keeps of a record. -/
def storedRecord (record : ApiKeyRecord) : StoredApiKeyRecord where
  record := { record with hash := normalizeHash record.hash }
  hashBuffer := bufferFromHex (normalizeHash record.hash).toList

namespace ApiKeyStore

def empty : ApiKeyStore := ⟨.empty⟩

def addKeyRecord (store : ApiKeyStore) (record : Option ApiKeyRecordInput) :
    Except String Unit × ApiKeyStore :=
  match checkRecord record with
  | .error message => (.error message, store)
  | .ok record => (.ok (), ⟨store.keys.set record.id (storedRecord record)⟩)

def addPlaintextKey (sha256 : Sha256) (store : ApiKeyStore) (id apiKey : String)
    (revoked : Bool) : Except String ApiKeyRecord × ApiKeyStore :=
  match hashApiKey sha256 apiKey with
  | .error message => (.error message, store)
  | .ok hash =>
    let (result,store) := store.addKeyRecord (some ⟨some id, some hash, some revoked⟩)
    (result.map fun _ => ⟨id, hash, revoked⟩, store)

def revokeKey (store : ApiKeyStore) (id : String) : ApiKeyStore :=
  match store.keys.get id with
  | none => store
  | some entry => ⟨store.keys.set id { entry with record := { entry.record with revoked := true } }⟩

def clear (_ : ApiKeyStore) : ApiKeyStore := ⟨.empty⟩

def getKeys (store : ApiKeyStore) : List ApiKeyRecord :=
  store.keys.values.map StoredApiKeyRecord.record

/-- The scan goes on behind a match; the last one that is not revoked counts. -/
def findKeyByValue (sha256 : Sha256) (store : ApiKeyStore) (apiKey : String) :
    Except String (Option ApiKeyRecord) := do
  let hash ← hashApiKey sha256 apiKey
  let candidateBuffer := bufferFromHex hash.toList
  store.keys.values.foldlM (fun matchedRecord entry => do
    let isMatch ← timingSafeEqual candidateBuffer entry.hashBuffer
    return if isMatch && !entry.record.revoked then some entry.record else matchedRecord) none

end ApiKeyStore

/-- A call that may change the store. -/
inductive StoreCall
  | addKeyRecord (record : Option ApiKeyRecordInput)
  | addPlaintextKey (id apiKey : String) (revoked : Bool)
  | revokeKey (id : String)
  | clear

/-- What a call returns or throws is left out, but for whether it throws. -/
def perform (sha256 : Sha256) (store : ApiKeyStore) : StoreCall → Except String Unit × ApiKeyStore
  | .addKeyRecord record => store.addKeyRecord record
  | .addPlaintextKey id apiKey revoked =>
    let (result,store) := store.addPlaintextKey sha256 id apiKey revoked
    (result.map fun _ => (), store)
  | .revokeKey id => (.ok (), store.revokeKey id)
  | .clear => (.ok (), store.clear)

/-- The store after some calls, of which any may have thrown. -/
def performAll (sha256 : Sha256) (store : ApiKeyStore) (calls : List StoreCall) : ApiKeyStore :=
  calls.foldl (fun store call => (perform sha256 store call).2) store

/-- The latest state of each id, as the calls that do not throw have it: hashes in
the case in which they were given. -/
def latest (sha256 : Sha256) (records : String → Option ApiKeyRecord) :
    StoreCall → String → Option ApiKeyRecord
  | .addKeyRecord record => match record with
    | some ⟨some id, some hash, some revoked⟩ =>
      if id ≠ "" ∧ isSha256Hex hash = true then
        Function.update records id (some ⟨id, hash, revoked⟩)
      else records
    | _ => records
  | .addPlaintextKey id apiKey revoked =>
    if id = "" ∨ apiKey = "" then records
    else Function.update records id
      (some ⟨id, String.ofList (hexDigits (sha256.digest apiKey)), revoked⟩)
  | .revokeKey id =>
    Function.update records id ((records id).map fun record => { record with revoked := true })
  | .clear => fun _ => none

def latestAll (sha256 : Sha256) (calls : List StoreCall) : String → Option ApiKeyRecord :=
  calls.foldl (latest sha256) fun _ => none

/-- A record that the store takes. -/
structure ValidRecord (record : ApiKeyRecord) : Prop where
  id : record.id ≠ ""
  hash : isSha256Hex record.hash = true

theorem checkRecord_ok_iff {record : ApiKeyRecord} {input : Option ApiKeyRecordInput} :
    checkRecord input = .ok record ↔
      input = some ⟨some record.id, some record.hash, some record.revoked⟩ ∧
        ValidRecord record := by
  constructor
  · intro h
    unfold checkRecord at h
    split at h
    · cases h
    · rename_i fields
      split at h
      · rename_i id hash revoked hid hhash hrevoked
        split_ifs at h with hinvalid
        obtain rfl := Except.ok.inj h
        obtain ⟨hid,hne⟩ := Option.filter_eq_some_iff.mp hid
        obtain ⟨hhash,_⟩ := Option.filter_eq_some_iff.mp hhash
        refine ⟨?_, of_decide_eq_true hne, by simpa using hinvalid⟩
        rw [← hid, ← hhash, ← hrevoked]
      · cases h
  · rintro ⟨rfl,hid,hhash⟩
    -- an empty text counts as missing, but is no digest either
    have hne : record.hash ≠ "" := by
      intro hempty
      rw [hempty] at hhash
      exact absurd hhash (by decide)
    have hkeptId : (some record.id).filter (· ≠ "") = some record.id := by
      rw [Option.filter_some, if_pos (decide_eq_true hid)]
    have hkeptHash : (some record.hash).filter (· ≠ "") = some record.hash := by
      rw [Option.filter_some, if_pos (decide_eq_true hne)]
    simp only [checkRecord, hkeptId, hkeptHash, hhash, Bool.not_true, Bool.false_eq_true,
      ↓reduceIte]

theorem normalizeHash_hexDigits (buffer : List UInt8) :
    normalizeHash (String.ofList (hexDigits buffer)) = String.ofList (hexDigits buffer) := by
  rw [normalizeHash, String.toList_ofList]
  exact congrArg String.ofList (spells_hexDigits buffer)

/-- A digest has 32 bytes, and they tell it but for the case of its digits. -/
theorem exists_buffer {hash : String} (h : isSha256Hex hash = true) :
    ∃ buffer, buffer.length = 32 ∧ normalizeHash hash = String.ofList (hexDigits buffer) := by
  rw [isSha256Hex, Bool.and_eq_true, decide_eq_true_eq] at h
  obtain ⟨buffer,hbuffer,hspells⟩ := exists_spells h.2 (show hash.toList.length = 2*32 from h.1)
  exact ⟨buffer, hbuffer, congrArg String.ofList hspells⟩

theorem isSha256Hex_hexDigits {buffer : List UInt8} (h : buffer.length = 32) :
    isSha256Hex (String.ofList (hexDigits buffer)) = true := by
  rw [isSha256Hex, String.toList_ofList, length_hexDigits, h,
    isHex_of_spells (spells_hexDigits buffer)]
  rfl

section
variable {sha256 : Sha256} {apiKey : String}

theorem hashApiKey_of_ne (h : apiKey ≠ "") :
    hashApiKey sha256 apiKey = .ok (String.ofList (hexDigits (sha256.digest apiKey))) :=
  if_neg h

theorem bufferFromHex_toList (buffer : List UInt8) :
    bufferFromHex (String.ofList (hexDigits buffer)).toList = buffer := by
  rw [String.toList_ofList, bufferFromHex_hexDigits]

/-- The buffer of a valid record has the length of a digest, and is what its hash spells. -/
theorem hashBuffer_storedRecord {record : ApiKeyRecord} (h : ValidRecord record) :
    (storedRecord record).hashBuffer.length = 32 ∧
      normalizeHash record.hash = String.ofList (hexDigits (storedRecord record).hashBuffer) := by
  obtain ⟨buffer,hlength,hhash⟩ := exists_buffer h.hash
  have hbuffer : (storedRecord record).hashBuffer = buffer := by
    rw [storedRecord, hhash, bufferFromHex_toList]
  rw [hbuffer]
  exact ⟨hlength, hhash⟩

theorem hexDigits_eq_iff {first second : List UInt8} :
    String.ofList (hexDigits first) = String.ofList (hexDigits second) ↔ first = second := by
  constructor
  · intro h
    rw [← bufferFromHex_toList first, h, bufferFromHex_toList]
  · rintro rfl
    rfl

end

/-- The store has exactly the records of a table, each with its buffer. -/
structure Reflects (store : ApiKeyStore) (records : String → Option ApiKeyRecord) : Prop where
  stored : ∀ id, store.keys.get id = (records id).map storedRecord
  named : ∀ id record, records id = some record → record.id = id
  valid : ∀ id record, records id = some record → ValidRecord record

section
variable {sha256 : Sha256} {apiKey : String} {store : ApiKeyStore}
  {records : String → Option ApiKeyRecord}

theorem Reflects.set (h : Reflects store records) {record : ApiKeyRecord}
    (hvalid : ValidRecord record) : Reflects ⟨store.keys.set record.id (storedRecord record)⟩
      (Function.update records record.id (some record)) := by
  refine ⟨fun id => ?_, fun id other hother => ?_, fun id other hother => ?_⟩
  · rw [InsertionMap.get_set, Function.update_apply, h.stored]
    split_ifs <;> rfl
  · rw [Function.update_apply] at hother
    split_ifs at hother with hid
    · rw [← Option.some.inj hother, hid]
    · exact h.named id other hother
  · rw [Function.update_apply] at hother
    split_ifs at hother with hid
    · rw [← Option.some.inj hother]
      exact hvalid
    · exact h.valid id other hother

/-- The table takes the records that pass the checks of the store. -/
theorem latest_addKeyRecord (sha256 : Sha256) (records : String → Option ApiKeyRecord)
    (input : Option ApiKeyRecordInput) : latest sha256 records (.addKeyRecord input) =
      match checkRecord input with
      | .error _ => records
      | .ok record => Function.update records record.id (some record) := by
  cases hinput : checkRecord input with
  | ok record =>
    obtain ⟨rfl,hvalid⟩ := checkRecord_ok_iff.mp hinput
    exact if_pos ⟨hvalid.id, hvalid.hash⟩
  | error message =>
    simp only [latest]
    split
    · rename_i id hash revoked
      apply if_neg
      rintro ⟨hid,hhash⟩
      have hok := (@checkRecord_ok_iff ⟨id, hash, revoked⟩ _).mpr ⟨rfl, hid, hhash⟩
      rw [hinput] at hok
      cases hok
    · rfl

theorem Reflects.addKeyRecord (h : Reflects store records) (input : Option ApiKeyRecordInput) :
    Reflects (store.addKeyRecord input).2 (latest sha256 records (.addKeyRecord input)) := by
  rw [latest_addKeyRecord, ApiKeyStore.addKeyRecord]
  cases hinput : checkRecord input with
  | error message => exact h
  | ok record => exact h.set (checkRecord_ok_iff.mp hinput).2

theorem Reflects.revokeKey (h : Reflects store records) (id : String) :
    Reflects (store.revokeKey id) (latest sha256 records (.revokeKey id)) := by
  have hstored := h.stored id
  simp only [ApiKeyStore.revokeKey, latest]
  cases hrecord : records id with
  | none =>
    -- an unknown id changes neither the store nor the table
    rw [hrecord] at hstored
    simp only [hstored, Option.map_none]
    have hsame : Function.update records id none = records := by
      rw [← hrecord]
      exact Function.update_eq_self id records
    rw [hsame]
    exact h
  | some record =>
    -- the buffer is that of the revoked record too, since the hash stays
    rw [hrecord] at hstored
    simp only [hstored, Option.map_some]
    obtain rfl := h.named id record hrecord
    have hvalid := h.valid record.id record hrecord
    have hrevoked : ValidRecord { record with revoked := true } := ⟨hvalid.id, hvalid.hash⟩
    have hset := h.set hrevoked
    simp only [storedRecord] at hset ⊢
    exact hset

theorem checkRecord_digest {id : String} (hid : id ≠ "") (revoked : Bool) :
    checkRecord (some ⟨some id, some (String.ofList (hexDigits (sha256.digest apiKey))),
        some revoked⟩) =
      .ok ⟨id, String.ofList (hexDigits (sha256.digest apiKey)), revoked⟩ :=
  checkRecord_ok_iff.mpr ⟨rfl, hid, isSha256Hex_hexDigits (sha256.length apiKey)⟩

theorem checkRecord_empty_id (hash : String) (revoked : Bool) :
    checkRecord (some ⟨some "", some hash, some revoked⟩) =
      .error "ApiKeyStore: invalid key record" := by
  have hdropped : (some "").filter (· ≠ "") = none := by decide
  simp only [checkRecord, hdropped]

theorem Reflects.addPlaintextKey (h : Reflects store records) (id apiKey : String)
    (revoked : Bool) : Reflects (store.addPlaintextKey sha256 id apiKey revoked).2
      (latest sha256 records (.addPlaintextKey id apiKey revoked)) := by
  by_cases hkey : apiKey = ""
  · have hhash : hashApiKey sha256 apiKey = .error "API key is required for hashing" := if_pos hkey
    rw [latest, if_pos (Or.inr hkey), ApiKeyStore.addPlaintextKey, hhash]
    exact h
  · -- the digest passes the checks of the record, so that only its id may fail
    simp only [ApiKeyStore.addPlaintextKey, ApiKeyStore.addKeyRecord, latest,
      hashApiKey_of_ne hkey, hkey, or_false]
    by_cases hid : id = ""
    · subst hid
      simp only [checkRecord_empty_id, if_true]
      exact h
    · have hvalid : ValidRecord ⟨id, String.ofList (hexDigits (sha256.digest apiKey)), revoked⟩ :=
        ⟨hid, isSha256Hex_hexDigits (sha256.length apiKey)⟩
      simp only [checkRecord_digest hid, if_neg hid]
      exact h.set hvalid

theorem Reflects.clear (store : ApiKeyStore) :
    Reflects store.clear (latest sha256 records .clear) := by
  refine ⟨fun id => ?_, fun id record hrecord => ?_, fun id record hrecord => ?_⟩
  · exact InsertionMap.get_empty id
  · exact absurd hrecord (by simp [latest])
  · exact absurd hrecord (by simp [latest])

/-- One call keeps the store to the table of the latest records. -/
theorem Reflects.perform (h : Reflects store records) (call : StoreCall) :
    Reflects (perform sha256 store call).2 (latest sha256 records call) := by
  cases call with
  | addKeyRecord input => exact h.addKeyRecord input
  | addPlaintextKey id apiKey revoked => exact h.addPlaintextKey id apiKey revoked
  | revokeKey id => exact h.revokeKey id
  | clear => exact .clear store

theorem Reflects.performAll (calls : List StoreCall) {store : ApiKeyStore}
    {records : String → Option ApiKeyRecord} (h : Reflects store records) :
    Reflects (performAll sha256 store calls) (calls.foldl (latest sha256) records) := by
  induction calls generalizing store records with
  | nil => exact h
  | cons call calls ih => exact ih (h.perform call)

theorem reflects_empty : Reflects .empty fun _ => none := by
  refine ⟨InsertionMap.get_empty, fun id record hrecord => ?_, fun id record hrecord => ?_⟩
  · cases hrecord
  · cases hrecord

theorem reflects_latestAll (calls : List StoreCall) :
    Reflects (performAll sha256 .empty calls) (latestAll sha256 calls) :=
  reflects_empty.performAll calls

end

/-- A scan that keeps what it finds last. -/
theorem foldl_eq_find?_reverse {α β : Type} (p : α → Bool) (f : α → β) (l : List α)
    (found : Option β) :
    l.foldl (fun matched x => if p x then some (f x) else matched) found =
      ((l.reverse.find? p).map f).or found := by
  induction l generalizing found with
  | nil => rfl
  | cons x l ih =>
    rw [List.foldl_cons, ih, List.reverse_cons, List.find?_append]
    cases l.reverse.find? p with
    | some y => rfl
    | none =>
      rw [Option.map_none, Option.none_or, Option.none_or, List.find?_singleton]
      split_ifs <;> rfl

section
variable {sha256 : Sha256} {apiKey : String} {store : ApiKeyStore}
  {records : String → Option ApiKeyRecord}

/-- The test that the scan makes of an entry. -/
def accepts (sha256 : Sha256) (apiKey : String) (entry : StoredApiKeyRecord) : Bool :=
  decide (sha256.digest apiKey = entry.hashBuffer) && !entry.record.revoked

theorem findKeyByValue_eq (hkey : apiKey ≠ "")
    (hlength : ∀ entry ∈ store.keys.values, entry.hashBuffer.length = 32) :
    store.findKeyByValue sha256 apiKey =
      .ok ((store.keys.values.reverse.find? (accepts sha256 apiKey)).map (·.record)) := by
  -- every buffer has the length of a digest, so that no comparison throws
  have hscan (entries : List StoredApiKeyRecord) (found : Option ApiKeyRecord)
      (h : ∀ entry ∈ entries, entry.hashBuffer.length = 32) :
      entries.foldlM (fun matchedRecord entry => do
        let isMatch ← timingSafeEqual (sha256.digest apiKey) entry.hashBuffer
        return if isMatch && !entry.record.revoked then some entry.record else matchedRecord)
        found =
      (.ok (entries.foldl (fun matched entry =>
        if accepts sha256 apiKey entry then some entry.record else matched) found) :
        Except String (Option ApiKeyRecord)) := by
    induction entries generalizing found with
    | nil => rfl
    | cons entry entries ih =>
      have hsame : (sha256.digest apiKey).length = entry.hashBuffer.length := by
        rw [sha256.length, h entry List.mem_cons_self]
      have hequal : timingSafeEqual (sha256.digest apiKey) entry.hashBuffer =
          .ok (decide (sha256.digest apiKey = entry.hashBuffer)) := if_pos hsame
      rw [List.foldlM_cons, hequal, List.foldl_cons]
      exact ih _ fun other hother => h other (List.mem_cons_of_mem entry hother)
  rw [ApiKeyStore.findKeyByValue, hashApiKey_of_ne hkey]
  have hfound := hscan store.keys.values none hlength
  rw [foldl_eq_find?_reverse, Option.or_none] at hfound
  change store.keys.values.foldlM _ none = _
  rw [bufferFromHex_toList]
  exact hfound

/-- A record that is not revoked and has the hash of a key, in digits of any case. -/
def Fits (sha256 : Sha256) (apiKey : String) (record : ApiKeyRecord) : Prop :=
  record.revoked = false ∧
    normalizeHash record.hash = String.ofList (hexDigits (sha256.digest apiKey))

theorem accepts_storedRecord {record : ApiKeyRecord} (h : ValidRecord record) :
    accepts sha256 apiKey (storedRecord record) = true ↔ Fits sha256 apiKey record := by
  have hrevoked : (storedRecord record).record.revoked = record.revoked := rfl
  rw [accepts, Bool.and_eq_true, decide_eq_true_eq, hrevoked, Bool.not_eq_true', and_comm, Fits,
    (hashBuffer_storedRecord h).2, hexDigits_eq_iff, @eq_comm _ (sha256.digest apiKey)]

theorem Reflects.mem_values (h : Reflects store records) {entry : StoredApiKeyRecord} :
    entry ∈ store.keys.values ↔ ∃ id record, records id = some record ∧
      entry = storedRecord record := by
  constructor
  · intro hentry
    obtain ⟨⟨id,entry⟩,hmem,rfl⟩ := List.mem_map.mp hentry
    have hget := (store.keys.get_eq_some_iff id entry).mpr hmem
    rw [h.stored, Option.map_eq_some_iff] at hget
    obtain ⟨record,hrecord,hsame⟩ := hget
    exact ⟨id, record, hrecord, hsame.symm⟩
  · rintro ⟨id,record,hrecord,rfl⟩
    have hget : store.keys.get id = some (storedRecord record) := by
      rw [h.stored, hrecord, Option.map_some]
    exact List.mem_map.mpr ⟨_, (store.keys.get_eq_some_iff id _).mp hget, rfl⟩

theorem Reflects.length_hashBuffer (h : Reflects store records) :
    ∀ entry ∈ store.keys.values, entry.hashBuffer.length = 32 := by
  intro entry hentry
  obtain ⟨id,record,hrecord,rfl⟩ := h.mem_values.mp hentry
  exact (hashBuffer_storedRecord (h.valid id record hrecord)).1

/-- A key is found exactly if a record of the table fits it, and what is found is one
of those. -/
theorem Reflects.findKeyByValue (h : Reflects store records) (hkey : apiKey ≠ "") :
    ∃ found, store.findKeyByValue sha256 apiKey = .ok found ∧
      (found.isSome = true ↔ ∃ id record, records id = some record ∧ Fits sha256 apiKey record) ∧
      ∀ key, found = some key → ∃ record, records key.id = some record ∧
        Fits sha256 apiKey record := by
  refine ⟨_, findKeyByValue_eq hkey h.length_hashBuffer, ?_, ?_⟩
  · rw [Option.isSome_map, List.find?_isSome]
    constructor
    · rintro ⟨entry,hentry,haccepts⟩
      obtain ⟨id,record,hrecord,rfl⟩ := h.mem_values.mp (List.mem_reverse.mp hentry)
      exact ⟨id, record, hrecord, (accepts_storedRecord (h.valid id record hrecord)).mp haccepts⟩
    · rintro ⟨id,record,hrecord,hfits⟩
      have hentry := h.mem_values.mpr ⟨id, record, hrecord, rfl⟩
      have haccepts := (accepts_storedRecord (h.valid id record hrecord)).mpr hfits
      exact ⟨storedRecord record, List.mem_reverse.mpr hentry, haccepts⟩
  · intro key hkey
    obtain ⟨entry,hfound,rfl⟩ := Option.map_eq_some_iff.mp hkey
    have hentry := List.mem_reverse.mp (List.mem_of_find?_eq_some hfound)
    obtain ⟨id,record,hrecord,rfl⟩ := h.mem_values.mp hentry
    have hid : (storedRecord record).record.id = id := h.named id record hrecord
    rw [hid]
    exact ⟨record, hrecord, (accepts_storedRecord (h.valid id record hrecord)).mp
      (List.find?_some hfound)⟩

/-- The gate of the API, over the records that the store lists, finds the same key. -/
theorem Reflects.findKeyByValue_gate (h : Reflects store records) (hkey : apiKey ≠ "")
    {runtime : ApiRuntime}
    (hsha256 : runtime.sha256 apiKey = String.ofList (hexDigits (sha256.digest apiKey))) :
    store.findKeyByValue sha256 apiKey =
      .ok (StreamPay.ApiKeyStore.findKeyByValue runtime ⟨store.getKeys⟩ apiKey) := by
  have hgate : StreamPay.ApiKeyStore.findKeyByValue runtime ⟨store.getKeys⟩ apiKey = _ :=
    foldl_eq_find?_reverse _ id store.getKeys none
  have hsame : ∀ entry ∈ store.keys.values.reverse, accepts sha256 apiKey entry =
      (decide (entry.record.hash = runtime.sha256 apiKey) && !entry.record.revoked) := by
    intro entry hentry
    obtain ⟨id,record,hrecord,rfl⟩ := h.mem_values.mp (List.mem_reverse.mp hentry)
    have hhash : (storedRecord record).record.hash =
        String.ofList (hexDigits (storedRecord record).hashBuffer) :=
      (hashBuffer_storedRecord (h.valid id record hrecord)).2
    rw [accepts, hsha256, hhash, decide_eq_decide.mpr (hexDigits_eq_iff.trans eq_comm)]
  rw [findKeyByValue_eq hkey h.length_hashBuffer, hgate, Option.or_none, ApiKeyStore.getKeys,
    ← List.map_reverse, List.find?_map, Option.map_map, Function.id_comp,
    List.find?_congr hsame]
  rfl

/-- A call that throws changes nothing. -/
theorem perform_error {call : StoreCall} {message : String}
    (h : (perform sha256 store call).1 = .error message) :
    (perform sha256 store call).2 = store := by
  -- the checks come before the map is touched
  have hadd (input : Option ApiKeyRecordInput) :
      (∃ message, (store.addKeyRecord input).1 = .error message) →
        (store.addKeyRecord input).2 = store := by
    rintro ⟨message,herror⟩
    unfold ApiKeyStore.addKeyRecord at herror ⊢
    split at herror
    · rfl
    · cases herror
  cases call with
  | addKeyRecord input => exact hadd input ⟨message, h⟩
  | addPlaintextKey id apiKey revoked =>
    simp only [perform, ApiKeyStore.addPlaintextKey] at h ⊢
    cases hhash : hashApiKey sha256 apiKey with
    | error message => rfl
    | ok hash =>
      simp only [hhash] at h
      apply hadd
      cases hresult : (store.addKeyRecord (some ⟨some id, some hash, some revoked⟩)).1 with
      | error message => exact ⟨message, rfl⟩
      | ok result =>
        rw [hresult] at h
        cases h
  | revokeKey id => cases h
  | clear => cases h

end

/-- After any calls, those that throw among them, each buffer is what the stored hash
spells, a key is found exactly if the latest record of some id is not revoked and has the
digest of the key, in digits of any case, and a further call that throws changes nothing. -/
theorem keys_found_by_latest_records (sha256 : Sha256) (calls : List StoreCall) :
    (∀ entry ∈ (performAll sha256 .empty calls).keys.values,
      entry.hashBuffer.length = 32 ∧
        entry.record.hash = String.ofList (hexDigits entry.hashBuffer) ∧
        entry.hashBuffer = bufferFromHex entry.record.hash.toList) ∧
    (∀ apiKey ≠ "", ∃ found,
      (performAll sha256 .empty calls).findKeyByValue sha256 apiKey = .ok found ∧
        (found.isSome = true ↔ ∃ id record, latestAll sha256 calls id = some record ∧
          record.revoked = false ∧
          record.hash.toList.map Char.toLower = hexDigits (sha256.digest apiKey))) ∧
    ∀ call message, (perform sha256 (performAll sha256 .empty calls) call).1 = .error message →
      (perform sha256 (performAll sha256 .empty calls) call).2 =
        performAll sha256 .empty calls := by
  have h := @reflects_latestAll sha256 calls
  refine ⟨fun entry hentry => ?_, fun apiKey hkey => ?_, fun call message => perform_error⟩
  · obtain ⟨id,record,hrecord,rfl⟩ := h.mem_values.mp hentry
    have hbuffer := hashBuffer_storedRecord (h.valid id record hrecord)
    refine ⟨hbuffer.1, hbuffer.2, ?_⟩
    simp only [storedRecord]
  · obtain ⟨found,hfound,hfits,_⟩ := h.findKeyByValue hkey
    refine ⟨found, hfound, hfits.trans ?_⟩
    simp only [Fits, normalizeHash, String.ofList_inj]

/-- A digest of some bytes of the same value. -/
def sampleSha256 : Sha256 where
  digest text := List.replicate 32 (UInt8.ofNat (160+text.length))
  length _ := List.length_replicate

/-- The key is revoked under one id, and stays good under another. -/
theorem key_found_by_upper_case_hash : ∃ record,
    (performAll sampleSha256 .empty
      [.addPlaintextKey "a" "key" false, .addKeyRecord none,
        .addKeyRecord (some ⟨some "b",
          some "A3A3A3A3A3A3A3A3A3A3A3A3A3A3A3A3A3A3A3A3A3A3A3A3A3A3A3A3A3A3A3A3",
          some false⟩), .revokeKey "a"]).findKeyByValue sampleSha256 "key" =
      .ok (some record) := by
  obtain ⟨found,hfound,hiff⟩ := (keys_found_by_latest_records sampleSha256
    [.addPlaintextKey "a" "key" false, .addKeyRecord none,
      .addKeyRecord (some ⟨some "b",
        some "A3A3A3A3A3A3A3A3A3A3A3A3A3A3A3A3A3A3A3A3A3A3A3A3A3A3A3A3A3A3A3A3",
        some false⟩), .revokeKey "a"]).2.1 "key" (by decide)
  obtain ⟨record,rfl⟩ := Option.isSome_iff_exists.mp (hiff.mpr ⟨"b", _, rfl, rfl, rfl⟩)
  exact ⟨record, hfound⟩

end ApiKeys
end StreamPay
