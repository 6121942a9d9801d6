import StreamPay.SettlementOutboxRuns

/-! One row for each event key, whatever is enqueued, claimed and marked. -/
namespace StreamPay
open InMemorySettlementOutboxStore

variable {P : Type*}

/-- The key that a call enqueues, if the service does not throw. -/
def enqueuedKey : StoreCall P → Option String
  | .enqueue effect clock _ =>
    (SettlementOutboxService.newRow effect clock).toOption.map NewSettlementOutbox.eventKey
  | _ => none

def enqueuedKeys (calls : List (StoreCall P)) : List String := calls.filterMap enqueuedKey

/-- The answer of an accepted enqueue is a row under the given id. -/
def Returned (answer : StoreAnswer P) (id : String) : Prop :=
  ∃ row, answer = .enqueued (.ok (some row)) ∧ row.id = id

namespace InMemorySettlementOutboxStore
variable {s : InMemorySettlementOutboxStore P}

theorem Indexed.eventKeys_nodup (hs : s.Indexed) :
    (s.snapshot.map SettlementOutbox.eventKey).Nodup := by
  have hids : (s.snapshot.map SettlementOutbox.id).Nodup := hs.ids_nodup
  apply List.Nodup.map_on _ (List.Nodup.of_map _ hids)
  intro row hrow row' hrow' hkey
  have hown := (hs.own row.id row (hs.get_of_mem hrow)).2
  have hown' := (hs.own row'.id row' (hs.get_of_mem hrow')).2
  rw [hkey, hown'] at hown
  exact List.inj_on_of_nodup_map hids hrow hrow' (Option.some.inj hown).symm

/-- The index tells how many rows carry a key. -/
theorem Indexed.count_eventKey (hs : s.Indexed) (key : String) :
    (s.snapshot.map SettlementOutbox.eventKey).count key =
      if s.keys.get key ≠ none then 1 else 0 := by
  have hmem : key ∈ s.snapshot.map SettlementOutbox.eventKey ↔ s.keys.get key ≠ none := by
    constructor
    · intro h
      obtain ⟨row,hrow,rfl⟩ := List.mem_map.mp h
      rw [(hs.own row.id row (hs.get_of_mem hrow)).2]
      exact Option.some_ne_none _
    · intro h
      obtain ⟨id,hid⟩ := Option.ne_none_iff_exists'.mp h
      obtain ⟨_,row,hrow,hkey⟩ := hs.bound key id hid
      exact List.mem_map.mpr ⟨row, (mem_snapshot_iff row).mpr ⟨id, hrow⟩, hkey⟩
  split_ifs with h
  · exact List.count_eq_one_of_mem hs.eventKeys_nodup (hmem.mpr h)
  · exact List.count_eq_zero.mpr fun hkey => h (hmem.mp hkey)

theorem keys_claimDue (hs : s.Indexed) (limit leaseMs now : ℤ) :
    (s.claimDue limit leaseMs now).2.keys = s.keys := by
  rw [claimDue_eq]
  exact claimRows_invariant leaseMs now (fun _ t => t.keys = s.keys) (hs.taken_ids_nodup limit now)
    (fun _ _ _ _ _ ht => ht) (fun row hrow => hs.get_of_mem (mem_taken hrow).1) rfl

theorem keys_mark (id token : String) (f : SettlementOutbox P → SettlementOutbox P) :
    (s.mark id token f).2.keys = s.keys := by
  rcases mark_cases s id token f with hrefused | ⟨row,_,_,_,haccepted⟩
  · rw [hrefused]
  · rw [haccepted]

/-- Claims and marks leave the index alone, and an enqueue keeps its entries. -/
theorem keys_perform (hs : s.Indexed) (call : StoreCall P) (key : String) :
    (perform s call).2.keys.get key = s.keys.get key ∨
      s.keys.get key = none ∧ enqueuedKey call = some key := by
  cases call with
  | enqueue effect clock now =>
    change (SettlementOutboxService.enqueue s effect clock now).2.keys.get key = _ ∨ _
    unfold SettlementOutboxService.enqueue
    cases hnew : SettlementOutboxService.newRow effect clock with
    | error message => exact Or.inl rfl
    | ok input =>
      cases hkey : s.keys.get input.eventKey with
      | some id =>
        -- a key that is known changes nothing
        have hsame := hs.enqueue_of_known (hs.rowOf_ne_none hkey) now
        exact Or.inl (congrArg (fun t => t.keys.get key) hsame)
      | none =>
        by_cases he : key = input.eventKey
        · exact Or.inr ⟨he ▸ hkey, by rw [enqueuedKey, hnew, he]; rfl⟩
        · refine Or.inl ?_
          have hafter := enqueue_of_new hkey now
          exact (congrArg (fun t => t.keys.get key) hafter).trans
            (InsertionMap.get_set_of_ne _ _ he)
  | claimDue limit leaseMs now =>
    exact Or.inl (congrArg (InsertionMap.get · key) (keys_claimDue hs limit leaseMs now))
  | markSucceeded id token processedAt =>
    exact Or.inl (congrArg (InsertionMap.get · key) (keys_mark id token _))
  | markFailed id token error retryAt dead now =>
    exact Or.inl (congrArg (InsertionMap.get · key) (keys_mark id token _))

/-- An accepted enqueue answers the row that the index then has for its key. -/
theorem returned_perform (hs : s.Indexed) {call : StoreCall P} {key : String}
    (h : enqueuedKey call = some key) :
    ∃ id, (perform s call).2.keys.get key = some id ∧ Returned (perform s call).1 id := by
  cases call with
  | enqueue effect clock now =>
    change ∃ id, (SettlementOutboxService.enqueue s effect clock now).2.keys.get key = some id ∧
      Returned (.enqueued (SettlementOutboxService.enqueue s effect clock now).1) id
    unfold SettlementOutboxService.enqueue
    cases hnew : SettlementOutboxService.newRow effect clock with
    | error message => rw [enqueuedKey, hnew] at h; cases h
    | ok input =>
      obtain rfl : input.eventKey = key := by
        rw [enqueuedKey, hnew] at h
        exact Option.some.inj h
      cases hkey : s.keys.get input.eventKey with
      | some id =>
        obtain ⟨hne,row,hrow,_⟩ := hs.bound _ _ hkey
        have hfilter : (some id).filter (· ≠ "") = some id := by simp [hne]
        have hknown : s.enqueue input now = (some row, s) := by
          simp only [InMemorySettlementOutboxStore.enqueue, hkey, hfilter, hrow]
        refine ⟨id, ?_, row, ?_, (hs.own id row hrow).1⟩
        · simp only [hknown, hkey]
        · simp only [hknown]
      | none =>
        -- the row is new, under the next number of the store
        obtain ⟨hid,_⟩ := newRow_ok hnew
        refine ⟨memoryId (s.sequence+1), ?_, InMemorySettlementOutboxStore.newRow input
          (memoryId (s.sequence+1)) now, ?_, rfl⟩
        · have hafter := enqueue_of_new hkey now
          rw [newId_of_none hid] at hafter
          simp only [hafter, InsertionMap.get_set_self]
        · simp only [InMemorySettlementOutboxStore.enqueue, hkey, Option.filter_none,
            newId_of_none hid]
  | _ => cases h

end InMemorySettlementOutboxStore

/-- The index has an entry for exactly the keys enqueued so far, and every
accepted enqueue was answered with the row of its entry. -/
structure KeyInvariant (log : OutboxLog P) (s : InMemorySettlementOutboxStore P) : Prop where
  lease : LeaseInvariant (history log) s
  known : ∀ key, s.keys.get key ≠ none ↔ key ∈ enqueuedKeys (log.map Prod.fst)
  returned : ∀ entry ∈ log, ∀ key, enqueuedKey entry.1 = some key →
    ∃ id, s.keys.get key = some id ∧ Returned entry.2 id

variable {log : OutboxLog P} {s : InMemorySettlementOutboxStore P}

theorem keyInvariant_empty : KeyInvariant [] (empty : InMemorySettlementOutboxStore P) where
  lease := leaseInvariant_empty
  known key := by simp [empty, enqueuedKeys]
  returned entry h := by simp at h

theorem KeyInvariant.perform (h : KeyInvariant log s) (call : StoreCall P) :
    KeyInvariant (log ++ [(call, (perform s call).1)]) (perform s call).2 where
  lease := h.lease.perform call
  known key := by
    rw [List.map_append, enqueuedKeys, List.filterMap_append, List.mem_append, ← enqueuedKeys,
      ← h.known key]
    have hnew : key ∈ List.filterMap enqueuedKey [call] ↔ enqueuedKey call = some key := by
      simp [List.mem_filterMap]
    rw [List.map_singleton, hnew]
    -- entries come with enqueues only, and stay
    constructor
    · intro hkey
      rcases keys_perform h.lease.indexed call key with hsame | ⟨_,hcall⟩
      · exact Or.inl (hsame ▸ hkey)
      · exact Or.inr hcall
    · rintro (hkey | hcall)
      · rcases keys_perform h.lease.indexed call key with hsame | ⟨hnone,_⟩
        · exact hsame ▸ hkey
        · exact absurd hnone hkey
      · obtain ⟨id,hid,_⟩ := returned_perform h.lease.indexed hcall
        rw [hid]
        exact Option.some_ne_none id
  returned entry hentry key hkey := by
    rcases List.mem_append.mp hentry with hold | hnew
    · obtain ⟨id,hid,hreturned⟩ := h.returned entry hold key hkey
      refine ⟨id, ?_, hreturned⟩
      rcases keys_perform h.lease.indexed call key with hsame | ⟨hnone,_⟩
      · rw [hsame, hid]
      · rw [hnone] at hid
        cases hid
    · obtain rfl := List.mem_singleton.mp hnew
      exact returned_perform h.lease.indexed hkey

theorem keyInvariant_run (calls : List (StoreCall P)) :
    KeyInvariant (Lockstep.log perform empty calls) (Lockstep.run perform empty calls) :=
  Lockstep.run_invariant KeyInvariant keyInvariant_empty (fun _ _ call h => h.perform call) calls

/-- Over any run there is one row for each key enqueued and none for another,
every enqueue of the key returns that row's id, and whatever comes later the
row keeps its id, key, type, aggregate, payload, attempt limit and creation time. -/
theorem one_row_for_each_key (calls later : List (StoreCall P)) :
    let s := Lockstep.run perform empty calls
    (∀ key, (s.snapshot.map SettlementOutbox.eventKey).count key =
      if key ∈ enqueuedKeys calls then 1 else 0) ∧
    (∀ key ∈ enqueuedKeys calls, ∃ id row, s.rows.get id = some row ∧ row.eventKey = key ∧
      ∀ entry ∈ Lockstep.log perform empty calls, enqueuedKey entry.1 = some key →
        Returned entry.2 id) ∧
    ∀ id row, s.rows.get id = some row →
      ∃ row', (Lockstep.run perform s later).rows.get id = some row' ∧ event row' = event row := by
  intro s
  have hinv : KeyInvariant (Lockstep.log perform empty calls) s := keyInvariant_run calls
  have hknown (key : String) : s.keys.get key ≠ none ↔ key ∈ enqueuedKeys calls := by
    rw [hinv.known, Lockstep.map_fst_log]
  refine ⟨fun key => ?_, fun key hkey => ?_, fun id row hrow => ?_⟩
  · rw [hinv.lease.indexed.count_eventKey]
    simp only [hknown]
  · obtain ⟨id,hid⟩ := Option.ne_none_iff_exists'.mp ((hknown key).mpr hkey)
    obtain ⟨_,row,hrow,hrowKey⟩ := hinv.lease.indexed.bound key id hid
    refine ⟨id, row, hrow, hrowKey, fun entry hentry hentryKey => ?_⟩
    obtain ⟨id',hid',hreturned⟩ := hinv.returned entry hentry key hentryKey
    rw [hid] at hid'
    exact Option.some.inj hid' ▸ hreturned
  · have hprogress := rowsProgress_run calls later
    rw [Lockstep.run_append] at hprogress
    obtain ⟨row',hrow',hkept⟩ := hprogress id row hrow
    exact ⟨row', hrow', hkept.event_eq⟩

end StreamPay
