import Mathlib.Data.List.Sort
import StreamPay.Library.InsertionMap
import StreamPay.SettlementOutbox

/-! The in-memory settlement outbox, which keeps its rows in one map by id and
finds the id of an event key in another. -/
namespace StreamPay

structure InMemorySettlementOutboxStore (P : Type*) where
  rows : InsertionMap String (SettlementOutbox P)
  keys : InsertionMap String String
  sequence : ℕ

namespace InMemorySettlementOutboxStore
variable {P : Type*}

def empty : InMemorySettlementOutboxStore P := ⟨.empty, .empty, 0⟩

def newRow (input : NewSettlementOutbox P) (id : String) (now : ℤ) : SettlementOutbox P where
  id := id
  eventKey := input.eventKey
  eventType := input.eventType
  aggregateId := input.aggregateId
  payload := input.payload
  status := input.status.getD .pending
  attempts := input.attempts.getD 0
  maxAttempts := input.maxAttempts.getD 8
  availableAt := input.availableAt.getD now
  leaseUntil := input.leaseUntil
  leaseToken := input.leaseToken
  lastError := input.lastError
  processedAt := input.processedAt
  createdAt := input.createdAt.getD now
  updatedAt := input.updatedAt.getD now

/-- The id of a new row and the counter after it was given. -/
def newId (s : InMemorySettlementOutboxStore P) (input : NewSettlementOutbox P) : String × ℕ :=
  match input.id with
  | some id => (id.text, s.sequence)
  | none => ("memory-outbox-" ++ toString (s.sequence+1), s.sequence+1)

def enqueue (s : InMemorySettlementOutboxStore P) (input : NewSettlementOutbox P) (now : ℤ) :
    Option (SettlementOutbox P) × InMemorySettlementOutboxStore P :=
  -- the source tests the id for truth, so an empty one counts as absent
  match (s.keys.get input.eventKey).filter (· ≠ "") with
  | some existingId => (s.rows.get existingId, s)
  | none =>
    let (id,sequence) := s.newId input
    let row := newRow input id now
    (some row, ⟨s.rows.set id row, s.keys.set row.eventKey id, sequence⟩)

def leased (row : SettlementOutbox P) (leaseMs now : ℤ) (token : String) : SettlementOutbox P :=
  { row with
    status := .processing
    leaseUntil := some (now+max 1000 leaseMs)
    leaseToken := some token
    updatedAt := now
    attempts := row.attempts+1 }

def claimLoop (limit leaseMs now : ℤ) : List (SettlementOutbox P) →
    List (OutboxClaim P) → InMemorySettlementOutboxStore P →
    List (OutboxClaim P) × InMemorySettlementOutboxStore P
  | [], claimed, s => (claimed, s)
  | row :: rest, claimed, s =>
    if claimed.length ≥ max 1 (min limit 500) then (claimed, s)
    else if !row.isDue now then claimLoop limit leaseMs now rest claimed s
    else
      let token := "lease-" ++ row.id ++ "-" ++ toString (s.sequence+1)
      let row' := leased row leaseMs now token
      claimLoop limit leaseMs now rest (claimed ++ [⟨row', token⟩])
        { s with rows := s.rows.set row.id row', sequence := s.sequence+1 }

def claimDue (s : InMemorySettlementOutboxStore P) (limit leaseMs now : ℤ) :
    List (OutboxClaim P) × InMemorySettlementOutboxStore P :=
  claimLoop limit leaseMs now
    (s.rows.values.insertionSort fun a b => a.createdAt ≤ b.createdAt) [] s

def mark (s : InMemorySettlementOutboxStore P) (id leaseToken : String)
    (f : SettlementOutbox P → SettlementOutbox P) : Bool × InMemorySettlementOutboxStore P :=
  match s.rows.get id with
  | none => (false, s)
  | some row =>
    if row.status ≠ .processing || row.leaseToken ≠ some leaseToken then (false, s)
    else (true, { s with rows := s.rows.set id (f row) })

def markSucceeded (s : InMemorySettlementOutboxStore P) (id leaseToken : String)
    (processedAt : ℤ) : Bool × InMemorySettlementOutboxStore P :=
  s.mark id leaseToken fun row => row.succeed processedAt

def markFailed (s : InMemorySettlementOutboxStore P) (id leaseToken : String) (error : Utf16)
    (retryAt : ℤ) (dead : Bool) (now : ℤ) : Bool × InMemorySettlementOutboxStore P :=
  s.mark id leaseToken fun row => row.failWith error retryAt dead now

def snapshot (s : InMemorySettlementOutboxStore P) : List (SettlementOutbox P) := s.rows.values

/-- Every row is stored under its own id, which the index gives for its event key. -/
structure Indexed (s : InMemorySettlementOutboxStore P) : Prop where
  own : ∀ id row, s.rows.get id = some row → row.id = id ∧ s.keys.get row.eventKey = some id
  bound : ∀ key id, s.keys.get key = some id →
    id ≠ "" ∧ ∃ row, s.rows.get id = some row ∧ row.eventKey = key

variable {s : InMemorySettlementOutboxStore P}

theorem indexed_empty : Indexed (empty : InMemorySettlementOutboxStore P) where
  own id row h := by simp [empty] at h
  bound key id h := by simp [empty] at h

theorem mem_snapshot_iff (row : SettlementOutbox P) :
    row ∈ s.snapshot ↔ ∃ id, s.rows.get id = some row := by
  simp only [snapshot, InsertionMap.values, List.mem_map, Prod.exists, exists_eq_right,
    InsertionMap.get_eq_some_iff]

/-- In an indexed store the row of a key is the one its id leads to. -/
theorem Indexed.rowOf_snapshot (hs : Indexed s) (eventKey : String) :
    rowOf s.snapshot eventKey = (s.keys.get eventKey).bind s.rows.get := by
  cases h : rowOf s.snapshot eventKey with
  | some row =>
    have hkey : row.eventKey = eventKey := by simpa using List.find?_some h
    obtain ⟨id,hid⟩ := (mem_snapshot_iff row).mp (List.mem_of_find?_eq_some h)
    rw [← hkey, (hs.own id row hid).2, Option.bind_some, hid]
  | none =>
    cases hk : s.keys.get eventKey with
    | none => rfl
    | some id =>
      obtain ⟨_,row,hrow,hkey⟩ := hs.bound eventKey id hk
      have hmem := (mem_snapshot_iff row).mpr ⟨id, hrow⟩
      exact absurd hkey (by simpa using List.find?_eq_none.mp h row hmem)

theorem Indexed.set (hs : Indexed s) {id : String} {row row' : SettlementOutbox P}
    (hrow : s.rows.get id = some row) (hid : row'.id = row.id)
    (hkey : row'.eventKey = row.eventKey) :
    Indexed { s with rows := s.rows.set id row' } where
  own := by
    apply InsertionMap.forall_get_set
    · rw [hid, hkey]
      exact hs.own id row hrow
    · exact fun id' r h _ => hs.own id' r h
  bound key id' h := by
    obtain ⟨hne,r,hr,hk⟩ := hs.bound key id' h
    refine ⟨hne, ?_⟩
    rw [InsertionMap.get_set]
    split_ifs with he
    · subst he
      obtain rfl : r = row := Option.some.inj (hr.symm.trans hrow)
      exact ⟨row', rfl, hkey.trans hk⟩
    · exact ⟨r, hr, hk⟩

theorem Indexed.insert (hs : Indexed s) {row : SettlementOutbox P} (n : ℕ)
    (hid : s.rows.get row.id = none) (hkey : s.keys.get row.eventKey = none)
    (hne : row.id ≠ "") :
    Indexed ⟨s.rows.set row.id row, s.keys.set row.eventKey row.id, n⟩ where
  own := by
    apply InsertionMap.forall_get_set
    · exact ⟨rfl, InsertionMap.get_set_self _ _ _⟩
    · intro id' r h _
      obtain ⟨hown,hbound⟩ := hs.own id' r h
      have hk : r.eventKey ≠ row.eventKey := fun hk => by
        rw [hk, hkey] at hbound
        exact absurd hbound (by simp)
      exact ⟨hown, by rw [InsertionMap.get_set_of_ne _ _ hk, hbound]⟩
  bound := by
    apply InsertionMap.forall_get_set
    · exact ⟨hne, row, InsertionMap.get_set_self _ _ _, rfl⟩
    · intro key id' h _
      obtain ⟨hne',r,hr,hk'⟩ := hs.bound key id' h
      have hi : id' ≠ row.id := fun hi => by
        rw [hi, hid] at hr
        exact absurd hr (by simp)
      exact ⟨hne', r, by rw [InsertionMap.get_set_of_ne _ _ hi, hr], hk'⟩

theorem Indexed.rowOf_of_mem (hs : s.Indexed) {row : SettlementOutbox P} (h : row ∈ s.snapshot) :
    rowOf s.snapshot row.eventKey = some row := by
  obtain ⟨id,hid⟩ := (mem_snapshot_iff row).mp h
  rw [hs.rowOf_snapshot, (hs.own id row hid).2, Option.bind_some, hid]

theorem Indexed.keys_get_eq_none (hs : s.Indexed) {eventKey : String}
    (h : rowOf s.snapshot eventKey = none) : s.keys.get eventKey = none := by
  cases hk : s.keys.get eventKey with
  | none => rfl
  | some id =>
    obtain ⟨_,row,hrow,_⟩ := hs.bound eventKey id hk
    rw [hs.rowOf_snapshot, hk, Option.bind_some, hrow] at h
    exact absurd h (by simp)

theorem Indexed.get_of_rowOf (hs : s.Indexed) {row : SettlementOutbox P} {eventKey : String}
    (hrow : rowOf s.snapshot eventKey = some row) : s.rows.get row.id = some row := by
  obtain ⟨id,hid⟩ := (mem_snapshot_iff row).mp (List.mem_of_find?_eq_some hrow)
  rw [(hs.own id row hid).1, hid]

theorem Indexed.rowOf_set (hs : s.Indexed) {row row' : SettlementOutbox P}
    (hrow : s.rows.get row.id = some row) (hid : row'.id = row.id)
    (hkey : row'.eventKey = row.eventKey) (key : String) :
    rowOf (InMemorySettlementOutboxStore.snapshot
        { s with rows := s.rows.set row.id row' }) key =
      if key = row.eventKey then some row' else rowOf s.snapshot key := by
  rw [(hs.set hrow hid hkey).rowOf_snapshot, hs.rowOf_snapshot]
  obtain ⟨_,hindex⟩ := hs.own _ _ hrow
  split_ifs with hk
  · rw [hk, hindex, Option.bind_some, InsertionMap.get_set_self]
  · cases hother : s.keys.get key with
    | none => rfl
    | some id =>
      obtain ⟨_,r,hr,hrk⟩ := hs.bound key id hother
      have hne : id ≠ row.id := fun he => by
        rw [he, hrow] at hr
        exact hk (by rw [← hrk, Option.some.inj hr])
      simp only [Option.bind_some, InsertionMap.get_set_of_ne _ _ hne]

theorem Indexed.rowOf_insert (hs : s.Indexed) {row : SettlementOutbox P} (n : ℕ)
    (hid : s.rows.get row.id = none) (hkey : s.keys.get row.eventKey = none)
    (hne : row.id ≠ "") (key : String) :
    rowOf (InMemorySettlementOutboxStore.snapshot
        ⟨s.rows.set row.id row, s.keys.set row.eventKey row.id, n⟩) key =
      if key = row.eventKey then some row else rowOf s.snapshot key := by
  rw [(hs.insert n hid hkey hne).rowOf_snapshot, hs.rowOf_snapshot]
  simp only [InsertionMap.get_set s.keys]
  split_ifs with hk
  · rw [Option.bind_some, InsertionMap.get_set_self]
  · cases hother : s.keys.get key with
    | none => rfl
    | some id =>
      obtain ⟨_,r,hr,_⟩ := hs.bound key id hother
      have hne' : id ≠ row.id := fun he => by
        rw [he, hid] at hr
        exact absurd hr (by simp)
      simp only [Option.bind_some, InsertionMap.get_set_of_ne _ _ hne']

/-- The in-memory store changes the row only while it is being processed. -/
theorem Indexed.mark (hs : s.Indexed) {row : SettlementOutbox P} {eventKey : String}
    (hrow : rowOf s.snapshot eventKey = some row) (token : String) (f : RowUpdate P) :
    (s.mark row.id token f.apply).2.Indexed ∧ ∀ key,
      rowOf (s.mark row.id token f.apply).2.snapshot key =
        if key = eventKey ∧ row.status = .processing ∧ row.leaseToken = some token
        then some (f.apply row) else rowOf s.snapshot key := by
  have hget := hs.get_of_rowOf hrow
  have hkey := rowOf_eventKey hrow
  unfold InMemorySettlementOutboxStore.mark
  simp only [hget]
  by_cases hfit : row.status = .processing ∧ row.leaseToken = some token
  · obtain ⟨hp,ht⟩ := hfit
    simp only [hp, ht, ne_eq, not_true_eq_false, decide_false, Bool.or_self, Bool.false_eq_true,
      ↓reduceIte, and_true]
    refine ⟨hs.set hget (f.id_eq row) (f.eventKey_eq row), fun key => ?_⟩
    rw [hs.rowOf_set hget (f.id_eq row) (f.eventKey_eq row), hkey]
  · have hstay : (decide (row.status ≠ .processing) || decide (row.leaseToken ≠ some token)) =
        true := by
      rw [Bool.or_eq_true, decide_eq_true_eq, decide_eq_true_eq]
      exact not_and_or.mp hfit
    rw [if_pos hstay]
    exact ⟨hs, fun key => by rw [if_neg fun h => hfit h.2]⟩

/-- When the in-memory id is taken, the row that had it is lost. -/
theorem Indexed.rowOf_overwritten (hs : s.Indexed) {id : String}
    {old row : SettlementOutbox P} (hold : s.rows.get id = some old)
    (hne : row.eventKey ≠ old.eventKey) (keys : InsertionMap String String) (n : ℕ) :
    rowOf (InMemorySettlementOutboxStore.snapshot ⟨s.rows.set id row, keys, n⟩)
      old.eventKey = none := by
  refine List.find?_eq_none.mpr fun r hr => ?_
  obtain ⟨id',hid'⟩ := (mem_snapshot_iff r).mp hr
  rw [InsertionMap.get_set] at hid'
  split_ifs at hid' with he
  · rw [← Option.some.inj hid']
    simpa using hne
  · have hown := (hs.own id' r hid').2
    have hown' := (hs.own id old hold).2
    simp only [decide_eq_true_eq]
    intro hk
    rw [hk, hown'] at hown
    exact he (Option.some.inj hown).symm

theorem newId_ne_empty (input : NewSettlementOutbox P) : (s.newId input).1 ≠ "" := by
  unfold newId
  cases input.id with
  | some id => exact id.text_ne_empty
  | none =>
    intro hid
    have hlen := congrArg String.length hid
    rw [String.length_append] at hlen
    exact absurd hlen (by simp)

variable {input : NewSettlementOutbox P}

theorem Indexed.enqueue_of_known (hs : s.Indexed) (h : rowOf s.snapshot input.eventKey ≠ none)
    (now : ℤ) : (s.enqueue input now).2 = s := by
  obtain ⟨row,hrow⟩ := Option.ne_none_iff_exists'.mp h
  obtain ⟨_,hkey⟩ := hs.own row.id row (hs.get_of_rowOf hrow)
  rw [rowOf_eventKey hrow] at hkey
  obtain ⟨hne,_⟩ := hs.bound _ _ hkey
  have hfilter : (some row.id).filter (· ≠ "") = some row.id := by simp [hne]
  simp only [enqueue, hkey, hfilter]

theorem enqueue_of_new (h : s.keys.get input.eventKey = none) (now : ℤ) :
    (s.enqueue input now).2 = ⟨s.rows.set (s.newId input).1 (newRow input (s.newId input).1 now),
      s.keys.set input.eventKey (s.newId input).1, (s.newId input).2⟩ := by
  simp [enqueue, h, newRow]

theorem claimLoop_of_not_due {limit leaseMs now : ℤ} {rows : List (SettlementOutbox P)}
    (h : ∀ row ∈ rows, row.isDue now = false) (claimed : List (OutboxClaim P)) :
    claimLoop limit leaseMs now rows claimed s = (claimed, s) := by
  induction rows with
  | nil => rfl
  | cons row rest ih =>
    unfold claimLoop
    have hrest := ih fun r hr => h r (List.mem_cons_of_mem _ hr)
    simp only [h row List.mem_cons_self, Bool.not_false, ↓reduceIte, hrest, ite_self]

/-- Whatever the loop claims is a due row with one more attempt. -/
theorem mem_claimLoop {limit leaseMs now : ℤ} {rows : List (SettlementOutbox P)}
    {claimed : List (OutboxClaim P)} {claim : OutboxClaim P}
    (h : claim ∈ (claimLoop limit leaseMs now rows claimed s).1) :
    claim ∈ claimed ∨ ∃ row ∈ rows, row.isDue now = true ∧
      claim.row = leased row leaseMs now claim.leaseToken := by
  induction rows generalizing claimed s with
  | nil => exact Or.inl h
  | cons row rest ih =>
    unfold claimLoop at h
    -- the limit is reached, the row is not due, or it is claimed
    split_ifs at h with hfull hdue
    · exact Or.inl h
    · rcases ih h with hold | ⟨r,hr,hrest⟩
      · exact Or.inl hold
      · exact Or.inr ⟨r, List.mem_cons_of_mem _ hr, hrest⟩
    · rcases ih h with hold | ⟨r,hr,hrest⟩
      · rcases List.mem_append.mp hold with hold | hnew
        · exact Or.inl hold
        · rw [List.mem_singleton.mp hnew]
          exact Or.inr ⟨row, List.mem_cons_self, by simpa using hdue, rfl⟩
      · exact Or.inr ⟨r, List.mem_cons_of_mem _ hr, hrest⟩

theorem claimDue_of_not_due {limit leaseMs now : ℤ}
    (h : ∀ row ∈ s.snapshot, row.isDue now = false) : s.claimDue limit leaseMs now = ([], s) :=
  claimLoop_of_not_due (fun row hrow => h row (List.mem_insertionSort _ |>.mp hrow)) []

theorem mem_claimDue {limit leaseMs now : ℤ} {claim : OutboxClaim P}
    (h : claim ∈ (s.claimDue limit leaseMs now).1) :
    ∃ row ∈ s.snapshot, row.isDue now = true ∧
      claim.row = leased row leaseMs now claim.leaseToken := by
  rcases mem_claimLoop h with hnil | ⟨row,hrow,hrest⟩
  · exact absurd hnil (by simp)
  · exact ⟨row, (List.mem_insertionSort _).mp hrow, hrest⟩

end InMemorySettlementOutboxStore

end StreamPay
