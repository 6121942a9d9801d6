import StreamPay.SettlementOutboxStores
import StreamPay.Library.Lockstep

/-! Where the two settlement outbox stores agree: as long as nothing is claimed. -/
namespace StreamPay
open Lockstep

section Comparison
variable {P : Type*}

/-- The visible fields, and how long a row that is being processed is leased. -/
def SettlementOutbox.held (row : SettlementOutbox P) :
    (SettlementOutboxStatus × ℤ × ℤ × Option Utf16) × Option ℤ :=
  (row.visible, if row.status = .processing then row.leaseUntil else none)

/-- How the two stores stand to each other while nothing has been claimed. -/
structure Together (t : OutboxRun (SettlementOutboxTable P) P)
    (m : OutboxRun (InMemorySettlementOutboxStore P) P) : Prop where
  indexed : m.1.Indexed
  fit : SettlementOutboxRepository.KeysFit t.1
  rows : ∀ eventKey, (rowOf t.1.rows eventKey).map SettlementOutbox.held =
    (rowOf m.1.snapshot eventKey).map SettlementOutbox.held
  unclaimed : (∀ claims ∈ t.2, claims = []) ∧ ∀ claims ∈ m.2, claims = []

/-- Rows that are held alike look alike, and are leased for as long. -/
theorem SettlementOutbox.held_eq_iff (r q : SettlementOutbox P) :
    r.held = q.held ↔ r.visible = q.visible ∧
      (r.status = .processing → r.leaseUntil = q.leaseUntil) := by
  unfold SettlementOutbox.held
  rw [Prod.ext_iff]
  refine and_congr_right fun hv => ?_
  have hs : r.status = q.status := congrArg Prod.fst hv
  by_cases hp : r.status = .processing
  · simp [hp, hs ▸ hp]
  · simp [hp, hs ▸ hp]

theorem SettlementOutbox.map_visible_of_held {a b : Option (SettlementOutbox P)}
    (h : a.map SettlementOutbox.held = b.map SettlementOutbox.held) :
    a.map SettlementOutbox.visible = b.map SettlementOutbox.visible := by
  have hh := congrArg (Option.map Prod.fst) h
  rwa [Option.map_map, Option.map_map] at hh

variable {t : OutboxRun (SettlementOutboxTable P) P}
  {m : OutboxRun (InMemorySettlementOutboxStore P) P}

theorem Together.visible (h : Together t m) : SameRows t.1.rows m.1.snapshot :=
  fun eventKey => SettlementOutbox.map_visible_of_held (h.rows eventKey)

theorem Together.held_eq (h : Together t m) {eventKey : String} {r q : SettlementOutbox P}
    (hr : rowOf t.1.rows eventKey = some r) (hq : rowOf m.1.snapshot eventKey = some q) :
    r.held = q.held := by
  have hh := h.rows eventKey
  rw [hr, hq, Option.map_some, Option.map_some] at hh
  exact Option.some.inj hh

theorem Together.exists_row (h : Together t m) {eventKey : String} {r : SettlementOutbox P}
    (hr : rowOf t.1.rows eventKey = some r) :
    ∃ q, rowOf m.1.snapshot eventKey = some q ∧ r.held = q.held := by
  have hh := h.rows eventKey
  rw [hr, Option.map_some] at hh
  obtain ⟨q,hq,_⟩ := Option.map_eq_some_iff.mp hh.symm
  exact ⟨q, hq, h.held_eq hr hq⟩

theorem Together.rowOf_eq_none_iff (h : Together t m) (eventKey : String) :
    rowOf t.1.rows eventKey = none ↔ rowOf m.1.snapshot eventKey = none := by
  constructor
  · intro hr
    have hh := h.rows eventKey
    rw [hr, Option.map_none] at hh
    exact Option.map_eq_none_iff.mp hh.symm
  · intro hq
    have hh := h.rows eventKey
    rw [hq, Option.map_none] at hh
    exact Option.map_eq_none_iff.mp hh

section Mark
open SettlementOutboxRepository
variable {readable : Bool} {asIs : Prop} {f g : RowUpdate P} {eventKey : String}

/-- What the table has of the event keys after a mark. -/
theorem rowOf_markIf (table : SettlementOutboxTable P) {row : SettlementOutbox P}
    (hrow : rowOf table.rows eventKey = some row) (token key : String)
    [Decidable (TableTakes readable token row)] :
    rowOf (markIf readable table row.id token f).2.rows key =
      if key = eventKey ∧ TableTakes readable token row then some (f.apply row)
      else rowOf table.rows key := by
  rw [markIf]
  by_cases hread : (readable && isColumnText token) = true
  · rw [if_pos hread]
    dsimp only
    rw [rowOf_mark table hrow]
    simp only [TableTakes, hread, true_and]
  · rw [if_neg hread, if_neg fun htaken => hread htaken.2.1]

/-- How the two updates of a mark go together. -/
structure MarksAlike (readable : Bool) (asIs : Prop) (f g : RowUpdate P)
    (written : SettlementOutbox P → SettlementOutboxStatus × ℤ × ℤ × Option Utf16) : Prop where
  ends : ∀ row, (f.apply row).status ≠ .processing ∧ (g.apply row).status ≠ .processing
  visible : readable = true → ∀ row, (f.apply row).visible = written row
  same : readable = true → ∀ r q : SettlementOutbox P, r.visible = q.visible →
    ((f.apply r).visible = (g.apply q).visible ↔ asIs)

variable {written : SettlementOutbox P → SettlementOutboxStatus × ℤ × ℤ × Option Utf16}

/-- A mark leaves the rows alike exactly if it fits. -/
theorem Together.mark (h : Together t m) (hmarks : MarksAlike readable asIs f g written)
    {r q : SettlementOutbox P} (hr : rowOf t.1.rows eventKey = some r)
    (hq : rowOf m.1.snapshot eventKey = some q) (token : String) :
    let table := (markIf readable t.1 r.id token f).2
    let store := (m.1.mark q.id token g.apply).2
    (SameRows table.rows store.snapshot → MarkFits readable asIs token r q (written r)) ∧
      (MarkFits readable asIs token r q (written r) → ∀ key,
        (rowOf table.rows key).map SettlementOutbox.held =
          (rowOf store.snapshot key).map SettlementOutbox.held) := by
  classical
  intro table store
  obtain ⟨hv,_⟩ := (SettlementOutbox.held_eq_iff r q).mp (h.held_eq hr hq)
  have hs : r.status = q.status := congrArg Prod.fst hv
  have htable (key : String) : rowOf table.rows key = _ := rowOf_markIf t.1 hr token key
  have hstore (key : String) : rowOf store.snapshot key = _ := (h.indexed.mark hq token g).2 key
  have hwritten (htaken : TableTakes readable token r) :
      rowOf table.rows eventKey = some (f.apply r) := by rw [htable, if_pos ⟨rfl,htaken⟩]
  have hleft (hnot : ¬ TableTakes readable token r) : rowOf table.rows eventKey = some r := by
    rw [htable, if_neg fun hboth => hnot hboth.2, hr]
  have hmarked (hmemory : MemoryTakes token q) :
      rowOf store.snapshot eventKey = some (g.apply q) := by rw [hstore, if_pos ⟨rfl,hmemory⟩]
  have hkept (hnot : ¬ MemoryTakes token q) : rowOf store.snapshot eventKey = some q := by
    rw [hstore, if_neg fun hboth => hnot hboth.2, hq]
  have hread (htaken : TableTakes readable token r) : readable = true :=
    (Bool.and_eq_true_iff.mp htaken.1).1
  constructor
  · intro hall
    have hkey := hall eventKey
    refine ⟨fun hmemory => ?_, fun htaken hmemory => ?_⟩
    · rw [hmarked hmemory] at hkey
      by_cases htaken : TableTakes readable token r
      · rw [hwritten htaken] at hkey
        exact ⟨htaken, (hmarks.same (hread htaken) r q hv).mp (Option.some.inj hkey)⟩
      · -- the row would be processing in the table alone
        rw [hleft htaken] at hkey
        have hstatus : r.status = (g.apply q).status := congrArg Prod.fst (Option.some.inj hkey)
        exact absurd (hstatus.symm.trans (hs.trans hmemory.1)) (hmarks.ends q).2
    · rw [hwritten htaken, hkept hmemory] at hkey
      rw [← hmarks.visible (hread htaken) r, hv]
      exact Option.some.inj hkey
  · rintro ⟨hboth,halone⟩ key
    by_cases hk : key = eventKey
    · subst hk
      by_cases hmemory : MemoryTakes token q
      · obtain ⟨htaken,hasIs⟩ := hboth hmemory
        rw [hwritten htaken, hmarked hmemory, Option.map_some, Option.map_some]
        exact congrArg some ((SettlementOutbox.held_eq_iff _ _).mpr
          ⟨(hmarks.same (hread htaken) r q hv).mpr hasIs, fun hp => absurd hp (hmarks.ends r).1⟩)
      · by_cases htaken : TableTakes readable token r
        · have hsame := (hmarks.visible (hread htaken) r).trans (halone htaken hmemory)
          rw [hwritten htaken, hkept hmemory, Option.map_some, Option.map_some]
          exact congrArg some ((SettlementOutbox.held_eq_iff _ _).mpr
            ⟨hsame.trans hv, fun hp => absurd hp (hmarks.ends r).1⟩)
        · rw [hleft htaken, hkept hmemory, ← hr, ← hq]
          exact h.rows key
    · rw [htable, hstore, if_neg fun hc => hk hc.1, if_neg fun hc => hk hc.1]
      exact h.rows key

/-- Marks through a lease, on both stores: alike exactly if they fit, and then the stores
stay together. -/
theorem Together.onLease (h : Together t m) (driver : OutboxDriver P)
    (hmarks : MarksAlike readable asIs f g written) (eventKey : String) (lease : LeaseRef) :
    let t' := (SettlementOutboxRepository.store driver).onLease t eventKey lease
      fun id token => (markIf readable t.1 id token f).2
    let m' := (InMemorySettlementOutboxStore.store P).onLease m eventKey lease
      fun id token => (m.1.mark id token g.apply).2
    let fits := ∀ r q token, rowOf t.1.rows eventKey = some r →
      rowOf m.1.snapshot eventKey = some q → lease.resolve t.2 = some token →
      MarkFits readable asIs token r q (written r)
    (SameRows t'.1.rows m'.1.snapshot ↔ fits) ∧ (fits → Together t' m') := by
  intro t' m' fits
  -- with nothing claimed on either side, a lease stands for the same token on both
  have hresolve := LeaseRef.resolve_of_unclaimed h.unclaimed.1 h.unclaimed.2 lease
  cases hr : rowOf t.1.rows eventKey with
  | none =>
    have hq := (h.rowOf_eq_none_iff eventKey).mp hr
    have ht' : t' = t := by
      simp [t', SettlementOutboxStore.onLease, SettlementOutboxRepository.store, hr]
    have hm' : m' = m := by
      simp [m', SettlementOutboxStore.onLease, InMemorySettlementOutboxStore.store, hq]
    rw [ht', hm']
    exact ⟨iff_of_true h.visible fun row _ _ hrow => by simp [hr] at hrow, fun _ => h⟩
  | some r =>
    obtain ⟨q,hq,_⟩ := h.exists_row hr
    cases htok : lease.resolve t.2 with
    | none =>
      have ht' : t' = t := by
        simp [t', SettlementOutboxStore.onLease, SettlementOutboxRepository.store, hr, htok]
      have hm' : m' = m := by
        simp [m', SettlementOutboxStore.onLease, InMemorySettlementOutboxStore.store, hq,
          ← hresolve, htok]
      rw [ht', hm']
      exact ⟨iff_of_true h.visible fun _ _ token _ _ htoken => by simp [htok] at htoken,
        fun _ => h⟩
    | some token =>
      have ht' : t' = ((markIf readable t.1 r.id token f).2, t.2) := by
        simp [t', SettlementOutboxStore.onLease, SettlementOutboxRepository.store, hr, htok]
      have hm' : m' = ((m.1.mark q.id token g.apply).2, m.2) := by
        simp [m', SettlementOutboxStore.onLease, InMemorySettlementOutboxStore.store, hq,
          ← hresolve, htok]
      have hfits : fits ↔ MarkFits readable asIs token r q (written r) := by
        simp [fits, hr, hq, htok]
      obtain ⟨hnecessary,hsufficient⟩ := h.mark hmarks hr hq token
      rw [ht', hm', hfits]
      refine ⟨⟨hnecessary, fun hfit key =>
        SettlementOutbox.map_visible_of_held (hsufficient hfit key)⟩, fun hfit => ?_⟩
      exact ⟨(h.indexed.mark hq token g).1, keysFit_markIf h.fit readable r.id token f,
        hsufficient hfit, h.unclaimed⟩

theorem marksAlike_succeed (processedAt : ℤ) : MarksAlike (P := P) (isReadableDate processedAt) True
    (succeeding processedAt) (succeeding processedAt)
    fun row => (.succeeded, row.attempts, row.availableAt, row.lastError) where
  ends _ := ⟨SettlementOutboxStatus.noConfusion, SettlementOutboxStatus.noConfusion⟩
  visible _ _ := rfl
  same _ r q hv := by
    simp only [SettlementOutbox.visible, Prod.mk.injEq] at hv
    simp [SettlementOutbox.visible, succeeding, SettlementOutbox.succeed, hv]

/-- The update of the in-memory store, which keeps the error as it is. -/
def failingAsIs (error : Utf16) (retryAt : ℤ) (dead : Bool) (now : ℤ) : RowUpdate P where
  apply row := row.failWith error retryAt dead now
  id_eq _ := rfl
  eventKey_eq _ := rfl

theorem marksAlike_fail (error : Utf16) (retryAt : ℤ) (dead : Bool) (now : ℤ) :
    MarksAlike (P := P) ((textColumn (error.take 4000)).isSome && isReadableDate retryAt &&
        isReadableDate now) (textColumn (error.take 4000) = some (error.take 4000))
      (failing ((textColumn (error.take 4000)).getD []) retryAt dead now)
      (failingAsIs error retryAt dead now)
      fun row => (if dead then .dead else .pending, row.attempts, retryAt,
        textColumn (error.take 4000)) where
  ends _ := by cases dead <;> exact ⟨SettlementOutboxStatus.noConfusion,
    SettlementOutboxStatus.noConfusion⟩
  visible hread row := by
    rw [Bool.and_assoc] at hread
    obtain ⟨lastError,htext⟩ := Option.isSome_iff_exists.mp (Bool.and_eq_true_iff.mp hread).1
    rw [htext]
    rfl
  same hread r q hv := by
    rw [Bool.and_assoc] at hread
    obtain ⟨lastError,htext⟩ := Option.isSome_iff_exists.mp (Bool.and_eq_true_iff.mp hread).1
    simp only [SettlementOutbox.visible, Prod.mk.injEq] at hv
    rw [htext]
    simp [SettlementOutbox.visible, failing, failingAsIs, SettlementOutbox.failWith, hv]

end Mark

section Enqueue
open InMemorySettlementOutboxStore SettlementOutboxRepository

/-- Equal rows under a new event key, inserted under free ids on both sides. -/
theorem Together.insert (h : Together t m) {t' : SettlementOutboxTable P}
    {r : SettlementOutbox P} (q : SettlementOutbox P) (hrows : t'.rows = t.1.rows ++ [r])
    (hfit : KeysFit t') (hnew : rowOf t.1.rows r.eventKey = none)
    (hkey : q.eventKey = r.eventKey) (hheld : r.held = q.held)
    (hfree : m.1.rows.get q.id = none) (hne : q.id ≠ "") (n : ℕ) :
    Together (t',t.2)
      (⟨m.1.rows.set q.id q, m.1.keys.set q.eventKey q.id, n⟩, m.2) := by
  have hkeys := h.indexed.keys_get_eq_none ((h.rowOf_eq_none_iff _).mp (hkey ▸ hnew))
  refine ⟨h.indexed.insert n hfree hkeys hne, hfit, fun key => ?_, h.unclaimed⟩
  rw [hrows, rowOf_append_singleton, h.indexed.rowOf_insert n hfree hkeys hne, hkey]
  by_cases hk : key = r.eventKey
  · rw [if_pos hk, if_pos hk.symm, hk, hnew, Option.none_or, Option.map_some, Option.map_some,
      hheld]
  · rw [if_neg hk, if_neg (Ne.symm hk), Option.or_none, h.rows key]

/-- A row inserted over another one's id in memory only is missed afterwards. -/
theorem Together.not_same_of_taken (h : Together t m) {t' : SettlementOutboxTable P}
    {r old : SettlementOutbox P} (q : SettlementOutbox P) (hrows : t'.rows = t.1.rows ++ [r])
    {id : String} (hold : m.1.rows.get id = some old) (hnew : rowOf m.1.snapshot q.eventKey = none)
    (keys : InsertionMap String String) (n : ℕ) :
    ¬ SameRows t'.rows
      (InMemorySettlementOutboxStore.snapshot ⟨m.1.rows.set id q, keys, n⟩) := by
  intro hsame
  have hkey : rowOf m.1.snapshot old.eventKey = some old :=
    h.indexed.rowOf_of_mem ((mem_snapshot_iff old).mpr ⟨id, hold⟩)
  have hne : q.eventKey ≠ old.eventKey := fun he => by
    rw [he, hkey] at hnew
    exact absurd hnew (by simp)
  -- the table has kept its row of that event key
  have hkept := hsame old.eventKey
  rw [h.indexed.rowOf_overwritten hold hne, Option.map_none, Option.map_eq_none_iff, hrows,
    rowOf_append_singleton, Option.or_eq_none_iff, h.rowOf_eq_none_iff, hkey] at hkept
  exact absurd hkept.1 (by simp)

theorem not_same_of_refused {rows : List (SettlementOutbox P)}
    (s : InMemorySettlementOutboxStore P) (id : String) (q : SettlementOutbox P)
    (hnew : rowOf rows q.eventKey = none) (keys : InsertionMap String String) (n : ℕ) :
    ¬ SameRows rows (InMemorySettlementOutboxStore.snapshot ⟨s.rows.set id q, keys, n⟩) := by
  intro hsame
  have hkey := hsame q.eventKey
  rw [hnew, Option.map_none, eq_comm, Option.map_eq_none_iff] at hkey
  have hmem : q ∈ InMemorySettlementOutboxStore.snapshot ⟨s.rows.set id q, keys, n⟩ :=
    (mem_snapshot_iff q).mpr ⟨id, InsertionMap.get_set_self _ _ _⟩
  exact List.find?_eq_none.mp hkey q hmem (by simp)

/-- The rows of one input look alike where the table keeps the error, and are held alike then. -/
theorem held_stored_iff {driver : OutboxDriver P} {input : NewSettlementOutbox P}
    {generated : Uuid} {now : ℤ} {row : SettlementOutbox P}
    (hstored : storedRow driver input generated now = some row) (id : String) :
    (row.visible = (newRow input id now).visible ↔ row.lastError = input.lastError) ∧
      (row.lastError = input.lastError → row.held = (newRow input id now).held) := by
  have hrow := (storedAs_of_storedRow hstored).eq
  have hvisible : row.visible = (newRow input id now).visible ↔
      row.lastError = input.lastError := by
    rw [hrow]
    simp [SettlementOutbox.visible, insertedRow, newRow]
  refine ⟨hvisible, fun herror => (SettlementOutbox.held_eq_iff _ _).mpr
    ⟨hvisible.mpr herror, fun _ => ?_⟩⟩
  rw [hrow]
  rfl

section New
variable {driver : OutboxDriver P} {input : NewSettlementOutbox P} {generated : Uuid} {now : ℤ}

/-- A new row that the table stores is in both stores alike exactly if its error is kept
and the in-memory store gives it an id of its own. -/
theorem Together.enqueue_stored (h : Together t m)
    (hnew : rowOf t.1.rows input.eventKey = none) {row : SettlementOutbox P}
    (hstored : storedRow driver input generated now = some row)
    (hkey : row.eventKey = input.eventKey)
    (hid : (input.id.getD generated).text ∉ t.1.rows.map SettlementOutbox.id) :
    let table := (SettlementOutboxRepository.enqueue driver t.1 input generated now).2
    let store := (m.1.enqueue input now).2
    let fits := row.lastError = input.lastError ∧ m.1.rows.get (m.1.newId input).1 = none
    (SameRows table.rows store.snapshot ↔ fits) ∧ (fits → Together (table,t.2) (store,m.2)) := by
  intro table store fits
  have hq := (h.rowOf_eq_none_iff _).mp hnew
  have hkeys := h.indexed.keys_get_eq_none hq
  have hstore : store = _ := InMemorySettlementOutboxStore.enqueue_of_new hkeys now
  have hfresh : row.eventKey ∉ t.1.rows.map SettlementOutbox.eventKey := by
    intro hmem
    obtain ⟨old,hold,he⟩ := List.mem_map.mp hmem
    exact List.find?_eq_none.mp hnew old hold (by simp [he, hkey])
  have htable : table.rows = t.1.rows ++ [row] := enqueue_of_stored hstored hfresh hid
  obtain ⟨hvisible,hheld⟩ := held_stored_iff hstored (m.1.newId input).1
  let inserted := newRow input (m.1.newId input).1 now
  have hinsert : fits → Together (table,t.2) (store,m.2) := by
    rintro ⟨herror,hfree⟩
    rw [hstore]
    exact h.insert inserted htable
      (keysFit_enqueue h.fit driver input generated now) (hkey ▸ hnew) hkey.symm (hheld herror)
      hfree (newId_ne_empty input) (m.1.newId input).2
  refine ⟨⟨fun hsame => ?_, fun hfits => (hinsert hfits).visible⟩, hinsert⟩
  cases hfree : m.1.rows.get (m.1.newId input).1 with
  | none =>
    -- the row is seen under its event key in both stores
    have hinserted (key : String) : rowOf store.snapshot key =
        if key = inserted.eventKey then some inserted else rowOf m.1.snapshot key := by
      have hid : m.1.rows.get inserted.id = none := hfree
      have hnonempty : inserted.id ≠ "" := newId_ne_empty input
      rw [hstore]
      exact h.indexed.rowOf_insert _ hid hkeys hnonempty key
    have hmemory : rowOf store.snapshot input.eventKey = some inserted :=
      (hinserted input.eventKey).trans (if_pos rfl)
    have hrow := hsame input.eventKey
    rw [htable, rowOf_append_singleton, hnew, Option.none_or, if_pos hkey, hmemory] at hrow
    exact ⟨hvisible.mp (Option.some.inj hrow), hfree⟩
  | some old =>
    rw [hstore] at hsame
    exact absurd hsame (h.not_same_of_taken _ htable hfree hq _ _)

/-- A new row that the table refuses, or stores under another event key, is missed. -/
theorem Together.not_same_of_unstored (h : Together t m)
    (hnew : rowOf t.1.rows input.eventKey = none)
    (hunstored : ¬ ((∃ row, storedRow driver input generated now = some row ∧
      row.eventKey = input.eventKey) ∧
      (input.id.getD generated).text ∉ t.1.rows.map SettlementOutbox.id)) :
    ¬ SameRows (SettlementOutboxRepository.enqueue driver t.1 input generated now).2.rows
      (m.1.enqueue input now).2.snapshot := by
  have hkeys := h.indexed.keys_get_eq_none ((h.rowOf_eq_none_iff _).mp hnew)
  rw [InMemorySettlementOutboxStore.enqueue_of_new hkeys]
  apply not_same_of_refused
  refine List.find?_eq_none.mpr fun other hother => ?_
  rcases mem_enqueue hother with hold | ⟨hstored,hid⟩
  · exact List.find?_eq_none.mp hnew other hold
  · exact fun hkey => hunstored ⟨⟨other, hstored, of_decide_eq_true hkey⟩, hid⟩

end New

theorem Together.enqueue (h : Together t m) (driver : OutboxDriver P)
    (input : NewSettlementOutbox P) (generated : Uuid) (now : ℤ) :
    (SameRows (SettlementOutboxRepository.enqueue driver t.1 input generated now).2.rows
        (m.1.enqueue input now).2.snapshot ↔
      NothingClaimed driver t m (.enqueue input generated now)) ∧
    (NothingClaimed driver t m (.enqueue input generated now) →
      Together ((SettlementOutboxRepository.enqueue driver t.1 input generated now).2, t.2)
        ((m.1.enqueue input now).2, m.2)) := by
  -- a known event key changes neither store
  by_cases hknown : rowOf t.1.rows input.eventKey = none
  · simp only [NothingClaimed, hknown, ne_eq, not_true_eq_false, false_or]
    by_cases hins : (∃ row, storedRow driver input generated now = some row ∧
        row.eventKey = input.eventKey) ∧
        (input.id.getD generated).text ∉ t.1.rows.map SettlementOutbox.id
    · obtain ⟨⟨row,hstored,hkey⟩,hid⟩ := hins
      have hfits : ((∃ row, storedRow driver input generated now = some row ∧
          row.eventKey = input.eventKey ∧ row.lastError = input.lastError) ∧
          (input.id.getD generated).text ∉ t.1.rows.map SettlementOutbox.id ∧
          m.1.rows.get (m.1.newId input).1 = none) ↔
          row.lastError = input.lastError ∧ m.1.rows.get (m.1.newId input).1 = none := by
        simp [hstored, hkey, hid]
      rw [hfits]
      exact h.enqueue_stored hknown hstored hkey hid
    · have hunfit : ¬ ((∃ row, storedRow driver input generated now = some row ∧
          row.eventKey = input.eventKey ∧ row.lastError = input.lastError) ∧
          (input.id.getD generated).text ∉ t.1.rows.map SettlementOutbox.id ∧
          m.1.rows.get (m.1.newId input).1 = none) := by
        rintro ⟨⟨row,hstored,hkey,_⟩,hid,_⟩
        exact hins ⟨⟨row, hstored, hkey⟩, hid⟩
      exact ⟨iff_of_false (h.not_same_of_unstored hknown hins) hunfit, fun hc => absurd hc hunfit⟩
  · rw [SettlementOutboxRepository.enqueue_of_known h.fit hknown, h.indexed.enqueue_of_known
      fun hq => hknown ((h.rowOf_eq_none_iff _).mpr hq)]
    exact ⟨iff_of_true h.visible (Or.inl hknown), fun _ => h⟩

end Enqueue

section Claim
variable (readDate : ℤ → ℤ) (limit leaseMs now : ℤ) (token : String)
open InMemorySettlementOutboxStore

/-- A due row ends the agreement: only the in-memory store counts the attempt. -/
theorem Together.claims_differ (h : Together t m) {row : SettlementOutbox P}
    (hrow : row ∈ t.1.rows) (hdue : row.isDue now = true) :
    ¬ SameClaims (SettlementOutboxRepository.claimDue readDate t.1 limit leaseMs now token).1
      (m.1.claimDue limit leaseMs now).1 := by
  intro hsame
  obtain ⟨c,hc,claim,hclaim,hkey,hattempts⟩ :=
    SettlementOutboxRepository.exists_claimed readDate limit leaseMs now token hrow hdue
  -- the same claim on the other side comes from a row with one attempt less
  obtain ⟨d,hd,hdkey,hdattempts⟩ :=
    (hsame c.eventKey c.attempts).mp ⟨claim, hclaim, hkey, hattempts⟩
  obtain ⟨q,hq,_,hleased⟩ := mem_claimDue hd
  rw [hleased] at hdkey hdattempts
  have hqrow := h.indexed.rowOf_of_mem hq
  rw [show q.eventKey = c.eventKey from hdkey] at hqrow
  have hv := ((SettlementOutbox.held_eq_iff _ _).mp
    (h.held_eq (t.1.rowOf_of_mem hc) hqrow)).1
  have hsameAttempts : c.attempts = q.attempts := congrArg (fun v => v.2.1) hv
  have hmore : q.attempts+1 = c.attempts := hdattempts
  omega

theorem Together.not_due (h : Together t m) (hno : ∀ row ∈ t.1.rows, row.isDue now = false) :
    ∀ row ∈ m.1.snapshot, row.isDue now = false := by
  intro q hq
  have hqrow := h.indexed.rowOf_of_mem hq
  cases hr : rowOf t.1.rows q.eventKey with
  | none =>
    rw [(h.rowOf_eq_none_iff _).mp hr] at hqrow
    exact absurd hqrow (by simp)
  | some r =>
    obtain ⟨hv,hl⟩ := (SettlementOutbox.held_eq_iff _ _).mp (h.held_eq hr hqrow)
    have hdue := hno r (List.mem_of_find?_eq_some hr)
    have hs : r.status = q.status := congrArg Prod.fst hv
    have ha : r.availableAt = q.availableAt := congrArg (fun v => v.2.2.1) hv
    unfold SettlementOutbox.isDue at hdue ⊢
    by_cases hp : r.status = .processing
    · rwa [← hs, ← ha, ← hl hp]
    · simp only [hs] at hp hdue
      simpa [hp, ha] using hdue

end Claim

/-- One call leaves stores that stood together alike exactly under `NothingClaimed`,
and then they still stand together. -/
theorem Together.step (h : Together t m) (driver : OutboxDriver P) (call : OutboxCall P) :
    (SameOutboxOutcome ((SettlementOutboxRepository.store driver).step t call)
        ((InMemorySettlementOutboxStore.store P).step m call) ↔ NothingClaimed driver t m call) ∧
    (NothingClaimed driver t m call →
      Together ((SettlementOutboxRepository.store driver).step t call).2
        ((InMemorySettlementOutboxStore.store P).step m call).2) := by
  have hnoClaims : SameClaims ([] : List (OutboxClaim P)) [] := fun _ _ => Iff.rfl
  cases call with
  | enqueue input generated now =>
    obtain ⟨hiff,hkeep⟩ := h.enqueue driver input generated now
    exact ⟨(and_iff_right hnoClaims).trans hiff, hkeep⟩
  | claimDue limit leaseMs now token =>
    constructor
    · constructor
      · -- the tokens of a claim tell the stores apart
        intro hsame row hrow
        by_contra hdue
        rw [Bool.not_eq_false] at hdue
        exact h.claims_differ driver.readDate limit leaseMs now token hrow hdue hsame.1
      · intro hno
        simp only [SettlementOutboxStore.step, SettlementOutboxRepository.store,
          InMemorySettlementOutboxStore.store, SameOutboxOutcome,
          SettlementOutboxRepository.claimDue_of_not_due driver.readDate limit leaseMs now token hno,
          InMemorySettlementOutboxStore.claimDue_of_not_due (h.not_due now hno)]
        exact ⟨hnoClaims, h.visible⟩
    · intro hno
      simp only [SettlementOutboxStore.step, SettlementOutboxRepository.store,
        InMemorySettlementOutboxStore.store,
        SettlementOutboxRepository.claimDue_of_not_due driver.readDate limit leaseMs now token hno,
        InMemorySettlementOutboxStore.claimDue_of_not_due (h.not_due now hno)]
      have hsnoc {cs : List (List (OutboxClaim P))} (hcs : ∀ claims ∈ cs, claims = []) :
          ∀ claims ∈ cs ++ [[]], claims = [] := by
        intro claims hmem
        rcases List.mem_append.mp hmem with hold | hnew
        · exact hcs claims hold
        · exact List.mem_singleton.mp hnew
      exact ⟨h.indexed, h.fit, h.rows, hsnoc h.unclaimed.1, hsnoc h.unclaimed.2⟩
  | markSucceeded eventKey lease processedAt =>
    obtain ⟨hiff,hkeep⟩ := h.onLease driver (marksAlike_succeed processedAt) eventKey lease
    exact ⟨(and_iff_right hnoClaims).trans hiff, hkeep⟩
  | markFailed eventKey lease error retryAt dead now =>
    obtain ⟨hiff,hkeep⟩ := h.onLease driver (marksAlike_fail error retryAt dead now) eventKey lease
    simp only [SettlementOutboxStore.step, SettlementOutboxRepository.store,
      SettlementOutboxRepository.markFailed_eq]
    exact ⟨(and_iff_right hnoClaims).trans hiff, hkeep⟩

end Comparison

end StreamPay
