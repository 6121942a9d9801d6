import Mathlib.Data.List.Nodup
import StreamPay.InMemorySettlementOutbox
import StreamPay.Library.NumberedText

/-! The claiming loop of the in-memory outbox row by row: which rows a batch
takes, and what one claim does. -/
namespace StreamPay

namespace InMemorySettlementOutboxStore
variable {P : Type*} {s : InMemorySettlementOutboxStore P}

def leaseToken (id : String) (n : ℕ) : String := "lease-" ++ id ++ "-" ++ toString n

def memoryId (n : ℕ) : String := "memory-outbox-" ++ toString n

theorem leaseToken_injective {id id' : String} {m n : ℕ}
    (h : leaseToken id m = leaseToken id' n) : m = n :=
  (NumberedText.dash_append_injective h).2

theorem memoryId_injective {m n : ℕ} (h : memoryId m = memoryId n) : m = n :=
  NumberedText.stem_append_injective h

/-- One round of the claiming loop, on a row that is due. -/
def claimRow (s : InMemorySettlementOutboxStore P) (row : SettlementOutbox P) (leaseMs now : ℤ) :
    OutboxClaim P × InMemorySettlementOutboxStore P :=
  let token := leaseToken row.id (s.sequence+1)
  let row' := leased row leaseMs now token
  (⟨row', token⟩, { s with rows := s.rows.set row.id row', sequence := s.sequence+1 })

def claimRows (leaseMs now : ℤ) : List (SettlementOutbox P) → InMemorySettlementOutboxStore P →
    List (OutboxClaim P) × InMemorySettlementOutboxStore P
  | [], s => ([], s)
  | row :: rest, s =>
    let (claim,s') := s.claimRow row leaseMs now
    let (claims,s'') := claimRows leaseMs now rest s'
    (claim :: claims, s'')

/-- The rows that `claimDue` takes: the first due ones, oldest first. -/
def taken (s : InMemorySettlementOutboxStore P) (limit now : ℤ) : List (SettlementOutbox P) :=
  ((s.rows.values.insertionSort fun a b => a.createdAt ≤ b.createdAt).filter
    fun row => row.isDue now).take (max 1 (min limit 500)).toNat

theorem claimLoop_eq (limit leaseMs now : ℤ) (rows : List (SettlementOutbox P))
    (claimed : List (OutboxClaim P)) (s : InMemorySettlementOutboxStore P) :
    claimLoop limit leaseMs now rows claimed s =
      let r := claimRows leaseMs now ((rows.filter fun row => row.isDue now).take
        ((max 1 (min limit 500)).toNat-claimed.length)) s
      (claimed ++ r.1, r.2) := by
  induction rows generalizing claimed s with
  | nil => simp [claimLoop, claimRows]
  | cons row rest ih =>
    unfold claimLoop
    by_cases hfull : (claimed.length:ℤ) ≥ max 1 (min limit 500)
    · have hzero : (max 1 (min limit 500)).toNat-claimed.length = 0 := by omega
      simp [hfull, hzero, claimRows]
    · rw [if_neg hfull]
      by_cases hdue : row.isDue now = true
      · have hmore : (max 1 (min limit 500)).toNat-claimed.length =
            (max 1 (min limit 500)).toNat-(claimed.length+1)+1 := by omega
        simp only [hdue, Bool.not_true, Bool.false_eq_true, ↓reduceIte, List.filter_cons_of_pos,
          hmore, List.take_succ_cons, claimRows]
        rw [ih]
        simp only [List.length_append, List.length_singleton, List.append_assoc]
        rfl
      · have hskip : row.isDue now = false := by simpa using hdue
        simp only [hskip, Bool.not_false, ↓reduceIte, ih, List.filter_cons, Bool.false_eq_true]

/-- `claimDue` first finds the rows it takes and then claims them in turn. -/
theorem claimDue_eq (s : InMemorySettlementOutboxStore P) (limit leaseMs now : ℤ) :
    s.claimDue limit leaseMs now = claimRows leaseMs now (s.taken limit now) s := by
  rw [claimDue, claimLoop_eq]
  simp [taken]

theorem Indexed.get_of_mem (hs : s.Indexed) {row : SettlementOutbox P} (h : row ∈ s.snapshot) :
    s.rows.get row.id = some row := by
  obtain ⟨id,hid⟩ := (mem_snapshot_iff row).mp h
  rw [(hs.own id row hid).1, hid]

theorem Indexed.ids_eq (hs : s.Indexed) :
    s.snapshot.map SettlementOutbox.id = s.rows.entries.map Prod.fst := by
  rw [snapshot, InsertionMap.values, List.map_map]
  apply List.map_congr_left
  intro e he
  have hget := (s.rows.get_eq_some_iff e.1 e.2).mpr he
  exact (hs.own e.1 e.2 hget).1

theorem Indexed.ids_nodup (hs : s.Indexed) : (s.rows.values.map SettlementOutbox.id).Nodup := by
  have hids : s.rows.values.map SettlementOutbox.id = s.rows.entries.map Prod.fst := hs.ids_eq
  rw [hids]
  exact s.rows.nodup

theorem mem_taken {limit now : ℤ} {row : SettlementOutbox P} (h : row ∈ s.taken limit now) :
    row ∈ s.snapshot ∧ row.isDue now = true := by
  obtain ⟨hrow,hdue⟩ := List.mem_filter.mp (List.mem_of_mem_take h)
  exact ⟨(List.mem_insertionSort _).mp hrow, hdue⟩

theorem Indexed.taken_ids_nodup (hs : s.Indexed) (limit now : ℤ) :
    ((s.taken limit now).map SettlementOutbox.id).Nodup := by
  have hperm := (List.perm_insertionSort (fun a b : SettlementOutbox P => a.createdAt ≤ b.createdAt)
    s.rows.values).map SettlementOutbox.id
  have hsorted := hperm.nodup_iff.mpr hs.ids_nodup
  exact hsorted.sublist (((List.take_sublist _ _).trans List.filter_sublist).map _)

/-- What every claimed row keeps, the whole batch keeps; each row is claimed
as it stood before the batch. -/
theorem claimRows_invariant (leaseMs now : ℤ) (I : List (OutboxClaim P) →
    InMemorySettlementOutboxStore P → Prop) {rows : List (SettlementOutbox P)}
    (hids : (rows.map SettlementOutbox.id).Nodup)
    (hstep : ∀ claims s row, row ∈ rows → s.rows.get row.id = some row → I claims s →
      I (claims ++ [(s.claimRow row leaseMs now).1]) (s.claimRow row leaseMs now).2)
    (hrows : ∀ row ∈ rows, s.rows.get row.id = some row) (h : I [] s) :
    I (claimRows leaseMs now rows s).1 (claimRows leaseMs now rows s).2 := by
  -- along the rows, with the earlier claims in front
  have hfrom : ∀ front t, (∀ row ∈ rows, t.rows.get row.id = some row) → I front t →
      I (front ++ (claimRows leaseMs now rows t).1) (claimRows leaseMs now rows t).2 := by
    clear hrows h
    induction rows with
    | nil =>
      intro front t _ ht
      simpa [claimRows] using ht
    | cons row rest ih =>
      intro front t hrows ht
      rw [List.map_cons, List.nodup_cons] at hids
      have hfirst := hstep front t row List.mem_cons_self (hrows row List.mem_cons_self) ht
      -- the other rows have other ids, so the first claim leaves them alone
      have hrest : ∀ r ∈ rest, (t.claimRow row leaseMs now).2.rows.get r.id = some r := by
        intro r hr
        have hne : r.id ≠ row.id := fun he => hids.1 (he ▸ List.mem_map_of_mem hr)
        simp only [claimRow, InsertionMap.get_set_of_ne _ _ hne]
        exact hrows r (List.mem_cons_of_mem _ hr)
      have hall := ih hids.2 (fun cs u r hr => hstep cs u r (List.mem_cons_of_mem _ hr)) _ _
        hrest hfirst
      simpa [claimRows, List.append_assoc] using hall
  exact hfrom [] s hrows h

end InMemorySettlementOutboxStore

end StreamPay
