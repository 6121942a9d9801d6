import StreamPay.ProcessedIndexerEvents
import StreamPay.Library.Interleaving

/-! Concurrent `claim`, `complete` and `fail` calls of the repository on one
event id. Each SQL statement is one step; the callers take turns freely. -/
namespace StreamPay
open Interleaving ProcessedIndexerEventRepository

inductive EventCall
  | claim (fingerprint : String)
  | complete
  | fail
  deriving DecidableEq, Repr

inductive CallProgress
  | waiting
  | inserted
  | selected (answer : ProcessedIndexerEventClaim)
  | returned
  deriving DecidableEq, Repr

structure ClaimSystem (ι : Type*) where
  table : ProcessedIndexerEvents
  progress : ι → CallProgress
  /-- Callers whose answer was `claimed`, with no complete or fail since. -/
  outstanding : ι → Bool

namespace ClaimSystem
variable {ι : Type*} [DecidableEq ι]

/-- All calls still to be made, over any table contents. -/
def start (table : ProcessedIndexerEvents) : ClaimSystem ι :=
  ⟨table, fun _ => .waiting, fun _ => false⟩

/-- The next statement of caller `i`, or the return of its answer. -/
def step (eventId : String) (calls : ι → EventCall) (s : ClaimSystem ι) (i : ι) :
    Option (ClaimSystem ι) :=
  match calls i, s.progress i with
  | .claim fingerprint, .waiting => some { s with
      table := insertEvent s.table eventId fingerprint
      progress := Function.update s.progress i .inserted }
  | .claim fingerprint, .inserted => some { s with
      progress := Function.update s.progress i
        (.selected (claimAnswer (selectEvent s.table eventId) fingerprint)) }
  | .claim _, .selected answer => some { s with
      progress := Function.update s.progress i .returned
      outstanding := Function.update s.outstanding i (answer == .claimed) }
  | .complete, .waiting => some {
      table := ProcessedIndexerEventRepository.complete s.table eventId
      progress := Function.update s.progress i .returned
      outstanding := fun _ => false }
  | .fail, .waiting => some {
      table := ProcessedIndexerEventRepository.fail s.table eventId
      progress := Function.update s.progress i .returned
      outstanding := fun _ => false }
  | _, _ => none

def Exclusive (s : ClaimSystem ι) : Prop :=
  ∀ i j, s.outstanding i = true → s.outstanding j = true → i = j

end ClaimSystem

/-- The row can be found failed: it is so already, or some caller will fail it. -/
def CanFail {ι : Type*} (table : ProcessedIndexerEvents) (eventId : String)
    (calls : ι → EventCall) : Prop :=
  (∃ row, table.get eventId = some row ∧ row.status = .failed) ∨ ∃ k, calls k = .fail

/-- Two callers claim with one fingerprint, the row (if any) is bound to it,
and the row can be found failed. -/
def RetryRace {ι : Type*} (table : ProcessedIndexerEvents) (eventId : String)
    (calls : ι → EventCall) : Prop :=
  CanFail table eventId calls ∧ ∃ i j fingerprint, i ≠ j ∧ calls i = .claim fingerprint ∧
    calls j = .claim fingerprint ∧
    ∀ row, table.get eventId = some row → row.payloadHash = fingerprint

def KeepsHash (eventId : String) (table table' : ProcessedIndexerEvents) : Prop :=
  ∀ row, table.get eventId = some row →
    ∃ row', table'.get eventId = some row' ∧ row'.payloadHash = row.payloadHash

theorem KeepsHash.trans {eventId : String} {t t' t'' : ProcessedIndexerEvents}
    (h : KeepsHash eventId t t') (h' : KeepsHash eventId t' t'') : KeepsHash eventId t t'' := by
  intro row hrow
  obtain ⟨row',hrow',he⟩ := h row hrow
  obtain ⟨row'',hrow'',he'⟩ := h' row' hrow'
  exact ⟨row'', hrow'', he'.trans he⟩

theorem get_insertEvent (table : ProcessedIndexerEvents) (eventId fingerprint : String) :
    (insertEvent table eventId fingerprint).get eventId =
      some ((table.get eventId).getD ⟨fingerprint, .processing⟩) := by
  unfold insertEvent InsertionMap.has
  cases h : table.get eventId <;> simp [h]

theorem get_updateStatus (table : ProcessedIndexerEvents) (eventId : String)
    (status : ProcessedIndexerEventStatus) :
    (updateStatus table eventId status).get eventId =
      (table.get eventId).map (fun row => { row with status := status }) := by
  simp [updateStatus, InsertionMap.get_modify]

theorem keepsHash_insertEvent (table : ProcessedIndexerEvents) (eventId fingerprint : String) :
    KeepsHash eventId table (insertEvent table eventId fingerprint) := by
  intro row hrow
  exact ⟨row, by rw [get_insertEvent, hrow, Option.getD_some], rfl⟩

theorem keepsHash_updateStatus (table : ProcessedIndexerEvents) (eventId : String)
    (status : ProcessedIndexerEventStatus) :
    KeepsHash eventId table (updateStatus table eventId status) := by
  intro row hrow
  exact ⟨{ row with status := status }, by rw [get_updateStatus, hrow, Option.map_some], rfl⟩

theorem claimAnswer_eq_claimed_iff (existing : Option ProcessedIndexerEvent) (fingerprint : String) :
    claimAnswer existing fingerprint = .claimed ↔ existing = some ⟨fingerprint, .failed⟩ := by
  cases existing with
  | none => simp [claimAnswer]
  | some row =>
    obtain ⟨hash,status⟩ := row
    by_cases hf : hash = fingerprint
    · cases status <;> simp [claimAnswer, hf]
    · simp [claimAnswer, hf]

namespace ClaimSystem
variable {ι : Type*}

/-- The caller was answered `claimed`, whether or not the answer has arrived. -/
def HoldsClaim (s : ClaimSystem ι) (i : ι) : Prop :=
  s.progress i = .selected .claimed ∨ s.outstanding i = true

/-- What every interleaving keeps: the binding of the row, and a source of
failure and a matching fingerprint behind every `claimed` answer. -/
structure Inv (table : ProcessedIndexerEvents) (eventId : String) (calls : ι → EventCall)
    (s : ClaimSystem ι) : Prop where
  kept : KeepsHash eventId table s.table
  failed : ∀ row, s.table.get eventId = some row → row.status = .failed →
    CanFail table eventId calls
  held : ∀ i, s.HoldsClaim i → CanFail table eventId calls ∧
    ∃ row, s.table.get eventId = some row ∧ calls i = .claim row.payloadHash

theorem inv_start (table : ProcessedIndexerEvents) (eventId : String) (calls : ι → EventCall) :
    Inv table eventId calls (start table) where
  kept row hrow := ⟨row, hrow, rfl⟩
  failed row hrow hs := Or.inl ⟨row, hrow, hs⟩
  held i hi := by simp [HoldsClaim, start] at hi

variable [DecidableEq ι] {eventId : String} {calls : ι → EventCall} {s s' : ClaimSystem ι} {i : ι}

theorem step_table (h : step eventId calls s i = some s') :
    s'.table = s.table ∨ (∃ fingerprint, s'.table = insertEvent s.table eventId fingerprint) ∨
      s'.table = updateStatus s.table eventId .completed ∨
      (calls i = .fail ∧ s'.table = updateStatus s.table eventId .failed) := by
  unfold step at h
  split at h <;> first | obtain rfl := Option.some.inj h | exact absurd h (by simp)
  · exact Or.inr (Or.inl ⟨_, rfl⟩)
  · exact Or.inl rfl
  · exact Or.inl rfl
  · exact Or.inr (Or.inr (Or.inl rfl))
  · exact Or.inr (Or.inr (Or.inr ⟨‹_›, rfl⟩))

/-- A `claimed` answer is new only when this step's SELECT found the row failed. -/
theorem step_held (h : step eventId calls s i = some s') {j : ι} (hj : s'.HoldsClaim j) :
    s.HoldsClaim j ∨ (∃ fingerprint, calls j = .claim fingerprint ∧
      s.table.get eventId = some ⟨fingerprint, .failed⟩ ∧ s'.table = s.table) := by
  unfold step at h
  by_cases hji : j = i
  · subst hji
    split at h <;> first | obtain rfl := Option.some.inj h | exact absurd h (by simp)
    · exact Or.inl (Or.inr (by simpa [HoldsClaim] using hj))
    · rcases hj with hj | hj
      · simp only [Function.update_self, CallProgress.selected.injEq, claimAnswer_eq_claimed_iff]
          at hj
        exact Or.inr ⟨_, ‹_›, hj, rfl⟩
      · exact Or.inl (Or.inr hj)
    · -- the answer arrives
      have hans : ‹ProcessedIndexerEventClaim› = .claimed := by simpa [HoldsClaim] using hj
      exact Or.inl (Or.inl (hans ▸ ‹s.progress j = _›))
    · simp [HoldsClaim] at hj
    · simp [HoldsClaim] at hj
  · left
    split at h <;> first | obtain rfl := Option.some.inj h | exact absurd h (by simp)
    · simpa [HoldsClaim, Function.update_of_ne hji] using hj
    · simpa [HoldsClaim, Function.update_of_ne hji] using hj
    · simpa [HoldsClaim, Function.update_of_ne hji] using hj
    · exact Or.inl (by simpa [HoldsClaim, Function.update_of_ne hji] using hj)
    · exact Or.inl (by simpa [HoldsClaim, Function.update_of_ne hji] using hj)

theorem step_keepsHash (h : step eventId calls s i = some s') :
    KeepsHash eventId s.table s'.table := by
  rcases step_table h with ht | ⟨_,ht⟩ | ht | ⟨_,ht⟩ <;> rw [ht]
  · exact fun row hrow => ⟨row, hrow, rfl⟩
  · exact keepsHash_insertEvent _ _ _
  · exact keepsHash_updateStatus _ _ _
  · exact keepsHash_updateStatus _ _ _

theorem step_failed (h : step eventId calls s i = some s') {row : ProcessedIndexerEvent}
    (hrow : s'.table.get eventId = some row) (hs : row.status = .failed) :
    s.table.get eventId = some row ∨ calls i = .fail := by
  rcases step_table h with ht | ⟨_,ht⟩ | ht | ⟨hcall,_⟩
  · exact Or.inl (ht ▸ hrow)
  · rw [ht, get_insertEvent] at hrow
    cases hold : s.table.get eventId with
    | none =>
      rw [hold, Option.getD_none] at hrow
      exact absurd ((Option.some.inj hrow) ▸ hs) (by simp)
    | some old => exact Or.inl (by rwa [hold, Option.getD_some] at hrow)
  · rw [ht, get_updateStatus] at hrow
    obtain ⟨old,_,rfl⟩ := Option.map_eq_some_iff.mp hrow
    exact absurd hs (by simp)
  · exact Or.inr hcall

theorem Inv.step {table : ProcessedIndexerEvents} (hI : Inv table eventId calls s)
    (h : step eventId calls s i = some s') : Inv table eventId calls s' where
  kept := hI.kept.trans (step_keepsHash h)
  failed row hrow hs := by
    rcases step_failed h hrow hs with hold | hcall
    · exact hI.failed row hold hs
    · exact Or.inr ⟨i, hcall⟩
  held j hj := by
    rcases step_held h hj with hold | ⟨fingerprint,hcall,hrow,ht⟩
    · obtain ⟨hcan,row,hrow,hcall⟩ := hI.held j hold
      obtain ⟨row',hrow',he⟩ := step_keepsHash h row hrow
      exact ⟨hcan, row', hrow', he ▸ hcall⟩
    · exact ⟨hI.failed _ hrow rfl, _, ht ▸ hrow, hcall⟩

/-- Two outstanding answers reveal the race that produced them. -/
theorem Inv.exclusive {table : ProcessedIndexerEvents} (hI : Inv table eventId calls s)
    (hno : ¬ RetryRace table eventId calls) : s.Exclusive := by
  intro j k hj hk
  by_contra hjk
  -- both answers match the fingerprint of the one row, so they are the two claimers of a race
  obtain ⟨hcan,row,hrow,hcall⟩ := hI.held j (Or.inr hj)
  obtain ⟨_,row',hrow',hcall'⟩ := hI.held k (Or.inr hk)
  obtain rfl : row = row' := Option.some.inj (hrow.symm.trans hrow')
  refine hno ⟨hcan, j, k, row.payloadHash, hjk, hcall, hcall', fun first hfirst => ?_⟩
  obtain ⟨now,hnow,he⟩ := hI.kept first hfirst
  rw [← he, Option.some.inj (hrow.symm.trans hnow)]

/-- A caller that has not yet selected gets `claimed` from its own failed row,
and the row stays as it is for the next caller. -/
theorem retry_claimed {fingerprint : String} (hcall : calls i = .claim fingerprint)
    (hrow : s.table.get eventId = some ⟨fingerprint, .failed⟩)
    (hp : s.progress i = .waiting ∨ s.progress i = .inserted) :
    ∃ t, Reaches (step eventId calls) s t ∧
      t.table.get eventId = some ⟨fingerprint, .failed⟩ ∧
      t.outstanding = Function.update s.outstanding i true ∧
      ∀ j, j ≠ i → t.progress j = s.progress j := by
  have hinserted : ∃ t, Reaches (step eventId calls) s t ∧
      t.table.get eventId = some ⟨fingerprint, .failed⟩ ∧ t.progress i = .inserted ∧
      t.outstanding = s.outstanding ∧ ∀ j, j ≠ i → t.progress j = s.progress j := by
    rcases hp with hp | hp
    · have hstep : step eventId calls s i = some ⟨insertEvent s.table eventId fingerprint,
          Function.update s.progress i .inserted, s.outstanding⟩ := by
        simp only [step, hcall, hp]
      refine ⟨_, ReachesWhile.tail i .refl trivial hstep, ?_, Function.update_self .., rfl,
        fun j hj => Function.update_of_ne hj _ _⟩
      rw [get_insertEvent, hrow, Option.getD_some]
    · exact ⟨s, .refl, hrow, hp, rfl, fun _ _ => rfl⟩
  obtain ⟨t,hreach,ht,hpt,hout,hother⟩ := hinserted
  have hans : claimAnswer (selectEvent t.table eventId) fingerprint = .claimed :=
    (claimAnswer_eq_claimed_iff _ _).mpr ht
  have hexec : exec (step eventId calls) t [i,i] = some ⟨t.table,
      Function.update t.progress i .returned, Function.update t.outstanding i true⟩ := by
    simp [exec, step, hcall, hpt, hans]
  refine ⟨_, hreach.trans (reaches_of_exec [i,i] hexec), ht, by rw [hout], fun j hj => ?_⟩
  rw [← hother j hj]
  exact Function.update_of_ne hj _ _

/-- When the row can fail, it can do so before either of two claimers selects. -/
theorem reaches_failed_row {table : ProcessedIndexerEvents} {j : ι} {fingerprint : String}
    (hcan : CanFail table eventId calls) (hij : i ≠ j) (hi : calls i = .claim fingerprint)
    (hj : calls j = .claim fingerprint)
    (hfit : ∀ row, table.get eventId = some row → row.payloadHash = fingerprint) :
    ∃ t, Reaches (step eventId calls) (start table) t ∧
      t.table.get eventId = some ⟨fingerprint, .failed⟩ ∧
      (t.progress i = .waiting ∨ t.progress i = .inserted) ∧ t.progress j = .waiting := by
  rcases hcan with ⟨row,hrow,hs⟩ | ⟨k,hk⟩
  · -- the row is failed from the start
    refine ⟨_, .refl, ?_, Or.inl rfl, rfl⟩
    rw [start, hrow, ← hfit row hrow, ← hs]
  · -- caller `k` fails it, and is neither of the claimers
    have hki : i ≠ k := fun h => by simp [← h, hi] at hk
    have hkj : j ≠ k := fun h => by simp [← h, hj] at hk
    cases hrow : table.get eventId with
    | some row =>
      have hexec : exec (step eventId calls) (start table) [k] =
          some ⟨updateStatus table eventId .failed,
            Function.update (fun _ => .waiting) k .returned, fun _ => false⟩ := by
        simp [exec, step, start, hk, ProcessedIndexerEventRepository.fail]
      refine ⟨_, reaches_of_exec [k] hexec, ?_, Or.inl ?_, ?_⟩
      · rw [get_updateStatus, hrow, Option.map_some, hfit row hrow]
      · simp [Function.update_of_ne hki]
      · simp [Function.update_of_ne hkj]
    | none =>
      -- the first claimer's INSERT makes the row that the failing caller then fails
      have hexec : exec (step eventId calls) (start table) [i,k] =
          some ⟨updateStatus (insertEvent table eventId fingerprint) eventId .failed,
            Function.update (Function.update (fun _ => .waiting) i .inserted) k .returned,
            fun _ => false⟩ := by
        simp [exec, step, start, hi, hk, Function.update_of_ne hki.symm,
          ProcessedIndexerEventRepository.fail]
      refine ⟨_, reaches_of_exec [i,k] hexec, ?_, Or.inr ?_, ?_⟩
      · rw [get_updateStatus, get_insertEvent, hrow, Option.getD_none, Option.map_some]
      · simp [Function.update_of_ne hki]
      · simp [Function.update_of_ne hkj, Function.update_of_ne hij.symm]

theorem race_breaks_exclusive {table : ProcessedIndexerEvents}
    (h : RetryRace table eventId calls) :
    ∃ t, Reaches (step eventId calls) (start table) t ∧ ¬ t.Exclusive := by
  obtain ⟨hcan,i,j,fingerprint,hij,hi,hj,hfit⟩ := h
  -- the row fails first, then one claimer runs to its end, then the other
  obtain ⟨t,hreach,hrow,hpi,hpj⟩ := reaches_failed_row hcan hij hi hj hfit
  obtain ⟨u,hreach',hrow',hout,hother⟩ := retry_claimed hi hrow hpi
  obtain ⟨v,hreach'',_,hout',_⟩ :=
    retry_claimed hj hrow' (Or.inl ((hother j hij.symm).trans hpj))
  refine ⟨v, (hreach.trans hreach').trans hreach'', fun hex => hij (hex i j ?_ ?_)⟩
  · rw [hout', hout, Function.update_of_ne hij, Function.update_self]
  · rw [hout', Function.update_self]

/-- Over every interleaving of the callers' statements, no two of them hold an
outstanding `claimed` answer exactly when no two race for one failed row. -/
theorem claims_exclusive_iff_no_race (table : ProcessedIndexerEvents) (eventId : String)
    (calls : ι → EventCall) :
    (∀ s, Reaches (step eventId calls) (start table) s → s.Exclusive) ↔
      ¬ RetryRace table eventId calls := by
  constructor
  · intro hall hrace
    obtain ⟨t,hreach,hnot⟩ := race_breaks_exclusive hrace
    exact hnot (hall t hreach)
  · intro hno s hreach
    have hI := hreach.invariant (Inv table eventId calls) (fun _ _ _ hI _ h => hI.step h)
      (inv_start table eventId calls)
    exact hI.exclusive hno

/-- Two callers retry one failed settlement and are both answered `claimed`. -/
theorem failed_row_claimed_twice :
    ¬ ∀ (table : ProcessedIndexerEvents) (eventId : String) (calls : Fin 2 → EventCall)
      (s : ClaimSystem (Fin 2)), Reaches (step eventId calls) (start table) s → s.Exclusive := by
  intro h
  let table : ProcessedIndexerEvents := .set .empty "evt-1" ⟨"hash-1", .failed⟩
  have hrun : (exec (step "evt-1" fun _ : Fin 2 => .claim "hash-1") (start table)
      [0,0,0,1,1,1]).map (fun s => (s.outstanding 0, s.outstanding 1)) = some (true,true) := by
    decide
  obtain ⟨s,hs,hout⟩ := Option.map_eq_some_iff.mp hrun
  obtain ⟨h0,h1⟩ := Prod.mk.inj hout
  exact absurd (h table "evt-1" _ s (reaches_of_exec _ hs) 0 1 h0 h1) (by decide)

end ClaimSystem

end StreamPay
