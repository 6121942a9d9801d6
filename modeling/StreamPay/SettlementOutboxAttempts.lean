import Mathlib.Data.List.Perm.Subperm
import StreamPay.SettlementOutboxDelivery

/-! How often the handlers of one row are started, against its `maxAttempts`. -/
namespace StreamPay
open Interleaving InMemorySettlementOutboxStore

namespace InMemorySettlementOutboxStore
variable {P : Type*} {log : OutboxLog P} {s : InMemorySettlementOutboxStore P} {id : String}

/-- The row `id` has not been claimed more often than it allows, and is pending
only while it allows another attempt. -/
def WithinAttempts (id : String) (s : InMemorySettlementOutboxStore P) : Prop :=
  ∀ row, s.rows.get id = some row → 1 ≤ row.maxAttempts →
    row.attempts ≤ row.maxAttempts ∧ (row.status = .pending → row.attempts < row.maxAttempts)

theorem WithinAttempts.set (h : WithinAttempts id s) {t : InMemorySettlementOutboxStore P}
    {id' : String} {row' : SettlementOutbox P} (hset : t.rows = s.rows.set id' row')
    (hrow' : id' = id → 1 ≤ row'.maxAttempts → row'.attempts ≤ row'.maxAttempts ∧
      (row'.status = .pending → row'.attempts < row'.maxAttempts)) : WithinAttempts id t := by
  intro row hrow
  rw [hset, InsertionMap.get_set] at hrow
  split_ifs at hrow with hid
  · obtain rfl := Option.some.inj hrow
    exact hrow' hid.symm
  · exact h row hrow

/-- A claim of the row `id` from an expired lease is still within its attempts. -/
def TakenWithinAttempts (id : String) (s : InMemorySettlementOutboxStore P) (limit now : ℤ) : Prop :=
  ∀ row ∈ s.taken limit now, row.id = id → row.status = .processing →
    row.attempts < row.maxAttempts

theorem WithinAttempts.claimDue (h : WithinAttempts id s) (hs : s.Indexed) {limit now : ℤ}
    (htaken : TakenWithinAttempts id s limit now) (leaseMs : ℤ) :
    WithinAttempts id (s.claimDue limit leaseMs now).2 := by
  rw [claimDue_eq]
  apply claimRows_invariant leaseMs now (fun _ t => WithinAttempts id t)
    (hs.taken_ids_nodup limit now)
  · intro claims t row hrow hget ht
    have hset : (t.claimRow row leaseMs now).2.rows =
      t.rows.set row.id (t.claimRow row leaseMs now).1.row := rfl
    refine ht.set hset fun hid hmax => ?_
    have hbefore : row.attempts < row.maxAttempts := by
      rcases status_of_isDue (mem_taken hrow).2 with hp | hp
      · exact (ht row (hid ▸ hget) hmax).2 hp
      · exact htaken row hrow hid hp
    refine ⟨?_, fun hstatus => by cases hstatus⟩
    change row.attempts+1 ≤ row.maxAttempts
    omega
  · exact fun row hrow => hs.get_of_mem (mem_taken hrow).1
  · exact h

theorem WithinAttempts.mark (h : WithinAttempts id s) {id' token : String}
    {f : SettlementOutbox P → SettlementOutbox P}
    (hf : ∀ row, (f row).attempts = row.attempts ∧ (f row).maxAttempts = row.maxAttempts)
    (hpending : ∀ row, s.rows.get id' = some row → row.leaseToken = some token →
      (f row).status = .pending → row.attempts < row.maxAttempts) :
    WithinAttempts id (s.mark id' token f).2 := by
  rcases mark_cases s id' token f with hrefused | ⟨row,hrow,_,htoken,haccepted⟩
  · rw [hrefused]
    exact h
  · rw [haccepted]
    refine h.set rfl fun hid hmax => ?_
    obtain ⟨hattempts,hmaxAttempts⟩ := hf row
    rw [hattempts, hmaxAttempts]
    rw [hmaxAttempts] at hmax
    exact ⟨(h row (hid ▸ hrow) hmax).1, hpending row hrow htoken⟩

theorem WithinAttempts.enqueue (h : WithinAttempts id s) (hs : s.Indexed)
    (effect : SettlementSideEffect P) (clock now : ℤ) :
    WithinAttempts id (SettlementOutboxService.enqueue s effect clock now).2 := by
  rcases enqueue_cases hs effect clock now with hsame | ⟨row,hnew,_,_,hafter⟩
  · exact hsame.symm ▸ h
  · rw [hafter]
    refine h.set rfl fun _ hmax => ?_
    rw [hnew.attempts_eq]
    exact ⟨by omega, fun _ => by omega⟩

end InMemorySettlementOutboxStore

namespace OutboxSystem
variable {ι P : Type*} {s t : OutboxSystem ι P} {id : String}

/-- Handlers were started for issued claims, and once for each. -/
structure StartedOnce (s : OutboxSystem ι P) : Prop where
  issued : ∀ claim ∈ s.started, claim ∈ claims (history s.log)
  nodup : (s.started.map OutboxClaim.leaseToken).Nodup
  unstarted : ∀ i, ∀ claim ∈ (s.workers i).unstarted,
    claim.leaseToken ∉ s.started.map OutboxClaim.leaseToken

theorem startedOnce_start (now : ℤ) : StartedOnce (start now : OutboxSystem ι P) where
  issued claim h := by simp [start] at h
  nodup := List.nodup_nil
  unstarted i claim h := by simp [start, OutboxWorker.unstarted] at h

theorem unstarted_subset_pending (worker : OutboxWorker P) :
    worker.unstarted ⊆ worker.pending := by
  cases worker with
  | handling claimedAt startedAt claim rest summary => exact List.subset_cons_self claim rest
  | called => exact List.Subset.refl _
  | working claimedAt claims summary => exact List.Subset.refl _
  | returned summary => exact List.Subset.refl _

theorem StartedOnce.call (h : StartedOnce s) (c : StoreCall P) : StartedOnce (s.call c) where
  issued claim hclaim := by
    rw [claims_call]
    exact List.mem_append_left _ (h.issued claim hclaim)
  nodup := h.nodup
  unstarted := h.unstarted

/-- No batch takes the row `id` over from an expired lease once its attempts are
used up. -/
def NoTakeoverOf (id : String) (s : OutboxSystem ι P) : OutboxAction ι P → Prop
  | .claim _ limit => TakenWithinAttempts id s.store limit s.now
  | _ => True

theorem withinAttempts_settle (h : WithinAttempts id s.store) (hw : WorkersInvariant s)
    {claim : OutboxClaim P} (hissued : claim ∈ claims (history s.log)) {c : StoreCall P}
    (hsettles : Settles claim c) : WithinAttempts id (s.call c).store := by
  cases hsettles with
  | succeeded processedAt =>
    exact h.mark (fun _ => ⟨rfl, rfl⟩) fun _ _ _ hstatus => by cases hstatus
  | failed error retryAt dead now hretry =>
    refine h.mark (fun _ => ⟨rfl, rfl⟩) fun row hrow htoken hstatus => ?_
    -- only a failure that leaves attempts makes the row pending again
    have halive : dead = false := by
      cases dead with
      | false => rfl
      | true => simp [SettlementOutbox.failWith] at hstatus
    rw [hw.lease.row_eq hissued hrow htoken]
    exact hretry halive

def startsOf (s : OutboxSystem ι P) (id : String) : List (OutboxClaim P) :=
  s.started.filter fun claim => claim.row.id = id

/-- Every start of a handler used up a claim of its row. -/
theorem StartedOnce.length_le (h : StartedOnce s) (id : String) :
    (s.startsOf id).length ≤ (claimsOf (history s.log) id).length := by
  have hnodup : (s.startsOf id).Nodup := (List.Nodup.of_map _ h.nodup).filter _
  have hsub : s.startsOf id ⊆ claimsOf (history s.log) id := by
    intro claim hclaim
    obtain ⟨hstarted,hid⟩ := List.mem_filter.mp hclaim
    exact List.mem_filter.mpr ⟨h.issued claim hstarted, hid⟩
  exact (hnodup.subperm hsub).length_le

variable [DecidableEq ι]

theorem StartedOnce.setWorker (h : StartedOnce s) {i : ι} {worker : OutboxWorker P}
    (hworker : ∀ claim ∈ worker.unstarted,
      claim.leaseToken ∉ s.started.map OutboxClaim.leaseToken) :
    StartedOnce (s.setWorker i worker) where
  issued := h.issued
  nodup := h.nodup
  unstarted j claim hclaim := by
    rw [workers_setWorker] at hclaim
    split_ifs at hclaim
    · exact hworker claim hclaim
    · exact h.unstarted j claim hclaim

/-- The claim at the head of a batch is started; no other is the same. -/
theorem StartedOnce.start (h : StartedOnce s) (hw : WorkersInvariant s) {i : ι} {claimedAt : ℤ}
    {claim : OutboxClaim P} {rest : List (OutboxClaim P)} {summary : OutboxSummary}
    (hworking : s.workers i = .working claimedAt (claim :: rest) summary) :
    StartedOnce { s.setWorker i (.handling claimedAt s.now claim rest summary) with
      started := s.started ++ [claim] } := by
  have hpending : (s.workers i).pending = claim :: rest := by
    rw [hworking]
    rfl
  have hmem : claim ∈ (s.workers i).pending := hpending ▸ List.mem_cons_self
  have hnew : claim.leaseToken ∉ s.started.map OutboxClaim.leaseToken := by
    apply h.unstarted i claim
    rw [hworking]
    exact List.mem_cons_self
  constructor
  case issued =>
    intro claim' hclaim'
    rcases List.mem_append.mp hclaim' with hold | hone
    · exact h.issued claim' hold
    · rw [List.mem_singleton.mp hone]
      exact hw.issued i claim hmem
  case nodup =>
    rw [List.map_append, List.map_singleton, ← List.concat_eq_append]
    exact (List.nodup_concat _ _).mpr ⟨hnew, h.nodup⟩
  case unstarted =>
    intro j claim' hclaim'
    -- a claim still waiting is neither started before nor the one started now
    have hother : claim'.leaseToken ∉ s.started.map OutboxClaim.leaseToken ∧
        claim.leaseToken ≠ claim'.leaseToken := by
      have hworkers : ({ s.setWorker i (.handling claimedAt s.now claim rest summary) with
          started := s.started ++ [claim] } : OutboxSystem ι P).workers j =
          if j = i then .handling claimedAt s.now claim rest summary else s.workers j :=
        workers_setWorker ..
      rw [hworkers] at hclaim'
      split_ifs at hclaim' with hj
      · have hrest : claim' ∈ rest := hclaim'
        have hnodup := hw.nodup i
        rw [hpending, List.map_cons, List.nodup_cons] at hnodup
        refine ⟨h.unstarted i claim' ?_, fun he => hnodup.1 (he ▸ List.mem_map_of_mem hrest)⟩
        rw [hworking]
        exact List.mem_cons_of_mem _ hrest
      · refine ⟨h.unstarted j claim' hclaim', fun he => hj ?_⟩
        exact (hw.apart i j claim claim' hmem (unstarted_subset_pending _ hclaim') he).symm
    rw [List.map_append, List.mem_append]
    rintro (hold | hone)
    · exact hother.1 hold
    · exact hother.2 (List.mem_singleton.mp hone).symm

theorem StartedOnce.turn (h : StartedOnce s) (hw : WorkersInvariant s) {a : OutboxAction ι P}
    (ht : Turn s a t) : StartedOnce t := by
  cases ht with
  | tick now => exact ⟨h.issued, h.nodup, h.unstarted⟩
  | enqueue effect systemNow => exact h.call _
  | claim i limit hcalled =>
    refine (h.call _).setWorker fun claim hclaim hstarted => ?_
    -- tokens of handlers that were started are old
    obtain ⟨old,hold,he⟩ := List.mem_map.mp hstarted
    have hissued := List.mem_map_of_mem (f := OutboxClaim.leaseToken) (h.issued old hold)
    exact (hw.batch_fresh limit).2 claim hclaim (he ▸ hissued)
  | start i claimedAt systemNow claim rest summary hworking => exact h.start hw hworking
  | settle i claim rest c summary _ hrest _ =>
    exact (h.call c).setWorker fun claim' hclaim' => h.unstarted i claim' (hrest hclaim')
  | returned i systemNow summary =>
    exact h.setWorker fun claim hclaim => by simp [OutboxWorker.unstarted] at hclaim

theorem withinAttempts_turn (h : WithinAttempts id s.store) (hw : WorkersInvariant s)
    {a : OutboxAction ι P} (hkeep : s.NoTakeoverOf id a) (ht : Turn s a t) :
    WithinAttempts id t.store := by
  cases ht with
  | tick now => exact h
  | enqueue effect systemNow => exact h.enqueue hw.lease.indexed effect s.now systemNow
  | claim i limit hcalled => exact h.claimDue hw.lease.indexed hkeep outboxLeaseMs
  | start i claimedAt systemNow claim rest summary hworking => exact h
  | settle i claim rest c summary hpending _ hsettles =>
    have hmem : claim ∈ (s.workers i).pending := hpending ▸ List.mem_cons_self
    exact withinAttempts_settle h hw (hw.issued i claim hmem) hsettles
  | returned i systemNow summary => exact h

/-- As long as no batch takes over an expired lease of a row whose attempts are
used up, its handler is started at most `maxAttempts` times. -/
theorem handlers_started_le_maxAttempts {handlers : ι → String → Bool} {now : ℤ}
    (hs : ReachesWhile (step handlers) (NoTakeoverOf id) (start now) s)
    {row : SettlementOutbox P} (hrow : s.store.rows.get id = some row)
    (hmax : 1 ≤ row.maxAttempts) : ((s.startsOf id).length : ℤ) ≤ row.maxAttempts := by
  have hinv : WorkersInvariant s ∧ StartedOnce s ∧ WithinAttempts id s.store :=
    hs.invariant (fun u => WorkersInvariant u ∧ StartedOnce u ∧ WithinAttempts id u.store)
      (fun _ _ _ hu hkeep hstep => ⟨hu.1.turn (turn_of_step hstep),
        hu.2.1.turn hu.1 (turn_of_step hstep),
        withinAttempts_turn hu.2.2 hu.1 hkeep (turn_of_step hstep)⟩)
      ⟨workersInvariant_start now, startedOnce_start now,
        fun row hrow => by simp [start, InMemorySettlementOutboxStore.empty] at hrow⟩
  obtain ⟨hw,hstarted,hwithin⟩ := hinv
  have hcount := hw.lease.attempts id row hrow
  calc
    ((s.startsOf id).length : ℤ) ≤ (claimsOf (history s.log) id).length := by
      exact_mod_cast hstarted.length_le id
    _ = row.attempts := hcount.symm
    _ ≤ row.maxAttempts := (hwithin row hrow hmax).1

section SampleAttempts

instance (id : String) (s : OutboxSystem ι P) (a : OutboxAction ι P) :
    Decidable (s.NoTakeoverOf id a) :=
  match a with
  | .claim _ limit => inferInstanceAs (Decidable (∀ row ∈ s.store.taken limit s.now,
      row.id = id → row.status = .processing → row.attempts < row.maxAttempts))
  | .tick _ | .enqueue .. | .next .. | .settle .. => .isTrue trivial

/-- One row that allows a single attempt, which the first worker starts. -/
def onlyAttempt (worker : ι) : List (OutboxAction ι Unit) :=
  [.enqueue ⟨"a", "payout", "stream-1", (), some 1⟩ 0, .claim worker 50, .next worker 0]

def attemptCount (s : OutboxSystem ι Unit) : Option ℤ × ℕ :=
  ((s.store.rows.get "memory-outbox-1").map SettlementOutbox.maxAttempts,
    (s.startsOf "memory-outbox-1").length)

theorem failed_attempt_not_repeated :
    ∃ s : OutboxSystem (Fin 2) Unit,
      ReachesWhile (step anyHandler) (NoTakeoverOf "memory-outbox-1") (start 0) s ∧
      s.startsOf "memory-outbox-1" ≠ [] ∧ (s.startsOf "memory-outbox-1").length ≤ 1 := by
  have hrun : (execWhile (step anyHandler) (NoTakeoverOf "memory-outbox-1") (start 0)
      (onlyAttempt 0 ++ [.settle 0 (.rejected []) 0, .tick 900000, .claim 1 50, .next 1 0])).map
        attemptCount = some (some 1, 1) := by
    decide +kernel
  obtain ⟨s,hs,hseen⟩ := Option.map_eq_some_iff.mp hrun
  obtain ⟨hmax,hcount⟩ := Prod.mk.inj hseen
  obtain ⟨row,hrow,hone⟩ := Option.map_eq_some_iff.mp hmax
  have hreach := reachesWhile_of_execWhile _ hs
  have hle := handlers_started_le_maxAttempts hreach hrow (by omega)
  refine ⟨s, hreach, List.ne_nil_of_length_pos (by omega), by omega⟩

/-- The first worker stops; after its lease the row is claimed and started again. -/
theorem abandoned_attempt_repeated :
    ¬ ∀ (handlers : Fin 2 → String → Bool) (now : ℤ) (s : OutboxSystem (Fin 2) Unit) (id : String)
      (row : SettlementOutbox Unit), Reaches (step handlers) (start now) s →
      s.store.rows.get id = some row → 1 ≤ row.maxAttempts →
      ((s.startsOf id).length : ℤ) ≤ row.maxAttempts := by
  intro h
  have hrun : (exec (step anyHandler) (start 0)
      (onlyAttempt 0 ++ [.tick 60001, .claim 1 50, .next 1 60001])).map attemptCount =
        some (some 1, 2) := by
    decide +kernel
  obtain ⟨s,hs,hseen⟩ := Option.map_eq_some_iff.mp hrun
  obtain ⟨hmax,hcount⟩ := Prod.mk.inj hseen
  obtain ⟨row,hrow,hone⟩ := Option.map_eq_some_iff.mp hmax
  have hle := h anyHandler 0 s "memory-outbox-1" row (reaches_of_exec _ hs) hrow (by omega)
  omega

end SampleAttempts

end OutboxSystem

end StreamPay
