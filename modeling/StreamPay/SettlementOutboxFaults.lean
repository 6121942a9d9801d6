import StreamPay.SettlementOutboxFailures

/-! Calls of `processDue` on a store whose calls may throw, before or after they
have taken effect. The handler and the call that marks its success stand in one
`try`, so a failure of either is caught alike. -/
namespace StreamPay
open Interleaving InMemorySettlementOutboxStore

/-- The claim whose handler is running. -/
def OutboxWorker.current {P : Type*} : OutboxWorker P → Option (OutboxClaim P)
  | .handling _ _ claim _ _ => some claim
  | _ => none

inductive FaultyProgress
  | running
  /-- The handler has resolved and `markSucceeded` has thrown; the catch clause is next. -/
  | caught (message : Utf16)
  /-- The call of `processDue` is rejected. -/
  | threw

def FaultyProgress.isRunning : FaultyProgress → Bool
  | .running => true
  | _ => false

structure FaultyOutbox (ι P : Type*) where
  outbox : OutboxSystem ι P
  progress : ι → FaultyProgress
  /-- The claims whose handler has resolved so far. -/
  resolved : List (OutboxClaim P)

/-- A call that throws `late` has taken effect before. -/
inductive FaultyAction (ι P : Type*)
  /-- A turn in which no call of the store throws. -/
  | turn (a : OutboxAction ι P)
  /-- The handler resolves and `markSucceeded` throws. -/
  | acknowledgeThrows (i : ι) (message : Utf16) (late : Bool)
  /-- The catch clause behind a handler that has resolved. -/
  | catches (i : ι) (systemNow : ℤ)
  /-- The turn `a`, whose call of `claimDue` or `markFailed` throws. -/
  | throws (i : ι) (a : OutboxAction ι P) (late : Bool)

namespace FaultyOutbox
variable {ι P : Type*} [DecidableEq ι]

def start (now : ℤ) : FaultyOutbox ι P := ⟨.start now, fun _ => .running, []⟩

/-- The claim whose handler resolves in a turn. -/
def resolvedBy (s : FaultyOutbox ι P) : OutboxAction ι P → List (OutboxClaim P)
  | .settle i .resolved _ => (s.outbox.workers i).current.toList
  | _ => []

/-- The turn calls the store outside of the `try`, or in its catch clause. -/
def mayThrow (handlers : ι → String → Bool) (s : FaultyOutbox ι P) (i : ι)
    (a : OutboxAction ι P) : Bool :=
  match s.progress i, a with
  | .running, .claim _ _ => true
  | .running, .next _ _ => !(s.outbox.workers i).pending.isEmpty &&
      (s.outbox.startsHandler handlers i).isNone
  | .running, .settle _ (.rejected _) _ => true
  | .caught message, .settle _ (.rejected message') _ => message' = message
  | _, _ => false

def step (handlers : ι → String → Bool) (s : FaultyOutbox ι P) :
    FaultyAction ι P → Option (FaultyOutbox ι P)
  | .turn a =>
    if a.worker.all fun i => (s.progress i).isRunning then
      (s.outbox.step handlers a).map fun outbox =>
        { s with outbox, resolved := s.resolved ++ s.resolvedBy a }
    else none
  | .acknowledgeThrows i message late =>
    match s.progress i, s.outbox.workers i with
    | .running, .handling _ _ claim _ _ => some {
        outbox := if late then
            s.outbox.call (.markSucceeded claim.row.id claim.leaseToken s.outbox.now)
          else s.outbox
        progress := Function.update s.progress i (.caught message)
        resolved := s.resolved ++ [claim] }
    | _, _ => none
  | .catches i systemNow =>
    match s.progress i with
    -- the clause cannot tell an error of the store from one of the handler
    | .caught message =>
      (s.outbox.step handlers (.settle i (.rejected message) systemNow)).map fun outbox =>
        { s with outbox, progress := Function.update s.progress i .running }
    | _ => none
  | .throws i a late =>
    if a.worker = some i && s.mayThrow handlers i a then
      (s.outbox.step handlers a).map fun outbox =>
        { s with
          outbox := if late then outbox else s.outbox
          progress := Function.update s.progress i .threw }
    else none

/-- No row was marked failed, and by this got an error or became dead, for a claim
whose handler has resolved. -/
def ResolvedNotFailed (s : FaultyOutbox ι P) : Prop :=
  ∀ claim ∈ s.resolved, .failed claim.row.id claim.leaseToken ∉ history s.outbox.log

/-- The row of the running handler is processing under the token of its claim. -/
def HoldsLease (s : FaultyOutbox ι P) (i : ι) : Prop :=
  ∃ claim, (s.outbox.workers i).current = some claim ∧
    ∃ row, s.outbox.store.rows.get claim.row.id = some row ∧ row.status = .processing ∧
      row.leaseToken = some claim.leaseToken

/-- The catch clause behind a handler that has resolved finds the lease gone. -/
def SparesResolved (s : FaultyOutbox ι P) : FaultyAction ι P → Prop
  | .catches i _ => ¬ s.HoldsLease i
  | .throws i _ true => (∃ message, s.progress i = .caught message) → ¬ s.HoldsLease i
  | _ => True

end FaultyOutbox

namespace FaultyOutbox
variable {ι P : Type*} {s t : FaultyOutbox ι P}

/-- The claims of a worker for which no handler has resolved yet. -/
def fresh (s : FaultyOutbox ι P) (i : ι) : List (OutboxClaim P) :=
  match s.progress i with
  | .running => (s.outbox.workers i).pending
  | .caught _ => (s.outbox.workers i).unstarted
  | .threw => []

structure Inv (s : FaultyOutbox ι P) : Prop where
  workers : s.outbox.WorkersInvariant
  fresh : ∀ i, ∀ claim ∈ s.fresh i,
    claim.leaseToken ∉ settledTokens (history s.outbox.log) ∧
    claim.leaseToken ∉ s.resolved.map OutboxClaim.leaseToken
  resolved : ∀ claim ∈ s.resolved, claim ∈ claims (history s.outbox.log)
  caught : ∀ i message, s.progress i = .caught message →
    ∃ claim, (s.outbox.workers i).current = some claim ∧ claim ∈ s.resolved

theorem inv_start (now : ℤ) : (start now : FaultyOutbox ι P).Inv where
  workers := OutboxSystem.workersInvariant_start now
  fresh i claim h := by
    simp [FaultyOutbox.fresh, start, OutboxSystem.start, OutboxWorker.pending] at h
  resolved claim h := by simp [start] at h
  caught i message h := by cases h

theorem resolvedNotFailed_start (now : ℤ) :
    (start now : FaultyOutbox ι P).ResolvedNotFailed := by
  intro claim hclaim
  simp [start] at hclaim

theorem fresh_subset_pending (s : FaultyOutbox ι P) (i : ι) :
    s.fresh i ⊆ (s.outbox.workers i).pending := by
  unfold fresh
  split
  · exact List.Subset.refl _
  · exact OutboxSystem.unstarted_subset_pending _
  · exact List.nil_subset _

/-- A step that gives out no claims may settle and resolve claims that are fresh no more. -/
theorem Inv.mono (hs : s.Inv) (hworkers : t.outbox.WorkersInvariant) (spent : List String)
    (hsettled : settledTokens (history t.outbox.log) ⊆
      settledTokens (history s.outbox.log) ++ spent)
    (hresolved : t.resolved.map OutboxClaim.leaseToken ⊆
      s.resolved.map OutboxClaim.leaseToken ++ spent)
    (hfresh : ∀ j, ∀ claim ∈ t.fresh j, claim ∈ s.fresh j ∧ claim.leaseToken ∉ spent)
    (hclaims : ∀ claim ∈ t.resolved, claim ∈ claims (history t.outbox.log))
    (hcaught : ∀ i message, t.progress i = .caught message →
      ∃ claim, (t.outbox.workers i).current = some claim ∧ claim ∈ t.resolved) : t.Inv where
  workers := hworkers
  fresh j claim hclaim := by
    obtain ⟨hold,hunspent⟩ := hfresh j claim hclaim
    obtain ⟨hunsettled,hunresolved⟩ := hs.fresh j claim hold
    constructor
    · intro htoken
      rcases List.mem_append.mp (hsettled htoken) with h | h
      · exact hunsettled h
      · exact hunspent h
    · intro htoken
      rcases List.mem_append.mp (hresolved htoken) with h | h
      · exact hunresolved h
      · exact hunspent h
  resolved := hclaims
  caught := hcaught

/-- The claims behind the first one and those of the other workers have other tokens. -/
theorem Inv.token_ne (hs : s.Inv) {i : ι} {claim : OutboxClaim P} {rest : List (OutboxClaim P)}
    (hpending : (s.outbox.workers i).pending = claim :: rest) {j : ι} {other : OutboxClaim P}
    (hother : other ∈ s.fresh j) (hrest : j = i → other ∈ rest) :
    other.leaseToken ∉ [claim.leaseToken] := by
  intro htoken
  have hbatch := fresh_subset_pending s j hother
  exact hs.workers.head_token_ne hpending hbatch hrest (List.mem_singleton.mp htoken).symm

variable [DecidableEq ι]

theorem fresh_of_ne {i j : ι} (hj : j ≠ i) (outbox : OutboxSystem ι P)
    (worker : OutboxWorker P) (progress : FaultyProgress) (resolved : List (OutboxClaim P))
    (hworkers : outbox.workers = s.outbox.workers) :
    (⟨outbox.setWorker i worker, Function.update s.progress i progress, resolved⟩ :
      FaultyOutbox ι P).fresh j = s.fresh j := by
  have hworker : (outbox.setWorker i worker).workers j = s.outbox.workers j := by
    rw [OutboxSystem.workers_setWorker, if_neg hj, hworkers]
  simp only [fresh, Function.update_of_ne hj, hworker]

theorem caught_update (hs : s.Inv) {i : ι} {progress : FaultyProgress}
    (hprogress : progress = .running ∨ progress = .threw) {outbox : OutboxSystem ι P}
    (hothers : ∀ j ≠ i, outbox.workers j = s.outbox.workers j) {resolved : List (OutboxClaim P)}
    (hresolved : s.resolved ⊆ resolved) (j : ι) (message : Utf16)
    (h : Function.update s.progress i progress j = .caught message) :
    ∃ claim, (outbox.workers j).current = some claim ∧ claim ∈ resolved := by
  by_cases hj : j = i
  · subst hj
    rw [Function.update_self] at h
    rcases hprogress with rfl | rfl
    · cases h
    · cases h
  · rw [Function.update_of_ne hj] at h
    obtain ⟨claim,hcurrent,hmem⟩ := hs.caught j message h
    rw [hothers j hj]
    exact ⟨claim, hcurrent, hresolved hmem⟩

/-- A worker settles the first of its claims and has the fresh ones among the rest. -/
theorem Inv.settle (hs : s.Inv) {i : ι} {claim : OutboxClaim P} {rest : List (OutboxClaim P)}
    (hpending : (s.outbox.workers i).pending = claim :: rest) (hrest : rest ⊆ s.fresh i)
    {c : StoreCall P} (hc : OutboxSystem.Settles claim c) (claimedAt : ℤ) (summary : OutboxSummary)
    {progress : FaultyProgress} (hprogress : progress = .running ∨ progress = .threw)
    {resolved : List (OutboxClaim P)}
    (hresolved : resolved = s.resolved ∨ resolved = s.resolved ++ [claim]) :
    (⟨(s.outbox.call c).setWorker i (.working claimedAt rest summary),
      Function.update s.progress i progress, resolved⟩ : FaultyOutbox ι P).Inv := by
  have hsub : rest.Sublist ((s.outbox.call c).workers i).pending := by
    have hsame : ((s.outbox.call c).workers i).pending = claim :: rest := hpending
    rw [hsame]
    exact List.sublist_cons_self claim rest
  have hkeep : s.resolved ⊆ resolved := by
    rcases hresolved with rfl | rfl
    · exact List.Subset.refl _
    · exact List.subset_append_left _ _
  refine hs.mono ((hs.workers.call c).setWorker hsub) [claim.leaseToken]
    (OutboxSystem.settledTokens_call hc) ?_ ?_ ?_ ?_
  · rcases hresolved with rfl | rfl
    · exact List.subset_append_left _ _
    · rw [List.map_append]
      exact List.Subset.refl _
  · intro j other hother
    by_cases hj : j = i
    · subst hj
      have hmem : other ∈ rest := by
        rcases hprogress with rfl | rfl
        · simpa [FaultyOutbox.fresh, Function.update_self, OutboxSystem.workers_setWorker,
            OutboxWorker.pending] using hother
        · simp [FaultyOutbox.fresh, Function.update_self] at hother
      exact ⟨hrest hmem, hs.token_ne hpending (hrest hmem) fun _ => hmem⟩
    · rw [fresh_of_ne (s := s) hj (s.outbox.call c) _ _ _ rfl] at hother
      exact ⟨hother, hs.token_ne hpending hother fun h => absurd h hj⟩
  · intro other hother
    have hissued : other ∈ claims (history s.outbox.log) := by
      rcases hresolved with rfl | rfl
      · exact hs.resolved other hother
      · rcases List.mem_append.mp hother with hold | hnew
        · exact hs.resolved other hold
        · obtain rfl := List.mem_singleton.mp hnew
          apply hs.workers.issued i other
          rw [hpending]
          exact List.mem_cons_self
    change other ∈ claims (history (s.outbox.call c).log)
    rw [OutboxSystem.claims_call]
    exact List.mem_append_left _ hissued
  · intro j message hcaught
    refine caught_update hs hprogress ?_ hkeep j message hcaught
    intro k hk
    rw [OutboxSystem.workers_setWorker, if_neg hk]
    rfl

omit [DecidableEq ι] in
/-- A fresh claim was never marked failed. -/
theorem Inv.not_failed (hs : s.Inv) {i : ι} {claim : OutboxClaim P} (h : claim ∈ s.fresh i) :
    .failed claim.row.id claim.leaseToken ∉ history s.outbox.log :=
  fun hfailed => (hs.fresh i claim h).1 (OutboxSystem.settled_of_failed hfailed)

/-- The tokens of a batch are new, so its claims are fresh. -/
theorem Inv.claims (hs : s.Inv) (i : ι) (limit : ℤ) {progress : FaultyProgress}
    (hprogress : progress = .running ∨ progress = .threw) :
    (⟨(s.outbox.call (.claimDue limit outboxLeaseMs s.outbox.now)).setWorker i
        (.working s.outbox.now (s.outbox.batch limit) {}),
      Function.update s.progress i progress, s.resolved⟩ : FaultyOutbox ι P).Inv := by
  obtain ⟨_,hnew⟩ := hs.workers.batch_fresh limit
  have hsame := OutboxSystem.settledTokens_call_of_quiet (s := s.outbox)
    (OutboxSystem.quiet_claimDue s.outbox.store limit outboxLeaseMs s.outbox.now)
  refine ⟨hs.workers.claim i limit, ?_, ?_, ?_⟩
  · intro j claim hclaim
    change claim.leaseToken ∉ settledTokens (history
      (s.outbox.call (.claimDue limit outboxLeaseMs s.outbox.now)).log) ∧ _
    rw [hsame]
    by_cases hj : j = i
    · subst hj
      have hbatch : claim ∈ s.outbox.batch limit := by
        rcases hprogress with rfl | rfl
        · simpa [FaultyOutbox.fresh, Function.update_self, OutboxSystem.workers_setWorker,
            OutboxWorker.pending] using hclaim
        · simp [FaultyOutbox.fresh, Function.update_self] at hclaim
      have hunissued := hnew claim hbatch
      refine ⟨fun h => hunissued (hs.workers.lease.settled _ h).1, ?_⟩
      intro h
      obtain ⟨other,hother,htoken⟩ := List.mem_map.mp h
      exact hunissued (htoken ▸ List.mem_map_of_mem (hs.resolved other hother))
    · rw [fresh_of_ne (s := s) hj (s.outbox.call _) _ _ _ rfl] at hclaim
      exact hs.fresh j claim hclaim
  · intro claim hclaim
    change claim ∈ StreamPay.claims (history
      (s.outbox.call (.claimDue limit outboxLeaseMs s.outbox.now)).log)
    rw [OutboxSystem.claims_call]
    exact List.mem_append_left _ (hs.resolved claim hclaim)
  · intro j message hcaught
    refine caught_update hs hprogress ?_ (List.Subset.refl _) j message hcaught
    intro k hk
    rw [OutboxSystem.workers_setWorker, if_neg hk]
    rfl

/-- A step that neither settles nor claims, and in which worker `i` at most puts
its claims aside. -/
theorem Inv.sameLog (hs : s.Inv) {outbox : OutboxSystem ι P} (hworkers : outbox.WorkersInvariant)
    (hlog : outbox.log = s.outbox.log) {i : ι}
    (hothers : ∀ j ≠ i, outbox.workers j = s.outbox.workers j) {progress : FaultyProgress}
    (hprogress : progress = .running ∨ progress = .threw)
    (hfresh : progress = .running → (outbox.workers i).pending ⊆ s.fresh i) :
    (⟨outbox, Function.update s.progress i progress, s.resolved⟩ : FaultyOutbox ι P).Inv := by
  refine hs.mono hworkers [] ?_ (List.subset_append_left _ _) ?_ ?_ ?_
  · change settledTokens (history outbox.log) ⊆ _
    rw [hlog]
    exact List.subset_append_left _ _
  · intro j claim hclaim
    refine ⟨?_, List.not_mem_nil⟩
    by_cases hj : j = i
    · subst hj
      rcases hprogress with rfl | rfl
      · apply hfresh rfl
        simpa [FaultyOutbox.fresh, Function.update_self] using hclaim
      · simp [FaultyOutbox.fresh, Function.update_self] at hclaim
    · simp only [FaultyOutbox.fresh, Function.update_of_ne hj, hothers j hj] at hclaim
      exact hclaim
  · intro claim hclaim
    change claim ∈ StreamPay.claims (history outbox.log)
    rw [hlog]
    exact hs.resolved claim hclaim
  · intro j message hcaught
    exact caught_update hs hprogress hothers (List.Subset.refl _) j message hcaught

/-- What a turn outside of the catch clause behind a resolved handler does. -/
theorem Inv.act (hs : s.Inv) (hgood : s.ResolvedNotFailed) {i : ι}
    (hrunning : s.progress i = .running) {a : OutboxAction ι P} {outbox : OutboxSystem ι P}
    (hact : s.outbox.Act i a outbox) {progress : FaultyProgress}
    (hprogress : progress = .running ∨ progress = .threw) :
    (⟨outbox, Function.update s.progress i progress, s.resolved⟩ : FaultyOutbox ι P).Inv ∧
      (⟨outbox, Function.update s.progress i progress, s.resolved⟩ :
        FaultyOutbox ι P).ResolvedNotFailed := by
  have hfresh : s.fresh i = (s.outbox.workers i).pending := by
    simp [FaultyOutbox.fresh, hrunning]
  cases hact with
  | claims limit h =>
    refine ⟨hs.claims i limit hprogress, ?_⟩
    intro claim hclaim hfailed
    exact hgood claim hclaim (OutboxSystem.failed_of_quiet
      (OutboxSystem.quiet_claimDue s.outbox.store limit outboxLeaseMs s.outbox.now) hfailed)
  | starts systemNow claimedAt claim rest summary h =>
    have hsame : (OutboxWorker.handling claimedAt s.outbox.now claim rest summary).pending =
        (s.outbox.workers i).pending := by
      rw [h]
      rfl
    have hsub : (OutboxWorker.handling claimedAt s.outbox.now claim rest summary).pending.Sublist
        (s.outbox.workers i).pending := by
      rw [hsame]
    have hset := hs.workers.setWorker hsub
    have hworkers : { s.outbox.setWorker i (.handling claimedAt s.outbox.now claim rest summary)
        with started := s.outbox.started ++ [claim] }.WorkersInvariant :=
      ⟨hset.lease, hset.issued, hset.nodup, hset.apart⟩
    refine ⟨hs.sameLog hworkers rfl ?_ hprogress ?_, hgood⟩
    · intro j hj
      exact (OutboxSystem.workers_setWorker i j _).trans (if_neg hj)
    · intro _
      rw [hfresh, ← hsame]
      change ((s.outbox.setWorker i _).workers i).pending ⊆ _
      rw [OutboxSystem.workers_setWorker, if_pos rfl]
      exact List.Subset.refl _
  | returns systemNow summary =>
    have hsub : (OutboxWorker.returned summary : OutboxWorker P).pending.Sublist
        (s.outbox.workers i).pending := List.nil_sublist _
    refine ⟨hs.sameLog (hs.workers.setWorker hsub) rfl ?_ hprogress ?_, hgood⟩
    · intro j hj
      exact (OutboxSystem.workers_setWorker i j _).trans (if_neg hj)
    · intro _
      rw [OutboxSystem.workers_setWorker, if_pos rfl]
      exact List.nil_subset _
  | settles c claim rest summary hpending hc =>
    have hrest : rest ⊆ s.fresh i := by
      rw [hfresh, hpending]
      exact List.subset_cons_self _ _
    refine ⟨hs.settle hpending hrest hc _ _ hprogress (Or.inl rfl), ?_⟩
    intro other hother hfailed
    have hmem : claim ∈ s.fresh i := by
      rw [hfresh, hpending]
      exact List.mem_cons_self
    have hne : other.leaseToken ≠ claim.leaseToken := by
      intro he
      exact (hs.fresh i claim hmem).2 (he ▸ List.mem_map_of_mem hother)
    exact hgood other hother (OutboxSystem.failed_of_call hc hfailed hne)

/-- A handler that resolves and whose success is written. -/
theorem Inv.resolve (hs : s.Inv) (hgood : s.ResolvedNotFailed) {i : ι}
    (hrunning : s.progress i = .running) {claim : OutboxClaim P} {rest : List (OutboxClaim P)}
    (hpending : (s.outbox.workers i).pending = claim :: rest) (claimedAt processedAt : ℤ)
    (summary : OutboxSummary) :
    (⟨(s.outbox.call (.markSucceeded claim.row.id claim.leaseToken processedAt)).setWorker i
        (.working claimedAt rest summary),
      s.progress, s.resolved ++ [claim]⟩ : FaultyOutbox ι P).Inv ∧
    (⟨(s.outbox.call (.markSucceeded claim.row.id claim.leaseToken processedAt)).setWorker i
        (.working claimedAt rest summary),
      s.progress, s.resolved ++ [claim]⟩ : FaultyOutbox ι P).ResolvedNotFailed := by
  have hfresh : s.fresh i = claim :: rest := by
    simp [FaultyOutbox.fresh, hrunning, hpending]
  have hrest : rest ⊆ s.fresh i := by
    rw [hfresh]
    exact List.subset_cons_self _ _
  have hmem : claim ∈ s.fresh i := by
    rw [hfresh]
    exact List.mem_cons_self
  have hsame : Function.update s.progress i .running = s.progress := by
    rw [← hrunning, Function.update_eq_self]
  constructor
  · rw [← hsame]
    exact hs.settle hpending hrest (.succeeded processedAt) claimedAt summary (Or.inl rfl)
      (Or.inr rfl)
  · intro other hother hfailed
    have hold := OutboxSystem.failed_of_markSucceeded hfailed
    rcases List.mem_append.mp hother with hresolved | hnew
    · exact hgood other hresolved hold
    · obtain rfl := List.mem_singleton.mp hnew
      exact hs.not_failed hmem hold

/-- The success call throws: its claim is settled or not, and is fresh no more. -/
theorem Inv.acknowledgeThrows (hs : s.Inv) (hgood : s.ResolvedNotFailed) {i : ι}
    (hrunning : s.progress i = .running) {claimedAt startedAt : ℤ} {claim : OutboxClaim P}
    {rest : List (OutboxClaim P)} {summary : OutboxSummary}
    (hhandling : s.outbox.workers i = .handling claimedAt startedAt claim rest summary)
    (message : Utf16) {outbox : OutboxSystem ι P} (hworkers : outbox.WorkersInvariant)
    (hsame : outbox.workers = s.outbox.workers)
    (hsettled : settledTokens (history outbox.log) ⊆
      settledTokens (history s.outbox.log) ++ [claim.leaseToken])
    (hclaims : StreamPay.claims (history s.outbox.log) ⊆ StreamPay.claims (history outbox.log))
    (hfailed : ∀ id token, .failed id token ∈ history outbox.log →
      .failed id token ∈ history s.outbox.log) :
    (⟨outbox, Function.update s.progress i (.caught message), s.resolved ++ [claim]⟩ :
        FaultyOutbox ι P).Inv ∧
      (⟨outbox, Function.update s.progress i (.caught message), s.resolved ++ [claim]⟩ :
        FaultyOutbox ι P).ResolvedNotFailed := by
  have hpending : (s.outbox.workers i).pending = claim :: rest := by
    rw [hhandling]
    rfl
  have hfresh : s.fresh i = claim :: rest := by
    simp [FaultyOutbox.fresh, hrunning, hpending]
  have hmem : claim ∈ s.fresh i := by
    rw [hfresh]
    exact List.mem_cons_self
  constructor
  · refine hs.mono hworkers [claim.leaseToken] hsettled ?_ ?_ ?_ ?_
    · rw [List.map_append]
      exact List.Subset.refl _
    · intro j other hother
      by_cases hj : j = i
      · subst hj
        have hrest : other ∈ rest := by
          simpa [FaultyOutbox.fresh, Function.update_self, hsame, hhandling,
            OutboxWorker.unstarted] using hother
        have hin : other ∈ s.fresh j := hfresh ▸ List.mem_cons_of_mem _ hrest
        exact ⟨hin, hs.token_ne hpending hin fun _ => hrest⟩
      · simp only [FaultyOutbox.fresh, Function.update_of_ne hj, hsame] at hother
        exact ⟨hother, hs.token_ne hpending hother fun h => absurd h hj⟩
    · intro other hother
      apply hclaims
      rcases List.mem_append.mp hother with hold | hnew
      · exact hs.resolved other hold
      · obtain rfl := List.mem_singleton.mp hnew
        exact hs.workers.issued i other (fresh_subset_pending s i hmem)
    · intro j message' hcaught
      change ∃ claim', (outbox.workers j).current = some claim' ∧ claim' ∈ s.resolved ++ [claim]
      rw [hsame]
      by_cases hj : j = i
      · subst hj
        refine ⟨claim, ?_, List.mem_append_right _ List.mem_cons_self⟩
        rw [hhandling]
        rfl
      · simp only [Function.update_of_ne hj] at hcaught
        obtain ⟨claim',hcurrent,hin⟩ := hs.caught j message' hcaught
        exact ⟨claim', hcurrent, List.mem_append_left _ hin⟩
  · intro other hother hmarked
    have hold := hfailed _ _ hmarked
    rcases List.mem_append.mp hother with hresolved | hnew
    · exact hgood other hresolved hold
    · obtain rfl := List.mem_singleton.mp hnew
      exact hs.not_failed hmem hold

/-- The catch clause behind a resolved handler marks the row failed exactly when the
lease is still held. -/
theorem Inv.catches (hs : s.Inv) (hgood : s.ResolvedNotFailed) {handlers : ι → String → Bool}
    {i : ι} {message : Utf16} (hcaught : s.progress i = .caught message) {systemNow : ℤ}
    {outbox : OutboxSystem ι P}
    (h : s.outbox.step handlers (.settle i (.rejected message) systemNow) = some outbox)
    {progress : FaultyProgress} (hprogress : progress = .running ∨ progress = .threw) :
    (⟨outbox, Function.update s.progress i progress, s.resolved⟩ : FaultyOutbox ι P).Inv ∧
      ((⟨outbox, Function.update s.progress i progress, s.resolved⟩ :
        FaultyOutbox ι P).ResolvedNotFailed ↔ ¬ s.HoldsLease i) := by
  obtain ⟨claimedAt,startedAt,claim,rest,summary,retryAt,dead,summary',hhandling,hc,rfl⟩ :=
    OutboxSystem.step_rejected h
  have hpending : (s.outbox.workers i).pending = claim :: rest := by
    rw [hhandling]
    rfl
  have hcurrent : (s.outbox.workers i).current = some claim := by
    rw [hhandling]
    rfl
  have hrest : rest ⊆ s.fresh i := by
    simp [FaultyOutbox.fresh, hcaught, hhandling, OutboxWorker.unstarted]
  have hresolved : claim ∈ s.resolved := by
    obtain ⟨claim',hcurrent',hin⟩ := hs.caught i message hcaught
    rw [hcurrent] at hcurrent'
    obtain rfl := Option.some.inj hcurrent'
    exact hin
  refine ⟨hs.settle hpending hrest hc claimedAt summary' hprogress (Or.inl rfl), ?_⟩
  constructor
  · rintro hspared ⟨claim',hclaim',hheld⟩
    rw [hcurrent] at hclaim'
    obtain rfl := Option.some.inj hclaim'
    apply hspared claim hresolved
    exact (OutboxSystem.failed_markFailed_iff _ _ _ _).mpr (Or.inr ⟨⟨rfl, rfl⟩, hheld⟩)
  · intro hlost other hother hfailed
    rcases (OutboxSystem.failed_markFailed_iff _ _ _ _).mp hfailed with hold | ⟨_,hheld⟩
    · exact hgood other hother hold
    · exact hlost ⟨claim, hcurrent, hheld⟩

omit [DecidableEq ι] in
theorem mayThrow_cases {handlers : ι → String → Bool} {i : ι} {a : OutboxAction ι P}
    (h : s.mayThrow handlers i a = true) (hi : a.worker = some i) :
    s.progress i = .running ∨ ∃ message systemNow,
      s.progress i = .caught message ∧ a = .settle i (.rejected message) systemNow := by
  cases hprogress : s.progress i with
  | running => exact Or.inl rfl
  | threw => simp [mayThrow, hprogress] at h
  | caught message =>
    cases a with
    | settle j outcome systemNow =>
      obtain rfl := Option.some.inj hi
      cases outcome with
      | resolved => simp [mayThrow, hprogress] at h
      | rejected message' =>
        obtain rfl : message' = message := by simpa [mayThrow, hprogress] using h
        exact Or.inr ⟨message', systemNow, rfl, rfl⟩
    | tick now => cases hi
    | enqueue effect systemNow => cases hi
    | claim j limit => simp [mayThrow, hprogress] at h
    | next j systemNow => simp [mayThrow, hprogress] at h

/-- A turn in which no call of the store throws spares the claims resolved. -/
theorem Inv.turn (hs : s.Inv) (hgood : s.ResolvedNotFailed) {handlers : ι → String → Bool}
    {a : OutboxAction ι P} (hrunning : a.worker.all fun i => (s.progress i).isRunning)
    {outbox : OutboxSystem ι P} (h : s.outbox.step handlers a = some outbox) :
    (⟨outbox, s.progress, s.resolved ++ s.resolvedBy a⟩ : FaultyOutbox ι P).Inv ∧
      (⟨outbox, s.progress, s.resolved ++ s.resolvedBy a⟩ :
        FaultyOutbox ι P).ResolvedNotFailed := by
  have hkept {t : OutboxSystem ι P} (hworkers : t.WorkersInvariant)
      (hsame : t.workers = s.outbox.workers)
      (hsettled : settledTokens (history t.log) = settledTokens (history s.outbox.log))
      (hclaims : StreamPay.claims (history t.log) = StreamPay.claims (history s.outbox.log)) :
      (⟨t, s.progress, s.resolved⟩ : FaultyOutbox ι P).Inv := by
    refine ⟨hworkers, ?_, ?_, ?_⟩
    · intro j claim hclaim
      simp only [FaultyOutbox.fresh, hsame] at hclaim
      change claim.leaseToken ∉ settledTokens (history t.log) ∧ _
      rw [hsettled]
      exact hs.fresh j claim hclaim
    · intro claim hclaim
      change claim ∈ StreamPay.claims (history t.log)
      rw [hclaims]
      exact hs.resolved claim hclaim
    · intro j message hcaught
      change ∃ claim, (t.workers j).current = some claim ∧ _
      rw [hsame]
      exact hs.caught j message hcaught
  cases hworker : a.worker with
  | none =>
    cases a with
    | tick now =>
      obtain rfl := Option.some.inj h
      simp only [resolvedBy, List.append_nil]
      have hw := hs.workers
      exact ⟨hkept ⟨hw.lease, hw.issued, hw.nodup, hw.apart⟩ rfl rfl rfl, hgood⟩
    | enqueue effect systemNow =>
      obtain rfl := Option.some.inj h
      simp only [resolvedBy, List.append_nil]
      have hquiet := OutboxSystem.quiet_enqueue s.outbox.store effect s.outbox.now systemNow
      refine ⟨hkept (hs.workers.call _) rfl (OutboxSystem.settledTokens_call_of_quiet hquiet) ?_,
        ?_⟩
      · rw [OutboxSystem.claims_call]
        exact List.append_nil _
      · intro claim hclaim hfailed
        exact hgood claim hclaim (OutboxSystem.failed_of_quiet hquiet hfailed)
    | claim i limit => cases hworker
    | next i systemNow => cases hworker
    | settle i outcome systemNow => cases hworker
  | some i =>
    rw [hworker] at hrunning
    have hi : s.progress i = .running := by
      cases hprogress : s.progress i with
      | running => rfl
      | caught message => simp [hprogress, FaultyProgress.isRunning] at hrunning
      | threw => simp [hprogress, FaultyProgress.isRunning] at hrunning
    have hsame : Function.update s.progress i .running = s.progress := by
      rw [← hi, Function.update_eq_self]
    by_cases hresolves : ∃ systemNow, a = .settle i .resolved systemNow
    · obtain ⟨systemNow,rfl⟩ := hresolves
      obtain ⟨claimedAt,startedAt,claim,rest,summary,summary',hhandling,rfl⟩ :=
        OutboxSystem.step_resolved h
      have hpending : (s.outbox.workers i).pending = claim :: rest := by
        rw [hhandling]
        rfl
      have hclaim : s.resolvedBy (.settle i .resolved systemNow) = [claim] := by
        simp [resolvedBy, hhandling, OutboxWorker.current]
      rw [hclaim]
      exact hs.resolve hgood hi hpending claimedAt s.outbox.now summary'
    · have hnone : s.resolvedBy a = [] := by
        cases a with
        | settle j outcome systemNow =>
          cases outcome with
          | resolved => exact absurd ⟨systemNow, by rw [Option.some.inj hworker]⟩ hresolves
          | rejected message => rfl
        | tick now => rfl
        | enqueue effect systemNow => rfl
        | claim j limit => rfl
        | next j systemNow => rfl
      rw [hnone, List.append_nil, ← hsame]
      exact hs.act hgood hi (OutboxSystem.act_of_step h hworker) (Or.inl rfl)

/-- A call that throws ends its worker; one that throws early has no effect either. -/
theorem Inv.throwsEarly (hs : s.Inv) (i : ι) :
    (⟨s.outbox, Function.update s.progress i .threw, s.resolved⟩ : FaultyOutbox ι P).Inv :=
  hs.sameLog hs.workers rfl (fun _ _ => rfl) (Or.inr rfl) fun h => by cases h

/-- One step keeps the law exactly when its catch clause spares the resolved claim. -/
theorem Inv.step (hs : s.Inv) (hgood : s.ResolvedNotFailed) {handlers : ι → String → Bool}
    {a : FaultyAction ι P} (h : step handlers s a = some t) :
    t.Inv ∧ (t.ResolvedNotFailed ↔ s.SparesResolved a) := by
  cases a with
  | turn a =>
    simp only [FaultyOutbox.step] at h
    obtain ⟨hrunning,hmoved⟩ := Option.ite_none_right_eq_some.mp h
    obtain ⟨outbox,houtbox,rfl⟩ := Option.map_eq_some_iff.mp hmoved
    obtain ⟨hinv,hkept⟩ := hs.turn hgood hrunning houtbox
    exact ⟨hinv, iff_of_true hkept trivial⟩
  | acknowledgeThrows i message late =>
    simp only [FaultyOutbox.step] at h
    split at h
    · rename_i claimedAt startedAt claim rest summary hrunning hhandling
      cases late with
      | false =>
        obtain rfl := Option.some.inj h
        obtain ⟨hinv,hkept⟩ := hs.acknowledgeThrows hgood hrunning hhandling message hs.workers rfl
          (List.subset_append_left _ _) (List.Subset.refl _) fun _ _ hfailed => hfailed
        exact ⟨hinv, iff_of_true hkept trivial⟩
      | true =>
        obtain rfl := Option.some.inj h
        have hc : OutboxSystem.Settles claim
            (.markSucceeded claim.row.id claim.leaseToken s.outbox.now) := .succeeded _
        have hclaims : StreamPay.claims (history s.outbox.log) ⊆ StreamPay.claims (history
            (s.outbox.call (.markSucceeded claim.row.id claim.leaseToken s.outbox.now)).log) := by
          rw [OutboxSystem.claims_call]
          exact List.subset_append_left _ _
        obtain ⟨hinv,hkept⟩ := hs.acknowledgeThrows hgood hrunning hhandling message
          (hs.workers.call _) rfl (OutboxSystem.settledTokens_call hc) hclaims
          fun _ _ hfailed => OutboxSystem.failed_of_markSucceeded hfailed
        exact ⟨hinv, iff_of_true hkept trivial⟩
    · cases h
  | catches i systemNow =>
    simp only [FaultyOutbox.step] at h
    split at h
    · rename_i message hcaught
      obtain ⟨outbox,houtbox,rfl⟩ := Option.map_eq_some_iff.mp h
      exact hs.catches hgood hcaught houtbox (Or.inl rfl)
    · cases h
  | throws i a late =>
    simp only [FaultyOutbox.step] at h
    obtain ⟨hmay,hmoved⟩ := Option.ite_none_right_eq_some.mp h
    rw [Bool.and_eq_true, decide_eq_true_eq] at hmay
    obtain ⟨outbox,houtbox,rfl⟩ := Option.map_eq_some_iff.mp hmoved
    cases late with
    | false => exact ⟨hs.throwsEarly i, iff_of_true hgood trivial⟩
    | true =>
      rcases mayThrow_cases hmay.2 hmay.1 with hrunning | ⟨message,systemNow,hcaught,rfl⟩
      · obtain ⟨hinv,hkept⟩ := hs.act hgood hrunning (OutboxSystem.act_of_step houtbox hmay.1)
          (Or.inr (Eq.refl FaultyProgress.threw))
        refine ⟨hinv, iff_of_true hkept ?_⟩
        rintro ⟨message,hcaught⟩
        rw [hrunning] at hcaught
        cases hcaught
      · obtain ⟨hinv,hiff⟩ := hs.catches hgood hcaught houtbox
          (Or.inr (Eq.refl FaultyProgress.threw))
        refine ⟨hinv, hiff.trans ?_⟩
        constructor
        · intro hlost _
          exact hlost
        · intro hspared
          exact hspared ⟨message, hcaught⟩

/-- A step calls the store at most once, whether or not the call throws. -/
theorem call_of_step {handlers : ι → String → Bool} {a : FaultyAction ι P}
    (h : step handlers s a = some t) : t.outbox.store = s.outbox.store ∨
      ∃ c, t.outbox.store = (perform s.outbox.store c).2 ∧
        t.outbox.log = (s.outbox.call c).log := by
  cases a with
  | turn a =>
    simp only [step] at h
    obtain ⟨_,hmoved⟩ := Option.ite_none_right_eq_some.mp h
    obtain ⟨outbox,houtbox,rfl⟩ := Option.map_eq_some_iff.mp hmoved
    exact OutboxSystem.call_of_step houtbox
  | acknowledgeThrows i message late =>
    simp only [step] at h
    split at h
    · obtain rfl := Option.some.inj h
      cases late with
      | false => exact Or.inl rfl
      | true => exact Or.inr ⟨_, rfl, rfl⟩
    · cases h
  | catches i systemNow =>
    simp only [step] at h
    split at h
    · obtain ⟨outbox,houtbox,rfl⟩ := Option.map_eq_some_iff.mp h
      exact OutboxSystem.call_of_step houtbox
    · cases h
  | throws i a late =>
    simp only [step] at h
    obtain ⟨_,hmoved⟩ := Option.ite_none_right_eq_some.mp h
    obtain ⟨outbox,houtbox,rfl⟩ := Option.map_eq_some_iff.mp hmoved
    cases late with
    | false => exact Or.inl rfl
    | true => exact OutboxSystem.call_of_step houtbox

/-- The step gives no row another error, and makes none dead, while a claim whose handler
has resolved holds its lease. -/
def KeepsResolved (s t : FaultyOutbox ι P) : Prop :=
  ∀ claim ∈ t.resolved, ∀ row row', s.outbox.store.rows.get claim.row.id = some row →
    row.leaseToken = some claim.leaseToken →
    t.outbox.store.rows.get claim.row.id = some row' →
    row'.lastError = row.lastError ∧ (row'.status = .dead → row.status = .dead)

theorem Inv.keepsResolved (hs : s.Inv) (hgood : t.ResolvedNotFailed)
    {handlers : ι → String → Bool} {a : FaultyAction ι P}
    (h : FaultyOutbox.step handlers s a = some t) : s.KeepsResolved t := by
  intro claim hclaim row row' hrow htoken hrow'
  rcases call_of_step h with hstore | ⟨c,hstore,hlog⟩
  · rw [hstore] at hrow'
    obtain rfl := Option.some.inj (hrow.symm.trans hrow')
    exact ⟨rfl, fun hdead => hdead⟩
  · rw [hstore] at hrow'
    by_contra hchanged
    have hdiffers : row'.lastError ≠ row.lastError ∨
        (row'.status = .dead ∧ row.status ≠ .dead) := by
      rw [not_and_or] at hchanged
      exact hchanged.imp_right Classical.not_imp.mp
    obtain ⟨token,hlease,hfailed⟩ :=
      OutboxSystem.failed_of_row_changed hs.workers.lease hrow hrow' hdiffers
    -- the row changes by a mark under the lease it had, which was the resolved claim's
    obtain rfl := Option.some.inj (htoken.symm.trans hlease)
    apply hgood claim hclaim
    rw [hlog, OutboxSystem.history_call]
    exact List.mem_append_right _ hfailed

/-- In every run of calls of `processDue` whose store may throw, no row is marked failed
for a claim whose handler has resolved exactly as long as each catch clause behind such
a handler finds the lease gone, or its own call throws without effect. -/
theorem resolvedNotFailed_along_iff (handlers : ι → String → Bool) (now : ℤ)
    (as : List (FaultyAction ι P)) :
    Along (FaultyOutbox.step handlers) (fun _ _ t => t.ResolvedNotFailed) (start now) as ↔
      Along (FaultyOutbox.step handlers) (fun s a _ => s.SparesResolved a) (start now) as := by
  have hstart : (start now : FaultyOutbox ι P).Inv ∧
      (start now : FaultyOutbox ι P).ResolvedNotFailed :=
    ⟨inv_start now, resolvedNotFailed_start now⟩
  apply along_congr_of_invariant (fun s : FaultyOutbox ι P => s.Inv ∧ s.ResolvedNotFailed)
    ?_ ?_ hstart
  · intro s a t hs h
    exact (hs.1.step hs.2 h).2
  · intro s a t hs h hgood
    exact ⟨(hs.1.step hs.2 h).1, hgood⟩

/-- As long as the catch clauses spare the claims whose handlers have resolved, no step
gives the row that such a claim leases another error or makes it dead. -/
theorem keepsResolved_along {handlers : ι → String → Bool} {now : ℤ}
    {as : List (FaultyAction ι P)} (h : Along (FaultyOutbox.step handlers)
      (fun s a _ => s.SparesResolved a) (start now) as) :
    Along (FaultyOutbox.step handlers) (fun s _ t => s.KeepsResolved t) (start now) as := by
  have hstart : (start now : FaultyOutbox ι P).Inv ∧
      (start now : FaultyOutbox ι P).ResolvedNotFailed :=
    ⟨inv_start now, resolvedNotFailed_start now⟩
  refine Along.imp_of_invariant (fun s : FaultyOutbox ι P => s.Inv ∧ s.ResolvedNotFailed)
    ?_ hstart h
  intro s a t hs hstep hspared
  obtain ⟨hinv,hiff⟩ := hs.1.step hs.2 hstep
  have hgood := hiff.mpr hspared
  exact ⟨⟨hinv, hgood⟩, hs.1.keepsResolved hgood hstep⟩

section SampleFaults

/-- The last attempt of a payout: the handler resolves, and the call that would mark
its success throws. -/
def unacknowledgedPayout (worker : ι) : List (FaultyAction ι Unit) :=
  (OutboxSystem.onlyAttempt worker).map .turn ++
    [.acknowledgeThrows worker "connection terminated".utf16 false, .catches worker 0]

/-- The claims resolved, the events of the run and the row in the end. -/
def seen (s : FaultyOutbox (Fin 2) Unit) :
    (List (String × String) × List (String × String)) ×
      Option (SettlementOutboxStatus × Option Utf16) :=
  ((s.resolved.map fun claim => (claim.row.id, claim.leaseToken),
    (history s.outbox.log).filterMap fun
      | .failed id token => some (id, token)
      | _ => none),
    (s.outbox.store.rows.get "memory-outbox-1").map fun row => (row.status, row.lastError))

theorem resolved_payout_dead : ∃ (s : FaultyOutbox (Fin 2) Unit) (claim : OutboxClaim Unit)
      (row : SettlementOutbox Unit),
    exec (FaultyOutbox.step OutboxSystem.anyHandler) (start 0) (unacknowledgedPayout 0) = some s ∧
    claim ∈ s.resolved ∧ .failed claim.row.id claim.leaseToken ∈ history s.outbox.log ∧
    s.outbox.store.rows.get claim.row.id = some row ∧ row.status = .dead ∧
    row.lastError = some "connection terminated".utf16 := by
  have hrun : (exec (FaultyOutbox.step OutboxSystem.anyHandler) (start 0)
      (unacknowledgedPayout 0)).map seen =
        some (([("memory-outbox-1", "lease-memory-outbox-1-2")],
          [("memory-outbox-1", "lease-memory-outbox-1-2")]),
          some (.dead, some "connection terminated".utf16)) := by
    decide +kernel
  obtain ⟨s,hs,hseen⟩ := Option.map_eq_some_iff.mp hrun
  obtain ⟨hclaims,hrow⟩ := Prod.mk.inj hseen
  obtain ⟨hresolved,hfailed⟩ := Prod.mk.inj hclaims
  obtain ⟨claim,hclaim,hpair⟩ := List.mem_map.mp (hresolved ▸ List.mem_cons_self)
  obtain ⟨hid,htoken⟩ := Prod.mk.inj hpair
  obtain ⟨row,hget,hstate⟩ := Option.map_eq_some_iff.mp hrow
  obtain ⟨hstatus,herror⟩ := Prod.mk.inj hstate
  refine ⟨s, claim, row, hs, hclaim, ?_, hid ▸ hget, hstatus, herror⟩
  obtain ⟨event,hevent,hmark⟩ := List.mem_filterMap.mp (hfailed ▸ List.mem_cons_self)
  cases event with
  | failed id token =>
    obtain ⟨rfl,rfl⟩ := Prod.mk.inj (Option.some.inj hmark)
    rw [hid, htoken]
    exact hevent
  | claimed claim' => cases hmark
  | succeeded id token => cases hmark

end SampleFaults

end FaultyOutbox
end StreamPay
