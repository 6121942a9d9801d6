import Mathlib.Logic.Function.Basic
import StreamPay.SettlementOutboxRuns
import StreamPay.Library.Interleaving

/-! Calls of `processDue` that share one in-memory outbox and one clock. Each
call is a worker of its own; the workers take turns at their awaits. -/
namespace StreamPay
open Interleaving InMemorySettlementOutboxStore

structure OutboxSummary where
  succeeded : ℕ := 0
  retried : ℕ := 0
  dead : ℕ := 0
  skipped : ℕ := 0
  deriving DecidableEq, Repr

/-- How far a call of `processDue` has come. It remembers when it claimed its
batch and when the running handler was started. -/
inductive OutboxWorker (P : Type*)
  | called
  | working (claimedAt : ℤ) (claims : List (OutboxClaim P)) (summary : OutboxSummary)
  | handling (claimedAt startedAt : ℤ) (claim : OutboxClaim P) (rest : List (OutboxClaim P))
      (summary : OutboxSummary)
  | returned (summary : OutboxSummary)

namespace OutboxWorker
variable {P : Type*}

/-- The claims that the call has not settled. -/
def pending : OutboxWorker P → List (OutboxClaim P)
  | .working _ claims _ => claims
  | .handling _ _ claim rest _ => claim :: rest
  | _ => []

/-- The claims whose handler was not started. -/
def unstarted : OutboxWorker P → List (OutboxClaim P)
  | .working _ claims _ => claims
  | .handling _ _ _ rest _ => rest
  | _ => []

def claimedAt : OutboxWorker P → ℤ
  | .working claimedAt _ _ => claimedAt
  | .handling claimedAt _ _ _ _ => claimedAt
  | _ => 0

end OutboxWorker

structure OutboxSystem (ι P : Type*) where
  now : ℤ
  store : InMemorySettlementOutboxStore P
  workers : ι → OutboxWorker P
  /-- The calls of the store so far. -/
  log : OutboxLog P
  /-- The claims whose handler was started so far. -/
  started : List (OutboxClaim P)

inductive HandlerOutcome
  | resolved
  | rejected (message : Utf16)
  deriving DecidableEq, Repr

/-- The turns of worker `i`; `systemNow` is what the store reads for itself. -/
inductive OutboxAction (ι P : Type*)
  | tick (now : ℤ)
  | enqueue (effect : SettlementSideEffect P) (systemNow : ℤ)
  | claim (i : ι) (limit : ℤ)
  | next (i : ι) (systemNow : ℤ)
  | settle (i : ι) (outcome : HandlerOutcome) (systemNow : ℤ)

def noHandler (eventType : String) : Utf16 :=
  ("No handler registered for " ++ eventType).utf16

namespace OutboxSystem
variable {ι P : Type*} [DecidableEq ι]

def start (now : ℤ) : OutboxSystem ι P := ⟨now, empty, fun _ => .called, [], []⟩

def setWorker (s : OutboxSystem ι P) (i : ι) (worker : OutboxWorker P) : OutboxSystem ι P :=
  { s with workers := Function.update s.workers i worker }

def call (s : OutboxSystem ι P) (c : StoreCall P) : OutboxSystem ι P :=
  let (answer,store) := perform s.store c
  { s with store := store, log := s.log ++ [(c, answer)] }

/-- The handler that the next turn of worker `i` starts, with the time at which
its batch was claimed. -/
def startsHandler (handlers : ι → String → Bool) (s : OutboxSystem ι P) (i : ι) :
    Option (ℤ × OutboxClaim P) :=
  match s.workers i with
  | .working claimedAt (claim :: _) _ =>
    if handlers i claim.row.eventType then some (claimedAt, claim) else none
  | _ => none

/-- `handlers i` has the event types for which the service of worker `i` has a
handler. A turn runs from one await to the next. -/
def step (handlers : ι → String → Bool) (s : OutboxSystem ι P) :
    OutboxAction ι P → Option (OutboxSystem ι P)
  | .tick now => some { s with now := now }
  | .enqueue effect systemNow => some (s.call (.enqueue effect s.now systemNow))
  | .claim i limit =>
    match s.workers i with
    | .called =>
      let claims := (s.store.claimDue limit outboxLeaseMs s.now).1
      some ((s.call (.claimDue limit outboxLeaseMs s.now)).setWorker i
        (.working s.now claims {}))
    | _ => none
  | .next i systemNow =>
    match s.workers i with
    | .working _ [] summary => some (s.setWorker i (.returned summary))
    | .working claimedAt (claim :: rest) summary =>
      if handlers i claim.row.eventType then
        some { s.setWorker i (.handling claimedAt s.now claim rest summary) with
          started := s.started ++ [claim] }
      else
        let error := noHandler claim.row.eventType
        let dead :=
          (s.store.markFailed claim.row.id claim.leaseToken error s.now true systemNow).1
        let summary := if dead then { summary with dead := summary.dead+1 }
          else { summary with skipped := summary.skipped+1 }
        some ((s.call (.markFailed claim.row.id claim.leaseToken error s.now true
          systemNow)).setWorker i (.working claimedAt rest summary))
    | _ => none
  | .settle i .resolved _ =>
    match s.workers i with
    | .handling claimedAt _ claim rest summary =>
      let succeeded := (s.store.markSucceeded claim.row.id claim.leaseToken s.now).1
      let summary := if succeeded then { summary with succeeded := summary.succeeded+1 }
        else { summary with skipped := summary.skipped+1 }
      some ((s.call (.markSucceeded claim.row.id claim.leaseToken s.now)).setWorker i
        (.working claimedAt rest summary))
    | _ => none
  | .settle i (.rejected message) systemNow =>
    match s.workers i with
    | .handling claimedAt _ claim rest summary =>
      let isDead := decide (claim.row.attempts ≥ claim.row.maxAttempts)
      let retryAt := s.now+retryDelay claim.row.attempts
      let marked :=
        (s.store.markFailed claim.row.id claim.leaseToken message retryAt isDead systemNow).1
      let summary := if marked then
          if isDead then { summary with dead := summary.dead+1 }
          else { summary with retried := summary.retried+1 }
        else { summary with skipped := summary.skipped+1 }
      some ((s.call (.markFailed claim.row.id claim.leaseToken message retryAt isDead
        systemNow)).setWorker i (.working claimedAt rest summary))
    | _ => none

/-- The call settles the claim: it names its row and its token, and it gives up
retrying only if the claim was the last that the row allows. -/
inductive Settles (claim : OutboxClaim P) : StoreCall P → Prop
  | succeeded (processedAt : ℤ) :
      Settles claim (.markSucceeded claim.row.id claim.leaseToken processedAt)
  | failed (error : Utf16) (retryAt : ℤ) (dead : Bool) (now : ℤ) :
      (dead = false → claim.row.attempts < claim.row.maxAttempts) →
      Settles claim (.markFailed claim.row.id claim.leaseToken error retryAt dead now)

/-- What a turn can do. -/
inductive Turn (s : OutboxSystem ι P) : OutboxAction ι P → OutboxSystem ι P → Prop
  | tick (now : ℤ) : Turn s (.tick now) { s with now := now }
  | enqueue (effect : SettlementSideEffect P) (systemNow : ℤ) :
      Turn s (.enqueue effect systemNow) (s.call (.enqueue effect s.now systemNow))
  | claim (i : ι) (limit : ℤ) : s.workers i = .called →
      Turn s (.claim i limit) ((s.call (.claimDue limit outboxLeaseMs s.now)).setWorker i
        (.working s.now (s.store.claimDue limit outboxLeaseMs s.now).1 {}))
  | start (i : ι) (claimedAt systemNow : ℤ) (claim : OutboxClaim P) (rest : List (OutboxClaim P))
      (summary : OutboxSummary) : s.workers i = .working claimedAt (claim :: rest) summary →
      Turn s (.next i systemNow)
        { s.setWorker i (.handling claimedAt s.now claim rest summary) with
          started := s.started ++ [claim] }
  | settle {a : OutboxAction ι P} (i : ι) (claim : OutboxClaim P) (rest : List (OutboxClaim P))
      (c : StoreCall P) (summary : OutboxSummary) : (s.workers i).pending = claim :: rest →
      rest ⊆ (s.workers i).unstarted → Settles claim c →
      Turn s a ((s.call c).setWorker i (.working (s.workers i).claimedAt rest summary))
  | returned (i : ι) (systemNow : ℤ) (summary : OutboxSummary) :
      Turn s (.next i systemNow) (s.setWorker i (.returned summary))

/-- A worker that hears from its handler goes on with the claims behind it. -/
theorem Turn.settle_of_handling {s : OutboxSystem ι P} {a : OutboxAction ι P} {i : ι}
    {claimedAt startedAt : ℤ} {claim : OutboxClaim P} {rest : List (OutboxClaim P)}
    {summary : OutboxSummary}
    (hhandling : s.workers i = .handling claimedAt startedAt claim rest summary)
    {c : StoreCall P} (hc : Settles claim c) (summary' : OutboxSummary) :
    Turn s a ((s.call c).setWorker i (.working claimedAt rest summary')) := by
  have hpending : (s.workers i).pending = claim :: rest := by
    rw [hhandling]
    rfl
  have hrest : rest ⊆ (s.workers i).unstarted := by
    rw [hhandling]
    exact List.Subset.refl rest
  have hat : claimedAt = (s.workers i).claimedAt := by
    rw [hhandling]
    rfl
  rw [hat]
  exact .settle i claim rest c summary' hpending hrest hc

theorem turn_of_step {handlers : ι → String → Bool} {s t : OutboxSystem ι P}
    {a : OutboxAction ι P} (h : step handlers s a = some t) : Turn s a t := by
  cases a with
  | tick now =>
    obtain rfl := Option.some.inj h
    exact .tick now
  | enqueue effect systemNow =>
    obtain rfl := Option.some.inj h
    exact .enqueue effect systemNow
  | claim i limit =>
    simp only [step] at h
    split at h
    · obtain rfl := Option.some.inj h
      exact .claim i limit ‹_›
    · cases h
  | next i systemNow =>
    simp only [step] at h
    split at h
    · obtain rfl := Option.some.inj h
      exact .returned i systemNow _
    · rename_i claimedAt claim rest summary hworking
      by_cases hhandler : handlers i claim.row.eventType = true
      · rw [if_pos hhandler] at h
        obtain rfl := Option.some.inj h
        exact .start i claimedAt systemNow claim rest summary hworking
      · -- an event type without a handler is marked failed at once
        rw [if_neg hhandler] at h
        obtain rfl := Option.some.inj h
        have hat : claimedAt = (s.workers i).claimedAt := by rw [hworking]; rfl
        rw [hat]
        refine .settle i claim rest _ _ (by rw [hworking]; rfl) ?_ (.failed _ _ _ _ (by simp))
        rw [hworking]
        exact List.subset_cons_self claim rest
    · cases h
  | settle i outcome systemNow =>
    cases outcome with
    | resolved =>
      simp only [step] at h
      split at h
      · rename_i claimedAt startedAt claim rest summary hhandling
        obtain rfl := Option.some.inj h
        exact .settle_of_handling hhandling (.succeeded s.now) _
      · cases h
    | rejected message =>
      simp only [step] at h
      split at h
      · rename_i claimedAt startedAt claim rest summary hhandling
        obtain rfl := Option.some.inj h
        apply Turn.settle_of_handling hhandling
        apply Settles.failed
        -- a row that is tried again has attempts left
        intro hretry
        exact not_le.mp (of_decide_eq_false hretry)
      · cases h

end OutboxSystem

end StreamPay
