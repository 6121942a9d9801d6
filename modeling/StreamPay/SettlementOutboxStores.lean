import StreamPay.InMemorySettlementOutbox
import StreamPay.SettlementOutboxRepository

/-! The two settlement outbox stores behind one interface, driven by the same
calls. Rows are named by event key, leases by the claim that issued them. -/
namespace StreamPay

/-- The `SettlementOutboxStore` interface over the states `σ` of a store, which a call that
throws leaves as it is. The id and the token that a call draws at random are arguments. -/
structure SettlementOutboxStore (σ P : Type*) where
  enqueue : σ → NewSettlementOutbox P → Uuid → ℤ → σ
  claimDue : σ → ℤ → ℤ → ℤ → String → List (OutboxClaim P) × σ
  markSucceeded : σ → String → String → ℤ → σ
  markFailed : σ → String → String → Utf16 → ℤ → Bool → ℤ → σ
  snapshot : σ → List (SettlementOutbox P)

def SettlementOutboxRepository.store {P : Type*} (driver : OutboxDriver P) :
    SettlementOutboxStore (SettlementOutboxTable P) P where
  enqueue table input generated now := (enqueue driver table input generated now).2
  claimDue := claimDue driver.readDate
  markSucceeded table id leaseToken processedAt :=
    (markSucceeded table id leaseToken processedAt).2
  markFailed table id leaseToken error retryAt dead now :=
    (markFailed table id leaseToken error retryAt dead now).2
  snapshot := SettlementOutboxTable.rows

def InMemorySettlementOutboxStore.store (P : Type*) :
    SettlementOutboxStore (InMemorySettlementOutboxStore P) P where
  enqueue s input _ now := (s.enqueue input now).2
  claimDue s limit leaseMs now _ := s.claimDue limit leaseMs now
  markSucceeded s id leaseToken processedAt := (s.markSucceeded id leaseToken processedAt).2
  markFailed s id leaseToken error retryAt dead now :=
    (s.markFailed id leaseToken error retryAt dead now).2
  snapshot := snapshot

/-- A lease token: the one that a claim gave out for a row, or a given text. -/
inductive LeaseRef
  | issued (claim : ℕ) (eventKey : String)
  | given (token : String)
  deriving DecidableEq, Repr

/-- The token a store has for a lease, from the claims it has answered so far. -/
def LeaseRef.resolve {P : Type*} (history : List (List (OutboxClaim P))) :
    LeaseRef → Option String
  | .issued claim eventKey =>
    (history[claim]?.bind fun claims => claims.find? fun c => c.row.eventKey = eventKey).map
      OutboxClaim.leaseToken
  | .given token => some token

inductive OutboxCall (P : Type*)
  | enqueue (input : NewSettlementOutbox P) (generated : Uuid) (now : ℤ)
  | claimDue (limit leaseMs now : ℤ) (token : String)
  | markSucceeded (eventKey : String) (lease : LeaseRef) (processedAt : ℤ)
  | markFailed (eventKey : String) (lease : LeaseRef) (error : Utf16) (retryAt : ℤ) (dead : Bool)
      (now : ℤ)

/-- A store with the claims it has answered, oldest first. -/
abbrev OutboxRun (σ P : Type*) := σ × List (List (OutboxClaim P))

namespace SettlementOutboxStore
variable {σ P : Type*} (store : SettlementOutboxStore σ P)

/-- A call on the row of an event key; without a row or a token nothing matches. -/
def onLease (s : OutboxRun σ P) (eventKey : String) (lease : LeaseRef)
    (call : String → String → σ) : OutboxRun σ P :=
  match rowOf (store.snapshot s.1) eventKey, lease.resolve s.2 with
  | some row, some token => (call row.id token, s.2)
  | _, _ => s

def step (s : OutboxRun σ P) : OutboxCall P → List (OutboxClaim P) × OutboxRun σ P
  | .enqueue input generated now => ([], (store.enqueue s.1 input generated now, s.2))
  | .claimDue limit leaseMs now token =>
    let r := store.claimDue s.1 limit leaseMs now token
    (r.1, (r.2, s.2 ++ [r.1]))
  | .markSucceeded eventKey lease processedAt =>
    ([], store.onLease s eventKey lease fun id token =>
      store.markSucceeded s.1 id token processedAt)
  | .markFailed eventKey lease error retryAt dead now =>
    ([], store.onLease s eventKey lease fun id token =>
      store.markFailed s.1 id token error retryAt dead now)

end SettlementOutboxStore

section Comparison
variable {P : Type*}

def SettlementOutbox.visible (row : SettlementOutbox P) :
    SettlementOutboxStatus × ℤ × ℤ × Option Utf16 :=
  (row.status, row.attempts, row.availableAt, row.lastError)

def SameRows (rows rows' : List (SettlementOutbox P)) : Prop :=
  ∀ eventKey, (rowOf rows eventKey).map SettlementOutbox.visible =
    (rowOf rows' eventKey).map SettlementOutbox.visible

def SameClaims (claims claims' : List (OutboxClaim P)) : Prop :=
  ∀ eventKey attempts,
    (∃ c ∈ claims, c.row.eventKey = eventKey ∧ c.row.attempts = attempts) ↔
      ∃ c ∈ claims', c.row.eventKey = eventKey ∧ c.row.attempts = attempts

def SameOutboxOutcome (r : List (OutboxClaim P) × OutboxRun (SettlementOutboxTable P) P)
    (m : List (OutboxClaim P) × OutboxRun (InMemorySettlementOutboxStore P) P) : Prop :=
  SameClaims r.1 m.1 ∧ SameRows r.2.1.rows m.2.1.snapshot

/-- The table takes a mark by its token alone, if it can read the values. -/
def TableTakes (readable : Bool) (token : String) (row : SettlementOutbox P) : Prop :=
  (readable && isColumnText token) = true ∧ row.leaseToken = some token

/-- The in-memory store takes a mark while the row is being processed. -/
def MemoryTakes (token : String) (row : SettlementOutbox P) : Prop :=
  row.status = .processing ∧ row.leaseToken = some token

/-- A mark of the rows `r` and `q` that the stores have of an event key: where the in-memory
store takes it, so does the table, and stores it `asIs`; where the table alone does, it writes
what the row shows already. -/
def MarkFits (readable : Bool) (asIs : Prop) (token : String) (r q : SettlementOutbox P)
    (written : SettlementOutboxStatus × ℤ × ℤ × Option Utf16) : Prop :=
  (MemoryTakes token q → TableTakes readable token r ∧ asIs) ∧
  (TableTakes readable token r → ¬ MemoryTakes token q → written = r.visible)

/-- No row is due when one is claimed; a new event key comes with values that the table
stores as they are, as far as they are compared, and under free ids. -/
def NothingClaimed (driver : OutboxDriver P) (t : OutboxRun (SettlementOutboxTable P) P)
    (m : OutboxRun (InMemorySettlementOutboxStore P) P) : OutboxCall P → Prop
  | .enqueue input generated now => rowOf t.1.rows input.eventKey ≠ none ∨
      (∃ row, SettlementOutboxRepository.storedRow driver input generated now = some row ∧
        row.eventKey = input.eventKey ∧ row.lastError = input.lastError) ∧
      (input.id.getD generated).text ∉ t.1.rows.map SettlementOutbox.id ∧
      m.1.rows.get (m.1.newId input).1 = none
  | .claimDue _ _ now _ => ∀ row ∈ t.1.rows, row.isDue now = false
  | .markSucceeded eventKey lease processedAt => ∀ r q token,
      rowOf t.1.rows eventKey = some r → rowOf m.1.snapshot eventKey = some q →
      lease.resolve t.2 = some token →
      MarkFits (isReadableDate processedAt) True token r q
        (.succeeded, r.attempts, r.availableAt, r.lastError)
  | .markFailed eventKey lease error retryAt dead now => ∀ r q token,
      rowOf t.1.rows eventKey = some r → rowOf m.1.snapshot eventKey = some q →
      lease.resolve t.2 = some token →
      MarkFits ((textColumn (error.take 4000)).isSome && isReadableDate retryAt &&
          isReadableDate now) (textColumn (error.take 4000) = some (error.take 4000)) token r q
        (if dead then .dead else .pending, r.attempts, retryAt, textColumn (error.take 4000))

theorem LeaseRef.resolve_of_unclaimed {history history' : List (List (OutboxClaim P))}
    (h : ∀ claims ∈ history, claims = []) (h' : ∀ claims ∈ history', claims = [])
    (lease : LeaseRef) : lease.resolve history = lease.resolve history' := by
  have hnone (hist : List (List (OutboxClaim P))) (hh : ∀ claims ∈ hist, claims = [])
      (claim : ℕ) (eventKey : String) : (LeaseRef.issued claim eventKey).resolve hist = none := by
    cases hc : hist[claim]? with
    | none => simp [LeaseRef.resolve, hc]
    | some claims =>
      have hnil := hh claims (List.mem_of_getElem? hc)
      simp [LeaseRef.resolve, hc, hnil]
  cases lease with
  | issued claim eventKey => rw [hnone history h, hnone history' h']
  | given token => rfl

end Comparison

end StreamPay
