import Mathlib.Logic.Function.Basic
import StreamPay.SettlementOutboxRepository
import StreamPay.SettlementOutboxWorkers

/-! Calls of `processDue` that share the PostgreSQL outbox. The statement that claims
locks its rows one after the other, skips those that another one has locked, and looks
at each of them again; it writes and lets go of all of them when it commits. -/
namespace StreamPay
open Interleaving SettlementOutboxRepository

structure ClaimQuery where
  limit : ℤ
  leaseMs : ℤ
  now : ℤ
  token : String
  deriving DecidableEq, Repr

/-- `LIMIT ${boundedLimit}`. -/
def ClaimQuery.boundedLimit (query : ClaimQuery) : ℕ := (max 1 (min query.limit 500)).toNat

/-- How far a call of `processDue` has come. While it claims it has rows of its
snapshot left to visit, and rows that it has locked. -/
inductive DatabaseWorker (P : Type*)
  | called
  | claiming (query : ClaimQuery) (left : List String) (locked : List String)
  | working (claims : List (OutboxClaim P)) (summary : OutboxSummary)
  | handling (claim : OutboxClaim P) (rest : List (OutboxClaim P)) (summary : OutboxSummary)
  | acknowledging (claim : OutboxClaim P) (rest : List (OutboxClaim P)) (summary : OutboxSummary)
      (processedAt : ℤ)
  | failing (claim : OutboxClaim P) (rest : List (OutboxClaim P)) (summary : OutboxSummary)
      (error : Utf16) (retryAt : ℤ) (isDead : Bool)
  | returned (summary : OutboxSummary)
  | threw

structure OutboxDatabase (ι P : Type*) where
  now : ℤ
  /-- The committed rows. -/
  table : SettlementOutboxTable P
  /-- The holder of the lock of each row. -/
  locks : String → Option ι
  workers : ι → DatabaseWorker P

/-- A call that throws `late` has taken effect before. -/
inductive MarkOutcome
  | returns
  | throws (message : Utf16) (late : Bool)
  deriving DecidableEq, Repr

def MarkOutcome.takesEffect : MarkOutcome → Bool
  | .returns => true
  | .throws _ late => late

/-- The turns of worker `i`; `systemNow` is what a statement reads of the clock itself. -/
inductive DatabaseAction (ι P : Type*)
  | tick (elapsed : ℕ)
  | enqueue (effect : SettlementSideEffect P) (generated : Uuid) (systemNow : ℤ)
  | claim (i : ι) (limit : ℤ) (token : String)
  | visit (i : ι)
  | commit (i : ι)
  | next (i : ι)
  | settle (i : ι) (outcome : HandlerOutcome)
  | acknowledge (i : ι) (outcome : MarkOutcome)
  | fail (i : ι) (outcome : MarkOutcome) (systemNow : ℤ)
  | crash (i : ι)

/-- The summary after a call of `markSucceeded` that has returned `marked`. -/
def OutboxSummary.acknowledged (summary : OutboxSummary) (marked : Bool) : OutboxSummary :=
  if marked then { summary with succeeded := summary.succeeded+1 }
  else { summary with skipped := summary.skipped+1 }

/-- The summary after a call of `markFailed` that has returned `marked`. -/
def OutboxSummary.failed (summary : OutboxSummary) (isDead marked : Bool) : OutboxSummary :=
  if marked then
    if isDead then { summary with dead := summary.dead+1 }
    else { summary with retried := summary.retried+1 }
  else { summary with skipped := summary.skipped+1 }

def SettlementOutboxTable.rowById {P : Type*} (table : SettlementOutboxTable P) (id : String) :
    Option (SettlementOutbox P) :=
  table.rows.find? fun row => row.id = id

/-- The ids of the due rows in the order of the query. -/
def SettlementOutboxRepository.dueIds {P : Type*} (table : SettlementOutboxTable P) (now : ℤ) :
    List String :=
  ((table.rows.filter fun row => row.isDue now).insertionSort fun a b =>
    createdBefore a b).map SettlementOutbox.id

/-- What the statement writes and returns for the rows that it has locked. -/
def SettlementOutboxRepository.claimRows {P : Type*} (driver : OutboxDriver P)
    (table : SettlementOutboxTable P) (ids : List String) (query : ClaimQuery) :
    List (OutboxClaim P) × SettlementOutboxTable P :=
  let update := (lease query.leaseMs query.now query.token).onlyIf fun row => row.id ∈ ids
  let returned := (table.rows.filter fun row => row.id ∈ ids).map update.apply
  (returned.map fun row => ⟨asOutboxRow driver.readDate row, query.token⟩, table.update update)

namespace OutboxDatabase
variable {ι P : Type*} [DecidableEq ι]

def start (now : ℤ) : OutboxDatabase ι P := ⟨now, .empty, fun _ => none, fun _ => .called⟩

def setWorker (s : OutboxDatabase ι P) (i : ι) (worker : DatabaseWorker P) : OutboxDatabase ι P :=
  { s with workers := Function.update s.workers i worker }

/-- The end of a statement or of a connection: the locks of the worker are gone. -/
def unlock (s : OutboxDatabase ι P) (i : ι) : OutboxDatabase ι P :=
  { s with locks := fun id => if s.locks id = some i then none else s.locks id }

/-- A row can be locked if no one has locked it and it still meets the query. -/
def canLock (s : OutboxDatabase ι P) (query : ClaimQuery) (id : String) : Bool :=
  (s.locks id).isNone && (s.table.rowById id).any fun row => row.isDue query.now

/-- The handler of a claim has failed, or its acknowledgement has thrown. -/
def rejectedClaim (s : OutboxDatabase ι P) (claim : OutboxClaim P) (rest : List (OutboxClaim P))
    (summary : OutboxSummary) (message : Utf16) : DatabaseWorker P :=
  .failing claim rest summary message (s.now+retryDelay claim.row.attempts)
    (decide (claim.row.attempts ≥ claim.row.maxAttempts))

/-- An update of one row waits for its lock, unless it throws without effect. -/
def waits (s : OutboxDatabase ι P) (id : String) (outcome : MarkOutcome) : Bool :=
  outcome.takesEffect && (s.locks id).isSome

/-- `handlers i` has the event types for which the service of worker `i` has a
handler. An update that waits for a lock is disabled, and one that the database refuses can
only throw. -/
def step (driver : OutboxDriver P) (handlers : ι → String → Bool) (s : OutboxDatabase ι P) :
    DatabaseAction ι P → Option (OutboxDatabase ι P)
  | .tick elapsed => some { s with now := s.now+elapsed }
  | .enqueue effect generated systemNow =>
    match SettlementOutboxService.newRow effect s.now with
    | .error _ => some s
    | .ok input => some { s with table := (enqueue driver s.table input generated systemNow).2 }
  | .claim i limit token =>
    match s.workers i with
    | .called =>
      some (s.setWorker i
        (.claiming ⟨limit, outboxLeaseMs, s.now, token⟩ (dueIds s.table s.now) []))
    | _ => none
  | .visit i =>
    match s.workers i with
    | .claiming query (id :: left) locked =>
      if locked.length < query.boundedLimit then
        if s.canLock query id then
          some { s.setWorker i (.claiming query left (locked ++ [id])) with
            locks := Function.update s.locks id (some i) }
        else some (s.setWorker i (.claiming query left locked))
      else none
    | _ => none
  | .commit i =>
    match s.workers i with
    | .claiming query left locked =>
      if left = [] ∨ query.boundedLimit ≤ locked.length then
        let (claims,table) := claimRows driver s.table locked query
        some { (s.unlock i).setWorker i (.working claims {}) with table := table }
      else none
    | _ => none
  | .next i =>
    match s.workers i with
    | .working [] summary => some (s.setWorker i (.returned summary))
    | .working (claim :: rest) summary =>
      if handlers i claim.row.eventType then some (s.setWorker i (.handling claim rest summary))
      else some (s.setWorker i
        (.failing claim rest summary (noHandler claim.row.eventType) s.now true))
    | _ => none
  | .settle i outcome =>
    match s.workers i with
    | .handling claim rest summary =>
      match outcome with
      | .resolved => some (s.setWorker i (.acknowledging claim rest summary s.now))
      | .rejected message => some (s.setWorker i (s.rejectedClaim claim rest summary message))
    | _ => none
  | .acknowledge i outcome =>
    match s.workers i with
    | .acknowledging claim rest summary processedAt =>
      if s.waits claim.row.id outcome then none
      else
        match outcome, markSucceeded s.table claim.row.id claim.leaseToken processedAt with
        | .returns, (.ok marked, table) =>
          some { s.setWorker i (.working rest (summary.acknowledged marked)) with table := table }
        -- the `catch` takes it for an error of the handler
        | .throws message true, (.ok _, table) =>
          some { s.setWorker i (s.rejectedClaim claim rest summary message) with table := table }
        | .throws message false, _ =>
          some (s.setWorker i (s.rejectedClaim claim rest summary message))
        | _, (.error _, _) => none
    | _ => none
  | .fail i outcome systemNow =>
    match s.workers i with
    | .failing claim rest summary error retryAt isDead =>
      if s.waits claim.row.id outcome then none
      else
        match outcome, markFailed s.table claim.row.id claim.leaseToken error retryAt isDead
          systemNow with
        | .returns, (.ok marked, table) =>
          some { s.setWorker i (.working rest (summary.failed isDead marked)) with table := table }
        | .throws _ true, (.ok _, table) => some { s.setWorker i .threw with table := table }
        | .throws _ false, _ => some (s.setWorker i .threw)
        | _, (.error _, _) => none
    | _ => none
  -- the worker stops, or its claim throws
  | .crash i =>
    match s.workers i with
    | .returned _ | .threw => none
    | _ => some ((s.unlock i).setWorker i .threw)

/-- What each turn finds, and the state that it leaves. -/
inductive Move (driver : OutboxDriver P) (handlers : ι → String → Bool) (s : OutboxDatabase ι P) :
    DatabaseAction ι P → OutboxDatabase ι P → Prop
  | tick (elapsed : ℕ) : Move driver handlers s (.tick elapsed) { s with now := s.now+elapsed }
  | decline (effect : SettlementSideEffect P) (generated : Uuid) (systemNow : ℤ) :
    Move driver handlers s (.enqueue effect generated systemNow) s
  | enqueue (effect : SettlementSideEffect P) (input : NewSettlementOutbox P) (generated : Uuid)
      (systemNow : ℤ) (hinput : SettlementOutboxService.newRow effect s.now = .ok input) :
    Move driver handlers s (.enqueue effect generated systemNow)
      { s with table := (enqueue driver s.table input generated systemNow).2 }
  | claim (i : ι) (limit : ℤ) (token : String) (hcalled : s.workers i = .called) :
    Move driver handlers s (.claim i limit token)
      (s.setWorker i (.claiming ⟨limit, outboxLeaseMs, s.now, token⟩ (dueIds s.table s.now) []))
  | lock (i : ι) (query : ClaimQuery) (id : String) (left locked : List String)
      (hclaiming : s.workers i = .claiming query (id :: left) locked)
      (hfree : s.canLock query id = true) :
    Move driver handlers s (.visit i) { s.setWorker i (.claiming query left (locked ++ [id])) with
      locks := Function.update s.locks id (some i) }
  | skip (i : ι) (query : ClaimQuery) (id : String) (left locked : List String)
      (hclaiming : s.workers i = .claiming query (id :: left) locked)
      (hfree : s.canLock query id = false) :
    Move driver handlers s (.visit i) (s.setWorker i (.claiming query left locked))
  | commit (i : ι) (query : ClaimQuery) (left locked : List String)
      (hclaiming : s.workers i = .claiming query left locked) :
    Move driver handlers s (.commit i)
      { (s.unlock i).setWorker i (.working (claimRows driver s.table locked query).1 {}) with
        table := (claimRows driver s.table locked query).2 }
  | finish (i : ι) (summary : OutboxSummary) (hworking : s.workers i = .working [] summary) :
    Move driver handlers s (.next i) (s.setWorker i (.returned summary))
  | handle (i : ι) (claim : OutboxClaim P) (rest : List (OutboxClaim P)) (summary : OutboxSummary)
      (hworking : s.workers i = .working (claim :: rest) summary)
      (hhandler : handlers i claim.row.eventType = true) :
    Move driver handlers s (.next i) (s.setWorker i (.handling claim rest summary))
  | giveUp (i : ι) (claim : OutboxClaim P) (rest : List (OutboxClaim P)) (summary : OutboxSummary)
      (hworking : s.workers i = .working (claim :: rest) summary)
      (hhandler : handlers i claim.row.eventType = false) :
    Move driver handlers s (.next i)
      (s.setWorker i (.failing claim rest summary (noHandler claim.row.eventType) s.now true))
  | resolve (i : ι) (claim : OutboxClaim P) (rest : List (OutboxClaim P)) (summary : OutboxSummary)
      (hhandling : s.workers i = .handling claim rest summary) :
    Move driver handlers s (.settle i .resolved)
      (s.setWorker i (.acknowledging claim rest summary s.now))
  | reject (i : ι) (claim : OutboxClaim P) (rest : List (OutboxClaim P)) (summary : OutboxSummary)
      (message : Utf16) (hhandling : s.workers i = .handling claim rest summary) :
    Move driver handlers s (.settle i (.rejected message))
      (s.setWorker i (s.rejectedClaim claim rest summary message))
  | acknowledge (i : ι) (outcome : MarkOutcome) (worker : DatabaseWorker P) (claim : OutboxClaim P)
      (rest : List (OutboxClaim P)) (summary : OutboxSummary) (processedAt : ℤ)
      (hworker : s.workers i = .acknowledging claim rest summary processedAt)
      (hfree : s.locks claim.row.id = none) (heffect : outcome.takesEffect = true)
      (hnext : worker = .working rest (summary.acknowledged
          (mark s.table claim.row.id claim.leaseToken (succeeding processedAt)).1) ∨
        ∃ message, worker = s.rejectedClaim claim rest summary message) :
    Move driver handlers s (.acknowledge i outcome) { s.setWorker i worker with
      table := (mark s.table claim.row.id claim.leaseToken (succeeding processedAt)).2 }
  | unacknowledged (i : ι) (message : Utf16) (claim : OutboxClaim P)
      (rest : List (OutboxClaim P)) (summary : OutboxSummary) (processedAt : ℤ)
      (hworker : s.workers i = .acknowledging claim rest summary processedAt) :
    Move driver handlers s (.acknowledge i (.throws message false))
      (s.setWorker i (s.rejectedClaim claim rest summary message))
  | fail (i : ι) (outcome : MarkOutcome) (systemNow : ℤ) (worker : DatabaseWorker P)
      (claim : OutboxClaim P) (rest : List (OutboxClaim P)) (summary : OutboxSummary)
      (error lastError : Utf16) (retryAt : ℤ) (isDead : Bool)
      (hworker : s.workers i = .failing claim rest summary error retryAt isDead)
      (hfree : s.locks claim.row.id = none) (heffect : outcome.takesEffect = true)
      (hnext : worker = .working rest (summary.failed isDead (mark s.table claim.row.id
          claim.leaseToken (failing lastError retryAt isDead systemNow)).1) ∨ worker = .threw) :
    Move driver handlers s (.fail i outcome systemNow) { s.setWorker i worker with
      table := (mark s.table claim.row.id claim.leaseToken
        (failing lastError retryAt isDead systemNow)).2 }
  | unfailed (i : ι) (message : Utf16) (systemNow : ℤ) (claim : OutboxClaim P)
      (rest : List (OutboxClaim P)) (summary : OutboxSummary) (error : Utf16) (retryAt : ℤ)
      (isDead : Bool) (hworker : s.workers i = .failing claim rest summary error retryAt isDead) :
    Move driver handlers s (.fail i (.throws message false) systemNow) (s.setWorker i .threw)
  | crash (i : ι) : Move driver handlers s (.crash i) ((s.unlock i).setWorker i .threw)

variable {driver : OutboxDriver P} {handlers : ι → String → Bool} {s t : OutboxDatabase ι P}

omit [DecidableEq ι] in
/-- An update that takes effect has not had to wait for a lock. -/
theorem locks_eq_none {id : String} {outcome : MarkOutcome} (hwaits : ¬ s.waits id outcome = true)
    (heffect : outcome.takesEffect = true) : s.locks id = none := by
  rw [waits, heffect, Bool.true_and] at hwaits
  exact Option.not_isSome_iff_eq_none.mp hwaits

/-- The update that marks a success takes effect, whether or not it throws then, or it does not. -/
theorem move_of_acknowledge {i : ι} {outcome : MarkOutcome}
    (ht : step driver handlers s (.acknowledge i outcome) = some t) :
    Move driver handlers s (.acknowledge i outcome) t := by
  simp only [step] at ht
  split at ht
  · rename_i claim rest summary processedAt hworker
    split_ifs at ht with hwaits
    split at ht
    · rename_i marked table hmark
      obtain rfl := Option.some.inj ht
      have hmarked := markIf_ok hmark
      have hmove : Move driver handlers s _ _ := .acknowledge i .returns _ claim rest summary
        processedAt hworker (locks_eq_none hwaits rfl) rfl (Or.inl rfl)
      rwa [hmarked] at hmove
    · rename_i message marked table hmark
      obtain rfl := Option.some.inj ht
      have hmarked := markIf_ok hmark
      have hmove : Move driver handlers s _ _ := .acknowledge i (.throws message true) _ claim
        rest summary processedAt hworker (locks_eq_none hwaits rfl) rfl
        (Or.inr ⟨message, rfl⟩)
      rwa [hmarked] at hmove
    · obtain rfl := Option.some.inj ht
      exact .unacknowledged i _ claim rest summary processedAt hworker
    · cases ht
  · cases ht

theorem move_of_fail {i : ι} {outcome : MarkOutcome} {systemNow : ℤ}
    (ht : step driver handlers s (.fail i outcome systemNow) = some t) :
    Move driver handlers s (.fail i outcome systemNow) t := by
  simp only [step] at ht
  split at ht
  · rename_i claim rest summary error retryAt isDead hworker
    split_ifs at ht with hwaits
    split at ht
    · rename_i marked table hmark
      obtain rfl := Option.some.inj ht
      obtain ⟨lastError,hmarked⟩ := markFailed_ok hmark
      have hmove : Move driver handlers s _ _ := .fail i .returns systemNow _ claim rest summary
        error lastError retryAt isDead hworker (locks_eq_none hwaits rfl) rfl (Or.inl rfl)
      rwa [hmarked] at hmove
    · rename_i message marked table hmark
      obtain rfl := Option.some.inj ht
      obtain ⟨lastError,hmarked⟩ := markFailed_ok hmark
      have hmove : Move driver handlers s _ _ := .fail i (.throws message true) systemNow _ claim
        rest summary error lastError retryAt isDead hworker (locks_eq_none hwaits rfl) rfl
        (Or.inr rfl)
      rwa [hmarked] at hmove
    · obtain rfl := Option.some.inj ht
      exact .unfailed i _ systemNow claim rest summary error retryAt isDead hworker
    · cases ht
  · cases ht

theorem move_of_step {a : DatabaseAction ι P} (ht : step driver handlers s a = some t) :
    Move driver handlers s a t := by
  cases a with
  | tick elapsed =>
    obtain rfl := Option.some.inj ht
    exact .tick elapsed
  | enqueue effect generated systemNow =>
    simp only [step] at ht
    split at ht
    · obtain rfl := Option.some.inj ht
      exact .decline effect generated systemNow
    · rename_i input hinput
      obtain rfl := Option.some.inj ht
      exact .enqueue effect input generated systemNow hinput
  | claim i limit token =>
    simp only [step] at ht
    split at ht
    · rename_i hcalled
      obtain rfl := Option.some.inj ht
      exact .claim i limit token hcalled
    · cases ht
  | visit i =>
    simp only [step] at ht
    split at ht
    · rename_i query id left locked hclaiming
      split_ifs at ht with hroom hfree
      · obtain rfl := Option.some.inj ht
        exact .lock i query id left locked hclaiming hfree
      · obtain rfl := Option.some.inj ht
        exact .skip i query id left locked hclaiming (Bool.not_eq_true _ ▸ hfree)
    · cases ht
  | commit i =>
    simp only [step] at ht
    split at ht
    · rename_i query left locked hclaiming
      split_ifs at ht
      obtain rfl := Option.some.inj ht
      exact .commit i query left locked hclaiming
    · cases ht
  | next i =>
    simp only [step] at ht
    split at ht
    · rename_i summary hworking
      obtain rfl := Option.some.inj ht
      exact .finish i summary hworking
    · rename_i claim rest summary hworking
      split_ifs at ht with hhandler
      · obtain rfl := Option.some.inj ht
        exact .handle i claim rest summary hworking hhandler
      · obtain rfl := Option.some.inj ht
        exact .giveUp i claim rest summary hworking (Bool.not_eq_true _ ▸ hhandler)
    · cases ht
  | settle i outcome =>
    simp only [step] at ht
    split at ht
    · rename_i claim rest summary hhandling
      cases outcome with
      | resolved =>
        obtain rfl := Option.some.inj ht
        exact .resolve i claim rest summary hhandling
      | rejected message =>
        obtain rfl := Option.some.inj ht
        exact .reject i claim rest summary message hhandling
    · cases ht
  | acknowledge i outcome => exact move_of_acknowledge ht
  | fail i outcome systemNow => exact move_of_fail ht
  | crash i =>
    simp only [step] at ht
    split at ht
    · cases ht
    · cases ht
    · obtain rfl := Option.some.inj ht
      exact .crash i

end OutboxDatabase

/-- What there is to tell of a turn. -/
inductive DatabaseEvent
  | claimed (ids : List String) (query : ClaimQuery)
  | ended (id token : String)
  deriving DecidableEq

namespace OutboxDatabase
variable {ι P : Type*} [DecidableEq ι]

/-- The lease under which a mark finds the row, if it does. -/
def endedBy (s : OutboxDatabase ι P) (claim : OutboxClaim P) (outcome : MarkOutcome) :
    Option DatabaseEvent :=
  if outcome.takesEffect && (s.table.rowById claim.row.id).any fun row =>
      row.leaseToken = some claim.leaseToken then
    some (.ended claim.row.id claim.leaseToken)
  else none

def eventOf (s : OutboxDatabase ι P) : DatabaseAction ι P → Option DatabaseEvent
  | .commit i =>
    match s.workers i with
    | .claiming query _ locked => some (.claimed locked query)
    | _ => none
  | .acknowledge i outcome =>
    match s.workers i with
    | .acknowledging claim _ _ _ => s.endedBy claim outcome
    | _ => none
  | .fail i outcome _ =>
    match s.workers i with
    | .failing claim _ _ _ _ _ => s.endedBy claim outcome
    | _ => none
  | _ => none

def tellingStep (driver : OutboxDriver P) (handlers : ι → String → Bool) :
    OutboxDatabase ι P × List DatabaseEvent → DatabaseAction ι P →
      Option (OutboxDatabase ι P × List DatabaseEvent) :=
  recording (step driver handlers) eventOf

end OutboxDatabase

end StreamPay
