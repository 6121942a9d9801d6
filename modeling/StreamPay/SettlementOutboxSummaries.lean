import Mathlib.Data.Finset.Card
import StreamPay.SettlementOutboxHolders

/-! What a call of `processDue` has done when it returns, against the summary that it
returns. -/
namespace StreamPay
open Interleaving InMemorySettlementOutboxStore

/-- Where a call moves the row of a claim that was not taken over from it; without an
outcome the event type has no handler. -/
def targetStatus {P : Type*} (claim : OutboxClaim P) :
    Option HandlerOutcome → SettlementOutboxStatus
  | none => .dead
  | some .resolved => .succeeded
  | some (.rejected _) =>
    if claim.row.attempts ≥ claim.row.maxAttempts then .dead else .pending

/-- A turn of one worker, as it is seen from outside. -/
inductive WorkerTurn (P : Type*)
  | claimed (batch : List (OutboxClaim P))
  | started (claim : OutboxClaim P)
  | settled (claim : OutboxClaim P) (outcome : Option HandlerOutcome) (takenOver : Bool)
  | returned

/-- The rows whose status is another one in `t`, with that status. -/
def InMemorySettlementOutboxStore.moves {P : Type*} (s t : InMemorySettlementOutboxStore P) :
    List (String × SettlementOutboxStatus) :=
  (t.snapshot.filter fun row =>
    (s.rows.get row.id).map SettlementOutbox.status ≠ some row.status).map fun row =>
      (row.id, row.status)

/-- A turn with the rows that it moved. -/
abbrev RecordedTurn (P : Type*) := WorkerTurn P × List (String × SettlementOutboxStatus)

/-- The rows that some of the turns moved to the status. -/
def rowsMovedTo {P : Type*} (status : SettlementOutboxStatus) (turns : List (RecordedTurn P)) :
    Finset String :=
  (((turns.flatMap Prod.snd).filter fun move => move.2 = status).map Prod.fst).toFinset

/-- A claim whose handling is over. -/
structure Handled (P : Type*) where
  claim : OutboxClaim P
  outcome : Option HandlerOutcome
  takenOver : Bool

namespace Handled
variable {P : Type*}

def moves (r : Handled P) : List (String × SettlementOutboxStatus) :=
  if r.takenOver then [] else [(r.claim.row.id, targetStatus r.claim r.outcome)]

/-- The turns in which a claim is handled: its handler is started, if there is one,
and then its row is marked. -/
def turns (r : Handled P) : List (RecordedTurn P) :=
  (if r.outcome.isSome then [(.started r.claim, [])] else []) ++
    [(.settled r.claim r.outcome r.takenOver, r.moves)]

end Handled

namespace InMemorySettlementOutboxStore
variable {P : Type*} {s : InMemorySettlementOutboxStore P} {row row' : SettlementOutbox P}

theorem Indexed.moves_self (hs : s.Indexed) : s.moves s = [] := by
  rw [moves, List.map_eq_nil_iff, List.filter_eq_nil_iff]
  intro row hrow
  simp [hs.get_of_mem hrow]

/-- A new status of one row is the only move. -/
theorem Indexed.moves_set (hs : s.Indexed) (hrow : s.rows.get row.id = some row)
    (hid : row'.id = row.id) (hkey : row'.eventKey = row.eventKey)
    (hstatus : row'.status ≠ row.status) :
    s.moves { s with rows := s.rows.set row.id row' } = [(row.id, row'.status)] := by
  have ht := hs.set hrow hid hkey
  have hnodup : (InMemorySettlementOutboxStore.snapshot
      { s with rows := s.rows.set row.id row' }).Nodup := List.Nodup.of_map _ ht.ids_nodup
  have hone : (InMemorySettlementOutboxStore.snapshot
      { s with rows := s.rows.set row.id row' }).filter
        (fun r => (s.rows.get r.id).map SettlementOutbox.status ≠ some r.status) = [row'] := by
    apply List.perm_singleton.mp
    apply (List.perm_ext_iff_of_nodup (hnodup.filter _) (List.nodup_singleton row')).mpr
    intro r
    rw [List.mem_filter, List.mem_singleton, decide_eq_true_eq]
    constructor
    · rintro ⟨hr,hmoved⟩
      have hget := ht.get_of_mem hr
      change (s.rows.set row.id row').get r.id = some r at hget
      rw [InsertionMap.get_set] at hget
      split_ifs at hget with hsame
      · exact (Option.some.inj hget).symm
      · -- another row is as before, so it has not moved
        rw [hget] at hmoved
        exact absurd rfl hmoved
    · rintro rfl
      refine ⟨(mem_snapshot_iff r).mpr ⟨row.id, InsertionMap.get_set_self _ _ _⟩, ?_⟩
      rw [hid, hrow]
      exact fun he => hstatus (Option.some.inj he).symm
  rw [moves, hone, List.map_singleton, hid]

/-- A batch moves rows from pending to processing only. -/
theorem Indexed.moves_claimDue (hs : s.Indexed) {limit leaseMs now : ℤ}
    (ht : (s.claimDue limit leaseMs now).2.Indexed) {move : String × SettlementOutboxStatus}
    (h : move ∈ s.moves (s.claimDue limit leaseMs now).2) : move.2 = .processing := by
  obtain ⟨row,hrow,rfl⟩ := List.mem_map.mp h
  obtain ⟨hmem,hmoved⟩ := List.mem_filter.mp hrow
  have hget := ht.get_of_mem hmem
  by_cases hclaimed : ∃ claim ∈ (s.claimDue limit leaseMs now).1, claim.row.id = row.id
  · obtain ⟨claim,hclaim,hid⟩ := hclaimed
    have hkept := kept_of_mem_claimDue hs hclaim
    rw [hid, hget] at hkept
    obtain ⟨old,_,_,hleased⟩ := mem_claimDue hclaim
    rw [Option.some.inj hkept, hleased]
    rfl
  · have hothers := hs.claimDue_others limit leaseMs now row.id
      fun claim hclaim hid => hclaimed ⟨claim, hclaim, hid⟩
    rw [hget] at hothers
    simp [← hothers] at hmoved

end InMemorySettlementOutboxStore

/-- The summary after one more claim was handled. -/
def OutboxSummary.handle {P : Type*} (summary : OutboxSummary) (r : Handled P) : OutboxSummary :=
  if r.takenOver then { summary with skipped := summary.skipped+1 }
  else match targetStatus r.claim r.outcome with
    | .succeeded => { summary with succeeded := summary.succeeded+1 }
    | .dead => { summary with dead := summary.dead+1 }
    | _ => { summary with retried := summary.retried+1 }

/-- One worker for itself: it handles the claims of its batch one after the other,
whatever becomes of each. -/
inductive WorkerStep {P : Type*} (handlers : String → Bool) :
    OutboxWorker P → RecordedTurn P → OutboxWorker P → Prop
  | claims (claimedAt : ℤ) (batch : List (OutboxClaim P))
      (taken : List (String × SettlementOutboxStatus)) :
      (batch.map fun claim => claim.row.id).Nodup → (∀ move ∈ taken, move.2 = .processing) →
      WorkerStep handlers .called (.claimed batch, taken) (.working claimedAt batch {})
  | starts (claimedAt startedAt : ℤ) (claim : OutboxClaim P) (rest : List (OutboxClaim P))
      (summary : OutboxSummary) : handlers claim.row.eventType = true →
      WorkerStep handlers (.working claimedAt (claim :: rest) summary) (.started claim, [])
        (.handling claimedAt startedAt claim rest summary)
  | misses (claimedAt : ℤ) (r : Handled P) (rest : List (OutboxClaim P)) (summary : OutboxSummary) :
      handlers r.claim.row.eventType = false → r.outcome = none →
      WorkerStep handlers (.working claimedAt (r.claim :: rest) summary)
        (.settled r.claim r.outcome r.takenOver, r.moves)
        (.working claimedAt rest (summary.handle r))
  | ends (claimedAt startedAt : ℤ) (r : Handled P) (rest : List (OutboxClaim P))
      (summary : OutboxSummary) : r.outcome.isSome = true →
      WorkerStep handlers (.handling claimedAt startedAt r.claim rest summary)
        (.settled r.claim r.outcome r.takenOver, r.moves)
        (.working claimedAt rest (summary.handle r))
  | returns (claimedAt : ℤ) (summary : OutboxSummary) :
      WorkerStep handlers (.working claimedAt [] summary) (.returned, []) (.returned summary)

section Accounts
variable {P : Type*} {handlers : String → Bool}

def movedTo (status : SettlementOutboxStatus) (results : List (Handled P)) : ℕ :=
  (results.flatMap Handled.moves).countP fun move => move.2 = status

def tally (results : List (Handled P)) : OutboxSummary where
  succeeded := movedTo .succeeded results
  retried := movedTo .pending results
  dead := movedTo .dead results
  skipped := results.countP Handled.takenOver

theorem movedTo_snoc (status : SettlementOutboxStatus) (results : List (Handled P))
    (r : Handled P) : movedTo status (results ++ [r]) =
      movedTo status results + r.moves.countP fun move => move.2 = status := by
  rw [movedTo, List.flatMap_append, List.countP_append, List.flatMap_singleton, movedTo]

theorem targetStatus_cases (claim : OutboxClaim P) (outcome : Option HandlerOutcome) :
    targetStatus claim outcome = .succeeded ∨ targetStatus claim outcome = .dead ∨
      targetStatus claim outcome = .pending := by
  match outcome with
  | none => exact Or.inr (Or.inl rfl)
  | some .resolved => exact Or.inl rfl
  | some (.rejected message) =>
    unfold targetStatus
    split_ifs
    · exact Or.inr (Or.inl rfl)
    · exact Or.inr (Or.inr rfl)

/-- A summary counts one claim more exactly where its row was moved. -/
theorem tally_snoc (results : List (Handled P)) (r : Handled P) :
    tally (results ++ [r]) = (tally results).handle r := by
  simp only [tally, movedTo_snoc, List.countP_append, List.countP_singleton,
    OutboxSummary.handle, Handled.moves]
  cases r.takenOver with
  | true => simp
  | false =>
    rcases targetStatus_cases r.claim r.outcome with htarget | htarget | htarget <;>
      simp [htarget]

theorem tally_total (results : List (Handled P)) :
    (tally results).succeeded+(tally results).retried+(tally results).dead+
      (tally results).skipped = results.length := by
  induction results using List.reverseRecOn with
  | nil => rfl
  | append_singleton results r ih =>
    rw [tally_snoc, List.length_append, List.length_singleton, ← ih]
    unfold OutboxSummary.handle
    -- each claim is counted once, in one of the four
    split_ifs
    · rfl
    · split <;> dsimp only <;> omega

/-- The claims of `results` were handled in this order, each in its own turns. -/
structure Account (handlers : String → Bool) (batch : List (OutboxClaim P))
    (results : List (Handled P)) (turns : List (RecordedTurn P)) : Prop where
  ids : (batch.map fun claim => claim.row.id).Nodup
  handled : ∀ r ∈ results, r.outcome.isSome = handlers r.claim.row.eventType
  recorded : ∃ taken, (∀ move ∈ taken, move.2 = .processing) ∧
    turns = (.claimed batch, taken) :: results.flatMap Handled.turns

/-- What is recorded of a worker, by how far it has come. -/
def Accounted (handlers : String → Bool) (turns : List (RecordedTurn P)) : OutboxWorker P → Prop
  | .called => turns = []
  | .working _ rest summary => ∃ results,
      Account handlers (results.map Handled.claim ++ rest) results turns ∧ summary = tally results
  | .handling _ _ claim rest summary => ∃ results front,
      Account handlers (results.map Handled.claim ++ claim :: rest) results front ∧
      turns = front ++ [(.started claim, [])] ∧ handlers claim.row.eventType = true ∧
      summary = tally results
  | .returned summary => ∃ results front,
      Account handlers (results.map Handled.claim) results front ∧
      turns = front ++ [(.returned, [])] ∧ summary = tally results

theorem Account.handle {batch : List (OutboxClaim P)} {results : List (Handled P)}
    {turns : List (RecordedTurn P)} (h : Account handlers batch results turns) {r : Handled P}
    (hr : r.outcome.isSome = handlers r.claim.row.eventType) :
    Account handlers batch (results ++ [r]) (turns ++ r.turns) where
  ids := h.ids
  handled r' hr' := by
    rcases List.mem_append.mp hr' with hold | hnew
    · exact h.handled r' hold
    · rw [List.mem_singleton.mp hnew]
      exact hr
  recorded := by
    obtain ⟨taken,htaken,rfl⟩ := h.recorded
    refine ⟨taken, htaken, ?_⟩
    rw [List.flatMap_append, List.flatMap_singleton, List.cons_append]

theorem Accounted.step {turns : List (RecordedTurn P)} {worker worker' : OutboxWorker P}
    {turn : RecordedTurn P} (h : Accounted handlers turns worker)
    (hstep : WorkerStep handlers worker turn worker') :
    Accounted handlers (turns ++ [turn]) worker' := by
  cases hstep with
  | claims claimedAt batch taken hids htaken =>
    obtain rfl : turns = [] := h
    refine ⟨[], ⟨hids, ?_, taken, htaken, rfl⟩, rfl⟩
    intro r hr
    cases hr
  | starts claimedAt startedAt claim rest summary hhandler =>
    obtain ⟨results,haccount,hsummary⟩ := h
    exact ⟨results, turns, haccount, rfl, hhandler, hsummary⟩
  | misses claimedAt r rest summary hmissing hnone =>
    obtain ⟨results,haccount,rfl⟩ := h
    have hr : r.outcome.isSome = handlers r.claim.row.eventType := by
      rw [hmissing, hnone]
      rfl
    have hturns : r.turns = [(.settled r.claim r.outcome r.takenOver, r.moves)] := by
      simp [Handled.turns, hnone]
    refine ⟨results ++ [r], ?_, (tally_snoc results r).symm⟩
    rw [List.map_append, List.map_singleton, List.append_assoc, ← hturns]
    exact haccount.handle hr
  | ends claimedAt startedAt r rest summary hsome =>
    obtain ⟨results,front,haccount,rfl,hhandler,rfl⟩ := h
    have hturns : r.turns = [(.started r.claim, []),
        (.settled r.claim r.outcome r.takenOver, r.moves)] := by
      simp [Handled.turns, hsome]
    refine ⟨results ++ [r], ?_, (tally_snoc results r).symm⟩
    rw [List.map_append, List.map_singleton, List.append_assoc, List.append_assoc]
    change Account handlers _ (results ++ [r]) (front ++ [(.started r.claim, []),
      (.settled r.claim r.outcome r.takenOver, r.moves)])
    rw [← hturns]
    exact haccount.handle (hsome.trans hhandler.symm)
  | returns claimedAt summary =>
    obtain ⟨results,haccount,hsummary⟩ := h
    rw [List.append_nil] at haccount
    exact ⟨results, turns, haccount, rfl, hsummary⟩

theorem moves_ids_sublist (results : List (Handled P)) :
    ((results.flatMap Handled.moves).map Prod.fst).Sublist
      (results.map fun r => r.claim.row.id) := by
  induction results with
  | nil => exact List.Sublist.slnil
  | cons r results ih =>
    rw [List.flatMap_cons, List.map_append, List.map_cons]
    unfold Handled.moves
    split_ifs
    · exact ih.cons _
    · exact ih.cons_cons _

theorem moves_of_turns (results : List (Handled P)) :
    (results.flatMap Handled.turns).flatMap Prod.snd = results.flatMap Handled.moves := by
  rw [List.flatMap_assoc]
  apply List.flatMap_congr
  intro r _
  unfold Handled.turns
  split_ifs <;> simp

/-- The rows that the turns moved to a status are those of the claims that ended so. -/
theorem Account.card_rowsMovedTo {results : List (Handled P)} {turns : List (RecordedTurn P)}
    (h : Account handlers (results.map Handled.claim) results turns)
    {status : SettlementOutboxStatus} (hstatus : status ≠ .processing) :
    (rowsMovedTo status (turns ++ [(.returned, [])])).card = movedTo status results := by
  obtain ⟨taken,htaken,rfl⟩ := h.recorded
  have hnone : (taken.filter fun move => move.2 = status) = [] := by
    apply List.filter_eq_nil_iff.mpr
    intro move hmove
    rw [htaken move hmove, decide_eq_true_eq]
    exact Ne.symm hstatus
  have hmoves : (((.claimed (results.map Handled.claim), taken) ::
      results.flatMap Handled.turns ++ [(.returned, [])] :
        List (RecordedTurn P)).flatMap Prod.snd).filter (fun move => move.2 = status) =
      (results.flatMap Handled.moves).filter fun move => move.2 = status := by
    rw [List.flatMap_append, List.flatMap_cons, moves_of_turns, List.flatMap_singleton,
      List.append_nil, List.filter_append, hnone, List.nil_append]
  have hids : (results.map fun r => r.claim.row.id).Nodup := by
    have hbatch := h.ids
    rw [List.map_map] at hbatch
    exact hbatch
  have hnodup : (((results.flatMap Handled.moves).filter fun move => move.2 = status).map
      Prod.fst).Nodup :=
    hids.sublist ((List.filter_sublist.map Prod.fst).trans (moves_ids_sublist results))
  rw [rowsMovedTo, hmoves, List.toFinset_card_of_nodup hnodup, List.length_map, movedTo,
    List.countP_eq_length_filter]

theorem accounted_start : Accounted handlers ([] : List (RecordedTurn P)) .called := rfl

/-- A call has handled the claims of its batch one after the other, each of them once.
Its summary counts the rows that it has moved and the claims taken over from it. -/
structure Summarizes (handlers : String → Bool) (results : List (Handled P))
    (turns : List (RecordedTurn P)) (summary : OutboxSummary) : Prop where
  recorded : ∃ taken, turns = (.claimed (results.map Handled.claim), taken) ::
    results.flatMap Handled.turns ++ [(.returned, [])]
  handled : ∀ r ∈ results, r.outcome.isSome = handlers r.claim.row.eventType
  succeeded : summary.succeeded = (rowsMovedTo .succeeded turns).card
  retried : summary.retried = (rowsMovedTo .pending turns).card
  dead : summary.dead = (rowsMovedTo .dead turns).card
  skipped : summary.skipped = results.countP Handled.takenOver
  total : summary.succeeded+summary.retried+summary.dead+summary.skipped = results.length

theorem Accounted.summarizes {turns : List (RecordedTurn P)} {summary : OutboxSummary}
    (h : Accounted handlers turns (.returned summary)) :
    ∃ results, Summarizes handlers results turns summary := by
  obtain ⟨results,front,haccount,rfl,rfl⟩ := h
  refine ⟨results, ?_⟩
  constructor
  case recorded =>
    obtain ⟨taken,_,rfl⟩ := haccount.recorded
    exact ⟨taken, rfl⟩
  case handled => exact haccount.handled
  case succeeded => exact (haccount.card_rowsMovedTo (by decide)).symm
  case retried => exact (haccount.card_rowsMovedTo (by decide)).symm
  case dead => exact (haccount.card_rowsMovedTo (by decide)).symm
  case skipped => rfl
  case total => exact tally_total results

end Accounts

/-- The turns that a call takes at most until it returns. -/
def OutboxWorker.turnsLeft {P : Type*} : OutboxWorker P → ℕ
  | .working _ claims _ => 2*claims.length+1
  | .handling _ _ _ rest _ => 2*rest.length+2
  | _ => 0

theorem WorkerStep.turnsLeft_lt {P : Type*} {handlers : String → Bool}
    {worker worker' : OutboxWorker P} {turn : RecordedTurn P}
    (h : WorkerStep handlers worker turn worker') (hleft : 0 < worker.turnsLeft) :
    worker'.turnsLeft < worker.turnsLeft := by
  cases h with
  | claims claimedAt batch taken _ _ => exact absurd hleft (lt_irrefl 0)
  | starts claimedAt startedAt claim rest summary _ =>
    simp only [OutboxWorker.turnsLeft, List.length_cons]
    omega
  | misses claimedAt r rest summary _ _ =>
    simp only [OutboxWorker.turnsLeft, List.length_cons]
    omega
  | ends claimedAt startedAt r rest summary _ =>
    simp only [OutboxWorker.turnsLeft]
    omega
  | returns claimedAt summary => exact Nat.succ_pos _

namespace OutboxSystem
variable {ι P : Type*} {s t : OutboxSystem ι P} {i : ι} {claim : OutboxClaim P}

/-- What worker `i` does in a turn of its own. -/
def observe (handlers : ι → String → Bool) (i : ι) (s : OutboxSystem ι P) (a : OutboxAction ι P) :
    Option (WorkerTurn P) :=
  match s.workers i, a with
  | .called, .claim _ limit => some (.claimed (s.batch limit))
  | .working _ [] _, .next .. => some .returned
  | .working _ (claim :: _) _, .next .. =>
    some (if handlers i claim.row.eventType then .started claim
      else .settled claim none (s.takenOver claim))
  | .handling _ _ claim _ _, .settle _ outcome _ =>
    some (.settled claim (some outcome) (s.takenOver claim))
  | _, _ => none

/-- The call of the store that settles a claim. -/
def settleCall (s : OutboxSystem ι P) (claim : OutboxClaim P) (systemNow : ℤ) :
    Option HandlerOutcome → StoreCall P
  | none => .markFailed claim.row.id claim.leaseToken (noHandler claim.row.eventType) s.now true
      systemNow
  | some .resolved => .markSucceeded claim.row.id claim.leaseToken s.now
  | some (.rejected message) => .markFailed claim.row.id claim.leaseToken message
      (s.now+retryDelay claim.row.attempts) (decide (claim.row.attempts ≥ claim.row.maxAttempts))
      systemNow

/-- The call marks the row with the status that the outcome leads to. -/
theorem perform_settleCall (s : OutboxSystem ι P) (claim : OutboxClaim P) (systemNow : ℤ)
    (outcome : Option HandlerOutcome) : ∃ f : RowUpdate P,
      (∀ row, (f.apply row).status = targetStatus claim outcome) ∧
      (perform s.store (s.settleCall claim systemNow outcome)).2 =
        (s.store.mark claim.row.id claim.leaseToken f.apply).2 := by
  match outcome with
  | none =>
    let error := noHandler claim.row.eventType
    exact ⟨⟨fun row => row.failWith error s.now true systemNow, fun _ => rfl, fun _ => rfl⟩,
      fun _ => rfl, rfl⟩
  | some .resolved =>
    exact ⟨⟨fun row => row.succeed s.now, fun _ => rfl, fun _ => rfl⟩, fun _ => rfl, rfl⟩
  | some (.rejected message) =>
    let retryAt := s.now+retryDelay claim.row.attempts
    let dead := decide (claim.row.attempts ≥ claim.row.maxAttempts)
    refine ⟨⟨fun row => row.failWith message retryAt dead systemNow, fun _ => rfl, fun _ => rfl⟩,
      fun row => ?_, rfl⟩
    simp only [SettlementOutbox.failWith, targetStatus, dead, decide_eq_true_eq]

theorem InForce.moves_settle (h : InForce i s) (hclaim : claim ∈ (s.workers i).pending)
    (systemNow : ℤ) (outcome : Option HandlerOutcome) :
    s.store.moves (s.call (s.settleCall claim systemNow outcome)).store =
      Handled.moves ⟨claim, outcome, s.takenOver claim⟩ := by
  obtain ⟨f,hstatus,hafter⟩ := s.perform_settleCall claim systemNow outcome
  have hstore : (s.call (s.settleCall claim systemNow outcome)).store =
      (s.store.mark claim.row.id claim.leaseToken f.apply).2 := hafter
  have hindexed := h.workers.lease.indexed
  rw [hstore, h.mark_eq hclaim, Handled.moves]
  cases hover : s.takenOver claim with
  | true => exact hindexed.moves_self
  | false =>
    have hrow := h.row_eq hclaim hover
    obtain ⟨hprocessing,_⟩ := h.leases.leased claim (h.workers.issued i claim hclaim)
    have hne : (f.apply claim.row).status ≠ claim.row.status := by
      rw [hstatus, hprocessing]
      rcases targetStatus_cases claim outcome with htarget | htarget | htarget <;>
        simp [htarget]
    have hmoves := hindexed.moves_set hrow (f.id_eq _) (f.eventKey_eq _) hne
    rw [hstatus] at hmoves
    exact hmoves

/-- The rows of a batch are different rows. -/
theorem batch_ids_nodup (hs : s.store.Indexed) (limit : ℤ) :
    ((s.batch limit).map fun claim => claim.row.id).Nodup := by
  rw [batch, claimDue_eq, ids_of_leases (claimRows_leases outboxLeaseMs s.now _ _)]
  exact hs.taken_ids_nodup limit s.now

theorem InForce.accepted_eq (h : InForce i s) (hclaim : claim ∈ (s.workers i).pending)
    (f : SettlementOutbox P → SettlementOutbox P) :
    (s.store.mark claim.row.id claim.leaseToken f).1 = !s.takenOver claim := by
  rw [h.mark_eq hclaim]
  cases s.takenOver claim <;> rfl

theorem mem_pending_of_handling {claimedAt startedAt : ℤ} {rest : List (OutboxClaim P)}
    {summary : OutboxSummary}
    (hhandling : s.workers i = .handling claimedAt startedAt claim rest summary) :
    claim ∈ (s.workers i).pending := by
  rw [hhandling]
  exact List.mem_cons_self

variable [DecidableEq ι] {handlers : ι → String → Bool}

/-- The turn in which worker `i` settles a claim, with what its summary becomes. -/
theorem InForce.settles (h : InForce i s) {outcome : Option HandlerOutcome} {systemNow : ℤ}
    (hclaim : claim ∈ (s.workers i).pending) {claimedAt : ℤ} {rest : List (OutboxClaim P)}
    {summary summary' : OutboxSummary}
    (ht : t = (s.call (s.settleCall claim systemNow outcome)).setWorker i
      (.working claimedAt rest summary'))
    (hsummary : summary' = summary.handle ⟨claim, outcome, s.takenOver claim⟩) :
    s.store.moves t.store = Handled.moves ⟨claim, outcome, s.takenOver claim⟩ ∧
      t.workers i =
        .working claimedAt rest (summary.handle ⟨claim, outcome, s.takenOver claim⟩) := by
  subst hsummary
  rw [ht]
  exact ⟨h.moves_settle hclaim systemNow outcome, by rw [workers_setWorker, if_pos rfl]⟩

/-- A handler has ended, and the worker settles its claim accordingly. -/
theorem InForce.ends (h : InForce i s) {outcome : HandlerOutcome}
    {systemNow claimedAt startedAt : ℤ} {rest : List (OutboxClaim P)}
    {summary summary' : OutboxSummary}
    (hhandling : s.workers i = .handling claimedAt startedAt claim rest summary)
    (ht : t = (s.call (s.settleCall claim systemNow (some outcome))).setWorker i
      (.working claimedAt rest summary'))
    (hsummary : summary' = summary.handle ⟨claim, some outcome, s.takenOver claim⟩) :
    ∃ turn, s.observe handlers i (.settle i outcome systemNow) = some turn ∧
      WorkerStep (handlers i) (s.workers i) (turn, s.store.moves t.store) (t.workers i) := by
  obtain ⟨hmoves,hworker⟩ := h.settles (mem_pending_of_handling hhandling) ht hsummary
  refine ⟨.settled claim (some outcome) (s.takenOver claim), by simp only [observe, hhandling], ?_⟩
  rw [hmoves, hworker, hhandling]
  exact .ends claimedAt startedAt ⟨claim, some outcome, s.takenOver claim⟩ rest summary rfl

/-- To the worker itself, its turns are those of a worker that is alone. -/
theorem InForce.workerStep (h : InForce i s) {a : OutboxAction ι P}
    (ht : OutboxSystem.step handlers s a = some t) (hi : a.worker = some i) :
    ∃ turn, s.observe handlers i a = some turn ∧
      WorkerStep (handlers i) (s.workers i) (turn, s.store.moves t.store) (t.workers i) := by
  have hindexed := h.workers.lease.indexed
  cases a with
  | tick now => cases hi
  | enqueue effect systemNow => cases hi
  | claim j limit =>
    obtain rfl : j = i := Option.some.inj hi
    have hafter := h.workers.claim j limit
    simp only [OutboxSystem.step] at ht
    split at ht
    · rename_i hcalled
      obtain rfl := Option.some.inj ht
      refine ⟨.claimed (s.batch limit), by simp only [observe, hcalled], ?_⟩
      rw [workers_setWorker, if_pos rfl, hcalled]
      exact .claims _ _ _ (batch_ids_nodup hindexed limit)
        fun move hmove => hindexed.moves_claimDue hafter.lease.indexed hmove
    · cases ht
  | next j systemNow =>
    obtain rfl : j = i := Option.some.inj hi
    simp only [OutboxSystem.step] at ht
    split at ht
    · rename_i claimedAt summary hworking
      obtain rfl := Option.some.inj ht
      have hstay : s.store.moves (s.setWorker j (.returned summary)).store = [] :=
        hindexed.moves_self
      refine ⟨.returned, by simp only [observe, hworking], ?_⟩
      rw [workers_setWorker, if_pos rfl, hworking, hstay]
      exact .returns claimedAt summary
    · rename_i claimedAt claim rest summary hworking
      have hclaim : claim ∈ (s.workers j).pending := by
        rw [hworking]
        exact List.mem_cons_self
      by_cases hhandler : handlers j claim.row.eventType = true
      · rw [if_pos hhandler] at ht
        obtain rfl := Option.some.inj ht
        refine ⟨.started claim, by simp only [observe, hworking, hhandler, ↓reduceIte], ?_⟩
        change WorkerStep _ _ (_, s.store.moves s.store)
          ((s.setWorker j (.handling claimedAt s.now claim rest summary)).workers j)
        rw [workers_setWorker, if_pos rfl, hworking, hindexed.moves_self]
        exact .starts claimedAt s.now claim rest summary hhandler
      · -- an event type without a handler is marked failed at once
        rw [if_neg hhandler] at ht
        have hafter : t = (s.call (s.settleCall claim systemNow none)).setWorker j
            (.working claimedAt rest _) := (Option.some.inj ht).symm
        have hsummary := h.accepted_eq hclaim fun row =>
          row.failWith (noHandler claim.row.eventType) s.now true systemNow
        obtain ⟨hmoves,hworker⟩ := h.settles hclaim hafter
          (by
            rw [markFailed, hsummary, OutboxSummary.handle]
            cases s.takenOver claim <;> rfl)
        have hmissing : handlers j claim.row.eventType = false := by simpa using hhandler
        refine ⟨.settled claim none (s.takenOver claim),
          by simp only [observe, hworking, hmissing, Bool.false_eq_true, ↓reduceIte], ?_⟩
        rw [hmoves, hworker, hworking]
        exact .misses claimedAt ⟨claim, none, s.takenOver claim⟩ rest summary hmissing rfl
    · cases ht
  | settle j outcome systemNow =>
    obtain rfl : j = i := Option.some.inj hi
    cases outcome with
    | resolved =>
      simp only [OutboxSystem.step] at ht
      split at ht
      · rename_i claimedAt startedAt claim rest summary hhandling
        refine h.ends hhandling (Option.some.inj ht).symm ?_
        rw [markSucceeded, h.accepted_eq (mem_pending_of_handling hhandling), OutboxSummary.handle]
        cases s.takenOver claim <;> rfl
      · cases ht
    | rejected message =>
      simp only [OutboxSystem.step] at ht
      split at ht
      · rename_i claimedAt startedAt claim rest summary hhandling
        refine h.ends hhandling (Option.some.inj ht).symm ?_
        rw [markFailed, h.accepted_eq (mem_pending_of_handling hhandling), OutboxSummary.handle,
          targetStatus]
        cases s.takenOver claim with
        | true => rfl
        | false => by_cases hdead : claim.row.attempts ≥ claim.row.maxAttempts <;> simp [hdead]
      · cases ht

/-- The turns of the others leave worker `i` where it is. -/
theorem workers_of_step {a : OutboxAction ι P} (ht : step handlers s a = some t)
    (hi : a.worker ≠ some i) : t.workers i = s.workers i := by
  cases hj : a.worker with
  | none =>
    cases a with
    | tick now =>
      obtain rfl := Option.some.inj ht
      rfl
    | enqueue effect systemNow =>
      obtain rfl := Option.some.inj ht
      rfl
    | claim j limit => cases hj
    | next j systemNow => cases hj
    | settle j outcome systemNow => cases hj
  | some j =>
    have hne : ¬ i = j := fun he => hi (he ▸ hj)
    have hset (u : OutboxSystem ι P) (worker : OutboxWorker P) :
        (u.setWorker j worker).workers i = u.workers i := by
      rw [workers_setWorker, if_neg hne]
    cases act_of_step ht hj with
    | claims limit h => exact hset _ _
    | starts systemNow claimedAt claim rest summary h => exact hset _ _
    | returns systemNow summary => exact hset _ _
    | settles c claim rest summary hpending hc => exact hset _ _

/-- What is recorded of worker `i`: its turns, each with the rows that it moved. -/
def turnOf (handlers : ι → String → Bool) (i : ι) (s : OutboxSystem ι P) :
    SharedAction ι P → Option (RecordedTurn P)
  | .other _ => none
  | .turn a =>
    if a.worker = some i then
      (step handlers s a).bind fun t =>
        (s.observe handlers i a).map fun turn => (turn, s.store.moves t.store)
    else none

theorem accounted_of_sharedStep {turns : List (RecordedTurn P)} {a : SharedAction ι P}
    (h : Accounted (handlers i) turns (s.workers i)) (hforce : InForce i s)
    (ht : sharedStep handlers s a = some t) :
    Accounted (handlers i) (turns ++ (turnOf handlers i s a).toList) (t.workers i) := by
  cases a with
  | other c =>
    obtain rfl := Option.some.inj ht
    rw [turnOf, Option.toList_none, List.append_nil]
    exact h
  | turn a =>
    have hstep : step handlers s a = some t := ht
    by_cases hi : a.worker = some i
    · obtain ⟨turn,hturn,hworker⟩ := hforce.workerStep hstep hi
      have hrecorded : turnOf handlers i s (.turn a) = some (turn, s.store.moves t.store) := by
        rw [turnOf, if_pos hi, hstep, hturn]
        rfl
      rw [hrecorded, Option.toList_some]
      exact h.step hworker
    · rw [turnOf, if_neg hi, Option.toList_none, List.append_nil, workers_of_step hstep hi]
      exact h

/-- The turn that is up for a worker in its batch; a running handler ends with `outcome`. -/
def nextTurn (s : OutboxSystem ι P) (i : ι) (outcome : HandlerOutcome) (systemNow : ℤ) :
    OutboxAction ι P :=
  match s.workers i with
  | .handling .. => .settle i outcome systemNow
  | _ => .next i systemNow

theorem step_nextTurn (hleft : 0 < (s.workers i).turnsLeft) (outcome : HandlerOutcome)
    (systemNow : ℤ) : ∃ t, step handlers s (s.nextTurn i outcome systemNow) = some t ∧
      (s.nextTurn i outcome systemNow).worker = some i := by
  unfold nextTurn
  cases hworker : s.workers i with
  | called =>
    rw [hworker] at hleft
    cases hleft
  | returned summary =>
    rw [hworker] at hleft
    cases hleft
  | working claimedAt claims summary =>
    cases claims with
    | nil =>
      refine ⟨s.setWorker i (.returned summary), ?_, rfl⟩
      simp only [step, hworker]
    | cons claim rest =>
      cases hhandler : handlers i claim.row.eventType <;>
        simp [step, hworker, hhandler, OutboxAction.worker]
  | handling claimedAt startedAt claim rest summary =>
    cases outcome <;> simp [step, hworker, OutboxAction.worker]

/-- However handlers end and whatever others do in between, a call of `processDue`
goes on to its end and then returns a summary of what it has done itself. -/
theorem processDue_accounts_for_every_claim {now : ℤ} {turns : List (RecordedTurn P)}
    (hs : ReachesWhile (recording (sharedStep handlers) (turnOf handlers i))
      (fun recorded a => OwnLeases i recorded.1 a) (start now, []) (s, turns)) :
    (0 < (s.workers i).turnsLeft → ∀ outcome systemNow,
      ∃ t, sharedStep handlers s (.turn (s.nextTurn i outcome systemNow)) = some t ∧
        (t.workers i).turnsLeft < (s.workers i).turnsLeft) ∧
    ∀ summary, s.workers i = .returned summary →
      ∃ results, Summarizes (handlers i) results turns summary := by
  have hinv : InForce i s ∧ Accounted (handlers i) turns (s.workers i) :=
    hs.invariant (fun recorded => InForce i recorded.1 ∧
        Accounted (handlers i) recorded.2 (recorded.1.workers i))
      (by
        intro recorded a recorded' h hown hstep
        obtain ⟨hnext,hturns⟩ := recording_eq_some.mp hstep
        rw [hturns]
        exact ⟨h.1.step hown hnext, accounted_of_sharedStep h.2 h.1 hnext⟩)
      ⟨inForce_start i now, accounted_start⟩
  obtain ⟨hforce,haccounted⟩ := hinv
  constructor
  · intro hleft outcome systemNow
    obtain ⟨t,ht,hown⟩ := @step_nextTurn _ _ s i _ handlers hleft outcome systemNow
    obtain ⟨_,_,hworker⟩ := hforce.workerStep ht hown
    exact ⟨t, ht, hworker.turnsLeft_lt hleft⟩
  · intro summary hreturned
    rw [hreturned] at haccounted
    exact haccounted.summarizes

section SampleSummary

instance (i : ι) (s : OutboxSystem ι P) (a : SharedAction ι P) : Decidable (OwnLeases i s a) :=
  match a with
  | .turn _ => .isTrue trivial
  | .other c => inferInstanceAs (Decidable (∀ claim ∈ (s.workers i).pending,
      c.token? ≠ some claim.leaseToken))

def payoutHandler (_ : Fin 2) (eventType : String) : Bool := eventType = "payout"

/-- Four rows in a batch: one is paid out, one has no handler, one fails, and while the
handler of the last one runs, somebody else claims its row. -/
def fourClaims (i : ι) : List (SharedAction ι Unit) :=
  [.turn (.enqueue (payout "a") 0), .turn (.enqueue ⟨"b", "refund", "stream-1", (), none⟩ 0),
    .turn (.enqueue (payout "c") 0), .turn (.enqueue (payout "d") 0), .turn (.claim i 50),
    .turn (.next i 0), .turn (.settle i .resolved 0), .turn (.next i 0), .turn (.next i 0),
    .turn (.settle i (.rejected []) 0), .turn (.next i 0), .other (.claimDue 50 1000 70000),
    .turn (.settle i .resolved 0), .turn (.next i 0)]

def returnedSummary : OutboxWorker P → Option OutboxSummary
  | .returned summary => some summary
  | _ => none

theorem returned_of_returnedSummary {worker : OutboxWorker P} {summary : OutboxSummary}
    (h : returnedSummary worker = some summary) : worker = .returned summary := by
  cases worker with
  | returned summary' => exact congrArg _ (Option.some.inj h)
  | called => cases h
  | working claimedAt claims summary' => cases h
  | handling claimedAt startedAt claim rest summary' => cases h

theorem fourClaims_summary : ∃ (turns : List (RecordedTurn Unit)) (results : List (Handled Unit)),
    Summarizes (payoutHandler 0) results turns ⟨1, 1, 1, 1⟩ := by
  have hrun : (execWhile (recording (sharedStep payoutHandler) (turnOf payoutHandler 0))
      (fun recorded a => OwnLeases 0 recorded.1 a) (start 0, []) (fourClaims 0)).map
        (fun recorded => returnedSummary (recorded.1.workers 0)) = some (some ⟨1, 1, 1, 1⟩) := by
    decide +kernel
  obtain ⟨⟨s,turns⟩,hs,hseen⟩ := Option.map_eq_some_iff.mp hrun
  have hreach := reachesWhile_of_execWhile _ hs
  obtain ⟨results,hresults⟩ := (processDue_accounts_for_every_claim hreach).2 _
    (returned_of_returnedSummary hseen)
  exact ⟨turns, results, hresults⟩

end SampleSummary

end OutboxSystem

end StreamPay
