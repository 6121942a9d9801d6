import Mathlib.Data.List.Induction
import StreamPay.SettlementOutboxLeases
import StreamPay.SettlementOutboxService
import StreamPay.Library.Lockstep

/-! Runs of calls on the in-memory outbox, with any ids, tokens and times: rows
come in through the service, and claims and marks go straight to the store. -/
namespace StreamPay
open InMemorySettlementOutboxStore

inductive StoreCall (P : Type*)
  | enqueue (effect : SettlementSideEffect P) (clock now : ℤ)
  | claimDue (limit leaseMs now : ℤ)
  | markSucceeded (id leaseToken : String) (processedAt : ℤ)
  | markFailed (id leaseToken : String) (error : Utf16) (retryAt : ℤ) (dead : Bool) (now : ℤ)

inductive StoreAnswer (P : Type*)
  | enqueued (result : Except String (Option (SettlementOutbox P)))
  | claimed (claims : List (OutboxClaim P))
  | marked (accepted : Bool)

variable {P : Type*}

def perform (s : InMemorySettlementOutboxStore P) :
    StoreCall P → StoreAnswer P × InMemorySettlementOutboxStore P
  | .enqueue effect clock now =>
    let (result,s') := SettlementOutboxService.enqueue s effect clock now
    (.enqueued result, s')
  | .claimDue limit leaseMs now =>
    let (claims,s') := s.claimDue limit leaseMs now
    (.claimed claims, s')
  | .markSucceeded id leaseToken processedAt =>
    let (accepted,s') := s.markSucceeded id leaseToken processedAt
    (.marked accepted, s')
  | .markFailed id leaseToken error retryAt dead now =>
    let (accepted,s') := s.markFailed id leaseToken error retryAt dead now
    (.marked accepted, s')

abbrev OutboxLog (P : Type*) := List (StoreCall P × StoreAnswer P)

/-- What an answered call did to the rows. -/
def outboxEvents : StoreCall P × StoreAnswer P → List (OutboxEvent P)
  | (.claimDue .., .claimed claims) => claims.map .claimed
  | (.markSucceeded id leaseToken _, .marked true) => [.succeeded id leaseToken]
  | (.markFailed id leaseToken .., .marked true) => [.failed id leaseToken]
  | _ => []

def history (log : OutboxLog P) : List (OutboxEvent P) := log.flatMap outboxEvents

variable {log : OutboxLog P} {s : InMemorySettlementOutboxStore P}

theorem history_append (log log' : OutboxLog P) :
    history (log ++ log') = history log ++ history log' := List.flatMap_append

theorem history_snoc (log : OutboxLog P) (entry : StoreCall P × StoreAnswer P) :
    history (log ++ [entry]) = history log ++ outboxEvents entry := by
  rw [history_append]
  simp [history]

/-- Rows that the service enqueues come without lease, status or attempts. -/
theorem newRow_ok {effect : SettlementSideEffect P} {clock : ℤ} {input : NewSettlementOutbox P}
    (h : SettlementOutboxService.newRow effect clock = .ok input) :
    input.id = none ∧ ∀ id now, Unclaimed (newRow input id now) := by
  unfold SettlementOutboxService.newRow at h
  split_ifs at h
  obtain rfl := Except.ok.inj h
  exact ⟨rfl, fun id now => ⟨rfl, rfl, rfl, rfl⟩⟩

namespace InMemorySettlementOutboxStore

theorem newId_of_none {input : NewSettlementOutbox P} (h : input.id = none) :
    s.newId input = (memoryId (s.sequence+1), s.sequence+1) := by
  rw [newId, h]
  rfl

theorem Indexed.rowOf_ne_none (hs : s.Indexed) {eventKey id : String}
    (h : s.keys.get eventKey = some id) : rowOf s.snapshot eventKey ≠ none := by
  obtain ⟨_,row,hrow,_⟩ := hs.bound _ _ h
  rw [hs.rowOf_snapshot, h, Option.bind_some, hrow]
  exact Option.some_ne_none row

/-- `enqueue` changes nothing or stores a new row under the next memory id. -/
theorem enqueue_cases (hs : s.Indexed) (effect : SettlementSideEffect P) (clock now : ℤ) :
    (SettlementOutboxService.enqueue s effect clock now).2 = s ∨
    ∃ row, Unclaimed row ∧ row.id = memoryId (s.sequence+1) ∧ s.keys.get row.eventKey = none ∧
      (SettlementOutboxService.enqueue s effect clock now).2 =
        ⟨s.rows.set row.id row, s.keys.set row.eventKey row.id, s.sequence+1⟩ := by
  unfold SettlementOutboxService.enqueue
  cases hnew : SettlementOutboxService.newRow effect clock with
  | error message => exact Or.inl rfl
  | ok input =>
    obtain ⟨hid,hplain⟩ := newRow_ok hnew
    cases hkey : s.keys.get input.eventKey with
    | some id => exact Or.inl (hs.enqueue_of_known (hs.rowOf_ne_none hkey) now)
    | none =>
      have hafter := enqueue_of_new hkey now
      rw [newId_of_none hid] at hafter
      exact Or.inr ⟨newRow input (memoryId (s.sequence+1)) now, hplain _ now, rfl, hkey, hafter⟩

theorem LeaseInvariant.enqueue (h : LeaseInvariant (history log) s)
    (effect : SettlementSideEffect P) (clock now : ℤ) :
    LeaseInvariant (history log) (SettlementOutboxService.enqueue s effect clock now).2 := by
  rcases enqueue_cases h.indexed effect clock now with hsame | ⟨row,hnew,hid,hkey,hafter⟩
  · exact hsame.symm ▸ h
  · exact hafter.symm ▸ h.insert hnew hid hkey

theorem LeaseInvariant.claimDue (h : LeaseInvariant (history log) s) (limit leaseMs now : ℤ) :
    LeaseInvariant (history log ++ (s.claimDue limit leaseMs now).1.map .claimed)
      (s.claimDue limit leaseMs now).2 := by
  rw [claimDue_eq]
  have hstart : LeaseInvariant (history log ++ ([] : List (OutboxClaim P)).map .claimed) s := by
    simpa using h
  have hbatch := claimRows_invariant leaseMs now
    (fun claims t => LeaseInvariant (history log ++ claims.map .claimed) t)
    (h.indexed.taken_ids_nodup limit now)
    (fun claims t row hrow hget ht => by
      have hnext := ht.claimRow hget (mem_taken hrow).2 leaseMs
      simpa [List.append_assoc] using hnext)
    (fun row hrow => h.indexed.get_of_mem (mem_taken hrow).1) hstart
  exact hbatch

/-- A mark is refused, or the row is processing under the token it names. -/
theorem mark_cases (s : InMemorySettlementOutboxStore P) (id token : String)
    (f : SettlementOutbox P → SettlementOutbox P) :
    s.mark id token f = (false, s) ∨ ∃ row, s.rows.get id = some row ∧
      row.status = .processing ∧ row.leaseToken = some token ∧
      s.mark id token f = (true, { s with rows := s.rows.set id (f row) }) := by
  unfold mark
  cases hrow : s.rows.get id with
  | none => exact Or.inl rfl
  | some row =>
    by_cases hfit : row.status = .processing ∧ row.leaseToken = some token
    · refine Or.inr ⟨row, rfl, hfit.1, hfit.2, ?_⟩
      simp [hfit.1, hfit.2]
    · refine Or.inl ?_
      have hrefused : row.status ≠ .processing ∨ row.leaseToken ≠ some token :=
        not_and_or.mp hfit
      simp only [Bool.or_eq_true, decide_eq_true_eq, hrefused, ↓reduceIte]

theorem LeaseInvariant.perform (h : LeaseInvariant (history log) s) (call : StoreCall P) :
    LeaseInvariant (history (log ++ [(call, (perform s call).1)])) (perform s call).2 := by
  rw [history_snoc]
  cases call with
  | enqueue effect clock now =>
    have hnone : outboxEvents (.enqueue effect clock now,
        (StreamPay.perform s (.enqueue effect clock now)).1) = [] := rfl
    rw [hnone, List.append_nil]
    exact h.enqueue effect clock now
  | claimDue limit leaseMs now => exact h.claimDue limit leaseMs now
  | markSucceeded id token processedAt =>
    rcases mark_cases s id token (fun row => row.succeed processedAt) with
      hrefused | ⟨row,hrow,_,htoken,haccepted⟩
    · simp only [StreamPay.perform, InMemorySettlementOutboxStore.markSucceeded, hrefused, outboxEvents,
        List.append_nil]
      exact h
    · simp only [StreamPay.perform, InMemorySettlementOutboxStore.markSucceeded, haccepted,
        outboxEvents]
      exact h.settle hrow htoken (released_succeed row processedAt) rfl rfl (Or.inr ⟨rfl, rfl⟩)
  | markFailed id token error retryAt dead now =>
    rcases mark_cases s id token (fun row => row.failWith error retryAt dead now) with
      hrefused | ⟨row,hrow,_,htoken,haccepted⟩
    · simp only [StreamPay.perform, InMemorySettlementOutboxStore.markFailed, hrefused, outboxEvents,
        List.append_nil]
      exact h
    · simp only [StreamPay.perform, InMemorySettlementOutboxStore.markFailed, haccepted,
        outboxEvents]
      exact h.settle hrow htoken (released_failWith row error retryAt dead now) rfl rfl (Or.inl rfl)

/-- What is enqueued of a row; no claim and no mark rewrites it. -/
def event (row : SettlementOutbox P) : String × String × String × String × P × ℤ × ℤ :=
  (row.id, row.eventKey, row.eventType, row.aggregateId, row.payload, row.maxAttempts,
    row.createdAt)

structure RowProgress (row row' : SettlementOutbox P) : Prop where
  event_eq : event row' = event row
  attempts_le : row.attempts ≤ row'.attempts
  finished : row.status = .succeeded ∨ row.status = .dead → row' = row

theorem RowProgress.refl (row : SettlementOutbox P) : RowProgress row row :=
  ⟨rfl, le_rfl, fun _ => rfl⟩

theorem RowProgress.trans {row row' row'' : SettlementOutbox P} (h : RowProgress row row')
    (h' : RowProgress row' row'') : RowProgress row row'' where
  event_eq := h'.event_eq.trans h.event_eq
  attempts_le := h.attempts_le.trans h'.attempts_le
  finished hfin := by
    have hsame : row' = row := h.finished hfin
    have hfin' : row'.status = .succeeded ∨ row'.status = .dead := hsame ▸ hfin
    exact (h'.finished hfin').trans hsame

/-- No row is lost, and every row makes progress. -/
def RowsProgress (s t : InMemorySettlementOutboxStore P) : Prop :=
  ∀ id row, s.rows.get id = some row → ∃ row', t.rows.get id = some row' ∧ RowProgress row row'

theorem RowsProgress.refl (s : InMemorySettlementOutboxStore P) : RowsProgress s s :=
  fun _ row hrow => ⟨row, hrow, .refl row⟩

theorem RowsProgress.trans {s t u : InMemorySettlementOutboxStore P} (h : RowsProgress s t)
    (h' : RowsProgress t u) : RowsProgress s u := by
  intro id row hrow
  obtain ⟨row',hrow',hprogress⟩ := h id row hrow
  obtain ⟨row'',hrow'',hprogress'⟩ := h' id row' hrow'
  exact ⟨row'', hrow'', hprogress.trans hprogress'⟩

theorem rowsProgress_of_set {t : InMemorySettlementOutboxStore P} {id : String}
    {row row' : SettlementOutbox P} (hset : t.rows = s.rows.set id row')
    (hrow : s.rows.get id = some row) (hprogress : RowProgress row row') : RowsProgress s t := by
  intro id' r hr
  rw [hset, InsertionMap.get_set]
  split_ifs with hid
  · rw [hid] at hr
    obtain rfl := Option.some.inj (hrow.symm.trans hr)
    exact ⟨row', rfl, hprogress⟩
  · exact ⟨r, hr, .refl r⟩

theorem rowProgress_claimRow {row : SettlementOutbox P} {now : ℤ} (hdue : row.isDue now = true)
    (leaseMs : ℤ) : RowProgress row (s.claimRow row leaseMs now).1.row where
  event_eq := rfl
  attempts_le := by
    have hafter : (s.claimRow row leaseMs now).1.row.attempts = row.attempts+1 := rfl
    omega
  finished hfin := by
    rcases status_of_isDue hdue with hp | hp <;> rcases hfin with hf | hf <;>
      rw [hp] at hf <;> cases hf

theorem rowsProgress_claimDue (h : s.Indexed) (limit leaseMs now : ℤ) :
    RowsProgress s (s.claimDue limit leaseMs now).2 := by
  rw [claimDue_eq]
  exact claimRows_invariant leaseMs now (fun _ t => RowsProgress s t)
    (h.taken_ids_nodup limit now)
    (fun claims t row hrow hget ht => ht.trans
      (rowsProgress_of_set rfl hget (rowProgress_claimRow (mem_taken hrow).2 leaseMs)))
    (fun row hrow => h.get_of_mem (mem_taken hrow).1) (.refl s)

theorem rowsProgress_mark (id token : String) (f : SettlementOutbox P → SettlementOutbox P)
    (hf : ∀ row, event (f row) = event row ∧ (f row).attempts = row.attempts) :
    RowsProgress s (s.mark id token f).2 := by
  rcases mark_cases s id token f with hrefused | ⟨row,hrow,hp,_,haccepted⟩
  · rw [hrefused]
    exact .refl s
  · rw [haccepted]
    have hprogress : RowProgress row (f row) := by
      refine ⟨(hf row).1, (hf row).2.ge, fun hfin => ?_⟩
      rcases hfin with hf | hf <;> rw [hp] at hf <;> cases hf
    exact rowsProgress_of_set rfl hrow hprogress

/-- Enqueueing leaves every row as it is: a new row gets an id of its own. -/
theorem kept_enqueue (h : LeaseInvariant (history log) s) {id : String} {row : SettlementOutbox P}
    (hrow : s.rows.get id = some row) (effect : SettlementSideEffect P) (clock now : ℤ) :
    (SettlementOutboxService.enqueue s effect clock now).2.rows.get id = some row := by
  rcases enqueue_cases h.indexed effect clock now with hsame | ⟨new,_,hid,_,hafter⟩
  · exact hsame.symm ▸ hrow
  · have hne : id ≠ new.id := fun he => by
      rw [he, hid, h.get_memoryId] at hrow
      cases hrow
    rw [hafter]
    exact (InsertionMap.get_set_of_ne _ _ hne).trans hrow

theorem rowsProgress_perform (h : LeaseInvariant (history log) s) (call : StoreCall P) :
    RowsProgress s (StreamPay.perform s call).2 := by
  cases call with
  | enqueue effect clock now =>
    exact fun id row hrow => ⟨row, kept_enqueue h hrow effect clock now, .refl row⟩
  | claimDue limit leaseMs now => exact rowsProgress_claimDue h.indexed limit leaseMs now
  | markSucceeded id token processedAt =>
    exact rowsProgress_mark id token _ fun row => ⟨rfl, rfl⟩
  | markFailed id token error retryAt dead now =>
    exact rowsProgress_mark id token _ fun row => ⟨rfl, rfl⟩

end InMemorySettlementOutboxStore

/-- The deadline that a call put on the lease of a row, if it claimed the row. -/
def leaseSet (id : String) : StoreCall P × StoreAnswer P → Option ℤ
  | (.claimDue _ leaseMs now, .claimed claims) =>
    if claims.any fun claim => claim.row.id = id then some (now+max 1000 leaseMs) else none
  | _ => none

/-- The deadline that the latest claim of a row asked for. -/
def latestLease (log : OutboxLog P) (id : String) : Option ℤ :=
  (log.filterMap (leaseSet id)).getLast?

/-- The token is that of the latest claim of the row, whose lease is not over. -/
def HoldsLease (history : List (OutboxEvent P)) (s : InMemorySettlementOutboxStore P)
    (id token : String) (processedAt : ℤ) : Prop :=
  (claimsOf history id).getLast?.map OutboxClaim.leaseToken = some token ∧
    ∃ row, s.rows.get id = some row ∧ ∃ deadline, row.leaseUntil = some deadline ∧
      processedAt ≤ deadline

/-- The invariant of a run: leases follow the history and their deadlines the calls. -/
structure OutboxInvariant (log : OutboxLog P) (s : InMemorySettlementOutboxStore P) : Prop where
  lease : LeaseInvariant (history log) s
  deadline : ∀ id claim, (claimsOf (history log) id).getLast? = some claim →
    latestLease log id = claim.row.leaseUntil

theorem claimsOf_append (h h' : List (OutboxEvent P)) (id : String) :
    claimsOf (h ++ h') id = claimsOf h id ++ claimsOf h' id := by
  rw [claimsOf, claims_append, List.filter_append, claimsOf, claimsOf]

theorem latestLease_snoc (log : OutboxLog P) (entry : StoreCall P × StoreAnswer P) (id : String) :
    latestLease (log ++ [entry]) id = (leaseSet id entry).or (latestLease log id) := by
  rw [latestLease, List.filterMap_append, List.getLast?_append]
  cases h : leaseSet id entry <;> simp [h, latestLease]

theorem leaseSet_of_unclaimed (s : InMemorySettlementOutboxStore P) (call : StoreCall P)
    {id : String} (h : claimsOf (outboxEvents (call, (perform s call).1)) id = []) :
    leaseSet id (call, (perform s call).1) = none := by
  cases call with
  | claimDue limit leaseMs now =>
    have hevents : outboxEvents (.claimDue limit leaseMs now,
        (perform s (.claimDue limit leaseMs now)).1) =
          (s.claimDue limit leaseMs now).1.map .claimed := rfl
    rw [hevents, claimsOf, claims_map_claimed] at h
    have hnone : (s.claimDue limit leaseMs now).1.any (fun c => c.row.id = id) = false := by
      simpa [List.filter_eq_nil_iff] using h
    simp [perform, leaseSet, hnone]
  | enqueue effect clock now => rfl
  | markSucceeded id' token processedAt => rfl
  | markFailed id' token error retryAt dead now => rfl

/-- Only a call of `claimDue` claims rows. -/
theorem mem_claims_outboxEvents {call : StoreCall P} {answer : StoreAnswer P}
    {claim : OutboxClaim P} (h : claim ∈ claims (outboxEvents (call, answer))) :
    ∃ limit leaseMs now claimed, call = .claimDue limit leaseMs now ∧
      answer = .claimed claimed ∧ claim ∈ claimed := by
  unfold outboxEvents at h
  split at h
  · rename_i limit leaseMs now claimed heq
    obtain ⟨rfl,rfl⟩ := Prod.mk.inj heq
    rw [claims_map_claimed] at h
    exact ⟨limit, leaseMs, now, claimed, rfl, rfl, h⟩
  all_goals simp [claims, OutboxEvent.claim?] at h

theorem leaseSet_of_claimed {call : StoreCall P} {id : String} {claim : OutboxClaim P}
    (h : claim ∈ claimsOf (outboxEvents (call, (perform s call).1)) id) :
    ∃ deadline, leaseSet id (call, (perform s call).1) = some deadline ∧
      claim.row.leaseUntil = some deadline := by
  obtain ⟨hmem,hid⟩ := List.mem_filter.mp h
  obtain ⟨limit,leaseMs,now,claimed,rfl,hanswer,hclaim⟩ := mem_claims_outboxEvents hmem
  obtain rfl : (s.claimDue limit leaseMs now).1 = claimed := StoreAnswer.claimed.inj hanswer
  obtain ⟨row,_,_,hrow⟩ := mem_claimDue hclaim
  have hany : (s.claimDue limit leaseMs now).1.any (fun c => c.row.id = id) = true :=
    List.any_eq_true.mpr ⟨claim, hclaim, hid⟩
  refine ⟨now+max 1000 leaseMs, ?_, by rw [hrow]; rfl⟩
  simp only [perform, leaseSet, hany, ↓reduceIte]

theorem OutboxInvariant.perform (h : OutboxInvariant log s) (call : StoreCall P) :
    OutboxInvariant (log ++ [(call, (perform s call).1)]) (perform s call).2 where
  lease := h.lease.perform call
  deadline id claim hlast := by
    rw [history_snoc, claimsOf_append, List.getLast?_append] at hlast
    rw [latestLease_snoc]
    -- the call claimed the row itself, or the latest claim is an earlier one
    cases hnew : (claimsOf (outboxEvents (call, (StreamPay.perform s call).1)) id).getLast? with
    | none =>
      have hnil := List.getLast?_eq_none_iff.mp hnew
      rw [hnew, Option.none_or] at hlast
      rw [leaseSet_of_unclaimed s call hnil, Option.none_or]
      exact h.deadline id claim hlast
    | some claim' =>
      rw [hnew, Option.some_or] at hlast
      obtain rfl := Option.some.inj hlast
      obtain ⟨deadline,hset,hdeadline⟩ := leaseSet_of_claimed (List.mem_of_getLast? hnew)
      rw [hset, hdeadline, Option.some_or]

theorem outboxInvariant_empty :
    OutboxInvariant [] (empty : InMemorySettlementOutboxStore P) where
  lease := leaseInvariant_empty
  deadline id claim h := by simp [claimsOf, claims, history] at h

theorem outboxInvariant_run (calls : List (StoreCall P)) :
    OutboxInvariant (Lockstep.log perform empty calls) (Lockstep.run perform empty calls) :=
  Lockstep.run_invariant OutboxInvariant outboxInvariant_empty
    (fun _ _ call h => h.perform call) calls

theorem rowsProgress_run (calls later : List (StoreCall P)) :
    RowsProgress (Lockstep.run perform empty calls)
      (Lockstep.run perform empty (calls ++ later)) := by
  induction later using List.reverseRecOn with
  | nil =>
    rw [List.append_nil]
    exact .refl _
  | append_singleton later call ih =>
    rw [← List.append_assoc, Lockstep.run_append _ _ (calls ++ later)]
    exact ih.trans (rowsProgress_perform (outboxInvariant_run (calls ++ later)).lease call)

/-- Over any run a row holds a lease exactly while it is processing, counts its
claims and, once succeeded or dead, stays as it is; a token settles at most one
claim and a row succeeds at most once. -/
theorem rows_follow_their_claims (calls later : List (StoreCall P)) :
    let s := Lockstep.run perform empty calls
    let events := history (Lockstep.log perform empty calls)
    (∀ id row, s.rows.get id = some row →
      (row.leaseToken.isSome ↔ row.status = .processing) ∧
      (row.leaseUntil.isSome ↔ row.status = .processing) ∧
      row.attempts = (claimsOf events id).length ∧
      ∃ row', (Lockstep.run perform s later).rows.get id = some row' ∧
        row.attempts ≤ row'.attempts ∧
        (row.status = .succeeded ∨ row.status = .dead → row' = row)) ∧
    (∀ claim ∈ claims events, (settledTokens events).count claim.leaseToken ≤ 1) ∧
    ∀ id, (successes events).count id ≤ 1 := by
  intro s events
  have hinv : LeaseInvariant events s := (outboxInvariant_run calls).lease
  have hprogress := rowsProgress_run calls later
  rw [Lockstep.run_append] at hprogress
  refine ⟨fun id row hrow => ?_, fun claim _ => ?_, fun id => ?_⟩
  · obtain ⟨htoken,huntil⟩ := hinv.leased id row hrow
    obtain ⟨row',hrow',hkept⟩ := hprogress id row hrow
    exact ⟨htoken, huntil, hinv.attempts id row hrow, row', hrow', hkept.attempts_le,
      hkept.finished⟩
  · exact List.nodup_iff_count_le_one.mp hinv.settledOnce _
  · exact List.nodup_iff_count_le_one.mp hinv.succeededOnce _

/-- A mark that is accepted names the latest claim of its row; the row's lease
is still running exactly up to the deadline that the claim asked for. -/
theorem acknowledged_under_live_lease_iff (calls : List (StoreCall P)) (id token : String)
    (processedAt : ℤ)
    (h : ((Lockstep.run perform empty calls).markSucceeded id token processedAt).1 = true) :
    HoldsLease (history (Lockstep.log perform empty calls)) (Lockstep.run perform empty calls)
        id token processedAt ↔
      ∃ deadline, latestLease (Lockstep.log perform empty calls) id = some deadline ∧
        processedAt ≤ deadline := by
  have hinv := outboxInvariant_run calls
  rcases mark_cases (Lockstep.run perform empty calls) id token
    (fun row => row.succeed processedAt) with hrefused | ⟨row,hrow,_,htoken,_⟩
  · rw [markSucceeded, hrefused] at h
    cases h
  · have hlast := hinv.lease.current id row token hrow htoken
    have hdeadline := hinv.deadline id _ hlast
    rw [hdeadline]
    constructor
    · rintro ⟨_,row',hrow',deadline,hrunning,hle⟩
      obtain rfl := Option.some.inj (hrow.symm.trans hrow')
      exact ⟨deadline, hrunning, hle⟩
    · rintro ⟨deadline,hrunning,hle⟩
      refine ⟨by rw [hlast]; rfl, row, hrow, deadline, hrunning, hle⟩

section SampleLease

def sampleEffect : SettlementSideEffect Unit := ⟨"settlement:a:1", "payout", "a", (), none⟩

/-- One row, claimed at 0 for a second. -/
def sampleLease : List (StoreCall Unit) := [.enqueue sampleEffect 0 0, .claimDue 1 1000 0]

theorem sampleLease_deadline : latestLease (Lockstep.log perform empty sampleLease)
    "memory-outbox-1" = some 1000 := by
  decide +kernel

theorem sampleLease_row : ((Lockstep.run perform empty sampleLease).rows.get
    "memory-outbox-1").bind SettlementOutbox.leaseUntil = some 1000 := by
  decide +kernel

theorem acknowledged_at_500_under_live_lease :
    HoldsLease (history (Lockstep.log perform empty sampleLease))
      (Lockstep.run perform empty sampleLease) "memory-outbox-1" "lease-memory-outbox-1-2" 500 :=
  (acknowledged_under_live_lease_iff sampleLease "memory-outbox-1" "lease-memory-outbox-1-2" 500
    (by decide +kernel)).mpr ⟨1000, sampleLease_deadline, by decide⟩

theorem late_acknowledgement_accepted :
    ¬ ∀ (calls : List (StoreCall Unit)) (id token : String) (processedAt : ℤ),
      ((Lockstep.run perform empty calls).markSucceeded id token processedAt).1 = true →
      HoldsLease (history (Lockstep.log perform empty calls)) (Lockstep.run perform empty calls)
        id token processedAt := by
  intro hall
  obtain ⟨_,row,hrow,deadline,hdeadline,hle⟩ := hall sampleLease "memory-outbox-1"
    "lease-memory-outbox-1-2" 5000 (by decide +kernel)
  have hlease := sampleLease_row
  rw [hrow, Option.bind_some, hdeadline] at hlease
  have hearly : deadline = 1000 := Option.some.inj hlease
  omega

end SampleLease

end StreamPay
