import StreamPay.SettlementOutboxAttempts

/-! Which calls of the store mark a row failed, and what a turn of one worker calls. -/
namespace StreamPay
open InMemorySettlementOutboxStore

def OutboxAction.worker {ι P : Type*} : OutboxAction ι P → Option ι
  | .tick _ | .enqueue _ _ => none
  | .claim i _ | .next i _ | .settle i _ _ => some i

/-- The token under which a call settles a row. -/
def StoreCall.token? {P : Type*} : StoreCall P → Option String
  | .markSucceeded _ leaseToken _ => some leaseToken
  | .markFailed _ leaseToken .. => some leaseToken
  | _ => none

namespace OutboxSystem
variable {ι P : Type*} {s t : OutboxSystem ι P} {claim : OutboxClaim P}

/-- A call that settles a row is refused, or it marks the row and leaves one event. -/
theorem settling_cases (store : InMemorySettlementOutboxStore P) {c : StoreCall P} {token : String}
    (hc : c.token? = some token) :
    (outboxEvents (c, (perform store c).1) = [] ∧ (perform store c).2 = store) ∨
    ∃ event id f, outboxEvents (c, (perform store c).1) = [event] ∧ event.claim? = none ∧
      event.settled? = some token ∧ (perform store c).2 = (store.mark id token f).2 := by
  cases c with
  | enqueue effect clock now => cases hc
  | claimDue limit leaseMs now => cases hc
  | markSucceeded id token' processedAt =>
    obtain rfl : token' = token := Option.some.inj hc
    rcases mark_cases store id token' (fun row => row.succeed processedAt) with
      hrefused | ⟨row,_,_,_,haccepted⟩
    · exact Or.inl (by simp [perform, markSucceeded, hrefused, outboxEvents])
    · refine Or.inr ⟨.succeeded id token', id, fun row => row.succeed processedAt, ?_, rfl, rfl,
        rfl⟩
      simp [perform, markSucceeded, haccepted, outboxEvents]
  | markFailed id token' error retryAt dead now =>
    obtain rfl : token' = token := Option.some.inj hc
    rcases mark_cases store id token' (fun row => row.failWith error retryAt dead now) with
      hrefused | ⟨row,_,_,_,haccepted⟩
    · exact Or.inl (by simp [perform, markFailed, hrefused, outboxEvents])
    · refine Or.inr ⟨.failed id token', id, fun row => row.failWith error retryAt dead now, ?_, rfl,
        rfl, rfl⟩
      simp [perform, markFailed, haccepted, outboxEvents]

theorem settled_of_failed {history : List (OutboxEvent P)} {id token : String}
    (h : .failed id token ∈ history) : token ∈ settledTokens history :=
  List.mem_filterMap.mpr ⟨_, h, rfl⟩

theorem settledTokens_of_token {c : StoreCall P} {token : String} (hc : c.token? = some token)
    (store : InMemorySettlementOutboxStore P) :
    settledTokens (outboxEvents (c, (perform store c).1)) ⊆ [token] := by
  rcases settling_cases store hc with ⟨hevents,_⟩ | ⟨event,id,f,hevents,_,hsettled,_⟩
  · rw [hevents]
    exact List.nil_subset _
  · rw [hevents]
    simp [settledTokens, hsettled]

theorem Settles.token_eq {c : StoreCall P} (hc : Settles claim c) :
    c.token? = some claim.leaseToken := by
  cases hc <;> rfl

/-- A call that settles a claim leaves at most the event of its token behind. -/
theorem settled_outboxEvents (store : InMemorySettlementOutboxStore P) {c : StoreCall P}
    (hc : Settles claim c) :
    settledTokens (outboxEvents (c, (perform store c).1)) ⊆ [claim.leaseToken] :=
  settledTokens_of_token hc.token_eq store

theorem history_call (s : OutboxSystem ι P) (c : StoreCall P) :
    history (s.call c).log = history s.log ++ outboxEvents (c, (perform s.store c).1) :=
  history_snoc _ _

theorem settledTokens_call {c : StoreCall P} (hc : Settles claim c) :
    settledTokens (history (s.call c).log) ⊆
      settledTokens (history s.log) ++ [claim.leaseToken] := by
  rw [history_call, settledTokens_append]
  apply List.append_subset.mpr
  exact ⟨List.subset_append_left _ _,
    fun token htoken => List.mem_append_right _ (settled_outboxEvents s.store hc htoken)⟩

/-- Calls that enqueue or claim settle nothing. -/
theorem settledTokens_call_of_quiet {c : StoreCall P}
    (hc : settledTokens (outboxEvents (c, (perform s.store c).1)) = []) :
    settledTokens (history (s.call c).log) = settledTokens (history s.log) := by
  rw [history_call, settledTokens_append, hc, List.append_nil]

theorem failed_of_quiet {c : StoreCall P}
    (hc : settledTokens (outboxEvents (c, (perform s.store c).1)) = []) {id token : String}
    (h : .failed id token ∈ history (s.call c).log) : .failed id token ∈ history s.log := by
  rw [history_call] at h
  rcases List.mem_append.mp h with hold | hnew
  · exact hold
  · have htoken := settled_of_failed hnew
    rw [hc] at htoken
    cases htoken

theorem quiet_claimDue (store : InMemorySettlementOutboxStore P) (limit leaseMs now : ℤ) :
    settledTokens (outboxEvents (.claimDue limit leaseMs now,
      (perform store (.claimDue limit leaseMs now)).1)) = [] := by
  simp [perform, outboxEvents, settledTokens, OutboxEvent.settled?]

theorem quiet_enqueue (store : InMemorySettlementOutboxStore P) (effect : SettlementSideEffect P)
    (clock now : ℤ) : settledTokens (outboxEvents (.enqueue effect clock now,
      (perform store (.enqueue effect clock now)).1)) = [] :=
  rfl

/-- Only the call of the token itself can mark its row failed. -/
theorem failed_of_call {c : StoreCall P} (hc : Settles claim c) {id token : String}
    (h : .failed id token ∈ history (s.call c).log) (hne : token ≠ claim.leaseToken) :
    .failed id token ∈ history s.log := by
  rw [history_call] at h
  rcases List.mem_append.mp h with hold | hnew
  · exact hold
  · have htoken := settled_outboxEvents s.store hc (settled_of_failed hnew)
    exact absurd (List.mem_singleton.mp htoken) hne

/-- A success marks no row failed. -/
theorem failed_of_markSucceeded {id' token' : String} {processedAt : ℤ} {id token : String}
    (h : .failed id token ∈ history (s.call (.markSucceeded id' token' processedAt)).log) :
    .failed id token ∈ history s.log := by
  rw [history_call] at h
  rcases List.mem_append.mp h with hold | hnew
  · exact hold
  · rcases mark_cases s.store id' token' (fun row => row.succeed processedAt) with
      hrefused | ⟨row,_,_,_,haccepted⟩
    · simp [perform, markSucceeded, hrefused, outboxEvents] at hnew
    · simp [perform, markSucceeded, haccepted, outboxEvents] at hnew

/-- Only a row that is processing under the token is marked failed. -/
theorem failed_markFailed_iff {id' token' : String} (error : Utf16) (retryAt : ℤ) (dead : Bool)
    (now : ℤ) {id token : String} : .failed id token ∈ history
        (s.call (.markFailed id' token' error retryAt dead now)).log ↔
      .failed id token ∈ history s.log ∨ (id = id' ∧ token = token') ∧
        ∃ row, s.store.rows.get id' = some row ∧ row.status = .processing ∧
          row.leaseToken = some token' := by
  rw [history_call, List.mem_append]
  apply or_congr_right
  rcases mark_cases s.store id' token' (fun row => row.failWith error retryAt dead now) with
    hrefused | ⟨row,hrow,hstatus,htoken,haccepted⟩
  · refine iff_of_false ?_ ?_
    · simp [perform, markFailed, hrefused, outboxEvents]
    · rintro ⟨_,row,hrow,hstatus,htoken⟩
      -- a row that fits would have been marked
      simp [mark, hrow, hstatus, htoken] at hrefused
  · have hfits : ∃ row, s.store.rows.get id' = some row ∧ row.status = .processing ∧
        row.leaseToken = some token' := ⟨row, hrow, hstatus, htoken⟩
    rw [and_iff_left hfits]
    simp [perform, markFailed, haccepted, outboxEvents]

/-- What the rows of `t` say of errors and dead rows stood in those of `s`. -/
def ErrorsKept (s t : InMemorySettlementOutboxStore P) : Prop :=
  ∀ id row', t.rows.get id = some row' → ∃ row, s.rows.get id = some row ∧
    row'.lastError = row.lastError ∧ (row'.status = .dead → row.status = .dead)

theorem errorsKept_set {store t u : InMemorySettlementOutboxStore P} (h : ErrorsKept store t)
    {row row' : SettlementOutbox P} {id : String} (hrow : t.rows.get id = some row)
    (hset : u.rows = t.rows.set id row') (herror : row'.lastError = row.lastError)
    (halive : row'.status ≠ .dead) : ErrorsKept store u := by
  intro id' r hr
  rw [hset, InsertionMap.get_set] at hr
  split_ifs at hr with hid
  · obtain rfl := Option.some.inj hr
    obtain ⟨old,hold,hsame,_⟩ := h id row hrow
    exact ⟨old, hid ▸ hold, herror.trans hsame, fun hdead => absurd hdead halive⟩
  · exact h id' r hr

theorem errorsKept_claimDue {store : InMemorySettlementOutboxStore P} (h : store.Indexed)
    (limit leaseMs now : ℤ) : ErrorsKept store (store.claimDue limit leaseMs now).2 := by
  rw [claimDue_eq]
  apply claimRows_invariant leaseMs now (fun _ t => ErrorsKept store t)
    (h.taken_ids_nodup limit now)
  · intro claims t row hrow hget ht
    refine errorsKept_set ht hget rfl rfl ?_
    intro hstatus
    cases hstatus
  · exact fun row hrow => h.get_of_mem (mem_taken hrow).1
  · exact fun id row' hrow' => ⟨row', hrow', rfl, fun hdead => hdead⟩

/-- A row gets an error or becomes dead only by a call that marks it failed for its claim. -/
theorem failed_of_row_changed {log : OutboxLog P} {store : InMemorySettlementOutboxStore P}
    (h : LeaseInvariant (history log) store) {c : StoreCall P} {id : String}
    {row row' : SettlementOutbox P} (hrow : store.rows.get id = some row)
    (hrow' : (perform store c).2.rows.get id = some row')
    (hchanged : row'.lastError ≠ row.lastError ∨ (row'.status = .dead ∧ row.status ≠ .dead)) :
    ∃ token, row.leaseToken = some token ∧
      .failed id token ∈ outboxEvents (c, (perform store c).1) := by
  have hkept : ¬ (row'.lastError = row.lastError ∧ (row'.status = .dead → row.status = .dead)) := by
    rintro ⟨herror,hdead⟩
    rcases hchanged with hne | ⟨hdead',halive⟩
    · exact hne herror
    · exact halive (hdead hdead')
  have hsame : row' ≠ row := by
    rintro rfl
    exact hkept ⟨rfl, fun hdead => hdead⟩
  cases c with
  | enqueue effect clock now =>
    have hold := kept_enqueue h hrow effect clock now
    exact absurd (Option.some.inj (hrow'.symm.trans hold)) hsame
  | claimDue limit leaseMs now =>
    obtain ⟨old,hold,hboth⟩ := errorsKept_claimDue h.indexed limit leaseMs now id row' hrow'
    obtain rfl := Option.some.inj (hrow.symm.trans hold)
    exact absurd hboth hkept
  | markSucceeded id' token processedAt =>
    rcases mark_cases store id' token (fun row => row.succeed processedAt) with
      hrefused | ⟨old,hold,_,_,haccepted⟩
    · simp only [perform, markSucceeded, hrefused] at hrow'
      exact absurd (Option.some.inj (hrow'.symm.trans hrow)) hsame
    · simp only [perform, markSucceeded, haccepted, InsertionMap.get_set] at hrow'
      split_ifs at hrow' with hid
      · obtain rfl := Option.some.inj hrow'
        obtain rfl := Option.some.inj (hold.symm.trans (hid ▸ hrow))
        exact absurd ⟨rfl, fun hdead => by cases hdead⟩ hkept
      · exact absurd (Option.some.inj (hrow'.symm.trans hrow)) hsame
  | markFailed id' token error retryAt dead now =>
    rcases mark_cases store id' token (fun row => row.failWith error retryAt dead now) with
      hrefused | ⟨old,hold,_,htoken,haccepted⟩
    · simp only [perform, markFailed, hrefused] at hrow'
      exact absurd (Option.some.inj (hrow'.symm.trans hrow)) hsame
    · simp only [perform, markFailed, haccepted, InsertionMap.get_set] at hrow'
      split_ifs at hrow' with hid
      · obtain rfl := hid
        obtain rfl := Option.some.inj (hold.symm.trans hrow)
        refine ⟨token, htoken, ?_⟩
        simp [perform, markFailed, haccepted, outboxEvents]
      · exact absurd (Option.some.inj (hrow'.symm.trans hrow)) hsame

variable [DecidableEq ι]

/-- A turn calls the store at most once. -/
theorem call_of_step {handlers : ι → String → Bool} {a : OutboxAction ι P}
    (h : step handlers s a = some t) :
    t.store = s.store ∨ ∃ c, t.store = (perform s.store c).2 ∧ t.log = (s.call c).log := by
  cases turn_of_step h with
  | tick now => exact Or.inl rfl
  | enqueue effect systemNow => exact Or.inr ⟨_, rfl, rfl⟩
  | claim i limit hcalled => exact Or.inr ⟨_, rfl, rfl⟩
  | start i claimedAt systemNow claim rest summary hworking => exact Or.inl rfl
  | settle i claim rest c summary hpending hrest hc => exact Or.inr ⟨c, rfl, rfl⟩
  | returned i systemNow summary => exact Or.inl rfl

/-- What a turn of worker `i` can do. -/
inductive Act (s : OutboxSystem ι P) (i : ι) : OutboxAction ι P → OutboxSystem ι P → Prop
  | claims (limit : ℤ) (h : s.workers i = .called) :
      Act s i (.claim i limit) ((s.call (.claimDue limit outboxLeaseMs s.now)).setWorker i
        (.working s.now (s.batch limit) {}))
  | starts (systemNow claimedAt : ℤ) (claim : OutboxClaim P) (rest : List (OutboxClaim P))
      (summary : OutboxSummary) (h : s.workers i = .working claimedAt (claim :: rest) summary) :
      Act s i (.next i systemNow)
        { s.setWorker i (.handling claimedAt s.now claim rest summary) with
          started := s.started ++ [claim] }
  | returns (systemNow : ℤ) (summary : OutboxSummary) :
      Act s i (.next i systemNow) (s.setWorker i (.returned summary))
  | settles {a : OutboxAction ι P} (c : StoreCall P) (claim : OutboxClaim P)
      (rest : List (OutboxClaim P)) (summary : OutboxSummary)
      (hpending : (s.workers i).pending = claim :: rest) (hc : Settles claim c) :
      Act s i a ((s.call c).setWorker i (.working (s.workers i).claimedAt rest summary))

/-- A call of `processDue` whose handler has resolved or failed goes on in its batch. -/
theorem act_of_handling {i : ι} {claimedAt startedAt : ℤ} {rest : List (OutboxClaim P)}
    {summary : OutboxSummary} (h : s.workers i = .handling claimedAt startedAt claim rest summary)
    (a : OutboxAction ι P) {c : StoreCall P} (hc : Settles claim c) (summary' : OutboxSummary) :
    Act s i a ((s.call c).setWorker i (.working claimedAt rest summary')) := by
  have hact : Act s i a
      ((s.call c).setWorker i (.working (s.workers i).claimedAt rest summary')) :=
    .settles c claim rest summary' (by rw [h]; rfl) hc
  rw [h] at hact
  exact hact

theorem step_rejected {handlers : ι → String → Bool} {i : ι} {message : Utf16} {systemNow : ℤ}
    (h : step handlers s (.settle i (.rejected message) systemNow) = some t) :
    ∃ claimedAt startedAt claim rest summary retryAt dead summary',
      s.workers i = .handling claimedAt startedAt claim rest summary ∧
      Settles claim
        (.markFailed claim.row.id claim.leaseToken message retryAt dead systemNow) ∧
      t = (s.call (.markFailed claim.row.id claim.leaseToken message retryAt dead
        systemNow)).setWorker i (.working claimedAt rest summary') := by
  simp only [step] at h
  split at h
  · rename_i claimedAt startedAt claim rest summary hhandling
    obtain rfl := Option.some.inj h
    refine ⟨claimedAt, startedAt, claim, rest, summary, _, _, _, hhandling, ?_, rfl⟩
    apply Settles.failed
    intro hretry
    simpa using hretry
  · cases h

theorem step_resolved {handlers : ι → String → Bool} {i : ι} {systemNow : ℤ}
    (h : step handlers s (.settle i .resolved systemNow) = some t) :
    ∃ claimedAt startedAt claim rest summary summary',
      s.workers i = .handling claimedAt startedAt claim rest summary ∧
      t = (s.call (.markSucceeded claim.row.id claim.leaseToken s.now)).setWorker i
        (.working claimedAt rest summary') := by
  simp only [step] at h
  split at h
  · rename_i claimedAt startedAt claim rest summary hhandling
    obtain rfl := Option.some.inj h
    exact ⟨claimedAt, startedAt, claim, rest, summary, _, hhandling, rfl⟩
  · cases h

theorem act_of_step {handlers : ι → String → Bool} {i : ι} {a : OutboxAction ι P}
    (h : step handlers s a = some t) (hi : a.worker = some i) : Act s i a t := by
  cases a with
  | tick now => cases hi
  | enqueue effect systemNow => cases hi
  | claim j limit =>
    obtain rfl := Option.some.inj hi
    simp only [step] at h
    split at h
    · obtain rfl := Option.some.inj h
      exact .claims limit ‹_›
    · cases h
  | next j systemNow =>
    obtain rfl := Option.some.inj hi
    simp only [step] at h
    split at h
    · obtain rfl := Option.some.inj h
      exact .returns systemNow _
    · rename_i claimedAt claim rest summary hworking
      by_cases hhandler : handlers j claim.row.eventType = true
      · rw [if_pos hhandler] at h
        obtain rfl := Option.some.inj h
        exact .starts systemNow claimedAt claim rest summary hworking
      · -- an event type without a handler is marked failed at once
        rw [if_neg hhandler] at h
        obtain rfl := Option.some.inj h
        have hat : claimedAt = (s.workers j).claimedAt := by rw [hworking]; rfl
        rw [hat]
        exact .settles _ claim rest _ (by rw [hworking]; rfl) (.failed _ _ _ _ (by simp))
    · cases h
  | settle j outcome systemNow =>
    obtain rfl := Option.some.inj hi
    cases outcome with
    | resolved =>
      obtain ⟨claimedAt,startedAt,claim,rest,summary,summary',hhandling,rfl⟩ := step_resolved h
      exact act_of_handling hhandling _ (.succeeded _) summary'
    | rejected message =>
      obtain ⟨claimedAt,startedAt,claim,rest,summary,retryAt,dead,summary',hhandling,hc,rfl⟩ :=
        step_rejected h
      exact act_of_handling hhandling _ hc summary'

end OutboxSystem

end StreamPay
