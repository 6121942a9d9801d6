import StreamPay.Library.LeaseHistory
import StreamPay.SettlementOutboxDatabase

/-! The leases that the PostgreSQL outbox gives out while statements run side by side: the
story of every row is the history of one lease. -/
namespace StreamPay
open Interleaving SettlementOutboxRepository LeaseHistory

namespace SettlementOutboxTable
variable {P : Type*} (table : SettlementOutboxTable P)

theorem rowById_id {table : SettlementOutboxTable P} {id : String} {row : SettlementOutbox P}
    (h : table.rowById id = some row) : row.id = id := by
  simpa using List.find?_some h

theorem rowById_of_mem {table : SettlementOutboxTable P} {row : SettlementOutbox P}
    (h : row ∈ table.rows) : table.rowById row.id = some row := by
  cases hrow : table.rowById row.id with
  | none => exact absurd (List.find?_eq_none.mp hrow row h) (by simp)
  | some other =>
    have hmem := List.mem_of_find?_eq_some hrow
    rw [List.inj_on_of_nodup_map table.ids_nodup hmem h (rowById_id hrow)]

theorem rowById_update (f : RowUpdate P) (id : String) :
    (table.update f).rowById id = (table.rowById id).map f.apply := by
  simp only [rowById, update, List.find?_map, Function.comp_def, f.id_eq]

/-- An update of the rows that a test selects by their id. -/
theorem rowById_update_onlyIf (f : RowUpdate P) (test : SettlementOutbox P → Bool) (id : String) :
    (table.update (f.onlyIf test)).rowById id =
      (table.rowById id).map fun row => if test row then f.apply row else row :=
  rowById_update table (f.onlyIf test) id

theorem rowById_insert {table table' : SettlementOutboxTable P} {row : SettlementOutbox P}
    (h : table.insert row = some table') (id : String) :
    table'.rowById id = (table.rowById id).or (if row.id = id then some row else none) := by
  rw [rowById, (insert_eq_some h).2.2, List.find?_append, rowById]
  congr 1
  by_cases hid : row.id = id <;> simp [hid]

end SettlementOutboxTable

namespace SettlementOutboxRepository
variable {P : Type*} (table : SettlementOutboxTable P)

/-- What is stored of a side effect waits for its first attempt, under no lease. -/
theorem storedRow_newRow {driver : OutboxDriver P} {effect : SettlementSideEffect P}
    {input : NewSettlementOutbox P} {clock now : ℤ} {generated : Uuid} {row : SettlementOutbox P}
    (hinput : SettlementOutboxService.newRow effect clock = .ok input)
    (hstored : storedRow driver input generated now = some row) :
    row.status = .pending ∧ row.attempts = 0 ∧ row.availableAt = clock ∧ row.leaseToken = none ∧
      row.leaseUntil = none := by
  unfold SettlementOutboxService.newRow at hinput
  split_ifs at hinput
  obtain rfl := Except.ok.inj hinput
  have hrow := storedAs_of_storedRow hstored
  have htoken : row.leaseToken = none := (Option.some.inj hrow.leaseToken).symm
  rw [hrow.eq]
  exact ⟨rfl, rfl, rfl, htoken, rfl⟩

/-- What an INSERT does to the row of an id. -/
theorem rowById_enqueue (driver : OutboxDriver P) (input : NewSettlementOutbox P)
    (generated : Uuid) (now : ℤ) (id : String) :
    (enqueue driver table input generated now).2.rowById id = table.rowById id ∨
      table.rowById id = none ∧ ∃ row, storedRow driver input generated now = some row ∧
        (enqueue driver table input generated now).2.rowById id = some row := by
  rcases enqueue_cases driver table input generated now with
    hsame | ⟨row,table',hstored,hinsert,hafter⟩
  · exact Or.inl (by rw [hsame])
  · rw [hafter, SettlementOutboxTable.rowById_insert hinsert]
    cases table.rowById id with
    | some other => exact Or.inl rfl
    | none =>
      by_cases hid : row.id = id
      · exact Or.inr ⟨rfl, row, hstored, by rw [if_pos hid, Option.none_or]⟩
      · exact Or.inl (by rw [if_neg hid, Option.none_or])

theorem rowById_claimRows (driver : OutboxDriver P) (ids : List String) (query : ClaimQuery)
    (id : String) : (claimRows driver table ids query).2.rowById id = if id ∈ ids then
      (table.rowById id).map (lease query.leaseMs query.now query.token).apply
      else table.rowById id := by
  rw [claimRows, SettlementOutboxTable.rowById_update_onlyIf]
  cases hrow : table.rowById id with
  | none => simp
  | some row =>
    rw [Option.map_some, SettlementOutboxTable.rowById_id hrow]
    by_cases hid : id ∈ ids <;> simp [hid]

/-- A mark changes the row that it names, while that has the token. -/
theorem rowById_mark (id token : String) (f : RowUpdate P) (other : String) :
    (mark table id token f).2.rowById other =
      if other = id ∧ ((table.rowById id).any fun row => row.leaseToken = some token) = true then
        (table.rowById other).map f.apply
      else table.rowById other := by
  rw [mark, SettlementOutboxTable.rowById_update_onlyIf]
  cases hrow : table.rowById other with
  | none => simp
  | some row =>
    rw [Option.map_some, SettlementOutboxTable.rowById_id hrow]
    by_cases hid : other = id
    · subst hid
      by_cases htoken : row.leaseToken = some token <;> simp [hrow, htoken]
    · simp [hid]

end SettlementOutboxRepository

def DatabaseWorker.isClaiming {P : Type*} : DatabaseWorker P → Bool
  | .claiming _ _ _ => true
  | _ => false

namespace OutboxDatabase
variable {ι P : Type*} [DecidableEq ι] {driver : OutboxDriver P} {handlers : ι → String → Bool}
  {s t : OutboxDatabase ι P}

theorem workers_setWorker (s : OutboxDatabase ι P) (i j : ι) (worker : DatabaseWorker P) :
    (s.setWorker i worker).workers j = if j = i then worker else s.workers j :=
  Function.update_apply s.workers i worker j

/-- What the statements of a turn do to the table. -/
inductive TableStep (driver : OutboxDriver P) (s : OutboxDatabase ι P) :
    DatabaseAction ι P → SettlementOutboxTable P → Prop
  | same {a : DatabaseAction ι P} : eventOf s a = none → TableStep driver s a s.table
  | enqueue (effect : SettlementSideEffect P) (input : NewSettlementOutbox P) (generated : Uuid)
      (systemNow : ℤ) : SettlementOutboxService.newRow effect s.now = .ok input →
      TableStep driver s (.enqueue effect generated systemNow)
        (enqueue driver s.table input generated systemNow).2
  | commit (i : ι) (query : ClaimQuery) (left locked : List String) :
      s.workers i = .claiming query left locked →
      TableStep driver s (.commit i) (claimRows driver s.table locked query).2
  | succeed (i : ι) (outcome : MarkOutcome) (claim : OutboxClaim P) (rest : List (OutboxClaim P))
      (summary : OutboxSummary) (processedAt : ℤ) :
      s.workers i = .acknowledging claim rest summary processedAt →
      s.locks claim.row.id = none →
      eventOf s (.acknowledge i outcome) = s.endedBy claim .returns →
      TableStep driver s (.acknowledge i outcome)
        (mark s.table claim.row.id claim.leaseToken (succeeding processedAt)).2
  | failWith (i : ι) (outcome : MarkOutcome) (systemNow : ℤ) (claim : OutboxClaim P)
      (rest : List (OutboxClaim P)) (summary : OutboxSummary) (error lastError : Utf16)
      (retryAt : ℤ) (isDead : Bool) :
      s.workers i = .failing claim rest summary error retryAt isDead →
      s.locks claim.row.id = none →
      eventOf s (.fail i outcome systemNow) = s.endedBy claim .returns →
      TableStep driver s (.fail i outcome systemNow) (mark s.table claim.row.id claim.leaseToken
        (failing lastError retryAt isDead systemNow)).2

theorem tableStep_of_move {a : DatabaseAction ι P} (ht : Move driver handlers s a t) :
    TableStep driver s a t.table := by
  cases ht with
  | tick | decline | claim | lock | skip | finish | handle | giveUp | resolve | reject | crash =>
    exact .same rfl
  | enqueue effect input generated systemNow hinput =>
    exact .enqueue effect input generated systemNow hinput
  | commit i query left locked hclaiming => exact .commit i query left locked hclaiming
  | acknowledge i outcome worker claim rest summary processedAt hworker hfree heffect _ =>
    refine .succeed i outcome claim rest summary processedAt hworker hfree ?_
    simp only [eventOf, hworker, endedBy, heffect]
    rfl
  | unacknowledged i message claim rest summary processedAt hworker =>
    refine .same ?_
    simp only [eventOf, hworker]
    rfl
  | fail i outcome systemNow worker claim rest summary error lastError retryAt isDead hworker hfree
      heffect _ =>
    refine .failWith i outcome systemNow claim rest summary error lastError retryAt isDead hworker
      hfree ?_
    simp only [eventOf, hworker, endedBy, heffect]
    rfl
  | unfailed i message systemNow claim rest summary error retryAt isDead hworker =>
    refine .same ?_
    simp only [eventOf, hworker]
    rfl

/-- What a turn does to the call of a worker; only its own turns do anything. -/
inductive WorkerStep (driver : OutboxDriver P) (handlers : ι → String → Bool) (s : OutboxDatabase ι P)
    (j : ι) : DatabaseAction ι P → DatabaseWorker P → Prop
  | same {a : DatabaseAction ι P} : WorkerStep driver handlers s j a (s.workers j)
  | claim (limit : ℤ) (token : String) : s.workers j = .called →
      WorkerStep driver handlers s j (.claim j limit token)
        (.claiming ⟨limit, outboxLeaseMs, s.now, token⟩ (dueIds s.table s.now) [])
  | lock (query : ClaimQuery) (id : String) (left locked : List String) :
      s.workers j = .claiming query (id :: left) locked → s.canLock query id = true →
      WorkerStep driver handlers s j (.visit j) (.claiming query left (locked ++ [id]))
  | skip (query : ClaimQuery) (id : String) (left locked : List String) :
      s.workers j = .claiming query (id :: left) locked → s.canLock query id = false →
      WorkerStep driver handlers s j (.visit j) (.claiming query left locked)
  | commit (query : ClaimQuery) (left locked : List String) :
      s.workers j = .claiming query left locked →
      WorkerStep driver handlers s j (.commit j)
        (.working (claimRows driver s.table locked query).1 {})
  | returned (summary : OutboxSummary) : s.workers j = .working [] summary →
      WorkerStep driver handlers s j (.next j) (.returned summary)
  | handle (claim : OutboxClaim P) (rest : List (OutboxClaim P)) (summary : OutboxSummary) :
      s.workers j = .working (claim :: rest) summary →
      handlers j claim.row.eventType = true →
      WorkerStep driver handlers s j (.next j) (.handling claim rest summary)
  | noHandler (claim : OutboxClaim P) (rest : List (OutboxClaim P)) (summary : OutboxSummary) :
      s.workers j = .working (claim :: rest) summary →
      handlers j claim.row.eventType = false →
      WorkerStep driver handlers s j (.next j)
        (.failing claim rest summary (noHandler claim.row.eventType) s.now true)
  | resolved (claim : OutboxClaim P) (rest : List (OutboxClaim P)) (summary : OutboxSummary) :
      s.workers j = .handling claim rest summary →
      WorkerStep driver handlers s j (.settle j .resolved)
        (.acknowledging claim rest summary s.now)
  | rejected {a : DatabaseAction ι P} (claim : OutboxClaim P) (rest : List (OutboxClaim P))
      (summary : OutboxSummary) (message : Utf16) :
      s.workers j = .handling claim rest summary ∨
        (∃ processedAt, s.workers j = .acknowledging claim rest summary processedAt) →
      WorkerStep driver handlers s j a (s.rejectedClaim claim rest summary message)
  | settled {a : DatabaseAction ι P} (claim : OutboxClaim P) (rest : List (OutboxClaim P))
      (summary summary' : OutboxSummary) :
      (∃ processedAt, s.workers j = .acknowledging claim rest summary processedAt) ∨
        (∃ error retryAt isDead, s.workers j = .failing claim rest summary error retryAt isDead) →
      WorkerStep driver handlers s j a (.working rest summary')
  | threw {a : DatabaseAction ι P} : WorkerStep driver handlers s j a .threw

theorem workerStep_of_move {a : DatabaseAction ι P} (ht : Move driver handlers s a t) (j : ι) :
    WorkerStep driver handlers s j a (t.workers j) := by
  have hset {i : ι} {worker : DatabaseWorker P} (u : OutboxDatabase ι P)
      (hu : u.workers = s.workers) (hown : i = j → WorkerStep driver handlers s j a worker) :
      WorkerStep driver handlers s j a ((u.setWorker i worker).workers j) := by
    rw [workers_setWorker, hu]
    split_ifs with hj
    · exact hown hj.symm
    · exact .same
  cases ht with
  | tick | decline | enqueue => exact .same
  | claim i limit token hcalled => exact hset s rfl fun hi => hi ▸ .claim limit token hcalled
  | lock i query id left locked hclaiming hfree =>
    exact hset s rfl fun hi => hi ▸ .lock query id left locked hclaiming hfree
  | skip i query id left locked hclaiming hfree =>
    exact hset s rfl fun hi => hi ▸ .skip query id left locked hclaiming hfree
  | commit i query left locked hclaiming =>
    exact hset (s.unlock i) rfl fun hi => hi ▸ .commit query left locked hclaiming
  | finish i summary hworking => exact hset s rfl fun hi => hi ▸ .returned summary hworking
  | handle i claim rest summary hworking hhandler =>
    exact hset s rfl fun hi => hi ▸ .handle claim rest summary hworking hhandler
  | giveUp i claim rest summary hworking hhandler =>
    exact hset s rfl fun hi => hi ▸ .noHandler claim rest summary hworking hhandler
  | resolve i claim rest summary hhandling =>
    exact hset s rfl fun hi => hi ▸ .resolved claim rest summary hhandling
  | reject i claim rest summary message hhandling =>
    exact hset s rfl fun hi => hi ▸ .rejected claim rest summary message (Or.inl hhandling)
  | acknowledge i outcome worker claim rest summary processedAt hworker _ _ hnext =>
    refine hset s rfl ?_
    rintro rfl
    rcases hnext with rfl | ⟨message,rfl⟩
    · exact .settled claim rest summary _ (Or.inl ⟨processedAt, hworker⟩)
    · exact .rejected claim rest summary message (Or.inr ⟨processedAt, hworker⟩)
  | unacknowledged i message claim rest summary processedAt hworker =>
    exact hset s rfl fun hi =>
      hi ▸ .rejected claim rest summary message (Or.inr ⟨processedAt, hworker⟩)
  | fail i outcome systemNow worker claim rest summary error _ retryAt isDead hworker _ _ hnext =>
    refine hset s rfl ?_
    rintro rfl
    rcases hnext with rfl | rfl
    · exact .settled claim rest summary _ (Or.inr ⟨error, retryAt, isDead, hworker⟩)
    · exact .threw
  | unfailed => exact hset s rfl fun _ => .threw
  | crash i => exact hset (s.unlock i) rfl fun _ => .threw

/-- A worker that claims has begun to, has locked one more row, or goes on as it was. -/
theorem claiming_of_move {a : DatabaseAction ι P} (ht : Move driver handlers s a t) {j : ι}
    {query : ClaimQuery} {left locked : List String}
    (hnow : t.workers j = .claiming query left locked) :
    locked = [] ∨ (∃ left', s.workers j = .claiming query left' locked) ∨
      ∃ id locked', s.workers j = .claiming query (id :: left) locked' ∧
        locked = locked' ++ [id] ∧ s.canLock query id = true ∧ t.locks id = some j ∧
          t.table = s.table := by
  have hstep := workerStep_of_move ht j
  rw [hnow] at hstep
  generalize hworker : DatabaseWorker.claiming query left locked = worker at hstep
  cases hstep with
  | same => exact Or.inr (Or.inl ⟨left, hworker.symm⟩)
  | claim limit token _ =>
    obtain ⟨_,_,rfl⟩ := DatabaseWorker.claiming.inj hworker
    exact Or.inl rfl
  | skip query' id left' locked' hclaiming _ =>
    obtain ⟨rfl,rfl,rfl⟩ := DatabaseWorker.claiming.inj hworker
    exact Or.inr (Or.inl ⟨id :: left, hclaiming⟩)
  | lock query' id left' locked' hclaiming hfree =>
    obtain ⟨rfl,rfl,rfl⟩ := DatabaseWorker.claiming.inj hworker
    refine Or.inr (Or.inr ⟨id, locked', hclaiming, rfl, hfree, ?_⟩)
    cases ht with
    | lock _ query'' id' left'' locked'' hbefore _ =>
      obtain ⟨_,hleft,_⟩ := DatabaseWorker.claiming.inj (hclaiming.symm.trans hbefore)
      obtain ⟨rfl,_⟩ := List.cons.inj hleft
      exact ⟨Function.update_self id (some j) s.locks, rfl⟩
    | skip _ query'' id' left'' locked'' hbefore hskipped =>
      obtain ⟨rfl,hleft,_⟩ := DatabaseWorker.claiming.inj (hclaiming.symm.trans hbefore)
      obtain ⟨rfl,_⟩ := List.cons.inj hleft
      rw [hfree] at hskipped
      cases hskipped
  | commit | returned | handle | noHandler | resolved | rejected | settled | threw => cases hworker

theorem isClaiming_of_commit {i : ι} (ht : Move driver handlers s (.commit i) t) :
    (t.workers i).isClaiming = false := by
  cases ht with
  | commit _ query left locked _ =>
    change (((s.unlock i).setWorker i _).workers i).isClaiming = false
    rw [workers_setWorker, if_pos rfl]
    rfl

/-- A worker keeps its locks until it commits or stops. -/
theorem locks_of_move {a : DatabaseAction ι P} (ht : Move driver handlers s a t) {j : ι}
    {id : String} (hlock : s.locks id = some j) (hclaiming : (t.workers j).isClaiming = true) :
    t.locks id = some j := by
  have hunlock {i : ι} {worker : DatabaseWorker P} (hworker : worker.isClaiming = false)
      (hset : (((s.unlock i).setWorker i worker).workers j).isClaiming = true) :
      (s.unlock i).locks id = some j := by
    have hij : j ≠ i := by
      rintro rfl
      rw [workers_setWorker, if_pos rfl, hworker] at hset
      cases hset
    rw [← hlock]
    apply if_neg
    rw [hlock]
    exact fun hsome => hij (Option.some.inj hsome)
  cases ht with
  | tick | decline | enqueue | claim | skip | finish | handle | giveUp | resolve | reject |
    acknowledge | unacknowledged | fail | unfailed => exact hlock
  | lock i query other left locked _ hfree =>
    rw [← hlock]
    apply Function.update_of_ne
    rintro rfl
    rw [canLock, hlock] at hfree
    cases hfree
  | commit i query left locked _ => exact hunlock rfl hclaiming
  | crash i => exact hunlock rfl hclaiming

theorem due_of_dueIds {table : SettlementOutboxTable P} {now : ℤ} {id : String}
    (h : id ∈ dueIds table now) : (table.rowById id).any (fun row => row.isDue now) = true := by
  obtain ⟨row,hrow,rfl⟩ := List.mem_map.mp h
  obtain ⟨hmem,hdue⟩ := List.mem_filter.mp ((List.mem_insertionSort _).mp hrow)
  rw [SettlementOutboxTable.rowById_of_mem hmem]
  exact hdue

theorem dueIds_nodup (table : SettlementOutboxTable P) (now : ℤ) : (dueIds table now).Nodup := by
  have hperm := (List.perm_insertionSort (fun a b : SettlementOutbox P => createdBefore a b = true)
    (table.rows.filter fun row => row.isDue now)).map SettlementOutbox.id
  rw [dueIds, hperm.nodup_iff]
  exact table.ids_nodup.sublist (List.filter_sublist.map _)

theorem candidates_eq_take (table : SettlementOutboxTable P) (limit now : ℤ) :
    candidates table limit now = (dueIds table now).take (max 1 (min limit 500)).toNat :=
  List.map_take

/-- A statement locks the next rows that it finds free and due, while it has room. -/
theorem exec_visits {i : ι} {query : ClaimQuery} (n : ℕ) {left locked : List String}
    {s : OutboxDatabase ι P} (hworker : s.workers i = .claiming query left locked)
    (hnodup : left.Nodup) (hfree : ∀ id ∈ left, s.canLock query id = true) (hn : n ≤ left.length)
    (hroom : locked.length+n ≤ query.boundedLimit) :
    ∃ t, exec (step driver handlers) s (List.replicate n (.visit i)) = some t ∧
      t.table = s.table ∧ t.workers i = .claiming query (left.drop n) (locked ++ left.take n) := by
  induction n generalizing left locked s with
  | zero => exact ⟨s, rfl, rfl, by rw [hworker, List.drop_zero, List.take_zero, List.append_nil]⟩
  | succ n ih =>
    cases left with
    | nil => cases hn
    | cons id left =>
      obtain ⟨hid,hnodup⟩ := List.nodup_cons.mp hnodup
      let locking : OutboxDatabase ι P :=
        { s.setWorker i (.claiming query left (locked ++ [id])) with
          locks := Function.update s.locks id (some i) }
      have hvisit : step driver handlers s (.visit i) = some locking := by
        simp only [step, hworker]
        rw [if_pos (by omega), if_pos (hfree id List.mem_cons_self)]
      have hlocking : locking.workers i = .claiming query left (locked ++ [id]) := by
        rw [show locking.workers = (s.setWorker i _).workers from rfl, workers_setWorker, if_pos rfl]
      have hothers (other : String) (hother : other ∈ left) : locking.canLock query other = true := by
        have hlock : locking.locks other = s.locks other :=
          Function.update_of_ne (ne_of_mem_of_not_mem hother hid) (some i) s.locks
        rw [canLock, hlock]
        exact hfree other (List.mem_cons_of_mem id hother)
      obtain ⟨t,ht,htable,hleft⟩ := ih hlocking hnodup hothers (Nat.le_of_succ_le_succ hn) (by
        rw [List.length_append, List.length_singleton]
        omega)
      refine ⟨t, ?_, htable, ?_⟩
      · rw [List.replicate_succ, exec, hvisit, Option.bind_some, ht]
      · rw [hleft, List.append_assoc, List.singleton_append, List.drop_succ_cons,
          List.take_succ_cons]

/-- A claim that meets no lock and no other turn is the statement of the repository. -/
theorem claim_alone {i : ι} (hcalled : s.workers i = .called) (hfree : ∀ id, s.locks id = none)
    (limit : ℤ) (token : String) :
    ∃ n t, exec (step driver handlers) s
        (.claim i limit token :: (List.replicate n (.visit i) ++ [.commit i])) = some t ∧
      t.table = (claimDue driver.readDate s.table limit outboxLeaseMs s.now token).2 ∧
      t.workers i =
        .working (claimDue driver.readDate s.table limit outboxLeaseMs s.now token).1 {} := by
  let query : ClaimQuery := ⟨limit, outboxLeaseMs, s.now, token⟩
  let snapshot := dueIds s.table s.now
  have hclaim : step driver handlers s (.claim i limit token) =
      some (s.setWorker i (.claiming query snapshot [])) := by
    simp only [step, hcalled]
    rfl
  let claiming := s.setWorker i (.claiming query snapshot [])
  let room := min query.boundedLimit snapshot.length
  have hclaiming : claiming.workers i = .claiming query snapshot [] := by
    rw [workers_setWorker, if_pos rfl]
  have hdue (id : String) (hid : id ∈ snapshot) : claiming.canLock query id = true := by
    rw [canLock, show claiming.locks = s.locks from rfl, hfree id]
    exact due_of_dueIds hid
  have hroom : ([] : List String).length+room ≤ query.boundedLimit := by
    rw [List.length_nil, Nat.zero_add]
    exact Nat.min_le_left _ _
  obtain ⟨t,ht,htable,hworker⟩ : ∃ t, exec (step driver handlers) claiming
      (List.replicate room (.visit i)) = some t ∧ t.table = claiming.table ∧
      t.workers i = .claiming query (snapshot.drop room) ([] ++ snapshot.take room) :=
    exec_visits room hclaiming (dueIds_nodup s.table s.now) hdue (Nat.min_le_right _ _) hroom
  have hids : snapshot.take room = candidates s.table limit s.now := by
    rw [candidates_eq_take, ← List.take_eq_take_min]
    rfl
  have hdone : snapshot.drop room = [] ∨ query.boundedLimit ≤ (snapshot.take room).length := by
    rw [List.drop_eq_nil_iff, List.length_take]
    omega
  rw [List.nil_append] at hworker
  have hrows : claimRows driver t.table (snapshot.take room) query =
      claimDue driver.readDate s.table limit outboxLeaseMs s.now token := by
    rw [htable, hids]
    rfl
  have hcommit : step driver handlers t (.commit i) = some
      { (t.unlock i).setWorker i
          (.working (claimDue driver.readDate s.table limit outboxLeaseMs s.now token).1 {}) with
        table := (claimDue driver.readDate s.table limit outboxLeaseMs s.now token).2 } := by
    simp only [step, hworker]
    rw [if_pos hdone, hrows]
  have hrun : exec (step driver handlers) s
      (.claim i limit token :: (List.replicate room (.visit i) ++ [.commit i])) = some
      { (t.unlock i).setWorker i
          (.working (claimDue driver.readDate s.table limit outboxLeaseMs s.now token).1 {}) with
        table := (claimDue driver.readDate s.table limit outboxLeaseMs s.now token).2 } := by
    rw [exec, hclaim, Option.bind_some, exec_append, ht, Option.bind_some, exec, hcommit]
    rfl
  refine ⟨room, _, hrun, rfl, ?_⟩
  exact (workers_setWorker (t.unlock i) i i _).trans (if_pos rfl)

/-- The lease that a row says it is under. -/
def leaseOf (table : SettlementOutboxTable P) (id : String) : Lease String ℤ :=
  match table.rowById id with
  | some row =>
    match row.leaseToken, row.leaseUntil with
    | some token, some deadline => .held token deadline
    | _, _ => .free
  | none => .free

def leaseEvent (id : String) : DatabaseEvent → Option (LeaseEvent String ℤ)
  | .claimed ids query => if id ∈ ids then
      some (.claimed query.token (query.now+max 1000 query.leaseMs) query.now) else none
  | .ended other token => if other = id then some (.ended token) else none

/-- What has been told of the lease of a row. -/
def leaseStory (id : String) (told : List DatabaseEvent) : List (LeaseEvent String ℤ) :=
  told.filterMap (leaseEvent id)

/-- Rows are leased while they are processing; locked rows are due for the statement that
has locked them; and what is told of a row is the history of its lease. -/
structure Leases (s : OutboxDatabase ι P) (told : List DatabaseEvent) : Prop where
  leased : ∀ id row, s.table.rowById id = some row →
    (row.status = .processing ∧ row.leaseToken.isSome = true ∧ row.leaseUntil.isSome = true) ∨
      (row.status ≠ .processing ∧ row.leaseToken = none ∧ row.leaseUntil = none)
  locked : ∀ i query left locked, s.workers i = .claiming query left locked → ∀ id ∈ locked,
    s.locks id = some i ∧ (s.table.rowById id).any (fun row => row.isDue query.now) = true
  story : ∀ id, Legal (leaseStory id told) (leaseOf s.table id)

variable {told : List DatabaseEvent}

omit [DecidableEq ι] in
/-- What a worker has locked only its own commit can change. -/
theorem Leases.row_of_locked (h : Leases s told) {a : DatabaseAction ι P}
    {table : SettlementOutboxTable P} (ht : TableStep driver s a table) {id : String} {j : ι}
    (hlock : s.locks id = some j) (hrow : s.table.rowById id ≠ none)
    (hcommit : a ≠ .commit j) : table.rowById id = s.table.rowById id := by
  have hmark {claim : OutboxClaim P} {f : RowUpdate P} (hfree : s.locks claim.row.id = none) :
      (mark s.table claim.row.id claim.leaseToken f).2.rowById id = s.table.rowById id := by
    rw [rowById_mark]
    apply if_neg
    rintro ⟨rfl,_⟩
    rw [hfree] at hlock
    cases hlock
  cases ht with
  | same _ => rfl
  | enqueue effect input generated systemNow _ =>
    exact (rowById_enqueue s.table driver input generated systemNow id).resolve_right
      fun hnew => hrow hnew.1
  | commit i query left locked hclaiming =>
    rw [rowById_claimRows]
    apply if_neg
    intro hid
    have hown := (h.locked i query left locked hclaiming id hid).1
    obtain rfl := Option.some.inj (hlock.symm.trans hown)
    exact hcommit rfl
  | succeed i outcome claim rest summary processedAt _ hfree _ => exact hmark hfree
  | failWith i outcome systemNow claim rest summary error lastError retryAt isDead _ hfree _ =>
    exact hmark hfree

omit [DecidableEq ι] in
theorem Leases.leased_of_tableStep (h : Leases s told) {a : DatabaseAction ι P}
    {table : SettlementOutboxTable P} (ht : TableStep driver s a table) (id : String)
    (row : SettlementOutbox P) (hrow : table.rowById id = some row) :
    (row.status = .processing ∧ row.leaseToken.isSome = true ∧ row.leaseUntil.isSome = true) ∨
      (row.status ≠ .processing ∧ row.leaseToken = none ∧ row.leaseUntil = none) := by
  have hmark {claim : OutboxClaim P} {f : RowUpdate P}
      (hended : ∀ row, (f.apply row).status ≠ .processing ∧ (f.apply row).leaseToken = none ∧
        (f.apply row).leaseUntil = none)
      (hrow : (mark s.table claim.row.id claim.leaseToken f).2.rowById id = some row) :
      (row.status = .processing ∧ row.leaseToken.isSome = true ∧ row.leaseUntil.isSome = true) ∨
        (row.status ≠ .processing ∧ row.leaseToken = none ∧ row.leaseUntil = none) := by
    rw [rowById_mark] at hrow
    split_ifs at hrow
    · obtain ⟨before,_,rfl⟩ := Option.map_eq_some_iff.mp hrow
      exact Or.inr (hended before)
    · exact h.leased id row hrow
  cases ht with
  | same _ => exact h.leased id row hrow
  | enqueue effect input generated systemNow hinput =>
    rcases rowById_enqueue s.table driver input generated systemNow id with
      hsame | ⟨_,new,hstored,hnew⟩
    · exact h.leased id row (hsame ▸ hrow)
    · obtain rfl := Option.some.inj (hnew.symm.trans hrow)
      obtain ⟨hstatus,_,_,htoken,huntil⟩ := storedRow_newRow hinput hstored
      exact Or.inr ⟨hstatus ▸ SettlementOutboxStatus.noConfusion, htoken, huntil⟩
  | commit i query left locked hclaiming =>
    rw [rowById_claimRows] at hrow
    split_ifs at hrow
    · obtain ⟨before,_,rfl⟩ := Option.map_eq_some_iff.mp hrow
      exact Or.inl ⟨rfl, rfl, rfl⟩
    · exact h.leased id row hrow
  | succeed i outcome claim rest summary processedAt _ _ _ =>
    exact hmark (fun _ => ⟨SettlementOutboxStatus.noConfusion, rfl, rfl⟩) hrow
  | failWith i outcome systemNow claim rest summary error lastError retryAt isDead _ _ _ =>
    refine hmark (fun before => ⟨?_, rfl, rfl⟩) hrow
    cases isDead <;> exact SettlementOutboxStatus.noConfusion

theorem leaseOf_congr {table table' : SettlementOutboxTable P} {id : String}
    (h : table'.rowById id = table.rowById id) : leaseOf table' id = leaseOf table id := by
  rw [leaseOf, leaseOf, h]

theorem leaseOf_of_row {table : SettlementOutboxTable P} {id : String} {row : SettlementOutbox P}
    (h : table.rowById id = some row) : leaseOf table id =
      match row.leaseToken, row.leaseUntil with
      | some token, some deadline => .held token deadline
      | _, _ => .free := by
  rw [leaseOf, h]

omit [DecidableEq ι] in
/-- A row that is due can be leased: it is under no lease, or its time is past. -/
theorem Leases.claimable (h : Leases s told) {id : String} {row : SettlementOutbox P}
    (hrow : s.table.rowById id = some row) {now : ℤ} (hdue : row.isDue now = true) (token : String)
    (deadline : ℤ) :
    (leaseOf s.table id).next (.claimed token deadline now) = some (.held token deadline) := by
  rw [leaseOf_of_row hrow]
  rcases h.leased id row hrow with ⟨hstatus,htoken,huntil⟩ | ⟨_,htoken,huntil⟩
  · obtain ⟨token',htoken⟩ := Option.isSome_iff_exists.mp htoken
    obtain ⟨expired,huntil⟩ := Option.isSome_iff_exists.mp huntil
    have hpast : expired < now := by
      simpa [SettlementOutbox.isDue, hstatus, huntil] using hdue
    rw [htoken, huntil]
    exact if_pos hpast
  · rw [htoken, huntil]
    rfl

theorem leaseStory_append (id : String) (told : List DatabaseEvent) (event : Option DatabaseEvent) :
    leaseStory id (told ++ event.toList) =
      leaseStory id told ++ (event.bind (leaseEvent id)).toList := by
  rw [leaseStory, List.filterMap_append]
  cases event with
  | none => rfl
  | some event => cases hevent : leaseEvent id event <;> simp [leaseStory, hevent]

/-- The story goes on as the row does. -/
theorem story_snoc {id : String} {lease lease' : Lease String ℤ} {event : Option DatabaseEvent}
    (h : Legal (leaseStory id told) lease)
    (hnext : match event.bind (leaseEvent id) with
      | none => lease' = lease
      | some event => lease.next event = some lease') :
    Legal (leaseStory id (told ++ event.toList)) lease' := by
  rw [leaseStory_append]
  cases hevent : event.bind (leaseEvent id) with
  | none =>
    rw [hevent] at hnext
    rw [Option.toList_none, List.append_nil, hnext]
    exact h
  | some event =>
    rw [hevent] at hnext
    exact h.snoc hnext

omit [DecidableEq ι] in
/-- A mark that finds its row ends the lease under which it does. -/
theorem Leases.story_of_mark (h : Leases s told) (claim : OutboxClaim P) {f : RowUpdate P}
    (hended : ∀ row, (f.apply row).leaseToken = none) (id : String) :
    Legal (leaseStory id (told ++ (s.endedBy claim .returns).toList))
      (leaseOf (mark s.table claim.row.id claim.leaseToken f).2 id) := by
  apply story_snoc (h.story id)
  have hmark := rowById_mark s.table claim.row.id claim.leaseToken f id
  by_cases hfound : ((s.table.rowById claim.row.id).any fun row =>
      row.leaseToken = some claim.leaseToken) = true
  · have hevent : s.endedBy claim .returns = some (.ended claim.row.id claim.leaseToken) := by
      rw [endedBy, hfound]
      rfl
    by_cases hid : id = claim.row.id
    · subst hid
      obtain ⟨row,hrow,htoken⟩ := (Option.any_eq_true _ _).mp hfound
      have htoken : row.leaseToken = some claim.leaseToken := of_decide_eq_true htoken
      rcases h.leased _ row hrow with ⟨_,_,huntil⟩ | ⟨_,hnone,_⟩
      · obtain ⟨deadline,huntil⟩ := Option.isSome_iff_exists.mp huntil
        rw [hevent, Option.bind_some, leaseEvent, if_pos rfl, leaseOf_of_row hrow, htoken, huntil]
        rw [if_pos ⟨rfl, hfound⟩, hrow, Option.map_some] at hmark
        rw [leaseOf_of_row hmark, hended row]
        exact if_pos rfl
      · rw [hnone] at htoken
        cases htoken
    · rw [hevent, Option.bind_some, leaseEvent, if_neg (Ne.symm hid)]
      rw [if_neg fun hboth => hid hboth.1] at hmark
      exact leaseOf_congr hmark
  · have hevent : s.endedBy claim .returns = none := by
      rw [endedBy, MarkOutcome.takesEffect, Bool.true_and, if_neg hfound]
    rw [hevent]
    rw [if_neg fun hboth => hfound hboth.2] at hmark
    exact leaseOf_congr hmark

omit [DecidableEq ι] in
theorem Leases.story_of_tableStep (h : Leases s told) {a : DatabaseAction ι P}
    {table : SettlementOutboxTable P} (ht : TableStep driver s a table) (id : String) :
    Legal (leaseStory id (told ++ (eventOf s a).toList)) (leaseOf table id) := by
  cases ht with
  | same hnone =>
    rw [hnone, Option.toList_none, List.append_nil]
    exact h.story id
  | enqueue effect input generated systemNow hinput =>
    have hevent : eventOf s (.enqueue effect generated systemNow) = none := rfl
    rw [hevent]
    apply story_snoc (h.story id)
    rcases rowById_enqueue s.table driver input generated systemNow id with
      hsame | ⟨hnone,new,hstored,hnew⟩
    · exact leaseOf_congr hsame
    · -- a new row is under no lease
      obtain ⟨_,_,_,htoken,_⟩ := storedRow_newRow hinput hstored
      rw [Option.bind_none, leaseOf_of_row hnew, htoken, leaseOf, hnone]
  | commit i query left locked hclaiming =>
    have hevent : eventOf s (.commit i) = some (.claimed locked query) := by
      simp only [eventOf, hclaiming]
    rw [hevent]
    apply story_snoc (h.story id)
    have hclaim := rowById_claimRows s.table driver locked query id
    rw [Option.bind_some, leaseEvent]
    by_cases hid : id ∈ locked
    · rw [if_pos hid]
      rw [if_pos hid] at hclaim
      obtain ⟨row,hrow,hdue⟩ :=
        (Option.any_eq_true _ _).mp (h.locked i query left locked hclaiming id hid).2
      rw [hrow, Option.map_some] at hclaim
      rw [leaseOf_of_row hclaim]
      exact h.claimable hrow hdue query.token _
    · rw [if_neg hid]
      rw [if_neg hid] at hclaim
      exact leaseOf_congr hclaim
  | succeed i outcome claim rest summary processedAt _ _ hevent =>
    rw [hevent]
    exact h.story_of_mark claim (fun _ => rfl) id
  | failWith i outcome systemNow claim rest summary error lastError retryAt isDead _ _ hevent =>
    rw [hevent]
    exact h.story_of_mark claim (fun _ => rfl) id

theorem Leases.move (h : Leases s told) {a : DatabaseAction ι P}
    (ht : Move driver handlers s a t) :
    Leases t (told ++ (eventOf s a).toList) where
  leased := h.leased_of_tableStep (tableStep_of_move ht)
  locked := by
    intro j query left locked hnow id hid
    have hclaiming : (t.workers j).isClaiming = true := by rw [hnow]; rfl
    have htable := tableStep_of_move ht
    -- a row that the worker has locked before is as it was
    have hkept (hlock : s.locks id = some j)
        (hdue : (s.table.rowById id).any (fun row => row.isDue query.now) = true) :
        t.locks id = some j ∧
          (t.table.rowById id).any (fun row => row.isDue query.now) = true := by
      refine ⟨locks_of_move ht hlock hclaiming, ?_⟩
      rw [h.row_of_locked htable hlock, hdue]
      · intro hnone
        rw [hnone] at hdue
        cases hdue
      · rintro rfl
        rw [isClaiming_of_commit ht] at hclaiming
        cases hclaiming
    rcases claiming_of_move ht hnow with rfl | ⟨left',hbefore⟩ | 
      ⟨new,locked',hbefore,rfl,hfree,hlock,hsame⟩
    · cases hid
    · obtain ⟨hlock,hdue⟩ := h.locked j query left' locked hbefore id hid
      exact hkept hlock hdue
    · rcases List.mem_append.mp hid with hold | hnew
      · obtain ⟨hlock,hdue⟩ := h.locked j query _ locked' hbefore id hold
        exact hkept hlock hdue
      · obtain rfl := List.mem_singleton.mp hnew
        rw [canLock, Bool.and_eq_true] at hfree
        exact ⟨hlock, hsame ▸ hfree.2⟩
  story := h.story_of_tableStep (tableStep_of_move ht)

section SampleDatabase

end SampleDatabase

end OutboxDatabase

end StreamPay
