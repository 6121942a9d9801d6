import StreamPay.StreamLifecycle

/-! Optimistic locking by `updatedAt`: a PATCH may carry the value that it has
read, and is performed only while the row still has it. -/
namespace StreamPay
open Interleaving StreamRepository

/-- The stream and the lock value of a PATCH that has succeeded. -/
def lockUsed : StreamStatement × StatementResult → Option (Uuid × Date)
  | (.updateById text _ (some token) _, .updated (some _)) =>
    (parseUuid text).map fun id => (id, token)
  | _ => none

/-- The stream and the lock value that a PATCH carries. -/
def carriedLock (runtime : StreamsRuntime) : StreamsRequest → Option (Uuid × Date)
  | .patch text body => (requestedLock runtime (orEmpty body)).join.bind fun token =>
      (parseUuid text).map fun id => (id, token)
  | _ => none

/-- The stream and the lock value that a statement carries. -/
def lockOf : StreamStatement → Option (Uuid × Date)
  | .updateById text _ (some token) _ => (parseUuid text).map fun id => (id, token)
  | _ => none

/-- The stream whose `updatedAt` a statement is about to set, and to what. -/
def aboutToSet (table : StreamsTable) : StreamStatement → Option (Uuid × Date)
  | .updateById text _ currentUpdatedAt clock => (parseUuid text).bind fun id =>
      if (table.findRow id).any (isCurrent currentUpdatedAt) then some (id, clock) else none
  | .restoreById text clock => (parseUuid text).bind fun id =>
      if (table.findRow id).any fun row => row.deletedAt.isSome then some (id, clock) else none
  | _ => none

namespace StreamsSystem
variable {ι : Type*}

/-- The lock with which request `i` has succeeded. -/
def succeededWith (s : StreamsSystem ι) (i : ι) : Option (Uuid × Date) :=
  (s.progress i).outcome.bind lockUsed

def isAnsweredOk (s : StreamsSystem ι) (i : ι) : Bool :=
  match s.progress i with
  | .answered _ (.stream 200 _ _) => true
  | _ => false

/-- The statement that request `i` has sent and that is still to be performed. -/
def pending (s : StreamsSystem ι) (i : ι) : Option StreamStatement :=
  match s.progress i with
  | .sent statement => some statement
  | _ => none

/-- A write that is about to set `updatedAt` does not set it to a value that a
PATCH of the stream has succeeded with, nor to the value that it asks for. -/
def ClockMovesOn (s : StreamsSystem ι) : StreamsAction ι → Prop
  | .execute i _ _ => ∀ statement ∈ s.pending i, ∀ lock ∈ aboutToSet s.table statement,
      (∀ j, s.succeededWith j ≠ some lock) ∧ lockOf statement ≠ some lock
  | _ => True

/-- A lock that was used is off its row, and was used by one request. -/
structure LockInvariant (s : StreamsSystem ι) : Prop where
  spent : ∀ i id token, s.succeededWith i = some (id, token) →
    ∃ row, s.table.findRow id = some row ∧ row.updatedAt ≠ Date.toTimestamp token
  once : Exclusive s.succeededWith

theorem lockInvariant_start (table : StreamsTable) :
    LockInvariant (start table : StreamsSystem ι) where
  spent i id token h := by simp [succeededWith, start, StreamsProgress.outcome] at h
  once i j lock h := by simp [succeededWith, start, StreamsProgress.outcome] at h

variable {s : StreamsSystem ι}

theorem toTimestamp_inj {a b : Date} (h : Date.toTimestamp a = Date.toTimestamp b) : a = b := by
  have hmul (m n : ℤ) : 1000*m = 1000*n → m = n := by omega
  exact hmul a b h

theorem ClockMovesOn.moves {i : ι} {generated : Uuid} {now : Timestamp}
    {statement : StreamStatement} {lock : Uuid × Date}
    (h : ClockMovesOn s (.execute i generated now)) (hsent : s.progress i = .sent statement)
    (hset : aboutToSet s.table statement = some lock) :
    (∀ j, s.succeededWith j ≠ some lock) ∧ lockOf statement ≠ some lock :=
  h statement (by simp [pending, hsent]) lock hset

section Executed
variable {i : ι} {generated : Uuid} {now : Timestamp} {statement : StreamStatement}
  {result : StatementResult} {table : StreamsTable} {id : Uuid} {token : Date}

/-- The lock that a statement uses was on its row, and is replaced by the clock. -/
theorem LockInvariant.used (h : LockInvariant s)
    (hclock : ClockMovesOn s (.execute i generated now)) (hsent : s.progress i = .sent statement)
    (heffect : Effect s.table generated now statement result table)
    (hused : lockUsed (statement, result) = some (id, token)) :
    (∃ row, table.findRow id = some row ∧ row.updatedAt ≠ Date.toTimestamp token) ∧
      ∀ j, s.succeededWith j ≠ some (id, token) := by
  unfold lockUsed at hused
  split at hused
  · rename_i text updates token' clock stream hpair
    obtain ⟨rfl,rfl⟩ := Prod.mk.inj hpair
    obtain ⟨id',hid,heq⟩ := Option.map_eq_some_iff.mp hused
    obtain ⟨rfl,rfl⟩ := Prod.mk.inj heq
    cases heffect with
    | unchanged hupdated _ => exact absurd rfl (hupdated stream)
    | updated _ id _ _ _ row _ hid' hrow hcurrent _ hrows =>
      obtain rfl := Option.some.inj (hid.symm.trans hid')
      have hset : aboutToSet s.table (.updateById text updates (some token') clock) =
          some (id', clock) := by
        simp [aboutToSet, hid, hrow, hcurrent]
      have hlock : lockOf (.updateById text updates (some token') clock) =
          some (id', token') := by
        simp [lockOf, hid]
      refine ⟨⟨_, by rw [hrows, if_pos rfl], fun he => ?_⟩, fun j hj => ?_⟩
      · obtain rfl : clock = token' := toTimestamp_inj he
        exact (hclock.moves hsent hset).2 hlock
      · -- a lock that was used before is off the row
        obtain ⟨row',hrow',hne⟩ := h.spent j id' token' hj
        obtain rfl := Option.some.inj (hrow.symm.trans hrow')
        simp only [isCurrent, Option.all_some, Bool.and_eq_true, decide_eq_true_eq] at hcurrent
        exact hne hcurrent.2
  · cases hused

/-- A lock that was used stays off its row. -/
theorem LockInvariant.stays_spent (h : LockInvariant s)
    (hclock : ClockMovesOn s (.execute i generated now)) (hsent : s.progress i = .sent statement)
    (heffect : Effect s.table generated now statement result table) {j : ι}
    (hj : s.succeededWith j = some (id, token)) :
    ∃ row, table.findRow id = some row ∧ row.updatedAt ≠ Date.toTimestamp token := by
  obtain ⟨row,hrow,hne⟩ := h.spent j id token hj
  obtain ⟨row',hrow',hchange⟩ := heffect.row hrow
  -- the clock is at no lock that was used
  have hmoves (clock : Date) (hset : aboutToSet s.table statement = some (id, clock)) :
      Date.toTimestamp clock ≠ Date.toTimestamp token := by
    intro he
    obtain rfl : clock = token := toTimestamp_inj he
    exact (hclock.moves hsent hset).1 j hj
  refine ⟨row', hrow', ?_⟩
  cases hchange with
  | kept _ => exact hne
  | patched text updates currentUpdatedAt clock hid hcurrent _ =>
    exact hmoves clock (by simp [aboutToSet, hid, hrow, hcurrent])
  | deleted text clock _ => exact hne
  | restored text clock hid hdeleted =>
    exact hmoves clock (by simp [aboutToSet, hid, hrow, Option.isSome_iff_ne_none.mpr hdeleted])

end Executed

variable [DecidableEq ι] {runtime : StreamsRuntime} {requests : ι → StreamsRequest}
  {t : StreamsSystem ι}

theorem succeededWith_execute (i j : ι) (statement : StreamStatement) (result : StatementResult)
    (table : StreamsTable) :
    StreamsSystem.succeededWith
        { s.setProgress i (.written statement result) with table := table } j =
      if j = i then lockUsed (statement, result) else s.succeededWith j := by
  rw [succeededWith, outcome_execute]
  split_ifs <;> rfl

theorem LockInvariant.turn (h : LockInvariant s) {a : StreamsAction ι} (hclock : ClockMovesOn s a)
    (ht : Turn s a t) : LockInvariant t := by
  cases ht with
  | idle htable hsame _ =>
    have hlocks : t.succeededWith = s.succeededWith := by
      funext i
      rw [succeededWith, hsame, succeededWith]
    constructor
    · rw [hlocks, htable]
      exact h.spent
    · rw [hlocks]
      exact h.once
  | execute i generated now statement result table hsent _ heffect =>
    constructor
    · intro j id token hj
      rw [succeededWith_execute] at hj
      split_ifs at hj with hji
      · exact (h.used hclock hsent heffect hj).1
      · exact h.stays_spent hclock hsent heffect hj
    · refine h.once.of_others (i := i) (fun j hji => ?_) fun lock hlock j _ => ?_
      · rw [succeededWith_execute, if_neg hji]
      · rw [succeededWith_execute, if_pos rfl] at hlock
        exact (h.used hclock hsent heffect hlock).2 j

theorem lockInvariant_of_reaches {table : StreamsTable}
    (hs : ReachesWhile (step runtime requests) ClockMovesOn (start table) s) : LockInvariant s :=
  hs.invariant LockInvariant (fun _ _ _ h hclock hstep => h.turn hclock (turn_of_step hstep))
    (lockInvariant_start table)

/-- A PATCH that is answered with 200 has used the lock that it carries. -/
theorem succeededWith_of_answered {C : StreamsSystem ι → StreamsAction ι → Prop}
    {table : StreamsTable} {i : ι} {lock : Uuid × Date}
    (hs : ReachesWhile (step runtime requests) C (start table) s)
    (hlock : carriedLock runtime (requests i) = some lock) (hi : s.isAnsweredOk i = true) :
    s.succeededWith i = some lock := by
  obtain ⟨outcome,stream,accruedEstimate,hanswered⟩ :
      ∃ outcome stream accruedEstimate,
        s.progress i = .answered outcome (.stream 200 stream accruedEstimate) := by
    unfold isAnsweredOk at hi
    split at hi
    · exact ⟨_, _, _, by assumption⟩
    · cases hi
  have hfrom := fromRequest_of_reaches hs i
  rw [hanswered] at hfrom
  cases hrequest : requests i with
  | create body => simp [hrequest, carriedLock] at hlock
  | delete text => simp [hrequest, carriedLock] at hlock
  | restore text => simp [hrequest, carriedLock] at hlock
  | patch text body =>
    rw [hrequest] at hlock hfrom
    obtain ⟨token,htoken,hid⟩ := Option.bind_eq_some_iff.mp hlock
    cases outcome with
    | none =>
      obtain ⟨now,herror⟩ := hfrom
      obtain ⟨issue,hanswer⟩ := prepare_patch_error herror
      cases hanswer
    | some outcome =>
      obtain ⟨statement,result⟩ := outcome
      obtain ⟨⟨⟨now,hprepare⟩,table,generated,time,hresult⟩,table',now',hanswer⟩ := hfrom
      obtain ⟨_,rfl⟩ := prepare_patch hprepare
      rw [hresult] at hanswer
      obtain ⟨stream',hupdated⟩ := updated_of_ok hanswer.symm
      rw [succeededWith, hanswered, hresult, hupdated, htoken]
      exact hid

/-- Of the PATCHes that carry the same `updatedAt` of a stream at most one
succeeds, if no write sets a value that a PATCH has used or asks for. -/
theorem at_most_one_update_per_lock {table : StreamsTable} {i j : ι} {lock : Uuid × Date}
    (hs : ReachesWhile (step runtime requests) ClockMovesOn (start table) s)
    (hi : carriedLock runtime (requests i) = some lock)
    (hj : carriedLock runtime (requests j) = some lock)
    (hiok : s.isAnsweredOk i = true) (hjok : s.isAnsweredOk j = true) : i = j :=
  (lockInvariant_of_reaches hs).once i j lock (succeededWith_of_answered hs hi hiok)
    (succeededWith_of_answered hs hj hjok)

section SampleLocks

instance (s : StreamsSystem (Fin 3)) (a : StreamsAction (Fin 3)) : Decidable (ClockMovesOn s a) := by
  unfold ClockMovesOn
  cases a <;> infer_instance

/-- A POST, and two PATCHes with the `updatedAt` that its answer has. -/
def racing (i : Fin 3) : StreamsRequest :=
  if i.val = 0 then sampleCreate
  else .patch sampleStreamId.text (.object [("updatedAt", .string "1970-01-01T00:00:01.000Z")])

def race (create first second : ι) (clock : Date) : List (StreamsAction ι) :=
  [.send create 1000, .execute create sampleStreamId 1000000, .send first clock,
    .send second clock, .execute first sampleStreamId 1000000,
    .execute second sampleStreamId 1000000, .respond first clock, .respond second clock]

theorem second_update_refused :
    ∃ s, ReachesWhile (step sampleStreamsRuntime racing) ClockMovesOn (start noStreams) s ∧
      ∀ j ≠ 0, s.isAnsweredOk j = true ↔ j = 1 := by
  have hrun : (execWhile (step sampleStreamsRuntime racing) ClockMovesOn (start noStreams)
      (race 0 1 2 1001)).map (fun s => s.isAnsweredOk 1) = some true := by
    decide +kernel
  obtain ⟨s,hs,hfirst⟩ := Option.map_eq_some_iff.mp hrun
  have hlock : ∀ j ≠ 0,
      carriedLock sampleStreamsRuntime (racing j) = some (sampleStreamId, 1000) := by
    decide +kernel
  refine ⟨s, reachesWhile_of_execWhile _ hs, fun j hj => ⟨fun hok => ?_, fun he => he ▸ hfirst⟩⟩
  exact at_most_one_update_per_lock (reachesWhile_of_execWhile _ hs) (hlock j hj)
    (hlock 1 (by decide)) hok hfirst

/-- In one millisecond both PATCHes succeed. -/
theorem same_lock_used_twice :
    ¬ ∀ (runtime : StreamsRuntime) (requests : Fin 3 → StreamsRequest) (s : StreamsSystem (Fin 3))
      (i j : Fin 3) (lock : Uuid × Date),
      Reaches (step runtime requests) (start noStreams) s →
      carriedLock runtime (requests i) = some lock →
      carriedLock runtime (requests j) = some lock →
      s.isAnsweredOk i = true → s.isAnsweredOk j = true → i = j := by
  intro h
  have hrun : (exec (step sampleStreamsRuntime racing) (start noStreams) (race 0 1 2 1000)).map
      (fun s => (s.isAnsweredOk 1, s.isAnsweredOk 2)) = some (true, true) := by
    decide +kernel
  obtain ⟨s,hs,hok⟩ := Option.map_eq_some_iff.mp hrun
  obtain ⟨hfirst,hsecond⟩ := Prod.mk.inj hok
  have hsame := h sampleStreamsRuntime racing s 1 2 (sampleStreamId, 1000) (reaches_of_exec _ hs)
    (by decide +kernel) (by decide +kernel) hfirst hsecond
  exact absurd hsame (by decide)

end SampleLocks

end StreamsSystem

end StreamPay
