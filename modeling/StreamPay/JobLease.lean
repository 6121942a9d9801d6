import StreamPay.Library.Lockstep
import StreamPay.Library.Redis

/-! Leases on queued jobs: the Redis lease, `SET NX PX` with an owner-checked
release, against the in-memory one. -/
namespace StreamPay
open Lockstep

def defaultJobLeaseTtlMs : ℕ := 30000

def jobLeasePrefix : String := "streampay:job-lease:"

def leaseKey (jobId : String) : String := jobLeasePrefix ++ jobId

def leaseValue (owner nonce : String) : String := owner ++ ":" ++ nonce

namespace RedisJobLease

/-- Without a client, or when Redis refuses the `SET`, nothing is claimed. -/
def acquire (client : Bool) (nonce : String) (redis : Redis) (jobId owner : String)
    (ttlMs : Option ℕ) : Bool × Redis :=
  if client then
    let (reply, redis) := redis.setNxPx (leaseKey jobId) (leaseValue owner nonce)
      (ttlMs.getD defaultJobLeaseTtlMs)
    (reply = .ok, redis)
  else (false, redis)

/-- The script: `DEL` the key when its value is the argument. -/
def releaseScript (redis : Redis) (key argument : String) : Redis :=
  if redis.get key = some argument then redis.del key else redis

def release (client : Bool) (redis : Redis) (jobId owner : String) : Redis :=
  if client then releaseScript redis (leaseKey jobId) owner else redis

end RedisJobLease

structure InMemoryJobLease where
  available : Bool
  owners : InsertionMap String String

namespace InMemoryJobLease

def new (available : Bool) : InMemoryJobLease := ⟨available, .empty⟩

def has (lease : InMemoryJobLease) (jobId : String) : Bool := lease.owners.has jobId

def acquire (lease : InMemoryJobLease) (jobId owner : String) : Bool × InMemoryJobLease :=
  if lease.available = false then (false, lease)
  else if lease.owners.has jobId then (false, lease)
  else (true, { lease with owners := lease.owners.set jobId owner })

def release (lease : InMemoryJobLease) (jobId owner : String) : InMemoryJobLease :=
  if lease.owners.get jobId = some owner then
    { lease with owners := lease.owners.delete jobId }
  else lease

theorem acquire_acquired {lease : InMemoryJobLease} {jobId owner : String}
    (h : (lease.acquire jobId owner).1 = true) :
    lease.has jobId = false ∧ (lease.acquire jobId owner).2.owners.get jobId = some owner := by
  unfold acquire at h ⊢
  split_ifs at h ⊢ with havailable hhas
  exact ⟨by simpa [has] using hhas, InsertionMap.get_set_self _ _ _⟩

theorem acquire_kept {lease : InMemoryJobLease} {jobId holder : String}
    (hheld : lease.owners.get jobId = some holder) (other owner : String) :
    (lease.acquire other owner).2.owners.get jobId = some holder := by
  unfold acquire
  split_ifs with havailable hhas
  · exact hheld
  · exact hheld
  · have hne : jobId ≠ other := by
      intro he
      rw [← he, InsertionMap.has, hheld] at hhas
      exact hhas rfl
    exact (InsertionMap.get_set_of_ne _ _ hne).trans hheld

theorem release_kept {lease : InMemoryJobLease} {jobId holder other : String}
    (hheld : lease.owners.get jobId = some holder) (hne : jobId ≠ other) (owner : String) :
    (lease.release other owner).owners.get jobId = some holder := by
  unfold release
  split_ifs
  · simpa [InsertionMap.get_delete, hne] using hheld
  · exact hheld

end InMemoryJobLease

/-- The calls of the `JobLease` interface. -/
inductive JobLeaseCall
  | acquire (jobId owner : String) (ttlMs : Option ℕ)
  | release (jobId owner : String)
  deriving DecidableEq, Repr

/-- A call, the milliseconds since the call before it and the next nonce. -/
structure TimedLeaseCall where
  delay : ℕ
  nonce : String
  call : JobLeaseCall
  deriving DecidableEq, Repr

/-- One call on a reachable Redis; only `acquire` has an answer. -/
def RedisJobLease.step (redis : Redis) (timed : TimedLeaseCall) : Option Bool × Redis :=
  match timed.call with
  | .acquire jobId owner ttlMs =>
    (acquire true timed.nonce (redis.wait timed.delay) jobId owner ttlMs).map some id
  | .release jobId owner => (none, release true (redis.wait timed.delay) jobId owner)

def InMemoryJobLease.step (lease : InMemoryJobLease) (timed : TimedLeaseCall) :
    Option Bool × InMemoryJobLease :=
  match timed.call with
  | .acquire jobId owner _ => (lease.acquire jobId owner).map some id
  | .release jobId owner => (none, lease.release jobId owner)

/-- The same answer was given and the same jobs are held. -/
def SameLeaseOutcome (r : Option Bool × Redis) (m : Option Bool × InMemoryJobLease) : Prop :=
  r.1 = m.1 ∧ ∀ jobId, (r.2.get (leaseKey jobId)).isSome = m.2.has jobId

/-- The lease a free job gets does not expire at once. -/
def LeavesTime (redis : Redis) : JobLeaseCall → Prop
  | .acquire jobId _ ttlMs => redis.get (leaseKey jobId) = none →
      0 < ttlMs.getD defaultJobLeaseTtlMs
  | .release _ _ => True

instance (redis : Redis) : ∀ call : JobLeaseCall, Decidable (LeavesTime redis call)
  | .acquire jobId _ ttlMs => inferInstanceAs (Decidable (redis.get (leaseKey jobId) = none →
      0 < ttlMs.getD defaultJobLeaseTtlMs))
  | .release _ _ => inferInstanceAs (Decidable True)

/-- No lease has expired when the call is made or expires with it. -/
def BeforeExpiry (redis : Redis) (timed : TimedLeaseCall) : Prop :=
  (redis.wait timed.delay).AllLive ∧ LeavesTime (redis.wait timed.delay) timed.call

instance (redis : Redis) (timed : TimedLeaseCall) : Decidable (BeforeExpiry redis timed) :=
  inferInstanceAs (Decidable (_ ∧ _))

/-- A release of a held job comes from an owner who is neither its holder nor
called by the very value stored for the lease. -/
def ReleasedByStranger (redis : Redis) (lease : InMemoryJobLease) (timed : TimedLeaseCall) : Prop :=
  ∀ jobId owner holder, timed.call = .release jobId owner →
    lease.owners.get jobId = some holder →
      owner ≠ holder ∧ (redis.wait timed.delay).get (leaseKey jobId) ≠ some owner

/-- What Redis stores for a job whose holder is known. -/
def StoredFor (redis : Redis) (jobId : String) : Option String → Prop
  | none => redis.strings.get (leaseKey jobId) = none
  | some holder => ∃ nonce expiresAt,
      redis.strings.get (leaseKey jobId) = some ⟨leaseValue holder nonce, expiresAt⟩

/-- Every holder in memory has its value in Redis, and no other job has one. -/
structure SameLeases (redis : Redis) (lease : InMemoryJobLease) : Prop where
  available : lease.available = true
  stored : ∀ jobId, StoredFor redis jobId (lease.owners.get jobId)

theorem same_leases_empty : SameLeases .empty (.new true) := ⟨rfl, fun _ => rfl⟩

theorem leaseKey_inj {jobId jobId' : String} : leaseKey jobId = leaseKey jobId' ↔ jobId = jobId' :=
  String.append_right_inj jobLeasePrefix

/-- The stored value is longer than the name of its holder. -/
theorem leaseValue_ne (owner nonce : String) : leaseValue owner nonce ≠ owner := by
  intro h
  have hlength := congrArg String.length h
  simp only [leaseValue, String.length_append] at hlength
  have hcolon : ":".length = 1 := by decide
  omega

namespace SameLeases
variable {redis : Redis} {lease : InMemoryJobLease}

theorem wait (h : SameLeases redis lease) (delay : ℕ) : SameLeases (redis.wait delay) lease :=
  ⟨h.available, h.stored⟩

theorem get_of_free (h : SameLeases redis lease) {jobId : String}
    (hfree : lease.owners.get jobId = none) : redis.get (leaseKey jobId) = none := by
  have hjob := h.stored jobId
  rw [hfree, StoredFor] at hjob
  rw [Redis.get, hjob, Option.filter_none, Option.map_none]

theorem get_of_held (h : SameLeases redis lease) (hlive : redis.AllLive) {jobId holder : String}
    (hheld : lease.owners.get jobId = some holder) :
    ∃ nonce, redis.get (leaseKey jobId) = some (leaseValue holder nonce) := by
  have hjob := h.stored jobId
  rw [hheld] at hjob
  obtain ⟨nonce,expiresAt,hentry⟩ := hjob
  exact ⟨nonce, by rw [hlive.get_eq, hentry, Option.map_some]⟩

/-- While no lease has expired, the same jobs are held on both sides. -/
theorem held (h : SameLeases redis lease) (hlive : redis.AllLive) (jobId : String) :
    (redis.get (leaseKey jobId)).isSome = lease.has jobId := by
  unfold InMemoryJobLease.has InsertionMap.has
  cases hget : lease.owners.get jobId with
  | none => rw [h.get_of_free hget]
  | some holder =>
    obtain ⟨nonce,hvalue⟩ := h.get_of_held hlive hget
    rw [hvalue]
    rfl

theorem set (h : SameLeases redis lease) (jobId owner nonce : String) (expiresAt : ℕ) :
    SameLeases
      ⟨redis.now, redis.strings.set (leaseKey jobId) ⟨leaseValue owner nonce, expiresAt⟩⟩
      ⟨lease.available, lease.owners.set jobId owner⟩ where
  available := h.available
  stored other := by
    by_cases ho : other = jobId
    · subst ho
      rw [InsertionMap.get_set_self]
      exact ⟨nonce, expiresAt, InsertionMap.get_set_self _ _ _⟩
    · have hkey : leaseKey other ≠ leaseKey jobId := fun he => ho (leaseKey_inj.mp he)
      have hother := h.stored other
      rw [InsertionMap.get_set_of_ne _ _ ho]
      cases hget : lease.owners.get other with
      | none =>
        rw [hget] at hother
        exact (InsertionMap.get_set_of_ne _ _ hkey).trans hother
      | some holder =>
        rw [hget] at hother
        obtain ⟨nonce',expiresAt',hentry⟩ := hother
        exact ⟨nonce', expiresAt', (InsertionMap.get_set_of_ne _ _ hkey).trans hentry⟩

theorem acquire (h : SameLeases redis lease) (hlive : redis.AllLive) (nonce jobId owner : String)
    {ttlMs : Option ℕ}
    (httl : redis.get (leaseKey jobId) = none → 0 < ttlMs.getD defaultJobLeaseTtlMs) :
    (RedisJobLease.acquire true nonce redis jobId owner ttlMs).1 = (lease.acquire jobId owner).1 ∧
      SameLeases (RedisJobLease.acquire true nonce redis jobId owner ttlMs).2
        (lease.acquire jobId owner).2 := by
  have hheld := h.held hlive jobId
  unfold InMemoryJobLease.has at hheld
  cases hhas : lease.owners.has jobId with
  | true =>
    rw [hhas] at hheld
    -- a busy job, or a refused time to live: no claim in either case
    have hbusy : RedisJobLease.acquire true nonce redis jobId owner ttlMs = (false,redis) := by
      by_cases hzero : ttlMs.getD defaultJobLeaseTtlMs = 0 <;>
        simp [RedisJobLease.acquire, Redis.setNxPx, hzero, hheld]
    simp [hbusy, InMemoryJobLease.acquire, hhas, h]
  | false =>
    rw [hhas] at hheld
    have hne : ttlMs.getD defaultJobLeaseTtlMs ≠ 0 := by
      have hpos := httl (by simpa using hheld)
      omega
    simpa [RedisJobLease.acquire, InMemoryJobLease.acquire, Redis.setNxPx, hne, hheld, hhas,
      h.available] using h.set jobId owner nonce (redis.now+ttlMs.getD defaultJobLeaseTtlMs)

end SameLeases

theorem RedisJobLease.allLive_acquire {redis : Redis} (hlive : redis.AllLive)
    (nonce jobId owner : String) (ttlMs : Option ℕ) :
    (acquire true nonce redis jobId owner ttlMs).2.AllLive :=
  hlive.setNxPx _ _ _

/-- A release keeps the two sides together exactly when it changes neither. -/
theorem release_same_iff {redis : Redis} {lease : InMemoryJobLease} (h : SameLeases redis lease)
    (hlive : redis.AllLive) (jobId owner : String) :
    (∀ other, ((RedisJobLease.release true redis jobId owner).get (leaseKey other)).isSome =
        (lease.release jobId owner).has other) ↔
      ∀ holder, lease.owners.get jobId = some holder →
        owner ≠ holder ∧ redis.get (leaseKey jobId) ≠ some owner := by
  cases hget : lease.owners.get jobId with
  | none =>
    -- the job is free: neither side has anything to delete
    have hfree := h.get_of_free hget
    have hredis : RedisJobLease.release true redis jobId owner = redis := by
      simp [RedisJobLease.release, RedisJobLease.releaseScript, hfree]
    have hlease : lease.release jobId owner = lease := by
      simp [InMemoryJobLease.release, hget]
    rw [hredis, hlease]
    exact iff_of_true (h.held hlive) (by simp)
  | some holder =>
    obtain ⟨nonce,hvalue⟩ := h.get_of_held hlive hget
    have hredis : RedisJobLease.release true redis jobId owner =
        if leaseValue holder nonce = owner then redis.del (leaseKey jobId) else redis := by
      simp [RedisJobLease.release, RedisJobLease.releaseScript, hvalue]
    have hlease : lease.release jobId owner = if holder = owner then
        { lease with owners := lease.owners.delete jobId } else lease := by
      simp [InMemoryJobLease.release, hget]
    rw [hredis, hlease]
    by_cases ho : holder = owner
    · -- the holder itself: its value carries a nonce, so Redis keeps the lease
      have hne : ¬ leaseValue holder nonce = owner := fun he => leaseValue_ne owner nonce (ho ▸ he)
      rw [if_neg hne, if_pos ho]
      apply iff_of_false
      · intro hall
        have hjob := hall jobId
        simp [hvalue, InMemoryJobLease.has, InsertionMap.has, InsertionMap.get_delete] at hjob
      · intro hstranger
        exact (hstranger holder rfl).1 ho.symm
    · rw [if_neg ho]
      by_cases hv : leaseValue holder nonce = owner
      · -- an owner named like the stored value: only Redis lets the lease go
        rw [if_pos hv]
        apply iff_of_false
        · intro hall
          have hjob := hall jobId
          simp [Redis.get_del_self, InMemoryJobLease.has, InsertionMap.has, hget] at hjob
        · intro hstranger
          exact (hstranger holder rfl).2 (hv ▸ hvalue)
      · rw [if_neg hv]
        refine iff_of_true (h.held hlive) fun other hother => ?_
        obtain rfl := Option.some.inj hother
        exact ⟨fun he => ho he.symm, fun he => hv (Option.some.inj (hvalue.symm.trans he))⟩

theorem lease_outcome_iff {redis : Redis} {lease : InMemoryJobLease} {timed : TimedLeaseCall}
    (h : SameLeases redis lease) (hfresh : BeforeExpiry redis timed) :
    SameLeaseOutcome (RedisJobLease.step redis timed) (InMemoryJobLease.step lease timed) ↔
      ReleasedByStranger redis lease timed := by
  obtain ⟨hlive,httl⟩ := hfresh
  obtain ⟨delay,nonce,call⟩ := timed
  cases call with
  | acquire jobId owner ttlMs =>
    -- an acquire always agrees; only a release can tell the two sides apart
    obtain ⟨hanswer,hsame⟩ := (h.wait delay).acquire hlive nonce jobId owner httl
    refine iff_of_true ⟨congrArg some hanswer, fun other => ?_⟩ (by simp [ReleasedByStranger])
    exact hsame.held (RedisJobLease.allLive_acquire hlive nonce jobId owner ttlMs) other
  | release jobId owner =>
    have hrelease := release_same_iff (h.wait delay) hlive jobId owner
    constructor
    · rintro ⟨_,hheld⟩ _ _ holder hcall hget
      obtain ⟨rfl,rfl⟩ := JobLeaseCall.release.inj hcall
      exact hrelease.mp hheld holder hget
    · intro hstranger
      exact ⟨rfl, hrelease.mpr fun holder hget => hstranger jobId owner holder rfl hget⟩

theorem same_leases_step {redis : Redis} {lease : InMemoryJobLease} {timed : TimedLeaseCall}
    (h : SameLeases redis lease) (hfresh : BeforeExpiry redis timed)
    (hstranger : ReleasedByStranger redis lease timed) :
    SameLeases (RedisJobLease.step redis timed).2 (InMemoryJobLease.step lease timed).2 := by
  obtain ⟨hlive,httl⟩ := hfresh
  obtain ⟨delay,nonce,call⟩ := timed
  cases call with
  | acquire jobId owner ttlMs =>
    exact ((h.wait delay).acquire hlive nonce jobId owner httl).2
  | release jobId owner =>
    -- a stranger's release deletes nothing on either side
    have hredis : (redis.wait delay).get (leaseKey jobId) ≠ some owner := by
      cases hget : lease.owners.get jobId with
      | none =>
        rw [(h.wait delay).get_of_free hget]
        exact fun he => Option.some_ne_none owner he.symm
      | some holder => exact (hstranger jobId owner holder rfl hget).2
    have hlease : lease.owners.get jobId ≠ some owner := by
      intro hget
      exact (hstranger jobId owner owner rfl hget).1 rfl
    have hkeeps : RedisJobLease.release true (redis.wait delay) jobId owner = redis.wait delay := by
      simp [RedisJobLease.release, RedisJobLease.releaseScript, hredis]
    have hkept : lease.release jobId owner = lease := by
      simp [InMemoryJobLease.release, hlease]
    change SameLeases (RedisJobLease.release true (redis.wait delay) jobId owner)
      (lease.release jobId owner)
    rw [hkeeps, hkept]
    exact h.wait delay

/-- While no lease expires, the Redis lease answers as the in-memory one and
holds the same jobs exactly as long as held jobs are released by strangers
only: a holder's own release does nothing in Redis. -/
theorem redis_lease_agrees_iff (calls : List TimedLeaseCall)
    (hfresh : Along RedisJobLease.step InMemoryJobLease.step
      (fun redis _ timed => BeforeExpiry redis timed) .empty (.new true) calls) :
    Agree RedisJobLease.step InMemoryJobLease.step SameLeaseOutcome .empty (.new true) calls ↔
      Along RedisJobLease.step InMemoryJobLease.step ReleasedByStranger .empty (.new true)
        calls := by
  refine agree_iff_along_of SameLeases ?_ ?_ .empty (.new true) calls same_leases_empty hfresh
  · intro redis lease timed h hA
    exact lease_outcome_iff h hA
  · intro redis lease timed h hA hC
    exact same_leases_step h hA hC

/-- A release by a stranger and an acquire of the busy job leave both leases
with the first worker. -/
theorem redis_lease_agrees_strangers :
    Agree RedisJobLease.step InMemoryJobLease.step SameLeaseOutcome .empty (.new true)
      [⟨0, "nonce-1", .acquire "job-1" "worker-a" none⟩, ⟨5, "", .release "job-1" "worker-b"⟩,
        ⟨5, "nonce-2", .acquire "job-1" "worker-b" none⟩] := by
  refine (redis_lease_agrees_iff _ (by decide)).mpr ⟨?_, ?_, ?_, trivial⟩
  · exact fun _ _ _ hcall => nomatch hcall
  · rintro _ _ holder ⟨⟩ hget
    obtain rfl : "worker-a" = holder := Option.some.inj hget
    decide
  · exact fun _ _ _ hcall => nomatch hcall

/-- A worker acquires a job and releases it: Redis still holds the lease. -/
theorem released_lease_still_held :
    ¬ ∀ calls : List TimedLeaseCall,
      Along RedisJobLease.step InMemoryJobLease.step
        (fun redis _ timed => BeforeExpiry redis timed) .empty (.new true) calls →
      Agree RedisJobLease.step InMemoryJobLease.step SameLeaseOutcome .empty (.new true) calls := by
  intro h
  obtain ⟨_,⟨_,hheld⟩,_⟩ := h [⟨0, "nonce-1", .acquire "job-1" "worker-a" none⟩,
    ⟨5, "", .release "job-1" "worker-a"⟩] (by decide)
  exact absurd (hheld "job-1") (by decide)

end StreamPay
