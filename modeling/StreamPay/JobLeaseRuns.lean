import StreamPay.JobLease
import StreamPay.Library.Interleaving

/-! Redis leases on queued jobs over whole runs: times to live that run out, calls that
find no client, and commands that fail before or after they have taken effect. -/
namespace StreamPay
open Interleaving

/-- How a call finds Redis. A command that fails `late` has taken effect before. -/
inductive RedisReply
  | unavailable
  | replies
  | fails (late : Bool)
  deriving DecidableEq, Repr

def RedisReply.takesEffect : RedisReply → Bool
  | .unavailable => false
  | .replies => true
  | .fails late => late

/-- A `SET` that has taken effect, and whether `acquire` has told its caller so. -/
structure TakenLease where
  jobId : String
  owner : String
  nonce : String
  takenAt : ℕ
  expiresAt : ℕ
  granted : Bool
  deriving DecidableEq, Repr

inductive LeaseAction
  | wait (delay : ℕ)
  | acquire (jobId owner nonce : String) (ttlMs : Option ℕ) (reply : RedisReply)
  | release (jobId owner : String) (reply : RedisReply)
  deriving DecidableEq, Repr

namespace RedisJobLease

/-- What Redis is after a call of `acquire`, and what the call returns. -/
def acquireReplied (redis : Redis) (jobId owner nonce : String) (ttlMs : Option ℕ) :
    RedisReply → Bool × Redis
  | .unavailable => acquire false nonce redis jobId owner ttlMs
  | .replies => acquire true nonce redis jobId owner ttlMs
  -- the `catch` takes the lease for refused
  | .fails late => (false, if late then (acquire true nonce redis jobId owner ttlMs).2 else redis)

def releaseReplied (redis : Redis) (jobId owner : String) : RedisReply → Redis
  | .unavailable => release false redis jobId owner
  | .replies => release true redis jobId owner
  | .fails late => if late then release true redis jobId owner else redis

def runStep (redis : Redis) : LeaseAction → Option Redis
  | .wait delay => some (redis.wait delay)
  | .acquire jobId owner nonce ttlMs reply =>
    some (acquireReplied redis jobId owner nonce ttlMs reply).2
  | .release jobId owner reply => some (releaseReplied redis jobId owner reply)

/-- The lease that a call of `acquire` takes, if it does. -/
def taken (redis : Redis) : LeaseAction → Option TakenLease
  | .acquire jobId owner nonce ttlMs reply =>
    if reply.takesEffect && (acquire true nonce redis jobId owner ttlMs).1 then
      some ⟨jobId, owner, nonce, redis.now, redis.now+ttlMs.getD defaultJobLeaseTtlMs,
        (acquireReplied redis jobId owner nonce ttlMs reply).1⟩
    else none
  | .wait _ | .release _ _ _ => none

def tellingStep : Redis × List TakenLease → LeaseAction → Option (Redis × List TakenLease) :=
  recording runStep taken

/-- Releases come from owners whose names have no colon, as the names of workers do. -/
def ByWorkers : LeaseAction → Prop
  | .release _ owner _ => ':' ∉ owner.toList
  | _ => True

instance : ∀ a : LeaseAction, Decidable (ByWorkers a)
  | .release _ owner _ => inferInstanceAs (Decidable (':' ∉ owner.toList))
  | .wait _ => inferInstanceAs (Decidable True)
  | .acquire _ _ _ _ _ => inferInstanceAs (Decidable True)

/-- A lease that has not run out is stored, and what is stored was taken. -/
structure Kept (redis : Redis) (told : List TakenLease) : Prop where
  apart : told.Pairwise fun first second =>
    first.jobId = second.jobId → first.expiresAt ≤ second.takenAt
  stored : ∀ lease ∈ told, redis.now < lease.expiresAt →
    redis.strings.get (leaseKey lease.jobId) =
      some ⟨leaseValue lease.owner lease.nonce, lease.expiresAt⟩
  known : ∀ jobId entry, redis.strings.get (leaseKey jobId) = some entry →
    ∃ lease ∈ told, lease.jobId = jobId ∧ lease.expiresAt = entry.expiresAt ∧
      leaseValue lease.owner lease.nonce = entry.value

variable {redis : Redis} {told : List TakenLease}

/-- A job is free for `SET NX` once all that was taken of it has run out. -/
theorem Kept.get_eq_none_iff (h : Kept redis told) (jobId : String) :
    redis.get (leaseKey jobId) = none ↔
      ∀ lease ∈ told, lease.jobId = jobId → lease.expiresAt ≤ redis.now := by
  constructor
  · intro hfree lease hlease hjob
    by_contra hlive
    have hstored := h.stored lease hlease (Nat.not_le.mp hlive)
    rw [hjob] at hstored
    rw [Redis.get, hstored, Option.filter_some, if_pos (by simpa using hlive)] at hfree
    cases hfree
  · intro hover
    cases hentry : redis.strings.get (leaseKey jobId) with
    | none => rw [Redis.get, hentry, Option.filter_none, Option.map_none]
    | some entry =>
      obtain ⟨lease,hlease,hjob,hexpires,_⟩ := h.known jobId entry hentry
      have hpast := hover lease hlease hjob
      rw [hexpires] at hpast
      rw [Redis.get, hentry, Option.filter_some, if_neg (by simpa using hpast), Option.map_none]

theorem acquire_eq_true_iff (redis : Redis) (nonce jobId owner : String) (ttlMs : Option ℕ) :
    (acquire true nonce redis jobId owner ttlMs).1 = true ↔
      0 < ttlMs.getD defaultJobLeaseTtlMs ∧ redis.get (leaseKey jobId) = none := by
  rw [Nat.pos_iff_ne_zero, ← Option.not_isSome_iff_eq_none]
  unfold acquire Redis.setNxPx
  by_cases hzero : ttlMs.getD defaultJobLeaseTtlMs = 0
  · simp [hzero]
  · by_cases hbusy : (redis.get (leaseKey jobId)).isSome = true <;> simp [hzero, hbusy]

theorem acquire_taken {nonce jobId owner : String} {ttlMs : Option ℕ}
    (h : (acquire true nonce redis jobId owner ttlMs).1 = true) :
    (acquire true nonce redis jobId owner ttlMs).2 =
      ⟨redis.now, redis.strings.set (leaseKey jobId)
        ⟨leaseValue owner nonce, redis.now+ttlMs.getD defaultJobLeaseTtlMs⟩⟩ := by
  obtain ⟨httl,hfree⟩ := (acquire_eq_true_iff redis nonce jobId owner ttlMs).mp h
  simp [acquire, Redis.setNxPx, Nat.ne_of_gt httl, hfree]

theorem acquire_refused {nonce jobId owner : String} {ttlMs : Option ℕ}
    (h : (acquire true nonce redis jobId owner ttlMs).1 = false) :
    (acquire true nonce redis jobId owner ttlMs).2 = redis := by
  unfold acquire Redis.setNxPx at h ⊢
  split_ifs at h ⊢ <;> simp_all

theorem acquireReplied_snd (redis : Redis) (jobId owner nonce : String) (ttlMs : Option ℕ)
    (reply : RedisReply) : (acquireReplied redis jobId owner nonce ttlMs reply).2 =
      if reply.takesEffect then (acquire true nonce redis jobId owner ttlMs).2 else redis := by
  cases reply <;> rfl

theorem Kept.wait (h : Kept redis told) (delay : ℕ) : Kept (redis.wait delay) told where
  apart := h.apart
  stored lease hlease hlive := h.stored lease hlease (Nat.lt_of_le_of_lt (Nat.le_add_right _ _) hlive)
  known := h.known

theorem Kept.take (h : Kept redis told) {lease : TakenLease} (hat : lease.takenAt = redis.now)
    (hfree : redis.get (leaseKey lease.jobId) = none) :
    Kept ⟨redis.now, redis.strings.set (leaseKey lease.jobId)
      ⟨leaseValue lease.owner lease.nonce, lease.expiresAt⟩⟩ (told ++ [lease]) where
  apart := by
    rw [List.pairwise_append]
    refine ⟨h.apart, List.pairwise_singleton _ lease, ?_⟩
    intro first hfirst second hsecond hjob
    obtain rfl := List.mem_singleton.mp hsecond
    rw [hat]
    exact (h.get_eq_none_iff second.jobId).mp hfree first hfirst hjob
  stored := by
    intro other hother hlive
    rcases List.mem_append.mp hother with hold | hnew
    · -- an earlier lease of the same job has run out
      have hne : leaseKey other.jobId ≠ leaseKey lease.jobId := by
        intro hkey
        have hpast := (h.get_eq_none_iff lease.jobId).mp hfree other hold (leaseKey_inj.mp hkey)
        exact absurd hlive (Nat.not_lt.mpr hpast)
      rw [InsertionMap.get_set_of_ne _ _ hne]
      exact h.stored other hold hlive
    · obtain rfl := List.mem_singleton.mp hnew
      exact InsertionMap.get_set_self _ _ _
  known := by
    intro jobId entry hentry
    by_cases hjob : jobId = lease.jobId
    · subst hjob
      obtain rfl := Option.some.inj ((InsertionMap.get_set_self _ _ _).symm.trans hentry)
      exact ⟨lease, List.mem_append_right told List.mem_cons_self, rfl, rfl, rfl⟩
    · rw [InsertionMap.get_set_of_ne _ _ fun hkey => hjob (leaseKey_inj.mp hkey)] at hentry
      obtain ⟨other,hother,hsame⟩ := h.known jobId entry hentry
      exact ⟨other, List.mem_append_left [lease] hother, hsame⟩

theorem colon_mem_leaseValue (owner nonce : String) : ':' ∈ (leaseValue owner nonce).toList := by
  simp [leaseValue]

/-- A release by a worker finds no value of its own: the one stored has a nonce. -/
theorem Kept.release_eq (h : Kept redis told) {owner : String} (howner : ':' ∉ owner.toList)
    (jobId : String) (reply : RedisReply) : releaseReplied redis jobId owner reply = redis := by
  have hscript : releaseScript redis (leaseKey jobId) owner = redis := by
    apply if_neg
    intro hget
    obtain ⟨entry,hentry,rfl⟩ := Option.map_eq_some_iff.mp hget
    obtain ⟨lease,_,_,_,hvalue⟩ := h.known jobId entry (Option.filter_eq_some_iff.mp hentry).1
    exact howner (hvalue ▸ colon_mem_leaseValue lease.owner lease.nonce)
  cases reply with
  | unavailable => rfl
  | replies => exact hscript
  | fails late =>
    cases late with
    | false => rfl
    | true => exact hscript

theorem Kept.step (h : Kept redis told) {a : LeaseAction} (hworkers : ByWorkers a) {redis' : Redis}
    (hstep : runStep redis a = some redis') : Kept redis' (told ++ (taken redis a).toList) := by
  cases a with
  | wait delay =>
    obtain rfl := Option.some.inj hstep
    rw [taken, Option.toList_none, List.append_nil]
    exact h.wait delay
  | acquire jobId owner nonce ttlMs reply =>
    obtain rfl := Option.some.inj hstep
    rw [acquireReplied_snd]
    cases heffect : reply.takesEffect with
    | false =>
      have hnone : taken redis (.acquire jobId owner nonce ttlMs reply) = none := by
        rw [taken, heffect, Bool.false_and, if_neg Bool.false_ne_true]
      rw [hnone, Option.toList_none, List.append_nil, if_neg Bool.false_ne_true]
      exact h
    | true =>
      rw [if_pos rfl]
      cases htaken : (acquire true nonce redis jobId owner ttlMs).1 with
      | false =>
        have hnone : taken redis (.acquire jobId owner nonce ttlMs reply) = none := by
          rw [taken, htaken, Bool.and_false, if_neg Bool.false_ne_true]
        rw [hnone, Option.toList_none, List.append_nil, acquire_refused htaken]
        exact h
      | true =>
        let lease : TakenLease := ⟨jobId, owner, nonce, redis.now,
          redis.now+ttlMs.getD defaultJobLeaseTtlMs,
          (acquireReplied redis jobId owner nonce ttlMs reply).1⟩
        have hlease : taken redis (.acquire jobId owner nonce ttlMs reply) = some lease := by
          rw [taken, heffect, htaken, Bool.true_and, if_pos rfl]
        have hfree : redis.get (leaseKey lease.jobId) = none :=
          ((acquire_eq_true_iff redis nonce jobId owner ttlMs).mp htaken).2
        rw [hlease, Option.toList_some, acquire_taken htaken]
        exact h.take rfl hfree
  | release jobId owner reply =>
    obtain rfl := Option.some.inj hstep
    rw [taken, Option.toList_none, List.append_nil, h.release_eq hworkers jobId reply]
    exact h

theorem kept_of_reaches {start : Redis}
    (hstart : ∀ jobId, start.strings.get (leaseKey jobId) = none)
    (h : ReachesWhile tellingStep (fun _ a => ByWorkers a) (start, []) (redis, told)) :
    Kept redis told := by
  have hbegin : Kept start [] :=
    { apart := List.Pairwise.nil
      stored := fun _ hlease => absurd hlease List.not_mem_nil
      known := fun jobId entry hentry => by
        rw [hstart jobId] at hentry
        cases hentry }
  have hkept := h.invariant (fun run => Kept run.1 run.2) ?_ hbegin
  · exact hkept
  · rintro ⟨before,told⟩ a ⟨after,told'⟩ hbefore hworkers hafter
    obtain ⟨hstep,rfl⟩ := recording_eq_some.mp hafter
    exact hbefore.step hworkers hstep

/-- A lease lasts its whole time to live, whatever is released, and no longer: leases of
one job do not overlap, and a call that reaches Redis is granted a free job alone, which
is one whose leases, also those that no caller was told of, have all run out. -/
theorem leases_last {start : Redis} (hstart : ∀ jobId, start.strings.get (leaseKey jobId) = none)
    (h : ReachesWhile tellingStep (fun _ a => ByWorkers a) (start, []) (redis, told)) :
    (told.Pairwise fun first second =>
      first.jobId = second.jobId → first.expiresAt ≤ second.takenAt) ∧
    ∀ jobId owner nonce ttlMs reply,
      (acquireReplied redis jobId owner nonce ttlMs reply).1 = true ↔
        reply = .replies ∧ 0 < ttlMs.getD defaultJobLeaseTtlMs ∧
          ∀ lease ∈ told, lease.jobId = jobId → lease.expiresAt ≤ redis.now := by
  have hkept := kept_of_reaches hstart h
  refine ⟨hkept.apart, fun jobId owner nonce ttlMs reply => ?_⟩
  rw [← hkept.get_eq_none_iff jobId]
  cases reply with
  | unavailable => simp [acquireReplied, acquire]
  | replies =>
    rw [acquireReplied, acquire_eq_true_iff]
    exact ⟨fun hgranted => ⟨rfl, hgranted⟩, fun hgranted => hgranted.2⟩
  | fails late => simp [acquireReplied]

/-- A worker releases its job at once; the next one is refused it for 30 seconds. -/
def releasedAtOnce : List LeaseAction :=
  [.acquire "job-1" "worker-1-a" "nonce-1" none .replies, .release "job-1" "worker-1-a" .replies,
    .wait 29999]

theorem leases_last_of_released_at_once :
    ∃ redis told, ReachesWhile tellingStep (fun _ a => ByWorkers a) (.empty, []) (redis, told) ∧
      redis.now = 29999 ∧
      (acquireReplied redis "job-1" "worker-2-b" "nonce-2" none .replies).1 = false := by
  have hrun : (execWhile tellingStep (fun _ a => ByWorkers a) (.empty, []) releasedAtOnce).map
      (fun run => (run.1.now, run.2)) =
        some (29999, [⟨"job-1", "worker-1-a", "nonce-1", 0, 30000, true⟩]) := by
    decide +kernel
  obtain ⟨⟨redis,told⟩,hs,hseen⟩ := Option.map_eq_some_iff.mp hrun
  obtain ⟨hnow,htold⟩ := Prod.mk.inj hseen
  have hreach := reachesWhile_of_execWhile releasedAtOnce hs
  refine ⟨redis, told, hreach, hnow, ?_⟩
  rw [Bool.eq_false_iff]
  intro hgranted
  have hlast := (leases_last (fun _ => rfl) hreach).2 "job-1" "worker-2-b" "nonce-2" none .replies
  obtain ⟨_,_,hover⟩ := hlast.mp hgranted
  have hpast := hover _ (htold ▸ List.mem_cons_self) rfl
  rw [hnow] at hpast
  exact absurd hpast (by decide)

end RedisJobLease

end StreamPay
