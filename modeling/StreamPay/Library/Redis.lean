import StreamPay.Library.InsertionMap

/-! String keys of a Redis server: `SET .. NX PX`, `GET` and `DEL` over a
clock. A key whose time is over is gone. -/

structure RedisString where
  value : String
  expiresAt : ℕ
  deriving DecidableEq, Repr

structure Redis where
  now : ℕ
  strings : InsertionMap String RedisString

namespace Redis

inductive SetReply
  | ok | nil | error
  deriving DecidableEq, Repr

def empty : Redis := ⟨0, .empty⟩

/-- The server some milliseconds later. -/
def wait (redis : Redis) (delay : ℕ) : Redis := { redis with now := redis.now+delay }

def get (redis : Redis) (key : String) : Option String :=
  ((redis.strings.get key).filter fun entry => redis.now < entry.expiresAt).map RedisString.value

/-- `SET key value NX PX ttl`; a time to live of 0 is an error. -/
def setNxPx (redis : Redis) (key value : String) (ttl : ℕ) : SetReply × Redis :=
  if ttl = 0 then (.error, redis)
  else if (redis.get key).isSome then (.nil, redis)
  else (.ok, { redis with strings := redis.strings.set key ⟨value, redis.now+ttl⟩ })

def del (redis : Redis) (key : String) : Redis :=
  { redis with strings := redis.strings.delete key }

theorem get_del_self (redis : Redis) (key : String) : (redis.del key).get key = none := by
  simp [get, del, InsertionMap.get_delete]

/-- No key has run out of time. -/
def AllLive (redis : Redis) : Prop :=
  ∀ key entry, redis.strings.get key = some entry → redis.now < entry.expiresAt

theorem allLive_iff (redis : Redis) :
    redis.AllLive ↔ ∀ entry ∈ redis.strings.entries, redis.now < entry.2.expiresAt := by
  constructor
  · intro h entry hentry
    exact h entry.1 entry.2 ((redis.strings.get_eq_some_iff _ _).mpr hentry)
  · intro h key entry hget
    exact h (key,entry) ((redis.strings.get_eq_some_iff _ _).mp hget)

instance (redis : Redis) : Decidable redis.AllLive := decidable_of_iff _ redis.allLive_iff.symm

theorem AllLive.get_eq {redis : Redis} (h : redis.AllLive) (key : String) :
    redis.get key = (redis.strings.get key).map RedisString.value := by
  cases hget : redis.strings.get key with
  | none => simp [get, hget]
  | some entry => simp [get, hget, h key entry hget]

theorem AllLive.setNxPx {redis : Redis} (h : redis.AllLive) (key value : String) (ttl : ℕ) :
    (redis.setNxPx key value ttl).2.AllLive := by
  unfold Redis.setNxPx
  split_ifs with hzero hsome
  · exact h
  · exact h
  · intro other entry hentry
    simp only [InsertionMap.get_set] at hentry
    split_ifs at hentry with hkey
    · obtain rfl := Option.some.inj hentry
      exact Nat.lt_add_of_pos_right (Nat.pos_of_ne_zero hzero)
    · exact h other entry hentry

end Redis
