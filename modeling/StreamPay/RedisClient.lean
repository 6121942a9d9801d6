import StreamPay.Library.Interleaving

/-! The shared Redis client of `cache/redis.ts`: one flag tells whether it is
connected, and every client that was ever created sets it. -/
namespace StreamPay
open Interleaving

/-- What a client tells its listeners, and how its `connect()` settles. -/
inductive ClientEvent
  | connected | connectFailed | error | ready
  deriving DecidableEq, Repr

/-- `process.env.REDIS_URL` as `createClient` finds it. -/
inductive RedisUrl
  | unset | invalid | valid
  deriving DecidableEq, Repr

/-- The module state, with the metrics that it reports to. -/
structure RedisModule where
  client : Option ℕ
  connected : Bool
  failureReported : Bool
  /-- The availability gauge. -/
  available : Bool
  failures : ℕ
  recoveries : ℕ
  deriving DecidableEq

namespace RedisModule

def markRedisAvailable (m : RedisModule) : RedisModule := { m with available := true }

def markRedisUnavailable (m : RedisModule) : RedisModule := { m with available := false }

def reportFailure (m : RedisModule) : RedisModule :=
  { m.markRedisUnavailable with
    connected := false
    failures := if m.failureReported then m.failures else m.failures+1
    failureReported := true }

def reportRecovery (m : RedisModule) : RedisModule :=
  let wasUnavailable := !m.connected || m.failureReported
  { m.markRedisAvailable with
    connected := true
    recoveries := if wasUnavailable && m.failureReported then m.recoveries+1 else m.recoveries
    failureReported := false }

/-- The client that `getRedisClient` returns without connecting anew. -/
def returned (m : RedisModule) : Option ℕ := if m.connected then m.client else none

end RedisModule

/-- The module among the clients it has created, which are numbered in the order
of their creation. -/
structure RedisClients extends RedisModule where
  created : ℕ
  /-- The clients whose `connect()` is awaited. -/
  connecting : List ℕ
  /-- The calls of `closeRedisClient` that await `quit()`. -/
  closing : ℕ
  /-- What the clients have told so far, the latest event first. -/
  events : List (ℕ × ClientEvent)
  deriving DecidableEq

inductive RedisAction
  /-- A call of `getRedisClient` up to its `connect()`. -/
  | getRedisClient (url : RedisUrl)
  | connectSucceeds (c : ℕ)
  | connectFails (c : ℕ)
  | error (c : ℕ)
  | ready (c : ℕ)
  /-- A call of `closeRedisClient` up to its `quit()`. -/
  | closeRedisClient
  | quitSettles

namespace RedisClients

def start : RedisClients :=
  ⟨⟨none, false, false, false, 0, 0⟩, 0, [], 0, []⟩

def tell (s : RedisClients) (c : ℕ) (event : ClientEvent) : RedisClients :=
  { s with events := (c, event) :: s.events }

/-- `none` for a step that cannot be taken. -/
def step (s : RedisClients) : RedisAction → Option RedisClients
  | .getRedisClient url =>
    if s.returned.isSome then some s
    else match url with
      | .unset => some { s with toRedisModule := s.markRedisUnavailable }
      -- `createClient` throws
      | .invalid => some { s with toRedisModule := s.reportFailure }
      | .valid => some { s with created := s.created+1, connecting := s.created :: s.connecting }
  | .connectSucceeds c =>
    -- each caller stores the client that it has connected, over an earlier one
    if c ∈ s.connecting then some { s.tell c .connected with
      toRedisModule := { s.reportRecovery with client := some c }
      connecting := s.connecting.filter (· ≠ c) }
    else none
  | .connectFails c =>
    if c ∈ s.connecting then some { s.tell c .connectFailed with
      toRedisModule := s.reportFailure
      connecting := s.connecting.filter (· ≠ c) }
    else none
  -- the listeners of a client stay, also when another one has taken its place
  | .error c =>
    if c < s.created then some { s.tell c .error with toRedisModule := s.reportFailure } else none
  | .ready c =>
    if c < s.created then some { s.tell c .ready with toRedisModule := s.reportRecovery } else none
  | .closeRedisClient =>
    some (if s.client.isSome then { s with closing := s.closing+1 } else s)
  | .quitSettles =>
    if 0 < s.closing then some { s with
      toRedisModule := { s.markRedisUnavailable with
        client := none, connected := false, failureReported := false }
      closing := s.closing-1 }
    else none

/-- The most recent event of a client. -/
def lastEvent (s : RedisClients) (c : ℕ) : Option ClientEvent := s.events.lookup c

/-- A client that is returned without connecting anew has told last that it is
connected. -/
def ReturnsLive (s : RedisClients) : Prop :=
  ∀ c, s.returned = some c → s.lastEvent c = some .connected ∨ s.lastEvent c = some .ready

/-- No other client becomes ready while the stored one is in error. -/
def Undisturbed (s : RedisClients) (a : RedisAction) : Prop :=
  ∀ d, a = .ready d → ∀ c, s.client = some c → c ≠ d → s.lastEvent c ≠ some .error

/-- The stored client has settled its `connect()` and told of it. -/
structure Inv (s : RedisClients) : Prop where
  connecting_lt : ∀ c ∈ s.connecting, c < s.created
  client_lt : ∀ c, s.client = some c → c < s.created
  client_settled : ∀ c, s.client = some c → c ∉ s.connecting
  client_told : ∀ c, s.client = some c → s.lastEvent c = some .connected ∨
    s.lastEvent c = some .error ∨ s.lastEvent c = some .ready

theorem inv_start : Inv start where
  connecting_lt := by simp [start]
  client_lt := by simp [start]
  client_settled := by simp [start]
  client_told := by simp [start]

theorem lastEvent_tell (s : RedisClients) (c d : ℕ) (event : ClientEvent) :
    (s.tell c event).lastEvent d = if d = c then some event else s.lastEvent d := by
  simp only [lastEvent, tell, List.lookup_cons]
  by_cases h : d = c
  · simp [h]
  · rw [beq_false_of_ne h, if_neg h]

/-- What one step can do, each with the guard it runs under. -/
inductive Move (s : RedisClients) : RedisAction → RedisClients → Prop
  | returns (url : RedisUrl) (h : s.returned.isSome = true) : Move s (.getRedisClient url) s
  | unset (h : s.returned = none) : Move s (.getRedisClient .unset)
      { s with toRedisModule := s.markRedisUnavailable }
  | invalid (h : s.returned = none) : Move s (.getRedisClient .invalid)
      { s with toRedisModule := s.reportFailure }
  | connects (h : s.returned = none) : Move s (.getRedisClient .valid)
      { s with created := s.created+1, connecting := s.created :: s.connecting }
  | connectSucceeds (c : ℕ) (h : c ∈ s.connecting) : Move s (.connectSucceeds c)
      { s.tell c .connected with
        toRedisModule := { s.reportRecovery with client := some c }
        connecting := s.connecting.filter (· ≠ c) }
  | connectFails (c : ℕ) (h : c ∈ s.connecting) : Move s (.connectFails c)
      { s.tell c .connectFailed with
        toRedisModule := s.reportFailure
        connecting := s.connecting.filter (· ≠ c) }
  | error (c : ℕ) (h : c < s.created) : Move s (.error c)
      { s.tell c .error with toRedisModule := s.reportFailure }
  | ready (c : ℕ) (h : c < s.created) : Move s (.ready c)
      { s.tell c .ready with toRedisModule := s.reportRecovery }
  | closes : Move s .closeRedisClient
      (if s.client.isSome then { s with closing := s.closing+1 } else s)
  | quitSettles (h : 0 < s.closing) : Move s .quitSettles
      { s with
        toRedisModule := { s.markRedisUnavailable with
          client := none, connected := false, failureReported := false }
        closing := s.closing-1 }

theorem move_of_step {s t : RedisClients} {a : RedisAction} (h : step s a = some t) :
    Move s a t := by
  cases a with
  | getRedisClient url =>
    simp only [step] at h
    split_ifs at h with hreturned
    · obtain rfl := Option.some.inj h
      exact .returns url hreturned
    · rw [Option.not_isSome_iff_eq_none] at hreturned
      cases url with
      | unset =>
        obtain rfl := Option.some.inj h
        exact .unset hreturned
      | invalid =>
        obtain rfl := Option.some.inj h
        exact .invalid hreturned
      | valid =>
        obtain rfl := Option.some.inj h
        exact .connects hreturned
  | connectSucceeds c =>
    simp only [step] at h
    split_ifs at h with hmem
    obtain rfl := Option.some.inj h
    exact .connectSucceeds c hmem
  | connectFails c =>
    simp only [step] at h
    split_ifs at h with hmem
    obtain rfl := Option.some.inj h
    exact .connectFails c hmem
  | error c =>
    simp only [step] at h
    split_ifs at h with hlt
    obtain rfl := Option.some.inj h
    exact .error c hlt
  | ready c =>
    simp only [step] at h
    split_ifs at h with hlt
    obtain rfl := Option.some.inj h
    exact .ready c hlt
  | closeRedisClient =>
    obtain rfl := Option.some.inj h
    exact .closes
  | quitSettles =>
    simp only [step] at h
    split_ifs at h with hpos
    obtain rfl := Option.some.inj h
    exact .quitSettles hpos

/-- What is told does not take the stored client out of its place. -/
theorem told_of_tell {s : RedisClients} (hs : s.Inv) {d : ℕ} {event : ClientEvent}
    (hevent : event = .connected ∨ event = .error ∨ event = .ready) {c : ℕ}
    (hc : s.client = some c) :
    (s.tell d event).lastEvent c = some .connected ∨
      (s.tell d event).lastEvent c = some .error ∨ (s.tell d event).lastEvent c = some .ready := by
  rw [lastEvent_tell]
  split_ifs
  · rcases hevent with rfl | rfl | rfl
    · exact Or.inl rfl
    · exact Or.inr (Or.inl rfl)
    · exact Or.inr (Or.inr rfl)
  · exact hs.client_told c hc

theorem Inv.move {s t : RedisClients} {a : RedisAction} (hs : s.Inv) (h : Move s a t) : t.Inv := by
  cases h with
  | returns url h => exact hs
  | unset h => exact ⟨hs.1, hs.2, hs.3, hs.4⟩
  | invalid h => exact ⟨hs.1, hs.2, hs.3, hs.4⟩
  | connects h =>
    refine ⟨?_, ?_, ?_, hs.client_told⟩
    · intro c hc
      rcases List.mem_cons.mp hc with rfl | hold
      · exact Nat.lt_succ_self _
      · exact Nat.lt_succ_of_lt (hs.connecting_lt c hold)
    · intro c hc
      exact Nat.lt_succ_of_lt (hs.client_lt c hc)
    · intro c hc hmem
      rcases List.mem_cons.mp hmem with rfl | hold
      · exact Nat.lt_irrefl _ (hs.client_lt _ hc)
      · exact hs.client_settled c hc hold
  | connectSucceeds d h =>
    -- the client that is stored now is the one that has told last
    refine ⟨?_, ?_, ?_, ?_⟩
    · intro c hc
      exact hs.connecting_lt c (List.mem_filter.mp hc).1
    · intro c hc
      obtain rfl := Option.some.inj hc
      exact hs.connecting_lt d h
    · intro c hc hmem
      obtain rfl := Option.some.inj hc
      exact of_decide_eq_true (List.mem_filter.mp hmem).2 rfl
    · intro c hc
      obtain rfl := Option.some.inj hc
      left
      exact (lastEvent_tell s d d .connected).trans (if_pos rfl)
  | connectFails d h =>
    refine ⟨?_, hs.client_lt, ?_, ?_⟩
    · intro c hc
      exact hs.connecting_lt c (List.mem_filter.mp hc).1
    · intro c hc hmem
      exact hs.client_settled c hc (List.mem_filter.mp hmem).1
    · intro c hc
      have hne : c ≠ d := fun he => hs.client_settled c hc (he ▸ h)
      have hsame : (s.tell d .connectFailed).lastEvent c = s.lastEvent c :=
        (lastEvent_tell s d c .connectFailed).trans (if_neg hne)
      have htold := hs.client_told c hc
      rw [← hsame] at htold
      exact htold
  | error d h =>
    exact ⟨hs.1, hs.2, hs.3, fun c hc => told_of_tell hs (Or.inr (Or.inl rfl)) hc⟩
  | ready d h =>
    exact ⟨hs.1, hs.2, hs.3, fun c hc => told_of_tell hs (Or.inr (Or.inr rfl)) hc⟩
  | closes =>
    split_ifs
    · exact ⟨hs.1, hs.2, hs.3, hs.4⟩
    · exact hs
  | quitSettles h =>
    refine ⟨hs.connecting_lt, ?_, ?_, ?_⟩
    all_goals
      intro c hc
      cases hc

theorem returnsLive_of_not_connected {s : RedisClients} (h : s.connected = false) :
    s.ReturnsLive := by
  intro c hc
  simp [RedisModule.returned, h] at hc

/-- Whether a ready event of a client leaves the stored one to be returned in error. -/
theorem returnsLive_ready_iff {s : RedisClients} (hs : s.Inv) (d : ℕ) :
    ({ s.tell d .ready with toRedisModule := s.reportRecovery } : RedisClients).ReturnsLive ↔
      s.Undisturbed (.ready d) := by
  have hreturned : ({ s.tell d .ready with toRedisModule := s.reportRecovery } :
      RedisClients).returned = s.client := rfl
  have htold (c : ℕ) : ({ s.tell d .ready with toRedisModule := s.reportRecovery } :
      RedisClients).lastEvent c = if c = d then some .ready else s.lastEvent c :=
    lastEvent_tell s d c .ready
  constructor
  · intro hlive e he c hc hne herror
    obtain rfl := RedisAction.ready.inj he
    have hlast := hlive c (hreturned.trans hc)
    rw [htold, if_neg hne, herror] at hlast
    rcases hlast with hlast | hlast
    · cases hlast
    · cases hlast
  · intro hundisturbed c hc
    rw [hreturned] at hc
    rw [htold]
    split_ifs with hsame
    · exact Or.inr rfl
    · have hnoError := hundisturbed d rfl c hc hsame
      rcases hs.client_told c hc with hconnected | herror | hready
      · exact Or.inl hconnected
      · exact absurd herror hnoError
      · exact Or.inr hready

/-- Only a ready event can put a client in error back into use. -/
theorem returnsLive_of_move {s t : RedisClients} {a : RedisAction} (hlive : s.ReturnsLive)
    (h : Move s a t) (ha : ∀ d, a ≠ .ready d) : t.ReturnsLive := by
  cases h with
  | returns url h => exact hlive
  | unset h => exact hlive
  | invalid h => exact returnsLive_of_not_connected rfl
  | connects h => exact hlive
  | connectSucceeds c h =>
    intro d hd
    obtain rfl := Option.some.inj hd
    left
    exact (lastEvent_tell s c c .connected).trans (if_pos rfl)
  | connectFails c h => exact returnsLive_of_not_connected rfl
  | error c h => exact returnsLive_of_not_connected rfl
  | ready c h => exact absurd rfl (ha c)
  | closes =>
    split_ifs
    · exact hlive
    · exact hlive
  | quitSettles h => exact returnsLive_of_not_connected rfl

theorem returnsLive_move_iff {s t : RedisClients} {a : RedisAction} (hs : s.Inv)
    (hlive : s.ReturnsLive) (h : Move s a t) : t.ReturnsLive ↔ s.Undisturbed a := by
  by_cases ha : ∃ d, a = .ready d
  · obtain ⟨d,rfl⟩ := ha
    cases h
    exact returnsLive_ready_iff hs d
  · have hother : ∀ d, a ≠ .ready d := fun d hd => ha ⟨d, hd⟩
    exact iff_of_true (returnsLive_of_move hlive h hother) fun d hd => absurd hd (hother d)

/-- In all states of a run the client that `getRedisClient` would return has last
told that it is connected, exactly when in the run no other client becomes ready
while the stored one is in error. -/
theorem returnsLive_along_iff (as : List RedisAction) :
    Along step (fun _ _ t => t.ReturnsLive) start as ↔
      Along step (fun s a _ => s.Undisturbed a) start as := by
  refine along_congr_of_invariant (fun s => s.Inv ∧ s.ReturnsLive) ?_ ?_ ?_ as
  · intro s a t hs ht
    exact returnsLive_move_iff hs.1 hs.2 (move_of_step ht)
  · intro s a t hs ht hlive
    exact ⟨hs.1.move (move_of_step ht), hlive⟩
  · exact ⟨inv_start, returnsLive_of_not_connected rfl⟩

/-- The first client is replaced after an error, reconnects by itself and makes the
second one, which is in error by then, be returned. -/
theorem client_in_error_returned :
    ∃ s, exec step start [.getRedisClient .valid, .connectSucceeds 0, .error 0,
        .getRedisClient .valid, .connectSucceeds 1, .error 1, .ready 0] = some s ∧
      step s (.getRedisClient .valid) = some s ∧ s.returned = some 1 ∧
      s.lastEvent 1 = some .error :=
  ⟨_, rfl, rfl, rfl, rfl⟩

end RedisClients
end StreamPay
