import StreamPay.MeteringTransactions

/-! Interleaved metering transactions are serializable: an order of the returned
calls is carried along with every step. -/
namespace StreamPay
open Lockstep Interleaving InMemoryMeteringCheckpointStore

namespace TxSystem
variable {ι κ : Type*} {hashtext : String → κ} {calls : ι → MeteringCall} {s s' : TxSystem ι κ}

variable (calls) in
/-- The table was `seen` once after some of the calls in `order`, run one at a time. -/
def Visited (table : MeteringEventCheckpoints) (order : List ι) (seen : MeteringEventCheckpoints) :
    Prop :=
  ∃ before after, order = before ++ after ∧ run apply table (before.map calls) = seen

variable (calls) in
/-- What a transaction knows at its stage: a decision is the one of the
in-memory store on a table visited in the order so far. -/
def Justified (table : MeteringEventCheckpoints) (order : List ι) (now : MeteringEventCheckpoints)
    (i : ι) : TxProgress → Prop
  | .unrecorded => ∃ seen, Visited calls table order seen ∧ seen.get (calls i).eventId = none ∧
      latestSequence (calls i).streamId seen.values =
        latestSequence (calls i).streamId now.values
  | .decided decision => ∃ seen, Visited calls table order seen ∧
      apply seen (calls i) = (decision, seen)
  | .inserting => (calls i).sequence = latestSequence (calls i).streamId now.values+1
  | .inserted => (calls i).sequence = latestSequence (calls i).streamId now.values+1 ∧
      now.get (calls i).eventId = none
  | _ => True

variable (hashtext calls) in
/-- What every interleaving keeps, together with an order of the returned calls
in which the in-memory store gives the same answers and the same rows. -/
structure Inv (table : MeteringEventCheckpoints) (s : TxSystem ι κ) (order : List ι) : Prop where
  lock : ∀ i, (s.progress i).inFlight = true → s.locks (hashtext (calls i).streamId) = some i
  pending : ∀ i, i ∈ s.pending ↔ s.progress i = .inserted
  distinct : ∀ i j, s.progress i = .inserted → s.progress j = .inserted →
    (calls i).eventId = (calls j).eventId → i = j
  justified : ∀ i, Justified calls table order s.table i (s.progress i)
  nodup : order.Nodup
  mem : ∀ i, i ∈ order ↔ ∃ decision, s.progress i = .returned decision
  rows : run apply table (order.map calls) = s.table
  answers : (log apply table (order.map calls)).map (fun entry => TxProgress.returned entry.2) =
    order.map s.progress

theorem inv_start (table : MeteringEventCheckpoints) :
    Inv hashtext calls table (start table : TxSystem ι κ) [] where
  lock i h := by simp [start, TxProgress.inFlight] at h
  pending i := by simp [start]
  distinct i j h := by simp [start] at h
  justified i := trivial
  nodup := List.nodup_nil
  mem i := by simp [start]
  rows := rfl
  answers := rfl

theorem Visited.append {table seen : MeteringEventCheckpoints} {order : List ι} (i : ι)
    (h : Visited calls table order seen) : Visited calls table (order ++ [i]) seen := by
  obtain ⟨before,after,rfl,hrun⟩ := h
  exact ⟨before, after ++ [i], List.append_assoc _ _ _, hrun⟩

/-- A call that changes nothing fits in anywhere: what was visited still is. -/
theorem Visited.insert {table seen seen' : MeteringEventCheckpoints} {before after : List ι}
    {i : ι} {decision : MeteringCheckpointDecision}
    (hrun : run apply table (before.map calls) = seen')
    (hidle : apply seen' (calls i) = (decision, seen'))
    (h : Visited calls table (before ++ after) seen) :
    Visited calls table (before ++ i :: after) seen := by
  obtain ⟨xs,ys,hsplit,hxs⟩ := h
  -- the new call is put before or behind the place where `seen` was visited
  rcases List.append_eq_append_iff.mp hsplit with ⟨zs,rfl,rfl⟩ | ⟨zs,rfl,rfl⟩
  · refine ⟨before ++ i :: zs, ys, by simp, ?_⟩
    rw [← hxs, List.map_append, List.map_append, run_append, run_append, hrun, List.map_cons, run,
      hidle]
  · exact ⟨xs, zs ++ i :: after, by simp, hxs⟩

/-- Justification survives a longer order and rows of other streams. -/
theorem Justified.mono {table now now' : MeteringEventCheckpoints} {order order' : List ι} {j : ι}
    {p : TxProgress} (h : Justified calls table order now j p)
    (hvisited : ∀ seen, Visited calls table order seen → Visited calls table order' seen)
    (hlatest : p.inFlight = true → latestSequence (calls j).streamId now'.values =
      latestSequence (calls j).streamId now.values)
    (hget : p = .inserted → now'.get (calls j).eventId = now.get (calls j).eventId) :
    Justified calls table order' now' j p := by
  cases p with
  | waiting | locked | returned _ | threw => trivial
  | unrecorded =>
    obtain ⟨seen,hv,hnone,hsame⟩ := h
    exact ⟨seen, hvisited seen hv, hnone, hsame.trans (hlatest rfl).symm⟩
  | decided decision =>
    obtain ⟨seen,hv,happly⟩ := h
    exact ⟨seen, hvisited seen hv, happly⟩
  | inserting => exact Eq.trans h (congrArg (·+1) (hlatest rfl).symm)
  | inserted =>
    exact ⟨Eq.trans h.1 (congrArg (·+1) (hlatest rfl).symm), (hget rfl).trans h.2⟩

/-- Two transactions in flight do not share a lock key, so not a stream either. -/
theorem Inv.key_ne {table : MeteringEventCheckpoints} {order : List ι}
    (hI : Inv hashtext calls table s order) {i j : ι} (hij : j ≠ i)
    (hi : (s.progress i).inFlight = true) (hj : (s.progress j).inFlight = true) :
    hashtext (calls j).streamId ≠ hashtext (calls i).streamId := by
  intro hkey
  have hlock := hI.lock j hj
  rw [hkey, hI.lock i hi] at hlock
  exact hij (Option.some.inj hlock).symm

variable [DecidableEq ι]

theorem map_update_of_notMem {order : List ι} {i : ι} (hi : i ∉ order) (f : ι → TxProgress)
    (p : TxProgress) : order.map (Function.update f i p) = order.map f :=
  List.map_congr_left fun _ hj => Function.update_of_ne (ne_of_mem_of_not_mem hj hi) _ _

theorem Inv.pending_finish {table : MeteringEventCheckpoints} {order : List ι}
    (hI : Inv hashtext calls table s order) {i : ι} {p : TxProgress} (hp : p.inFlight = false)
    (j : ι) : j ∈ s.pending.filter (· ≠ i) ↔ Function.update s.progress i p j = .inserted := by
  rw [List.mem_filter, hI.pending]
  by_cases hji : j = i
  · subst hji
    have hne : p ≠ .inserted := by
      rintro rfl
      exact absurd hp (by simp [TxProgress.inFlight])
    simp [hne]
  · simp [hji]

/-- A move that neither commits rows nor returns keeps the order. -/
theorem Inv.quiet {table : MeteringEventCheckpoints} {order : List ι}
    (hI : Inv hashtext calls table s order) {i : ι} {p : TxProgress}
    (hold : ∀ decision, s.progress i ≠ .returned decision)
    (hnew : ∀ decision, p ≠ .returned decision)
    (htable : s'.table = s.table) (hprogress : s'.progress = Function.update s.progress i p)
    (hlock : ∀ j, (s'.progress j).inFlight = true →
      s'.locks (hashtext (calls j).streamId) = some j)
    (hpending : ∀ j, j ∈ s'.pending ↔ s'.progress j = .inserted)
    (hapart : p = .inserted → ∀ j, s.progress j = .inserted → (calls j).eventId ≠ (calls i).eventId)
    (hown : Justified calls table order s.table i p) :
    Inv hashtext calls table s' order where
  lock := hlock
  pending := hpending
  distinct j k hj hk he := by
    rw [hprogress] at hj hk
    -- only a pair with `i` in it is new, and `hapart` keeps those two apart
    by_cases hji : j = i <;> by_cases hki : k = i
    · exact hji.trans hki.symm
    · subst hji
      rw [Function.update_self] at hj
      rw [Function.update_of_ne hki] at hk
      exact absurd he.symm (hapart hj k hk)
    · subst hki
      rw [Function.update_self] at hk
      rw [Function.update_of_ne hji] at hj
      exact absurd he (hapart hk j hj)
    · rw [Function.update_of_ne hji] at hj
      rw [Function.update_of_ne hki] at hk
      exact hI.distinct j k hj hk he
  justified j := by
    rw [hprogress, htable]
    by_cases hji : j = i
    · subst hji
      rwa [Function.update_self]
    · rw [Function.update_of_ne hji]
      exact hI.justified j
  nodup := hI.nodup
  mem j := by
    rw [hI.mem, hprogress]
    by_cases hji : j = i
    · subst hji
      rw [Function.update_self]
      exact iff_of_false (fun ⟨d,hd⟩ => hold d hd) fun ⟨d,hd⟩ => hnew d hd
    · rw [Function.update_of_ne hji]
  rows := hI.rows.trans htable.symm
  answers := by
    -- `i` has not returned, so it is not in the order and its progress is not read
    have hi : i ∉ order := fun hi => by
      obtain ⟨d,hd⟩ := (hI.mem i).mp hi
      exact hold d hd
    rw [hI.answers, hprogress, map_update_of_notMem hi]

theorem Inv.setProgress {table : MeteringEventCheckpoints} {order : List ι}
    (hI : Inv hashtext calls table s order) {i : ι} {p : TxProgress}
    (hold : ∀ decision, s.progress i ≠ .returned decision) (hins : s.progress i ≠ .inserted)
    (hnew : ∀ decision, p ≠ .returned decision) (hp : p ≠ .inserted)
    (hflight : p.inFlight = true → (s.progress i).inFlight = true)
    (hown : Justified calls table order s.table i p) :
    Inv hashtext calls table (s.setProgress i p) order := by
  refine hI.quiet hold hnew rfl rfl (fun j hj => ?_) (fun j => ?_) (fun h => absurd h hp) hown
  · by_cases hji : j = i
    · subst hji
      exact hI.lock j (hflight (by simpa [TxSystem.setProgress] using hj))
    · exact hI.lock j (by simpa [TxSystem.setProgress, Function.update_of_ne hji] using hj)
  · by_cases hji : j = i
    · subst hji
      simp [TxSystem.setProgress, hI.pending j, hins, hp]
    · simp [TxSystem.setProgress, hI.pending j, Function.update_of_ne hji]

/-- A call that has returned holds no uncommitted row, so the rest are as distinct as before. -/
theorem Inv.distinct_finish {table : MeteringEventCheckpoints} {order : List ι}
    (hI : Inv hashtext calls table s order) {i j k : ι} {decision : MeteringCheckpointDecision}
    (hj : Function.update s.progress i (.returned decision) j = .inserted)
    (hk : Function.update s.progress i (.returned decision) k = .inserted)
    (he : (calls j).eventId = (calls k).eventId) : j = k := by
  have hold {l : ι} (hl : Function.update s.progress i (.returned decision) l = .inserted) :
      s.progress l = .inserted := by
    by_cases hli : l = i
    · simp [hli] at hl
    · rwa [Function.update_of_ne hli] at hl
  exact hI.distinct j k (hold hj) (hold hk) he

/-- Wherever the returned call is put, the order holds the calls that have returned. -/
theorem Inv.mem_finish {table : MeteringEventCheckpoints} {order order' : List ι}
    (hI : Inv hashtext calls table s order) {i : ι} {decision : MeteringCheckpointDecision}
    (horder : ∀ j, j ∈ order' ↔ j = i ∨ j ∈ order) (j : ι) : j ∈ order' ↔
      ∃ d, Function.update s.progress i (.returned decision) j = .returned d := by
  rw [horder]
  by_cases hji : j = i
  · simp [hji]
  · rw [Function.update_of_ne hji, ← hI.mem j]
    simp [hji]

variable [DecidableEq κ]

theorem Inv.lock_finish {table : MeteringEventCheckpoints} {order : List ι}
    (hI : Inv hashtext calls table s order) {i : ι} {p : TxProgress}
    (hi : (s.progress i).inFlight = true) (hp : p.inFlight = false) (j : ι)
    (hj : (Function.update s.progress i p j).inFlight = true) :
    Function.update s.locks (hashtext (calls i).streamId) none (hashtext (calls j).streamId) =
      some j := by
  have hji : j ≠ i := by
    rintro rfl
    rw [Function.update_self, hp] at hj
    exact absurd hj (by simp)
  rw [Function.update_of_ne hji] at hj
  rw [Function.update_of_ne (hI.key_ne hji hi hj), hI.lock j hj]

/-- A commit is the next call of the sequential order. -/
theorem Inv.commit {table : MeteringEventCheckpoints} {order : List ι}
    (hI : Inv hashtext calls table s order) {i : ι} (hp : s.progress i = .inserted) :
    Inv hashtext calls table { s.finish i (hashtext (calls i).streamId)
        (.returned (.accepted (calls i).sequence)) with
      table := s.table.set (calls i).eventId (calls i).record } (order ++ [i]) := by
  have hi : (s.progress i).inFlight = true := by rw [hp]; rfl
  have hnot : i ∉ order := fun h => by simpa [hp] using (hI.mem i).mp h
  have hown := hI.justified i
  rw [hp] at hown
  obtain ⟨hseq,hget⟩ := hown
  -- the table now is the one the order ends in, where the call is next in its stream
  have happly := apply_of_next hget hseq
  have horder (j : ι) : j ∈ order ++ [i] ↔ j = i ∨ j ∈ order := by
    rw [List.mem_append, List.mem_singleton, or_comm]
  refine ⟨fun j => hI.lock_finish hi rfl j, hI.pending_finish rfl,
    fun j k hj hk he => hI.distinct_finish hj hk he, fun j => ?_, ?_, hI.mem_finish horder, ?_, ?_⟩
  · change Justified calls table (order ++ [i]) _ j (Function.update s.progress i _ j)
    by_cases hji : j = i
    · rw [hji, Function.update_self]
      trivial
    · rw [Function.update_of_ne hji]
      refine (hI.justified j).mono (fun _ => Visited.append i) (fun hj => ?_) (fun hj => ?_)
      · -- the lock keeps the other transactions on other streams
        have hs : (calls i).streamId ≠ (calls j).streamId := fun h =>
          hI.key_ne hji hi hj (congrArg hashtext h.symm)
        rw [values_set_record hget, latestSequence_append]
        exact if_neg hs
      · -- and no two uncommitted rows share an event id
        have he : (calls j).eventId ≠ (calls i).eventId := fun h => hji (hI.distinct j i hj hp h)
        exact InsertionMap.get_set_of_ne _ _ he
  · rw [← List.concat_eq_append]
    exact (List.nodup_concat _ _).mpr ⟨hnot, hI.nodup⟩
  · rw [List.map_append, run_append, hI.rows, List.map_singleton, run, run, happly]
  · rw [List.map_append, log_append, List.map_append, hI.answers, hI.rows, List.map_append]
    simp only [finish, map_update_of_notMem hnot, List.map_cons, List.map_nil, log, happly,
      Function.update_self]

/-- A decision without a row goes back to where its table was seen. -/
theorem Inv.answer {table : MeteringEventCheckpoints} {order : List ι}
    (hI : Inv hashtext calls table s order) {i : ι} {decision : MeteringCheckpointDecision}
    (hp : s.progress i = .decided decision) :
    ∃ order', Inv hashtext calls table
      (s.finish i (hashtext (calls i).streamId) (.returned decision)) order' := by
  have hi : (s.progress i).inFlight = true := by rw [hp]; rfl
  have hnot : i ∉ order := fun h => by simpa [hp] using (hI.mem i).mp h
  have hown := hI.justified i
  rw [hp] at hown
  obtain ⟨seen,⟨before,after,rfl,hrun⟩,hidle⟩ := hown
  -- in sequence the call comes right where its table was seen, and changes nothing there
  have hsame : run apply table ((before ++ i :: after).map calls) =
      run apply table ((before ++ after).map calls) := by
    simp only [List.map_append, List.map_cons, run_append, run, hrun, hidle]
  have horder (j : ι) : j ∈ before ++ i :: after ↔ j = i ∨ j ∈ before ++ after := by
    rw [List.mem_append, List.mem_cons, List.mem_append]
    exact or_left_comm
  refine ⟨before ++ i :: after, fun j => hI.lock_finish hi rfl j, hI.pending_finish rfl,
    fun j k hj hk he => hI.distinct_finish hj hk he, fun j => ?_, ?_, hI.mem_finish horder,
    hsame.trans hI.rows, ?_⟩
  · change Justified calls table _ s.table j (Function.update s.progress i _ j)
    by_cases hji : j = i
    · rw [hji, Function.update_self]
      trivial
    · rw [Function.update_of_ne hji]
      exact (hI.justified j).mono (fun _ => Visited.insert hrun hidle) (fun _ => rfl)
        (fun _ => rfl)
  · exact List.nodup_middle.mpr (List.nodup_cons.mpr ⟨hnot, hI.nodup⟩)
  · have hold := hI.answers
    rw [List.map_append, log_append, List.map_append, List.map_append, hrun] at hold
    rw [List.mem_append, not_or] at hnot
    have hlen : ((log apply table (before.map calls)).map
        fun entry => TxProgress.returned entry.2).length = (before.map s.progress).length := by
      simp [length_log]
    -- the answers before and behind the new place are the old ones
    obtain ⟨hbefore,hafter⟩ := List.append_inj hold hlen
    rw [List.map_append, List.map_cons, log_append, hrun, log, hidle, List.map_append,
      List.map_cons, hbefore, hafter, List.map_append, List.map_cons]
    simp only [finish, map_update_of_notMem hnot.1, map_update_of_notMem hnot.2,
      Function.update_self]

theorem Inv.move {table : MeteringEventCheckpoints} {order : List ι}
    (hI : Inv hashtext calls table s order) {i : ι} (h : Move hashtext calls s i s') :
    ∃ order', Inv hashtext calls table s' order' := by
  have hown := hI.justified i
  cases h with
  | lock hp hfree =>
    refine ⟨order, hI.quiet (by simp [hp]) (by simp) rfl rfl (fun j hj => ?_) (fun j => ?_)
      (by simp) trivial⟩
    · change Function.update s.locks (hashtext (calls i).streamId) (some i)
        (hashtext (calls j).streamId) = some j
      by_cases hji : j = i
      · rw [hji, Function.update_self]
      · simp only [Function.update_of_ne hji] at hj
        have hkey : hashtext (calls j).streamId ≠ hashtext (calls i).streamId := fun hk => by
          simpa [hk, hfree] using hI.lock j hj
        rw [Function.update_of_ne hkey, hI.lock j hj]
    · by_cases hji : j = i
      · simp [hji, hI.pending i, hp]
      · simp [hI.pending j, Function.update_of_ne hji]
  | duplicate existing hp hget =>
    -- decided on the current table, which the whole order leads to
    refine ⟨order, hI.setProgress (by simp [hp]) (by simp [hp]) (by simp) (by simp)
      (by simp [hp, TxProgress.inFlight]) ?_⟩
    exact ⟨s.table, ⟨order, [], (List.append_nil order).symm, hI.rows⟩, by simp [apply, hget]⟩
  | unrecorded hp hget =>
    refine ⟨order, hI.setProgress (by simp [hp]) (by simp [hp]) (by simp) (by simp)
      (by simp [hp, TxProgress.inFlight]) ?_⟩
    exact ⟨s.table, ⟨order, [], (List.append_nil order).symm, hI.rows⟩, hget, rfl⟩
  | reject hp hrej =>
    refine ⟨order, hI.setProgress (by simp [hp]) (by simp [hp]) (by simp) (by simp)
      (by simp [hp, TxProgress.inFlight]) ?_⟩
    rw [hp] at hown
    -- the event id was free in `seen`; the checkpoint has not changed since, under the lock
    obtain ⟨seen,hv,hnone,hsame⟩ := hown
    exact ⟨seen, hv, by simp [apply, hnone, hsame, hrej]⟩
  | expected hp hseq =>
    exact ⟨order, hI.setProgress (by simp [hp]) (by simp [hp]) (by simp) (by simp)
      (by simp [hp, TxProgress.inFlight]) hseq⟩
  | insert hp hget hapart =>
    rw [hp] at hown
    refine ⟨order, hI.quiet (by simp [hp]) (by simp) rfl rfl (fun j hj => ?_) (fun j => ?_)
      (fun _ j hj => hapart j ((hI.pending j).mpr hj)) ⟨hown, hget⟩⟩
    · by_cases hji : j = i
      · rw [hji]
        exact hI.lock i (by rw [hp]; rfl)
      · simp only [Function.update_of_ne hji] at hj
        exact hI.lock j hj
    · by_cases hji : j = i
      · simp [hji]
      · simp [hji, hI.pending j]
  | commit hp => exact ⟨_, hI.commit hp⟩
  | answer decision hp => exact hI.answer hp
  | throwWaiting hp =>
    exact ⟨order, hI.setProgress (by simp [hp]) (by simp [hp]) (by simp) (by simp)
      (by simp [TxProgress.inFlight]) trivial⟩
  | throwInFlight hp =>
    refine ⟨order, hI.quiet (fun d hd => ?_) (by simp) rfl rfl (fun j => hI.lock_finish hp rfl j)
      (hI.pending_finish rfl) (by simp) trivial⟩
    simp [hd, TxProgress.inFlight] at hp

/-- Every interleaving of the transactions is serializable: the calls that have
returned gave, in some order, the answers of the in-memory store and left its
rows, and no step of a call that throws changes a committed row. The widths of the
columns are left out: a text that is refused for its length is an error of the `INSERT`
like any other, and one that only has too many spaces behind it stands in the table
uncut. -/
theorem transactions_serializable (table : MeteringEventCheckpoints)
    (h : Reaches (step hashtext calls) (start table) s) :
    (∃ order : List ι, order.Nodup ∧
      (∀ i, i ∈ order ↔ ∃ decision, s.progress i = .returned decision) ∧
      run apply table (order.map calls) = s.table ∧
      (log apply table (order.map calls)).map (fun entry => TxProgress.returned entry.2) =
        order.map s.progress) ∧
    ∀ a s', step hashtext calls s a = some s' →
      (∀ decision, s'.progress a.tx ≠ .returned decision) → s'.table = s.table := by
  have hinv : ∃ order, Inv hashtext calls table s order :=
    h.invariant (fun t => ∃ order, Inv hashtext calls table t order)
      (fun t a u ⟨order,hI⟩ _ hstep => hI.move (move_of_step hstep)) ⟨[], inv_start table⟩
  obtain ⟨order,hI⟩ := hinv
  exact ⟨⟨order, hI.nodup, hI.mem, hI.rows, hI.answers⟩,
    fun a s' hstep hnot => table_eq_of_move (move_of_step hstep) hnot⟩

/-- One event sent twice to a stream: the second transaction returns `duplicate`. -/
theorem transactions_serializable_redelivered :
    ∃ s : TxSystem (Fin 2) String,
      s.progress 0 = .returned (.accepted 1) ∧ s.progress 1 = .returned (.duplicate 1) ∧
      ∃ order : List (Fin 2), order.Nodup ∧
        run apply .empty (order.map fun _ => ⟨"stream-1", "evt-1", 1⟩) = s.table := by
  let calls : Fin 2 → MeteringCall := fun _ => ⟨"stream-1", "evt-1", 1⟩
  have hrun : (exec (step id calls) (start .empty)
      [.next 0, .next 0, .next 0, .next 0, .next 0, .next 1, .next 1, .next 1]).map
        (fun s => (s.progress 0, s.progress 1)) =
      some (.returned (.accepted 1), .returned (.duplicate 1)) := by decide
  obtain ⟨s,hs,hprogress⟩ := Option.map_eq_some_iff.mp hrun
  obtain ⟨h0,h1⟩ := Prod.mk.inj hprogress
  obtain ⟨⟨order,hnodup,_,hrows,_⟩,_⟩ := transactions_serializable .empty (reaches_of_exec _ hs)
  exact ⟨s, h0, h1, order, hnodup, hrows⟩

end TxSystem

end StreamPay
