import StreamPay.AcknowledgedUsage
import StreamPay.ConcurrentIngestion

/-! Deliveries of settled events that are ingested side by side over the
in-memory replay guard. -/
namespace StreamPay
open Interleaving

namespace InMemoryProcessedIndexerEventStore

/-- Rows stay, with their fingerprints, and none becomes failed. -/
def Keeps (events events' : InMemoryProcessedIndexerEventStore) : Prop :=
  ∀ eventId row, events.get eventId = some row →
    ∃ row', events'.get eventId = some row' ∧ row'.fingerprint = row.fingerprint ∧
      (row.status ≠ .failed → row'.status ≠ .failed)

theorem Keeps.refl (events : InMemoryProcessedIndexerEventStore) : Keeps events events :=
  fun _ row hrow => ⟨row, hrow, rfl, id⟩

theorem Keeps.trans {events events' events'' : InMemoryProcessedIndexerEventStore}
    (h : Keeps events events') (h' : Keeps events' events'') : Keeps events events'' := by
  intro eventId row hrow
  obtain ⟨row',hrow',hprint,hlive⟩ := h eventId row hrow
  obtain ⟨row'',hrow'',hprint',hlive'⟩ := h' eventId row' hrow'
  exact ⟨row'', hrow'', hprint'.trans hprint, fun hne => hlive' (hlive hne)⟩

/-- What a claim can do: make a row its own, or leave the store as it is. -/
theorem claim_cases (events : InMemoryProcessedIndexerEventStore) (eventId fingerprint : String) :
    ((claim events eventId fingerprint).1 = .claimed ∧
      (∀ row, events.get eventId = some row →
        row.fingerprint = fingerprint ∧ row.status = .failed) ∧
      ∀ id, (claim events eventId fingerprint).2.get id =
        if id = eventId then some ⟨fingerprint, .processing⟩ else events.get id) ∨
    (claim events eventId fingerprint).2 = events ∧
      ((claim events eventId fingerprint).1 = .conflict ∨
        (claim events eventId fingerprint).1 ≠ .claimed ∧
        ∃ row, events.get eventId = some row ∧ row.fingerprint = fingerprint) := by
  -- by the row under the id, and then by its status
  cases hrow : events.get eventId with
  | none =>
    have hclaim : claim events eventId fingerprint =
        (.claimed, events.set eventId ⟨fingerprint, .processing⟩) := by
      simp [claim, hrow]
    rw [hclaim]
    refine Or.inl ⟨rfl, ?_, fun id => InsertionMap.get_set _ _ _ _⟩
    intro row hnone
    cases hnone
  | some row =>
    by_cases hprint : row.fingerprint = fingerprint
    · cases hstatus : row.status with
      | failed =>
        have hclaim : claim events eventId fingerprint =
            (.claimed, events.set eventId ⟨fingerprint, .processing⟩) := by
          simp [claim, hrow, hprint, hstatus]
        rw [hclaim]
        refine Or.inl ⟨rfl, ?_, fun id => InsertionMap.get_set _ _ _ _⟩
        intro other hother
        obtain rfl := Option.some.inj hother
        exact ⟨hprint, hstatus⟩
      | completed =>
        have hclaim : claim events eventId fingerprint = (.duplicate, events) := by
          simp [claim, hrow, hprint, hstatus]
        rw [hclaim]
        exact Or.inr ⟨rfl, Or.inr ⟨by simp, row, rfl, hprint⟩⟩
      | processing =>
        have hclaim : claim events eventId fingerprint = (.inProgress, events) := by
          simp [claim, hrow, hprint, hstatus]
        rw [hclaim]
        exact Or.inr ⟨rfl, Or.inr ⟨by simp, row, rfl, hprint⟩⟩
    · have hclaim : claim events eventId fingerprint = (.conflict, events) := by
        simp [claim, hrow, hprint]
      rw [hclaim]
      exact Or.inr ⟨rfl, Or.inl rfl⟩

theorem keeps_claim (events : InMemoryProcessedIndexerEventStore) (eventId fingerprint : String) :
    Keeps events (claim events eventId fingerprint).2 := by
  obtain ⟨_,hown,hget⟩ | ⟨hsame,_⟩ := claim_cases events eventId fingerprint
  · intro id row hrow
    by_cases hid : id = eventId
    · subst hid
      exact ⟨⟨fingerprint, .processing⟩, by rw [hget, if_pos rfl], (hown row hrow).1.symm, nofun⟩
    · exact ⟨row, by rw [hget, if_neg hid, hrow], rfl, fun h => h⟩
  · rw [hsame]
    exact Keeps.refl events

theorem keeps_complete (events : InMemoryProcessedIndexerEventStore) (eventId : String) :
    Keeps events (complete events eventId) := by
  intro id row hrow
  rw [complete, InsertionMap.get_modify]
  split_ifs with hid
  · rw [← hid, hrow]
    exact ⟨_, rfl, rfl, nofun⟩
  · exact ⟨row, hrow, rfl, fun h => h⟩

end InMemoryProcessedIndexerEventStore

open InMemoryProcessedIndexerEventStore

/-- Any checkpoint store beside the in-memory replay guard. -/
def replayService {μ : Type*} (meteringCheckpoints : MeteringCheckpointStore μ) :
    EventIngestionService InMemoryProcessedIndexerEventStore μ :=
  ⟨InMemoryProcessedIndexerEventStore.store, meteringCheckpoints⟩

/-- Both stores in memory, as in the tests. -/
def inMemoryService := replayService InMemoryMeteringCheckpointStore.store

def noEvents : IngestionState InMemoryProcessedIndexerEventStore InMemoryMeteringCheckpointStore :=
  ⟨.empty, .empty⟩

namespace IngestionSystem
variable {ι μ : Type*}

abbrev OverReplayGuard (ι μ : Type*) := IngestionSystem ι InMemoryProcessedIndexerEventStore μ

/-- The calls of settled events, as the rows of their ids have them. -/
structure ReplayInvariant (runtime : IngestionRuntime) (calls : ι → IngestCall)
    (s : OverReplayGuard ι μ) : Prop where
  bound : ∀ i event, readEvent runtime (calls i) = .ok event →
    isMeteringEvent event.eventType = false → s.progress i ≠ .waiting →
    (s.progress i).isConflict = true ∨ ∃ row,
      s.stores.processedEvents.get event.eventId = some row ∧
      row.fingerprint = runtime.fingerprintEvent event
  owned : ∀ i eventId, (s.progress i).newId false = some eventId →
    ∃ row, s.stores.processedEvents.get eventId = some row ∧ row.status ≠ .failed
  once : Exclusive fun i => (s.progress i).newId false

theorem replayInvariant_start (runtime : IngestionRuntime) (calls : ι → IngestCall)
    (stores : IngestionState InMemoryProcessedIndexerEventStore μ) :
    ReplayInvariant runtime calls (start stores) where
  bound := fun _ _ _ _ hstarted => absurd rfl hstarted
  owned _ _ hnew := by cases hnew
  once _ _ _ hnew := by cases hnew

variable [DecidableEq ι] {meteringCheckpoints : MeteringCheckpointStore μ}
  {runtime : IngestionRuntime} {calls : ι → IngestCall} {s t : OverReplayGuard ι μ} {i : ι}

/-- The in-memory store completes every claim. -/
theorem completed_of_turn {call : IngestCall} {stores stores' : IngestionState _ μ}
    {progress progress' : IngestionProgress}
    (h : (replayService meteringCheckpoints).Turn runtime call stores progress progress' stores')
    (event : IndexerEventPayload) : progress' ≠ .completed event false := by
  intro hcompleted
  cases h with
  | completed _ => cases hcompleted
  | refused _ _ | applied _ _ _ _ _ | claimed _ _ _ | failed _ | returned _ _ _ _ =>
    cases hcompleted

theorem completed_of_reaches {C : OverReplayGuard ι μ → ι → Prop}
    {stores : IngestionState InMemoryProcessedIndexerEventStore μ}
    (hs : ReachesWhile (step (replayService meteringCheckpoints) runtime calls) C (start stores) s)
    (event : IndexerEventPayload) : s.progress i ≠ .completed event false := by
  induction hs with
  | refl => exact nofun
  | tail j _ _ hstep ih =>
    by_cases hij : i = j
    · subst hij
      exact completed_of_turn (turn_of_step hstep) event
    · rw [(step_eq_some hstep).2 i hij]
      exact ih

/-- A turn over the in-memory store keeps its rows. -/
theorem keeps_of_turn {call : IngestCall} {stores stores' : IngestionState _ μ}
    {progress progress' : IngestionProgress}
    (h : (replayService meteringCheckpoints).Turn runtime call stores progress progress' stores')
    (hcompleted : ∀ event, progress ≠ .completed event false) :
    Keeps stores.processedEvents stores'.processedEvents := by
  cases h with
  | refused _ _ => exact Keeps.refl _
  | applied _ _ _ _ _ => exact Keeps.refl _
  | claimed event _ _ => exact keeps_claim _ _ _
  | completed event => exact keeps_complete _ _
  | failed event => exact absurd rfl (hcompleted event)
  | returned _ _ _ _ => exact Keeps.refl _

/-- A call that has started or finished to take its event as new keeps to it. -/
theorem newEvent_of_turn {call : IngestCall} {stores stores' : IngestionState _ μ}
    {progress progress' : IngestionProgress} {event : IndexerEventPayload}
    (h : (replayService meteringCheckpoints).Turn runtime call stores progress progress' stores')
    (hnew : progress.newEvent = some event) : progress'.newEvent = some event := by
  cases h with
  | refused _ _ | applied _ _ _ _ _ | claimed _ _ _ | failed _ => cases hnew
  | completed _ => exact hnew
  | returned _ hsame _ _ => rw [hsame, hnew]

/-- Whoever takes a settled event as new claims its row, unless it had before. -/
theorem claimed_of_turn {call : IngestCall} {stores stores' : IngestionState _ μ}
    {progress progress' : IngestionProgress} {eventId : String}
    (h : (replayService meteringCheckpoints).Turn runtime call stores progress progress' stores')
    (hnew : progress'.newId false = some eventId) :
    progress.newId false = some eventId ∨
    (∀ row, stores.processedEvents.get eventId = some row → row.status = .failed) ∧
      ∃ row, stores'.processedEvents.get eventId = some row ∧ row.status ≠ .failed := by
  obtain ⟨event,hevent,htype,rfl⟩ := IngestionProgress.newId_eq_some.mp hnew
  cases h with
  | refused _ _ => cases hevent
  | failed _ => cases hevent
  | applied read sequence _ hmetering _ =>
    -- the checkpoint store takes metering events only
    obtain ⟨rfl,_⟩ := IngestionProgress.newEvent_applied hevent
    rw [hmetering] at htype
    cases htype
  | claimed read _ _ =>
    obtain ⟨rfl,hclaimed⟩ := IngestionProgress.newEvent_claimed hevent
    have hclaimed : (InMemoryProcessedIndexerEventStore.claim stores.processedEvents read.eventId
        (runtime.fingerprintEvent read)).1 = .claimed := Option.some.inj hclaimed
    obtain ⟨_,hown,hget⟩ | ⟨_,hconflict | ⟨hother,_⟩⟩ := claim_cases stores.processedEvents
      read.eventId (runtime.fingerprintEvent read)
    · exact Or.inr ⟨fun row hrow => (hown row hrow).2,
        _, (hget read.eventId).trans (if_pos rfl), nofun⟩
    · exact absurd (hconflict.symm.trans hclaimed) (by decide)
    · exact absurd hclaimed hother
  | completed _ => exact Or.inl hnew
  | returned _ hsame _ _ =>
    rw [hsame] at hevent
    exact Or.inl (IngestionProgress.newId_eq_some.mpr ⟨event, hevent, htype, rfl⟩)

/-- A started call of a settled event is in conflict with the row of its id, or
has the same fingerprint. -/
theorem bound_of_turn {call : IngestCall} {stores stores' : IngestionState _ μ}
    {progress progress' : IngestionProgress} {event : IndexerEventPayload}
    (h : (replayService meteringCheckpoints).Turn runtime call stores progress progress' stores')
    (hread : readEvent runtime call = .ok event) (htype : isMeteringEvent event.eventType = false)
    (hbound : progress ≠ .waiting → progress.isConflict = true ∨ ∃ row,
      stores.processedEvents.get event.eventId = some row ∧
      row.fingerprint = runtime.fingerprintEvent event)
    (hkeeps : Keeps stores.processedEvents stores'.processedEvents) :
    progress'.isConflict = true ∨ ∃ row,
      stores'.processedEvents.get event.eventId = some row ∧
      row.fingerprint = runtime.fingerprintEvent event := by
  -- once the call has started, its row stays under its fingerprint
  have hkept (hstarted : progress ≠ .waiting) : progress.isConflict = true ∨ ∃ row,
      stores'.processedEvents.get event.eventId = some row ∧
      row.fingerprint = runtime.fingerprintEvent event := by
    obtain hconflict | ⟨row,hrow,hprint⟩ := hbound hstarted
    · exact Or.inl hconflict
    · obtain ⟨row',hrow',hsame,_⟩ := hkeeps _ row hrow
      exact Or.inr ⟨row', hrow', hsame.trans hprint⟩
  cases h with
  | refused failure hmetering =>
    rw [hmetering event hread] at htype
    cases htype
  | applied read sequence hread' hmetering _ =>
    obtain rfl := Except.ok.inj (hread.symm.trans hread')
    rw [hmetering] at htype
    cases htype
  | claimed read hread' _ =>
    obtain rfl := Except.ok.inj (hread.symm.trans hread')
    obtain ⟨_,_,hget⟩ | ⟨hsame,hconflict | ⟨_,row,hrow,hprint⟩⟩ := claim_cases
      stores.processedEvents event.eventId (runtime.fingerprintEvent event)
    · exact Or.inr ⟨_, (hget event.eventId).trans (if_pos rfl), rfl⟩
    · left
      simp [replayService, InMemoryProcessedIndexerEventStore.store, hconflict,
        IngestionProgress.isConflict]
    · exact Or.inr ⟨row, (congrArg (·.get event.eventId) hsame).trans hrow, hprint⟩
  | completed _ =>
    obtain hconflict | hrow := hkept nofun
    · cases hconflict
    · exact Or.inr hrow
  | failed _ =>
    obtain hconflict | hrow := hkept nofun
    · cases hconflict
    · exact Or.inr hrow
  | returned hstarted _ _ hconflicts =>
    obtain hconflict | hrow := hkept hstarted
    · exact Or.inl (hconflicts hconflict)
    · exact Or.inr hrow

/-- A turn after which its call has not taken its event as new writes nothing. -/
theorem unchanged_of_turn {call : IngestCall} {stores stores' : IngestionState _ μ}
    {progress progress' : IngestionProgress}
    (h : (replayService meteringCheckpoints).Turn runtime call stores progress progress' stores')
    (hcompleted : ∀ event, progress ≠ .completed event false)
    (hnever : ∀ event, progress'.newEvent ≠ some event) :
    stores'.processedEvents = stores.processedEvents := by
  cases h with
  | refused _ _ => rfl
  | applied _ _ _ _ _ => rfl
  | claimed read _ _ =>
    obtain ⟨hclaimed,_,_⟩ | ⟨hsame,_⟩ := claim_cases stores.processedEvents read.eventId
      (runtime.fingerprintEvent read)
    · have hnew : (IngestionProgress.claimed { read with correlationId := call.correlationId }
          (some (InMemoryProcessedIndexerEventStore.claim stores.processedEvents read.eventId
            (runtime.fingerprintEvent read)).1)).newEvent =
            some { read with correlationId := call.correlationId } := by
        rw [hclaimed]
        rfl
      exact absurd hnew (hnever _)
    · exact hsame
  | completed event => exact absurd rfl (hnever event)
  | failed event => exact absurd rfl (hcompleted event)
  | returned _ _ _ _ => rfl

theorem ReplayInvariant.step (h : ReplayInvariant runtime calls s)
    (hcompleted : ∀ event, s.progress i ≠ .completed event false)
    (hstep : IngestionSystem.step (replayService meteringCheckpoints) runtime calls s i = some t) :
    ReplayInvariant runtime calls t := by
  have hturn := turn_of_step hstep
  have hkeeps := keeps_of_turn hturn hcompleted
  have hothers := (step_eq_some hstep).2
  constructor
  · intro j event hread htype hstarted
    by_cases hji : j = i
    · subst hji
      exact bound_of_turn hturn hread htype (h.bound j event hread htype) hkeeps
    · rw [hothers j hji] at hstarted ⊢
      obtain hconflict | ⟨row,hrow,hprint⟩ := h.bound j event hread htype hstarted
      · exact Or.inl hconflict
      · obtain ⟨row',hrow',hsame,_⟩ := hkeeps _ row hrow
        exact Or.inr ⟨row', hrow', hsame.trans hprint⟩
  · intro j eventId hnew
    -- who had taken its event as new still has the row
    have hkept (hbefore : (s.progress j).newId false = some eventId) :
        ∃ row, t.stores.processedEvents.get eventId = some row ∧ row.status ≠ .failed := by
      obtain ⟨row,hrow,hlive⟩ := h.owned j eventId hbefore
      obtain ⟨row',hrow',_,hlive'⟩ := hkeeps _ row hrow
      exact ⟨row', hrow', hlive' hlive⟩
    by_cases hji : j = i
    · subst hji
      obtain hbefore | ⟨_,hrow⟩ := claimed_of_turn hturn hnew
      · exact hkept hbefore
      · exact hrow
    · rw [hothers j hji] at hnew
      exact hkept hnew
  · refine h.once.of_others (fun j hji => by rw [hothers j hji]) fun eventId hnew j hji hj => ?_
    obtain hbefore | ⟨hfree,_⟩ := claimed_of_turn hturn hnew
    · exact hji (h.once j i eventId hj hbefore)
    · obtain ⟨row,hrow,hlive⟩ := h.owned j eventId hj
      exact hlive (hfree row hrow)

variable {stores : IngestionState InMemoryProcessedIndexerEventStore μ}
  {C : OverReplayGuard ι μ → ι → Prop}

theorem replayInvariant_of_reaches
    (hs : ReachesWhile (step (replayService meteringCheckpoints) runtime calls) C (start stores)
      s) : ReplayInvariant runtime calls s := by
  induction hs with
  | refl => exact replayInvariant_start runtime calls stores
  | tail i hs _ hstep ih => exact ih.step (completed_of_reaches hs) hstep

theorem keeps_of_reaches
    (hs : Reaches (step (replayService meteringCheckpoints) runtime calls) (start stores) s)
    (ht : Reaches (step (replayService meteringCheckpoints) runtime calls) s t) :
    Keeps s.stores.processedEvents t.stores.processedEvents := by
  induction ht with
  | refl => exact Keeps.refl _
  | tail i ht _ hstep ih =>
    exact ih.trans (keeps_of_turn (turn_of_step hstep) (completed_of_reaches (hs.trans ht)))

theorem newEvent_of_reaches {event : IndexerEventPayload}
    (hnew : (s.progress i).newEvent = some event)
    (ht : Reaches (step (replayService meteringCheckpoints) runtime calls) s t) :
    (t.progress i).newEvent = some event := by
  induction ht with
  | refl => exact hnew
  | tail j _ _ hstep ih =>
    by_cases hij : i = j
    · subst hij
      exact newEvent_of_turn (turn_of_step hstep) ih
    · rw [(step_eq_some hstep).2 i hij]
      exact ih

/-- A call over the in-memory store that has not been rejected for a conflict has
the fingerprint of the row of its id. -/
theorem fingerprint_of_returned {event : IndexerEventPayload} {row : InMemoryProcessedIndexerEvent}
    {result : IngestionResult}
    (hs : ReachesWhile (step (replayService meteringCheckpoints) runtime calls) C (start stores) s)
    (hread : readEvent runtime (calls i) = .ok event)
    (htype : isMeteringEvent event.eventType = false)
    (hreturned : s.progress i = .returned result)
    (hrow : s.stores.processedEvents.get event.eventId = some row) :
    result = .rejected conflictFailure ∨ row.fingerprint = runtime.fingerprintEvent event := by
  obtain hconflict | ⟨row',hrow',hprint⟩ := (replayInvariant_of_reaches hs).bound i event hread
    htype (by rw [hreturned]; exact nofun)
  · rw [hreturned] at hconflict
    cases result with
    | accepted _ _ => cases hconflict
    | rejected failure => exact Or.inl (congrArg _ (of_decide_eq_true hconflict))
  · obtain rfl := Option.some.inj (hrow.symm.trans hrow')
    exact Or.inr hprint

/-- An accepted call has the fingerprint of the row of its event. -/
theorem row_of_accepted {duplicate : Bool} {event : IndexerEventPayload}
    (htypes : ∀ i event, readEvent runtime (calls i) = .ok event →
      isMeteringEvent event.eventType = false)
    (hs : ReachesWhile (step (replayService meteringCheckpoints) runtime calls) C (start stores) s)
    (haccepted : s.progress i = .returned (.accepted duplicate event)) :
    ∃ read row, readEvent runtime (calls i) = .ok read ∧
      s.stores.processedEvents.get event.eventId = some row ∧
      row.fingerprint = runtime.fingerprintEvent read := by
  obtain ⟨read,hread,hid,_⟩ := carries_of_reaches hs i event (by rw [haccepted]; rfl)
  obtain hconflict | ⟨row,hrow,hprint⟩ := (replayInvariant_of_reaches hs).bound i read hread
    (htypes i read hread) (by rw [haccepted]; exact nofun)
  · rw [haccepted] at hconflict
    cases hconflict
  · exact ⟨read, row, hread, hid ▸ hrow, hprint⟩

/-- A turn of a call that is rejected in the end leaves the replay guard as it is. -/
theorem unchanged_of_rejected {u : OverReplayGuard ι μ} {failure : IngestionFailure}
    (hs : Reaches (step (replayService meteringCheckpoints) runtime calls) (start stores) s)
    (hstep : step (replayService meteringCheckpoints) runtime calls s i = some t)
    (hu : Reaches (step (replayService meteringCheckpoints) runtime calls) t u)
    (hrejected : u.progress i = .returned (.rejected failure)) :
    t.stores.processedEvents = s.stores.processedEvents := by
  -- a call that takes its event as new is never rejected
  have hnever (event : IndexerEventPayload) : (t.progress i).newEvent ≠ some event := by
    intro hnew
    have hnew' := newEvent_of_reaches hnew hu
    rw [hrejected] at hnew'
    cases hnew'
  exact unchanged_of_turn (turn_of_step hstep) (completed_of_reaches hs) hnever

/-- Any number of deliveries of settled events, in any order of their turns: one
call per id is the first to be accepted, every accepted call of an id has its
fingerprint, a call with another one is rejected for the conflict, and rejected
calls leave the replay guard as it is. -/
theorem settled_deliveries_idempotent
    (htypes : ∀ i event, readEvent runtime (calls i) = .ok event →
      isMeteringEvent event.eventType = false)
    (hs : Reaches (step (replayService meteringCheckpoints) runtime calls) (start stores) s) :
    (∀ i j event event', s.progress i = .returned (.accepted false event) →
      s.progress j = .returned (.accepted false event') → event.eventId = event'.eventId → i = j) ∧
    (∀ i j first duplicate event, s.progress i = .returned (.accepted false first) →
      s.progress j = .returned (.accepted duplicate event) → event.eventId = first.eventId →
      ∃ read read', readEvent runtime (calls i) = .ok read ∧ readEvent runtime (calls j) = .ok read' ∧
        runtime.fingerprintEvent read' = runtime.fingerprintEvent read) ∧
    (∀ i event row, readEvent runtime (calls i) = .ok event →
      s.stores.processedEvents.get event.eventId = some row →
      row.fingerprint ≠ runtime.fingerprintEvent event →
      (∀ result, s.progress i = .returned result → result = .rejected conflictFailure) ∧
      ∃ n t, exec (step (replayService meteringCheckpoints) runtime calls) s
          (List.replicate n i) = some t ∧
        t.progress i = .returned (.rejected conflictFailure)) ∧
    ∀ i t u failure, step (replayService meteringCheckpoints) runtime calls s i = some t →
      Reaches (step (replayService meteringCheckpoints) runtime calls) t u →
      u.progress i = .returned (.rejected failure) →
      t.stores.processedEvents = s.stores.processedEvents := by
  refine ⟨?_, ?_, ?_, fun i t u failure => unchanged_of_rejected hs⟩
  · -- two that are new would both have claimed the id
    intro i j event event' hi hj hid
    have hnew (k : ι) (event : IndexerEventPayload)
        (hk : s.progress k = .returned (.accepted false event)) :
        (s.progress k).newId false = some event.eventId := by
      obtain ⟨read,hread,_,hsame⟩ := carries_of_reaches hs k event (by rw [hk]; rfl)
      have htype : isMeteringEvent event.eventType = false := hsame ▸ htypes k read hread
      have hnew := IngestionProgress.newId_accepted event
      rw [htype] at hnew
      rw [hk, hnew]
    have honce := (replayInvariant_of_reaches hs).once
    exact honce i j event.eventId (hnew i event hi) (hid ▸ hnew j event' hj)
  · -- both fingerprints are that of the row
    intro i j first duplicate event hi hj hid
    obtain ⟨read,row,hread,hget,hprint⟩ := row_of_accepted htypes hs hi
    obtain ⟨read',row',hread',hget',hprint'⟩ := row_of_accepted htypes hs hj
    rw [hid] at hget'
    obtain rfl := Option.some.inj (hget.symm.trans hget')
    exact ⟨read, read', hread, hread', hprint'.symm.trans hprint⟩
  · intro i event row hread hrow hother
    have htype := htypes i event hread
    refine ⟨fun result hreturned => ?_, ?_⟩
    · exact (fingerprint_of_returned hs hread htype hreturned hrow).resolve_right hother
    · -- on its own the call returns, and the row is still there then
      obtain ⟨n,t,result,hexec,hreturned⟩ : ∃ n t result,
          exec (step (replayService meteringCheckpoints) runtime calls) s (List.replicate n i) =
            some t ∧ t.progress i = .returned result :=
        exec_returns s i
      have ht := reaches_of_exec _ hexec
      obtain ⟨row',hrow',hprint,_⟩ := keeps_of_reaches hs ht _ row hrow
      have hconflict := (fingerprint_of_returned (hs.trans ht) hread htype hreturned
        hrow').resolve_right (hprint ▸ hother)
      exact ⟨n, t, hexec, hconflict ▸ hreturned⟩

section SampleDeliveries

def settledBody (streamId : String) : List UInt8 :=
  bytes "\x7b\"eventId\":\"event-1\",\"eventType\":\"settled\",\"streamId\":\"" ++
    (bytes streamId ++ bytes "\",\"occurredAt\":\"2026-01-01T00:00:00Z\"\x7d")

def settledJson (streamId : String) : Json :=
  .object [("eventId", .string "event-1"), ("eventType", .string "settled"),
    ("streamId", .string streamId), ("occurredAt", .string "2026-01-01T00:00:00Z")]

/-- As `sampleRuntime`, and with the digests of a settled event of two streams. -/
def settledRuntime : IngestionRuntime where
  hmacHex secret rawBody :=
    if rawBody = settledBody "stream-a" then
      "6b09b60f368450ad77326d7ef740022adf62de2aef035e64a1f82ffd039dcb11"
    else if rawBody = settledBody "stream-b" then
      "041c9471a17ddb37a8bdf860c13ea79c97f17f1389cd7b0dcf3288a17e359b91"
    else sampleRuntime.hmacHex secret rawBody
  parseJson rawBody :=
    if rawBody = settledBody "stream-a" then some (settledJson "stream-a")
    else if rawBody = settledBody "stream-b" then some (settledJson "stream-b")
    else sampleRuntime.parseJson rawBody
  fingerprintEvent event :=
    if event.streamId = "stream-a" then
      "96ccfc6fb5630e6845fa0720060476782a666d35b322cea354f0017715530dd9"
    else "ca20813b89f3ff59740cf259ce427e65a3da5a68552827366ed6c5be5f886d34"

def settledCall (streamId : String) : IngestCall where
  secret := some "indexer-secret"
  rawBody := settledBody streamId
  signatureHeader := some (signaturePrefix ++ settledRuntime.hmacHex "indexer-secret"
    (settledBody streamId))
  correlationId := none

def settledEvent (streamId : String) : IndexerEventPayload where
  eventId := "event-1"
  eventType := "settled"
  streamId := streamId
  occurredAt := "2026-01-01T00:00:00Z"
  chainId := none
  transactionHash := none
  sequence := none
  data := none
  correlationId := none

theorem settledBodies_differ : settledBody "stream-b" ≠ settledBody "stream-a" := by
  intro h
  have hstream := List.append_cancel_right (List.append_cancel_left h)
  exact absurd hstream (by decide)

theorem readEvent_settled {streamId : String} (h : streamId = "stream-a" ∨ streamId = "stream-b") :
    readEvent settledRuntime (settledCall streamId) = .ok (settledEvent streamId) := by
  have hjson : settledRuntime.parseJson (settledBody streamId) = some (settledJson streamId) := by
    rcases h with rfl | rfl
    · simp only [settledRuntime, ↓reduceIte]
    · simp only [settledRuntime, settledBodies_differ, ↓reduceIte]
  have hpayload : parsePayload (settledJson streamId) = some (settledEvent streamId) := by
    rcases h with rfl | rfl <;> rfl
  exact readEvent_signed rfl (truthy_signed _) hjson hpayload

/-- Two deliveries of one event, and one of its id with another payload. -/
def deliveries (i : Fin 3) : IngestCall := settledCall (if i.val = 2 then "stream-b" else "stream-a")

def deliveredEvent (i : Fin 3) : IndexerEventPayload :=
  settledEvent (if i.val = 2 then "stream-b" else "stream-a")

theorem readEvent_deliveries (i : Fin 3) :
    readEvent settledRuntime (deliveries i) = .ok (deliveredEvent i) := by
  apply readEvent_settled
  by_cases hi : i.val = 2 <;> simp [hi]

theorem first_delivery_accepted :
    ∃ s event, Reaches (step inMemoryService settledRuntime deliveries) (start noEvents) s ∧
      s.progress 0 = .returned (.accepted false event) ∧
      ∀ j event', s.progress j = .returned (.accepted false event') →
        event'.eventId = event.eventId → j = 0 := by
  have hingest : (inMemoryService.ingest settledRuntime noEvents (deliveries 0)).1 =
      .accepted false (deliveredEvent 0) := by
    rw [EventIngestionService.ingest, readEvent_deliveries]
    rfl
  obtain ⟨n,s,hexec,hreturned⟩ : ∃ n s,
      exec (step inMemoryService settledRuntime deliveries) (start noEvents)
        (List.replicate n 0) = some s ∧
      s.progress 0 = .returned (inMemoryService.ingest settledRuntime noEvents (deliveries 0)).1 := by
    obtain ⟨n,s,hexec,hreturned,_⟩ := exec_alone (i := (0 : Fin 3)) (s := start noEvents) rfl
    exact ⟨n, s, hexec, hreturned⟩
  have htypes (i : Fin 3) (event : IndexerEventPayload)
      (hread : readEvent settledRuntime (deliveries i) = .ok event) :
      isMeteringEvent event.eventType = false := by
    rw [readEvent_deliveries] at hread
    obtain rfl := Except.ok.inj hread
    rfl
  have hs := reaches_of_exec _ hexec
  rw [hingest] at hreturned
  exact ⟨s, _, hs, hreturned, fun j event' hj hid =>
    (settled_deliveries_idempotent htypes hs).1 j 0 event' _ hj hreturned hid⟩

end SampleDeliveries

end IngestionSystem

end StreamPay
