import Mathlib.Logic.Function.Basic
import StreamPay.EventIngestion
import StreamPay.Library.Interleaving

/-! Calls of `ingest` that take turns at their awaits: each turn runs one call
up to its next store call, or to its return. -/
namespace StreamPay
open Interleaving

/-- The await at which a call stands, with what the promise will give. -/
inductive IngestionProgress
  | waiting
  | applied (event : IndexerEventPayload) (checkpoint : Option MeteringCheckpointDecision)
  | claimed (event : IndexerEventPayload) (claim : Option ProcessedIndexerEventClaim)
  | completed (event : IndexerEventPayload) (done : Bool)
  | failed
  | returned (result : IngestionResult)

/-- The event that a call has been the first to take. -/
def IngestionProgress.newEvent : IngestionProgress → Option IndexerEventPayload
  | .applied event (some (.accepted _)) => some event
  | .claimed event (some .claimed) => some event
  | .completed event true => some event
  | .returned (.accepted false event) => some event
  | _ => none

/-- Its id, if the event is a metering event, or if it is not. -/
def IngestionProgress.newId (metering : Bool) (progress : IngestionProgress) : Option String :=
  (progress.newEvent.filter fun event => isMeteringEvent event.eventType = metering).map
    IndexerEventPayload.eventId

theorem IngestionProgress.newId_eq_some {metering : Bool} {progress : IngestionProgress}
    {eventId : String} : progress.newId metering = some eventId ↔
      ∃ event, progress.newEvent = some event ∧ isMeteringEvent event.eventType = metering ∧
        event.eventId = eventId := by
  simp [newId, Option.map_eq_some_iff, Option.filter_eq_some_iff, and_assoc]

theorem IngestionProgress.newId_accepted (event : IndexerEventPayload) :
    (returned (.accepted false event)).newId (isMeteringEvent event.eventType) =
      some event.eventId :=
  newId_eq_some.mpr ⟨event, rfl, rfl, rfl⟩

def IngestionProgress.event : IngestionProgress → Option IndexerEventPayload
  | .applied event _ => some event
  | .claimed event _ => some event
  | .completed event _ => some event
  | .returned (.accepted _ event) => some event
  | _ => none

theorem IngestionProgress.newEvent_applied {read event : IndexerEventPayload}
    {checkpoint : Option MeteringCheckpointDecision}
    (h : (IngestionProgress.applied read checkpoint).newEvent = some event) :
    read = event ∧ ∃ sequence, checkpoint = some (.accepted sequence) := by
  cases checkpoint with
  | none => cases h
  | some decision =>
    cases decision with
    | accepted sequence => exact ⟨Option.some.inj h, sequence, rfl⟩
    | duplicate _ | late _ | gap _ _ | gapTooLarge _ _ => cases h

theorem IngestionProgress.newEvent_claimed {read event : IndexerEventPayload}
    {claim : Option ProcessedIndexerEventClaim}
    (h : (IngestionProgress.claimed read claim).newEvent = some event) :
    read = event ∧ claim = some .claimed := by
  cases claim with
  | none => cases h
  | some claim =>
    cases claim with
    | claimed => exact ⟨Option.some.inj h, rfl⟩
    | duplicate | inProgress | conflict => cases h

def conflictFailure : IngestionFailure :=
  ⟨.idempotencyConflict, "The event id is already bound to a different payload."⟩

def IngestionProgress.isConflict : IngestionProgress → Bool
  | .claimed _ (some .conflict) => true
  | .returned (.rejected failure) => failure = conflictFailure
  | _ => false

def inProgressFailure : IngestionFailure :=
  ⟨.settlementInProgress, "Settlement for this event is already being processed."⟩

namespace EventIngestionService
variable {π μ : Type*} (service : EventIngestionService π μ) (runtime : IngestionRuntime)

/-- From the start of a call to its first await. -/
def receive (s : IngestionState π μ) (call : IngestCall) : IngestionProgress × IngestionState π μ :=
  match readEvent runtime call with
  | .error failure => (.returned (.rejected failure), s)
  | .ok event =>
    if isMeteringEvent event.eventType then
      match event.sequence with
      | none => (.returned (.rejected ⟨.invalidPayload,
          "Metering events require a positive integer sequence."⟩), s)
      | some sequence =>
        let (checkpoint, meteringCheckpoints) := service.meteringCheckpoints.apply
          s.meteringCheckpoints ⟨event.streamId, event.eventId, sequence⟩
        (.applied event checkpoint, { s with meteringCheckpoints := meteringCheckpoints })
    else
      let (claim, processedEvents) := service.processedEvents.claim s.processedEvents event.eventId
        (runtime.fingerprintEvent event)
      (.claimed { event with correlationId := call.correlationId } claim,
        { s with processedEvents := processedEvents })

/-- One turn of a call; one that has returned takes none. -/
def advance (call : IngestCall) (s : IngestionState π μ) :
    IngestionProgress → Option (IngestionProgress × IngestionState π μ)
  | .waiting => some (service.receive runtime s call)
  | .applied event checkpoint => some (.returned (meteringResult event checkpoint), s)
  | .claimed _ none => some (.returned (.rejected replayUnavailable), s)
  | .claimed _ (some .conflict) => some (.returned (.rejected conflictFailure), s)
  | .claimed _ (some .inProgress) => some (.returned (.rejected inProgressFailure), s)
  -- only the call that has claimed the event goes on to complete it
  | .claimed event (some .claimed) =>
    let (done, processedEvents) :=
      service.processedEvents.complete s.processedEvents event.eventId
    some (.completed event done.isSome, { s with processedEvents := processedEvents })
  | .claimed event (some .duplicate) => some (.returned (.accepted true event), s)
  | .completed event true => some (.returned (.accepted false event), s)
  | .completed event false => some (.failed, { s with
      processedEvents := (service.processedEvents.fail s.processedEvents event.eventId).2 })
  | .failed => some (.returned (.rejected replayUnavailable), s)
  | .returned _ => none

/-- What a turn can do. -/
inductive Turn (call : IngestCall) (s : IngestionState π μ) :
    IngestionProgress → IngestionProgress → IngestionState π μ → Prop
  | refused (failure : IngestionFailure) :
      (∀ event, readEvent runtime call = .ok event → isMeteringEvent event.eventType = true) →
      Turn call s .waiting (.returned (.rejected failure)) s
  | applied (event : IndexerEventPayload) (sequence : ℕ) : readEvent runtime call = .ok event →
      isMeteringEvent event.eventType = true → event.sequence = some sequence →
      Turn call s .waiting
        (.applied event (service.meteringCheckpoints.apply s.meteringCheckpoints
          ⟨event.streamId, event.eventId, sequence⟩).1)
        { s with meteringCheckpoints := (service.meteringCheckpoints.apply s.meteringCheckpoints
          ⟨event.streamId, event.eventId, sequence⟩).2 }
  | claimed (event : IndexerEventPayload) : readEvent runtime call = .ok event →
      isMeteringEvent event.eventType = false →
      Turn call s .waiting
        (.claimed { event with correlationId := call.correlationId }
          (service.processedEvents.claim s.processedEvents event.eventId
            (runtime.fingerprintEvent event)).1)
        { s with processedEvents := (service.processedEvents.claim s.processedEvents event.eventId
          (runtime.fingerprintEvent event)).2 }
  | completed (event : IndexerEventPayload) :
      Turn call s (.claimed event (some .claimed))
        (.completed event
          (service.processedEvents.complete s.processedEvents event.eventId).1.isSome)
        { s with processedEvents :=
          (service.processedEvents.complete s.processedEvents event.eventId).2 }
  | failed (event : IndexerEventPayload) :
      Turn call s (.completed event false) .failed
        { s with processedEvents :=
          (service.processedEvents.fail s.processedEvents event.eventId).2 }
  | returned {progress : IngestionProgress} {result : IngestionResult} : progress ≠ .waiting →
      (IngestionProgress.returned result).newEvent = progress.newEvent →
      (∀ event, (IngestionProgress.returned result).event = some event →
        progress.event = some event) →
      (progress.isConflict = true → (IngestionProgress.returned result).isConflict = true) →
      Turn call s progress (.returned result) s

variable {service runtime} {call : IngestCall}

theorem turn_of_receive (s : IngestionState π μ) :
    service.Turn runtime call s .waiting (service.receive runtime s call).1
      (service.receive runtime s call).2 := by
  unfold receive
  cases hread : readEvent runtime call with
  | error failure => exact .refused failure (by simp [hread])
  | ok event =>
    simp only
    cases hmetering : isMeteringEvent event.eventType with
    | true =>
      simp only [↓reduceIte]
      cases hsequence : event.sequence with
      | none =>
        refine .refused _ fun event' hread' => ?_
        obtain rfl := Except.ok.inj (hread.symm.trans hread')
        exact hmetering
      | some sequence => exact .applied event sequence hread hmetering hsequence
    | false =>
      simp only [Bool.false_eq_true, ↓reduceIte]
      exact .claimed event hread hmetering

/-- A started call that is rejected has not taken its event as new. -/
theorem Turn.rejected {s : IngestionState π μ} {progress : IngestionProgress}
    {failure : IngestionFailure} (hstarted : progress ≠ .waiting)
    (hnew : progress.newEvent = none)
    (hconflict : progress.isConflict = true → failure = conflictFailure) :
    service.Turn runtime call s progress (.returned (.rejected failure)) s := by
  refine .returned hstarted hnew.symm (fun event hevent => ?_) fun h => ?_
  · cases hevent
  · exact decide_eq_true (hconflict h)

theorem turn_of_advance {s s' : IngestionState π μ} {progress progress' : IngestionProgress}
    (h : service.advance runtime call s progress = some (progress', s')) :
    service.Turn runtime call s progress progress' s' := by
  cases progress with
  | waiting =>
    obtain ⟨rfl,rfl⟩ := Prod.mk.inj (Option.some.inj h)
    exact turn_of_receive s
  | applied event checkpoint =>
    obtain ⟨rfl,rfl⟩ := Prod.mk.inj (Option.some.inj h)
    cases checkpoint with
    | none => exact .rejected nofun rfl nofun
    | some decision =>
      cases decision with
      | accepted _ | duplicate _ => exact .returned nofun rfl (fun _ he => he) nofun
      | late _ | gap _ _ | gapTooLarge _ _ => exact .rejected nofun rfl nofun
  | claimed event claim =>
    cases claim with
    | none =>
      obtain ⟨rfl,rfl⟩ := Prod.mk.inj (Option.some.inj h)
      exact .rejected nofun rfl nofun
    | some claim =>
      -- only a new claim goes on to `complete`
      cases claim with
      | claimed =>
        obtain ⟨rfl,rfl⟩ := Prod.mk.inj (Option.some.inj h)
        exact .completed event
      | duplicate =>
        obtain ⟨rfl,rfl⟩ := Prod.mk.inj (Option.some.inj h)
        exact .returned nofun rfl (fun _ he => he) nofun
      | inProgress =>
        obtain ⟨rfl,rfl⟩ := Prod.mk.inj (Option.some.inj h)
        exact .rejected nofun rfl nofun
      | conflict =>
        obtain ⟨rfl,rfl⟩ := Prod.mk.inj (Option.some.inj h)
        exact .rejected nofun rfl fun _ => rfl
  | completed event done =>
    cases done with
    | true =>
      obtain ⟨rfl,rfl⟩ := Prod.mk.inj (Option.some.inj h)
      exact .returned nofun rfl (fun _ he => he) nofun
    | false =>
      obtain ⟨rfl,rfl⟩ := Prod.mk.inj (Option.some.inj h)
      exact .failed event
  | failed =>
    obtain ⟨rfl,rfl⟩ := Prod.mk.inj (Option.some.inj h)
    exact .rejected nofun rfl nofun
  | returned result => cases h

variable (service runtime) in
/-- What a call returns, and the stores after it, if no other call takes a turn. -/
inductive Finishes (call : IngestCall) :
    IngestionProgress → IngestionState π μ → IngestionResult → IngestionState π μ → Prop
  | returned (result : IngestionResult) (s : IngestionState π μ) :
      Finishes call (.returned result) s result s
  | turn {progress : IngestionProgress} {s t : IngestionState π μ} {result : IngestionResult}
      {after : IngestionProgress × IngestionState π μ} :
      service.advance runtime call s progress = some after →
      Finishes call after.1 after.2 result t → Finishes call progress s result t

/-- A new claim is completed, and marked failed if it cannot be. -/
theorem finishes_claimed (event : IndexerEventPayload) (s : IngestionState π μ) :
    service.Finishes runtime call (.claimed event (some .claimed)) s
      (service.completeClaim s.processedEvents event).1
      { s with processedEvents := (service.completeClaim s.processedEvents event).2 } := by
  cases hcomplete : service.processedEvents.complete s.processedEvents event.eventId with
  | mk done completed =>
    have hturn : service.advance runtime call s (.claimed event (some .claimed)) =
        some (.completed event done.isSome, { s with processedEvents := completed }) := by
      simp [advance, hcomplete]
    cases done with
    | some _ =>
      have hclaim : service.completeClaim s.processedEvents event =
          (.accepted false event, completed) := by
        simp [completeClaim, hcomplete]
      rw [hclaim]
      exact .turn hturn (.turn rfl (.returned _ _))
    | none =>
      have hclaim : service.completeClaim s.processedEvents event =
          (.rejected replayUnavailable,
            (service.processedEvents.fail completed event.eventId).2) := by
        simp [completeClaim, hcomplete]
      rw [hclaim]
      exact .turn hturn (.turn rfl (.turn rfl (.returned _ _)))

/-- A call that is not interrupted is `ingest`. -/
theorem finishes_ingest (s : IngestionState π μ) :
    service.Finishes runtime call .waiting s (service.ingest runtime s call).1
      (service.ingest runtime s call).2 := by
  refine .turn rfl ?_
  unfold receive ingest
  cases readEvent runtime call with
  | error failure => exact .returned _ _
  | ok event =>
    simp only
    cases hmetering : isMeteringEvent event.eventType with
    | true =>
      simp only [↓reduceIte, ingestMetering]
      cases event.sequence with
      | none => exact .returned _ _
      | some sequence => exact .turn rfl (.returned _ _)
    | false =>
      simp only [Bool.false_eq_true, ↓reduceIte, ingestSettlement]
      cases (service.processedEvents.claim s.processedEvents event.eventId
        (runtime.fingerprintEvent event)).1 with
      | none => exact .turn rfl (.returned _ _)
      | some claim =>
        cases claim with
        | conflict => exact .turn rfl (.returned _ _)
        | inProgress => exact .turn rfl (.returned _ _)
        | duplicate => exact .turn rfl (.returned _ _)
        | claimed => exact finishes_claimed { event with correlationId := call.correlationId } _

/-- From every await a call comes to its return. -/
theorem finishes_total (progress : IngestionProgress) (s : IngestionState π μ) :
    ∃ result t, service.Finishes runtime call progress s result t := by
  have hfailed (s : IngestionState π μ) :
      service.Finishes runtime call .failed s (.rejected replayUnavailable) s :=
    .turn rfl (.returned _ _)
  cases progress with
  | waiting => exact ⟨_, _, finishes_ingest s⟩
  | applied event checkpoint => exact ⟨_, _, .turn rfl (.returned _ _)⟩
  | claimed event claim =>
    cases claim with
    | none => exact ⟨_, _, .turn rfl (.returned _ _)⟩
    | some claim =>
      cases claim with
      | conflict => exact ⟨_, _, .turn rfl (.returned _ _)⟩
      | inProgress => exact ⟨_, _, .turn rfl (.returned _ _)⟩
      | duplicate => exact ⟨_, _, .turn rfl (.returned _ _)⟩
      | claimed => exact ⟨_, _, finishes_claimed event s⟩
  | completed event done =>
    cases done with
    | true => exact ⟨_, _, .turn rfl (.returned _ _)⟩
    | false => exact ⟨_, _, .turn rfl (hfailed _)⟩
  | failed => exact ⟨_, _, hfailed s⟩
  | returned result => exact ⟨_, _, .returned _ _⟩

end EventIngestionService

structure IngestionSystem (ι π μ : Type*) where
  stores : IngestionState π μ
  progress : ι → IngestionProgress

namespace IngestionSystem
variable {ι π μ : Type*}

def start (stores : IngestionState π μ) : IngestionSystem ι π μ := ⟨stores, fun _ => .waiting⟩

variable [DecidableEq ι]

def step (service : EventIngestionService π μ) (runtime : IngestionRuntime) (calls : ι → IngestCall)
    (s : IngestionSystem ι π μ) (i : ι) : Option (IngestionSystem ι π μ) :=
  (service.advance runtime (calls i) s.stores (s.progress i)).map fun after =>
    ⟨after.2, Function.update s.progress i after.1⟩

variable {service : EventIngestionService π μ} {runtime : IngestionRuntime}
  {calls : ι → IngestCall}

/-- A step is a turn of one call, and leaves the others where they are. -/
theorem step_eq_some {s t : IngestionSystem ι π μ} {i : ι}
    (h : step service runtime calls s i = some t) :
    service.advance runtime (calls i) s.stores (s.progress i) = some (t.progress i, t.stores) ∧
      ∀ j ≠ i, t.progress j = s.progress j := by
  obtain ⟨after,hafter,rfl⟩ := Option.map_eq_some_iff.mp h
  refine ⟨?_, fun j hj => Function.update_of_ne hj _ _⟩
  simp [hafter]

theorem step_of_advance {s : IngestionSystem ι π μ} {i : ι}
    {after : IngestionProgress × IngestionState π μ}
    (h : service.advance runtime (calls i) s.stores (s.progress i) = some after) :
    ∃ t, step service runtime calls s i = some t ∧ t.progress i = after.1 ∧ t.stores = after.2 ∧
      ∀ j ≠ i, t.progress j = s.progress j := by
  refine ⟨⟨after.2, Function.update s.progress i after.1⟩, ?_, Function.update_self _ _ _, rfl,
    fun j hj => Function.update_of_ne hj _ _⟩
  rw [step, h, Option.map_some]

/-- Turns of one call alone bring it to what it finishes with. -/
theorem exec_of_finishes {i : ι} {progress : IngestionProgress} {stores stores' : IngestionState π μ}
    {result : IngestionResult}
    (h : service.Finishes runtime (calls i) progress stores result stores')
    {s : IngestionSystem ι π μ} (hprogress : s.progress i = progress) (hstores : s.stores = stores) :
    ∃ n t, exec (step service runtime calls) s (List.replicate n i) = some t ∧
      t.progress i = .returned result ∧ t.stores = stores' ∧
      ∀ j ≠ i, t.progress j = s.progress j := by
  induction h generalizing s with
  | returned result stores => exact ⟨0, s, rfl, hprogress, hstores, fun _ _ => rfl⟩
  | turn hturn _ ih =>
    rw [← hprogress, ← hstores] at hturn
    obtain ⟨u,hstep,hprogress',hstores',hothers⟩ := step_of_advance hturn
    obtain ⟨n,t,hexec,hreturned,hstores'',hothers'⟩ := ih hprogress' hstores'
    refine ⟨n+1, t, ?_, hreturned, hstores'', fun j hj => (hothers' j hj).trans (hothers j hj)⟩
    rw [List.replicate_succ, exec, hstep]
    exact hexec

/-- A call whose turns are not interrupted returns what `ingest` does. -/
theorem exec_alone {s : IngestionSystem ι π μ} {i : ι} (hwaiting : s.progress i = .waiting) :
    ∃ n t, exec (step service runtime calls) s (List.replicate n i) = some t ∧
      t.progress i = .returned (service.ingest runtime s.stores (calls i)).1 ∧
      t.stores = (service.ingest runtime s.stores (calls i)).2 ∧
      ∀ j ≠ i, t.progress j = s.progress j :=
  exec_of_finishes (EventIngestionService.finishes_ingest s.stores) hwaiting rfl

theorem exec_returns (s : IngestionSystem ι π μ) (i : ι) :
    ∃ n t result, exec (step service runtime calls) s (List.replicate n i) = some t ∧
      t.progress i = .returned result := by
  obtain ⟨result,stores,hfinishes⟩ :
      ∃ result t, service.Finishes runtime (calls i) (s.progress i) s.stores result t :=
    EventIngestionService.finishes_total _ _
  obtain ⟨n,t,hexec,hreturned,_,_⟩ := exec_of_finishes hfinishes rfl rfl
  exact ⟨n, t, result, hexec, hreturned⟩

theorem turn_of_step {s t : IngestionSystem ι π μ} {i : ι}
    (h : step service runtime calls s i = some t) :
    service.Turn runtime (calls i) s.stores (s.progress i) (t.progress i) t.stores :=
  EventIngestionService.turn_of_advance (step_eq_some h).1

/-- The events of a call have the id and the type that it was read to. -/
def Carries (runtime : IngestionRuntime) (call : IngestCall) (progress : IngestionProgress) : Prop :=
  ∀ event, progress.event = some event → ∃ read, readEvent runtime call = .ok read ∧
    read.eventId = event.eventId ∧ read.eventType = event.eventType

theorem carries_of_turn {call : IngestCall} {s s' : IngestionState π μ}
    {progress progress' : IngestionProgress}
    (h : service.Turn runtime call s progress progress' s') (hcarries : Carries runtime call progress) :
    Carries runtime call progress' := by
  intro event hevent
  cases h with
  | refused failure _ => cases hevent
  | applied read sequence hread _ _ =>
    obtain rfl := Option.some.inj hevent
    exact ⟨read, hread, rfl, rfl⟩
  | claimed read hread _ =>
    obtain rfl := Option.some.inj hevent
    exact ⟨read, hread, rfl, rfl⟩
  | completed _ => exact hcarries event hevent
  | failed _ => cases hevent
  | returned _ _ hsame _ => exact hcarries event (hsame event hevent)

theorem carries_of_reaches {C : IngestionSystem ι π μ → ι → Prop} {stores : IngestionState π μ}
    {s : IngestionSystem ι π μ}
    (hs : ReachesWhile (step service runtime calls) C (start stores) s) (i : ι) :
    Carries runtime (calls i) (s.progress i) := by
  induction hs with
  | refl => exact nofun
  | tail j _ _ hstep ih =>
    by_cases hij : i = j
    · subst hij
      exact carries_of_turn (turn_of_step hstep) ih
    · rw [(step_eq_some hstep).2 i hij]
      exact ih

end IngestionSystem

end StreamPay
