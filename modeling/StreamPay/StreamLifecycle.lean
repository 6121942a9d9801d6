import StreamPay.StreamRequests

/-! The changes of status that requests make, against the lifecycle of streams. -/
namespace StreamPay
open Interleaving StreamRepository

/-- `active` leads to every status, `paused` back to `active` or to `cancelled`;
`cancelled` and `completed` are terminal. -/
def StreamStatus.leadsTo : StreamStatus → StreamStatus → Bool
  | .active, _ => true
  | .paused, next => next ≠ .completed
  | .cancelled, next => next = .cancelled
  | .completed, next => next = .completed

theorem StreamStatus.leadsTo_self (status : StreamStatus) : status.leadsTo status = true := by
  cases status <;> rfl

namespace StreamsSystem
variable {ι : Type*} [DecidableEq ι] {runtime : StreamsRuntime} {requests : ι → StreamsRequest}
  {s t : StreamsSystem ι}

/-- No stream takes a status that its lifecycle does not lead to. -/
def FollowsLifecycle (s : StreamsSystem ι) (_ : StreamsAction ι) (t : StreamsSystem ι) : Prop :=
  ∀ id row row', s.table.findRow id = some row → t.table.findRow id = some row' →
    row.status.leadsTo row'.status = true

/-- A PATCH that finds its row asks for no status that the row does not lead to. -/
def AsksForNext (s : StreamsSystem ι) : StreamsAction ι → Prop
  | .execute i _ _ => ∀ text updates currentUpdatedAt clock id row status,
      s.progress i = .sent (.updateById text updates currentUpdatedAt clock) →
      parseUuid text = some id → s.table.findRow id = some row →
      isCurrent currentUpdatedAt row = true → isRefused updates currentUpdatedAt = false →
      requestedStatus updates = some status → row.status.leadsTo status = true
  | _ => True

theorem setsNull_of_requested {updates : UpdateStreamParams} {status : StreamStatus}
    (h : requestedStatus updates = some status) : setsNull updates = false := by
  obtain ⟨value,hvalue,hjoin⟩ := Option.bind_eq_some_iff.mp h
  have hcolumn : statusColumn value = some (some status) := Option.join_eq_some_iff.mp hjoin
  simp [setsNull, hvalue, hcolumn]

theorem followsLifecycle_iff {a : StreamsAction ι} (h : step runtime requests s a = some t) :
    FollowsLifecycle s a t ↔ AsksForNext s a := by
  cases turn_of_step h with
  | idle htable _ hother =>
    have hasks : AsksForNext s a := by
      cases a with
      | execute i generated now => exact absurd rfl (hother i generated now)
      | send i now => trivial
      | respond i now => trivial
    refine iff_of_true (fun id row row' hrow hrow' => ?_) hasks
    rw [htable, hrow] at hrow'
    rw [Option.some.inj hrow']
    exact row'.status.leadsTo_self
  | execute i generated now statement result table hsent hexecute heffect =>
    constructor
    · intro hfollows text updates currentUpdatedAt clock id row status hsent' hid hrow hcurrent
        hread hstatus
      obtain rfl := StreamsProgress.sent.inj (hsent.symm.trans hsent')
      obtain ⟨table',hupdate⟩ := updateById_of_current clock hread
        (setsNull_of_requested hstatus) hrow hcurrent
      obtain ⟨_,hrow',_,_,_,hrows⟩ := updateById_some hupdate
      obtain rfl := Option.some.inj (hrow.symm.trans hrow')
      have htable : table = table' := by
        simp only [StreamPay.execute, hid, Option.bind_some, hupdate] at hexecute
        exact (Prod.mk.inj hexecute).2.symm
      have hafter := hfollows id row (patched updates clock row) hrow
        (by rw [htable, hrows, if_pos rfl])
      rwa [patched, hstatus] at hafter
    · intro hasks id row row' hrow hrow'
      obtain ⟨after,hafter,hchange⟩ := heffect.row hrow
      obtain rfl := Option.some.inj (hafter.symm.trans hrow')
      cases hchange with
      | kept _ => exact row.status.leadsTo_self
      | patched text updates currentUpdatedAt clock hid hcurrent hread =>
        -- the row has the status that was asked for, or else keeps its own
        cases hstatus : requestedStatus updates with
        | none =>
          rw [patched, hstatus]
          exact row.status.leadsTo_self
        | some status =>
          rw [patched, hstatus]
          exact hasks text updates currentUpdatedAt clock id row status hsent hid hrow hcurrent
            hread hstatus
      | deleted text clock _ => exact row.status.leadsTo_self
      | restored text clock _ _ => exact row.status.leadsTo_self

/-- A run of requests keeps to the lifecycle exactly if every PATCH that finds its
row asks for a status that the row leads to. -/
theorem statuses_follow_lifecycle_iff (runtime : StreamsRuntime) (requests : ι → StreamsRequest)
    (table : StreamsTable) (actions : List (StreamsAction ι)) :
    Along (step runtime requests) FollowsLifecycle (start table) actions ↔
      Along (step runtime requests) (fun s a _ => AsksForNext s a) (start table) actions := by
  have hstep : ∀ (s : StreamsSystem ι) (a : StreamsAction ι) (t : StreamsSystem ι),
      step runtime requests s a = some t → (FollowsLifecycle s a t ↔ AsksForNext s a) :=
    fun _ _ _ h => followsLifecycle_iff h
  exact along_congr hstep (start table) actions

section SampleLifecycle

def noStreams : StreamsTable := ⟨[], List.nodup_nil⟩

def sampleStreamId : Uuid := ⟨"00000000-0000-4000-8000-000000000003", by decide⟩

/-- As zod and `new Date` are on the requests below. -/
def sampleStreamsRuntime : StreamsRuntime where
  uuidIssue _ := none
  isDatetime _ := true
  typeIssue _ := "Invalid input: expected string, received undefined"
  otherDate _ := none

def sampleCreate : StreamsRequest := .create (.object [("payer", .string "payer"),
  ("recipient", .string "recipient"), ("ratePerSecond", .string "1"),
  ("startTime", .string "1970-01-01T00:00:00.000Z"), ("totalAmount", .string "100")])

def patchStatus (status : String) : StreamsRequest :=
  .patch sampleStreamId.text (.object [("status", .string status)])

def reopening (i : Fin 3) : StreamsRequest :=
  if i.val = 0 then sampleCreate
  else patchStatus (if i.val = 1 then "cancelled" else "active")

def statusOf (s : StreamsSystem ι) : Option StreamStatus :=
  (s.table.findRow sampleStreamId).map StreamOf.status

/-- A cancelled stream is made active again. -/
theorem cancelled_stream_reopened :
    ¬ ∀ (runtime : StreamsRuntime) (requests : Fin 3 → StreamsRequest)
      (actions : List (StreamsAction (Fin 3))),
      Along (step runtime requests) FollowsLifecycle (start noStreams) actions := by
  intro h
  let step := step sampleStreamsRuntime reopening
  have hrun : ((exec step (start noStreams) [.send 0 0, .execute 0 sampleStreamId 0, .send 1 1,
      .execute 1 sampleStreamId 0, .send 2 2]).bind fun s =>
        (step s (.execute 2 sampleStreamId 0)).map fun t => (statusOf s, statusOf t)) =
      some (some .cancelled, some .active) := by
    decide +kernel
  obtain ⟨s,hs,hrest⟩ := Option.bind_eq_some_iff.mp hrun
  obtain ⟨t,ht,hseen⟩ := Option.map_eq_some_iff.mp hrest
  obtain ⟨hbefore,hafter⟩ := Prod.mk.inj hseen
  obtain ⟨row,hrow,hcancelled⟩ := Option.map_eq_some_iff.mp hbefore
  obtain ⟨row',hrow',hactive⟩ := Option.map_eq_some_iff.mp hafter
  have hfollows :=
    (h sampleStreamsRuntime reopening _).last hs ht sampleStreamId row row' hrow hrow'
  rw [hcancelled, hactive] at hfollows
  cases hfollows

end SampleLifecycle

end StreamsSystem

end StreamPay
