import Mathlib.Tactic.FieldSimp
import Mathlib.Tactic.Linarith
import StreamPay.AccrualBalance
import StreamPay.Library.ClippedSpan

/-! Accrued amounts over settlements: what one period accrues against the periods
that a settlement cuts it into. -/
namespace StreamPay
open Interleaving ClippedSpan

/-- The stream as a settlement leaves it. -/
def Stream.settledAt (stream : Stream) (t : Date) : Stream := { stream with lastSettledAt := t }

/-- What `calculateAccrual` shows, before it is rounded. -/
def accrued (stream : Stream) (now : Date) : ℚ :=
  (AccrualService.calculateAccrual stream now).accruedAmount

/-- What is accrued at each of the settlements, and between them. -/
def settledAmounts (stream : Stream) : List Date → List ℚ
  | [] => []
  | t :: ts => accrued stream t :: settledAmounts (stream.settledAt t) ts

section Accruals
variable {stream : Stream}

/-- The service and the repository compute the same. -/
theorem calculateAccruedEstimate_eq (stream : Stream) (now : Date) :
    StreamRepository.calculateAccruedEstimate stream now = accrued stream now := rfl

theorem effectiveEnd_eq_clip (stream : Stream) (now : Date) :
    effectiveEnd stream now = clip stream.endTime now := by
  unfold effectiveEnd
  cases stream.endTime with
  | none => rfl
  | some endTime =>
    have hmin (a b : ℤ) : (if a > b then b else a) = min a b := by
      split_ifs <;> omega
    exact hmin now endTime

theorem elapsedSeconds_eq_span (stream : Stream) (now : Date) :
    elapsedSeconds stream now = (span stream.endTime stream.lastSettledAt now : ℤ)/1000 := by
  rw [elapsedSeconds, effectiveEnd_eq_clip, span]
  push_cast
  rw [← max_div_div_right (by norm_num : (0:ℚ) ≤ 1000), zero_div]

/-- An active stream accrues its rate for the time between the settlement and its end. -/
theorem accrued_eq (hactive : stream.status = .active) (now : Date) : accrued stream now =
    (span stream.endTime stream.lastSettledAt now : ℤ)/1000*stream.rate := by
  rw [accrued, AccrualService.calculateAccrual, if_neg (not_not.mpr hactive),
    elapsedSeconds_eq_span]

theorem accrued_settledAt (hactive : stream.status = .active) (l now : Date) :
    accrued (stream.settledAt l) now = (span stream.endTime l now : ℤ)/1000*stream.rate := by
  have hstill : (stream.settledAt l).status = .active := hactive
  exact accrued_eq hstill now

theorem accrued_add (hactive : stream.status = .active) {l t u : Date} (hlt : l ≤ t) (htu : t ≤ u) :
    accrued (stream.settledAt l) t+accrued (stream.settledAt t) u =
      accrued (stream.settledAt l) u := by
  have hspans : ((span stream.endTime l t : ℤ) : ℚ)+(span stream.endTime t u : ℤ) =
      (span stream.endTime l u : ℤ) := by
    exact_mod_cast span_add hlt htu
  rw [accrued_settledAt hactive, accrued_settledAt hactive, accrued_settledAt hactive, ← hspans]
  ring

theorem accrued_nonneg (hactive : stream.status = .active) (hrate : 0 ≤ stream.rate) (now : Date) :
    0 ≤ accrued stream now := by
  have hspan : (0:ℚ) ≤ (span stream.endTime stream.lastSettledAt now : ℤ) := by
    exact_mod_cast span_nonneg stream.endTime stream.lastSettledAt now
  rw [accrued_eq hactive]
  positivity

theorem accrued_mono (hactive : stream.status = .active) (hrate : 0 ≤ stream.rate)
    {t u : Date} (htu : t ≤ u) : accrued stream t ≤ accrued stream u := by
  have hspan : ((span stream.endTime stream.lastSettledAt t : ℤ) : ℚ) ≤
      (span stream.endTime stream.lastSettledAt u : ℤ) := by
    exact_mod_cast span_mono stream.endTime stream.lastSettledAt htu
  rw [accrued_eq hactive, accrued_eq hactive]
  gcongr

theorem accrued_of_ended (hactive : stream.status = .active) {endTime now : Date}
    (hend : stream.endTime = some endTime) (h : endTime ≤ now) :
    accrued stream now = accrued stream endTime := by
  rw [accrued_eq hactive, accrued_eq hactive, hend, span_of_le stream.lastSettledAt h]

/-- Over any number of settlements, no time is paid twice and none is left out. -/
theorem sum_settledAmounts (hactive : stream.status = .active) {l : Date} {ts : List Date}
    (h : (l :: ts).Pairwise (· ≤ ·)) : (settledAmounts (stream.settledAt l) ts).sum =
      accrued (stream.settledAt l) (ts.getLast?.getD l) := by
  have hamounts (l : Date) (ts : List Date) : (settledAmounts (stream.settledAt l) ts).sum =
      ((spans stream.endTime l ts).sum : ℤ)/1000*stream.rate := by
    induction ts generalizing l with
    | nil => simp [settledAmounts, spans]
    | cons t ts ih =>
      have hnext : (stream.settledAt l).settledAt t = stream.settledAt t := rfl
      rw [settledAmounts, List.sum_cons, hnext, ih, accrued_settledAt hactive, spans, List.sum_cons]
      push_cast
      ring
  rw [hamounts, sum_spans h, accrued_settledAt hactive]

end Accruals

/-- No row of the table has a negative rate. -/
def RatesNonneg (table : StreamsTable) : Prop :=
  ∀ id row, table.findRow id = some row → 0 ≤ row.ratePerSecond

theorem RowEffect.rate_eq {id : Uuid} {row row' : StreamRow} {statement : StreamStatement}
    {result : StatementResult} (h : RowEffect id row statement result row') :
    row'.ratePerSecond = row.ratePerSecond := by
  cases h <;> rfl

/-- A rate is set by `create` only, from a text that is made of digits. -/
theorem RatesNonneg.execute {table : StreamsTable} (h : RatesNonneg table) (generated : Uuid)
    (now : Timestamp) (statement : StreamStatement) :
    RatesNonneg (execute table generated now statement).2 := by
  intro id row' hrow'
  rcases (execute_effect table generated now statement).origin hrow' with
    ⟨row,hrow⟩ | ⟨data,_,_,rfl,_⟩
  · obtain ⟨row'',hrow'',heffect⟩ := (execute_effect table generated now statement).row hrow
    obtain rfl := Option.some.inj (hrow'.symm.trans hrow'')
    rw [heffect.rate_eq]
    exact h id row hrow
  · simp only [StreamPay.execute] at hrow'
    cases hcreate : StreamRepository.create table data generated now with
    | none =>
      rw [hcreate] at hrow'
      exact h id row' hrow'
    | some created =>
      obtain ⟨stream,table'⟩ := created
      obtain ⟨ratePerSecond,totalAmount,hrate,_,_,_,hrows⟩ :=
        StreamRepository.create_eq_some hcreate
      simp only [hcreate, hrows] at hrow'
      split_ifs at hrow'
      · rw [← Option.some.inj hrow']
        exact decimalColumn_nonneg hrate
      · exact h id row' hrow'

namespace StreamsSystem
variable {ι : Type*} [DecidableEq ι] {runtime : StreamsRuntime} {requests : ι → StreamsRequest}
  {s : StreamsSystem ι}

/-- Whatever requests are made, the rates of all streams are zero or more. -/
theorem rate_nonneg_of_reaches (hs : Reaches (step runtime requests) (start noStreams) s)
    {id : Uuid} {row : StreamRow} (hrow : s.table.findRow id = some row) : 0 ≤ row.fetch.rate := by
  have hrates : RatesNonneg s.table := by
    refine hs.invariant (fun s => RatesNonneg s.table) ?_ fun id row hrow => by cases hrow
    intro s a t h _ ht
    cases turn_of_step ht with
    | idle hsame _ _ => exact hsame.symm ▸ h
    | execute i generated now statement result table _ hexecute _ =>
      have hafter := RatesNonneg.execute h generated now statement
      rw [hexecute] at hafter
      exact hafter
  have hrate : (0:ℚ) ≤ row.ratePerSecond := by exact_mod_cast hrates id row hrow
  exact div_nonneg hrate (by norm_num)

end StreamsSystem

section Settlements
variable {ι : Type*} [DecidableEq ι] {runtime : StreamsRuntime} {requests : ι → StreamsRequest}

/-- To settle an active stream at a time between, before its end or after it, splits
what accrues into the two parts. At the rates that requests can store, the amount is
not negative and does not fall, and after the end it stays as it is. -/
theorem settling_splits_accrual {stream : Stream} (hactive : stream.status = .active) :
    (∀ l t u, l ≤ t → t ≤ u → accrued (stream.settledAt l) u =
      accrued (stream.settledAt l) t+accrued (stream.settledAt t) u) ∧
    (0 ≤ stream.rate → (∀ now, 0 ≤ accrued stream now) ∧
      ∀ t u, t ≤ u → accrued stream t ≤ accrued stream u) ∧
    (∀ s id row,
      Reaches (StreamsSystem.step runtime requests) (.start StreamsSystem.noStreams) s →
      s.table.findRow id = some row → 0 ≤ row.fetch.rate) ∧
    (∀ endTime, stream.endTime = some endTime → ∀ now, endTime ≤ now →
      accrued stream now = accrued stream endTime) ∧
    ∀ now, StreamRepository.calculateAccruedEstimate stream now = accrued stream now := by
  refine ⟨?_, ?_, ?_, ?_, calculateAccruedEstimate_eq stream⟩
  · intro l t u hlt htu
    exact (accrued_add hactive hlt htu).symm
  · intro hrate
    refine ⟨accrued_nonneg hactive hrate, ?_⟩
    intro t u htu
    exact accrued_mono hactive hrate htu
  · intro s id row hs hrow
    exact StreamsSystem.rate_nonneg_of_reaches hs hrow
  · intro endTime hend now h
    exact accrued_of_ended hactive hend h

end Settlements

section SampleSettlement
open StreamsSystem

/-- One unit a second, until a second has passed. -/
def endingStream : Stream := { sampleStream with endTime := some 1000 }

/-- A settlement a second after the end leaves nothing for the next one. -/
theorem settled_after_end : accrued (endingStream.settledAt 0) 3000 =
      accrued (endingStream.settledAt 0) 2000+accrued (endingStream.settledAt 2000) 3000 ∧
    0 ≤ accrued endingStream 3000 := by
  have haccrual := @settling_splits_accrual (Fin 1) _ sampleStreamsRuntime (fun _ => sampleCreate)
    endingStream rfl
  exact ⟨haccrual.1 0 2000 3000 (by decide) (by decide), (haccrual.2.1 (by decide +kernel)).1 3000⟩

end SampleSettlement

end StreamPay
