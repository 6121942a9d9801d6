import Mathlib.Tactic.NormNum
import Mathlib.Tactic.Linarith
import StreamPay.StreamLifecycle

/-! Accrued amounts against the amounts that streams are given. -/
namespace StreamPay

/-- `parseFloat(stream.totalAmount)`. -/
def Stream.total (stream : Stream) : ℚ := stream.totalAmount/1000000000

/-- The last millisecond at which a stream has not accrued more than its total. -/
def depletedAt (stream : Stream) : Date :=
  stream.lastSettledAt+1000*stream.totalAmount/stream.ratePerSecond

/-- What POST makes of the columns that accrual reads. -/
structure FreshlyCreated (stream : Stream) : Prop where
  status_eq : stream.status = .active
  lastSettledAt_eq : stream.lastSettledAt = stream.startTime
  rate_nonneg : 0 ≤ stream.ratePerSecond
  total_nonneg : 0 ≤ stream.totalAmount

theorem decimalColumn_nonneg {text : String} {amount : ℤ} (h : decimalColumn text = some amount) :
    0 ≤ amount := by
  obtain ⟨digits,_,hunits⟩ := Option.bind_eq_some_iff.mp h
  dsimp only at hunits
  split_ifs at hunits <;>
    exact Option.some.inj hunits ▸ Int.natCast_nonneg _

theorem freshlyCreated_create {table table' : StreamsTable} {data : NewStream} {generated : Uuid}
    {time : Timestamp} {stream : Stream}
    (h : StreamRepository.create table data generated time = some (stream, table'))
    (hstatus : data.status = some .active) (hsettled : data.lastSettledAt = some data.startTime) :
    FreshlyCreated stream := by
  obtain ⟨ratePerSecond,totalAmount,hrate,htotal,_,rfl,_⟩ := StreamRepository.create_eq_some h
  refine ⟨?_, ?_, decimalColumn_nonneg hrate, decimalColumn_nonneg htotal⟩
  · simp [StreamRow.fetch, StreamRepository.insertedRow, hstatus]
  · simp [StreamRow.fetch, StreamRepository.insertedRow, hsettled]

/-- A POST that is answered with 201 shows the row that it made. -/
theorem freshlyCreated_of_created {runtime : StreamsRuntime} {table table' : StreamsTable}
    {body : Json} {clock clock' : Date} {generated : Uuid} {time : Timestamp} {stream : Stream}
    {accruedEstimate : Option ℚ}
    (h : handle runtime table (.create body) clock generated time clock' =
      (.stream 201 stream accruedEstimate, table')) : FreshlyCreated stream := by
  obtain ⟨parsed,data,_,hdata,hcreate⟩ := created_of_handle h
  obtain ⟨hstatus,hsettled,_⟩ := newStreamOf_eq_some hdata
  exact freshlyCreated_create hcreate hstatus hsettled

section Balance
variable {stream : Stream}

theorem effectiveEnd_le_iff (stream : Stream) (now bound : Date) :
    effectiveEnd stream now ≤ bound ↔
      now ≤ bound ∨ ∃ endTime ∈ stream.endTime, endTime ≤ bound := by
  unfold effectiveEnd
  cases stream.endTime with
  | none => simp
  | some endTime =>
    simp only [Option.mem_def, Option.some.injEq, exists_eq_left']
    split_ifs with hpast
    · exact ⟨Or.inr, fun h => h.elim (le_trans (le_of_lt hpast)) id⟩
    · exact ⟨Or.inl, fun h => h.elim id (le_trans (not_lt.mp hpast))⟩

/-- In milliseconds and billionths: what accrues over a period against the total. -/
theorem accrued_le_total_iff (hstatus : stream.status = .active)
    (hrate : 0 ≤ stream.ratePerSecond) (htotal : 0 ≤ stream.totalAmount) (now : Date) :
    (AccrualService.calculateAccrual stream now).accruedAmount ≤ stream.total ↔
      (effectiveEnd stream now-stream.lastSettledAt)*stream.ratePerSecond ≤
        1000*stream.totalAmount := by
  have haccrued : (AccrualService.calculateAccrual stream now).accruedAmount =
      elapsedSeconds stream now*stream.rate := by
    simp [AccrualService.calculateAccrual, hstatus]
  set period := effectiveEnd stream now-stream.lastSettledAt with hperiod
  have hcast : period*stream.ratePerSecond ≤ 1000*stream.totalAmount ↔
      (period:ℚ)*stream.ratePerSecond ≤ 1000*stream.totalAmount := by exact_mod_cast Iff.rfl
  have hrate' : (0:ℚ) ≤ stream.ratePerSecond := by exact_mod_cast hrate
  have htotal' : (0:ℚ) ≤ stream.totalAmount := by exact_mod_cast htotal
  rw [haccrued, hcast, elapsedSeconds, ← hperiod, Stream.rate, Stream.total]
  -- before the settlement time nothing accrues, which is within any total
  rcases le_total 0 (period:ℚ) with hpos | hneg
  · rw [max_eq_right (by positivity)]
    constructor <;> intro h <;> linarith
  · have hnonpos : (period:ℚ)*stream.ratePerSecond ≤ 0 := mul_nonpos_of_nonpos_of_nonneg hneg hrate'
    rw [max_eq_left (by linarith)]
    exact iff_of_true (by rw [zero_mul]; positivity) (by linarith)

/-- The row that POST makes accrues no more than its total exactly while it is
not depleted, or has ended before it would be, or accrues nothing. -/
theorem accrued_within_total_iff {runtime : StreamsRuntime} {table table' : StreamsTable}
    {body : Json} {clock clock' : Date} {generated : Uuid} {time : Timestamp}
    {accruedEstimate : Option ℚ}
    (h : handle runtime table (.create body) clock generated time clock' =
      (.stream 201 stream accruedEstimate, table')) (now : Date) :
    (AccrualService.calculateAccrual stream now).accruedAmount ≤ stream.total ↔
      stream.ratePerSecond = 0 ∨ now ≤ depletedAt stream ∨
        ∃ endTime ∈ stream.endTime, endTime ≤ depletedAt stream := by
  have hfresh := freshlyCreated_of_created h
  have htotal := hfresh.total_nonneg
  rw [accrued_le_total_iff hfresh.status_eq hfresh.rate_nonneg htotal]
  by_cases hrate : stream.ratePerSecond = 0
  · refine iff_of_true ?_ (Or.inl hrate)
    rw [hrate, mul_zero]
    exact mul_nonneg (by decide) htotal
  · have hpos : 0 < stream.ratePerSecond := by
      have := hfresh.rate_nonneg
      omega
    -- rates and totals are whole numbers of 10⁻⁹, so the quotient may be rounded down
    have hdepleted : (effectiveEnd stream now-stream.lastSettledAt)*stream.ratePerSecond ≤
        1000*stream.totalAmount ↔ effectiveEnd stream now ≤ depletedAt stream := by
      rw [← Int.le_ediv_iff_mul_le hpos]
      exact sub_le_iff_le_add'
    rw [hdepleted, effectiveEnd_le_iff]
    exact (or_iff_right hrate).symm

end Balance

section SampleBalance
open StreamsSystem

/-- A hundred units at one a second, without an end. -/
def sampleStream : Stream :=
  (StreamRepository.insertedRow ⟨"payer", "recipient", "1", 0, "100", none, some .active, none,
    some 0, none, none, none, none, none, none, none, none, none⟩ 1000000000 100000000000
    sampleStreamId 0).fetch

theorem sampleStream_created :
    handle sampleStreamsRuntime noStreams sampleCreate 0 sampleStreamId 0 0 =
      (.stream 201 sampleStream none,
        (handle sampleStreamsRuntime noStreams sampleCreate 0 sampleStreamId 0 0).2) :=
  Prod.ext (by decide +kernel) rfl

theorem accrued_within_total_until_depleted :
    (AccrualService.calculateAccrual sampleStream 100000).accruedAmount ≤ sampleStream.total :=
  (accrued_within_total_iff sampleStream_created 100000).mpr (Or.inr (Or.inl (by decide +kernel)))

/-- After a hundred seconds the stream goes on accruing. -/
theorem accrued_beyond_total :
    ¬ ∀ (runtime : StreamsRuntime) (table table' : StreamsTable) (body : Json)
      (clock clock' : Date) (generated : Uuid) (time : Timestamp) (stream : Stream)
      (accruedEstimate : Option ℚ),
      handle runtime table (.create body) clock generated time clock' =
        (.stream 201 stream accruedEstimate, table') →
      ∀ now : Date, (AccrualService.calculateAccrual stream now).accruedAmount ≤ stream.total := by
  intro h
  have hwithin := h _ _ _ _ _ _ _ _ _ _ sampleStream_created 100001
  exact absurd hwithin (by decide +kernel)

end SampleBalance

end StreamPay
