import Mathlib.Tactic.FieldSimp
import Mathlib.Tactic.Linarith
import StreamPay.Library.DecimalDigits
import StreamPay.StreamLifecycle

/-! The amounts that `POST /streams` accepts against what the columns
`decimal(20,9)` keep of them. -/
namespace StreamPay
open DecimalDigits

/-- The number that a decimal text spells. -/
def decimalValue (text : String) : Option ℚ :=
  (decimalDigits text).map fun (whole,fraction) =>
    (value (whole ++ fraction) : ℚ)/10^fraction.length

/-- From the tenth decimal place on there are zeros only. -/
def fitsScale (text : String) : Bool :=
  (decimalDigits text).any fun (_,fraction) => (fraction.drop 9).all (· = '0')

/-- A stored amount is the number of a text. -/
def IsValueOf (amount : ℤ) (text : String) : Prop := decimalValue text = some ((amount : ℚ)/10^9)

theorem decimalDigits_isDigit {text : String} {whole fraction : List Char}
    (h : decimalDigits text = some (whole, fraction)) :
    ∀ digit ∈ fraction, digit.isDigit = true := by
  unfold decimalDigits at h
  dsimp only at h
  split_ifs at h
  split at h
  · obtain ⟨_,rfl⟩ := Prod.mk.inj (Option.some.inj h)
    intro digit hdigit
    cases hdigit
  · split_ifs at h with hfraction
    obtain ⟨_,rfl⟩ := Prod.mk.inj (Option.some.inj h)
    simp only [Bool.and_eq_true, List.all_eq_true] at hfraction
    exact hfraction.2

/-- Behind the first nine decimal places: the digits that decide on the rounding. -/
structure Rounding (whole fraction : List Char) (amount : ℤ) : Prop where
  /-- With at most nine places the amount is the number itself. -/
  exact : fraction.length ≤ 9 →
    amount = 10^(9-fraction.length)*value (whole ++ fraction)
  cut : 9 < fraction.length →
    amount = value (whole ++ fraction.take 9)+(if (fraction[9]?).any (· ≥ '5') then 1 else 0)

theorem rounding_of_decimalColumn {text : String} {whole fraction : List Char} {amount : ℤ}
    (hdigits : decimalDigits text = some (whole, fraction))
    (h : decimalColumn text = some amount) : Rounding whole fraction amount := by
  simp only [decimalColumn, hdigits, Option.bind_some] at h
  split_ifs at h with hround hrange hrange
  all_goals obtain rfl := Option.some.inj h
  · have hlong : 9 < fraction.length := by
      by_contra hshort
      rw [List.getElem?_eq_none (by omega)] at hround
      cases hround
    refine ⟨fun hle => absurd hlong (by omega), fun _ => ?_⟩
    rw [if_pos hround, List.take_append_of_le_length (by omega)]
    push_cast
    rfl
  · refine ⟨fun hle => ?_, fun hlong => ?_⟩
    · have hkept : (fraction ++ List.replicate 9 '0').take 9 =
          fraction ++ List.replicate (9-fraction.length) '0' := by
        rw [List.take_append, List.take_of_length_le hle, List.take_replicate,
          min_eq_left (by omega)]
      have hvalue : Nat.ofDigitChars 10 (whole ++ (fraction ++
          List.replicate (9-fraction.length) '0')) 0 =
          10^(9-fraction.length)*value (whole ++ fraction) := by
        rw [← List.append_assoc]
        exact value_append_zeros _ _
      rw [hkept, hvalue]
      push_cast
      rfl
    · rw [if_neg hround, List.take_append_of_le_length (by omega), add_zero]
      rfl

namespace Rounding
variable {whole fraction : List Char} {amount : ℤ}

theorem eq_of_short (h : Rounding whole fraction amount) (hshort : fraction.length ≤ 9) :
    (value (whole ++ fraction) : ℚ)/10^fraction.length = (amount : ℚ)/10^9 := by
  have hpow : (10 : ℚ)^9 = 10^(9-fraction.length)*10^fraction.length := by
    rw [← pow_add, Nat.sub_add_cancel hshort]
  rw [h.exact hshort, hpow]
  push_cast
  field_simp

/-- The digits behind the ninth place are lost unless they are zero: the rounding
never makes up for them. -/
theorem eq_iff_of_split (h : Rounding whole fraction amount) {n : ℕ}
    (hn : fraction.length = 9+(n+1)) (hlt : value (fraction.drop 9) < 10^(n+1))
    (hfirst : value (fraction.drop 9) = 0 → fraction[9]? = some '0') :
    (value (whole ++ fraction) : ℤ) = amount*10^(n+1) ↔ value (fraction.drop 9) = 0 := by
  have hrest : (fraction.drop 9).length = n+1 := by
    rw [List.length_drop]
    omega
  have hsplit : value (whole ++ fraction) =
      10^(n+1)*value (whole ++ fraction.take 9)+value (fraction.drop 9) := by
    rw [← hrest, ← value_append, List.append_assoc, List.take_append_drop]
  have hltInt : (value (fraction.drop 9) : ℤ) < 10^(n+1) := by exact_mod_cast hlt
  rw [hsplit, h.cut (by omega)]
  push_cast
  constructor
  · intro heq
    split_ifs at heq
    · -- rounding up goes beyond the number
      have hfull : (value (fraction.drop 9) : ℤ) = 10^(n+1) := by linarith
      omega
    · have hnone : (value (fraction.drop 9) : ℤ) = 0 := by linarith
      exact_mod_cast hnone
  · intro hzero
    have hnoRound : ¬ (fraction[9]?).any (fun digit => decide (digit ≥ '5')) = true := by
      rw [hfirst hzero]
      decide
    rw [if_neg hnoRound, hzero]
    push_cast
    ring

theorem eq_iff_of_long (h : Rounding whole fraction amount) (hlong : 9 < fraction.length)
    (hdigits : ∀ digit ∈ fraction, digit.isDigit = true) :
    (value (whole ++ fraction) : ℚ)/10^fraction.length = (amount : ℚ)/10^9 ↔
      (fraction.drop 9).all (· = '0') = true := by
  obtain ⟨n,hn⟩ : ∃ n, fraction.length = 9+(n+1) := ⟨fraction.length-10, by omega⟩
  have hrest : (fraction.drop 9).length = n+1 := by
    rw [List.length_drop]
    omega
  have hrestDigits : ∀ digit ∈ fraction.drop 9, digit.isDigit = true :=
    fun digit hdigit => hdigits digit (List.mem_of_mem_drop hdigit)
  have hlt : value (fraction.drop 9) < 10^(n+1) := hrest ▸ value_lt hrestDigits
  have hzeros := value_eq_zero_iff hrestDigits
  have hfirst : value (fraction.drop 9) = 0 → fraction[9]? = some '0' := by
    intro hzero
    have hmem : fraction[9] ∈ fraction.drop 9 := by
      rw [← List.getElem_cons_drop hlong]
      exact List.mem_cons_self
    rw [List.getElem?_eq_getElem hlong, hzeros.mp hzero _ hmem]
  have hscaled : (value (whole ++ fraction) : ℚ)/10^fraction.length = (amount : ℚ)/10^9 ↔
      (value (whole ++ fraction) : ℤ) = amount*10^(n+1) := by
    rw [div_eq_div_iff (by positivity) (by positivity), hn, pow_add, ← mul_assoc,
      mul_right_comm, mul_left_inj' (by positivity)]
    exact_mod_cast Iff.rfl
  rw [hscaled, h.eq_iff_of_split hn hlt hfirst, hzeros]
  simp

end Rounding

/-- The column keeps the number of a text exactly when it need not round it. -/
theorem isValueOf_iff {text : String} {amount : ℤ} (h : decimalColumn text = some amount) :
    IsValueOf amount text ↔ fitsScale text = true := by
  obtain ⟨⟨whole,fraction⟩,hdigits,_⟩ := Option.bind_eq_some_iff.mp h
  have hround := rounding_of_decimalColumn hdigits h
  simp only [IsValueOf, decimalValue, fitsScale, hdigits, Option.map_some, Option.any_some,
    Option.some.injEq]
  rcases Nat.lt_or_ge 9 fraction.length with hlong | hshort
  · exact hround.eq_iff_of_long hlong (decimalDigits_isDigit hdigits)
  · have hdrop : fraction.drop 9 = [] := List.drop_eq_nil_of_le hshort
    rw [hdrop]
    exact iff_of_true (hround.eq_of_short hshort) rfl

/-- The row of a created stream has what the columns make of its amounts. -/
theorem StreamRepository.create_amounts {table table' : StreamsTable} {data : NewStream}
    {generated : Uuid} {now : Timestamp} {stream : Stream}
    (h : StreamRepository.create table data generated now = some (stream, table')) :
    ∃ row, table'.findRow stream.id = some row ∧
      decimalColumn data.ratePerSecond = some row.ratePerSecond ∧
      decimalColumn data.totalAmount = some row.totalAmount := by
  obtain ⟨ratePerSecond,totalAmount,hrate,htotal,_,rfl,hrows⟩ := create_eq_some h
  exact ⟨insertedRow data ratePerSecond totalAmount generated now, (hrows _).trans (if_pos rfl),
    hrate, htotal⟩

/-- A created stream is stored with the amounts of its request exactly when none
of them has digits behind the ninth decimal place. -/
theorem created_amounts_exact_iff {runtime : StreamsRuntime} {table table' : StreamsTable}
    {body : Json} {clock clock' : Date} {generated : Uuid} {time : Timestamp} {stream : Stream}
    {accruedEstimate : Option ℚ}
    (h : handle runtime table (.create body) clock generated time clock' =
      (.stream 201 stream accruedEstimate, table')) :
    ∃ parsed row, createStreamSchema runtime body = .ok parsed ∧
      table'.findRow stream.id = some row ∧
      ((IsValueOf row.ratePerSecond parsed.ratePerSecond ∧
          IsValueOf row.totalAmount parsed.totalAmount) ↔
        fitsScale parsed.ratePerSecond = true ∧ fitsScale parsed.totalAmount = true) := by
  obtain ⟨parsed,data,hbody,hdata,hcreate⟩ := created_of_handle h
  obtain ⟨row,hrow,hrate,htotal⟩ := StreamRepository.create_amounts hcreate
  obtain ⟨_,_,hsameRate,hsameTotal⟩ := newStreamOf_eq_some hdata
  rw [hsameRate] at hrate
  rw [hsameTotal] at htotal
  exact ⟨parsed, row, hbody, hrow, and_congr (isValueOf_iff hrate) (isValueOf_iff htotal)⟩

section SampleAmounts
open StreamsSystem

def createWithRate (ratePerSecond : String) : Json :=
  .object [("payer", .string "payer"), ("recipient", .string "recipient"),
    ("ratePerSecond", .string ratePerSecond), ("startTime", .string "1970-01-01T00:00:00.000Z"),
    ("totalAmount", .string "100")]

/-- What is made of the request when the column stores this rate. -/
def createdWithRate (ratePerSecond : String) (stored : ℤ) : StreamRow :=
  StreamRepository.insertedRow ⟨"payer", "recipient", ratePerSecond, 0, "100", none, some .active,
    none, some 0, none, none, none, none, none, none, none, none, none⟩ stored 100000000000
    sampleStreamId 0

def parsedWithRate (ratePerSecond : String) : CreateStreamBody :=
  ⟨"payer", "recipient", ratePerSecond, "1970-01-01T00:00:00.000Z", none, "100"⟩

def afterCreate (ratePerSecond : String) : StreamsAnswer × StreamsTable :=
  handle sampleStreamsRuntime noStreams (.create (createWithRate ratePerSecond)) 0 sampleStreamId
    0 0

theorem created_half : afterCreate "0.5" =
    (.stream 201 (createdWithRate "0.5" 500000000).fetch none, (afterCreate "0.5").2) :=
  Prod.ext (by decide +kernel) rfl

theorem created_dust : afterCreate "0.0000000001" =
    (.stream 201 (createdWithRate "0.0000000001" 0).fetch none,
      (afterCreate "0.0000000001").2) :=
  Prod.ext (by decide +kernel) rfl

theorem created_half_exact :
    ∃ parsed row, createStreamSchema sampleStreamsRuntime (createWithRate "0.5") = .ok parsed ∧
      (afterCreate "0.5").2.findRow sampleStreamId = some row ∧
      ((IsValueOf row.ratePerSecond parsed.ratePerSecond ∧
          IsValueOf row.totalAmount parsed.totalAmount) ↔
        fitsScale parsed.ratePerSecond = true ∧ fitsScale parsed.totalAmount = true) :=
  created_amounts_exact_iff created_half

/-- A rate below half a billionth is stored as zero. -/
theorem tiny_rate_stored_as_zero :
    ¬ ∀ (runtime : StreamsRuntime) (table table' : StreamsTable) (body : Json)
      (clock clock' : Date) (generated : Uuid) (time : Timestamp) (stream : Stream)
      (accruedEstimate : Option ℚ) (parsed : CreateStreamBody) (row : StreamRow),
      handle runtime table (.create body) clock generated time clock' =
        (.stream 201 stream accruedEstimate, table') →
      createStreamSchema runtime body = .ok parsed → table'.findRow stream.id = some row →
      IsValueOf row.ratePerSecond parsed.ratePerSecond ∧
        IsValueOf row.totalAmount parsed.totalAmount := by
  intro h
  have hexact := h _ _ _ _ _ _ _ _ _ _ (parsedWithRate "0.0000000001")
    (createdWithRate "0.0000000001" 0) created_dust (by decide +kernel) (by decide +kernel)
  have hrate : decimalValue "0.0000000001" = some (((0 : ℤ) : ℚ)/10^9) := hexact.1
  exact absurd hrate (by decide +kernel)

end SampleAmounts

end StreamPay
