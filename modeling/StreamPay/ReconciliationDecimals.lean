import Mathlib.Data.List.TakeWhile
import StreamPay.Library.DecimalText
import StreamPay.ReconciliationAmounts

/-! The decimal texts of the reconciliation as numbers: what is read, written and
subtracted exactly. -/
namespace StreamPay
open DecimalDigits DecimalText

theorem digitsValue_eq (digits : List Char) : digitsValue digits = value digits :=
  Nat.ofDigitChars_eq_foldl.symm

section
variable {text : String} {whole fraction : List Char}

theorem isDecimal_iff : isDecimal text = true ↔
    ∃ whole fraction, Parts text whole fraction ∧ fraction.length ≤ 9 := by
  constructor
  · intro h
    have hsplit := @List.takeWhile_append_dropWhile Char Char.isDigit text.toList
    have hwhole : ∀ digit ∈ text.toList.takeWhile Char.isDigit, digit.isDigit = true :=
      fun digit hdigit => List.mem_takeWhile_imp hdigit
    simp only [isDecimal, Bool.and_eq_true, Bool.not_eq_true', List.isEmpty_eq_false_iff] at h
    obtain ⟨hnonempty,hrest⟩ := h
    refine ⟨text.toList.takeWhile Char.isDigit, ?_⟩
    split at hrest
    · rename_i hnone
      refine ⟨[], ⟨?_, hnonempty, hwhole, by simp⟩, by simp⟩
      rw [hnone] at hsplit
      exact hsplit.symm
    · rename_i c fraction hsome
      simp only [Bool.and_eq_true, decide_eq_true_eq, List.all_eq_true] at hrest
      obtain ⟨⟨⟨rfl,hpos⟩,hle⟩,hfraction⟩ := hrest
      have hne : fraction ≠ [] := List.length_pos_iff.mp hpos
      refine ⟨fraction, ⟨?_, hnonempty, hwhole, hfraction⟩, hle⟩
      rw [if_neg hne]
      rw [hsome] at hsplit
      exact hsplit.symm
  · rintro ⟨whole,fraction,hparts,hle⟩
    simp only [isDecimal, hparts.takeWhile, hparts.dropWhile, Bool.and_eq_true, Bool.not_eq_true',
      List.isEmpty_eq_false_iff]
    refine ⟨hparts.nonempty, ?_⟩
    split_ifs with hnone
    · rfl
    · have hpos : 1 ≤ fraction.length := List.length_pos_iff.mpr hnone
      simpa [hpos, hle] using hparts.fraction

/-- The billionths of a number with at most nine places. -/
def unitsOf (whole fraction : List Char) : ℕ :=
  value whole*1000000000+10^(9-fraction.length)*value fraction

theorem parseDecimal_eq (hparts : Parts text whole fraction) (hle : fraction.length ≤ 9)
    (fieldName : String) : parseDecimal text fieldName = .ok (unitsOf whole fraction) := by
  have haccepted : isDecimal text = true := isDecimal_iff.mpr ⟨whole, fraction, hparts, hle⟩
  have hnoPoint : ∀ digit ∈ whole, decide (digit ≠ '.') = true := by
    intro digit hdigit
    refine decide_eq_true ?_
    rintro rfl
    exact absurd (hparts.whole _ hdigit) (by decide)
  have hpoint : (if fraction = [] then [] else '.' :: fraction).takeWhile (· ≠ '.') = [] := by
    split_ifs <;> rfl
  have hbehind : (if fraction = [] then [] else '.' :: fraction).dropWhile (· ≠ '.') =
      if fraction = [] then [] else '.' :: fraction := by
    split_ifs <;> rfl
  have htail : (if fraction = [] then [] else '.' :: fraction).tail = fraction := by
    split_ifs with hnone
    · exact hnone.symm
    · rfl
  simp only [parseDecimal, haccepted, Bool.not_true, Bool.false_eq_true, ↓reduceIte]
  rw [hparts.spelled, List.takeWhile_append_of_pos hnoPoint, hpoint, List.append_nil,
    List.dropWhile_append_of_pos hnoPoint, hbehind, htail, digitsValue_eq, digitsValue_eq,
    value_append_zeros]
  rfl

theorem parseDecimal_ok_iff {fieldName : String} {units : ℤ} :
    parseDecimal text fieldName = .ok units ↔ ∃ whole fraction, Parts text whole fraction ∧
      fraction.length ≤ 9 ∧ units = unitsOf whole fraction := by
  constructor
  · intro h
    have haccepted : isDecimal text = true := by
      by_contra hrefused
      rw [Bool.not_eq_true] at hrefused
      simp only [parseDecimal, hrefused, Bool.not_false, ↓reduceIte, reduceCtorEq] at h
    obtain ⟨whole,fraction,hparts,hle⟩ := isDecimal_iff.mp haccepted
    rw [parseDecimal_eq hparts hle] at h
    exact ⟨whole, fraction, hparts, hle, (Except.ok.inj h).symm⟩
  · rintro ⟨whole,fraction,hparts,hle,rfl⟩
    exact parseDecimal_eq hparts hle fieldName

theorem number_eq_units (hle : fraction.length ≤ 9) :
    number whole fraction = (unitsOf whole fraction : ℚ)/10^9 := by
  have hpow : (10 : ℚ)^9 = 10^(9-fraction.length)*10^fraction.length := by
    rw [← pow_add, Nat.sub_add_cancel hle]
  have hbillion : (1000000000 : ℚ) = 10^(9-fraction.length)*10^fraction.length := by
    rw [← hpow]
    norm_num
  rw [number, unitsOf, value_append, hpow]
  push_cast
  rw [hbillion]
  field_simp

end

/-- The zeros at the end of some digits, and what is in front of them. -/
theorem strip_zeros (digits : List Char) : ∃ front n,
    (digits.reverse.dropWhile (· = '0')).reverse = front ∧
    digits = front ++ List.replicate n '0' ∧ front.getLast? ≠ some '0' := by
  have hzeros : ∀ digit ∈ digits.reverse.takeWhile (· = '0'), digit = '0' := by
    intro digit hdigit
    have hzero := List.mem_takeWhile_imp hdigit
    exact of_decide_eq_true hzero
  refine ⟨_, (digits.reverse.takeWhile (· = '0')).length, rfl, ?_, ?_⟩
  · calc digits
        = (digits.reverse.takeWhile (· = '0') ++ digits.reverse.dropWhile (· = '0')).reverse := by
          rw [List.takeWhile_append_dropWhile, List.reverse_reverse]
      _ = (digits.reverse.dropWhile (· = '0')).reverse ++
          (digits.reverse.takeWhile (· = '0')).reverse := List.reverse_append
      _ = (digits.reverse.dropWhile (· = '0')).reverse ++
          List.replicate (digits.reverse.takeWhile (· = '0')).length '0' := by
          rw [← List.length_reverse,
            List.eq_replicate_of_mem fun digit hdigit => hzeros digit (List.mem_reverse.mp hdigit)]
          simp
  · rw [List.getLast?_reverse]
    intro hzero
    have hfirst := List.head?_dropWhile_not (fun c : Char => decide (c = '0')) digits.reverse
    rw [hzero] at hfirst
    exact absurd hfirst (by decide)

/-- A number of billionths is written as the shortest text of it. -/
theorem formatDecimal_parts (units : ℕ) : ∃ whole fraction,
    Parts (formatDecimal units) whole fraction ∧ fraction.length ≤ 9 ∧
      Shortest whole fraction ∧ unitsOf whole fraction = units := by
  obtain ⟨low,hlow⟩ : ∃ low, units % 1000000000 = low := ⟨_, rfl⟩
  have hlt : low < 10^9 := by omega
  have hdigits : (Nat.toDigits 10 low).length ≤ 9 :=
    (Nat.length_toDigits_le_iff (by decide) (by decide)).mpr hlt
  obtain ⟨padded,hpadded⟩ : ∃ padded,
    List.replicate (9-(Nat.toDigits 10 low).length) '0' ++ Nat.toDigits 10 low = padded := ⟨_, rfl⟩
  -- zeros in front do not count, and those at the end are taken off again
  have hlength : padded.length = 9 := by
    rw [← hpadded, List.length_append, List.length_replicate]
    omega
  have hpaddedDigits : ∀ digit ∈ padded, digit.isDigit = true := by
    intro digit hdigit
    rw [← hpadded] at hdigit
    rcases List.mem_append.mp hdigit with hzero | hown
    · rw [List.eq_of_mem_replicate hzero]
      rfl
    · exact isDigit_toDigits low digit hown
  have hvalue : value padded = low := by
    have hzeros := value_append_zeros [] (9-(Nat.toDigits 10 low).length)
    rw [List.nil_append, value_nil, Nat.mul_zero] at hzeros
    rw [← hpadded, value_append, hzeros, value_toDigits, Nat.mul_zero, Nat.zero_add]
  obtain ⟨fraction,n,hfraction,hsplit,hlast⟩ := strip_zeros padded
  have hcount : fraction.length+n = 9 := by
    rw [hsplit, List.length_append, List.length_replicate] at hlength
    exact hlength
  have hscaled : 10^(9-fraction.length)*value fraction = low := by
    rw [hsplit, value_append_zeros] at hvalue
    rw [← hvalue, show 9-fraction.length = n by omega]
  have hfractionDigits : ∀ digit ∈ fraction, digit.isDigit = true := by
    intro digit hdigit
    exact hpaddedDigits digit (by rw [hsplit]; exact List.mem_append_left _ hdigit)
  refine ⟨Nat.toDigits 10 (units/1000000000), fraction,
    ⟨?_, Nat.toDigits_ne_nil, isDigit_toDigits _, hfractionDigits⟩, by omega,
    ⟨by rw [value_toDigits], hlast⟩, ?_⟩
  · have hsign : ¬ (units : ℤ) < 0 := by omega
    simp only [formatDecimal, hsign, ↓reduceIte, Int.natAbs_natCast, hlow, hpadded, hfraction,
      List.isEmpty_iff]
    split_ifs <;> simp
  · rw [unitsOf, value_toDigits, hscaled, ← hlow]
    omega

theorem formatDecimal_neg {units : ℕ} (h : 0 < units) :
    formatDecimal (-(units : ℤ)) = "-" ++ formatDecimal units := by
  have hnegative : -(units : ℤ) < 0 := by omega
  have hpositive : ¬ (units : ℤ) < 0 := by omega
  simp only [formatDecimal, hnegative, hpositive, ↓reduceIte, Int.natAbs_neg, Int.natAbs_natCast,
    String.empty_append, String.append_assoc]

/-- A signed difference is written as a text that denotes it. -/
theorem signedDenotes_formatDecimal (units : ℤ) {q : ℚ} :
    SignedDenotes (formatDecimal units) q ↔ q = (units : ℚ)/10^9 := by
  have hnumber (n : ℕ) : ∃ whole fraction, Parts (formatDecimal n) whole fraction ∧
      number whole fraction = (n : ℚ)/10^9 := by
    obtain ⟨whole,fraction,hparts,hle,_,hunits⟩ := formatDecimal_parts n
    exact ⟨whole, fraction, hparts, by rw [number_eq_units hle, hunits]⟩
  rcases Int.le_total 0 units with hpos | hneg
  · obtain ⟨n,rfl⟩ := Int.eq_ofNat_of_zero_le hpos
    obtain ⟨whole,fraction,hparts,hunits⟩ := hnumber n
    rw [hparts.signedDenotes_iff, hunits]
    push_cast
    rfl
  · obtain ⟨n,hn⟩ := Int.eq_ofNat_of_zero_le (Int.neg_nonneg.mpr hneg)
    obtain rfl : units = -(n : ℤ) := by omega
    rcases Nat.eq_zero_or_pos n with rfl | hn'
    · obtain ⟨whole,fraction,hparts,hunits⟩ := hnumber 0
      have hzero : formatDecimal (-((0 : ℕ) : ℤ)) = formatDecimal ((0 : ℕ) : ℤ) := rfl
      rw [hzero, hparts.signedDenotes_iff, hunits]
      simp
    · obtain ⟨whole,fraction,hparts,hunits⟩ := hnumber n
      rw [formatDecimal_neg hn', hparts.signedDenotes_neg_iff, hunits]
      push_cast
      rw [neg_div]

theorem compareAmounts_eq {expected actual : String} {expectedUnits actualUnits : ℤ}
    (he : parseDecimal expected "expectedAmount" = .ok expectedUnits)
    (ha : parseDecimal actual "actualAmount" = .ok actualUnits) :
    compareAmounts expected actual = .ok (if actualUnits-expectedUnits = 0 then none
      else some (formatDecimal (actualUnits-expectedUnits))) := by
  unfold compareAmounts
  rw [he, ha]
  rfl

/-- The text of a difference, unless there is none. -/
def IsDifference (difference : Option String) (q : ℚ) : Prop :=
  (difference = none ↔ q = 0) ∧ ∀ text, difference = some text → ∀ r, SignedDenotes text r ↔ r = q

theorem isDifference_compareAmounts {expected actual fieldName fieldName' : String}
    {expectedUnits actualUnits : ℤ} (he : parseDecimal expected fieldName = .ok expectedUnits)
    (ha : parseDecimal actual fieldName' = .ok actualUnits) :
    ∃ difference, compareAmounts expected actual = .ok difference ∧
      IsDifference difference ((actualUnits : ℚ)/10^9-(expectedUnits : ℚ)/10^9) := by
  have hany {text name : String} {units : ℤ} (h : parseDecimal text name = .ok units)
      (other : String) : parseDecimal text other = .ok units :=
    parseDecimal_ok_iff.mpr (parseDecimal_ok_iff.mp h)
  have hsub : (actualUnits : ℚ)/10^9-(expectedUnits : ℚ)/10^9 =
      ((actualUnits-expectedUnits : ℤ) : ℚ)/10^9 := by
    push_cast
    rw [sub_div]
  refine ⟨_, compareAmounts_eq (hany he _) (hany ha _), ?_⟩
  rw [hsub]
  split_ifs with hzero
  · refine ⟨iff_of_true rfl ?_, fun text hnone => by cases hnone⟩
    rw [hzero, Int.cast_zero, zero_div]
  · refine ⟨iff_of_false (by simp) ?_, fun text htext r => ?_⟩
    · rw [div_eq_zero_iff, not_or]
      exact ⟨Int.cast_ne_zero.mpr hzero, by norm_num⟩
    · rw [← Option.some.inj htext]
      exact signedDenotes_formatDecimal _

theorem denotes_of_parseDecimal {text fieldName : String} {units : ℤ}
    (h : parseDecimal text fieldName = .ok units) {q : ℚ} :
    DenotesNumber text q ↔ q = (units : ℚ)/10^9 := by
  obtain ⟨whole,fraction,hparts,hle,rfl⟩ := parseDecimal_ok_iff.mp h
  rw [hparts.denotes_iff, number_eq_units hle]
  push_cast
  rfl

theorem parseDecimal_formatDecimal (units : ℕ) (fieldName : String) :
    parseDecimal (formatDecimal units) fieldName = .ok units := by
  obtain ⟨whole,fraction,hparts,hle,_,hunits⟩ := formatDecimal_parts units
  rw [parseDecimal_eq hparts hle, hunits]

theorem formatDecimal_shortest (units : ℕ) {other : String}
    (h : DenotesNumber other ((units : ℚ)/10^9)) :
    (formatDecimal units).length ≤ other.length ∧
      (other.length = (formatDecimal units).length → other = formatDecimal units) := by
  obtain ⟨whole,fraction,hparts,hle,hshortest,hunits⟩ := formatDecimal_parts units
  obtain ⟨whole',fraction',hparts',hnumber⟩ := h
  rw [← hunits, ← number_eq_units hle] at hnumber
  exact hshortest.le hparts hparts' hnumber

/-- Reading undoes writing; what is read is written again as the shortest text of the
number, and differences are those of the numbers. -/
theorem decimal_arithmetic_exact :
    (∀ (units : ℕ) (fieldName : String),
      parseDecimal (formatDecimal units) fieldName = .ok units) ∧
    (∀ text fieldName, (∃ units, parseDecimal text fieldName = .ok units) ↔
      ∃ whole fraction, Parts text whole fraction ∧ fraction.length ≤ 9) ∧
    (∀ text fieldName units, parseDecimal text fieldName = .ok units →
      ∃ q, DenotesNumber text q ∧ DenotesNumber (formatDecimal units) q ∧
        ∀ other, DenotesNumber other q → (formatDecimal units).length ≤ other.length ∧
          (other.length = (formatDecimal units).length → other = formatDecimal units)) ∧
    ∀ a b fieldName fieldName' aUnits bUnits, parseDecimal a fieldName = .ok aUnits →
      parseDecimal b fieldName' = .ok bUnits →
      ∃ p q difference opposite, DenotesNumber a p ∧ DenotesNumber b q ∧
        compareAmounts a b = .ok difference ∧ compareAmounts b a = .ok opposite ∧
        IsDifference difference (q-p) ∧ IsDifference opposite (-(q-p)) := by
  refine ⟨parseDecimal_formatDecimal, ?_, ?_, ?_⟩
  · intro text fieldName
    constructor
    · rintro ⟨units,h⟩
      obtain ⟨whole,fraction,hparts,hle,_⟩ := parseDecimal_ok_iff.mp h
      exact ⟨whole, fraction, hparts, hle⟩
    · rintro ⟨whole,fraction,hparts,hle⟩
      exact ⟨_, parseDecimal_eq hparts hle fieldName⟩
  · intro text fieldName units h
    obtain ⟨whole,fraction,_,_,rfl⟩ := parseDecimal_ok_iff.mp h
    refine ⟨_, (denotes_of_parseDecimal h).mpr rfl, ?_, fun other hother => ?_⟩
    · exact (denotes_of_parseDecimal (parseDecimal_formatDecimal _ fieldName)).mpr rfl
    · rw [Int.cast_natCast] at hother
      exact formatDecimal_shortest _ hother
  · intro a b fieldName fieldName' aUnits bUnits ha hb
    obtain ⟨difference,hcompare,hdifference⟩ := isDifference_compareAmounts ha hb
    obtain ⟨opposite,hreverse,hopposite⟩ := isDifference_compareAmounts hb ha
    refine ⟨_, _, difference, opposite, (denotes_of_parseDecimal ha).mpr rfl,
      (denotes_of_parseDecimal hb).mpr rfl, hcompare, hreverse, hdifference, ?_⟩
    rwa [neg_sub]

/-- Ten and a billionth, read and written again, and compared with ten. -/
theorem ten_and_a_billionth :
    parseDecimal (formatDecimal (10000000001 : ℕ)) "amount" = .ok (10000000001 : ℕ) ∧
    ∃ p q difference opposite, DenotesNumber "10.000000001" p ∧ DenotesNumber "10" q ∧
      compareAmounts "10.000000001" "10" = .ok difference ∧
      compareAmounts "10" "10.000000001" = .ok opposite ∧
      IsDifference difference (q-p) ∧ IsDifference opposite (-(q-p)) :=
  ⟨decimal_arithmetic_exact.1 10000000001 "amount",
    decimal_arithmetic_exact.2.2.2 "10.000000001" "10" "expectedAmount" "actualAmount"
      10000000001 10000000000 (by decide) (by decide)⟩

end StreamPay
