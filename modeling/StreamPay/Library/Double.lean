import Mathlib.Data.Int.Log
import Mathlib.Data.List.TakeWhile
import Mathlib.Data.Nat.Find
import Mathlib.Data.Rat.Floor
import Mathlib.Tactic.FieldSimp
import Mathlib.Tactic.Linarith
import Mathlib.Tactic.NormNum
import Mathlib.Tactic.Ring
import StreamPay.Library.DecimalDigits

/-! Finite doubles in units of the least one, the rounding of rationals to them and the
text that JavaScript gives them: the shortest digits that round back. -/

/-- The nearest integer, of two the even one. -/
def roundHalfEven (q : ℚ) : ℕ :=
  let low := ⌊q⌋₊
  if q-low < 1/2 ∨ (q-low = 1/2 ∧ low % 2 = 0) then low else low+1

/-- The least double is `2^-1074`. -/
def leastExponent : ℕ := 1074

/-- The nearest magnitude with 53 significant bits, in units of the least double. -/
def roundUnits (q : ℚ) : ℕ :=
  let exponent := Nat.log 2 ⌊q⌋₊-52
  roundHalfEven (q/2^exponent)*2^exponent

/-- A finite double as a multiple of the least one; the two zeros are one. -/
structure Double where
  units : ℤ
  rounded : roundUnits units.natAbs = units.natAbs
  bounded : units.natAbs < 2^2098
  deriving DecidableEq

/-- The number `s * 10^(n-k)`, where `k` is the number of digits of `s`. -/
structure Decimal where
  s : ℕ
  n : ℤ

namespace Decimal

def digits (d : Decimal) : List Char := Nat.toDigits 10 d.s

def k (d : Decimal) : ℕ := d.digits.length

def value (d : Decimal) : ℚ := d.s*10^(d.n-d.k)

/-- The sign and the digits of an exponent. -/
def exponentText (e : ℤ) : List Char :=
  (if 0 ≤ e then '+' else '-') :: Nat.toDigits 10 e.natAbs

/-- The five forms of `Number::toString`. -/
def text (d : Decimal) : List Char :=
  if d.k ≤ d.n ∧ d.n ≤ 21 then d.digits ++ List.replicate (d.n-d.k).toNat '0'
  else if 0 < d.n ∧ d.n ≤ 21 then
    d.digits.take d.n.toNat ++ '.' :: d.digits.drop d.n.toNat
  else if -6 < d.n ∧ d.n ≤ 0 then
    '0' :: '.' :: List.replicate (-d.n).toNat '0' ++ d.digits
  else if d.k = 1 then d.digits ++ 'e' :: exponentText (d.n-1)
  else d.digits.take 1 ++ '.' :: d.digits.drop 1 ++ 'e' :: exponentText (d.n-1)

end Decimal

/-! A reader of the five forms, and of the sign in front of them. -/

def readExponent : List Char → ℤ
  | '-' :: digits => -DecimalDigits.value digits
  | _ :: digits => DecimalDigits.value digits
  | [] => 0

def readMantissa (text : List Char) : ℚ :=
  let whole := text.takeWhile (· ≠ '.')
  let fraction := (text.dropWhile (· ≠ '.')).drop 1
  DecimalDigits.value (whole ++ fraction)*10^(-(fraction.length:ℤ))

def readDecimal (text : List Char) : ℚ :=
  readMantissa (text.takeWhile (· ≠ 'e'))*10^readExponent ((text.dropWhile (· ≠ 'e')).drop 1)

section Reader
variable {c : Char} {front : List Char}

theorem takeWhile_ne (h : c ∉ front) (back : List Char) :
    (front ++ c :: back).takeWhile (· ≠ c) = front := by
  have hall : ∀ a ∈ front, decide (a ≠ c) = true := by
    intro a ha
    exact decide_eq_true fun he => h (he ▸ ha)
  rw [List.takeWhile_append_of_pos hall]
  simp

theorem dropWhile_ne (h : c ∉ front) (back : List Char) :
    ((front ++ c :: back).dropWhile (· ≠ c)).drop 1 = back := by
  have hall : ∀ a ∈ front, decide (a ≠ c) = true := by
    intro a ha
    exact decide_eq_true fun he => h (he ▸ ha)
  rw [List.dropWhile_append_of_pos hall]
  simp

theorem takeWhile_ne_self (h : c ∉ front) : front.takeWhile (· ≠ c) = front := by
  rw [List.takeWhile_eq_self_iff]
  intro a ha
  exact decide_eq_true fun he => h (he ▸ ha)

theorem dropWhile_ne_self (h : c ∉ front) : front.dropWhile (· ≠ c) = [] := by
  rw [List.dropWhile_eq_nil_iff]
  intro a ha
  exact decide_eq_true fun he => h (he ▸ ha)

theorem readMantissa_whole (h : '.' ∉ front) :
    readMantissa front = DecimalDigits.value front := by
  rw [readMantissa, takeWhile_ne_self h, dropWhile_ne_self h]
  simp

theorem readMantissa_point (h : '.' ∉ front) (fraction : List Char) :
    readMantissa (front ++ '.' :: fraction) =
      DecimalDigits.value (front ++ fraction)*10^(-(fraction.length:ℤ)) := by
  rw [readMantissa, takeWhile_ne h, dropWhile_ne h]

theorem readDecimal_plain (h : 'e' ∉ front) : readDecimal front = readMantissa front := by
  rw [readDecimal, takeWhile_ne_self h, dropWhile_ne_self h]
  simp [readExponent]

theorem readDecimal_exponent (h : 'e' ∉ front) (exponent : List Char) :
    readDecimal (front ++ 'e' :: exponent) =
      readMantissa front*10^readExponent exponent := by
  rw [readDecimal, takeWhile_ne h, dropWhile_ne h]

end Reader

namespace Decimal
variable (d : Decimal)

theorem value_digits : DecimalDigits.value d.digits = d.s := Nat.ofDigitChars_ten_toDigits

theorem isDigit_of_mem_digits {c : Char} (h : c ∈ d.digits) : c.isDigit = true :=
  Nat.isDigit_of_mem_toDigits (by decide) (by decide) h

theorem not_mem_digits {c : Char} (hc : c.isDigit = false) : c ∉ d.digits := by
  intro h
  rw [d.isDigit_of_mem_digits h] at hc
  cases hc

theorem readExponent_exponentText (e : ℤ) : readExponent (exponentText e) = e := by
  have hvalue : DecimalDigits.value (Nat.toDigits 10 e.natAbs) = e.natAbs :=
    Nat.ofDigitChars_ten_toDigits
  unfold exponentText
  split_ifs with h
  · have hread : readExponent ('+' :: Nat.toDigits 10 e.natAbs) =
      DecimalDigits.value (Nat.toDigits 10 e.natAbs) := rfl
    rw [hread, hvalue]
    omega
  · have hread : readExponent ('-' :: Nat.toDigits 10 e.natAbs) =
      -DecimalDigits.value (Nat.toDigits 10 e.natAbs) := rfl
    rw [hread, hvalue]
    omega

/-- The digits with a point behind the first `m` of them. -/
theorem readMantissa_take_drop {m : ℕ} (hm : m ≤ d.k) :
    'e' ∉ d.digits.take m ++ '.' :: d.digits.drop m ∧
      readMantissa (d.digits.take m ++ '.' :: d.digits.drop m) = d.s*10^((m:ℤ)-d.k) := by
  have hpoint := d.not_mem_digits (c := '.') (by decide)
  have he := d.not_mem_digits (c := 'e') (by decide)
  have hfront : '.' ∉ d.digits.take m := fun h => hpoint (List.mem_of_mem_take h)
  have hlen : ((d.digits.drop m).length:ℤ) = d.k-m := by
    have hk : d.digits.length = d.k := rfl
    rw [List.length_drop, hk]
    omega
  constructor
  · rw [List.mem_append, List.mem_cons, not_or, not_or]
    exact ⟨fun h => he (List.mem_of_mem_take h), by decide, fun h => he (List.mem_of_mem_drop h)⟩
  · rw [readMantissa_point hfront, List.take_append_drop, value_digits, hlen, neg_sub]

/-- Each form spells the value of the decimal. -/
theorem readDecimal_text : readDecimal d.text = d.value := by
  have hpoint := d.not_mem_digits (c := '.') (by decide)
  have he := d.not_mem_digits (c := 'e') (by decide)
  have hzeros (m : ℕ) {c : Char} (hc : c ≠ '0') : c ∉ List.replicate m '0' :=
    fun h => hc (List.eq_of_mem_replicate h)
  have hten : (10:ℚ) ≠ 0 := by norm_num
  unfold text
  split_ifs with hwhole hmixed hsmall hone
  · -- all digits, then zeros
    have hplain : 'e' ∉ d.digits ++ List.replicate (d.n-d.k).toNat '0' := by
      rw [List.mem_append, not_or]
      exact ⟨he, hzeros _ (by decide)⟩
    have hnone : '.' ∉ d.digits ++ List.replicate (d.n-d.k).toNat '0' := by
      rw [List.mem_append, not_or]
      exact ⟨hpoint, hzeros _ (by decide)⟩
    have hexp : d.n-d.k = ((d.n-d.k).toNat:ℤ) := by omega
    rw [readDecimal_plain hplain, readMantissa_whole hnone, DecimalDigits.value_append_zeros,
      value_digits, value, hexp, zpow_natCast, Int.toNat_natCast]
    push_cast
    ring
  · -- the point is among the digits
    obtain ⟨hplain,hread⟩ := d.readMantissa_take_drop (m := d.n.toNat) (by omega)
    have hexp : (d.n.toNat:ℤ) = d.n := Int.toNat_of_nonneg (by omega)
    rw [readDecimal_plain hplain, hread, hexp, value]
  · -- all digits behind the point
    have hplain : 'e' ∉ '0' :: '.' :: List.replicate (-d.n).toNat '0' ++ d.digits := by
      simp only [List.cons_append, List.mem_cons, List.mem_append, not_or]
      exact ⟨by decide, by decide, hzeros _ (by decide), he⟩
    have hlen : ((List.replicate (-d.n).toNat '0' ++ d.digits).length:ℤ) = d.k-d.n := by
      have hk : d.digits.length = d.k := rfl
      rw [List.length_append, List.length_replicate, hk]
      omega
    have hvalue : DecimalDigits.value (['0'] ++ (List.replicate (-d.n).toNat '0' ++ d.digits)) =
        d.s := by
      rw [← List.append_assoc, DecimalDigits.value_append, DecimalDigits.value_append_zeros,
        value_digits]
      simp [DecimalDigits.value_cons]
    have hread : readMantissa (['0'] ++ '.' :: (List.replicate (-d.n).toNat '0' ++ d.digits)) =
        d.s*10^(d.n-d.k) := by
      rw [readMantissa_point (by decide), hvalue, hlen, neg_sub]
    exact (readDecimal_plain hplain).trans hread
  · -- one digit and an exponent
    rw [readDecimal_exponent he, readMantissa_whole hpoint, readExponent_exponentText,
      value_digits, value, hone, Nat.cast_one]
  · -- a point behind the first digit, and an exponent
    have hpos : 0 < d.digits.length := Nat.length_toDigits_pos
    obtain ⟨hplain,hread⟩ := d.readMantissa_take_drop (m := 1) hpos
    rw [readDecimal_exponent hplain, hread, readExponent_exponentText, value, mul_assoc,
      ← zpow_add₀ hten]
    congr 2
    push_cast
    ring

/-- The characters of number texts. -/
def isNumberChar (c : Char) : Bool := c.isDigit || c = '.' || c = 'e' || c = '+' || c = '-'

theorem isNumberChar_of_mem_digits {c : Char} (h : c ∈ d.digits) : isNumberChar c = true := by
  simp [isNumberChar, d.isDigit_of_mem_digits h]

theorem isNumberChar_exponentText {e : ℤ} {c : Char} (h : c ∈ exponentText e) :
    isNumberChar c = true := by
  rcases List.mem_cons.mp h with rfl | hdigit
  · split_ifs <;> rfl
  · have hc : c.isDigit = true := Nat.isDigit_of_mem_toDigits (by decide) (by decide) hdigit
    simp [isNumberChar, hc]

theorem isNumberChar_text {c : Char} (h : c ∈ d.text) : isNumberChar c = true := by
  have hdigits {l : List Char} (hl : l ⊆ d.digits) (hc : c ∈ l) : isNumberChar c = true :=
    d.isNumberChar_of_mem_digits (hl hc)
  have hzero {m : ℕ} (hc : c ∈ List.replicate m '0') : isNumberChar c = true := by
    rw [List.eq_of_mem_replicate hc]
    rfl
  unfold text at h
  split_ifs at h
  · rcases List.mem_append.mp h with hc | hc
    · exact hdigits (List.Subset.refl _) hc
    · exact hzero hc
  · rcases List.mem_append.mp h with hc | hc
    · exact hdigits (List.take_subset _ _) hc
    · rcases List.mem_cons.mp hc with rfl | hc
      · rfl
      · exact hdigits (List.drop_subset _ _) hc
  · rcases List.mem_append.mp h with hc | hc
    · rcases List.mem_cons.mp hc with rfl | hc
      · rfl
      · rcases List.mem_cons.mp hc with rfl | hc
        · rfl
        · exact hzero hc
    · exact hdigits (List.Subset.refl _) hc
  · rcases List.mem_append.mp h with hc | hc
    · exact hdigits (List.Subset.refl _) hc
    · rcases List.mem_cons.mp hc with rfl | hc
      · rfl
      · exact isNumberChar_exponentText hc
  · rcases List.mem_append.mp h with hc | hc
    · rcases List.mem_append.mp hc with hc | hc
      · exact hdigits (List.take_subset _ _) hc
      · rcases List.mem_cons.mp hc with rfl | hc
        · rfl
        · exact hdigits (List.drop_subset _ _) hc
    · rcases List.mem_cons.mp hc with rfl | hc
      · rfl
      · exact isNumberChar_exponentText hc

/-- Every form starts with a digit. -/
theorem text_eq_cons : ∃ c rest, d.text = c :: rest ∧ c.isDigit = true := by
  have hne : d.digits ≠ [] := Nat.toDigits_ne_nil
  obtain ⟨c,rest,hdigits⟩ := List.exists_cons_of_ne_nil hne
  have hc : c.isDigit = true := d.isDigit_of_mem_digits (by rw [hdigits]; exact List.mem_cons_self)
  unfold text
  split_ifs with hwhole hmixed
  · exact ⟨c, _, by rw [hdigits]; rfl, hc⟩
  · obtain ⟨m,hm⟩ : ∃ m, d.n.toNat = m+1 := ⟨d.n.toNat-1, by omega⟩
    exact ⟨c, _, by rw [hm, hdigits]; rfl, hc⟩
  · exact ⟨'0', _, rfl, rfl⟩
  · exact ⟨c, _, by rw [hdigits]; rfl, hc⟩
  · exact ⟨c, _, by rw [hdigits]; rfl, hc⟩

end Decimal

namespace Double

/-- `s` with at most `k` digits, or the power of ten above them. -/
def decimalOf (n : ℤ) (k s : ℕ) : Decimal :=
  if s = 10^k then ⟨10^(k-1), n+1⟩ else ⟨s, n⟩

/-- The decimals of `k` digits around a number, the nearest first. -/
def candidates (q : ℚ) (k : ℕ) : List Decimal :=
  let n := Int.log 10 q+1
  let scaled := q*10^(k-n)
  let low := ⌊scaled⌋₊
  if scaled-low < 1/2 ∨ (scaled-low = 1/2 ∧ low % 2 = 0) then
    [decimalOf n k low, decimalOf n k (low+1)]
  else [decimalOf n k (low+1), decimalOf n k low]

/-- The decimal rounds to the magnitude. -/
def roundsTo (units : ℕ) (d : Decimal) : Bool := roundUnits (d.value*2^leastExponent) = units

def magnitude (units : ℕ) : ℚ := units/2^leastExponent

/-- A decimal of `k+1` digits that rounds to the magnitude, the nearest if there are two. -/
def decimal? (units k : ℕ) : Option Decimal :=
  (candidates (magnitude units) (k+1)).find? (roundsTo units)

theorem k_of_bounds {s j : ℕ} (hlow : 10^j ≤ s) (hhigh : s < 10^(j+1)) (n : ℤ) :
    (⟨s, n⟩ : Decimal).k = j+1 := by
  have hle : (Nat.toDigits 10 s).length ≤ j+1 :=
    (Nat.length_toDigits_le_iff (by decide) (Nat.succ_pos j)).mpr hhigh
  have hgt : ¬ (Nat.toDigits 10 s).length ≤ j := by
    intro h
    rcases Nat.eq_zero_or_pos j with rfl | hj
    · exact absurd h (Nat.not_le.mpr Nat.length_toDigits_pos)
    · exact absurd ((Nat.length_toDigits_le_iff (by decide) hj).mp h) (Nat.not_lt.mpr hlow)
  change (Nat.toDigits 10 s).length = j+1
  omega

theorem decimalOf_value {s j : ℕ} (hlow : 10^j ≤ s) (hhigh : s < 10^(j+1)) (n : ℤ) :
    (decimalOf n (j+1) s).value = s*10^(n-(j+1:ℕ)) := by
  rw [decimalOf, if_neg (Nat.ne_of_lt hhigh), Decimal.value, k_of_bounds hlow hhigh]

/-- A decimal that is the number itself is among the candidates. -/
theorem mem_candidates {q : ℚ} {k scaled : ℕ} (h : q*10^(k-(Int.log 10 q+1)) = scaled) :
    decimalOf (Int.log 10 q+1) k scaled ∈ candidates q k := by
  unfold candidates
  simp only [h, Nat.floor_natCast, sub_self]
  rw [if_pos (Or.inl (by norm_num))]
  exact List.mem_cons_self

/-- With this many digits nothing is left of the power of two. -/
theorem scaled_magnitude (units shift : ℕ) : magnitude units*10^(leastExponent+shift) =
    (units*5^leastExponent*10^shift : ℕ) := by
  have hten : (10:ℚ)^leastExponent = 2^leastExponent*5^leastExponent := by
    rw [← mul_pow]
    norm_num
  rw [magnitude, pow_add, hten]
  push_cast
  field_simp

/-- Enough digits spell a double exactly. -/
theorem exists_decimal {units : ℕ} (hpos : 0 < units) (hrounded : roundUnits units = units) :
    ∃ k, (decimal? units k).isSome = true := by
  have hq : 0 < magnitude units := by
    unfold magnitude
    positivity
  obtain ⟨n,hn⟩ : ∃ n, n = Int.log 10 (magnitude units)+1 := ⟨_, rfl⟩
  obtain ⟨k,shift,hk⟩ : ∃ k shift : ℕ, ((k+1:ℕ):ℤ)-n = (leastExponent+shift : ℕ) := by
    refine ⟨(n+leastExponent).toNat, ((n+leastExponent).toNat+1-n-leastExponent).toNat, ?_⟩
    omega
  obtain ⟨scaled,hscaled⟩ : ∃ scaled : ℕ, magnitude units*10^(((k+1:ℕ):ℤ)-n) = scaled := by
    refine ⟨units*5^leastExponent*10^shift, ?_⟩
    rw [hk, zpow_natCast, scaled_magnitude]
  have hlow : 10^k ≤ scaled := by
    have hle : (10:ℚ)^(n-1) ≤ magnitude units := by
      rw [hn, add_sub_cancel_right]
      exact_mod_cast Int.zpow_log_le_self (by decide) hq
    have hpow : (10:ℚ)^(n-1)*10^(((k+1:ℕ):ℤ)-n) = (10^k:ℕ) := by
      rw [← zpow_add₀ (by norm_num), Nat.cast_pow, ← zpow_natCast]
      congr 1
      omega
    have hle' : ((10^k:ℕ):ℚ) ≤ scaled := by
      rw [← hpow, ← hscaled]
      exact mul_le_mul_of_nonneg_right hle (zpow_pos (by norm_num) _).le
    exact_mod_cast hle'
  have hhigh : scaled < 10^(k+1) := by
    have hlt : magnitude units < (10:ℚ)^n := by
      rw [hn]
      exact_mod_cast Int.lt_zpow_succ_log_self (by decide) (magnitude units)
    have hpow : (10:ℚ)^n*10^(((k+1:ℕ):ℤ)-n) = (10^(k+1):ℕ) := by
      rw [← zpow_add₀ (by norm_num), Nat.cast_pow, ← zpow_natCast]
      congr 1
      omega
    have hlt' : (scaled:ℚ) < (10^(k+1):ℕ) := by
      rw [← hpow, ← hscaled]
      exact mul_lt_mul_of_pos_right hlt (zpow_pos (by norm_num) _)
    exact_mod_cast hlt'
  have hvalue : (decimalOf n (k+1) scaled).value = magnitude units := by
    rw [decimalOf_value hlow hhigh, ← hscaled, mul_assoc, ← zpow_add₀ (by norm_num)]
    simp
  refine ⟨k, ?_⟩
  rw [decimal?, List.find?_isSome]
  refine ⟨decimalOf n (k+1) scaled, hn ▸ mem_candidates (hn ▸ hscaled), ?_⟩
  rw [roundsTo, hvalue, decide_eq_true_eq, magnitude, div_mul_cancel₀ _ (by positivity)]
  exact hrounded

/-- The shortest decimal that rounds to a double other than zero, by its magnitude. -/
def shortest (x : Double) (h : x.units ≠ 0) : Decimal :=
  let found := exists_decimal (Int.natAbs_pos.mpr h) x.rounded
  (decimal? x.units.natAbs (Nat.find found)).get (Nat.find_spec found)

/-- `Number::toString` of a finite number. -/
def text (x : Double) : List Char :=
  if h : x.units = 0 then ['0']
  else if x.units < 0 then '-' :: (x.shortest h).text
  else (x.shortest h).text

theorem roundsTo_shortest (x : Double) (h : x.units ≠ 0) :
    roundsTo x.units.natAbs (x.shortest h) = true := by
  unfold shortest decimal?
  have hfound := Nat.find_spec (exists_decimal (Int.natAbs_pos.mpr h) x.rounded)
  exact List.find?_some (Option.some_get hfound).symm

/-- The number that a double stands for. -/
def toRat (x : Double) : ℚ := x.units/2^leastExponent

/-- The double that a text spells, in units of the least one. -/
def readUnits : List Char → ℤ
  | '-' :: text => -roundUnits (readDecimal text*2^leastExponent)
  | text => roundUnits (readDecimal text*2^leastExponent)

theorem roundUnits_shortest (x : Double) (h : x.units ≠ 0) :
    roundUnits (readDecimal (x.shortest h).text*2^leastExponent) = x.units.natAbs := by
  rw [Decimal.readDecimal_text]
  exact of_decide_eq_true (x.roundsTo_shortest h)

theorem roundUnits_zero : roundUnits 0 = 0 := by simp [roundUnits, roundHalfEven]

/-- The text of a double tells which one it is. -/
theorem readUnits_text (x : Double) : readUnits x.text = x.units := by
  unfold text
  split_ifs with hzero hneg
  · have hread : readDecimal ['0'] = 0 := by
      rw [readDecimal_plain (by decide), readMantissa_whole (by decide)]
      simp [DecimalDigits.value_cons]
    have hunits : readUnits ['0'] = roundUnits (readDecimal ['0']*2^leastExponent) := rfl
    rw [hunits, hread, zero_mul, roundUnits_zero, hzero]
    rfl
  · have hunits : readUnits ('-' :: (x.shortest hzero).text) =
      -roundUnits (readDecimal (x.shortest hzero).text*2^leastExponent) := rfl
    rw [hunits, roundUnits_shortest]
    omega
  · obtain ⟨c,rest,htext,hc⟩ := (x.shortest hzero).text_eq_cons
    have hsign : c ≠ '-' := by
      rintro rfl
      exact absurd hc (by decide)
    have hunits : readUnits (c :: rest) =
        roundUnits (readDecimal (c :: rest)*2^leastExponent) := by
      rw [readUnits]
      rintro _ ⟨rfl,_⟩
      exact hsign rfl
    rw [htext, hunits, ← htext, roundUnits_shortest]
    omega

theorem text_injective : Function.Injective text := by
  intro x y h
  have hunits : x.units = y.units := by rw [← x.readUnits_text, h, y.readUnits_text]
  cases x
  cases y
  congr

theorem isNumberChar_text (x : Double) {c : Char} (h : c ∈ x.text) :
    Decimal.isNumberChar c = true := by
  unfold text at h
  split_ifs at h with hzero hneg
  · rw [List.mem_singleton.mp h]
    rfl
  · rcases List.mem_cons.mp h with rfl | hc
    · rfl
    · exact Decimal.isNumberChar_text _ hc
  · exact Decimal.isNumberChar_text _ h

theorem text_ne_nil (x : Double) : x.text ≠ [] := by
  unfold text
  split_ifs with hzero hneg
  · exact List.cons_ne_nil _ _
  · exact List.cons_ne_nil _ _
  · obtain ⟨c,rest,htext,_⟩ := (x.shortest hzero).text_eq_cons
    rw [htext]
    exact List.cons_ne_nil _ _

end Double
