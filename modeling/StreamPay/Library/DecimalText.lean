import Mathlib.Algebra.Order.Field.Rat
import Mathlib.Tactic.FieldSimp
import Mathlib.Tactic.Linarith
import StreamPay.Library.DecimalDigits

/-! Decimal texts: digits, and perhaps a point with more digits behind it. The
numbers that they denote, and the shortest text of a number. -/
namespace DecimalText
open DecimalDigits

/-- The digits before and behind the point. -/
structure Parts (text : String) (whole fraction : List Char) : Prop where
  spelled : text.toList = whole ++ if fraction = [] then [] else '.' :: fraction
  nonempty : whole ≠ []
  whole : ∀ digit ∈ whole, digit.isDigit = true
  fraction : ∀ digit ∈ fraction, digit.isDigit = true

def number (whole fraction : List Char) : ℚ :=
  (value (whole ++ fraction) : ℚ)/10^fraction.length

def DenotesNumber (text : String) (q : ℚ) : Prop :=
  ∃ whole fraction, Parts text whole fraction ∧ q = number whole fraction

/-- A sign may stand in front of the number. -/
def SignedDenotes (text : String) (q : ℚ) : Prop :=
  DenotesNumber text q ∨ ∃ unsigned, text = "-" ++ unsigned ∧ DenotesNumber unsigned (-q)

section
variable {text text' : String} {whole whole' fraction fraction' : List Char} {q : ℚ}

theorem Parts.takeWhile (h : Parts text whole fraction) :
    text.toList.takeWhile Char.isDigit = whole := by
  have hpoint : (if fraction = [] then [] else '.' :: fraction).takeWhile Char.isDigit = [] := by
    split_ifs
    · rfl
    · rfl
  rw [h.spelled, List.takeWhile_append_of_pos h.whole, hpoint, List.append_nil]

theorem Parts.dropWhile (h : Parts text whole fraction) :
    text.toList.dropWhile Char.isDigit = if fraction = [] then [] else '.' :: fraction := by
  rw [h.spelled, List.dropWhile_append_of_pos h.whole]
  split_ifs
  · rfl
  · rfl

theorem Parts.unique (h : Parts text whole fraction) (h' : Parts text whole' fraction') :
    whole = whole' ∧ fraction = fraction' := by
  refine ⟨h.takeWhile.symm.trans h'.takeWhile, ?_⟩
  have hrest := h.dropWhile.symm.trans h'.dropWhile
  split_ifs at hrest with hnone hnone' hnone'
  · rw [hnone, hnone']
  · exact (List.cons.inj hrest).2

theorem Parts.text_eq (h : Parts text whole fraction) (h' : Parts text' whole fraction) :
    text = text' :=
  String.toList_inj.mp (h.spelled.trans h'.spelled.symm)

theorem Parts.length (h : Parts text whole fraction) :
    text.length = whole.length+if fraction.length = 0 then 0 else fraction.length+1 := by
  rw [← String.length_toList, h.spelled, List.length_append]
  cases fraction <;> rfl

theorem Parts.denotes_iff (h : Parts text whole fraction) :
    DenotesNumber text q ↔ q = number whole fraction := by
  constructor
  · rintro ⟨whole',fraction',h',rfl⟩
    obtain ⟨rfl,rfl⟩ := h.unique h'
    rfl
  · exact fun hq => ⟨whole, fraction, h, hq⟩

theorem Parts.head_ne_sign (h : Parts text whole fraction) (unsigned : String) :
    text ≠ "-" ++ unsigned := by
  rintro rfl
  have hspelled := h.spelled
  cases hw : whole with
  | nil => exact h.nonempty hw
  | cons digit rest =>
    rw [String.toList_append, hw] at hspelled
    have hfirst : '-' = digit := (List.cons.inj hspelled).1
    have hdigit := h.whole digit (by rw [hw]; exact List.mem_cons_self)
    rw [← hfirst] at hdigit
    exact absurd hdigit (by decide)

theorem Parts.signedDenotes_iff (h : Parts text whole fraction) :
    SignedDenotes text q ↔ q = number whole fraction := by
  rw [SignedDenotes, h.denotes_iff, or_iff_left]
  rintro ⟨unsigned,hsigned,_⟩
  exact h.head_ne_sign unsigned hsigned

theorem Parts.signedDenotes_neg_iff (h : Parts text whole fraction) :
    SignedDenotes ("-" ++ text) q ↔ q = -number whole fraction := by
  have hunsigned : ¬ DenotesNumber ("-" ++ text) q := by
    rintro ⟨whole',fraction',h',_⟩
    exact h'.head_ne_sign text rfl
  rw [SignedDenotes, or_iff_right hunsigned]
  constructor
  · rintro ⟨unsigned,hsame,hq⟩
    obtain rfl := (String.append_right_inj "-").mp hsame
    rw [← h.denotes_iff.mp hq, neg_neg]
  · rintro rfl
    exact ⟨text, rfl, h.denotes_iff.mpr (neg_neg _)⟩

end

theorem number_eq_number_iff {whole whole' fraction fraction' : List Char}
    (h : ∀ digit ∈ fraction, digit.isDigit = true)
    (h' : ∀ digit ∈ fraction', digit.isDigit = true) :
    number whole fraction = number whole' fraction' ↔ value whole = value whole' ∧
      10^fraction'.length*value fraction = 10^fraction.length*value fraction' := by
  have hpos : 0 < 10^fraction.length := Nat.pow_pos (by decide)
  have hpos' : 0 < 10^fraction'.length := Nat.pow_pos (by decide)
  have hlt := value_lt h
  have hlt' := value_lt h'
  -- both sides times both powers of ten, so that the rest is about natural numbers
  have hcross : number whole fraction = number whole' fraction' ↔
      10^fraction.length*10^fraction'.length*value whole+10^fraction'.length*value fraction =
      10^fraction.length*10^fraction'.length*value whole'+10^fraction.length*value fraction' := by
    rw [number, number, div_eq_div_iff (by positivity) (by positivity), value_append,
      value_append]
    rw [← @Nat.cast_inj ℚ]
    push_cast
    constructor
    · intro heq
      linarith
    · intro heq
      linarith
  rw [hcross]
  generalize 10^fraction.length = a at *
  generalize 10^fraction'.length = b at *
  constructor
  · intro heq
    -- the parts behind the point are both below the product
    have hrest : b*value fraction < a*b := by
      rw [Nat.mul_comm a b]
      exact Nat.mul_lt_mul_of_pos_left hlt hpos'
    have hrest' : a*value fraction' < a*b := Nat.mul_lt_mul_of_pos_left hlt' hpos
    have hwhole := congrArg (·/(a*b)) heq
    simp only [Nat.mul_add_div (Nat.mul_pos hpos hpos'), Nat.div_eq_of_lt hrest,
      Nat.div_eq_of_lt hrest', Nat.add_zero] at hwhole
    rw [hwhole] at heq
    exact ⟨hwhole, Nat.add_left_cancel heq⟩
  · rintro ⟨hwhole,hfraction⟩
    rw [hwhole, hfraction]

/-- No zero can be left out, neither in front nor at the end of the fraction. -/
structure Shortest (whole fraction : List Char) : Prop where
  whole : whole = Nat.toDigits 10 (value whole)
  fraction : fraction.getLast? ≠ some '0'

theorem not_dvd_of_getLast {fraction : List Char} (h : ∀ digit ∈ fraction, digit.isDigit = true)
    (hne : fraction ≠ []) (hlast : fraction.getLast? ≠ some '0') : ¬ 10 ∣ value fraction := by
  obtain ⟨front,digit,rfl⟩ : ∃ front digit, fraction = front ++ [digit] :=
    ⟨_, _, (List.dropLast_append_getLast hne).symm⟩
  have hdigit := toNat_bounds (h digit (List.mem_append_right _ (List.mem_singleton_self _)))
  have hnonzero : digit.toNat ≠ '0'.toNat := by
    intro hzero
    rw [List.getLast?_append, Char.toNat_inj.mp hzero] at hlast
    exact hlast rfl
  have hlastValue : value [digit] = digit.toNat- '0'.toNat := by simp [value_cons]
  rw [value_append, hlastValue]
  intro hdvd
  have hsingle : 10 ∣ digit.toNat- '0'.toNat :=
    (Nat.dvd_add_right (Dvd.intro _ (by rw [List.length_singleton, pow_one]))).mp hdvd
  have hle := Nat.le_of_dvd (by omega) hsingle
  omega

/-- Other digits of the same fraction have zeros behind them. -/
theorem length_fraction_le {fraction fraction' : List Char}
    (h : ∀ digit ∈ fraction, digit.isDigit = true) (hlast : fraction.getLast? ≠ some '0')
    (heq : 10^fraction'.length*value fraction = 10^fraction.length*value fraction') :
    fraction.length ≤ fraction'.length := by
  by_contra hlonger
  have hne : fraction ≠ [] := by
    rintro rfl
    exact hlonger (Nat.zero_le _)
  obtain ⟨n,hn⟩ : ∃ n, fraction.length = fraction'.length+(n+1) :=
    ⟨fraction.length-fraction'.length-1, by omega⟩
  have hpos : 0 < 10^fraction'.length := Nat.pow_pos (by decide)
  rw [hn, Nat.pow_add, Nat.mul_assoc] at heq
  have hvalue := Nat.eq_of_mul_eq_mul_left hpos heq
  apply not_dvd_of_getLast h hne hlast
  rw [hvalue, Nat.pow_succ, Nat.mul_comm (10^n), Nat.mul_assoc]
  exact Nat.dvd_mul_right _ _

/-- A text without such zeros is the shortest one of its number. -/
theorem Shortest.le {text text' : String} {whole whole' fraction fraction' : List Char}
    (h : Shortest whole fraction) (hparts : Parts text whole fraction)
    (hparts' : Parts text' whole' fraction')
    (hnumber : number whole fraction = number whole' fraction') :
    text.length ≤ text'.length ∧ (text'.length = text.length → text' = text) := by
  obtain ⟨hwhole,hfraction⟩ :=
    (number_eq_number_iff hparts.fraction hparts'.fraction).mp hnumber
  have hwholeLength : whole.length ≤ whole'.length := by
    rw [h.whole, hwhole]
    exact length_toDigits_le hparts'.whole hparts'.nonempty
  have hfractionLength := length_fraction_le hparts.fraction h.fraction hfraction
  rw [hparts.length, hparts'.length]
  constructor
  · split_ifs <;> omega
  · intro hsame
    have hlengths : whole.length = whole'.length ∧ fraction.length = fraction'.length := by
      split_ifs at hsame <;> omega
    rw [hlengths.2] at hfraction
    have hpos : 0 < 10^fraction'.length := Nat.pow_pos (by decide)
    have hsameWhole := value_injective hparts.whole hparts'.whole hlengths.1 hwhole
    have hsameFraction := value_injective hparts.fraction hparts'.fraction hlengths.2
      (Nat.eq_of_mul_eq_mul_left hpos hfraction)
    rw [← hsameWhole, ← hsameFraction] at hparts'
    exact hparts'.text_eq hparts

end DecimalText
