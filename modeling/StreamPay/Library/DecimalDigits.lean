import Mathlib.Tactic.Common
import Mathlib.Tactic.Ring

/-! The number that a list of decimal digits spells. -/
namespace DecimalDigits

def value (digits : List Char) : ℕ := Nat.ofDigitChars 10 digits 0

@[simp] theorem value_nil : value [] = 0 := rfl

theorem value_append (front back : List Char) :
    value (front ++ back) = 10^back.length*value front+value back := by
  rw [value, Nat.ofDigitChars_append, Nat.ofDigitChars_eq_ofDigitChars_zero]
  rfl

theorem value_cons (digit : Char) (digits : List Char) :
    value (digit :: digits) = 10^digits.length*(digit.toNat- '0'.toNat)+value digits := by
  have hdigit : value [digit] = digit.toNat- '0'.toNat := by
    simp [value, Nat.ofDigitChars_cons]
  rw [← List.singleton_append, value_append, hdigit]

theorem value_append_zeros (digits : List Char) (n : ℕ) :
    value (digits ++ List.replicate n '0') = 10^n*value digits := by
  rw [value, Nat.ofDigitChars_append, Nat.ofDigitChars_replicate_zero]
  rfl

theorem toNat_bounds {digit : Char} (h : digit.isDigit = true) :
    '0'.toNat ≤ digit.toNat ∧ digit.toNat ≤ '0'.toNat+9 :=
  Char.isDigit_iff_toNat.mp h

theorem value_lt {digits : List Char} (h : ∀ digit ∈ digits, digit.isDigit = true) :
    value digits < 10^digits.length := by
  induction digits with
  | nil => simp
  | cons digit digits ih =>
    have hrest := ih fun d hd => h d (List.mem_cons_of_mem _ hd)
    have hdigit := (toNat_bounds (h digit List.mem_cons_self)).2
    have hle : 10^digits.length*(digit.toNat- '0'.toNat) ≤ 10^digits.length*9 :=
      Nat.mul_le_mul_left _ (by omega)
    rw [value_cons, List.length_cons, Nat.pow_succ]
    omega

theorem value_eq_zero_iff {digits : List Char} (h : ∀ digit ∈ digits, digit.isDigit = true) :
    value digits = 0 ↔ ∀ digit ∈ digits, digit = '0' := by
  induction digits with
  | nil => simp
  | cons digit digits ih =>
    have hrest := ih fun d hd => h d (List.mem_cons_of_mem _ hd)
    have hdigit := (toNat_bounds (h digit List.mem_cons_self)).1
    have hzero : digit.toNat- '0'.toNat = 0 ↔ digit = '0' := by
      rw [Nat.sub_eq_zero_iff_le]
      constructor
      · intro hle
        exact Char.toNat_inj.mp (le_antisymm hle hdigit)
      · rintro rfl
        exact le_rfl
    have hpow : 10^digits.length ≠ 0 := Nat.pos_iff_ne_zero.mp (Nat.pow_pos (by decide))
    rw [value_cons, Nat.add_eq_zero_iff, Nat.mul_eq_zero, or_iff_right hpow, hzero, hrest]
    simp

/-- Equally many digits spell different numbers unless they are the same. -/
theorem value_injective {digits digits' : List Char}
    (h : ∀ digit ∈ digits, digit.isDigit = true) (h' : ∀ digit ∈ digits', digit.isDigit = true)
    (hlength : digits.length = digits'.length) (hvalue : value digits = value digits') :
    digits = digits' := by
  induction digits generalizing digits' with
  | nil => exact (List.length_eq_zero_iff.mp hlength.symm).symm
  | cons digit digits ih =>
    cases digits' with
    | nil => cases hlength
    | cons digit' digits' =>
      have hrest := fun d hd => h d (List.mem_cons_of_mem _ hd)
      have hrest' := fun d hd => h' d (List.mem_cons_of_mem _ hd)
      have hlen := Nat.succ.inj hlength
      have hlt := value_lt hrest
      have hlt' := value_lt hrest'
      rw [← hlen] at hlt'
      have hpos : 0 < 10^digits.length := Nat.pow_pos (by decide)
      rw [value_cons, value_cons, ← hlen] at hvalue
      have hfirst := congrArg (·/10^digits.length) hvalue
      simp only [Nat.mul_add_div hpos, Nat.div_eq_of_lt hlt, Nat.div_eq_of_lt hlt',
        Nat.add_zero] at hfirst
      have hbounds := (toNat_bounds (h digit List.mem_cons_self)).1
      have hbounds' := (toNat_bounds (h' digit' List.mem_cons_self)).1
      have hdigit : digit = digit' := Char.toNat_inj.mp (by omega)
      rw [hfirst] at hvalue
      rw [hdigit, ih hrest hrest' hlen (Nat.add_left_cancel hvalue)]

theorem value_toDigits (n : ℕ) : value (Nat.toDigits 10 n) = n :=
  Nat.ofDigitChars_ten_toDigits

theorem isDigit_toDigits (n : ℕ) : ∀ digit ∈ Nat.toDigits 10 n, digit.isDigit = true :=
  fun _ hdigit => Nat.isDigit_of_mem_toDigits (by decide) (by decide) hdigit

/-- No other digits of a number are fewer than those it is printed with. -/
theorem length_toDigits_le {digits : List Char} (h : ∀ digit ∈ digits, digit.isDigit = true)
    (hnonempty : digits ≠ []) :
    (Nat.toDigits 10 (value digits)).length ≤ digits.length :=
  (Nat.length_toDigits_le_iff (by decide) (List.length_pos_iff.mpr hnonempty)).mpr (value_lt h)

end DecimalDigits
