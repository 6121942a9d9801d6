import Mathlib.Data.List.Basic
import Mathlib.Tactic.Common

/-! Names that end in a number: the number can be read back, and with a
separator before it so can the rest. -/

namespace NumberedText

theorem toList_toString (n : ℕ) : (toString n).toList = Nat.toDigits 10 n := by
  rw [Nat.toString_eq_repr, Nat.toList_repr]

theorem dash_notMem_toString (n : ℕ) : '-' ∉ (toString n).toList := by
  intro h
  rw [toList_toString] at h
  have hdigit := Nat.isDigit_of_mem_toDigits (by omega) (by omega) h
  exact absurd hdigit (by decide)

theorem toString_injective {m n : ℕ} (h : toString m = toString n) : m = n := by
  have hdigits : Nat.toDigits 10 m = Nat.toDigits 10 n := by
    rw [← toList_toString, h, toList_toString]
  calc
    m = Nat.ofDigitChars 10 (Nat.toDigits 10 m) 0 := Nat.ofDigitChars_ten_toDigits.symm
    _ = n := by rw [hdigits, Nat.ofDigitChars_ten_toDigits]

theorem stem_append_injective {stem : String} {m n : ℕ}
    (h : stem ++ toString m = stem ++ toString n) : m = n :=
  toString_injective ((String.append_right_inj stem).mp h)

/-- A list is cut in one way only before the first occurrence of an element. -/
theorem append_cons_inj {α : Type*} {x y z w : List α} {a : α} (hx : a ∉ x) (hy : a ∉ y)
    (h : x ++ a :: z = y ++ a :: w) : x = y ∧ z = w := by
  induction x generalizing y with
  | nil =>
    cases y with
    | nil => exact ⟨rfl, List.tail_eq_of_cons_eq h⟩
    | cons b y =>
      have hb : a = b := List.head_eq_of_cons_eq h
      exact absurd (hb ▸ List.mem_cons_self) hy
  | cons b x ih =>
    cases y with
    | nil =>
      have hb : b = a := List.head_eq_of_cons_eq h
      exact absurd (hb ▸ List.mem_cons_self) hx
    | cons c y =>
      have hhead : b = c := List.head_eq_of_cons_eq h
      have htail : x ++ a :: z = y ++ a :: w := List.tail_eq_of_cons_eq h
      obtain ⟨hxy,hzw⟩ := ih (fun hm => hx (List.mem_cons_of_mem _ hm))
        (fun hm => hy (List.mem_cons_of_mem _ hm)) htail
      exact ⟨by rw [hhead, hxy], hzw⟩

/-- Behind the last dash stands the number, since digits contain no dash. -/
theorem dash_append_injective {a b : String} {m n : ℕ}
    (h : a ++ "-" ++ toString m = b ++ "-" ++ toString n) : a = b ∧ m = n := by
  -- read from the end, so that the last dash becomes the first
  have hlist := congrArg (List.reverse ∘ String.toList) h
  simp only [Function.comp, String.toList_append, List.reverse_append, List.append_assoc] at hlist
  have hno (k : ℕ) : '-' ∉ (toString k).toList.reverse := fun hmem =>
    dash_notMem_toString k (List.mem_reverse.mp hmem)
  obtain ⟨hnumber,hstem⟩ := append_cons_inj (hno m) (hno n) hlist
  have hn : toString m = toString n := String.toList_inj.mp (List.reverse_injective hnumber)
  have ha : a = b := String.toList_inj.mp (List.reverse_injective hstem)
  exact ⟨ha, toString_injective hn⟩

end NumberedText
