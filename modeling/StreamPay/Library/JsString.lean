import Mathlib.Data.List.Lex
import Mathlib.Tactic.Common

/-! Strings of JavaScript: their UTF-16 code units, the order of `sort()` and
the white space that `trim()` removes. -/

/-- The number of a hexadecimal digit, in either case. -/
def hexDigit (c : Char) : Option ℕ :=
  if '0' ≤ c ∧ c ≤ '9' then some (c.toNat - '0'.toNat)
  else if 'a' ≤ c ∧ c ≤ 'f' then some (c.toNat - 'a'.toNat+10)
  else if 'A' ≤ c ∧ c ≤ 'F' then some (c.toNat - 'A'.toNat+10)
  else none

/-- A JavaScript string as its UTF-16 code units. -/
abbrev Utf16 := List UInt16

/-- One code unit, or a surrogate pair beyond the basic plane. -/
def Char.utf16 (c : Char) : Utf16 :=
  if c.toNat < 0x10000 then [c.toNat.toUInt16]
  else [(0xD800+(c.toNat-0x10000) / 0x400).toUInt16, (0xDC00+(c.toNat-0x10000) % 0x400).toUInt16]

def String.utf16 (s : String) : Utf16 := s.toList.flatMap Char.utf16

theorem Char.toNat_range (c : Char) :
    c.toNat < 0xD800 ∨ 0xDFFF < c.toNat ∧ c.toNat < 0x110000 := c.valid

theorem Nat.toNat_toUInt16_of_lt {n : ℕ} (h : n < 0x10000) : n.toUInt16.toNat = n := by
  rw [Nat.toUInt16_eq, UInt16.toNat_ofNat']
  exact Nat.mod_eq_of_lt h

/-- The code units of a character tell where they end. -/
theorem Char.utf16_append_inj {c d : Char} {a b : Utf16} (h : c.utf16 ++ a = d.utf16 ++ b) :
    c = d ∧ a = b := by
  have hc := c.toNat_range
  have hd := d.toNat_range
  unfold Char.utf16 at h
  split_ifs at h with hcsmall hdsmall hdsmall
  · obtain ⟨hunit,hrest⟩ := List.cons_eq_cons.mp h
    have hcode : c.toNat = d.toNat := by
      rw [← Nat.toNat_toUInt16_of_lt hcsmall, hunit, Nat.toNat_toUInt16_of_lt hdsmall]
    exact ⟨Char.toNat_inj.mp hcode, hrest⟩
  · -- a single unit is no half of a pair
    have hunit := congrArg UInt16.toNat (List.cons_eq_cons.mp h).1
    rw [Nat.toNat_toUInt16_of_lt hcsmall, Nat.toNat_toUInt16_of_lt (by omega)] at hunit
    omega
  · have hunit := congrArg UInt16.toNat (List.cons_eq_cons.mp h).1
    rw [Nat.toNat_toUInt16_of_lt hdsmall, Nat.toNat_toUInt16_of_lt (by omega)] at hunit
    omega
  · obtain ⟨hhigh,hrest⟩ := List.cons_eq_cons.mp h
    obtain ⟨hlow,hrest⟩ := List.cons_eq_cons.mp hrest
    have hhigh' := congrArg UInt16.toNat hhigh
    have hlow' := congrArg UInt16.toNat hlow
    rw [Nat.toNat_toUInt16_of_lt (by omega), Nat.toNat_toUInt16_of_lt (by omega)] at hhigh' hlow'
    have hcode : c.toNat = d.toNat := by omega
    exact ⟨Char.toNat_inj.mp hcode, hrest⟩

theorem Char.utf16_ne_nil (c : Char) : c.utf16 ≠ [] := by
  unfold Char.utf16
  split_ifs <;> exact List.cons_ne_nil _ _

theorem String.utf16_injective : Function.Injective String.utf16 := by
  have hlists : ∀ s t : List Char, s.flatMap Char.utf16 = t.flatMap Char.utf16 → s = t := by
    intro s
    induction s with
    | nil =>
      intro t h
      cases t with
      | nil => rfl
      | cons d t =>
        rw [List.flatMap_nil, List.flatMap_cons] at h
        exact absurd (List.append_eq_nil_iff.mp h.symm).1 d.utf16_ne_nil
    | cons c s ih =>
      intro t h
      cases t with
      | nil =>
        rw [List.flatMap_nil, List.flatMap_cons] at h
        exact absurd (List.append_eq_nil_iff.mp h).1 c.utf16_ne_nil
      | cons d t =>
        rw [List.flatMap_cons, List.flatMap_cons] at h
        obtain ⟨rfl,hrest⟩ := Char.utf16_append_inj h
        rw [ih t hrest]
  intro s t h
  exact String.toList_inj.mp (hlists _ _ h)

/-- The default order of `sort()`, by code units. -/
def String.sortsBefore (s t : String) : Bool :=
  s.utf16.map UInt16.toNat ≤ t.utf16.map UInt16.toNat

/-- White space and line terminators. -/
def Char.isTrimmed (c : Char) : Bool :=
  c.toNat ∈ [0x9, 0xA, 0xB, 0xC, 0xD, 0x20, 0xA0, 0x1680, 0x2028, 0x2029, 0x202F, 0x205F, 0x3000,
    0xFEFF] || (0x2000 ≤ c.toNat && c.toNat ≤ 0x200A)

/-- Nothing is left of the string after `trim()`. -/
def String.isBlank (s : String) : Bool := s.toList.all Char.isTrimmed

/-- `trim()`. -/
def String.trimmed (s : String) : String :=
  String.ofList ((s.toList.dropWhile Char.isTrimmed).reverse.dropWhile Char.isTrimmed).reverse

/-- What is thrown: an `Error` with its message, or a value that is none. -/
inductive Thrown
  | error (message : Utf16)
  | other
