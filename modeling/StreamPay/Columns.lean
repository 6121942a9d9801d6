import Mathlib.Data.Int.Notation
import StreamPay.Library.IsoDate
import StreamPay.Library.JsonText

/-! Which values the columns of PostgreSQL take, as drizzle-orm sends them, and what is
stored of them. -/
namespace StreamPay

/-- Texts of PostgreSQL hold no NUL character. -/
def isColumnText (text : String) : Bool := '\x00' ∉ text.toList

/-- A text that a column `varchar(n)` keeps as it is. -/
def isVarchar (n : ℕ) (text : String) : Bool := text.length ≤ n && isColumnText text

/-- What a column `varchar(n)` stores: it cuts off spaces that are too many, and refuses
any other text that is too long. -/
def varchar (n : ℕ) (text : String) : Option String :=
  if isColumnText text && (text.toList.drop n).all (· = ' ') then
    some (String.ofList (text.toList.take n))
  else none

/-- A string as UTF-8 has it: a surrogate that stands alone becomes U+FFFD. -/
def toWellFormed : Utf16 → Utf16
  | [] => []
  | [u] => if JsonText.isHighSurrogate u || JsonText.isLowSurrogate u then [0xFFFD] else [u]
  | u :: v :: rest =>
    if JsonText.isHighSurrogate u && JsonText.isLowSurrogate v then u :: v :: toWellFormed rest
    else if JsonText.isHighSurrogate u || JsonText.isLowSurrogate u then
      0xFFFD :: toWellFormed (v :: rest)
    else u :: toWellFormed (v :: rest)

/-- What a column `text` stores of a string. -/
def textColumn (text : Utf16) : Option Utf16 := if 0 ∈ text then none else some (toWellFormed text)

/-- A column `integer`. -/
def isInteger (n : ℤ) : Bool := -2147483648 ≤ n && n ≤ 2147483647

/-- A date is sent as its `toISOString()`, and is read if it is of the years 1 to 9999. -/
def isReadableDate (date : ℤ) : Bool :=
  let year := (IsoDate.civilOfDays (date/86400000)).year
  1 ≤ year && year ≤ 9999

theorem varchar_of_isVarchar {n : ℕ} {text : String} (h : isVarchar n text = true) :
    varchar n text = some text := by
  obtain ⟨hlength,htext⟩ := Bool.and_eq_true_iff.mp h
  have hlength : text.toList.length ≤ n := of_decide_eq_true hlength
  rw [varchar, htext, List.drop_of_length_le hlength, List.take_of_length_le hlength,
    String.ofList_toList]
  rfl

/-- What is stored is kept as it is. -/
theorem isVarchar_of_varchar {n : ℕ} {text stored : String} (h : varchar n text = some stored) :
    isVarchar n stored = true := by
  unfold varchar at h
  split_ifs at h with hcut
  obtain rfl := Option.some.inj h
  have htext : '\x00' ∉ text.toList := of_decide_eq_true (Bool.and_eq_true_iff.mp hcut).1
  rw [isVarchar, isColumnText, ← String.length_toList, String.toList_ofList, List.length_take]
  refine Bool.and_eq_true_iff.mpr ⟨decide_eq_true (Nat.min_le_left _ _), decide_eq_true ?_⟩
  exact fun hmem => htext (List.mem_of_mem_take hmem)

example : varchar 3 "abc  " = some "abc" ∧ varchar 3 "abc d" = none := by decide

end StreamPay
