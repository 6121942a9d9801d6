import Mathlib.Data.Int.Notation
import Mathlib.Tactic.Common

/-! The fixed-point arithmetic of the reconciliation: amounts with up to nine
places, compared as integers of billionths. -/
namespace StreamPay

structure ReconciliationInputError where
  message : String
  deriving DecidableEq, Repr

/-- `/^\d+(?:\.\d{1,9})?$/`. -/
def isDecimal (value : String) : Bool :=
  let whole := value.toList.takeWhile Char.isDigit
  let rest := value.toList.dropWhile Char.isDigit
  !whole.isEmpty && match rest with
    | [] => true
    | c :: fraction =>
      c = '.' && 1 ≤ fraction.length && fraction.length ≤ 9 && fraction.all Char.isDigit

/-- The number that a list of decimal digits spells. -/
def digitsValue (digits : List Char) : ℕ :=
  digits.foldl (fun n c => 10*n+(c.toNat - '0'.toNat)) 0

def parseDecimal (value fieldName : String) : Except ReconciliationInputError ℤ :=
  if !isDecimal value then
    .error ⟨fieldName ++ " must be a non-negative decimal with up to 9 places"⟩
  else
    let whole := value.toList.takeWhile (· ≠ '.')
    let fraction := (value.toList.dropWhile (· ≠ '.')).tail
    .ok (digitsValue whole*1000000000+
      digitsValue (fraction ++ List.replicate (9-fraction.length) '0') : ℕ)

def formatDecimal (units : ℤ) : String :=
  let sign := if units < 0 then "-" else ""
  let absolute := units.natAbs
  let digits := Nat.toDigits 10 (absolute % 1000000000)
  let padded := List.replicate (9-digits.length) '0' ++ digits
  let fraction := (padded.reverse.dropWhile (· = '0')).reverse
  sign ++ toString (absolute / 1000000000) ++
    if fraction.isEmpty then "" else "." ++ String.ofList fraction

/-- The difference between the amounts, or `none` when they are equal. -/
def compareAmounts (expected actual : String) :
    Except ReconciliationInputError (Option String) := do
  let expectedUnits ← parseDecimal expected "expectedAmount"
  let actualUnits ← parseDecimal actual "actualAmount"
  let difference := actualUnits-expectedUnits
  return if difference = 0 then none else some (formatDecimal difference)

theorem parseDecimal_of_isDecimal {value : String} (h : isDecimal value = true)
    (fieldName : String) : ∃ units, parseDecimal value fieldName = .ok units := by
  unfold parseDecimal
  rw [h]
  exact ⟨_, rfl⟩

theorem compareAmounts_of_isDecimal {expected actual : String} (he : isDecimal expected = true)
    (ha : isDecimal actual = true) : ∃ difference, compareAmounts expected actual = .ok difference := by
  obtain ⟨e,he⟩ := parseDecimal_of_isDecimal he "expectedAmount"
  obtain ⟨a,ha⟩ := parseDecimal_of_isDecimal ha "actualAmount"
  unfold compareAmounts
  rw [he, ha]
  exact ⟨_, rfl⟩

example : compareAmounts "10.000000001" "10" = .ok (some "-0.000000001") := by decide

end StreamPay
