import Mathlib.Algebra.Order.Floor.Semiring
import Mathlib.Data.Rat.Floor

/-! Numbers of JavaScript as far as counting goes: finite values read exactly,
the infinities and NaN. -/

inductive JsNumber
  | nan
  | infinity
  | negInfinity
  | finite (q : ℚ)
  deriving DecidableEq

namespace JsNumber

/-- The value of a number that `Number.isInteger` accepts. -/
def integer? : JsNumber → Option ℤ
  | .finite q => if q.den = 1 then some q.num else none
  | _ => none

/-- `n < x` for a counter `n`; comparisons with NaN are false. -/
def natLt (n : ℕ) : JsNumber → Bool
  | .nan => false
  | .infinity => true
  | .negInfinity => false
  | .finite q => n < q

/-- How many counters `0, 1, ..` are below a number; `none` when all are. -/
def natsBelow : JsNumber → Option ℕ
  | .nan => some 0
  | .infinity => none
  | .negInfinity => some 0
  | .finite q => some ⌈q⌉₊

/-- Neither zero nor NaN. -/
def isTruthy : JsNumber → Bool
  | .nan => false
  | .finite q => q ≠ 0
  | _ => true

theorem natLt_iff (n : ℕ) (x : JsNumber) :
    natLt n x = true ↔ ∀ m, x.natsBelow = some m → n < m := by
  cases x with
  | nan => simp [natLt, natsBelow]
  | infinity => simp [natLt, natsBelow]
  | negInfinity => simp [natLt, natsBelow]
  | finite q => simp [natLt, natsBelow, Nat.lt_ceil]

end JsNumber
