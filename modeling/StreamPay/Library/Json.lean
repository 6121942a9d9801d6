import StreamPay.Library.JsNumber

/-! JSON values as `JSON.parse` hands them to a program. -/

inductive Json
  | null
  | bool (b : Bool)
  | number (x : JsNumber)
  | string (s : String)
  | array (items : List Json)
  | object (members : List (String × Json))

namespace Json

/-- `value[key]` for a key that only objects carry; `none` is `undefined`. -/
def get (value : Json) (key : String) : Option Json :=
  match value with
  | .object members => members.lookup key
  | _ => none

/-- The string under a key, `none` for every other type. -/
def getString (value : Json) (key : String) : Option String :=
  match value.get key with
  | some (.string s) => some s
  | _ => none

/-- The values that count as true in a condition. -/
def isTruthy : Json → Bool
  | .null => false
  | .bool b => b
  | .number x => x.isTruthy
  | .string s => s ≠ ""
  | _ => true

/-- A string under a key that is not the empty one. -/
def getNonEmptyString (value : Json) (key : String) : Option String :=
  (value.getString key).filter fun s => s ≠ ""

theorem getNonEmptyString_ne {value : Json} {key s : String}
    (h : value.getNonEmptyString key = some s) : s ≠ "" := by
  simpa using (Option.filter_eq_some_iff.mp h).2

end Json
