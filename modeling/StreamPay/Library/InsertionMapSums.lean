import Mathlib.Algebra.BigOperators.Group.List.Basic
import StreamPay.Library.InsertionMap

/-! Sums over the values of a map, as one of its keys is set. -/
namespace InsertionMap
variable {κ α M : Type*} [DecidableEq κ] [AddCommMonoid M] {m : InsertionMap κ α}

theorem sum_setEntries (f : α → M) {k : κ} {w : α} {es : List (κ × α)} (h : es.lookup k = some w)
    (v : α) : ((setEntries k v es).map fun e => f e.2).sum+f w =
      (es.map fun e => f e.2).sum+f v := by
  induction es with
  | nil => cases h
  | cons e es ih =>
    rw [lookup_cons_ite] at h
    by_cases he : e.1 = k
    · rw [if_pos he.symm] at h
      obtain rfl := Option.some.inj h
      simp only [setEntries, if_pos he, List.map_cons, List.sum_cons]
      calc
        f v+(es.map fun e => f e.2).sum+f e.2 = f e.2+(f v+(es.map fun e => f e.2).sum) :=
          add_comm _ _
        _ = f e.2+((es.map fun e => f e.2).sum+f v) := by rw [add_comm (f v)]
        _ = f e.2+(es.map fun e => f e.2).sum+f v := (add_assoc _ _ _).symm
    · rw [if_neg (Ne.symm he)] at h
      simp only [setEntries, if_neg he, List.map_cons, List.sum_cons]
      rw [add_assoc, ih h, add_assoc]

/-- A sum over the values changes as the value that is set. -/
theorem sum_values_set (f : α → M) {k : κ} {w : α} (h : m.get k = some w) (v : α) :
    ((m.set k v).values.map f).sum+f w = (m.values.map f).sum+f v := by
  simp only [values, List.map_map]
  exact sum_setEntries f h v

theorem sum_values_set_of_get_none (f : α → M) {k : κ} (h : m.get k = none) (v : α) :
    ((m.set k v).values.map f).sum = (m.values.map f).sum+f v := by
  rw [values, entries_set_of_get_none m v h, List.map_append, List.map_append, List.sum_append]
  simp [values]

end InsertionMap
