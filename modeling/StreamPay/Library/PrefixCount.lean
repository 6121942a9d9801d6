import Mathlib.Data.List.Induction
import Mathlib.Tactic.Common

/-! How much of a sequence has come by, if it is to come in its order: a count that goes
on with the next element alone, whatever else comes in between. -/
namespace PrefixCount
variable {α : Type*} [DecidableEq α] (xs : ℕ → α)

def advance (n : ℕ) (a : α) : ℕ := if a = xs n then n+1 else n

def count (as : List α) : ℕ := as.foldl (advance xs) 0

theorem count_append_singleton (as : List α) (a : α) :
    count xs (as ++ [a]) = advance xs (count xs as) a := by
  rw [count, List.foldl_append]
  rfl

omit [DecidableEq α] in
/-- A first part comes by with the last element, or had come by before it. -/
theorem range_map_sublist_append_singleton (k : ℕ) (as : List α) (a : α) :
    ((List.range k).map xs).Sublist (as ++ [a]) ↔ ((List.range k).map xs).Sublist as ∨
      ∃ j, k = j+1 ∧ a = xs j ∧ ((List.range j).map xs).Sublist as := by
  constructor
  · intro h
    obtain ⟨first,last,hsplit,hfirst,hlast⟩ := List.sublist_append_iff.mp h
    cases last with
    | nil =>
      rw [List.append_nil] at hsplit
      exact Or.inl (hsplit ▸ hfirst)
    | cons b last =>
      obtain rfl : last = [] := by
        have hlength := hlast.length_le
        simpa using hlength
      obtain rfl : b = a := List.mem_singleton.mp (hlast.subset List.mem_cons_self)
      cases k with
      | zero => simp at hsplit
      | succ j =>
        rw [List.range_succ, List.map_append] at hsplit
        obtain ⟨rfl,hlast⟩ := List.append_inj' hsplit rfl
        exact Or.inr ⟨j, rfl, (List.cons.inj hlast).1.symm, hfirst⟩
  · rintro (hold | ⟨j,rfl,rfl,hold⟩)
    · exact hold.trans (List.sublist_append_left as [a])
    · rw [List.range_succ, List.map_append]
      exact hold.append (List.Sublist.refl _)

/-- The count is that of the longest first part that comes by in its order. -/
theorem le_count_iff (k : ℕ) (as : List α) :
    k ≤ count xs as ↔ ((List.range k).map xs).Sublist as := by
  induction as using List.reverseRecOn generalizing k with
  | nil =>
    rw [List.sublist_nil, List.map_eq_nil_iff, List.range_eq_nil]
    exact Nat.le_zero
  | append_singleton as a ih =>
    rw [count_append_singleton, range_map_sublist_append_singleton, ← ih, advance]
    simp only [← ih]
    constructor
    · intro hk
      split_ifs at hk with ha
      · rcases Nat.lt_or_ge (count xs as) k with hnext | hold
        · exact Or.inr ⟨count xs as, by omega, ha, Nat.le_refl _⟩
        · exact Or.inl hold
      · exact Or.inl hk
    · rintro (hold | ⟨j,rfl,ha,hj⟩)
      · split_ifs <;> omega
      · split_ifs with hnext
        · omega
        · -- the element is not the next one, so it has come by before
          have hne : j ≠ count xs as := fun he => hnext (he ▸ ha)
          omega

end PrefixCount
