import Mathlib.Algebra.Order.Group.Defs
import Mathlib.Algebra.Order.Group.MinMax
import Mathlib.Tactic.Abel

/-! The time between two instants as far as it lies before a limit, if there is one. -/
namespace ClippedSpan
variable {α : Type*} [LinearOrder α] {limit : Option α} {l t u e : α}

/-- The instant, or the limit once it has passed. -/
def clip (limit : Option α) (t : α) : α := limit.elim t (min t)

theorem clip_le (limit : Option α) (t : α) : clip limit t ≤ t := by
  cases limit with
  | none => exact le_rfl
  | some e => exact min_le_left t e

theorem clip_mono (limit : Option α) : Monotone (clip limit) := by
  intro t u h
  cases limit with
  | none => exact h
  | some e => exact min_le_min_right e h

/-- Before the limit nothing is clipped, and from then on everything to the same instant. -/
theorem clip_eq_or (limit : Option α) (t : α) :
    clip limit t = t ∨ ∀ u, t ≤ u → clip limit u = clip limit t := by
  cases limit with
  | none => exact Or.inl rfl
  | some e =>
    rcases le_total t e with hle | hle
    · exact Or.inl (min_eq_left hle)
    · refine Or.inr fun u hu => ?_
      calc
        min u e = e := min_eq_right (hle.trans hu)
        _ = min t e := (min_eq_right hle).symm

variable [AddCommGroup α]

def span (limit : Option α) (l t : α) : α := max 0 (clip limit t-l)

theorem span_nonneg (limit : Option α) (l t : α) : 0 ≤ span limit l t := le_max_left _ _

/-- Nothing is added to a span once the limit has passed. -/
theorem span_of_le (l : α) (h : e ≤ t) : span (some e) l t = span (some e) l e := by
  have hclip : clip (some e) t = clip (some e) e := by
    calc
      min t e = e := min_eq_right h
      _ = min e e := (min_self e).symm
  rw [span, hclip, span]

/-- The spans from one instant of a list to the next. -/
def spans (limit : Option α) : α → List α → List α
  | _, [] => []
  | l, t :: ts => span limit l t :: spans limit t ts

variable [IsOrderedAddMonoid α]

theorem span_mono (limit : Option α) (l : α) : Monotone (span limit l) := by
  intro t u h
  exact max_le_max_left 0 (sub_le_sub_right (clip_mono limit h) l)

theorem span_self (limit : Option α) (l : α) : span limit l l = 0 :=
  max_eq_left (sub_nonpos.mpr (clip_le limit l))

/-- A span is cut in two at any instant within it, before the limit or after it. -/
theorem span_add (hlt : l ≤ t) (htu : t ≤ u) :
    span limit l t+span limit t u = span limit l u := by
  rcases clip_eq_or limit t with hbefore | hafter
  · have hle : t ≤ clip limit u := by
      calc
        t = clip limit t := hbefore.symm
        _ ≤ clip limit u := clip_mono limit htu
    rw [span, span, span, hbefore, max_eq_right (sub_nonneg.mpr hlt),
      max_eq_right (sub_nonneg.mpr hle), max_eq_right (sub_nonneg.mpr (hlt.trans hle))]
    abel
  · have hover : span limit t u = 0 := by
      rw [span, hafter u htu]
      exact span_self limit t
    rw [hover, add_zero, span, span, hafter u htu]

/-- Spans that follow each other add up to the whole. -/
theorem sum_spans {ts : List α} (h : (l :: ts).Pairwise (· ≤ ·)) :
    (spans limit l ts).sum = span limit l (ts.getLast?.getD l) := by
  induction ts generalizing l with
  | nil => exact (span_self limit l).symm
  | cons t ts ih =>
    rw [List.pairwise_cons] at h
    have hlt : l ≤ t := h.1 t List.mem_cons_self
    have hlast : t ≤ ts.getLast?.getD t := by
      cases hts : ts.getLast? with
      | none => exact le_rfl
      | some last =>
        have hordered := (List.pairwise_cons.mp h.2).1
        exact hordered last (List.mem_of_getLast? hts)
    rw [spans, List.sum_cons, ih h.2, span_add hlt hlast, List.getLast?_cons]
    rfl

end ClippedSpan
