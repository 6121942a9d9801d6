import Mathlib.Tactic.Common

/-! Systems that move by actions which may be disabled: schedules, the states
they reach and the invariants every schedule keeps. -/

namespace Interleaving
variable {σ α : Type*}

/-- Perform the actions of a schedule in order; a disabled action ends in `none`. -/
def exec (step : σ → α → Option σ) : σ → List α → Option σ
  | s, [] => some s
  | s, a :: as => (step s a).bind fun t => exec step t as

theorem exec_append (step : σ → α → Option σ) (s : σ) (as bs : List α) :
    exec step s (as ++ bs) = (exec step s as).bind fun t => exec step t bs := by
  induction as generalizing s with
  | nil => rfl
  | cons a as ih =>
    simp only [List.cons_append, exec]
    cases step s a with
    | none => rfl
    | some t => exact ih t

/-- States reached by steps that all meet the condition `C` when they are taken. -/
inductive ReachesWhile (step : σ → α → Option σ) (C : σ → α → Prop) (s : σ) : σ → Prop
  | refl : ReachesWhile step C s s
  | tail {t u : σ} (a : α) : ReachesWhile step C s t → C t a → step t a = some u →
      ReachesWhile step C s u

abbrev Reaches (step : σ → α → Option σ) : σ → σ → Prop :=
  ReachesWhile step fun _ _ => True

/-- What every step kept under `C` holds in every state reached under `C`. -/
theorem ReachesWhile.invariant {step : σ → α → Option σ} {C : σ → α → Prop} (I : σ → Prop)
    (hstep : ∀ t a u, I t → C t a → step t a = some u → I u) {s t : σ}
    (h : ReachesWhile step C s t) (hs : I s) : I t := by
  induction h with
  | refl => exact hs
  | tail a _ hC hu ih => exact hstep _ a _ ih hC hu

theorem ReachesWhile.trans {step : σ → α → Option σ} {C : σ → α → Prop} {s t u : σ}
    (h : ReachesWhile step C s t) (h' : ReachesWhile step C t u) : ReachesWhile step C s u := by
  induction h' with
  | refl => exact h
  | tail a _ hC hu ih => exact .tail a ih hC hu

theorem ReachesWhile.head {step : σ → α → Option σ} {C : σ → α → Prop} {s t u : σ} (a : α)
    (hC : C s a) (hst : step s a = some t) (h : ReachesWhile step C t u) :
    ReachesWhile step C s u :=
  (ReachesWhile.tail a .refl hC hst).trans h

/-- The system together with what its steps have marked so far. -/
def recording {β : Type*} (step : σ → α → Option σ) (mark : σ → α → Option β) :
    σ × List β → α → Option (σ × List β)
  | (s,marks), a => (step s a).map fun t => (t, marks ++ (mark s a).toList)

theorem recording_eq_some {β : Type*} {step : σ → α → Option σ} {mark : σ → α → Option β}
    {s t : σ × List β} {a : α} : recording step mark s a = some t ↔
      step s.1 a = some t.1 ∧ t.2 = s.2 ++ (mark s.1 a).toList := by
  simp only [recording, Option.map_eq_some_iff]
  constructor
  · rintro ⟨u,hu,rfl⟩
    exact ⟨hu, rfl⟩
  · rintro ⟨ht,hmarks⟩
    exact ⟨t.1, ht, Prod.ext rfl hmarks.symm⟩

theorem reaches_of_exec {step : σ → α → Option σ} {s t : σ} (as : List α)
    (h : exec step s as = some t) : Reaches step s t := by
  induction as generalizing s with
  | nil =>
    obtain rfl : s = t := Option.some.inj h
    exact .refl
  | cons a as ih =>
    obtain ⟨u,hu,ht⟩ := Option.bind_eq_some_iff.mp h
    exact ReachesWhile.head a trivial hu (ih ht)

/-- `P` holds of every step that a schedule takes. -/
def Along (step : σ → α → Option σ) (P : σ → α → σ → Prop) : σ → List α → Prop
  | _, [] => True
  | s, a :: as => ∀ t, step s a = some t → P s a t ∧ Along step P t as

/-- Properties that agree on every step hold along the same schedules. -/
theorem along_congr {step : σ → α → Option σ} {P Q : σ → α → σ → Prop}
    (h : ∀ s a t, step s a = some t → (P s a t ↔ Q s a t)) (s : σ) (as : List α) :
    Along step P s as ↔ Along step Q s as := by
  induction as generalizing s with
  | nil => rfl
  | cons a as ih =>
    refine forall_congr' fun t => forall_congr' fun ht => ?_
    rw [h s a t ht, ih t]

/-- Properties that agree on every step from a state of the invariant, and of which
the first one restores it, hold along the same schedules. -/
theorem along_congr_of_invariant {step : σ → α → Option σ} {P Q : σ → α → σ → Prop} (I : σ → Prop)
    (h : ∀ s a t, I s → step s a = some t → (P s a t ↔ Q s a t))
    (hI : ∀ s a t, I s → step s a = some t → P s a t → I t) {s : σ} (hs : I s) (as : List α) :
    Along step P s as ↔ Along step Q s as := by
  induction as generalizing s with
  | nil => rfl
  | cons a as ih =>
    apply forall_congr'
    intro t
    apply forall_congr'
    intro ht
    rw [← h s a t hs ht]
    exact and_congr_right fun hP => ih (hI s a t hs ht hP)

/-- A property of every step may be used for another one, and to keep an invariant. -/
theorem Along.imp_of_invariant {step : σ → α → Option σ} {P Q : σ → α → σ → Prop} (I : σ → Prop)
    (h : ∀ s a t, I s → step s a = some t → P s a t → I t ∧ Q s a t) {s : σ} (hs : I s)
    {as : List α} (hP : Along step P s as) : Along step Q s as := by
  induction as generalizing s with
  | nil => trivial
  | cons a as ih =>
    intro t ht
    obtain ⟨hstep,hrest⟩ := hP t ht
    obtain ⟨hinv,hQ⟩ := h s a t hs ht hstep
    exact ⟨hQ, ih hinv hrest⟩

theorem Along.last {step : σ → α → Option σ} {P : σ → α → σ → Prop} {s t u : σ} {a : α}
    {as : List α} (h : Along step P s (as ++ [a])) (ht : exec step s as = some t)
    (hu : step t a = some u) : P t a u := by
  induction as generalizing s with
  | nil =>
    obtain rfl : s = t := Option.some.inj ht
    exact (h u hu).1
  | cons b as ih =>
    obtain ⟨v,hv,hrest⟩ := Option.bind_eq_some_iff.mp ht
    exact ih (h v hv).2 hrest

/-- No two hold the same. -/
def Exclusive {ι κ : Type*} (holds : ι → Option κ) : Prop :=
  ∀ i j a, holds i = some a → holds j = some a → i = j

/-- One of them may change to hold what no other holds. -/
theorem Exclusive.of_others {ι κ : Type*} {holds holds' : ι → Option κ} {i : ι}
    (h : Exclusive holds) (hothers : ∀ j ≠ i, holds' j = holds j)
    (hown : ∀ a, holds' i = some a → ∀ j ≠ i, holds j ≠ some a) : Exclusive holds' := by
  intro j k a hj hk
  by_cases hji : j = i
  · by_contra hjk
    have hki : k ≠ i := fun he => hjk (hji.trans he.symm)
    rw [hji] at hj
    rw [hothers k hki] at hk
    exact hown a hj k hki hk
  · rw [hothers j hji] at hj
    by_cases hki : k = i
    · rw [hki] at hk
      exact absurd hj (hown a hk j hji)
    · rw [hothers k hki] at hk
      exact h j k a hj hk

/-- Perform a schedule as long as every action meets the condition `C`. -/
def execWhile (step : σ → α → Option σ) (C : σ → α → Prop) [∀ s a, Decidable (C s a)] :
    σ → List α → Option σ
  | s, [] => some s
  | s, a :: as => if C s a then (step s a).bind fun t => execWhile step C t as else none

theorem reachesWhile_of_execWhile {step : σ → α → Option σ} {C : σ → α → Prop}
    [∀ s a, Decidable (C s a)] {s t : σ} (as : List α) (h : execWhile step C s as = some t) :
    ReachesWhile step C s t := by
  induction as generalizing s with
  | nil =>
    obtain rfl : s = t := Option.some.inj h
    exact .refl
  | cons a as ih =>
    rw [execWhile] at h
    split_ifs at h with hC
    obtain ⟨u,hu,ht⟩ := Option.bind_eq_some_iff.mp h
    exact ReachesWhile.head a hC hu (ih ht)

end Interleaving
