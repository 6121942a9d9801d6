import Mathlib.Data.List.Basic
import Mathlib.Tactic.Common

/-! Machines that answer every call and move to a next state, alone and in
pairs. A pair is run in lockstep on the same calls and compared after each. -/

namespace Lockstep
variable {σ σ₁ σ₂ α β β₁ β₂ : Type*}

def run (step : σ → α → β × σ) : σ → List α → σ
  | s, [] => s
  | s, a :: as => run step (step s a).2 as

def log (step : σ → α → β × σ) : σ → List α → List (α × β)
  | _, [] => []
  | s, a :: as => (a, (step s a).1) :: log step (step s a).2 as

theorem run_append (step : σ → α → β × σ) (s : σ) (as bs : List α) :
    run step s (as ++ bs) = run step (run step s as) bs := by
  induction as generalizing s with
  | nil => rfl
  | cons a as ih => exact ih (step s a).2

theorem length_log (step : σ → α → β × σ) (s : σ) (as : List α) :
    (log step s as).length = as.length := by
  induction as generalizing s with
  | nil => rfl
  | cons a as ih => exact congrArg (·+1) (ih (step s a).2)

theorem map_fst_log (step : σ → α → β × σ) (s : σ) (as : List α) :
    (log step s as).map Prod.fst = as := by
  induction as generalizing s with
  | nil => rfl
  | cons a as ih => exact congrArg (a :: ·) (ih (step s a).2)

theorem log_append (step : σ → α → β × σ) (s : σ) (as bs : List α) :
    log step s (as ++ bs) = log step s as ++ log step (run step s as) bs := by
  induction as generalizing s with
  | nil => rfl
  | cons a as ih => exact congrArg (_ :: ·) (ih (step s a).2)

theorem exists_state_of_mem_log {step : σ → α → β × σ} {s : σ} {as : List α} {a : α} {b : β}
    (h : (a, b) ∈ log step s as) : ∃ t, (step t a).1 = b := by
  induction as generalizing s with
  | nil => cases h
  | cons a' as ih =>
    rcases List.mem_cons.mp h with hfirst | hlater
    · obtain ⟨rfl,rfl⟩ := Prod.mk.inj hfirst
      exact ⟨s, rfl⟩
    · exact ih hlater

/-- Calls that leave the state as it was can be taken out: the others are answered as
before, and end in the same state. -/
theorem log_of_filter {step : σ → α → β × σ} (P : β → Bool)
    (hneutral : ∀ s a, P (step s a).1 = false → (step s a).2 = s) (s : σ) (as : List α) :
    let kept := (log step s as).filter fun entry => P entry.2
    log step s (kept.map Prod.fst) = kept ∧ run step s (kept.map Prod.fst) = run step s as := by
  induction as generalizing s with
  | nil => exact ⟨rfl, rfl⟩
  | cons a as ih =>
    intro kept
    obtain ⟨hlog,hrun⟩ := ih (step s a).2
    cases hanswer : P (step s a).1 with
    | true =>
      have hkept : kept = (a, (step s a).1) ::
          (log step (step s a).2 as).filter fun entry => P entry.2 :=
        List.filter_cons_of_pos hanswer
      rw [hkept, List.map_cons, log, run, hlog, hrun]
      exact ⟨rfl, rfl⟩
    | false =>
      have hkept : kept = (log step (step s a).2 as).filter fun entry => P entry.2 :=
        List.filter_cons_of_neg (by rw [hanswer]; exact Bool.false_ne_true)
      rw [hneutral s a hanswer] at hkept hlog hrun
      rw [hkept, run, hneutral s a hanswer]
      exact ⟨hlog, hrun⟩

/-- Two machines answer alike exactly if they do after any first part of the calls. -/
theorem log_eq_log_iff {step₁ : σ₁ → α → β × σ₁} {step₂ : σ₂ → α → β × σ₂} (s : σ₁) (t : σ₂)
    (as : List α) : log step₁ s as = log step₂ t as ↔ ∀ before a after, as = before ++ a :: after →
      (step₁ (run step₁ s before) a).1 = (step₂ (run step₂ t before) a).1 := by
  induction as generalizing s t with
  | nil => exact iff_of_true rfl fun before a after h => by simp at h
  | cons a as ih =>
    rw [log, log, List.cons.injEq, Prod.mk.injEq, ih]
    constructor
    · rintro ⟨⟨_,hfirst⟩,hrest⟩ before a' after heq
      cases before with
      | nil =>
        obtain ⟨rfl,_⟩ := List.cons.inj heq
        exact hfirst
      | cons b before =>
        obtain ⟨rfl,htail⟩ := List.cons.inj heq
        exact hrest before a' after htail
    · intro h
      exact ⟨⟨rfl, h [] a as rfl⟩, fun before a' after heq =>
        h (a :: before) a' after (congrArg (a :: ·) heq)⟩

/-- What every call keeps of its state and of the log so far, a run keeps. -/
theorem run_invariant {step : σ → α → β × σ} (I : List (α × β) → σ → Prop) {s : σ} (h : I [] s)
    (hstep : ∀ log t a, I log t → I (log ++ [(a, (step t a).1)]) (step t a).2) (as : List α) :
    I (log step s as) (run step s as) := by
  -- along the calls, with the log of the earlier ones in front
  have hfrom : ∀ front t, I front t → I (front ++ log step t as) (run step t as) := by
    induction as with
    | nil =>
      intro front t ht
      rw [log, List.append_nil]
      exact ht
    | cons a as ih =>
      intro front t ht
      have hrest := ih _ _ (hstep front t a ht)
      rwa [List.append_assoc, List.singleton_append] at hrest
  exact hfrom [] s h

/-- The comparison `V` holds of both answers and both states after every call. -/
def Agree (step₁ : σ₁ → α → β₁ × σ₁) (step₂ : σ₂ → α → β₂ × σ₂)
    (V : β₁ × σ₁ → β₂ × σ₂ → Prop) : σ₁ → σ₂ → List α → Prop
  | _, _, [] => True
  | s, t, a :: as => V (step₁ s a) (step₂ t a) ∧
      Agree step₁ step₂ V (step₁ s a).2 (step₂ t a).2 as

/-- The condition `C` holds of both states before every call. -/
def Along (step₁ : σ₁ → α → β₁ × σ₁) (step₂ : σ₂ → α → β₂ × σ₂)
    (C : σ₁ → σ₂ → α → Prop) : σ₁ → σ₂ → List α → Prop
  | _, _, [] => True
  | s, t, a :: as => C s t a ∧ Along step₁ step₂ C (step₁ s a).2 (step₂ t a).2 as

instance decidableAlong {step₁ : σ₁ → α → β₁ × σ₁} {step₂ : σ₂ → α → β₂ × σ₂}
    {C : σ₁ → σ₂ → α → Prop} [∀ s t a, Decidable (C s t a)] :
    ∀ s t as, Decidable (Along step₁ step₂ C s t as)
  | _, _, [] => isTrue trivial
  | s, t, a :: as =>
    have : Decidable (Along step₁ step₂ C (step₁ s a).2 (step₂ t a).2 as) := decidableAlong _ _ as
    inferInstanceAs (Decidable (C s t a ∧ Along step₁ step₂ C (step₁ s a).2 (step₂ t a).2 as))

/-- If, from related states that meet the assumption `A`, one call agrees
exactly under `C` and then keeps the relation, then a run along which `A` holds
agrees exactly when `C` holds before each call. -/
theorem agree_iff_along_of {step₁ : σ₁ → α → β₁ × σ₁} {step₂ : σ₂ → α → β₂ × σ₂}
    {V : β₁ × σ₁ → β₂ × σ₂ → Prop} {A C : σ₁ → σ₂ → α → Prop} (R : σ₁ → σ₂ → Prop)
    (hagree : ∀ s t a, R s t → A s t a → (V (step₁ s a) (step₂ t a) ↔ C s t a))
    (hkeep : ∀ s t a, R s t → A s t a → C s t a → R (step₁ s a).2 (step₂ t a).2)
    (s : σ₁) (t : σ₂) (as : List α) (hR : R s t) (hA : Along step₁ step₂ A s t as) :
    Agree step₁ step₂ V s t as ↔ Along step₁ step₂ C s t as := by
  induction as generalizing s t with
  | nil => rfl
  | cons a as ih =>
    obtain ⟨ha,hA⟩ := hA
    simp only [Agree, Along]
    rw [hagree s t a hR ha]
    exact and_congr_right fun hC => ih _ _ (hkeep s t a hR ha hC) hA

theorem along_true (step₁ : σ₁ → α → β₁ × σ₁) (step₂ : σ₂ → α → β₂ × σ₂) (s : σ₁) (t : σ₂)
    (as : List α) : Along step₁ step₂ (fun _ _ _ => True) s t as := by
  induction as generalizing s t with
  | nil => trivial
  | cons a as ih => exact ⟨trivial, ih _ _⟩

/-- The same without an assumption. -/
theorem agree_iff_along {step₁ : σ₁ → α → β₁ × σ₁} {step₂ : σ₂ → α → β₂ × σ₂}
    {V : β₁ × σ₁ → β₂ × σ₂ → Prop} {C : σ₁ → σ₂ → α → Prop} (R : σ₁ → σ₂ → Prop)
    (hagree : ∀ s t a, R s t → (V (step₁ s a) (step₂ t a) ↔ C s t a))
    (hkeep : ∀ s t a, R s t → C s t a → R (step₁ s a).2 (step₂ t a).2)
    (s : σ₁) (t : σ₂) (as : List α) (hR : R s t) :
    Agree step₁ step₂ V s t as ↔ Along step₁ step₂ C s t as :=
  agree_iff_along_of R (fun s t a hR _ => hagree s t a hR) (fun s t a hR _ => hkeep s t a hR)
    s t as hR (along_true step₁ step₂ s t as)

end Lockstep
