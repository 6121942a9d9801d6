import StreamPay.Library.StableSort

/-! The members of a list by a key, those with the same key in the order of the list. -/
namespace StableQueue
variable {α κ : Type*} [LinearOrder κ] {key : α → κ} {l queue : List α} {a b : α}

/-- The key of `a` is smaller, or the keys are the same and `a` stands first in the list. -/
def Precedes (key : α → κ) (l : List α) (a b : α) : Prop :=
  key a < key b ∨ key a = key b ∧ [a, b].Sublist l

/-- The queue has the members of the list, each one behind those that precede it. -/
structure IsQueue (key : α → κ) (l queue : List α) : Prop where
  perm : queue.Perm l
  ordered : queue.Pairwise (Precedes key l)

theorem Precedes.asymm (hl : l.Nodup) (h : Precedes key l a b) : ¬ Precedes key l b a := by
  rintro (hlt | ⟨heq,hpair⟩)
  · rcases h with hlt' | ⟨heq,_⟩
    · exact lt_asymm hlt hlt'
    · exact hlt.ne heq.symm
  · rcases h with hlt | ⟨_,hpair'⟩
    · exact hlt.ne heq.symm
    · exact StableSort.not_pair_sublist_of_nodup hl hpair' hpair

theorem isQueue_insertionSort (key : α → κ) (hl : l.Nodup) :
    IsQueue key l (l.insertionSort fun a b => key a ≤ key b) where
  perm := List.perm_insertionSort _ l
  ordered := by
    have htotal : Std.Total fun a b => key a ≤ key b := ⟨fun a b => le_total _ _⟩
    have htrans : IsTrans α fun a b => key a ≤ key b := ⟨fun _ _ _ hab hbc => hab.trans hbc⟩
    rw [List.pairwise_iff_forall_sublist]
    intro a b hpair
    have hle : key a ≤ key b :=
      List.pairwise_iff_forall_sublist.mp (List.pairwise_insertionSort _ l) hpair
    rcases hle.lt_or_eq with hlt | heq
    · exact Or.inl hlt
    · have hstable := StableSort.pair_sublist_insertionSort_iff
        (fun a b => key a ≤ key b) hl heq.le heq.ge
      exact Or.inr ⟨heq, hstable.mp hpair⟩

theorem Precedes.filter {p : α → Bool} (h : Precedes key l a b) (ha : p a = true)
    (hb : p b = true) : Precedes key (l.filter p) a b := by
  apply h.imp_right
  rintro ⟨heq,hpair⟩
  have hkept : ([a, b].filter p).Sublist (l.filter p) := hpair.filter p
  rw [List.filter_cons_of_pos ha, List.filter_cons_of_pos hb, List.filter_nil] at hkept
  exact ⟨heq, hkept⟩

/-- To sort and then to select is to select and then to sort. -/
theorem IsQueue.filter (h : IsQueue key l queue) (p : α → Bool) :
    IsQueue key (l.filter p) (queue.filter p) where
  perm := h.perm.filter p
  ordered := by
    rw [List.pairwise_filter]
    apply h.ordered.imp
    intro a b hab ha hb
    exact hab.filter ha hb

/-- Among the first of a queue no member is there before one that precedes it. -/
theorem IsQueue.mem_take_of_precedes (h : IsQueue key l queue) (hl : l.Nodup) {n : ℕ}
    (ha : a ∈ l) (hb : b ∈ queue.take n) (hab : Precedes key l a b) : a ∈ queue.take n := by
  have hmem : a ∈ queue.take n ++ queue.drop n := by
    rw [List.take_append_drop]
    exact h.perm.mem_iff.mpr ha
  rcases List.mem_append.mp hmem with htake | hdrop
  · exact htake
  · have hordered := h.ordered
    rw [← List.take_append_drop n queue, List.pairwise_append] at hordered
    obtain ⟨_,_,hacross⟩ := hordered
    exact absurd (hacross b hb a hdrop) (hab.asymm hl)

end StableQueue
