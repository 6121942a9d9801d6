import Mathlib.Data.List.Sort

/-! Stable sorting under an order that may tie distinct elements: two lists are sorted
alike when they hold the same elements and list tied ones in the same order. -/
namespace StableSort
variable {α β : Type*} {l l' : List α}

/-- Elements that the order ties stand in the same order in both lists. -/
def SameTies (le : α → α → Prop) (l l' : List α) : Prop :=
  ∀ a b, le a b → le b a → ([a, b].Sublist l ↔ [a, b].Sublist l')

/-- Distinct members of a list come in one order or the other. -/
theorem pair_sublist_or {a b : α} (ha : a ∈ l) (hb : b ∈ l) (hab : a ≠ b) :
    [a, b].Sublist l ∨ [b, a].Sublist l := by
  induction l with
  | nil => cases ha
  | cons c l ih =>
    rcases List.mem_cons.mp ha with rfl | ha'
    · have hb' : b ∈ l := List.mem_of_ne_of_mem (Ne.symm hab) hb
      exact Or.inl (.cons_cons a (List.singleton_sublist.mpr hb'))
    · rcases List.mem_cons.mp hb with rfl | hb'
      · exact Or.inr (.cons_cons b (List.singleton_sublist.mpr ha'))
      · rcases ih ha' hb' with h | h
        · exact Or.inl (h.cons c)
        · exact Or.inr (h.cons c)

theorem not_pair_sublist_of_nodup (hl : l.Nodup) {a b : α} (h : [a, b].Sublist l) :
    ¬ [b, a].Sublist l := by
  intro h'
  induction l with
  | nil => cases h
  | cons c l ih =>
    rw [List.nodup_cons] at hl
    cases h with
    | cons _ h =>
      cases h' with
      | cons _ h' => exact ih hl.2 h h'
      | cons_cons _ h' => exact hl.1 (h.subset (by simp))
    | cons_cons _ h =>
      cases h' with
      | cons _ h' => exact hl.1 (h'.subset (by simp))
      | cons_cons _ h' => exact hl.1 (List.singleton_sublist.mp h')

/-- A map that tells the members of a list apart keeps their order. -/
theorem pair_sublist_map_iff {f : α → β} (hf : (l.map f).Nodup) {a b : α} (ha : a ∈ l)
    (hb : b ∈ l) : [f a, f b].Sublist (l.map f) ↔ [a, b].Sublist l := by
  constructor
  · intro h
    obtain ⟨part,hpart,hmap⟩ := List.sublist_map_iff.mp h
    have hinj := List.inj_on_of_nodup_map hf
    obtain ⟨a',rest,rfl,hfa,hrest⟩ := List.map_eq_cons_iff.mp hmap.symm
    obtain ⟨b',none,rfl,hfb,hnone⟩ := List.map_eq_cons_iff.mp hrest
    obtain rfl := List.map_eq_nil_iff.mp hnone
    have ha' : a' = a := hinj (hpart.subset (by simp)) ha hfa
    have hb' : b' = b := hinj (hpart.subset (by simp)) hb hfb
    rw [← ha', ← hb']
    exact hpart
  · intro h
    exact h.map f

/-- Nothing has to be compared where no two distinct members are tied. -/
theorem sameTies_of_untied {le : α → α → Prop} (hl : l.Nodup) (hperm : l.Perm l')
    (h : ∀ a ∈ l, ∀ b ∈ l, le a b → le b a → a = b) : SameTies le l l' := by
  have hnone {m : List α} (hm : l.Perm m) {a b : α} (hab : le a b) (hba : le b a) :
      ¬ [a, b].Sublist m := by
    intro hpair
    have ha : a ∈ l := hm.symm.subset (hpair.subset (by simp))
    have hb : b ∈ l := hm.symm.subset (hpair.subset (by simp))
    have hnodup := (hm.nodup_iff.mp hl).sublist hpair
    simp [h a ha b hb hab hba] at hnodup
  intro a b hab hba
  exact iff_of_false (hnone (.refl l) hab hba) (hnone hperm hab hba)

variable (le : α → α → Prop) [DecidableRel le]

/-- Sorting keeps the order of tied members of a list without repetitions. -/
theorem pair_sublist_insertionSort_iff (hl : l.Nodup) {a b : α} (hab : le a b) (hba : le b a) :
    [a, b].Sublist (l.insertionSort le) ↔ [a, b].Sublist l := by
  constructor
  · intro h
    have hmem : ∀ c ∈ [a, b], c ∈ l := fun c hc =>
      (List.mem_insertionSort le).mp (h.subset hc)
    have hsorted : (l.insertionSort le).Nodup :=
      (List.perm_insertionSort le l).nodup_iff.mpr hl
    have hne : a ≠ b := by
      intro he
      have hnodup := hsorted.sublist h
      simp [he] at hnodup
    rcases pair_sublist_or (hmem a (by simp)) (hmem b (by simp)) hne with hpair | hpair
    · exact hpair
    · exact absurd (List.pair_sublist_insertionSort hba hpair) (not_pair_sublist_of_nodup hsorted h)
  · intro h
    exact List.pair_sublist_insertionSort hab h

theorem insertionSort_eq_iff [Std.Total le] [IsTrans α le] (hl : l.Nodup) :
    l.insertionSort le = l'.insertionSort le ↔ l.Perm l' ∧ SameTies le l l' := by
  constructor
  · intro h
    have hperm : l.Perm l' := calc
      l.Perm (l.insertionSort le) := (List.perm_insertionSort le l).symm
      _ = l'.insertionSort le := h
      List.Perm _ l' := List.perm_insertionSort le l'
    refine ⟨hperm, ?_⟩
    intro a b hab hba
    rw [← pair_sublist_insertionSort_iff le hl hab hba, h,
      pair_sublist_insertionSort_iff le (hperm.nodup_iff.mp hl) hab hba]
  · rintro ⟨hperm,hties⟩
    have hl' : l'.Nodup := hperm.nodup_iff.mp hl
    -- the order of both results, ties broken by where the elements stand in `l`
    have hsorted : (l.insertionSort le).Pairwise fun a b =>
        le a b ∧ (le b a → [a, b].Sublist l) := by
      rw [List.pairwise_iff_forall_sublist]
      intro a b hpair
      have hab := List.pairwise_iff_forall_sublist.mp (List.pairwise_insertionSort le l) hpair
      exact ⟨hab, fun hba => (pair_sublist_insertionSort_iff le hl hab hba).mp hpair⟩
    have hsorted' : (l'.insertionSort le).Pairwise fun a b =>
        le a b ∧ (le b a → [a, b].Sublist l) := by
      rw [List.pairwise_iff_forall_sublist]
      intro a b hpair
      have hab := List.pairwise_iff_forall_sublist.mp (List.pairwise_insertionSort le l') hpair
      refine ⟨hab, fun hba => (hties a b hab hba).mpr ?_⟩
      exact (pair_sublist_insertionSort_iff le hl' hab hba).mp hpair
    have hsame : (l.insertionSort le).Perm (l'.insertionSort le) := calc
      (l.insertionSort le).Perm l := List.perm_insertionSort le l
      List.Perm _ l' := hperm
      List.Perm _ (l'.insertionSort le) := (List.perm_insertionSort le l').symm
    apply hsame.eq_of_pairwise ?_ hsorted hsorted'
    rintro a b _ _ ⟨hab,hfirst⟩ ⟨hba,hsecond⟩
    exact absurd (hsecond hab) (not_pair_sublist_of_nodup hl (hfirst hba))

/-- Elements with distinct keys, sorted by their keys. -/
theorem insertionSort_keys_eq_iff {κ : Type*} (le : κ → κ → Prop) [DecidableRel le]
    [Std.Total le] [IsTrans κ le] {key : α → κ} (hl : (l.map key).Nodup) :
    l.insertionSort (fun a b => le (key a) (key b)) =
        l'.insertionSort (fun a b => le (key a) (key b)) ↔
      l.Perm l' ∧ SameTies le (l.map key) (l'.map key) := by
  have htotal : Std.Total fun a b => le (key a) (key b) := ⟨fun a b => Std.Total.total _ _⟩
  have htrans : IsTrans α fun a b => le (key a) (key b) :=
    ⟨fun a b c hab hbc => IsTrans.trans _ _ _ hab hbc⟩
  rw [insertionSort_eq_iff _ (List.Nodup.of_map key hl)]
  apply and_congr_right
  intro hperm
  have hl' : (l'.map key).Nodup := (hperm.map key).nodup_iff.mp hl
  have hlift {m m' : List α} (h : SameTies (fun a b => le (key a) (key b)) m m') (a b : κ)
      (hab : le a b) (hba : le b a) (hpair : [a, b].Sublist (m.map key)) :
      [a, b].Sublist (m'.map key) := by
    obtain ⟨part,hpart,hmap⟩ := List.sublist_map_iff.mp hpair
    obtain ⟨x,rest,rfl,rfl,hrest⟩ := List.map_eq_cons_iff.mp hmap.symm
    obtain ⟨y,none,rfl,rfl,hnone⟩ := List.map_eq_cons_iff.mp hrest
    obtain rfl := List.map_eq_nil_iff.mp hnone
    exact ((h x y hab hba).mp hpart).map key
  constructor
  · intro h a b hab hba
    have hback : SameTies (fun a b => le (key a) (key b)) l' l :=
      fun a b hab hba => (h a b hab hba).symm
    exact ⟨hlift h a b hab hba, hlift hback a b hab hba⟩
  · intro h a b hab hba
    constructor
    · intro hpair
      have ha' : a ∈ l' := hperm.subset (hpair.subset (by simp))
      have hb' : b ∈ l' := hperm.subset (hpair.subset (by simp))
      exact (pair_sublist_map_iff hl' ha' hb').mp ((h _ _ hab hba).mp (hpair.map key))
    · intro hpair
      have ha : a ∈ l := hperm.symm.subset (hpair.subset (by simp))
      have hb : b ∈ l := hperm.symm.subset (hpair.subset (by simp))
      exact (pair_sublist_map_iff hl ha hb).mp ((h _ _ hab hba).mpr (hpair.map key))

/-- Entries with distinct keys are arrangements of each other when their keys are and
equal keys have equal values. -/
theorem perm_iff_keys {κ : Type*} {l l' : List (κ × α)} (hl : (l.map Prod.fst).Nodup)
    (hl' : (l'.map Prod.fst).Nodup) : l.Perm l' ↔
      (l.map Prod.fst).Perm (l'.map Prod.fst) ∧ ∀ m ∈ l, ∀ m' ∈ l', m.1 = m'.1 → m.2 = m'.2 := by
  constructor
  · intro h
    refine ⟨h.map Prod.fst, ?_⟩
    intro m hm m' hm' hkey
    exact congrArg Prod.snd (List.inj_on_of_nodup_map hl' (h.subset hm) hm' hkey)
  · rintro ⟨hkeys,hvalues⟩
    rw [List.perm_ext_iff_of_nodup (List.Nodup.of_map _ hl) (List.Nodup.of_map _ hl')]
    intro m
    constructor
    · intro hm
      obtain ⟨m',hm',hkey⟩ := List.mem_map.mp (hkeys.subset (List.mem_map_of_mem hm))
      have hsame : m = m' := Prod.ext hkey.symm (hvalues m hm m' hm' hkey.symm)
      exact hsame ▸ hm'
    · intro hm
      obtain ⟨m',hm',hkey⟩ := List.mem_map.mp (hkeys.symm.subset (List.mem_map_of_mem hm))
      have hsame : m' = m := Prod.ext hkey (hvalues m' hm' m hm hkey)
      exact hsame ▸ hm'

end StableSort
