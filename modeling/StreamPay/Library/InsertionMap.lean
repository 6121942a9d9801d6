import Mathlib.Data.List.Nodup
import Mathlib.Tactic.Common

/-! Maps with distinct keys that remember the order of insertion. Overwriting
a key keeps its position, as the maps of scripting languages do. -/

/-- A finite map listed in insertion order; the keys are distinct by construction. -/
structure InsertionMap (κ α : Type*) where
  entries : List (κ × α)
  nodup : (entries.map Prod.fst).Nodup

namespace InsertionMap
variable {κ α : Type*}

@[ext] theorem ext {m m' : InsertionMap κ α} (h : m.entries = m'.entries) : m = m' := by
  cases m; cases m'; simp_all

def empty : InsertionMap κ α := ⟨[], List.nodup_nil⟩

def values (m : InsertionMap κ α) : List α := m.entries.map Prod.snd

variable [DecidableEq κ]

def get (m : InsertionMap κ α) (k : κ) : Option α := m.entries.lookup k

def has (m : InsertionMap κ α) (k : κ) : Bool := (m.get k).isSome

/-- Overwrite the value in place, or append a new entry at the end. -/
def setEntries (k : κ) (v : α) : List (κ × α) → List (κ × α)
  | [] => [(k,v)]
  | e :: es => if e.1 = k then (k,v) :: es else e :: setEntries k v es

theorem keys_setEntries (k : κ) (v : α) (es : List (κ × α)) :
    (setEntries k v es).map Prod.fst =
      if k ∈ es.map Prod.fst then es.map Prod.fst else es.map Prod.fst ++ [k] := by
  induction es with
  | nil => simp [setEntries]
  | cons e es ih =>
    by_cases he : e.1 = k
    · simp [setEntries, he]
    · have hk : ¬ k = e.1 := fun h => he h.symm
      simp only [setEntries, he, ↓reduceIte, List.map_cons, ih, List.mem_cons, hk, false_or]
      split_ifs <;> simp

def set (m : InsertionMap κ α) (k : κ) (v : α) : InsertionMap κ α where
  entries := setEntries k v m.entries
  nodup := by
    rw [keys_setEntries]
    split_ifs with h
    · exact m.nodup
    · exact List.nodup_append.mpr ⟨m.nodup, List.nodup_singleton k, by
        intro a ha b hb hab
        rw [List.mem_singleton.mp hb] at hab
        exact h (hab ▸ ha)⟩

def delete (m : InsertionMap κ α) (k : κ) : InsertionMap κ α where
  entries := m.entries.filter (fun e => e.1 ≠ k)
  nodup := m.nodup.sublist (List.filter_sublist.map Prod.fst)

/-- Change the value of a bound key in place; an unbound key is left unbound. -/
def modify (m : InsertionMap κ α) (k : κ) (f : α → α) : InsertionMap κ α :=
  match m.get k with
  | some v => m.set k (f v)
  | none => m

@[simp] theorem get_empty (k : κ) : (empty : InsertionMap κ α).get k = none := rfl

theorem lookup_cons_ite (e : κ × α) (es : List (κ × α)) (k : κ) :
    (e :: es).lookup k = if k = e.1 then some e.2 else es.lookup k := by
  obtain ⟨a,v⟩ := e
  rw [List.lookup_cons]
  by_cases h : k = a
  · simp [h]
  · simp [h, beq_eq_false_iff_ne.mpr h]

theorem lookup_setEntries (k k' : κ) (v : α) (es : List (κ × α)) :
    (setEntries k v es).lookup k' = if k' = k then some v else es.lookup k' := by
  induction es with
  | nil => simp only [setEntries, lookup_cons_ite]
  | cons e es ih =>
    unfold setEntries
    by_cases he : e.1 = k
    · rw [if_pos he, lookup_cons_ite, lookup_cons_ite, he]
      split_ifs <;> rfl
    · rw [if_neg he, lookup_cons_ite, lookup_cons_ite, ih]
      by_cases h : k' = k
      · have hne : ¬ k = e.1 := fun h' => he h'.symm
        simp [h, hne]
      · simp [h]

theorem get_set (m : InsertionMap κ α) (k k' : κ) (v : α) :
    (m.set k v).get k' = if k' = k then some v else m.get k' :=
  lookup_setEntries k k' v m.entries

@[simp] theorem get_set_self (m : InsertionMap κ α) (k : κ) (v : α) :
    (m.set k v).get k = some v := by
  simp [get_set]

theorem get_set_of_ne (m : InsertionMap κ α) {k k' : κ} (v : α) (h : k' ≠ k) :
    (m.set k v).get k' = m.get k' := by
  simp [get_set, h]

/-- What holds of a new value and of the other old ones holds after `set`. -/
theorem forall_get_set {m : InsertionMap κ α} {k : κ} {v : α} {Q : κ → α → Prop} (hnew : Q k v)
    (hold : ∀ k' v', m.get k' = some v' → k' ≠ k → Q k' v') :
    ∀ k' v', (m.set k v).get k' = some v' → Q k' v' := by
  intro k' v' hget
  rw [get_set] at hget
  split_ifs at hget with hk
  · obtain rfl := Option.some.inj hget
    exact hk ▸ hnew
  · exact hold k' v' hget hk

theorem lookup_filter_ne (k k' : κ) (es : List (κ × α)) :
    (es.filter (fun e => e.1 ≠ k)).lookup k' = if k' = k then none else es.lookup k' := by
  induction es with
  | nil => simp
  | cons e es ih =>
    by_cases he : e.1 = k
    · rw [List.filter_cons_of_neg (by simp [he]), ih, lookup_cons_ite, he]
      by_cases h : k' = k <;> simp [h]
    · rw [List.filter_cons_of_pos (by simp [he]), lookup_cons_ite, lookup_cons_ite, ih]
      by_cases h : k' = k
      · have hne : ¬ k = e.1 := fun h' => he h'.symm
        simp [h, hne]
      · simp [h]

theorem get_delete (m : InsertionMap κ α) (k k' : κ) :
    (m.delete k).get k' = if k' = k then none else m.get k' :=
  lookup_filter_ne k k' m.entries

theorem get_modify (m : InsertionMap κ α) (k k' : κ) (f : α → α) :
    (m.modify k f).get k' = if k' = k then (m.get k).map f else m.get k' := by
  unfold modify
  cases h : m.get k with
  | none => by_cases hk : k' = k <;> simp [hk, h]
  | some v => simp [get_set]

theorem lookup_eq_some_iff {γ : Type*} [BEq γ] [LawfulBEq γ] {es : List (γ × α)}
    (hn : (es.map Prod.fst).Nodup) (k : γ) (v : α) : es.lookup k = some v ↔ (k,v) ∈ es := by
  constructor
  · intro h
    obtain ⟨front,back,rfl,_⟩ := List.lookup_eq_some_iff.mp h
    simp
  · intro h
    obtain ⟨front,back,rfl⟩ := List.append_of_mem h
    refine List.lookup_eq_some_iff.mpr ⟨front, back, rfl, ?_⟩
    intro e he
    have hne : e.1 ≠ k := by
      rw [List.map_append, List.nodup_append] at hn
      exact hn.2.2 e.1 (List.mem_map_of_mem he) k (by simp)
    simpa using hne.symm

theorem get_eq_some_iff (m : InsertionMap κ α) (k : κ) (v : α) :
    m.get k = some v ↔ (k,v) ∈ m.entries :=
  lookup_eq_some_iff m.nodup k v

theorem setEntries_of_lookup_none {k : κ} {es : List (κ × α)} (v : α) (h : es.lookup k = none) :
    setEntries k v es = es ++ [(k,v)] := by
  induction es with
  | nil => rfl
  | cons e es ih =>
    rw [lookup_cons_ite] at h
    by_cases hk : k = e.1
    · simp [hk] at h
    · have hk' : ¬ e.1 = k := fun h' => hk h'.symm
      rw [if_neg hk] at h
      simp only [setEntries, hk', ↓reduceIte, ih h, List.cons_append]

/-- A new key goes to the end of the listing. -/
theorem entries_set_of_get_none (m : InsertionMap κ α) {k : κ} (v : α) (h : m.get k = none) :
    (m.set k v).entries = m.entries ++ [(k,v)] :=
  setEntries_of_lookup_none v h

/-- Overwriting a bound key leaves the listing of the keys as it is. -/
theorem keys_set_of_get {m : InsertionMap κ α} {k : κ} {w : α} (h : m.get k = some w) (v : α) :
    (m.set k v).entries.map Prod.fst = m.entries.map Prod.fst := by
  have hmem : k ∈ m.entries.map Prod.fst :=
    List.mem_map.mpr ⟨(k, w), (m.get_eq_some_iff k w).mp h, rfl⟩
  exact (keys_setEntries k v m.entries).trans (if_pos hmem)

/-- The entries that meet a condition, in their old order. -/
def filter (m : InsertionMap κ α) (p : κ → α → Bool) : InsertionMap κ α where
  entries := m.entries.filter fun e => p e.1 e.2
  nodup := m.nodup.sublist (List.filter_sublist.map Prod.fst)

theorem get_filter (m : InsertionMap κ α) (p : κ → α → Bool) (k : κ) :
    (m.filter p).get k = (m.get k).filter (p k) := by
  apply Option.ext
  intro v
  rw [get_eq_some_iff, Option.filter_eq_some_iff, get_eq_some_iff]
  exact List.mem_filter

/-- The entries under other keys, with other values. -/
def mapKeys {κ' β : Type*} (m : InsertionMap κ α) (f : κ → κ') (hf : Function.Injective f)
    (g : α → β) : InsertionMap κ' β where
  entries := m.entries.map fun e => (f e.1, g e.2)
  nodup := by
    have hkeys : (m.entries.map fun e => (f e.1, g e.2)).map Prod.fst =
        (m.entries.map Prod.fst).map f := by
      rw [List.map_map, List.map_map]
      rfl
    rw [hkeys]
    exact m.nodup.map hf

theorem get_mapKeys_eq_some_iff {κ' β : Type*} [DecidableEq κ'] (m : InsertionMap κ α) (f : κ → κ')
    (hf : Function.Injective f) (g : α → β) (k' : κ') (b : β) :
    (m.mapKeys f hf g).get k' = some b ↔ ∃ k a, m.get k = some a ∧ f k = k' ∧ g a = b := by
  rw [get_eq_some_iff]
  simp only [mapKeys, List.mem_map, Prod.exists, Prod.mk.injEq, get_eq_some_iff]

end InsertionMap
