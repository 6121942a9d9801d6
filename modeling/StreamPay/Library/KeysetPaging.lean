import Mathlib.Data.List.Sort
import Mathlib.Tactic.Common

/-! Reading a sorted listing page by page. The next page starts strictly after a
cursor that was made from the last row of the page before; a cursor that loses
precision may lie before that row. -/

namespace KeysetPaging
variable {α κ : Type*} [LinearOrder κ] (key cut : α → κ)

/-- The rows strictly after a cursor; all rows when there is none. -/
def after (rows : List α) (cursor : Option κ) : List α :=
  rows.filter fun row => cursor.all (· < key row)

/-- The cursor for the rows behind a page of size `b`, if any are left. -/
def nextCursor (b : ℕ) (rest : List α) : Option κ :=
  if b < rest.length then (rest.take b).getLast?.map cut else none

/-- All pages of size `b` from a cursor on, or `none` when the fuel runs out. -/
def readPages (rows : List α) (b : ℕ) : ℕ → Option κ → Option (List α)
  | 0, _ => none
  | fuel+1, cursor =>
    let rest := after key rows cursor
    match nextCursor cut b rest with
    | none => some (rest.take b)
    | some next => (readPages rows b fuel (some next)).map (rest.take b ++ ·)

/-- The row ends a full page of size `b` behind which there are more rows. -/
def LastOfPage (b : ℕ) (rows : List α) (row : α) : Prop :=
  ∃ k, (k+1)*b < rows.length ∧ rows[(k+1)*b-1]? = some row

variable {key cut} {rows : List α} {b : ℕ}

@[simp] theorem after_none : after key rows none = rows :=
  List.filter_eq_self.mpr fun _ _ => rfl

theorem mem_after_some {row : α} {c : κ} :
    row ∈ after key rows (some c) ↔ row ∈ rows ∧ c < key row := by
  simp [after]

/-- Behind the key of a row of a sorted listing lie the rows that follow it. -/
theorem after_key (hs : rows.Pairwise (key · < key ·)) {n : ℕ} (hn : n < rows.length) :
    after key rows (some (key rows[n])) = rows.drop (n+1) := by
  have hsplit : rows = rows.take (n+1) ++ rows.drop (n+1) := (List.take_append_drop _ _).symm
  have hat : ∀ i (hi : i < rows.length), n < i ↔ key rows[n] < key rows[i] := by
    intro i hi
    rw [List.pairwise_iff_getElem] at hs
    rcases lt_trichotomy i n with hlt | heq | hgt
    · exact iff_of_false (by omega) (hs i n hi hn hlt).not_gt
    · subst heq
      exact iff_of_false (lt_irrefl _) (lt_irrefl _)
    · exact iff_of_true hgt (hs n i hn hi hgt)
  have htake : (rows.take (n+1)).filter (fun row => decide (key rows[n] < key row)) = [] := by
    refine List.filter_eq_nil_iff.mpr fun row hrow => ?_
    obtain ⟨i,hi,rfl⟩ := List.mem_iff_getElem.mp hrow
    rw [List.length_take] at hi
    rw [List.getElem_take, decide_eq_true_eq, ← hat i (by omega)]
    omega
  have hdrop : (rows.drop (n+1)).filter (fun row => decide (key rows[n] < key row)) =
      rows.drop (n+1) := by
    refine List.filter_eq_self.mpr fun row hrow => ?_
    obtain ⟨i,hi,rfl⟩ := List.mem_iff_getElem.mp hrow
    rw [List.length_drop] at hi
    rw [List.getElem_drop, decide_eq_true_eq, ← hat (n+1+i) (by omega)]
    omega
  calc after key rows (some (key rows[n]))
      = rows.filter (fun row => decide (key rows[n] < key row)) := rfl
    _ = (rows.take (n+1) ++ rows.drop (n+1)).filter
          (fun row => decide (key rows[n] < key row)) := by rw [← hsplit]
    _ = rows.drop (n+1) := by rw [List.filter_append, htake, hdrop, List.nil_append]

/-- Each row that is left is on the page or behind the next cursor. -/
theorem mem_page_or_behind (hs : rows.Pairwise (key · < key ·)) (hb : 0 < b) {row : α}
    (hrow : row ∈ rows) :
    row ∈ rows.take b ∨ ∃ c, nextCursor key b rows = some c ∧ c < key row := by
  rw [← List.take_append_drop b rows, List.mem_append] at hrow
  refine hrow.imp_right fun hdrop => ?_
  have hlen : b < rows.length := by
    have hpos := List.length_pos_of_mem hdrop
    rw [List.length_drop] at hpos
    omega
  have hpage : rows.take b ≠ [] := by
    rw [← List.length_pos_iff, List.length_take]
    omega
  refine ⟨key ((rows.take b).getLast hpage), ?_, ?_⟩
  · rw [nextCursor, if_pos hlen, List.getLast?_eq_some_getLast hpage]
    rfl
  · rw [← List.take_append_drop b rows] at hs
    exact (List.pairwise_append.mp hs).2.2 _ (List.getLast_mem hpage) _ hdrop

omit [LinearOrder κ] in
/-- The next cursor is made from a row of the page. -/
theorem exists_nextCursor {c : κ} (hc : nextCursor cut b rows = some c) :
    ∃ row ∈ rows.take b, cut row = c := by
  rw [nextCursor] at hc
  split_ifs at hc
  obtain ⟨row,hrow,hcut⟩ := Option.map_eq_some_iff.mp hc
  exact ⟨row, List.mem_of_getLast? hrow, hcut⟩

/-- The rows of a page lie before the next cursor. -/
theorem le_nextCursor (hs : rows.Pairwise (key · < key ·)) {c : κ}
    (hc : nextCursor key b rows = some c) {row : α} (hrow : row ∈ rows.take b) : key row ≤ c := by
  rw [nextCursor] at hc
  split_ifs at hc
  obtain ⟨last,hlast,rfl⟩ := Option.map_eq_some_iff.mp hc
  obtain ⟨front,hfront⟩ := List.getLast?_eq_some_iff.mp hlast
  have hsorted : (front ++ [last]).Pairwise (key · < key ·) :=
    hfront ▸ hs.sublist (List.take_sublist _ _)
  rw [hfront, List.mem_append, List.mem_singleton] at hrow
  rcases hrow with hmem | rfl
  · exact ((List.pairwise_append.mp hsorted).2.2 _ hmem _ (List.mem_singleton_self _)).le
  · exact le_rfl

theorem after_pairwise (hs : rows.Pairwise (key · < key ·)) (cursor : Option κ) :
    (after key rows cursor).Pairwise (key · < key ·) :=
  hs.sublist List.filter_sublist

theorem lastOfPage_iff (hb : 0 < b) {row : α} : LastOfPage b rows row ↔
    (b < rows.length ∧ rows[b-1]? = some row) ∨ LastOfPage b (rows.drop b) row := by
  have hmul (k : ℕ) : (k+1+1)*b = (k+1)*b+b := Nat.succ_mul _ _
  have hpos (k : ℕ) : 0 < (k+1)*b := Nat.mul_pos (Nat.succ_pos k) hb
  constructor
  · rintro ⟨k,hk,hrow⟩
    cases k with
    | zero => exact Or.inl (by simpa using And.intro hk hrow)
    | succ k =>
      have := hpos k
      refine Or.inr ⟨k, by rw [List.length_drop]; have := hmul k; omega, ?_⟩
      rw [List.getElem?_drop, ← hrow, hmul]
      congr 1
      omega
  · rintro (⟨hlen,hrow⟩ | ⟨k,hk,hrow⟩)
    · exact ⟨0, by simpa using hlen, by simpa using hrow⟩
    · have := hpos k
      rw [List.length_drop] at hk
      refine ⟨k+1, by rw [hmul]; omega, ?_⟩
      rw [List.getElem?_drop] at hrow
      rw [← hrow, hmul]
      congr 1
      omega

theorem not_lastOfPage (h : rows.length ≤ b) {row : α} : ¬ LastOfPage b rows row := by
  rintro ⟨k,hk,_⟩
  have hle : b ≤ (k+1)*b := Nat.le_mul_of_pos_left b (Nat.succ_pos k)
  omega

/-- What is read from a cursor starts with the first row after it. -/
theorem head_readPages (hb : 0 < b) {fuel : ℕ} {cursor : Option κ} {out : List α}
    (h : readPages key cut rows b fuel cursor = some out) :
    out.head? = (after key rows cursor).head? := by
  cases fuel with
  | zero => exact absurd h (by simp [readPages])
  | succ fuel =>
    have hhead : ((after key rows cursor).take b).head? = (after key rows cursor).head? := by
      rw [List.head?_take, if_neg (by omega)]
    simp only [readPages] at h
    split at h
    · rw [← Option.some.inj h, hhead]
    · rename_i next hnext
      obtain ⟨tail,_,rfl⟩ := Option.map_eq_some_iff.mp h
      rw [List.head?_append, hhead]
      unfold nextCursor at hnext
      split_ifs at hnext with hmore
      cases hrest : after key rows cursor with
      | nil => simp [hrest] at hmore
      | cons row rest => rfl

theorem readPages_subset {fuel : ℕ} {cursor : Option κ} {out : List α}
    (h : readPages key cut rows b fuel cursor = some out) : out ⊆ rows := by
  have hpage (c : Option κ) : (after key rows c).take b ⊆ rows := fun _ hrow =>
    (List.mem_filter.mp (List.mem_of_mem_take hrow)).1
  induction fuel generalizing cursor out with
  | zero => exact absurd h (by simp [readPages])
  | succ fuel ih =>
    simp only [readPages] at h
    split at h
    · obtain rfl := Option.some.inj h
      exact hpage cursor
    · obtain ⟨tail,htail,rfl⟩ := Option.map_eq_some_iff.mp h
      exact List.append_subset.mpr ⟨hpage cursor, ih htail⟩

/-- One page further: the first `b` rows, then the pages from the next cursor. -/
theorem exists_readPages_iff (cut : α → κ) (hb : 0 < b) {cursor : Option κ} {last : α}
    (hmore : b < (after key rows cursor).length)
    (hlast : (after key rows cursor)[b-1]? = some last) :
    (∃ fuel, readPages key cut rows b fuel cursor = some (after key rows cursor)) ↔
      ∃ fuel, readPages key cut rows b fuel (some (cut last)) =
        some ((after key rows cursor).drop b) := by
  have hnext : nextCursor cut b (after key rows cursor) = some (cut last) := by
    rw [nextCursor, if_pos hmore, List.getLast?_take, if_neg (by omega), hlast]
    rfl
  have hstep (fuel : ℕ) : readPages key cut rows b (fuel+1) cursor =
      (readPages key cut rows b fuel (some (cut last))).map
        ((after key rows cursor).take b ++ ·) := by
    simp only [readPages, hnext]
  constructor
  · rintro ⟨fuel,h⟩
    cases fuel with
    | zero => exact absurd h (by simp [readPages])
    | succ fuel =>
      rw [hstep] at h
      obtain ⟨tail,htail,heq⟩ := Option.map_eq_some_iff.mp h
      have hsplit := (List.take_append_drop b (after key rows cursor)).symm
      exact ⟨fuel, by rw [htail, List.append_cancel_left (heq.trans hsplit)]⟩
  · rintro ⟨fuel,h⟩
    exact ⟨fuel+1, by rw [hstep, h, Option.map_some, List.take_append_drop]⟩

theorem readPages_succ_of_last {cursor : Option κ}
    (hlast : (after key rows cursor).length ≤ b) (fuel : ℕ) :
    readPages key cut rows b (fuel+1) cursor = some (after key rows cursor) := by
  have hnext : nextCursor cut b (after key rows cursor) = none := if_neg (by omega)
  simp only [readPages, hnext, List.take_of_length_le hlast]

/-- A cursor before the last row of its page brings rows back that were read already. -/
theorem not_readPages_of_cut_lt (hs : rows.Pairwise (key · < key ·)) (hb : 0 < b) {n : ℕ}
    (hn : n < rows.length) (hcut : cut rows[n] < key rows[n]) (fuel : ℕ) :
    readPages key cut rows b fuel (some (cut rows[n])) ≠ some (rows.drop (n+1)) := by
  intro h
  -- what is read starts at row `n` or before, what should be read starts behind it
  have hhead := head_readPages hb h
  have hmem : rows[n] ∈ after key rows (some (cut rows[n])) :=
    mem_after_some.mpr ⟨List.getElem_mem hn, hcut⟩
  obtain ⟨first,rest,hfirst⟩ := List.exists_cons_of_ne_nil (List.ne_nil_of_mem hmem)
  have hsorted : (first :: rest).Pairwise (key · < key ·) := by
    rw [← hfirst]
    exact hs.sublist List.filter_sublist
  rw [hfirst] at hhead hmem
  have hle : key first ≤ key rows[n] := by
    rcases List.mem_cons.mp hmem with heq | hlater
    · rw [heq]
    · exact ((List.pairwise_cons.mp hsorted).1 _ hlater).le
  have hlater : first ∈ rows.drop (n+1) := List.mem_of_head? hhead
  rw [← after_key hs hn] at hlater
  exact absurd (mem_after_some.mp hlater).2 hle.not_gt

/-- From a cursor that stands exactly before row `n`, the pages are the rows from
there on exactly when every page that is not the last ends in an exact cursor. -/
theorem readPages_eq_drop_iff (hs : rows.Pairwise (key · < key ·)) (hb : 0 < b)
    (hcut : ∀ row, cut row ≤ key row) (n : ℕ) {cursor : Option κ}
    (hat : after key rows cursor = rows.drop n) :
    (∃ fuel, readPages key cut rows b fuel cursor = some (rows.drop n)) ↔
      ∀ row, LastOfPage b (rows.drop n) row → cut row = key row := by
  -- on the number of rows left, one page a step
  induction hm : rows.length-n using Nat.strong_induction_on generalizing n cursor with
  | _ m ih =>
    have hlen : (rows.drop n).length = rows.length-n := List.length_drop
    by_cases hmore : b < rows.length-n
    · have hbound : n+b-1 < rows.length := by omega
      have hlast : (rows.drop n)[b-1]? = some rows[n+b-1] := by
        rw [List.getElem?_drop, show n+(b-1) = n+b-1 by omega, List.getElem?_eq_getElem]
      have hdrop : (rows.drop n).drop b = rows.drop (n+b) := List.drop_drop
      have hpages : (∃ fuel, readPages key cut rows b fuel cursor = some (rows.drop n)) ↔
          ∃ fuel, readPages key cut rows b fuel (some (cut rows[n+b-1])) =
            some (rows.drop (n+b)) := by
        have hstep := exists_readPages_iff cut hb (by rw [hat, hlen]; exact hmore)
          (hat ▸ hlast)
        rwa [hat, hdrop] at hstep
      rw [hpages]
      by_cases hexact : cut rows[n+b-1] = key rows[n+b-1]
      · have hat' : after key rows (some (cut rows[n+b-1])) = rows.drop (n+b) := by
          rw [hexact, after_key hs, show n+b-1+1 = n+b by omega]
        rw [ih (rows.length-(n+b)) (by omega) (n+b) hat' rfl]
        constructor
        · intro h row hrow
          rcases (lastOfPage_iff hb).mp hrow with ⟨_,hfirst⟩ | hlater
          · obtain rfl := Option.some.inj (hlast.symm.trans hfirst)
            exact hexact
          · exact h row (hdrop ▸ hlater)
        · intro h row hrow
          exact h row ((lastOfPage_iff hb).mpr (Or.inr (hdrop ▸ hrow)))
      · -- the cursor falls back behind the page: no number of pages makes up for it
        refine iff_of_false ?_ fun h => hexact ?_
        · rintro ⟨fuel,h⟩
          have hno := not_readPages_of_cut_lt hs hb hbound
            (lt_of_le_of_ne (hcut _) hexact) fuel
          rw [show n+b-1+1 = n+b by omega] at hno
          exact hno h
        · exact h _ ((lastOfPage_iff hb).mpr (Or.inl ⟨by rw [hlen]; exact hmore, hlast⟩))
    · -- the last page: everything is read at once
      have hshort : (rows.drop n).length ≤ b := by omega
      refine iff_of_true ⟨1, ?_⟩ fun row hrow => ?_
      · rw [readPages_succ_of_last (hat ▸ hshort), hat]
      · exact absurd hrow (not_lastOfPage hshort)

/-- The whole listing is read, each row once and in order, exactly when every
page that is not the last ends in an exact cursor. -/
theorem readPages_eq_iff (hs : rows.Pairwise (key · < key ·)) (hb : 0 < b)
    (hcut : ∀ row, cut row ≤ key row) :
    (∃ fuel, readPages key cut rows b fuel none = some rows) ↔
      ∀ row, LastOfPage b rows row → cut row = key row :=
  readPages_eq_drop_iff hs hb hcut 0 after_none

end KeysetPaging
