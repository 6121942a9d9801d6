import Mathlib.Data.List.Perm.Basic
import Mathlib.Data.List.Sort
import Mathlib.Tactic.Common

/-! Reading a listing page by page at offsets, each page by a query of its own.
A query sorts the rows by a key and is free in how it arranges rows of one key. -/

namespace OffsetPaging
variable {α κ : Type*} [LinearOrder κ] (key : α → κ)

/-- An order in which a query may list the rows. -/
structure IsListing (rows listing : List α) : Prop where
  perm : listing.Perm rows
  sorted : listing.Pairwise (key · ≤ key ·)

/-- The page at the offset `k*b`. -/
def page (b : ℕ) (listing : List α) (k : ℕ) : List α := (listing.drop (k*b)).take b

/-- The first `n` pages, each from the listing of its own query. -/
def pages (b n : ℕ) (listing : ℕ → List α) : List α :=
  (List.range n).flatMap fun k => page b (listing k) k

/-- The key changes from page to page. -/
def PagesApart (b : ℕ) (listing : List α) : Prop :=
  ∀ k, 0 < k → ∀ last next, listing[k*b-1]? = some last → listing[k*b]? = some next →
    key last ≠ key next

variable {key} {rows listing other : List α} {b : ℕ}

theorem IsListing.length_eq (h : IsListing key rows listing) : listing.length = rows.length :=
  h.perm.length_eq

/-- All listings have the same keys at the same places. -/
theorem IsListing.map_key (h : IsListing key rows listing) (h' : IsListing key rows other) :
    listing.map key = other.map key := by
  have hsorted := List.pairwise_map.mpr h.sorted
  have hsorted' := List.pairwise_map.mpr h'.sorted
  exact ((h.perm.trans h'.perm.symm).map key).eq_of_pairwise
    (fun _ _ _ _ hle hge => le_antisymm hle hge) hsorted hsorted'

theorem IsListing.of_map_key (h : IsListing key rows listing) (hperm : other.Perm rows)
    (hkeys : other.map key = listing.map key) : IsListing key rows other where
  perm := hperm
  sorted := by
    rw [← List.pairwise_map (f := key) (R := (· ≤ ·)), hkeys]
    exact List.pairwise_map.mpr h.sorted

/-- Up to a change of the key lie the rows with at most this key. -/
theorem take_eq_filter (hs : listing.Pairwise (key · ≤ key ·)) {n : ℕ}
    (hn : n+1 < listing.length) (hlt : key listing[n] < key listing[n+1]) :
    listing.take (n+1) = listing.filter fun row => key row ≤ key listing[n] := by
  rw [List.pairwise_iff_getElem] at hs
  have htake : (listing.take (n+1)).filter (fun row => decide (key row ≤ key listing[n])) =
      listing.take (n+1) := by
    apply List.filter_eq_self.mpr
    intro row hrow
    obtain ⟨i,hi,rfl⟩ := List.mem_iff_getElem.mp hrow
    rw [List.length_take] at hi
    rw [List.getElem_take, decide_eq_true_eq]
    rcases Nat.lt_or_ge i n with hlt | hge
    · exact hs i n (by omega) (by omega) hlt
    · have heq : i = n := by omega
      exact le_of_eq (by simp only [heq])
  have hdrop : (listing.drop (n+1)).filter (fun row => decide (key row ≤ key listing[n])) = [] := by
    apply List.filter_eq_nil_iff.mpr
    intro row hrow
    obtain ⟨i,hi,rfl⟩ := List.mem_iff_getElem.mp hrow
    rw [List.length_drop] at hi
    rw [List.getElem_drop, decide_eq_true_eq, not_le]
    rcases Nat.eq_zero_or_pos i with hzero | hpos
    · simpa only [hzero, Nat.add_zero] using hlt
    · exact hlt.trans_le (hs (n+1) (n+1+i) hn (by omega) (by omega))
  calc listing.take (n+1)
      = (listing.take (n+1) ++ listing.drop (n+1)).filter
          (fun row => decide (key row ≤ key listing[n])) := by
        rw [List.filter_append, htake, hdrop, List.append_nil]
    _ = listing.filter fun row => key row ≤ key listing[n] := by rw [List.take_append_drop]

omit [LinearOrder κ] in
theorem key_getElem_eq (hkeys : listing.map key = other.map key) {i : ℕ} (hi : i < listing.length)
    (hi' : i < other.length) : key listing[i] = key other[i] := by
  have hget : (listing.map key)[i]? = (other.map key)[i]? := congrArg (·[i]?) hkeys
  simpa [hi, hi'] using hget

/-- Two listings have the same rows before an offset at which the key changes. -/
theorem take_perm (h : IsListing key rows listing) (h' : IsListing key rows other)
    (hapart : PagesApart key b listing) (k : ℕ) :
    (listing.take (k*b)).Perm (other.take (k*b)) := by
  have hlen := h.length_eq
  have hlen' := h'.length_eq
  rcases Nat.eq_zero_or_pos (k*b) with hzero | hpos
  · rw [hzero, List.take_zero, List.take_zero]
  · rcases Nat.lt_or_ge (k*b) rows.length with hlt | hge
    · obtain ⟨n,hn⟩ : ∃ n, k*b = n+1 := ⟨k*b-1, by omega⟩
      have hkeys := h.map_key h'
      have hk : 0 < k := Nat.pos_of_mul_pos_right hpos
      have hn1 : n+1 < listing.length := by omega
      have hn1' : n+1 < other.length := by omega
      have hne : key listing[n] ≠ key listing[n+1] := by
        apply hapart k hk
        · rw [hn, Nat.add_sub_cancel]
          exact List.getElem?_eq_getElem (by omega)
        · rw [hn]
          exact List.getElem?_eq_getElem hn1
      have hle := List.pairwise_iff_getElem.mp h.sorted n (n+1) (by omega) hn1 (by omega)
      have hstep : key listing[n] < key listing[n+1] := lt_of_le_of_ne hle hne
      have hsame := key_getElem_eq hkeys (i := n) (by omega) (by omega)
      have hstep' : key other[n] < key other[n+1] := by
        rw [← hsame, ← key_getElem_eq hkeys hn1 hn1']
        exact hstep
      rw [hn, take_eq_filter h.sorted hn1 hstep, take_eq_filter h'.sorted hn1' hstep', hsame]
      exact (h.perm.trans h'.perm.symm).filter _
    · rw [List.take_of_length_le (by omega), List.take_of_length_le (by omega)]
      exact h.perm.trans h'.perm.symm

theorem take_succ_mul (listing : List α) (b k : ℕ) :
    listing.take ((k+1)*b) = listing.take (k*b) ++ page b listing k := by
  rw [Nat.succ_mul, List.take_add]
  rfl

theorem page_perm (h : IsListing key rows listing) (h' : IsListing key rows other)
    (hapart : PagesApart key b listing) (k : ℕ) :
    (page b listing k).Perm (page b other k) := by
  have hnext := take_perm h h' hapart (k+1)
  rw [take_succ_mul, take_succ_mul] at hnext
  -- the rows before the page are the same, so they cancel
  have hfront := (take_perm h h' hapart k).append_right (page b other k)
  exact (List.perm_append_left_iff _).mp (hnext.trans hfront.symm)

theorem pages_const (b n : ℕ) (listing : List α) :
    pages b n (fun _ => listing) = listing.take (n*b) := by
  induction n with
  | zero => simp [pages]
  | succ n ih =>
    rw [take_succ_mul, ← ih, pages, List.range_succ, List.flatMap_append]
    simp [pages]

/-- When the key changes from page to page, the pages of any queries have each row once. -/
theorem pages_perm (h : IsListing key rows listing) (hapart : PagesApart key b listing) {n : ℕ}
    (hn : rows.length ≤ n*b) {listings : ℕ → List α}
    (hlistings : ∀ k, IsListing key rows (listings k)) : (pages b n listings).Perm rows := by
  have hpages : (pages b n listings).Perm (pages b n fun _ => listing) :=
    List.Perm.flatMap_left _ fun k _ => (page_perm h (hlistings k) hapart k).symm
  rw [pages_const, List.take_of_length_le (h.length_eq ▸ hn)] at hpages
  exact hpages.trans h.perm

theorem mem_page {row : α} {i k : ℕ} (hrow : listing[i]? = some row) (hlow : k*b ≤ i)
    (hhigh : i < (k+1)*b) : row ∈ page b listing k := by
  rw [Nat.succ_mul] at hhigh
  apply List.mem_of_getElem? (i := i-k*b)
  rw [page, List.getElem?_take_of_lt (by omega), List.getElem?_drop, ← hrow]
  congr 1
  omega

/-- Two neighbours of one key may change places. -/
theorem exists_swapped (h : IsListing key rows listing) {i : ℕ} {row next : α}
    (hrow : listing[i]? = some row) (hnext : listing[i+1]? = some next)
    (htie : key row = key next) :
    ∃ other, IsListing key rows other ∧ other[i+1]? = some row := by
  obtain ⟨hi,hrow⟩ := List.getElem?_eq_some_iff.mp hrow
  obtain ⟨hi1,hnext⟩ := List.getElem?_eq_some_iff.mp hnext
  have hsplit : listing = listing.take i ++ row :: next :: listing.drop (i+2) := by
    rw [← hrow, ← hnext, List.getElem_cons_drop, List.getElem_cons_drop, List.take_append_drop]
  refine ⟨listing.take i ++ next :: row :: listing.drop (i+2), h.of_map_key ?_ ?_, ?_⟩
  · have hswap := (List.Perm.swap row next (listing.drop (i+2))).append_left (listing.take i)
    rw [← hsplit] at hswap
    exact hswap.trans h.perm
  · conv_rhs => rw [hsplit]
    simp [htie]
  · have hlen : (listing.take i).length = i := by simp; omega
    rw [List.getElem?_append_right (by omega), hlen]
    simp

/-- A tie across two pages lets the queries show a row on both. -/
theorem exists_twice (hb : 0 < b) (h : IsListing key rows listing)
    (htie : ¬ PagesApart key b listing) :
    ∃ (listings : ℕ → List α) (k : ℕ) (row : α), (∀ j, IsListing key rows (listings j)) ∧
      (k+1)*b < rows.length ∧ row ∈ page b (listings k) k ∧
      row ∈ page b (listings (k+1)) (k+1) := by
  unfold PagesApart at htie
  push Not at htie
  obtain ⟨k,hk,last,next,hlast,hnext,hkey⟩ := htie
  obtain ⟨m,rfl⟩ : ∃ m, k = m+1 := ⟨k-1, by omega⟩
  have hpos : 0 < (m+1)*b := Nat.mul_pos hk hb
  have hplace : (m+1)*b-1+1 = (m+1)*b := by omega
  rw [← hplace] at hnext
  obtain ⟨other,hother,hmoved⟩ := exists_swapped h hlast hnext hkey
  rw [hplace] at hmoved hnext
  refine ⟨fun j => if j = m then listing else other, m, last, ?_, ?_, ?_, ?_⟩
  · intro j
    dsimp only
    split_ifs
    · exact h
    · exact hother
  · rw [← h.length_eq]
    exact (List.getElem?_eq_some_iff.mp hnext).1
  · dsimp only
    rw [if_pos rfl]
    exact mem_page hlast (by rw [Nat.succ_mul]; omega) (by omega)
  · dsimp only
    rw [if_neg (Nat.succ_ne_self m)]
    exact mem_page hmoved le_rfl (by rw [Nat.succ_mul (m+1)]; omega)

/-- What stands on two pages is read twice. -/
theorem two_le_count [DecidableEq α] {f : ℕ → List α} {x : α} {k n : ℕ} (hk : k+1 < n)
    (hx : x ∈ f k) (hx' : x ∈ f (k+1)) : 2 ≤ ((List.range n).flatMap f).count x := by
  induction n with
  | zero => omega
  | succ n ih =>
    have hsplit : ((List.range (n+1)).flatMap f).count x =
        ((List.range n).flatMap f).count x+(f n).count x := by
      simp [List.range_succ]
    rw [hsplit]
    rcases Nat.lt_or_ge (k+1) n with hlt | hge
    · have hbefore := ih hlt
      omega
    · obtain rfl : k+1 = n := by omega
      have hbefore : x ∈ (List.range (k+1)).flatMap f :=
        List.mem_flatMap.mpr ⟨k, List.mem_range.mpr k.lt_succ_self, hx⟩
      have h1 := List.count_pos_iff.mpr hbefore
      have h2 := List.count_pos_iff.mpr hx'
      omega

end OffsetPaging
