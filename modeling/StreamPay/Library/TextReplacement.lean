import Mathlib.Data.List.Infix

/-! Cutting a text at the occurrences of another one, and joining the pieces with a
marker: what is left contains the text that was cut out nowhere. -/

namespace TextReplacement
variable {α : Type*} {sep : List α}

/-- An occurrence that lacks a letter does not reach over it. -/
theorem infix_append_cons {c : α} {before after : List α} (hc : c ∉ sep)
    (h : sep <:+: before ++ c :: after) : sep <:+: before ∨ sep <:+: after := by
  rcases List.infix_append_iff.mp h with hbefore | hafter | ⟨left,right,rfl,hleft,hright⟩
  · exact Or.inl hbefore
  · rcases List.infix_cons_iff.mp hafter with hbegins | hinside
    · cases sep with
      | nil => exact Or.inl List.nil_infix
      | cons d sep =>
        obtain ⟨rfl,_⟩ := List.cons_prefix_cons.mp hbegins
        exact absurd List.mem_cons_self hc
    · exact Or.inr hinside
  · -- an occurrence over both would begin its second part with the letter
    cases right with
    | nil =>
      rw [List.append_nil]
      exact Or.inl hleft.isInfix
    | cons d right =>
      obtain ⟨rfl,_⟩ := List.cons_prefix_cons.mp hright
      exact absurd (List.mem_append_right left List.mem_cons_self) hc

/-- A marker that begins and ends with letters of its own, and has no occurrence between
them. -/
structure Separates (sep : List α) (opening : α) (inner : List α) (closing : α) : Prop where
  opening : opening ∉ sep
  inner : ¬sep <:+: inner
  closing : closing ∉ sep

/-- No occurrence arises where texts without one are joined by such a marker. -/
theorem Separates.not_infix_intercalate {opening closing : α} {inner : List α}
    (h : Separates sep opening inner closing) (hsep : sep ≠ []) {texts : List (List α)}
    (htexts : ∀ text ∈ texts, ¬sep <:+: text) :
    ¬sep <:+: (opening :: (inner ++ [closing])).intercalate texts := by
  induction texts with
  | nil => exact fun hinside => hsep (List.infix_nil.mp hinside)
  | cons text texts ih =>
    have htext := htexts text List.mem_cons_self
    have hrest := ih fun other hother => htexts other (List.mem_cons_of_mem text hother)
    cases texts with
    | nil => rwa [List.intercalate_singleton]
    | cons next texts =>
      -- the marker keeps the first text and the rest apart
      have hjoined : (opening :: (inner ++ [closing])).intercalate (text :: next :: texts) =
          text ++ opening :: (inner ++ closing ::
            (opening :: (inner ++ [closing])).intercalate (next :: texts)) := by
        rw [List.intercalate_cons_cons]
        simp only [List.append_assoc, List.cons_append, List.nil_append]
      rw [hjoined]
      intro hinside
      rcases infix_append_cons h.opening hinside with hfirst | hbehind
      · exact htext hfirst
      · rcases infix_append_cons h.closing hbehind with hmiddle | hlast
        · exact h.inner hmiddle
        · exact hrest hlast

variable [DecidableEq α]

/-- The pieces between the occurrences that are found from the left; the first letters
belong to the last occurrence, and are skipped. -/
def pieces (sep : List α) : ℕ → List α → List (List α)
  | _, [] => [[]]
  | skip+1, _ :: rest => pieces sep skip rest
  | 0, c :: rest =>
    if sep <+: c :: rest then [] :: pieces sep (sep.length-1) rest
    else (pieces sep 0 rest).modifyHead (c :: ·)

def split (sep text : List α) : List (List α) := pieces sep 0 text

/-- The first piece begins the text. -/
theorem exists_first_piece (sep text : List α) :
    ∃ first others, split sep text = first :: others ∧ first <+: text := by
  induction text with
  | nil => exact ⟨[], [], rfl, List.nil_prefix⟩
  | cons c text ih =>
    obtain ⟨first,others,hpieces,hbegins⟩ := ih
    rw [split] at hpieces
    by_cases hoccurs : sep <+: c :: text
    · refine ⟨[], pieces sep (sep.length-1) text, ?_, List.nil_prefix⟩
      rw [split, pieces, if_pos hoccurs]
    · refine ⟨c :: first, others, ?_, ?_⟩
      · rw [split, pieces, if_neg hoccurs, hpieces]
        rfl
      · exact List.cons_prefix_cons.mpr ⟨rfl, hbegins⟩

/-- No piece contains an occurrence: it would have been found where it begins. -/
theorem not_infix_of_mem_pieces (hsep : sep ≠ []) (text : List α) (skip : ℕ) :
    ∀ piece ∈ pieces sep skip text, ¬sep <:+: piece := by
  have hnil : ¬sep <:+: [] := fun h => hsep (List.infix_nil.mp h)
  induction text generalizing skip with
  | nil =>
    intro piece hpiece
    rw [pieces, List.mem_singleton] at hpiece
    rwa [hpiece]
  | cons c text ih =>
    cases skip with
    | succ skip => exact ih skip
    | zero =>
      rw [pieces]
      by_cases hoccurs : sep <+: c :: text
      · rw [if_pos hoccurs]
        intro piece hpiece
        rcases List.mem_cons.mp hpiece with rfl | hrest
        · exact hnil
        · exact ih _ piece hrest
      · obtain ⟨first,others,hpieces,hbegins⟩ := exists_first_piece sep text
        rw [split] at hpieces
        have hothers := ih 0
        rw [hpieces] at hothers
        rw [if_neg hoccurs, hpieces, List.modifyHead_cons]
        intro piece hpiece
        rcases List.mem_cons.mp hpiece with rfl | hrest
        · -- at the letter in front an occurrence would begin the text as well
          rw [List.infix_cons_iff, not_or]
          have hlonger : c :: first <+: c :: text := List.cons_prefix_cons.mpr ⟨rfl, hbegins⟩
          exact ⟨fun h => hoccurs (h.trans hlonger), hothers first List.mem_cons_self⟩
        · exact hothers piece (List.mem_cons_of_mem first hrest)

theorem pieces_ne_nil (sep text : List α) (skip : ℕ) : pieces sep skip text ≠ [] := by
  induction text generalizing skip with
  | nil => exact List.cons_ne_nil [] []
  | cons c text ih =>
    cases skip with
    | succ skip => exact ih skip
    | zero =>
      rw [pieces]
      split_ifs
      · exact List.cons_ne_nil _ _
      · intro hnil
        exact ih 0 (List.modifyHead_eq_nil_iff.mp hnil)

/-- Joined with what was cut out, the pieces are the text behind the skipped letters. -/
theorem intercalate_pieces (hsep : sep ≠ []) (text : List α) (skip : ℕ) :
    sep.intercalate (pieces sep skip text) = text.drop skip := by
  induction text generalizing skip with
  | nil => rw [pieces, List.intercalate_singleton, List.drop_nil]
  | cons c text ih =>
    cases skip with
    | succ skip => exact ih skip
    | zero =>
      rw [pieces, List.drop_zero]
      by_cases hoccurs : sep <+: c :: text
      · -- the letter belongs to the occurrence, and the others of it are skipped
        have hlength : sep.length = (sep.length-1)+1 := by
          have hpos := List.length_pos_iff.mpr hsep
          omega
        have hbehind : text.drop (sep.length-1) = (c :: text).drop sep.length := by
          rw [hlength, List.drop_succ_cons, Nat.add_sub_cancel]
        rw [if_pos hoccurs]
        calc sep.intercalate ([] :: pieces sep (sep.length-1) text)
            = sep ++ sep.intercalate (pieces sep (sep.length-1) text) := by
              rw [List.intercalate_cons_of_ne_nil (pieces_ne_nil sep text _), List.nil_append]
          _ = sep ++ text.drop (sep.length-1) := by rw [ih]
          _ = sep ++ (c :: text).drop sep.length := by rw [hbehind]
          _ = c :: text := (List.prefix_append_drop hoccurs).symm
      · have hrest := ih 0
        obtain ⟨first,others,hpieces⟩ := List.exists_cons_of_ne_nil (pieces_ne_nil sep text 0)
        rw [hpieces, List.drop_zero] at hrest
        rw [if_neg hoccurs, hpieces, List.modifyHead_cons, List.intercalate_cons_cons_left, hrest]

end TextReplacement
