import Mathlib.Data.List.Basic
import Mathlib.Tactic.Common
import StreamPay.Library.JsString

/-! Texts of JSON without white space: the quoting of strings, and trees of words, quoted
strings, arrays and objects. What follows a text tells where it ends, so no two trees
share a text. -/
namespace JsonText

/-- The code unit of a character below 128. -/
def unit (c : Char) : UInt16 := c.toNat.toUInt16

def isHighSurrogate (u : UInt16) : Bool := 0xD800 ≤ u && u ≤ 0xDBFF

def isLowSurrogate (u : UInt16) : Bool := 0xDC00 ≤ u && u ≤ 0xDFFF

/-- A digit of a `\\u` escape, in lower case. -/
def hexUnit (digit : ℕ) : UInt16 :=
  if digit < 10 then (digit+0x30).toUInt16 else (digit+0x57).toUInt16

/-- The letter of the escapes `\\b`, `\\t`, `\\n`, `\\f`, `\\r`, and the two characters
that are escaped as themselves. -/
def shortEscape (u : UInt16) : Option UInt16 :=
  if u = 0x08 then some 0x62
  else if u = 0x09 then some 0x74
  else if u = 0x0A then some 0x6E
  else if u = 0x0C then some 0x66
  else if u = 0x0D then some 0x72
  else if u = 0x22 then some 0x22
  else if u = 0x5C then some 0x5C
  else none

/-- What stands behind the backslash. -/
def escapeTail (u : UInt16) : Utf16 :=
  match shortEscape u with
  | some letter => [letter]
  | none => [0x75, hexUnit (u.toNat/4096), hexUnit (u.toNat/256 % 16), hexUnit (u.toNat/16 % 16),
      hexUnit (u.toNat % 16)]

/-- A code unit that is not the half of a pair. -/
def quoteUnit (u : UInt16) : Utf16 :=
  if (shortEscape u).isSome || u < 0x20 || isHighSurrogate u || isLowSurrogate u then
    0x5C :: escapeTail u
  else [u]

def quoteUnits : Utf16 → Utf16
  | [] => []
  | [u] => quoteUnit u
  | u :: v :: rest =>
    if isHighSurrogate u && isLowSurrogate v then u :: v :: quoteUnits rest
    else quoteUnit u ++ quoteUnits (v :: rest)

/-- `QuoteJSONString`. -/
def quote (s : Utf16) : Utf16 := 0x22 :: quoteUnits s ++ [0x22]

/-- The part of a quoted text that stands for one code unit. -/
inductive IsChunk : UInt16 → Utf16 → Prop
  | plain (u : UInt16) (hquote : u ≠ 0x22) (hescape : u ≠ 0x5C) : IsChunk u [u]
  | escaped (u : UInt16) : IsChunk u (0x5C :: escapeTail u)

/-- The quoted text stands for the string, chunk by chunk. -/
inductive Spells : Utf16 → Utf16 → Prop
  | nil : Spells [] []
  | cons {u : UInt16} {s chunk text : Utf16} : IsChunk u chunk → Spells s text →
      Spells (u :: s) (chunk ++ text)

theorem hexUnit_injective {a b : ℕ} (ha : a < 16) (hb : b < 16) (h : hexUnit a = hexUnit b) :
    a = b := by
  have hall : ∀ a < 16, ∀ b < 16, hexUnit a = hexUnit b → a = b := by decide
  exact hall a ha b hb h

theorem shortEscape_ne {u letter : UInt16} (h : shortEscape u = some letter) :
    letter ≠ 0x75 := by
  unfold shortEscape at h
  split_ifs at h <;> obtain rfl := Option.some.inj h <;> decide

theorem shortEscape_injective {u v letter : UInt16} (hu : shortEscape u = some letter)
    (hv : shortEscape v = some letter) : u = v := by
  have hback : ∀ w, shortEscape w = some letter → w =
      if letter = 0x62 then 0x08 else if letter = 0x74 then 0x09 else if letter = 0x6E then 0x0A
      else if letter = 0x66 then 0x0C else if letter = 0x72 then 0x0D else letter := by
    intro w hw
    unfold shortEscape at hw
    split_ifs at hw <;> obtain rfl := Option.some.inj hw <;> simp_all
  rw [hback u hu, ← hback v hv]

theorem escapeTail_append_inj {u v : UInt16} {a b : Utf16}
    (h : escapeTail u ++ a = escapeTail v ++ b) : u = v ∧ a = b := by
  unfold escapeTail at h
  cases hu : shortEscape u with
  | some letter =>
    cases hv : shortEscape v with
    | some letter' =>
      simp only [hu, hv, List.cons_append, List.nil_append, List.cons.injEq] at h
      obtain ⟨rfl,hrest⟩ := h
      exact ⟨shortEscape_injective hu hv, hrest⟩
    | none =>
      simp only [hu, hv, List.cons_append, List.nil_append, List.cons.injEq] at h
      exact absurd h.1 (shortEscape_ne hu)
  | none =>
    cases hv : shortEscape v with
    | some letter' =>
      simp only [hu, hv, List.cons_append, List.nil_append, List.cons.injEq] at h
      exact absurd h.1.symm (shortEscape_ne hv)
    | none =>
      simp only [hu, hv, List.cons_append, List.nil_append, List.cons.injEq, true_and] at h
      obtain ⟨h3,h2,h1,h0,hrest⟩ := h
      -- the four digits make up the unit
      have hu16 := u.toNat_lt
      have hv16 := v.toNat_lt
      have h3' := hexUnit_injective (by omega) (by omega) h3
      have h2' := hexUnit_injective (by omega) (by omega) h2
      have h1' := hexUnit_injective (by omega) (by omega) h1
      have h0' := hexUnit_injective (by omega) (by omega) h0
      exact ⟨UInt16.toNat_inj.mp (by omega), hrest⟩

theorem IsChunk.append_inj {u v : UInt16} {chunk chunk' : Utf16} (h : IsChunk u chunk)
    (h' : IsChunk v chunk') {a b : Utf16} (he : chunk ++ a = chunk' ++ b) : u = v ∧ a = b := by
  cases h with
  | plain _ hescape =>
    cases h' with
    | plain => exact List.cons_eq_cons.mp he
    | escaped => exact absurd (List.cons_eq_cons.mp he).1 hescape
  | escaped =>
    cases h' with
    | plain _ hescape => exact absurd (List.cons_eq_cons.mp he).1.symm hescape
    | escaped => exact escapeTail_append_inj (List.cons_eq_cons.mp he).2

/-- No chunk starts with the closing quote. -/
theorem IsChunk.ne_quote {u : UInt16} {chunk : Utf16} (h : IsChunk u chunk) (a b : Utf16) :
    chunk ++ a ≠ 0x22 :: b := by
  intro he
  cases h with
  | plain hquote _ => exact hquote (List.cons_eq_cons.mp he).1
  | escaped => exact absurd (List.cons_eq_cons.mp he).1 (by decide)

theorem Spells.append_inj {s t text text' : Utf16} (h : Spells s text) (h' : Spells t text')
    {a b : Utf16} (he : text ++ 0x22 :: a = text' ++ 0x22 :: b) : s = t ∧ a = b := by
  induction h generalizing t text' with
  | nil =>
    cases h' with
    | nil => exact ⟨rfl, (List.cons_eq_cons.mp he).2⟩
    | cons hchunk _ =>
      rw [List.nil_append, List.append_assoc] at he
      exact absurd he.symm (hchunk.ne_quote _ _)
  | cons hchunk _ ih =>
    cases h' with
    | nil =>
      rw [List.nil_append, List.append_assoc] at he
      exact absurd he (hchunk.ne_quote _ _)
    | cons hchunk' hspells =>
      rw [List.append_assoc, List.append_assoc] at he
      obtain ⟨rfl,hrest⟩ := hchunk.append_inj hchunk' he
      obtain ⟨rfl,hab⟩ := ih hspells hrest
      exact ⟨rfl, hab⟩

theorem isChunk_quoteUnit (u : UInt16) : IsChunk u (quoteUnit u) := by
  unfold quoteUnit
  split_ifs with h
  · exact .escaped u
  · simp only [Bool.or_eq_true, not_or] at h
    refine .plain u ?_ ?_
    · rintro rfl
      exact h.1.1.1 (by decide)
    · rintro rfl
      exact h.1.1.1 (by decide)

theorem isChunk_surrogate {u : UInt16} (h : isHighSurrogate u = true ∨ isLowSurrogate u = true) :
    IsChunk u [u] := by
  refine .plain u ?_ ?_
  · rintro rfl
    revert h
    decide
  · rintro rfl
    revert h
    decide

theorem spells_quoteUnits (s : Utf16) : Spells s (quoteUnits s) := by
  induction s using quoteUnits.induct with
  | case1 => exact .nil
  | case2 u =>
    have h := Spells.cons (isChunk_quoteUnit u) .nil
    rw [List.append_nil] at h
    exact h
  | case3 u v rest hpair ih =>
    have hboth := Bool.and_eq_true_iff.mp hpair
    rw [quoteUnits, if_pos hpair]
    exact .cons (isChunk_surrogate (Or.inl hboth.1)) (.cons (isChunk_surrogate (Or.inr hboth.2)) ih)
  | case4 u v rest hpair ih =>
    rw [quoteUnits, if_neg hpair]
    exact .cons (isChunk_quoteUnit u) ih

/-- A quoted string ends where its closing quote stands. -/
theorem quote_append_inj {s t a b : Utf16} (h : quote s ++ a = quote t ++ b) : s = t ∧ a = b := by
  simp only [quote, List.cons_append, List.append_assoc, List.nil_append, List.cons.injEq,
    true_and] at h
  exact (spells_quoteUnits s).append_inj (spells_quoteUnits t) h

/-! Trees of texts. -/

/-- The characters that end a word: quotes, colons, commas, brackets and braces. -/
def isPunctuation (u : UInt16) : Bool := u ∈ "\",:[]\x7b\x7d".utf16

/-- A word: a number, `true`, `false` or `null`. -/
structure Word where
  text : Utf16
  ne_nil : text ≠ []
  plain : (text.all fun u => !isPunctuation u) = true
  deriving DecidableEq

theorem Word.isPunctuation_of_mem (w : Word) {u : UInt16} (hu : u ∈ w.text) :
    isPunctuation u = false := by
  simpa using List.all_eq_true.mp w.plain u hu

end JsonText

inductive JsonText
  | word (w : JsonText.Word)
  | quoted (s : Utf16)
  | array (items : List JsonText)
  | object (members : List (Utf16 × JsonText))

namespace JsonText

/-- `texts.join(",")`. -/
def joined (texts : List Utf16) : Utf16 := List.intercalate [0x2C] texts

mutual
def render : JsonText → Utf16
  | .word w => w.text
  | .quoted s => quote s
  | .array items => 0x5B :: joined (renderItems items) ++ [0x5D]
  | .object members => 0x7B :: joined (renderMembers members) ++ [0x7D]

def renderItems : List JsonText → List Utf16
  | [] => []
  | item :: items => render item :: renderItems items

def renderMembers : List (Utf16 × JsonText) → List Utf16
  | [] => []
  | (key,value) :: members => (quote key ++ 0x3A :: render value) :: renderMembers members
end

/-- A property of a tree that follows from that of its parts. -/
@[elab_as_elim]
theorem induction {motive : JsonText → Prop} (word : ∀ w, motive (.word w))
    (quoted : ∀ s, motive (.quoted s))
    (array : ∀ items, (∀ item ∈ items, motive item) → motive (.array items))
    (object : ∀ members, (∀ m ∈ members, motive m.2) → motive (.object members)) :
    ∀ t, motive t
  | .word w => word w
  | .quoted s => quoted s
  | .array items => array items fun item hitem =>
    have := List.sizeOf_lt_of_mem hitem
    induction word quoted array object item
  | .object members => object members fun m hm =>
    have hsize := List.sizeOf_lt_of_mem hm
    have hvalue : sizeOf m.2 < sizeOf m := by
      cases m
      simp only [Prod.mk.sizeOf_spec]
      omega
    induction word quoted array object m.2

/-- Nothing follows, or a comma or the end of an array or object. -/
def Ends (a : Utf16) : Prop := ∀ u ∈ a.head?, u = 0x2C ∨ u = 0x5D ∨ u = 0x7D

section Joined
variable {α : Type*} {f : α → Utf16} {close : UInt16} {xs : List α}

/-- The text of `x` ends where one of the `Ends` follows. -/
def Separable (f : α → Utf16) (x : α) : Prop :=
  ∀ y a b, Ends a → Ends b → f x ++ a = f y ++ b → x = y ∧ a = b

theorem joined_cons (text : Utf16) (texts : List Utf16) :
    joined (text :: texts) = text ++ texts.flatMap fun t => 0x2C :: t := by
  induction texts generalizing text with
  | nil => simp [joined, List.intercalate]
  | cons next texts ih =>
    have hsplit : joined (text :: next :: texts) = text ++ 0x2C :: joined (next :: texts) := by
      simp [joined, List.intercalate, List.intersperse]
    rw [hsplit, ih]
    rfl

theorem ends_close (hclose : close = 0x5D ∨ close = 0x7D) (a : Utf16) : Ends (close :: a) := by
  intro u hu
  obtain rfl := Option.some.inj hu
  exact Or.inr hclose

theorem ends_flatMap (hclose : close = 0x5D ∨ close = 0x7D) (xs : List α) (a : Utf16) :
    Ends (xs.flatMap (fun x => 0x2C :: f x) ++ close :: a) := by
  cases xs with
  | nil => exact ends_close hclose a
  | cons x xs =>
    intro u hu
    exact Or.inl (Option.some.inj hu).symm

theorem flatMap_append_inj (hclose : close = 0x5D ∨ close = 0x7D)
    (hf : ∀ x ∈ xs, Separable f x) {ys : List α} {a b : Utf16}
    (h : xs.flatMap (fun x => 0x2C :: f x) ++ close :: a =
      ys.flatMap (fun y => 0x2C :: f y) ++ close :: b) : xs = ys ∧ a = b := by
  have hcomma : close ≠ 0x2C := by
    rcases hclose with rfl | rfl
    · decide
    · decide
  induction xs generalizing ys with
  | nil =>
    cases ys with
    | nil => exact ⟨rfl, (List.cons_eq_cons.mp h).2⟩
    | cons y ys => exact absurd (List.cons_eq_cons.mp h).1 hcomma
  | cons x xs ih =>
    cases ys with
    | nil => exact absurd (List.cons_eq_cons.mp h).1.symm hcomma
    | cons y ys =>
      simp only [List.flatMap_cons, List.cons_append, List.append_assoc, List.cons.injEq,
        true_and] at h
      obtain ⟨rfl,hrest⟩ := hf x List.mem_cons_self y _ _ (ends_flatMap hclose xs a)
        (ends_flatMap hclose ys b) h
      obtain ⟨rfl,hab⟩ := ih (fun z hz => hf z (List.mem_cons_of_mem _ hz)) hrest
      exact ⟨rfl, hab⟩

/-- Joined texts tell their parts, if no part starts with the closing character. -/
theorem joined_append_inj (hclose : close = 0x5D ∨ close = 0x7D)
    (hf : ∀ x ∈ xs, Separable f x) (hstart : ∀ x a b, f x ++ a ≠ close :: b) {ys : List α}
    {a b : Utf16} (h : joined (xs.map f) ++ close :: a = joined (ys.map f) ++ close :: b) :
    xs = ys ∧ a = b := by
  cases xs with
  | nil =>
    cases ys with
    | nil => exact ⟨rfl, (List.cons_eq_cons.mp h).2⟩
    | cons y ys =>
      rw [List.map_cons, joined_cons, List.append_assoc] at h
      exact absurd h.symm (hstart y _ _)
  | cons x xs =>
    cases ys with
    | nil =>
      rw [List.map_cons, joined_cons, List.append_assoc] at h
      exact absurd h (hstart x _ _)
    | cons y ys =>
      rw [List.map_cons, List.map_cons, joined_cons, joined_cons, List.flatMap_map,
        List.flatMap_map, List.append_assoc, List.append_assoc] at h
      obtain ⟨rfl,hrest⟩ := hf x List.mem_cons_self y _ _ (ends_flatMap hclose xs a)
        (ends_flatMap hclose ys b) h
      obtain ⟨rfl,hab⟩ := flatMap_append_inj hclose
        (fun z hz => hf z (List.mem_cons_of_mem _ hz)) hrest
      exact ⟨rfl, hab⟩

end Joined

def renderMember (m : Utf16 × JsonText) : Utf16 := quote m.1 ++ 0x3A :: render m.2

theorem renderItems_eq_map (items : List JsonText) : renderItems items = items.map render := by
  induction items with
  | nil => rfl
  | cons item items ih => rw [renderItems, ih, List.map_cons]

theorem renderMembers_eq_map (members : List (Utf16 × JsonText)) :
    renderMembers members = members.map renderMember := by
  induction members with
  | nil => rfl
  | cons m members ih =>
    rw [renderMembers, ih, List.map_cons]
    rfl

/-- Every text starts with a character of its own kind. -/
theorem Word.eq_cons (w : Word) :
    ∃ u rest, w.text = u :: rest ∧ isPunctuation u = false := by
  obtain ⟨u,rest,htext⟩ := List.exists_cons_of_ne_nil w.ne_nil
  refine ⟨u, rest, htext, w.isPunctuation_of_mem ?_⟩
  rw [htext]
  exact List.mem_cons_self

theorem Word.append_ne (w : Word) {u : UInt16} (hu : isPunctuation u = true) (a b : Utf16) :
    w.text ++ a ≠ u :: b := by
  obtain ⟨v,rest,htext,hv⟩ := w.eq_cons
  rw [htext]
  intro h
  rw [(List.cons_eq_cons.mp h).1, hu] at hv
  cases hv

theorem isPunctuation_of_ends {a : Utf16} (ha : Ends a) :
    ∀ u ∈ a.head?, isPunctuation u = true := by
  intro u hu
  rcases ha u hu with rfl | rfl | rfl
  · decide
  · decide
  · decide

/-- A word ends where punctuation or nothing follows. -/
theorem Word.append_inj {w v : Word} {a b : Utf16} (ha : Ends a) (hb : Ends b)
    (h : w.text ++ a = v.text ++ b) : w = v ∧ a = b := by
  have hsplit {w : Word} {a : Utf16} (ha : Ends a) :
      (w.text ++ a).takeWhile (fun u => !isPunctuation u) = w.text := by
    rw [List.takeWhile_append_of_pos fun u hu => by simp [w.isPunctuation_of_mem hu]]
    cases a with
    | nil => simp
    | cons u a => simp [isPunctuation_of_ends ha u rfl]
  have htext : w.text = v.text := by rw [← hsplit ha, h, hsplit hb]
  rw [htext] at h
  refine ⟨?_, List.append_cancel_left h⟩
  cases w
  cases v
  congr

theorem render_append_ne (t : JsonText) {close : UInt16} (hclose : close = 0x5D ∨ close = 0x7D)
    (a b : Utf16) : render t ++ a ≠ close :: b := by
  have hpunctuation : isPunctuation close = true := by
    rcases hclose with rfl | rfl
    · decide
    · decide
  have hopen {u : UInt16} {rest : Utf16} (hbracket : u ≠ 0x5D) (hbrace : u ≠ 0x7D) :
      u :: rest ≠ close :: b := by
    intro h
    have hfirst : u = close := (List.cons_eq_cons.mp h).1
    rcases hclose with rfl | rfl
    · exact hbracket hfirst
    · exact hbrace hfirst
  -- the other forms open with a character of their own
  cases t with
  | word w => exact w.append_ne hpunctuation a b
  | quoted s => exact hopen (by decide) (by decide)
  | array items => exact hopen (by decide) (by decide)
  | object members => exact hopen (by decide) (by decide)

/-- Where one of the `Ends` follows, a text tells its tree. -/
theorem render_append_inj (t : JsonText) : Separable render t := by
  induction t using JsonText.induction with
  | word w =>
    intro u a b ha hb h
    cases u with
    | word v =>
      obtain ⟨rfl,hab⟩ := Word.append_inj ha hb h
      exact ⟨rfl, hab⟩
    | quoted s => exact absurd h (w.append_ne (by decide) _ _)
    | array items => exact absurd h (w.append_ne (by decide) _ _)
    | object members => exact absurd h (w.append_ne (by decide) _ _)
  | quoted s =>
    intro u a b ha hb h
    cases u with
    | word v => exact absurd h.symm (v.append_ne (by decide) _ _)
    | quoted s' =>
      obtain ⟨rfl,hab⟩ := quote_append_inj h
      exact ⟨rfl, hab⟩
    | array items => exact absurd (List.cons_eq_cons.mp h).1 (by decide)
    | object members => exact absurd (List.cons_eq_cons.mp h).1 (by decide)
  | array items ih =>
    intro u a b ha hb h
    cases u with
    | word v => exact absurd h.symm (v.append_ne (by decide) _ _)
    | quoted s => exact absurd (List.cons_eq_cons.mp h).1 (by decide)
    | array items' =>
      simp only [render, renderItems_eq_map, List.cons_append, List.append_assoc,
        List.nil_append, List.cons.injEq, true_and] at h
      obtain ⟨rfl,hab⟩ := joined_append_inj (Or.inl rfl) ih
        (fun t => render_append_ne t (Or.inl rfl)) h
      exact ⟨rfl, hab⟩
    | object members => exact absurd (List.cons_eq_cons.mp h).1 (by decide)
  | object members ih =>
    intro u a b ha hb h
    cases u with
    | word v => exact absurd h.symm (v.append_ne (by decide) _ _)
    | quoted s => exact absurd (List.cons_eq_cons.mp h).1 (by decide)
    | array items => exact absurd (List.cons_eq_cons.mp h).1 (by decide)
    | object members' =>
      simp only [render, renderMembers_eq_map, List.cons_append, List.append_assoc,
        List.nil_append, List.cons.injEq, true_and] at h
      have hmember : ∀ m ∈ members, Separable renderMember m := by
        intro m hm n c d hc hd he
        simp only [renderMember, List.append_assoc, List.cons_append] at he
        obtain ⟨hkey,hrest⟩ := quote_append_inj he
        obtain ⟨hvalue,hcd⟩ := ih m hm n.2 c d hc hd (List.cons_eq_cons.mp hrest).2
        exact ⟨Prod.ext hkey hvalue, hcd⟩
      have hstart : ∀ (m : Utf16 × JsonText) c d, renderMember m ++ c ≠ 0x7D :: d := by
        intro m c d he
        exact absurd (List.cons_eq_cons.mp he).1 (by decide)
      obtain ⟨rfl,hab⟩ := joined_append_inj (Or.inr rfl) hmember hstart h
      exact ⟨rfl, hab⟩

theorem render_injective : Function.Injective render := by
  intro t u h
  have hend : Ends [] := fun _ hu => by cases hu
  exact (render_append_inj t u [] [] hend hend (by rw [h])).1

end JsonText
