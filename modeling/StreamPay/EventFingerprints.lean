import StreamPay.Library.JsonText
import StreamPay.Library.JsonValue
import StreamPay.Library.StableSort

/-! The canonical text of a parsed event, from which its fingerprint is made: when two
values share one. -/
namespace StreamPay
open JsonValue StableSort

/-- `localeCompare`: a total preorder that may tie distinct strings. -/
structure LocaleCompare where
  compare : Utf16 → Utf16 → Ordering
  swap : ∀ a b, compare b a = (compare a b).swap
  trans : ∀ a b c, (compare a b).isLE = true → (compare b c).isLE = true →
    (compare a c).isLE = true

def LocaleCompare.le (localeCompare : LocaleCompare) (a b : Utf16) : Bool :=
  (localeCompare.compare a b).isLE

/-- `JSON.stringify` of a value that is not an object. -/
def stringify : JsonLeaf → Utf16
  | .null => "null".utf16
  | .bool b => (if b then "true" else "false").utf16
  | .number (.finite x) => x.text.map JsonText.unit
  | .number (.infinity _) => "null".utf16
  | .string s => JsonText.quote s

/-- Entries in the order of their keys; `sort` is stable. -/
def sortEntries {α : Type*} (localeCompare : LocaleCompare) (entries : List (Utf16 × α)) :
    List (Utf16 × α) :=
  entries.insertionSort fun left right => localeCompare.le left.1 right.1

mutual
/-- No member of a parsed value is `undefined`; the entries are made texts before they
are sorted, which looks at their keys alone. -/
def canonicalize (localeCompare : LocaleCompare) : JsonValue → Utf16
  | .leaf x => stringify x
  | .array items => 0x5B :: JsonText.joined (canonicalizeItems localeCompare items) ++ [0x5D]
  | .object members =>
    let entries := sortEntries localeCompare (canonicalizeMembers localeCompare members)
    0x7B :: JsonText.joined (entries.map fun (key,entry) => JsonText.quote key ++ 0x3A :: entry) ++
      [0x7D]

def canonicalizeItems (localeCompare : LocaleCompare) : List JsonValue → List Utf16
  | [] => []
  | item :: items => canonicalize localeCompare item :: canonicalizeItems localeCompare items

def canonicalizeMembers (localeCompare : LocaleCompare) :
    List (Utf16 × JsonValue) → List (Utf16 × Utf16)
  | [] => []
  | (key,value) :: members =>
    (key, canonicalize localeCompare value) :: canonicalizeMembers localeCompare members
end

/-- An event as `parsePayload` returns it; `none` is `undefined`. -/
@[ext] structure ParsedEvent where
  eventId : Utf16
  eventType : Utf16
  streamId : Utf16
  occurredAt : Utf16
  chainId : Option Utf16
  transactionHash : Option Utf16
  sequence : Option Double
  data : Option (List (Utf16 × JsonValue))

namespace ParsedEvent

def one : ℤ := 2^leastExponent

/-- `Number.isSafeInteger(value) && value >= 1`. -/
def isSafeSequence (x : Double) : Bool :=
  x.units % one = 0 && x.units.natAbs ≤ (2^53-1)*one && one ≤ x.units

def parseSequence (value : Option JsonValue) : Option Double :=
  match value with
  | some (.leaf (.number (.finite x))) => if isSafeSequence x then some x else none
  | _ => none

def isRecord (value : Option JsonValue) : Option (List (Utf16 × JsonValue)) :=
  match value with
  | some (.object members) => some members
  | _ => none

/-- A string that JavaScript takes for true. -/
def requiredString (candidate : JsonValue) (key : String) : Option Utf16 :=
  (candidate.getString key.utf16).filter fun s => s ≠ []

def parsePayload (candidate : JsonValue) : Option ParsedEvent :=
  match requiredString candidate "eventId", requiredString candidate "eventType",
    requiredString candidate "streamId", requiredString candidate "occurredAt" with
  | some eventId, some eventType, some streamId, some occurredAt => some
    { eventId, eventType, streamId, occurredAt
      chainId := candidate.getString "chainId".utf16
      transactionHash := candidate.getString "transactionHash".utf16
      sequence := parseSequence (candidate.get "sequence".utf16)
      data := isRecord (candidate.get "data".utf16) }
  | _, _, _, _ => none

def stringValue (s : Utf16) : JsonValue := .leaf (.string s)

/-- The members of the event, with the undefined ones. -/
def entries (event : ParsedEvent) : List (String × Option JsonValue) :=
  [("eventId", some (stringValue event.eventId)), ("eventType", some (stringValue event.eventType)),
    ("streamId", some (stringValue event.streamId)),
    ("occurredAt", some (stringValue event.occurredAt)),
    ("chainId", event.chainId.map stringValue),
    ("transactionHash", event.transactionHash.map stringValue),
    ("sequence", event.sequence.map fun x => .leaf (.number (.finite x))),
    ("data", event.data.map .object)]

/-- The event as `canonicalize` sees it once the undefined members are filtered out. -/
def value (event : ParsedEvent) : JsonValue :=
  .object (event.entries.filterMap fun (key,entry) => entry.map fun entry => (key.utf16, entry))

def fingerprintEvent (localeCompare : LocaleCompare) (sha256Hex : Utf16 → String)
    (event : ParsedEvent) : String :=
  sha256Hex (canonicalize localeCompare event.value)

end ParsedEvent

/-- Keys that `localeCompare` ties stand in the same order in corresponding objects. -/
def TiesAgree (localeCompare : LocaleCompare) : JsonValue → JsonValue → Prop :=
  Corresponds (fun _ _ => True) (SameTies fun a b => localeCompare.le a b = true)

/-- The leaf that a text stands for: infinite numbers become null. -/
def shown : JsonLeaf → JsonLeaf
  | .number (.infinity _) => .null
  | x => x

/-- Equal up to the order of members, once infinite numbers are null. -/
def SameWithoutInfinities : JsonValue → JsonValue → Prop :=
  Corresponds (fun x y => shown x = shown y) List.Perm

/-! Number texts as code units. -/

theorem toNat_of_isNumberChar {c : Char} (h : Decimal.isNumberChar c = true) :
    (48 ≤ c.toNat ∧ c.toNat ≤ 57) ∨ c.toNat = 46 ∨ c.toNat = 101 ∨ c.toNat = 43 ∨
      c.toNat = 45 := by
  simp only [Decimal.isNumberChar, Bool.or_eq_true, decide_eq_true_eq] at h
  rcases h with (((h | rfl) | rfl) | rfl) | rfl
  · exact Or.inl (DecimalDigits.toNat_bounds h)
  · decide
  · decide
  · decide
  · decide

theorem unit_toNat {c : Char} (h : Decimal.isNumberChar c = true) :
    (JsonText.unit c).toNat = c.toNat := by
  have hrange := toNat_of_isNumberChar h
  rw [JsonText.unit, Nat.toUInt16_eq, UInt16.toNat_ofNat']
  apply Nat.mod_eq_of_lt
  omega

theorem isPunctuation_unit {c : Char} (h : Decimal.isNumberChar c = true) :
    JsonText.isPunctuation (JsonText.unit c) = false := by
  have hrange := toNat_of_isNumberChar h
  have hunit := unit_toNat h
  rw [JsonText.isPunctuation, decide_eq_false_iff_not]
  intro hmem
  have hall : ("\",:[]\x7b\x7d".utf16.all fun u =>
      decide (u.toNat ∈ [34, 44, 58, 91, 93, 123, 125])) = true := by
    decide
  have hcode := List.all_eq_true.mp hall _ hmem
  rw [hunit, decide_eq_true_eq] at hcode
  simp only [List.mem_cons, List.not_mem_nil, or_false] at hcode
  omega

theorem map_unit_injective {s t : List Char} (hs : ∀ c ∈ s, Decimal.isNumberChar c = true)
    (ht : ∀ c ∈ t, Decimal.isNumberChar c = true)
    (h : s.map JsonText.unit = t.map JsonText.unit) : s = t := by
  have hback {l : List Char} (hl : ∀ c ∈ l, Decimal.isNumberChar c = true) :
      (l.map JsonText.unit).map (fun u => Char.ofNat u.toNat) = l := by
    rw [List.map_map]
    conv_rhs => rw [← List.map_id l]
    apply List.map_congr_left
    intro c hc
    rw [Function.comp_apply, unit_toNat (hl c hc), Char.ofNat_toNat, id]
  rw [← hback hs, h, hback ht]

section Canonical
variable (localeCompare : LocaleCompare)

theorem map_sortEntries {α β : Type*} (f : α → β) (entries : List (Utf16 × α)) :
    (sortEntries localeCompare entries).map (fun entry => (entry.1, f entry.2)) =
      sortEntries localeCompare (entries.map fun entry => (entry.1, f entry.2)) :=
  List.map_insertionSort (fun left right : Utf16 × α => localeCompare.le left.1 right.1 = true)
    (fun left right : Utf16 × β => localeCompare.le left.1 right.1 = true) _ entries
    fun _ _ _ _ => Iff.rfl

theorem canonicalizeItems_eq_map (items : List JsonValue) :
    canonicalizeItems localeCompare items = items.map (canonicalize localeCompare) := by
  induction items with
  | nil => rfl
  | cons item items ih => rw [canonicalizeItems, ih, List.map_cons]

theorem canonicalizeMembers_eq_map (members : List (Utf16 × JsonValue)) :
    canonicalizeMembers localeCompare members =
      members.map fun m => (m.1, canonicalize localeCompare m.2) := by
  induction members with
  | nil => rfl
  | cons m members ih => rw [canonicalizeMembers, ih, List.map_cons]

/-- The tree of the canonical text, before it is written out. -/
def leafText : JsonLeaf → JsonText
  | .null => .word ⟨"null".utf16, by decide, by decide⟩
  | .bool true => .word ⟨"true".utf16, by decide, by decide⟩
  | .bool false => .word ⟨"false".utf16, by decide, by decide⟩
  | .number (.finite x) => .word ⟨x.text.map JsonText.unit, by simp [x.text_ne_nil], by
      rw [List.all_eq_true]
      intro u hu
      obtain ⟨c,hc,rfl⟩ := List.mem_map.mp hu
      rw [isPunctuation_unit (x.isNumberChar_text hc)]
      rfl⟩
  | .number (.infinity _) => .word ⟨"null".utf16, by decide, by decide⟩
  | .string s => .quoted s

mutual
def canonicalText : JsonValue → JsonText
  | .leaf x => leafText x
  | .array items => .array (canonicalItems items)
  | .object members => .object (sortEntries localeCompare (canonicalMembers members))

def canonicalItems : List JsonValue → List JsonText
  | [] => []
  | item :: items => canonicalText item :: canonicalItems items

def canonicalMembers : List (Utf16 × JsonValue) → List (Utf16 × JsonText)
  | [] => []
  | (key,value) :: members => (key, canonicalText value) :: canonicalMembers members
end

theorem canonicalItems_eq_map (items : List JsonValue) :
    canonicalItems localeCompare items = items.map (canonicalText localeCompare) := by
  induction items with
  | nil => rfl
  | cons item items ih => rw [canonicalItems, ih, List.map_cons]

theorem canonicalMembers_eq_map (members : List (Utf16 × JsonValue)) :
    canonicalMembers localeCompare members =
      members.map fun m => (m.1, canonicalText localeCompare m.2) := by
  induction members with
  | nil => rfl
  | cons m members ih => rw [canonicalMembers, ih, List.map_cons]

theorem render_leafText (x : JsonLeaf) : JsonText.render (leafText x) = stringify x := by
  cases x with
  | null => rfl
  | bool b => cases b <;> rfl
  | number x => cases x <;> rfl
  | string s => rfl

/-- The canonical text is written from the tree of the sorted entries. -/
theorem render_canonicalText (v : JsonValue) :
    JsonText.render (canonicalText localeCompare v) = canonicalize localeCompare v := by
  induction v using JsonValue.induction with
  | leaf x => exact render_leafText x
  | array items ih =>
    have hitems : (items.map (canonicalText localeCompare)).map JsonText.render =
        items.map (canonicalize localeCompare) := by
      rw [List.map_map]
      exact List.map_congr_left ih
    rw [canonicalText, JsonText.render, JsonText.renderItems_eq_map, canonicalItems_eq_map, hitems,
      canonicalize, canonicalizeItems_eq_map]
  | object members ih =>
    have hsort : (sortEntries localeCompare (canonicalMembers localeCompare members)).map
          (fun m => (m.1, JsonText.render m.2)) =
        sortEntries localeCompare (canonicalizeMembers localeCompare members) := by
      rw [map_sortEntries, canonicalMembers_eq_map, List.map_map, canonicalizeMembers_eq_map]
      congr 1
      apply List.map_congr_left
      intro m hm
      exact Prod.ext rfl (ih m hm)
    rw [canonicalText, JsonText.render, JsonText.renderMembers_eq_map, canonicalize, ← hsort,
      List.map_map]
    rfl

theorem canonicalize_eq_iff_text (v w : JsonValue) :
    canonicalize localeCompare v = canonicalize localeCompare w ↔
      canonicalText localeCompare v = canonicalText localeCompare w := by
  rw [← render_canonicalText, ← render_canonicalText]
  exact JsonText.render_injective.eq_iff

theorem leafText_shown (x : JsonLeaf) : leafText (shown x) = leafText x := by
  cases x with
  | number x => cases x <;> rfl
  | null => rfl
  | bool b => rfl
  | string s => rfl

/-- No number text has a letter behind `e`. -/
theorem text_ne {x : Double} {s : Utf16} {u : UInt16} (hu : u ∈ s) (hletter : 101 < u.toNat) :
    x.text.map JsonText.unit ≠ s := by
  rintro rfl
  obtain ⟨c,hc,rfl⟩ := List.mem_map.mp hu
  have hnumber := x.isNumberChar_text hc
  have hrange := toNat_of_isNumberChar hnumber
  rw [unit_toNat hnumber] at hletter
  omega

open Classical in
/-- The leaf that a text shows. -/
noncomputable def leafOf : JsonText → JsonLeaf
  | .quoted s => .string s
  | .word w =>
    if w.text = "true".utf16 then .bool true
    else if w.text = "false".utf16 then .bool false
    else if h : ∃ x : Double, x.text.map JsonText.unit = w.text then .number (.finite h.choose)
    else .null
  | _ => .null

theorem leafOf_leafText (x : JsonLeaf) : leafOf (leafText x) = shown x := by
  have hnull : leafOf (.word ⟨"null".utf16, by decide, by decide⟩) = .null := by
    have hnone : ¬ ∃ x : Double, x.text.map JsonText.unit = "null".utf16 := by
      rintro ⟨x,hx⟩
      exact text_ne (u := 117) (by decide) (by decide) hx
    rw [leafOf, if_neg (by decide), if_neg (by decide), dif_neg hnone]
  cases x with
  | null => exact hnull
  | bool b =>
    cases b with
    | true =>
      rw [leafText, leafOf, if_pos rfl]
      rfl
    | false =>
      rw [leafText, leafOf, if_neg (by decide), if_pos rfl]
      rfl
  | number x =>
    cases x with
    | infinity negative => exact hnull
    | finite x =>
      have htrue : x.text.map JsonText.unit ≠ "true".utf16 :=
        text_ne (u := 117) (by decide) (by decide)
      have hfalse : x.text.map JsonText.unit ≠ "false".utf16 :=
        text_ne (u := 108) (by decide) (by decide)
      have hex : ∃ y : Double, y.text.map JsonText.unit = x.text.map JsonText.unit := ⟨x, rfl⟩
      have hchosen : hex.choose = x := by
        apply Double.text_injective
        apply map_unit_injective ?_ ?_ hex.choose_spec
        · exact fun c => Double.isNumberChar_text _
        · exact fun c => Double.isNumberChar_text _
      have hread : leafOf (leafText (.number (.finite x))) = .number (.finite hex.choose) :=
        (if_neg htrue).trans ((if_neg hfalse).trans (dif_pos hex))
      rw [hread, hchosen]
      rfl
  | string s => rfl

/-- Leaves share a text exactly when they are shown alike. -/
theorem leafText_eq_iff (x y : JsonLeaf) : leafText x = leafText y ↔ shown x = shown y := by
  constructor
  · intro h
    rw [← leafOf_leafText, h, leafOf_leafText]
  · intro h
    rw [← leafText_shown x, h, leafText_shown]

theorem leafText_cases (x : JsonLeaf) :
    (∃ w, leafText x = .word w) ∨ ∃ s, leafText x = .quoted s := by
  cases x with
  | null => exact Or.inl ⟨_, rfl⟩
  | bool b => cases b <;> exact Or.inl ⟨_, rfl⟩
  | number x => cases x <;> exact Or.inl ⟨_, rfl⟩
  | string s => exact Or.inr ⟨s, rfl⟩

theorem leafText_ne (x : JsonLeaf) {t : JsonText} (hword : ∀ w, JsonText.word w ≠ t)
    (hquoted : ∀ s, JsonText.quoted s ≠ t) : leafText x ≠ t := by
  rcases leafText_cases x with ⟨w,hw⟩ | ⟨s,hs⟩
  · rw [hw]
    exact hword w
  · rw [hs]
    exact hquoted s

theorem leafText_ne_array (x : JsonLeaf) (items : List JsonText) : leafText x ≠ .array items :=
  leafText_ne x (fun _ h => by cases h) fun _ h => by cases h

theorem leafText_ne_object (x : JsonLeaf) (members : List (Utf16 × JsonText)) :
    leafText x ≠ .object members :=
  leafText_ne x (fun _ h => by cases h) fun _ h => by cases h

theorem LocaleCompare.total_le : Std.Total fun a b => localeCompare.le a b = true where
  total a b := by
    unfold LocaleCompare.le
    rw [localeCompare.swap a b]
    cases localeCompare.compare a b with
    | lt => exact Or.inl rfl
    | eq => exact Or.inl rfl
    | gt => exact Or.inr rfl

theorem LocaleCompare.trans_le : IsTrans Utf16 fun a b => localeCompare.le a b = true where
  trans := localeCompare.trans

/-- Sorted entries with distinct keys agree when the entries do, and tied keys come in
the same order. -/
theorem sortEntries_eq_iff {α : Type*} {entries entries' : List (Utf16 × α)}
    (h : (entries.map Prod.fst).Nodup) (h' : (entries'.map Prod.fst).Nodup) :
    sortEntries localeCompare entries = sortEntries localeCompare entries' ↔
      ((entries.map Prod.fst).Perm (entries'.map Prod.fst) ∧
        SameTies (fun a b => localeCompare.le a b = true) (entries.map Prod.fst)
          (entries'.map Prod.fst)) ∧
      ∀ m ∈ entries, ∀ m' ∈ entries', m.1 = m'.1 → m.2 = m'.2 := by
  have htotal := localeCompare.total_le
  have htrans := localeCompare.trans_le
  unfold sortEntries
  rw [insertionSort_keys_eq_iff (fun a b => localeCompare.le a b = true) h, perm_iff_keys h h']
  tauto

/-- Lists have one image exactly when their elements do, place by place. -/
theorem map_eq_map_iff {α β : Type*} (f : α → β) (l l' : List α) : l.map f = l'.map f ↔
    l.length = l'.length ∧
      ∀ (i : ℕ) (a a' : α), l[i]? = some a → l'[i]? = some a' → f a = f a' := by
  constructor
  · intro h
    have hlength : l.length = l'.length := by rw [← List.length_map f, h, List.length_map]
    refine ⟨hlength, ?_⟩
    intro i a a' ha ha'
    have hat := congrArg (fun l : List β => l[i]?) h
    simp only [List.getElem?_map, ha, ha', Option.map_some, Option.some.injEq] at hat
    exact hat
  · rintro ⟨hlength,hsame⟩
    apply List.ext_getElem
    · rw [List.length_map, List.length_map, hlength]
    · intro i hi hi'
      rw [List.length_map] at hi hi'
      rw [List.getElem_map, List.getElem_map]
      exact hsame i _ _ (List.getElem?_eq_getElem hi) (List.getElem?_eq_getElem hi')

/-- The keys of corresponding objects are the same, with tied ones in the same order. -/
def SameKeys (ks ks' : List Utf16) : Prop :=
  ks.Perm ks' ∧ SameTies (fun a b => localeCompare.le a b = true) ks ks'

theorem canonicalText_array_iff {items items' : List JsonValue}
    (ih : ∀ item ∈ items, ∀ item' ∈ items', canonicalText localeCompare item =
        canonicalText localeCompare item' ↔
      Corresponds (fun x y => shown x = shown y) (SameKeys localeCompare) item item') :
    canonicalText localeCompare (.array items) = canonicalText localeCompare (.array items') ↔
      Corresponds (fun x y => shown x = shown y) (SameKeys localeCompare) (.array items)
        (.array items') := by
  rw [canonicalText, canonicalText, canonicalItems_eq_map, canonicalItems_eq_map,
    JsonText.array.injEq, map_eq_map_iff]
  constructor
  · rintro ⟨hlength,hsame⟩
    refine .array hlength ?_
    intro i v v' hv hv'
    exact (ih v (List.mem_of_getElem? hv) v' (List.mem_of_getElem? hv')).mp (hsame i v v' hv hv')
  · rintro (_ | ⟨hlength,hsame⟩)
    refine ⟨hlength, ?_⟩
    intro i v v' hv hv'
    exact (ih v (List.mem_of_getElem? hv) v' (List.mem_of_getElem? hv')).mpr (hsame i v v' hv hv')

theorem canonicalText_object_iff {members members' : List (Utf16 × JsonValue)}
    (hkeys : (keys members).Nodup) (hkeys' : (keys members').Nodup)
    (ih : ∀ m ∈ members, ∀ m' ∈ members', canonicalText localeCompare m.2 =
        canonicalText localeCompare m'.2 ↔
      Corresponds (fun x y => shown x = shown y) (SameKeys localeCompare) m.2 m'.2) :
    canonicalText localeCompare (.object members) = canonicalText localeCompare (.object members') ↔
      Corresponds (fun x y => shown x = shown y) (SameKeys localeCompare) (.object members)
        (.object members') := by
  have hnames (ms : List (Utf16 × JsonValue)) :
      (ms.map fun m => (m.1, canonicalText localeCompare m.2)).map Prod.fst = keys ms := by
    rw [List.map_map]
    rfl
  rw [canonicalText, canonicalText, canonicalMembers_eq_map, canonicalMembers_eq_map,
    JsonText.object.injEq, sortEntries_eq_iff localeCompare (by rw [hnames]; exact hkeys)
    (by rw [hnames]; exact hkeys'), hnames, hnames]
  constructor
  · rintro ⟨hsame,hvalues⟩
    refine .object hsame ?_
    intro m hm m' hm' hkey
    rw [← ih m hm m' hm']
    exact hvalues _ (List.mem_map_of_mem hm) _ (List.mem_map_of_mem hm') hkey
  · rintro (_ | _ | ⟨hsame,hvalues⟩)
    refine ⟨hsame, ?_⟩
    intro n hn n' hn' hkey
    obtain ⟨m,hm,rfl⟩ := List.mem_map.mp hn
    obtain ⟨m',hm',rfl⟩ := List.mem_map.mp hn'
    exact (ih m hm m' hm').mpr (hvalues m hm m' hm' hkey)

theorem canonicalText_eq_iff {v w : JsonValue} (hv : v.DistinctKeys) (hw : w.DistinctKeys) :
    canonicalText localeCompare v = canonicalText localeCompare w ↔
      Corresponds (fun x y => shown x = shown y) (SameKeys localeCompare) v w := by
  induction v using JsonValue.induction generalizing w with
  | leaf x =>
    cases w with
    | leaf y =>
      rw [canonicalText, canonicalText, leafText_eq_iff]
      constructor
      · intro h
        exact .leaf h
      · rintro ⟨h⟩
        exact h
    | array items => exact iff_of_false (leafText_ne_array x _) fun h => by cases h
    | object members => exact iff_of_false (leafText_ne_object x _) fun h => by cases h
  | array items ih =>
    cases w with
    | leaf y => exact iff_of_false (leafText_ne_array y _).symm fun h => by cases h
    | array items' =>
      cases hv with
      | array hitems =>
      cases hw with
      | array hitems' =>
        apply canonicalText_array_iff
        intro item hitem item' hitem'
        exact ih item hitem (hitems item hitem) (hitems' item' hitem')
    | object members => exact iff_of_false (fun h => by cases h) fun h => by cases h
  | object members ih =>
    cases w with
    | leaf y => exact iff_of_false (leafText_ne_object y _).symm fun h => by cases h
    | array items => exact iff_of_false (fun h => by cases h) fun h => by cases h
    | object members' =>
      cases hv with
      | object hkeys hmembers =>
      cases hw with
      | object hkeys' hmembers' =>
        apply canonicalText_object_iff localeCompare hkeys hkeys'
        intro m hm m' hm'
        exact ih m hm (hmembers m hm) (hmembers' m' hm')

theorem canonicalize_eq_iff {v w : JsonValue} (hv : v.DistinctKeys) (hw : w.DistinctKeys) :
    canonicalize localeCompare v = canonicalize localeCompare w ↔
      SameWithoutInfinities v w ∧ TiesAgree localeCompare v w := by
  rw [canonicalize_eq_iff_text, canonicalText_eq_iff localeCompare hv hw]
  constructor
  · intro h
    exact ⟨h.mono (fun _ _ hxy => hxy) fun _ _ hkeys => hkeys.1,
      h.mono (fun _ _ _ => trivial) fun _ _ hkeys => hkeys.2⟩
  · rintro ⟨hsame,hties⟩
    exact (hsame.and hties).mono (fun _ _ hxy => hxy.1) fun _ _ hkeys => hkeys

/-- In no object does `localeCompare` tie two keys. -/
inductive UntiedKeys : JsonValue → Prop
  | leaf (x : JsonLeaf) : UntiedKeys (.leaf x)
  | array {items : List JsonValue} (hitems : ∀ item ∈ items, UntiedKeys item) :
      UntiedKeys (.array items)
  | object {members : List (Utf16 × JsonValue)}
      (hkeys : ∀ a ∈ keys members, ∀ b ∈ keys members, localeCompare.le a b = true →
        localeCompare.le b a = true → a = b)
      (hmembers : ∀ m ∈ members, UntiedKeys m.2) : UntiedKeys (.object members)

theorem tiesAgree_of_untied {v w : JsonValue} (hv : v.DistinctKeys)
    (huntied : UntiedKeys localeCompare v) (h : v.SameUpToOrder w) :
    TiesAgree localeCompare v w := by
  induction h with
  | leaf _ => exact .leaf trivial
  | array hlength _ ih =>
    cases hv with
    | array hitems =>
    cases huntied with
    | array huntied =>
    refine .array hlength ?_
    intro i item item' hitem hitem'
    have hmem := List.mem_of_getElem? hitem
    exact ih i item item' hitem hitem' (hitems item hmem) (huntied item hmem)
  | object hperm _ ih =>
    cases hv with
    | object hnodup hmembers =>
    cases huntied with
    | object hkeys huntied =>
    refine .object (sameTies_of_untied hnodup hperm hkeys) ?_
    intro m hm m' hm' hkey
    exact ih m hm m' hm' hkey (hmembers m hm) (huntied m hm)

/-- The order of members does not show where `localeCompare` ties no two of their keys. -/
theorem canonicalize_eq_of_untied {v w : JsonValue} (hv : v.DistinctKeys) (hw : w.DistinctKeys)
    (huntied : UntiedKeys localeCompare v) (h : v.SameUpToOrder w) :
    canonicalize localeCompare v = canonicalize localeCompare w := by
  rw [canonicalize_eq_iff localeCompare hv hw]
  have hsame : SameWithoutInfinities v w :=
    h.mono (fun _ _ hxy => congrArg shown hxy) fun _ _ hkeys => hkeys
  exact ⟨hsame, tiesAgree_of_untied localeCompare hv huntied h⟩

/-- Values that are equal up to the order of members have one canonical text exactly
when tied keys come in the same order. -/
theorem canonicalize_reordered_iff {v w : JsonValue} (hv : v.DistinctKeys) (hw : w.DistinctKeys)
    (h : v.SameUpToOrder w) :
    canonicalize localeCompare v = canonicalize localeCompare w ↔ TiesAgree localeCompare v w := by
  rw [canonicalize_eq_iff localeCompare hv hw]
  apply and_iff_right
  exact h.mono (fun _ _ hxy => congrArg shown hxy) fun _ _ hkeys => hkeys

end Canonical

/-- A comparison by keys from a linear order. -/
def LocaleCompare.byKey {κ : Type*} [LinearOrder κ] (key : Utf16 → κ) : LocaleCompare where
  compare a b := cmp (key a) (key b)
  swap a b := (cmp_swap (key a) (key b)).symm
  trans a b c hab hbc := by
    have hle (x y : κ) : (cmp x y).isLE = true ↔ x ≤ y := by
      rw [← Ordering.ne_gt_iff_isLE, cmp_eq_gt_iff, not_lt]
    rw [hle] at hab hbc ⊢
    exact hab.trans hbc

/-- Code units with the acute e taken apart. -/
def decomposed (s : Utf16) : List ℕ :=
  s.flatMap fun u => if u = 0xE9 then [0x65, 0x301] else [u.toNat]

def sampleLocale : LocaleCompare := .byKey decomposed

def flags (members : List (Utf16 × Bool)) : JsonValue :=
  .object (members.map fun m => (m.1, .leaf (.bool m.2)))

theorem keys_flags (members : List (Utf16 × Bool)) :
    keys (members.map fun m => (m.1, .leaf (.bool m.2))) = members.map Prod.fst := by
  rw [keys, List.map_map]
  rfl

theorem distinctKeys_flags {members : List (Utf16 × Bool)} (h : (members.map Prod.fst).Nodup) :
    (flags members).DistinctKeys := by
  refine .object (by rw [keys_flags]; exact h) ?_
  intro m hm
  obtain ⟨n,_,rfl⟩ := List.mem_map.mp hm
  exact .leaf _

/-- Rearranged members are equal up to their order. -/
theorem sameUpToOrder_flags {members members' : List (Utf16 × Bool)}
    (h : (members.map Prod.fst).Nodup) (hperm : members.Perm members') :
    (flags members).SameUpToOrder (flags members') := by
  refine .object (by rw [keys_flags, keys_flags]; exact hperm.map _) ?_
  intro m hm m' hm' hkey
  obtain ⟨n,hn,rfl⟩ := List.mem_map.mp hm
  obtain ⟨n',hn',rfl⟩ := List.mem_map.mp hm'
  have hsame : n = n' := List.inj_on_of_nodup_map h hn (hperm.symm.subset hn') hkey
  rw [hsame]
  exact .leaf rfl

/-- One key in its two spellings, in both orders. -/
def composedFirst : JsonValue := flags [([0xE9], true), ([0x65, 0x301], false)]

def composedLast : JsonValue := flags [([0x65, 0x301], false), ([0xE9], true)]

theorem reordered_spellings_differ : composedFirst.DistinctKeys ∧ composedLast.DistinctKeys ∧
    composedFirst.SameUpToOrder composedLast ∧
    canonicalize sampleLocale composedFirst ≠ canonicalize sampleLocale composedLast :=
  ⟨distinctKeys_flags (by decide), distinctKeys_flags (by decide),
    sameUpToOrder_flags (by decide) (List.Perm.swap _ _ []), by decide⟩

def paidFirst : JsonValue := flags [("paid".utf16, true), ("final".utf16, false)]

def paidLast : JsonValue := flags [("final".utf16, false), ("paid".utf16, true)]

theorem untiedKeys_paidFirst : UntiedKeys sampleLocale paidFirst := by
  refine .object ?_ ?_
  · rw [keys_flags]
    decide
  · intro m hm
    obtain ⟨n,_,rfl⟩ := List.mem_map.mp hm
    exact .leaf _

theorem reordered_flags_agree :
    canonicalize sampleLocale paidFirst = canonicalize sampleLocale paidLast := by
  have hfirst : paidFirst.DistinctKeys := distinctKeys_flags (by decide)
  have hlast : paidLast.DistinctKeys := distinctKeys_flags (by decide)
  have hsame : paidFirst.SameUpToOrder paidLast :=
    sameUpToOrder_flags (by decide) (List.Perm.swap _ _ [])
  rw [canonicalize_reordered_iff sampleLocale hfirst hlast hsame]
  exact tiesAgree_of_untied sampleLocale hfirst untiedKeys_paidFirst hsame

/-! What the canonical text does not show of two parsed events. -/

/-- Different values that become equal up to the order of members, with tied keys in the
same order, once infinite numbers are null. -/
def DifferInInfinitiesOnly (localeCompare : LocaleCompare) (v w : JsonValue) : Prop :=
  ¬ v.SameUpToOrder w ∧ SameWithoutInfinities v w ∧ TiesAgree localeCompare v w

namespace ParsedEvent

theorem distinctKeys_of_isRecord {value : Option JsonValue} {data : List (Utf16 × JsonValue)}
    (hvalue : ∀ v, value = some v → v.DistinctKeys) (h : isRecord value = some data) :
    (JsonValue.object data).DistinctKeys := by
  unfold isRecord at h
  split at h
  · cases h
    exact hvalue _ rfl
  · cases h

theorem distinctKeys_get {candidate : JsonValue} (h : candidate.DistinctKeys) (key : Utf16)
    (v : JsonValue) (hget : candidate.get key = some v) : v.DistinctKeys := by
  cases h with
  | leaf x => cases hget
  | array hitems => cases hget
  | object hkeys hmembers =>
    exact hmembers (key, v) ((InsertionMap.lookup_eq_some_iff hkeys _ _).mp hget)

theorem data_of_parsePayload {candidate : JsonValue} {event : ParsedEvent}
    (h : parsePayload candidate = some event) :
    event.data = isRecord (candidate.get "data".utf16) := by
  unfold parsePayload at h
  split at h
  · cases h
    rfl
  · cases h

theorem keys_filterMap_sublist (entries : List (String × Option JsonValue)) :
    (keys (entries.filterMap fun (key,entry) => entry.map fun entry => (key.utf16, entry))).Sublist
      (entries.map fun m => m.1.utf16) := by
  induction entries with
  | nil => exact List.Sublist.slnil
  | cons m entries ih =>
    obtain ⟨key,entry⟩ := m
    cases entry with
    | none => exact ih.cons _
    | some v => exact ih.cons_cons _

theorem nodup_keys (event : ParsedEvent) : (keys (event.entries.filterMap
    fun (key,entry) => entry.map fun entry => (key.utf16, entry))).Nodup := by
  have hnames : (event.entries.map fun m => m.1.utf16).Nodup := by
    change (["eventId", "eventType", "streamId", "occurredAt", "chainId", "transactionHash",
      "sequence", "data"].map String.utf16).Nodup
    decide
  exact hnames.sublist (keys_filterMap_sublist event.entries)

/-- The names of the members are fixed, and the record under `data` is the payload's. -/
theorem distinctKeys_value {candidate : JsonValue} {event : ParsedEvent}
    (h : candidate.DistinctKeys) (hparse : parsePayload candidate = some event) :
    event.value.DistinctKeys := by
  refine .object (nodup_keys event) ?_
  intro m hm
  obtain ⟨⟨key,entry⟩,hentry,hsome⟩ := List.mem_filterMap.mp hm
  obtain ⟨v,hv,rfl⟩ := Option.map_eq_some_iff.mp hsome
  have hstring {s : Option Utf16} {w : JsonValue} (hw : s.map stringValue = some w) :
      w.DistinctKeys := by
    obtain ⟨t,_,rfl⟩ := Option.map_eq_some_iff.mp hw
    exact .leaf _
  have hdata (ms : List (Utf16 × JsonValue)) (hms : event.data = some ms) :
      (JsonValue.object ms).DistinctKeys := by
    apply distinctKeys_of_isRecord (distinctKeys_get h "data".utf16)
    rw [← data_of_parsePayload hparse, hms]
  simp only [entries, List.mem_cons, Prod.mk.injEq, List.not_mem_nil, or_false] at hentry
  rcases hentry with ⟨_,rfl⟩ | ⟨_,rfl⟩ | ⟨_,rfl⟩ | ⟨_,rfl⟩ | ⟨_,rfl⟩ | ⟨_,rfl⟩ | ⟨_,rfl⟩ | ⟨_,rfl⟩
  · exact hstring (s := some event.eventId) hv
  · exact hstring (s := some event.eventType) hv
  · exact hstring (s := some event.streamId) hv
  · exact hstring (s := some event.occurredAt) hv
  · exact hstring hv
  · exact hstring hv
  · obtain ⟨x,_,rfl⟩ := Option.map_eq_some_iff.mp hv
    exact .leaf _
  · obtain ⟨ms,hms,rfl⟩ := Option.map_eq_some_iff.mp hv
    exact hdata ms hms

/-- Two events that are not equal up to the order of members have different canonical
texts unless they differ in infinite numbers only. -/
theorem canonicalize_ne_iff (localeCompare : LocaleCompare) {payload payload' : JsonValue}
    (h : payload.DistinctKeys) (h' : payload'.DistinctKeys) {event event' : ParsedEvent}
    (hparse : parsePayload payload = some event) (hparse' : parsePayload payload' = some event') :
    (¬ event.value.SameUpToOrder event'.value →
        canonicalize localeCompare event.value ≠ canonicalize localeCompare event'.value) ↔
      ¬ DifferInInfinitiesOnly localeCompare event.value event'.value := by
  rw [ne_eq, canonicalize_eq_iff localeCompare (distinctKeys_value h hparse)
    (distinctKeys_value h' hparse')]
  exact not_and.symm

/-- A payload with one member under `data`. -/
def samplePayload (amount : JsonValue) : JsonValue :=
  .object [("eventId".utf16, stringValue "event-1".utf16),
    ("eventType".utf16, stringValue "settled".utf16),
    ("streamId".utf16, stringValue "stream-1".utf16),
    ("occurredAt".utf16, stringValue "2026-01-01T00:00:00Z".utf16),
    ("data".utf16, .object [("amount".utf16, amount)])]

/-- The event of `samplePayload`. -/
def sampleParsed (amount : JsonValue) : ParsedEvent where
  eventId := "event-1".utf16
  eventType := "settled".utf16
  streamId := "stream-1".utf16
  occurredAt := "2026-01-01T00:00:00Z".utf16
  chainId := none
  transactionHash := none
  sequence := none
  data := some [("amount".utf16, amount)]

theorem parsePayload_samplePayload (amount : JsonValue) :
    parsePayload (samplePayload amount) = some (sampleParsed amount) := by
  rfl

theorem distinctKeys_samplePayload (x : JsonLeaf) :
    (samplePayload (.leaf x)).DistinctKeys := by
  have hdata : (JsonValue.object [("amount".utf16, .leaf x)]).DistinctKeys := by
    refine .object (List.nodup_singleton _) ?_
    intro m hm
    rw [List.mem_singleton.mp hm]
    exact .leaf x
  have hkeys : (["eventId", "eventType", "streamId", "occurredAt", "data"].map
      String.utf16).Nodup := by
    decide
  refine .object hkeys ?_
  intro m hm
  simp only [List.mem_cons, List.not_mem_nil, or_false] at hm
  rcases hm with rfl | rfl | rfl | rfl | rfl
  · exact .leaf _
  · exact .leaf _
  · exact .leaf _
  · exact .leaf _
  · exact hdata

/-- Events whose payloads differ in one amount correspond only when the amounts do. -/
theorem amount_of_corresponds {L : JsonLeaf → JsonLeaf → Prop} {O : List Utf16 → List Utf16 → Prop}
    {x y : JsonLeaf}
    (h : Corresponds L O (sampleParsed (.leaf x)).value (sampleParsed (.leaf y)).value) :
    L x y := by
  cases h with
  | object _ hmembers =>
    have hdata := hmembers ("data".utf16, .object [("amount".utf16, .leaf x)])
      (by simp [sampleParsed, entries]) ("data".utf16, .object [("amount".utf16, .leaf y)])
      (by simp [sampleParsed, entries]) rfl
    cases hdata with
    | object _ hamounts =>
      have hamount := hamounts ("amount".utf16, .leaf x) (by simp) ("amount".utf16, .leaf y)
        (by simp) rfl
      cases hamount with
      | leaf hxy => exact hxy

/-- An infinite amount and a null one. -/
theorem infinite_amount_unseen :
    (samplePayload (.leaf (.number (.infinity false)))).DistinctKeys ∧
    (samplePayload (.leaf .null)).DistinctKeys ∧
    parsePayload (samplePayload (.leaf (.number (.infinity false)))) =
      some (sampleParsed (.leaf (.number (.infinity false)))) ∧
    parsePayload (samplePayload (.leaf .null)) = some (sampleParsed (.leaf .null)) ∧
    ¬ (sampleParsed (.leaf (.number (.infinity false)))).value.SameUpToOrder
      (sampleParsed (.leaf .null)).value ∧
    canonicalize sampleLocale (sampleParsed (.leaf (.number (.infinity false)))).value =
      canonicalize sampleLocale (sampleParsed (.leaf .null)).value :=
  ⟨distinctKeys_samplePayload _, distinctKeys_samplePayload _, parsePayload_samplePayload _,
    parsePayload_samplePayload _, fun h => absurd (amount_of_corresponds h) (by decide), by rfl⟩

theorem boolean_amounts_differ :
    canonicalize sampleLocale (sampleParsed (.leaf (.bool true))).value ≠
      canonicalize sampleLocale (sampleParsed (.leaf (.bool false))).value := by
  have hdiffer : ¬ DifferInInfinitiesOnly sampleLocale (sampleParsed (.leaf (.bool true))).value
      (sampleParsed (.leaf (.bool false))).value := by
    rintro ⟨_,hsame,_⟩
    exact absurd (amount_of_corresponds hsame) (by decide)
  have hother : ¬ (sampleParsed (.leaf (.bool true))).value.SameUpToOrder
      (sampleParsed (.leaf (.bool false))).value :=
    fun h => absurd (amount_of_corresponds h) (by decide)
  have htrue := distinctKeys_samplePayload (.bool true)
  have hfalse := distinctKeys_samplePayload (.bool false)
  exact (canonicalize_ne_iff sampleLocale htrue hfalse (parsePayload_samplePayload _)
    (parsePayload_samplePayload _)).mpr hdiffer hother

end ParsedEvent

end StreamPay
