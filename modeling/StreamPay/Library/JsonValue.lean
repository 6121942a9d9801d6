import StreamPay.Library.Double
import StreamPay.Library.InsertionMap
import StreamPay.Library.JsString

/-! JSON values as `JSON.parse` yields them: strings of code units, doubles with the
infinities that large literals become, and objects with their members in order. -/

inductive JsonNumber
  | finite (x : Double)
  | infinity (negative : Bool)
  deriving DecidableEq

/-- A value that is not an object, to `typeof` or because it is null. -/
inductive JsonLeaf
  | null
  | bool (b : Bool)
  | number (x : JsonNumber)
  | string (s : Utf16)
  deriving DecidableEq

inductive JsonValue
  | leaf (x : JsonLeaf)
  | array (items : List JsonValue)
  | object (members : List (Utf16 × JsonValue))

namespace JsonValue

def keys (members : List (Utf16 × JsonValue)) : List Utf16 := members.map Prod.fst

/-- `value[key]` for a key that only objects carry; `none` is `undefined`. -/
def get (value : JsonValue) (key : Utf16) : Option JsonValue :=
  match value with
  | .object members => members.lookup key
  | _ => none

/-- The string under a key, `none` for every other type. -/
def getString (value : JsonValue) (key : Utf16) : Option Utf16 :=
  match value.get key with
  | some (.leaf (.string s)) => some s
  | _ => none

/-- The number under a key, `none` for every other type. -/
def getNumber (value : JsonValue) (key : Utf16) : Option JsonNumber :=
  match value.get key with
  | some (.leaf (.number x)) => some x
  | _ => none

/-- The array under a key, `none` for every other type. -/
def getArray (value : JsonValue) (key : Utf16) : Option (List JsonValue) :=
  match value.get key with
  | some (.array items) => some items
  | _ => none

/-- `value && typeof value === "object"`, which holds of arrays too. -/
def isObjectOrArray : JsonValue → Bool
  | .leaf _ => false
  | _ => true

/-- A property of a value that follows from that of its parts. -/
@[elab_as_elim]
theorem induction {motive : JsonValue → Prop} (leaf : ∀ x, motive (.leaf x))
    (array : ∀ items, (∀ item ∈ items, motive item) → motive (.array items))
    (object : ∀ members, (∀ m ∈ members, motive m.2) → motive (.object members)) :
    ∀ v, motive v
  | .leaf x => leaf x
  | .array items => array items fun item hitem =>
    have hsize := List.sizeOf_lt_of_mem hitem
    induction leaf array object item
  | .object members => object members fun m hm =>
    have hsize := List.sizeOf_lt_of_mem hm
    have hvalue : sizeOf m.2 < sizeOf m := by
      cases m
      simp only [Prod.mk.sizeOf_spec]
      omega
    induction leaf array object m.2

/-- No object repeats a key, at any depth. -/
inductive DistinctKeys : JsonValue → Prop
  | leaf (x : JsonLeaf) : DistinctKeys (.leaf x)
  | array {items : List JsonValue} (hitems : ∀ item ∈ items, DistinctKeys item) :
      DistinctKeys (.array items)
  | object {members : List (Utf16 × JsonValue)} (hkeys : (keys members).Nodup)
      (hmembers : ∀ m ∈ members, DistinctKeys m.2) : DistinctKeys (.object members)

/-- Values of one shape: corresponding leaves are related by `L`, the keys of
corresponding objects by `O`. Members correspond by their keys. -/
inductive Corresponds (L : JsonLeaf → JsonLeaf → Prop) (O : List Utf16 → List Utf16 → Prop) :
    JsonValue → JsonValue → Prop
  | leaf {x y : JsonLeaf} (h : L x y) : Corresponds L O (.leaf x) (.leaf y)
  | array {items items' : List JsonValue} (hlength : items.length = items'.length)
      (hitems : ∀ (i : ℕ) (v v' : JsonValue), items[i]? = some v → items'[i]? = some v' →
        Corresponds L O v v') :
      Corresponds L O (.array items) (.array items')
  | object {members members' : List (Utf16 × JsonValue)} (hkeys : O (keys members) (keys members'))
      (hmembers : ∀ m ∈ members, ∀ m' ∈ members', m.1 = m'.1 → Corresponds L O m.2 m'.2) :
      Corresponds L O (.object members) (.object members')

/-- Equal up to the order of members, at every depth. -/
def SameUpToOrder : JsonValue → JsonValue → Prop := Corresponds (· = ·) List.Perm

section Corresponds
variable {L L' : JsonLeaf → JsonLeaf → Prop} {O O' : List Utf16 → List Utf16 → Prop}
  {v w : JsonValue}

theorem Corresponds.mono (h : Corresponds L O v w) (hL : ∀ x y, L x y → L' x y)
    (hO : ∀ ks ks', O ks ks' → O' ks ks') : Corresponds L' O' v w := by
  induction h with
  | leaf hxy => exact .leaf (hL _ _ hxy)
  | array hlength _ ih => exact .array hlength ih
  | object hkeys _ ih => exact .object (hO _ _ hkeys) ih

theorem Corresponds.and (h : Corresponds L O v w) (h' : Corresponds L' O' v w) :
    Corresponds (fun x y => L x y ∧ L' x y) (fun ks ks' => O ks ks' ∧ O' ks ks') v w := by
  induction h with
  | leaf hxy =>
    cases h' with
    | leaf hxy' => exact .leaf ⟨hxy, hxy'⟩
  | array hlength _ ih =>
    cases h' with
    | array _ hitems' =>
      refine .array hlength ?_
      intro i v v' hv hv'
      exact ih i v v' hv hv' (hitems' i v v' hv hv')
  | object hkeys _ ih =>
    cases h' with
    | object hkeys' hmembers' =>
      refine .object ⟨hkeys, hkeys'⟩ ?_
      intro m hm m' hm' hkey
      exact ih m hm m' hm' hkey (hmembers' m hm m' hm' hkey)

end Corresponds

theorem lookup_eq_none_iff_not_mem {members : List (Utf16 × JsonValue)} {key : Utf16} :
    members.lookup key = none ↔ key ∉ keys members := by
  rw [List.lookup_eq_none_iff, keys]
  constructor
  · intro h hmem
    obtain ⟨m,hm,rfl⟩ := List.mem_map.mp hmem
    simpa using h m hm
  · intro h m hm
    have hne : key ≠ m.1 := fun he => h (he ▸ List.mem_map_of_mem hm)
    simpa using hne

/-- The order of members does not show in what stands under a key. -/
theorem get_sameUpToOrder {v w : JsonValue} (hv : v.DistinctKeys) (hw : w.DistinctKeys)
    (h : v.SameUpToOrder w) (key : Utf16) :
    Option.Rel SameUpToOrder (v.get key) (w.get key) := by
  cases h with
  | leaf _ => exact .none
  | array _ _ => exact .none
  | @object members members' hperm hcorresponds =>
    cases hv with
    | object hnodup _ =>
    cases hw with
    | object hnodup' _ =>
    change Option.Rel _ (members.lookup key) (members'.lookup key)
    cases hlookup : members.lookup key with
    | none =>
      rw [lookup_eq_none_iff_not_mem, hperm.mem_iff, ← lookup_eq_none_iff_not_mem] at hlookup
      rw [hlookup]
      exact .none
    | some x =>
      have hmem := (InsertionMap.lookup_eq_some_iff hnodup _ _).mp hlookup
      have hkey : key ∈ keys members' := hperm.subset (List.mem_map_of_mem hmem)
      obtain ⟨m',hm',rfl⟩ := List.mem_map.mp hkey
      rw [(InsertionMap.lookup_eq_some_iff hnodup' _ _).mpr hm']
      exact .some (hcorresponds _ hmem m' hm' rfl)

/-- Objects that list corresponding members are equal up to the order of members. -/
theorem object_sameUpToOrder {members members' : List (Utf16 × JsonValue)}
    (hnodup : (keys members).Nodup)
    (h : List.Forall₂ (fun m m' => m.1 = m'.1 ∧ SameUpToOrder m.2 m'.2) members members') :
    SameUpToOrder (.object members) (.object members') := by
  have hkeys : keys members = keys members' := by
    clear hnodup
    induction h with
    | nil => rfl
    | cons hm _ ih => exact congrArg₂ List.cons hm.1 ih
  refine .object (List.Perm.of_eq hkeys) ?_
  intro m hm m' hm' hkey
  obtain ⟨n,hn,hnkey,hsame⟩ : ∃ n ∈ members, n.1 = m'.1 ∧ SameUpToOrder n.2 m'.2 := by
    clear hnodup hkeys hm
    induction h with
    | nil => cases hm'
    | @cons n n' _ _ hrel _ ih =>
      rcases List.mem_cons.mp hm' with rfl | hmem
      · exact ⟨n, List.mem_cons_self, hrel⟩
      · obtain ⟨x,hx,hrel'⟩ := ih hmem
        exact ⟨x, List.mem_cons_of_mem _ hx, hrel'⟩
  have he : m = n := List.inj_on_of_nodup_map hnodup hm hn (hkey.trans hnkey.symm)
  rw [he]
  exact hsame

end JsonValue
