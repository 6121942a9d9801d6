import Mathlib.Data.List.TakeWhile
import StreamPay.Library.JsString

/-! The routing of Express 4. Paths are matched segment by segment, without
regard to case and with an optional slash at the end; the first route of a
router that fits the path and the method handles the request. -/

namespace Express

inductive HttpMethod
  | get | head | post | put | patch | delete | options
  | other (name : String)
  deriving DecidableEq

/-- A route for GET serves HEAD too. -/
def HttpMethod.serves (route method : HttpMethod) : Bool :=
  route = method || (route = .get && method = .head)

theorem HttpMethod.of_get_serves {method : HttpMethod} (h : HttpMethod.get.serves method = true) :
    method = .get ∨ method = .head := by
  rcases Bool.or_eq_true_iff.mp h with hget | hhead
  · exact Or.inl (of_decide_eq_true hget).symm
  · exact Or.inr (of_decide_eq_true (Bool.and_eq_true_iff.mp hhead).2)

/-- What follows a text at the start of a path, in upper or lower case. -/
def dropText (text path : List Char) : Option (List Char) :=
  if (path.take text.length).map Char.toLower = text then some (path.drop text.length) else none

/-- `use` under a prefix: the path that the mounted handlers see. The prefix may
take a slash behind it, if another one or the end follows. -/
def mount (text path : List Char) : Option (List Char) :=
  match dropText text path with
  | none => none
  | some [] => some ['/']
  | some ['/'] => some ['/']
  | some ('/' :: '/' :: rest) => some ('/' :: rest)
  | some ('/' :: rest) => some ('/' :: rest)
  | some _ => none

inductive Segment
  | literal (text : List Char)
  /-- `:id` and the like. -/
  | param

/-- The parameters of a path that a pattern fits, as they stand in the path. -/
def matchPath : List Segment → List Char → Option (List (List Char))
  | [], [] => some []
  | [], ['/'] => some []
  | .literal text :: pattern, '/' :: path => (dropText text path).bind (matchPath pattern)
  | .param :: pattern, '/' :: path =>
    let value := path.takeWhile (· ≠ '/')
    if value.isEmpty then none
    else (matchPath pattern (path.dropWhile (· ≠ '/'))).map (value :: ·)
  | _, _ => none

theorem of_matchPath_nil {path : List Char} {values : List (List Char)}
    (h : matchPath [] path = some values) : path = [] ∨ path = ['/'] := by
  unfold matchPath at h
  split at h
  · exact Or.inl rfl
  · exact Or.inr rfl
  · rename_i hpattern
    cases hpattern
  · rename_i hpattern
    cases hpattern
  · cases h

/-- What is left of a path begins with a slash. -/
theorem mount_ne_nil {text path rest : List Char} (h : mount text path = some rest) : rest ≠ [] := by
  rintro rfl
  unfold mount at h
  split at h <;> cases h

/-- The bytes of a text in which each `%` stands before two hexadecimal digits. -/
def percentDecode : List Char → Option (List UInt8)
  | [] => some []
  | '%' :: high :: low :: rest =>
    (hexDigit high).bind fun high => (hexDigit low).bind fun low =>
      (percentDecode rest).map ((16*high+low).toUInt8 :: ·)
  | '%' :: _ => none
  | c :: rest => (percentDecode rest).map (String.utf8EncodeChar c ++ ·)

/-- `none` where the function throws a URIError. -/
def decodeURIComponent (text : List Char) : Option String :=
  (percentDecode text).bind fun bytes => String.fromUTF8? bytes.toByteArray

structure Route (ρ : Type*) where
  method : HttpMethod
  pattern : List Segment
  handler : List String → ρ

inductive Dispatch (ρ : Type*)
  | handled (response : ρ)
  /-- A parameter could not be decoded. -/
  | malformed
  | unmatched

/-- A router without middleware, on a path in its mount. -/
def dispatch {ρ : Type*} (method : HttpMethod) (path : List Char) : List (Route ρ) → Dispatch ρ
  | [] => .unmatched
  | route :: rest =>
    match matchPath route.pattern path with
    | none => dispatch method path rest
    | some values =>
      match values.mapM decodeURIComponent with
      -- an error ends the search, whatever method the route is for
      | none => .malformed
      | some params =>
        if route.method.serves method then .handled (route.handler params)
        else dispatch method path rest

theorem percentDecode_of_plain {text : List Char} (h : '%' ∉ text) :
    percentDecode text = some (text.flatMap String.utf8EncodeChar) := by
  induction text with
  | nil => simp [percentDecode]
  | cons c rest ih =>
    obtain ⟨hc,hrest⟩ := not_or.mp (mt List.mem_cons.mpr h)
    have hplain : percentDecode (c :: rest) =
        (percentDecode rest).map (String.utf8EncodeChar c ++ ·) := by
      rw [percentDecode]
      · exact fun _ _ _ he => absurd he.symm hc
      · exact fun he => absurd he.symm hc
    rw [hplain, ih hrest]
    rfl

/-- A text without percent signs stands for itself. -/
theorem decodeURIComponent_of_plain {text : List Char} (h : '%' ∉ text) :
    decodeURIComponent text = some (String.ofList text) := by
  rw [decodeURIComponent, percentDecode_of_plain h, Option.bind_some, String.fromUTF8?]
  exact dif_pos ⟨text, rfl⟩

/-- What a router makes of a request comes from a route that fits it. -/
theorem exists_route_of_dispatch {ρ : Type*} {method : HttpMethod} {path : List Char}
    {routes : List (Route ρ)} {response : ρ} (h : dispatch method path routes = .handled response) :
    ∃ route ∈ routes, ∃ values params, matchPath route.pattern path = some values ∧
      values.mapM decodeURIComponent = some params ∧ route.method.serves method = true ∧
      response = route.handler params := by
  induction routes with
  | nil => cases h
  | cons route rest ih =>
    simp only [dispatch] at h
    split at h
    · obtain ⟨later,hlater,hfits⟩ := ih h
      exact ⟨later, List.mem_cons_of_mem _ hlater, hfits⟩
    · rename_i values hvalues
      split at h
      · cases h
      · rename_i params hparams
        split_ifs at h with hserves
        · exact ⟨route, List.mem_cons_self, values, params, hvalues, hparams, hserves,
            (Dispatch.handled.inj h).symm⟩
        · obtain ⟨later,hlater,hfits⟩ := ih h
          exact ⟨later, List.mem_cons_of_mem _ hlater, hfits⟩

end Express
