import Mathlib.Data.List.Basic
import StreamPay.Library.JsonText

/-! Components of URIs and of forms: what `encodeURIComponent` makes of a text, and what a
parser of `application/x-www-form-urlencoded` reads of it. -/

/-- The characters of the code units; a surrogate that stands alone is none. -/
def Utf16.chars : Utf16 → Option (List Char)
  | [] => some []
  | [u] =>
    if JsonText.isHighSurrogate u || JsonText.isLowSurrogate u then none
    else some [Char.ofNat u.toNat]
  | u :: v :: rest =>
    if JsonText.isHighSurrogate u && JsonText.isLowSurrogate v then
      (chars rest).map (Char.ofNat (0x10000+(u.toNat-0xD800)*0x400+(v.toNat-0xDC00)) :: ·)
    else if JsonText.isHighSurrogate u || JsonText.isLowSurrogate u then none
    else (chars (v :: rest)).map (Char.ofNat u.toNat :: ·)

namespace Utf16
open JsonText

theorem surrogate_eq {u : UInt16} :
    (isHighSurrogate u = true ↔ 0xD800 ≤ u.toNat ∧ u.toNat ≤ 0xDBFF) ∧
    (isLowSurrogate u = true ↔ 0xDC00 ≤ u.toNat ∧ u.toNat ≤ 0xDFFF) := by
  simp only [isHighSurrogate, isLowSurrogate, Bool.and_eq_true, decide_eq_true_eq,
    UInt16.le_iff_toNat_le]
  exact ⟨Iff.rfl, Iff.rfl⟩

/-- A unit that is no surrogate is a character for itself. -/
theorem chars_cons {u : UInt16} (hhigh : isHighSurrogate u = false)
    (hlow : isLowSurrogate u = false) (rest : Utf16) :
    chars (u :: rest) = (chars rest).map (Char.ofNat u.toNat :: ·) := by
  cases rest with
  | nil => simp [chars, hhigh, hlow]
  | cons v rest => simp [chars, hhigh, hlow]

theorem chars_utf16 (c : Char) (rest : Utf16) :
    chars (c.utf16 ++ rest) = (chars rest).map (c :: ·) := by
  have hrange := c.toNat_range
  unfold Char.utf16
  split_ifs with hsmall
  · have hnat := Nat.toNat_toUInt16_of_lt hsmall
    have hhigh : isHighSurrogate c.toNat.toUInt16 = false := by
      rw [Bool.eq_false_iff, ne_eq, surrogate_eq.1, hnat]
      omega
    have hlow : isLowSurrogate c.toNat.toUInt16 = false := by
      rw [Bool.eq_false_iff, ne_eq, surrogate_eq.2, hnat]
      omega
    rw [List.singleton_append, chars_cons hhigh hlow, hnat, Char.ofNat_toNat]
  · have hnat := Nat.toNat_toUInt16_of_lt
      (by omega : 0xD800+(c.toNat-0x10000)/0x400 < 0x10000)
    have hnat' := Nat.toNat_toUInt16_of_lt
      (by omega : 0xDC00+(c.toNat-0x10000) % 0x400 < 0x10000)
    have hhigh := surrogate_eq.1.mpr (by rw [hnat]; omega)
    have hlow := surrogate_eq.2.mpr (by rw [hnat']; omega)
    have hchar : 0x10000+(0xD800+(c.toNat-0x10000)/0x400-0xD800)*0x400+
        (0xDC00+(c.toNat-0x10000) % 0x400-0xDC00) = c.toNat := by omega
    rw [List.cons_append, List.singleton_append, chars, hhigh, hlow, hnat, hnat', hchar,
      Char.ofNat_toNat]
    rfl

/-- The characters of a text come back from its code units. -/
theorem chars_flatMap (cs : List Char) : chars (cs.flatMap Char.utf16) = some cs := by
  induction cs with
  | nil => rfl
  | cons c cs ih => rw [List.flatMap_cons, chars_utf16, ih, Option.map_some]

theorem toNat_ofNat {n : ℕ} (h : n.isValidChar) : (Char.ofNat n).toNat = n := by
  rw [Char.ofNat, dif_pos h]
  rfl

theorem utf16_ofNat {u : UInt16} (hhigh : isHighSurrogate u ≠ true)
    (hlow : isLowSurrogate u ≠ true) : (Char.ofNat u.toNat).utf16 = [u] := by
  have hlt := u.toNat_lt
  rw [ne_eq, surrogate_eq.1] at hhigh
  rw [ne_eq, surrogate_eq.2] at hlow
  have hvalid : u.toNat.isValidChar := by
    rw [Nat.isValidChar]
    omega
  have hnat : (Char.ofNat u.toNat).toNat = u.toNat := toNat_ofNat hvalid
  rw [Char.utf16, if_pos (by omega), hnat]
  exact congrArg (fun unit => [unit]) UInt16.ofNat_toNat

theorem utf16_ofNat_pair {u v : UInt16} (hhigh : isHighSurrogate u = true)
    (hlow : isLowSurrogate v = true) :
    (Char.ofNat (0x10000+(u.toNat-0xD800)*0x400+(v.toNat-0xDC00))).utf16 = [u, v] := by
  rw [surrogate_eq.1] at hhigh
  rw [surrogate_eq.2] at hlow
  have hvalid : (0x10000+(u.toNat-0xD800)*0x400+(v.toNat-0xDC00)).isValidChar := by
    rw [Nat.isValidChar]
    omega
  have hnat := toNat_ofNat hvalid
  have hu : 0xD800+((u.toNat-0xD800)*0x400+(v.toNat-0xDC00))/0x400 = u.toNat := by omega
  have hv : 0xDC00+((u.toNat-0xD800)*0x400+(v.toNat-0xDC00)) % 0x400 = v.toNat := by omega
  rw [Char.utf16, if_neg (by omega), hnat, Nat.add_assoc, Nat.add_sub_cancel_left, hu, hv]
  exact congrArg₂ (fun high low => [high, low]) UInt16.ofNat_toNat UInt16.ofNat_toNat

/-- Nothing is lost where there are characters for the code units. -/
theorem flatMap_of_chars {text : Utf16} {cs : List Char} (h : chars text = some cs) :
    cs.flatMap Char.utf16 = text := by
  induction text using chars.induct generalizing cs with
  | case1 =>
    obtain rfl := Option.some.inj h
    rfl
  | case2 u hsurrogate =>
    rw [chars, if_pos hsurrogate] at h
    cases h
  | case3 u hsurrogate =>
    rw [chars, if_neg hsurrogate] at h
    obtain rfl := Option.some.inj h
    rw [Bool.or_eq_true, not_or] at hsurrogate
    rw [List.flatMap_singleton, utf16_ofNat hsurrogate.1 hsurrogate.2]
  | case4 u v rest hpair ih =>
    rw [chars, if_pos hpair] at h
    obtain ⟨cs,hcs,rfl⟩ := Option.map_eq_some_iff.mp h
    rw [Bool.and_eq_true] at hpair
    rw [List.flatMap_cons, utf16_ofNat_pair hpair.1 hpair.2, ih hcs]
    rfl
  | case5 u v rest hpair hsurrogate =>
    rw [chars, if_neg hpair, if_pos hsurrogate] at h
    cases h
  | case6 u v rest hpair hsurrogate ih =>
    rw [chars, if_neg hpair, if_neg hsurrogate] at h
    obtain ⟨cs,hcs,rfl⟩ := Option.map_eq_some_iff.mp h
    rw [Bool.or_eq_true, not_or] at hsurrogate
    rw [List.flatMap_cons, utf16_ofNat hsurrogate.1 hsurrogate.2, ih hcs, List.singleton_append]

end Utf16

namespace FormText

/-- The characters that `encodeURIComponent` leaves as they are. -/
def isUnreserved (c : Char) : Bool := c.isAlphanum || c ∈ "-_.!~*'()".toList

def upperHex (digit : ℕ) : Char := digit.digitChar.toUpper

def escape (byte : UInt8) : List Char :=
  ['%', upperHex (byte.toNat/16), upperHex (byte.toNat % 16)]

def encodeChar (c : Char) : List Char :=
  if isUnreserved c then [c] else (String.utf8EncodeChar c).flatMap escape

/-- It throws a `URIError` for a surrogate that stands alone. -/
def encodeURIComponent (text : Utf16) : Option Utf16 :=
  text.chars.map fun cs => (cs.flatMap encodeChar).flatMap Char.utf16

/-- The bytes under which a text is sent. -/
def utf8Bytes (text : Utf16) : Option (List UInt8) :=
  text.chars.map fun cs => cs.flatMap String.utf8EncodeChar

def hexValue (byte : UInt8) : Option ℕ :=
  if 0x30 ≤ byte ∧ byte ≤ 0x39 then some (byte.toNat-0x30)
  else if 0x41 ≤ byte ∧ byte ≤ 0x46 then some (byte.toNat-0x37)
  else if 0x61 ≤ byte ∧ byte ≤ 0x66 then some (byte.toNat-0x57)
  else none

def percentDecode : List UInt8 → List UInt8
  | [] => []
  | [a] => [a]
  | [a, b] => [a, b]
  | a :: b :: c :: rest =>
    match a, hexValue b, hexValue c with
    | 0x25, some high, some low => (16*high+low).toUInt8 :: percentDecode rest
    | _, _, _ => a :: percentDecode (b :: c :: rest)

def plusToSpace (byte : UInt8) : UInt8 := if byte = 0x2B then 0x20 else byte

/-- A name or a value, if its bytes are the encoding of a text. -/
def component (bytes : List UInt8) : Option (List Char) :=
  (percentDecode (bytes.map plusToSpace)).toByteArray.utf8Decode?.map Array.toList

def pair (bytes : List UInt8) : Option (List Char × List Char) := do
  let name ← component (bytes.takeWhile (· ≠ 0x3D))
  let value ← component ((bytes.dropWhile (· ≠ 0x3D)).drop 1)
  return (name, value)

/-- The names and values of a form, in their order. -/
def formPairs (bytes : List UInt8) : Option (List (List Char × List Char)) :=
  ((bytes.splitOn 0x26).filter (· ≠ [])).mapM pair

example : formPairs ("tx=A%2Bb%C3%A9+c".toList.map fun c => c.toNat.toUInt8) =
    some [("tx".toList, "A+bé c".toList)] := by decide +kernel

/-- Characters below 128 that mean nothing to the parser but themselves. -/
def IsPlain (c : Char) : Prop := c.toNat < 128 ∧ c ≠ '&' ∧ c ≠ '=' ∧ c ≠ '+'

def toByte (c : Char) : UInt8 := c.toNat.toUInt8

theorem utf8EncodeChar_of_lt {c : Char} (h : c.toNat < 128) :
    String.utf8EncodeChar c = [toByte c] := by
  have hsize : c.utf8Size = 1 := Char.utf8Size_eq_one_iff.mpr (by
    rw [UInt32.le_iff_toNat_le]
    change c.toNat ≤ 127
    omega)
  rw [String.utf8EncodeChar_eq_singleton hsize]
  rfl

theorem bytes_of_plain {cs : List Char} (h : ∀ c ∈ cs, c.toNat < 128) :
    cs.flatMap String.utf8EncodeChar = cs.map toByte := by
  induction cs with
  | nil => rfl
  | cons c cs ih =>
    obtain ⟨hc,hcs⟩ := List.forall_mem_cons.mp h
    rw [List.flatMap_cons, List.map_cons, utf8EncodeChar_of_lt hc, ih hcs]
    rfl

theorem upperHex_plain {n : ℕ} (h : n < 16) : IsPlain (upperHex n) := by
  have hall : ∀ n : Fin 16, (upperHex n).toNat < 128 ∧ upperHex n ≠ '&' ∧ upperHex n ≠ '=' ∧
      upperHex n ≠ '+' := by decide
  exact hall ⟨n, h⟩

theorem hexValue_upperHex {n : ℕ} (h : n < 16) :
    hexValue (plusToSpace (toByte (upperHex n))) = some n := by
  have hall : ∀ n : Fin 16, hexValue (plusToSpace (toByte (upperHex n))) = some n.val := by decide
  exact hall ⟨n, h⟩

theorem lt_of_isUnreserved {c : Char} (h : isUnreserved c = true) : c.toNat < 128 := by
  rcases Bool.or_eq_true_iff.mp h with halnum | hmark
  · have hrange : c.toNat ≤ 122 := by
      rcases Bool.or_eq_true_iff.mp halnum with halpha | hdigit
      · rcases Bool.or_eq_true_iff.mp halpha with hupper | hlower
        · have hle : c.toNat ≤ 90 := UInt32.le_iff_toNat_le.mp (of_decide_eq_true hupper).2
          omega
        · exact UInt32.le_iff_toNat_le.mp
            (of_decide_eq_true (Bool.and_eq_true_iff.mp hlower).2)
      · have hle : c.toNat ≤ 57 :=
          UInt32.le_iff_toNat_le.mp (of_decide_eq_true (Bool.and_eq_true_iff.mp hdigit).2)
        omega
    omega
  · have hall : ("-_.!~*'()".toList.all fun c => c.toNat < 128) = true := by decide
    exact of_decide_eq_true (List.all_eq_true.mp hall c (of_decide_eq_true hmark))

theorem plain_of_isUnreserved {c : Char} (h : isUnreserved c = true) : IsPlain c ∧ c ≠ '%' := by
  have hne (d : Char) (hd : isUnreserved d = false) : c ≠ d := by
    rintro rfl
    rw [h] at hd
    cases hd
  exact ⟨⟨lt_of_isUnreserved h, hne '&' (by decide), hne '=' (by decide), hne '+' (by decide)⟩,
    hne '%' (by decide)⟩

theorem toNat_lt (byte : UInt8) : byte.toNat/16 < 16 ∧ byte.toNat % 16 < 16 := by
  have h := byte.toNat_lt
  omega

theorem escape_plain {byte : UInt8} {c : Char} (h : c ∈ escape byte) : IsPlain c := by
  obtain ⟨hhigh,hlow⟩ := toNat_lt byte
  rcases List.mem_cons.mp h with rfl | h
  · exact ⟨by decide, by decide, by decide, by decide⟩
  · rcases List.mem_cons.mp h with rfl | h
    · exact upperHex_plain hhigh
    · rw [List.mem_singleton.mp h]
      exact upperHex_plain hlow

/-- What is encoded has no separators in it. -/
theorem encodeChar_plain {c d : Char} (h : d ∈ encodeChar c) : IsPlain d := by
  unfold encodeChar at h
  split_ifs at h with hunreserved
  · rw [List.mem_singleton.mp h]
    exact (plain_of_isUnreserved hunreserved).1
  · obtain ⟨byte,_,hd⟩ := List.mem_flatMap.mp h
    exact escape_plain hd

theorem toByte_eq_iff {c d : Char} (hc : c.toNat < 128) (hd : d.toNat < 128) :
    toByte c = toByte d ↔ c = d := by
  constructor
  · intro h
    have hnat := congrArg UInt8.toNat h
    simp only [toByte, Nat.toUInt8_eq, UInt8.toNat_ofNat'] at hnat
    exact Char.toNat_inj.mp (by omega)
  · exact congrArg toByte

theorem toByte_ne {c d : Char} (hc : c.toNat < 128) (hd : d.toNat < 128) (h : c ≠ d) :
    toByte c ≠ toByte d := fun he => h ((toByte_eq_iff hc hd).mp he)

theorem plusToSpace_of_plain {c : Char} (h : IsPlain c) :
    plusToSpace (toByte c) = toByte c :=
  if_neg (toByte_ne h.1 (by decide : '+'.toNat < 128) h.2.2.2)

theorem percentDecode_escape (byte : UInt8) (rest : List UInt8) :
    percentDecode (((escape byte).map toByte).map plusToSpace ++ rest) =
      byte :: percentDecode rest := by
  obtain ⟨hhigh,hlow⟩ := toNat_lt byte
  have hvalue : (16*(byte.toNat/16)+byte.toNat % 16).toUInt8 = byte := by
    rw [Nat.div_add_mod]
    exact UInt8.ofNat_toNat
  have hpercent : plusToSpace (toByte '%') = 0x25 := by decide
  simp only [escape, List.map_cons, List.map_nil, List.cons_append, List.nil_append, hpercent,
    percentDecode, hexValue_upperHex hhigh, hexValue_upperHex hlow, hvalue]

/-- Only a percent sign means more than itself. -/
theorem percentDecode_cons {byte : UInt8} (h : byte ≠ 0x25) (rest : List UInt8) :
    percentDecode (byte :: rest) = byte :: percentDecode rest := by
  match rest with
  | [] => rfl
  | [_] => rfl
  | _ :: _ :: _ =>
    rw [percentDecode]
    exact fun _ _ hpercent _ _ => h hpercent

theorem percentDecode_encodeChar (c : Char) (rest : List UInt8) :
    percentDecode (((encodeChar c).map toByte).map plusToSpace ++ rest) =
      String.utf8EncodeChar c ++ percentDecode rest := by
  unfold encodeChar
  split_ifs with hunreserved
  · obtain ⟨hplain,hpercent⟩ := plain_of_isUnreserved hunreserved
    have hne : toByte c ≠ 0x25 := toByte_ne hplain.1 (by decide : '%'.toNat < 128) hpercent
    rw [utf8EncodeChar_of_lt hplain.1, List.map_singleton, List.map_singleton,
      plusToSpace_of_plain hplain, List.singleton_append, percentDecode_cons hne]
    rfl
  · induction String.utf8EncodeChar c with
    | nil => rfl
    | cons byte bytes ih =>
      rw [List.flatMap_cons, List.map_append, List.map_append, List.append_assoc,
        percentDecode_escape, ih, List.cons_append]

theorem percentDecode_encode (cs : List Char) :
    percentDecode (((cs.flatMap encodeChar).map toByte).map plusToSpace) =
      cs.flatMap String.utf8EncodeChar := by
  induction cs with
  | nil => rfl
  | cons c cs ih =>
    rw [List.flatMap_cons, List.map_append, List.map_append, percentDecode_encodeChar, ih,
      List.flatMap_cons]

theorem component_encode (cs : List Char) :
    component ((cs.flatMap encodeChar).map toByte) = some cs := by
  rw [component, percentDecode_encode]
  change Option.map Array.toList cs.utf8Encode.utf8Decode? = some cs
  rw [List.utf8Decode?_utf8Encode, Option.map_some, List.toList_toArray]

/-- A name of unreserved characters and an encoded value are read as they were. -/
theorem formPairs_encode {name : List Char} (hname : ∀ c ∈ name, isUnreserved c = true)
    (value : List Char) :
    formPairs ((name ++ '=' :: value.flatMap encodeChar).map toByte) = some [(name, value)] := by
  have hplain : ∀ c ∈ name ++ value.flatMap encodeChar, IsPlain c := by
    intro c hc
    rcases List.mem_append.mp hc with hc | hc
    · exact (plain_of_isUnreserved (hname c hc)).1
    · obtain ⟨d,_,hc⟩ := List.mem_flatMap.mp hc
      exact encodeChar_plain hc
  -- the name is its own encoding
  have hself : name.flatMap encodeChar = name := by
    have hone : ∀ c ∈ name, encodeChar c = [c] := fun c hc => if_pos (hname c hc)
    rw [List.flatMap_congr hone, List.flatMap_singleton']
  let bytes := (name ++ '=' :: value.flatMap encodeChar).map toByte
  have hnoAnd : ∀ byte ∈ bytes, (byte == 0x26) = false := by
    intro byte hbyte
    obtain ⟨c,hc,rfl⟩ := List.mem_map.mp hbyte
    have hboth : c.toNat < 128 ∧ c ≠ '&' := by
      rcases List.mem_append.mp hc with hc | hc
      · have hc' := hplain c (List.mem_append_left _ hc)
        exact ⟨hc'.1, hc'.2.1⟩
      · rcases List.mem_cons.mp hc with rfl | hc
        · decide
        · have hc' := hplain c (List.mem_append_right _ hc)
          exact ⟨hc'.1, hc'.2.1⟩
    exact beq_false_of_ne (toByte_ne hboth.1 (by decide : '&'.toNat < 128) hboth.2)
  have hsplit : (bytes.splitOn 0x26).filter (· ≠ []) = [bytes] := by
    have hne : bytes ≠ [] := by simp [bytes]
    rw [List.splitOn, List.splitOnP_eq_singleton hnoAnd, List.filter_singleton,
      decide_eq_true hne, cond_true]
  have hnoEquals : ∀ byte ∈ name.map toByte, decide (byte ≠ 0x3D) = true := by
    intro byte hbyte
    obtain ⟨c,hc,rfl⟩ := List.mem_map.mp hbyte
    have hc' := hplain c (List.mem_append_left _ hc)
    exact decide_eq_true (toByte_ne hc'.1 (by decide : '='.toNat < 128) hc'.2.2.1)
  have hbytes : bytes = name.map toByte ++ 0x3D :: (value.flatMap encodeChar).map toByte := by
    rw [← show toByte '=' = 0x3D from rfl, ← List.map_cons, ← List.map_append]
  have htake : bytes.takeWhile (· ≠ 0x3D) = name.map toByte := by
    rw [hbytes, List.takeWhile_append_of_pos hnoEquals, List.takeWhile_cons_of_neg (by decide),
      List.append_nil]
  have hdrop : bytes.dropWhile (· ≠ 0x3D) = 0x3D :: (value.flatMap encodeChar).map toByte := by
    rw [hbytes, List.dropWhile_append_of_pos hnoEquals, List.dropWhile_cons_of_neg (by decide)]
  have hvalue := component_encode value
  have hpair : pair bytes = some (name, value) := by
    rw [pair, htake, hdrop, List.drop_one, List.tail_cons, hvalue]
    have hcomponent := component_encode name
    rw [hself] at hcomponent
    rw [hcomponent]
    rfl
  change ((bytes.splitOn 0x26).filter (· ≠ [])).mapM pair = _
  rw [hsplit, List.mapM_cons, hpair]
  rfl

/-- What a form parser reads of the bytes of `name=..` with an encoded text behind it. -/
theorem formPairs_of_encodeURIComponent {text encoded : Utf16}
    (h : encodeURIComponent text = some encoded) {name : List Char}
    (hname : ∀ c ∈ name, isUnreserved c = true) :
    ∃ cs, text.chars = some cs ∧
      (utf8Bytes (name.flatMap Char.utf16 ++ '='.utf16 ++ encoded)).bind formPairs =
        some [(name, cs)] := by
  obtain ⟨cs,hcs,rfl⟩ := Option.map_eq_some_iff.mp h
  refine ⟨cs, hcs, ?_⟩
  have htext : name.flatMap Char.utf16 ++ '='.utf16 ++ (cs.flatMap encodeChar).flatMap Char.utf16 =
      (name ++ '=' :: cs.flatMap encodeChar).flatMap Char.utf16 := by
    rw [List.flatMap_append, List.flatMap_cons, List.append_assoc]
  have hascii : ∀ c ∈ name ++ '=' :: cs.flatMap encodeChar, c.toNat < 128 := by
    intro c hc
    rcases List.mem_append.mp hc with hc | hc
    · exact lt_of_isUnreserved (hname c hc)
    · rcases List.mem_cons.mp hc with rfl | hc
      · decide
      · obtain ⟨d,_,hc⟩ := List.mem_flatMap.mp hc
        exact (encodeChar_plain hc).1
  rw [utf8Bytes, htext, Utf16.chars_flatMap, Option.map_some, Option.bind_some,
    bytes_of_plain hascii, formPairs_encode hname]

end FormText
