import StreamPay.EventIngestion

/-! Hexadecimal texts and the buffers they are decoded to. -/
namespace StreamPay

/-- The digits of a buffer, in lower case: `buffer.toString("hex")`. -/
def hexDigits (buffer : List UInt8) : List Char :=
  buffer.flatMap fun byte => [(byte.toNat/16).digitChar, (byte.toNat%16).digitChar]

/-- A text of hexadecimal digits in either case. -/
def isHex (digits : List Char) : Bool := digits.all fun c => (hexDigit c).isSome

theorem hexDigit_digitChar {n : ℕ} (h : n < 16) : hexDigit n.digitChar = some n := by
  have hall : ∀ k ∈ List.range 16, hexDigit k.digitChar = some k := by decide
  exact hall n (List.mem_range.mpr h)

theorem toLower_digitChar {n : ℕ} (h : n < 16) : n.digitChar.toLower = n.digitChar := by
  have hall : ∀ k ∈ List.range 16, k.digitChar.toLower = k.digitChar := by decide
  exact hall n (List.mem_range.mpr h)

theorem toNat_toLower (c : Char) : c.toLower.toNat =
    if 65 ≤ c.toNat ∧ c.toNat ≤ 90 then c.toNat+32 else c.toNat := by
  have hupper : (c.val ≥ 'A'.val ∧ c.val ≤ 'Z'.val) ↔ 65 ≤ c.toNat ∧ c.toNat ≤ 90 := by
    rw [ge_iff_le, UInt32.le_iff_toNat_le, UInt32.le_iff_toNat_le]
    rfl
  unfold Char.toLower
  split_ifs with hletter hrange hrange
  · have hadd : (c.val+('a'.val - 'A'.val)).toNat = (c.toNat+32)%2^32 := UInt32.toNat_add _ _
    change (c.val+('a'.val - 'A'.val)).toNat = _
    omega
  · exact absurd (hupper.mp hletter) hrange
  · exact absurd (hupper.mpr hrange) hletter
  · rfl

theorem hexDigit_eq (c : Char) : hexDigit c =
    if 48 ≤ c.toNat ∧ c.toNat ≤ 57 then some (c.toNat-48)
    else if 97 ≤ c.toNat ∧ c.toNat ≤ 102 then some (c.toNat-97+10)
    else if 65 ≤ c.toNat ∧ c.toNat ≤ 70 then some (c.toNat-65+10)
    else none := by
  have hle (a b : Char) : a ≤ b ↔ a.toNat ≤ b.toNat := UInt32.le_iff_toNat_le
  simp only [hexDigit, hle]
  rfl

/-- The case of a digit does not matter. -/
theorem hexDigit_toLower (c : Char) : hexDigit c.toLower = hexDigit c := by
  rw [hexDigit_eq, hexDigit_eq, toNat_toLower]
  split_ifs
  all_goals first
    | omega
    | exact congrArg some (by omega)
    | rfl

theorem hexDigit_lt {c : Char} {n : ℕ} (h : hexDigit c = some n) : n < 16 := by
  rw [hexDigit_eq] at h
  split_ifs at h
  all_goals
    have hn := Option.some.inj h
    omega

/-- A digit is the character of its number, or the capital of that. -/
theorem hexDigit_eq_some_iff {c : Char} {n : ℕ} :
    hexDigit c = some n ↔ n < 16 ∧ c.toLower = n.digitChar := by
  constructor
  · intro h
    have hlt := hexDigit_lt h
    refine ⟨hlt, ?_⟩
    have hlower : hexDigit c.toLower = some n := by rw [hexDigit_toLower, h]
    have hsame := hexDigit_digitChar hlt
    have hcase := toNat_toLower c
    have hcase' := toNat_toLower n.digitChar
    rw [toLower_digitChar hlt] at hcase'
    rw [hexDigit_eq] at hlower hsame
    -- neither of the two characters is a capital, so their numbers agree
    apply Char.toNat_inj.mp
    split_ifs at hlower hsame hcase hcase'
    all_goals
      have hleft := Option.some.inj hlower
      have hright := Option.some.inj hsame
      omega
  · rintro ⟨hlt,hlower⟩
    rw [← hexDigit_toLower, hlower, hexDigit_digitChar hlt]

/-- The digits spell a buffer, in either case. -/
def Spells (digits : List Char) (buffer : List UInt8) : Prop :=
  digits.map Char.toLower = hexDigits buffer

/-- The text does not go on with a pair of digits. -/
def NoPair (text : List Char) : Prop :=
  ∀ a b rest, text = a :: b :: rest → hexDigit a = none ∨ hexDigit b = none

theorem hexDigits_cons (byte : UInt8) (buffer : List UInt8) : hexDigits (byte :: buffer) =
    (byte.toNat/16).digitChar :: (byte.toNat%16).digitChar :: hexDigits buffer := rfl

theorem length_hexDigits (buffer : List UInt8) : (hexDigits buffer).length = 2*buffer.length := by
  induction buffer with
  | nil => rfl
  | cons byte rest ih =>
    rw [hexDigits_cons, List.length_cons, List.length_cons, List.length_cons, ih]
    omega

theorem byte_of_digits {high low : ℕ} (hhigh : high < 16) (hlow : low < 16) :
    (16*high+low).toUInt8.toNat/16 = high ∧ (16*high+low).toUInt8.toNat%16 = low := by
  have hbyte : (16*high+low).toUInt8.toNat = 16*high+low := by
    change (16*high+low)%2^8 = _
    omega
  rw [hbyte]
  omega

theorem digits_of_byte (byte : UInt8) :
    (16*(byte.toNat/16)+byte.toNat%16).toUInt8 = byte := by
  rw [Nat.div_add_mod]
  exact UInt8.ofNat_toNat

theorem spells_nil_iff {buffer : List UInt8} : Spells [] buffer ↔ buffer = [] := by
  cases buffer with
  | nil => exact iff_of_true rfl rfl
  | cons byte rest => exact iff_of_false (fun h => by cases h) (List.cons_ne_nil _ _)

theorem not_spells_singleton (c : Char) (buffer : List UInt8) : ¬ Spells [c] buffer := by
  intro h
  have hlength := congrArg List.length h
  rw [length_hexDigits, List.length_map, List.length_singleton] at hlength
  omega

theorem spells_pair_iff {a b : Char} {rest : List Char} {buffer : List UInt8} :
    Spells (a :: b :: rest) buffer ↔ ∃ byte others, buffer = byte :: others ∧
      hexDigit a = some (byte.toNat/16) ∧ hexDigit b = some (byte.toNat%16) ∧
        Spells rest others := by
  constructor
  · intro h
    cases buffer with
    | nil => cases h
    | cons byte others =>
      have hbyte := byte.toNat_lt
      rw [Spells, hexDigits_cons, List.map_cons, List.map_cons, List.cons.injEq,
        List.cons.injEq] at h
      obtain ⟨ha,hb,hrest⟩ := h
      exact ⟨byte, others, rfl, hexDigit_eq_some_iff.mpr ⟨by omega, ha⟩,
        hexDigit_eq_some_iff.mpr ⟨by omega, hb⟩, hrest⟩
  · rintro ⟨byte,others,rfl,ha,hb,hrest⟩
    rw [Spells, hexDigits_cons, List.map_cons, List.map_cons, (hexDigit_eq_some_iff.mp ha).2,
      (hexDigit_eq_some_iff.mp hb).2, hrest]

/-- What does not begin with a pair is decoded to nothing, and nothing is spelled by it. -/
theorem spelled_before_noPair {text : List Char} {buffer : List UInt8} (h : NoPair text) :
    (∃ digits more, text = digits ++ more ∧ Spells digits buffer ∧ NoPair more) ↔ [] = buffer := by
  constructor
  · rintro ⟨digits,more,rfl,hspells,_⟩
    match digits with
    | [] => exact (spells_nil_iff.mp hspells).symm
    | [c] => exact absurd hspells (not_spells_singleton c buffer)
    | a :: b :: rest =>
      obtain ⟨byte,others,_,ha,hb,_⟩ := spells_pair_iff.mp hspells
      rcases h a b (rest ++ more) rfl with hnone | hnone
      · rw [ha] at hnone
        cases hnone
      · rw [hb] at hnone
        cases hnone
  · rintro rfl
    exact ⟨[], text, rfl, rfl, h⟩

/-- A decoder that stops at the first thing that is no pair: the pairs before it
spell the buffer. -/
theorem bufferFromHex_eq_iff {text : List Char} {buffer : List UInt8} :
    bufferFromHex text = buffer ↔
      ∃ digits more, text = digits ++ more ∧ Spells digits buffer ∧ NoPair more := by
  induction text using bufferFromHex.induct generalizing buffer with
  | case1 a b rest low high hlow hhigh ih =>
    obtain ⟨hbyte,hbyte'⟩ := byte_of_digits (hexDigit_lt hhigh) (hexDigit_lt hlow)
    simp only [bufferFromHex, hhigh, hlow]
    constructor
    · rintro rfl
      obtain ⟨digits,more,hrest,hspells,hmore⟩ := ih.mp rfl
      refine ⟨a :: b :: digits, more, by rw [hrest]; rfl, ?_, hmore⟩
      exact spells_pair_iff.mpr ⟨_, _, rfl, by rw [hbyte, hhigh], by rw [hbyte', hlow], hspells⟩
    · rintro ⟨digits,more,hsplit,hspells,hmore⟩
      match digits with
      | [] =>
        -- the decoder would have read this pair
        rcases hmore a b rest hsplit.symm with hnone | hnone
        · rw [hhigh] at hnone
          cases hnone
        · rw [hlow] at hnone
          cases hnone
      | [c] => exact absurd hspells (not_spells_singleton c buffer)
      | c :: d :: digits =>
        rw [List.cons_append, List.cons_append, List.cons.injEq, List.cons.injEq] at hsplit
        obtain ⟨rfl,rfl,hsplit⟩ := hsplit
        obtain ⟨byte,others,rfl,ha,hb,hrest⟩ := spells_pair_iff.mp hspells
        obtain rfl := Option.some.inj (hhigh.symm.trans ha)
        obtain rfl := Option.some.inj (hlow.symm.trans hb)
        rw [digits_of_byte, ih.mpr ⟨digits, more, hsplit, hrest, hmore⟩]
  | case2 a b rest hnot =>
    -- the decoder stops here, whatever stands behind
    have hnoPair : NoPair (a :: b :: rest) := by
      rintro a' b' rest' ⟨⟩
      by_contra hboth
      rw [not_or, ← ne_eq, ← ne_eq, Option.ne_none_iff_exists', Option.ne_none_iff_exists'] at hboth
      obtain ⟨⟨high,hhigh⟩,low,hlow⟩ := hboth
      exact hnot high low hhigh hlow
    have hnothing : bufferFromHex (a :: b :: rest) = [] := by
      rw [bufferFromHex]
      split
      · rename_i high low hhigh hlow
        exact absurd hlow (hnot high low hhigh)
      · rfl
    rw [hnothing]
    exact (spelled_before_noPair hnoPair).symm
  | case3 text hshort =>
    have hnoPair : NoPair text := fun a b rest hpair => absurd hpair (hshort a b rest)
    have hnothing : bufferFromHex text = [] := by
      unfold bufferFromHex
      split
      · exact absurd rfl (hshort _ _ _)
      · rfl
    rw [hnothing]
    exact (spelled_before_noPair hnoPair).symm

/-- Digits of a buffer are decoded to it, whatever the case of each. -/
theorem bufferFromHex_of_spells {digits : List Char} {buffer : List UInt8}
    (h : Spells digits buffer) : bufferFromHex digits = buffer :=
  bufferFromHex_eq_iff.mpr ⟨digits, [], (List.append_nil _).symm, h, fun _ _ _ hpair => by
    cases hpair⟩

theorem spells_hexDigits (buffer : List UInt8) : Spells (hexDigits buffer) buffer := by
  have hlower : ∀ c ∈ hexDigits buffer, c.toLower = c := by
    intro c hc
    obtain ⟨byte,_,hmem⟩ := List.mem_flatMap.mp hc
    have hbyte := byte.toNat_lt
    rcases List.mem_pair.mp hmem with rfl | rfl
    · exact toLower_digitChar (by omega)
    · exact toLower_digitChar (by omega)
  rw [Spells, List.map_congr_left hlower]
  exact List.map_id' _

theorem isHex_of_spells {digits : List Char} {buffer : List UInt8} (h : Spells digits buffer) :
    isHex digits = true := by
  have hown : ∀ c ∈ hexDigits buffer, (hexDigit c).isSome = true := by
    intro c hc
    obtain ⟨byte,_,hmem⟩ := List.mem_flatMap.mp hc
    have hbyte := byte.toNat_lt
    rcases List.mem_pair.mp hmem with rfl | rfl
    · rw [hexDigit_digitChar (by omega)]
      rfl
    · rw [hexDigit_digitChar (by omega)]
      rfl
  rw [isHex, List.all_eq_true]
  intro c hc
  rw [← hexDigit_toLower]
  apply hown
  rw [← h]
  exact List.mem_map_of_mem hc

/-- An even number of digits spells a buffer. -/
theorem exists_spells {digits : List Char} (h : isHex digits = true) {n : ℕ}
    (hlength : digits.length = 2*n) : ∃ buffer, buffer.length = n ∧ Spells digits buffer := by
  induction n generalizing digits with
  | zero =>
    obtain rfl := List.length_eq_zero_iff.mp hlength
    exact ⟨[], rfl, rfl⟩
  | succ n ih =>
    match digits with
    | [] => cases hlength
    | [c] => simp only [List.length_singleton] at hlength; omega
    | a :: b :: rest =>
      simp only [isHex, List.all_cons, Bool.and_eq_true] at h
      obtain ⟨⟨high,hhigh⟩,⟨low,hlow⟩,hrest⟩ :=
        h.imp Option.isSome_iff_exists.mp (And.imp_left Option.isSome_iff_exists.mp)
      simp only [List.length_cons] at hlength
      obtain ⟨buffer,hbuffer,hspells⟩ := ih hrest (by omega)
      obtain ⟨hbyte,hbyte'⟩ := byte_of_digits (hexDigit_lt hhigh) (hexDigit_lt hlow)
      refine ⟨(16*high+low).toUInt8 :: buffer, congrArg Nat.succ hbuffer, ?_⟩
      exact spells_pair_iff.mpr ⟨_, _, rfl, by rw [hbyte, hhigh], by rw [hbyte', hlow], hspells⟩

theorem bufferFromHex_hexDigits (buffer : List UInt8) :
    bufferFromHex (hexDigits buffer) = buffer :=
  bufferFromHex_of_spells (spells_hexDigits buffer)

end StreamPay
