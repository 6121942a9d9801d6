import Mathlib.Data.Int.Notation
import Mathlib.Tactic.Common

/-! Points in time as milliseconds since 1970 and as ISO 8601 texts in UTC. The
calendar is cut into spans of 400, 100, 4 and 1 years that start in March, so
that a leap day is the last day of its span. -/

namespace IsoDate

structure CivilDate where
  year : ℤ
  month : ℤ
  day : ℤ
  deriving DecidableEq, Repr

/-- A year from March to February, as the spans before it in its era. -/
structure MarchYear where
  era : ℤ
  century : ℤ
  quad : ℤ
  year : ℤ

def MarchYear.number (y : MarchYear) : ℤ := 400*y.era+100*y.century+4*y.quad+y.year

structure MarchYear.Valid (y : MarchYear) : Prop where
  century : 0 ≤ y.century ∧ y.century ≤ 3
  quad : 0 ≤ y.quad ∧ y.quad ≤ 24
  year : 0 ≤ y.year ∧ y.year ≤ 3

/-- The year of a day after the first of March 0, and the day in it. -/
def splitDays (days : ℤ) : MarchYear × ℤ :=
  let dayOfEra := days%146097
  let century := min (dayOfEra/36524) 3
  let dayOfCentury := dayOfEra-36524*century
  let dayOfQuad := dayOfCentury%1461
  let year := min (dayOfQuad/365) 3
  (⟨days/146097, century, dayOfCentury/1461, year⟩, dayOfQuad-365*year)

/-- The first day of a year, counted from the first of March 0. -/
def startOfYear (year : ℤ) : ℤ :=
  146097*(year/400)+365*(year%400)+year%400/4-year%400/100

theorem splitDays_valid (days : ℤ) : (splitDays days).1.Valid where
  century := by simp only [splitDays]; omega
  quad := by simp only [splitDays]; omega
  year := by simp only [splitDays]; omega

theorem splitDays_day (days : ℤ) : 0 ≤ (splitDays days).2 ∧ (splitDays days).2 ≤ 365 := by
  simp only [splitDays]
  omega

theorem MarchYear.Valid.startOfYear {y : MarchYear} (h : y.Valid) :
    startOfYear y.number = 146097*y.era+36524*y.century+1461*y.quad+365*y.year := by
  obtain ⟨hc,hq,hy⟩ := h
  unfold IsoDate.startOfYear number
  have hera : (400*y.era+100*y.century+4*y.quad+y.year)/400 = y.era := by omega
  have hyear : (400*y.era+100*y.century+4*y.quad+y.year)%400 =
      100*y.century+4*y.quad+y.year := by omega
  have hquad : (100*y.century+4*y.quad+y.year)/4 = 25*y.century+y.quad := by omega
  have hcentury : (100*y.century+4*y.quad+y.year)/100 = y.century := by omega
  rw [hera, hyear, hquad, hcentury]
  omega

theorem startOfYear_add_day (days : ℤ) :
    startOfYear (splitDays days).1.number+(splitDays days).2 = days := by
  rw [(splitDays_valid days).startOfYear]
  simp only [splitDays]
  omega

/-- The date of a day, counted from the first of January 1970. -/
def civilOfDays (days : ℤ) : CivilDate :=
  let (year,dayOfYear) := splitDays (days+719468)
  let month := (5*dayOfYear+2)/153
  ⟨year.number+(if month < 10 then 0 else 1), if month < 10 then month+3 else month-9,
    dayOfYear-(153*month+2)/5+1⟩

def daysOfCivil (date : CivilDate) : ℤ :=
  let year := if date.month ≤ 2 then date.year-1 else date.year
  let month := if date.month ≤ 2 then date.month+9 else date.month-3
  startOfYear year+(153*month+2)/5+date.day-1-719468

theorem civilOfDays_bounds (days : ℤ) : 1 ≤ (civilOfDays days).month ∧
    (civilOfDays days).month ≤ 12 ∧ 1 ≤ (civilOfDays days).day ∧ (civilOfDays days).day ≤ 31 := by
  have hday := splitDays_day (days+719468)
  simp only [civilOfDays]
  split_ifs <;> omega

theorem daysOfCivil_civilOfDays (days : ℤ) : daysOfCivil (civilOfDays days) = days := by
  have hday := splitDays_day (days+719468)
  have hsplit := startOfYear_add_day (days+719468)
  simp only [daysOfCivil, civilOfDays]
  -- January and February count to the year before
  by_cases hmonth : (5*(splitDays (days+719468)).2+2)/153 < 10
  · have hlate : ¬ (5*(splitDays (days+719468)).2+2)/153+3 ≤ 2 := by omega
    simp only [hmonth, hlate, ↓reduceIte, Int.add_zero, Int.add_sub_cancel]
    omega
  · have hearly : (5*(splitDays (days+719468)).2+2)/153-9 ≤ 2 := by omega
    simp only [hmonth, hearly, ↓reduceIte, Int.add_sub_cancel, Int.sub_add_cancel]
    omega

example : civilOfDays (-1) = ⟨1969, 12, 31⟩ ∧ civilOfDays 11016 = ⟨2000, 2, 29⟩ := by decide

def two (n : ℤ) : List Char := [Nat.digitChar (n/10).toNat, Nat.digitChar (n%10).toNat]

def three (n : ℤ) : List Char := Nat.digitChar (n/100).toNat :: two (n%100)

/-- Four digits, or a sign and at least six of them. -/
def yearText (year : ℤ) : List Char :=
  if 0 ≤ year ∧ year ≤ 9999 then two (year/100) ++ two (year%100)
  else
    let digits := Nat.toDigits 10 year.natAbs
    (if year < 0 then '-' else '+') :: (List.replicate (6-digits.length) '0' ++ digits)

/-- The text behind the year: month, day, hour, minute, second and milliseconds. -/
def fieldsText (month day hour minute second ms : ℤ) : List Char :=
  '-' :: two month ++ '-' :: two day ++ 'T' :: two hour ++ ':' :: two minute ++ ':' :: two second ++
    '.' :: three ms ++ ['Z']

/-- `toISOString()` of a date in milliseconds. -/
def toISOString (date : ℤ) : String :=
  let civil := civilOfDays (date/86400000)
  let time := date%86400000
  String.ofList (yearText civil.year ++ fieldsText civil.month civil.day (time/3600000)
    (time/60000%60) (time/1000%60) (time%1000))

def numeral (digits : List Char) : ℤ := Nat.ofDigitChars 10 digits 0

def yearValue (text : List Char) : ℤ :=
  if text.head? = some '-' then -numeral text.tail
  else if text.head? = some '+' then numeral text.tail
  else numeral text

/-- The date that a text spells if it has the form of `toISOString()`, where each
field has its place counted from the end. -/
def readDigits (text : List Char) : ℤ :=
  let fields := text.drop (text.length-20)
  let field (start length : ℕ) := numeral ((fields.drop start).take length)
  let year := yearValue (text.take (text.length-20))
  86400000*daysOfCivil ⟨year, field 1 2, field 4 2⟩+3600000*field 7 2+60000*field 10 2+
    1000*field 13 2+field 16 3

/-- The date whose ISO text this is. -/
def parse (text : String) : Option ℤ :=
  let date := readDigits text.toList
  if toISOString date = text then some date else none

theorem digitChar_ne : ∀ k < 10, Nat.digitChar k ≠ '-' ∧ Nat.digitChar k ≠ '+' := by
  decide

theorem numeral_two {n : ℤ} (h0 : 0 ≤ n) (h1 : n < 100) : numeral (two n) = n := by
  have htens : (n/10).toNat < 10 := by omega
  have hunits : (n%10).toNat < 10 := by omega
  rw [numeral, two, Nat.ofDigitChars_cons_digitChar_of_lt_ten htens,
    Nat.ofDigitChars_cons_digitChar_of_lt_ten hunits, Nat.ofDigitChars_nil]
  omega

theorem numeral_three {n : ℤ} (h0 : 0 ≤ n) (h1 : n < 1000) : numeral (three n) = n := by
  have hhundreds : (n/100).toNat < 10 := by omega
  have hrest := numeral_two (n := n%100) (by omega) (by omega)
  rw [numeral] at hrest
  rw [numeral, three, Nat.ofDigitChars_cons_digitChar_of_lt_ten hhundreds,
    Nat.ofDigitChars_eq_ofDigitChars_zero]
  simp only [two, List.length_cons, List.length_nil] at hrest ⊢
  omega

theorem numeral_four {n : ℤ} (h0 : 0 ≤ n) (h1 : n < 10000) :
    numeral (two (n/100) ++ two (n%100)) = n := by
  have hhigh := numeral_two (n := n/100) (by omega) (by omega)
  have hlow := numeral_two (n := n%100) (by omega) (by omega)
  rw [numeral] at hhigh hlow
  rw [numeral, Nat.ofDigitChars_append, Nat.ofDigitChars_eq_ofDigitChars_zero]
  simp only [two, List.length_cons, List.length_nil] at hhigh hlow ⊢
  omega

theorem numeral_padded (k : ℕ) (digits : List Char) :
    numeral (List.replicate k '0' ++ digits) = numeral digits := by
  rw [numeral, Nat.ofDigitChars_append, Nat.ofDigitChars_replicate_zero, Nat.mul_zero, numeral]

theorem yearValue_yearText (year : ℤ) : yearValue (yearText year) = year := by
  unfold yearText
  split_ifs with hfour hsign
  · obtain ⟨h0,h1⟩ := hfour
    obtain ⟨hminus,hplus⟩ := digitChar_ne (year/100/10).toNat (by omega)
    have hhead : (two (year/100) ++ two (year%100)).head? =
        some (Nat.digitChar (year/100/10).toNat) := rfl
    have hvalue := numeral_four h0 (by omega)
    simp only [yearValue, hhead, Option.some.injEq, hminus, hplus, ↓reduceIte, hvalue]
  · have hdigits := numeral_padded (6-(Nat.toDigits 10 year.natAbs).length)
      (Nat.toDigits 10 year.natAbs)
    simp only [yearValue, List.head?_cons, ↓reduceIte, List.tail_cons, hdigits]
    rw [numeral, Nat.ofDigitChars_ten_toDigits]
    omega
  · have hdigits := numeral_padded (6-(Nat.toDigits 10 year.natAbs).length)
      (Nat.toDigits 10 year.natAbs)
    have hne : ¬ some '+' = some '-' := by decide
    simp only [yearValue, List.head?_cons, hne, ↓reduceIte, List.tail_cons, hdigits]
    rw [numeral, Nat.ofDigitChars_ten_toDigits]
    omega

theorem readDigits_text (year : List Char) (month day hour minute second ms : ℤ) :
    readDigits (year ++ fieldsText month day hour minute second ms) =
      86400000*daysOfCivil ⟨yearValue year, numeral (two month), numeral (two day)⟩+
        3600000*numeral (two hour)+60000*numeral (two minute)+1000*numeral (two second)+
        numeral (three ms) := by
  have hlength : (fieldsText month day hour minute second ms).length = 20 := rfl
  have hcut : (year ++ fieldsText month day hour minute second ms).length-20 = year.length := by
    rw [List.length_append, hlength, Nat.add_sub_cancel]
  simp only [readDigits, hcut, List.take_left, List.drop_left]
  simp only [fieldsText, two, three, List.cons_append, List.nil_append, List.drop_succ_cons,
    List.drop_zero, List.take_succ_cons, List.take_zero]

theorem readDigits_toISOString (date : ℤ) : readDigits (toISOString date).toList = date := by
  obtain ⟨hm0,hm1,hd0,hd1⟩ := civilOfDays_bounds (date/86400000)
  have hhour : 0 ≤ date%86400000/3600000 ∧ date%86400000/3600000 < 100 := by omega
  have hminute : 0 ≤ date%86400000/60000%60 ∧ date%86400000/60000%60 < 100 := by omega
  have hsecond : 0 ≤ date%86400000/1000%60 ∧ date%86400000/1000%60 < 100 := by omega
  have hms : 0 ≤ date%86400000%1000 ∧ date%86400000%1000 < 1000 := by omega
  have hcivil := daysOfCivil_civilOfDays (date/86400000)
  rw [toISOString, String.toList_ofList, readDigits_text, yearValue_yearText,
    numeral_two (by omega) (by omega), numeral_two (by omega) (by omega),
    numeral_two hhour.1 hhour.2, numeral_two hminute.1 hminute.2, numeral_two hsecond.1 hsecond.2,
    numeral_three hms.1 hms.2, hcivil]
  omega

theorem parse_toISOString (date : ℤ) : parse (toISOString date) = some date := by
  simp only [parse, readDigits_toISOString, ↓reduceIte]

theorem toISOString_ne_empty (date : ℤ) : toISOString date ≠ "" := by
  intro hempty
  have hlist := congrArg String.toList hempty
  rw [toISOString, String.toList_ofList] at hlist
  have hfields := (List.append_eq_nil_iff.mp hlist).2
  cases hfields

example : toISOString 951782400001 = "2000-02-29T00:00:00.001Z" := by decide

end IsoDate
