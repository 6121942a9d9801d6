import Mathlib.Tactic.Common

/-! Comma-separated values as RFC 4180 has them. The reader takes one character
at a time; it is strict, so that a quote inside a plain field, text behind a
closing quote and a CR or LF on its own are refused. -/
namespace Csv

/-- Where the reader stands. -/
inductive Place
  /-- Before the first character of a field. -/
  | start
  | plain
  | quoted
  /-- Behind a quote in a quoted field: the field ends here or the quote is doubled. -/
  | quote
  /-- Behind the CR of a line break. -/
  | lineBreak
  deriving DecidableEq

structure Reader where
  place : Place := .start
  field : List Char := []
  fields : List (List Char) := []
  records : List (List (List Char)) := []
  deriving DecidableEq

namespace Reader

def push (r : Reader) (place : Place) (c : Char) : Reader :=
  { r with place, field := r.field ++ [c] }

def endField (r : Reader) (place : Place) : Reader :=
  { r with place, field := [], fields := r.fields ++ [r.field] }

def endRecord (r : Reader) : Reader :=
  { r with place := .start, fields := [], records := r.records ++ [r.fields] }

/-- A character where a field may end; `none` if it neither ends the field nor
belongs to it. -/
def delimit (r : Reader) (c : Char) : Option Reader :=
  if c = ',' then some (r.endField .start)
  else if c = '\r' then some (r.endField .lineBreak)
  else none

def step (r : Reader) (c : Char) : Option Reader :=
  match r.place with
  | .start => if c = '"' then some { r with place := .quoted }
    else if c = '\n' then none
    else (r.delimit c).or (some (r.push .plain c))
  | .plain => if c = '"' || c = '\n' then none
    else (r.delimit c).or (some (r.push .plain c))
  | .quoted => if c = '"' then some { r with place := .quote } else some (r.push .quoted c)
  | .quote => if c = '"' then some (r.push .quoted c) else r.delimit c
  | .lineBreak => if c = '\n' then some r.endRecord else none

def run (r : Reader) (text : List Char) : Option Reader := text.foldlM step r

/-- The records of a file that ends here; its last line may lack the line break. -/
def finish (r : Reader) : Option (List (List (List Char))) :=
  match r.place with
  | .start => some (if r.fields.isEmpty then r.records else (r.endField .start).endRecord.records)
  | .plain | .quote => some (r.endField .start).endRecord.records
  | .quoted | .lineBreak => none

end Reader

/-- The records of a text, or `none` if it is no file of RFC 4180. -/
def read (text : String) : Option (List (List String)) :=
  ((Reader.run {} text.toList).bind Reader.finish).map fun records =>
    records.map fun record => record.map String.ofList

/-- The characters that a field holds in quotes only. -/
def isSpecial (c : Char) : Bool := c = ',' || c = '"' || c = '\r' || c = '\n'

def doubled (c : Char) : List Char := if c = '"' then ['"', '"'] else [c]

/-- The ways in which a file may have a field. -/
inductive FieldText : List Char → List Char → Prop
  | plain {value : List Char} (h : ∀ c ∈ value, isSpecial c = false) : FieldText value value
  | quoted (value : List Char) : FieldText value ('"' :: value.flatMap doubled ++ ['"'])

/-- A line, with its line break at the end. -/
def lineText (texts : List (List Char)) : List Char := [','].intercalate texts ++ ['\r', '\n']

namespace Reader
variable {r : Reader} {c : Char}

@[simp] theorem run_nil : r.run [] = some r := rfl

theorem run_cons (text : List Char) : r.run (c :: text) = (r.step c).bind (run · text) := rfl

theorem run_append (text rest : List Char) :
    r.run (text ++ rest) = (r.run text).bind (run · rest) :=
  List.foldlM_append

/-- A place where a comma or a line break ends the field. -/
def Ends (place : Place) : Prop := place = .start ∨ place = .plain ∨ place = .quote

theorem step_comma (h : Ends r.place) : r.step ',' = some (r.endField .start) := by
  rcases h with h | h | h <;> simp [step, delimit, h]

theorem step_cr (h : Ends r.place) : r.step '\r' = some (r.endField .lineBreak) := by
  rcases h with h | h | h <;> simp [step, delimit, h]

theorem step_plain (hplace : r.place = .start ∨ r.place = .plain) (hc : isSpecial c = false) :
    r.step c = some (r.push .plain c) := by
  simp only [isSpecial, Bool.or_eq_false_iff, decide_eq_false_iff_not] at hc
  obtain ⟨⟨⟨hcomma,hquote⟩,hcr⟩,hlf⟩ := hc
  rcases hplace with h | h <;> simp [step, delimit, h, hcomma, hquote, hcr, hlf]

theorem run_plain (hplace : r.place = .start ∨ r.place = .plain) {value : List Char}
    (h : ∀ c ∈ value, isSpecial c = false) :
    ∃ place, Ends place ∧ r.run value = some { r with place, field := r.field ++ value } := by
  induction value generalizing r with
  | nil =>
    refine ⟨r.place, ?_, by simp⟩
    rcases hplace with hstart | hplain
    · exact Or.inl hstart
    · exact Or.inr (Or.inl hplain)
  | cons c value ih =>
    obtain ⟨place,hends,hrun⟩ := @ih (r.push .plain c) (Or.inr rfl)
      fun d hd => h d (List.mem_cons_of_mem _ hd)
    refine ⟨place, hends, ?_⟩
    rw [run_cons, step_plain hplace (h c List.mem_cons_self), Option.bind_some, hrun]
    simp [push]

/-- In quotes each character is read as it is, a doubled quote as one quote. -/
theorem run_doubled (hplace : r.place = .quoted) (value : List Char) :
    r.run (value.flatMap doubled) = some { r with field := r.field ++ value } := by
  induction value generalizing r with
  | nil => simp
  | cons c value ih =>
    have hstep : r.run (doubled c) = some (r.push .quoted c) := by
      unfold doubled
      split_ifs with hc
      · subst hc
        simp [run_cons, step, hplace, push]
      · simp [run_cons, step, hplace, hc]
    rw [List.flatMap_cons, run_append, hstep, Option.bind_some, ih rfl]
    simp [push, hplace]

/-- Behind a field the reader has its value and stands where the field may end. -/
theorem run_fieldText (hplace : r.place = .start) (hfield : r.field = []) {value text : List Char}
    (h : FieldText value text) :
    ∃ place, Ends place ∧ r.run text = some { r with place, field := value } := by
  cases h with
  | plain h =>
    obtain ⟨place,hends,hrun⟩ := run_plain (Or.inl hplace) h
    rw [hfield, List.nil_append] at hrun
    exact ⟨place, hends, hrun⟩
  | quoted =>
    have hopen : r.step '"' = some { r with place := .quoted } := by simp [step, hplace]
    refine ⟨.quote, Or.inr (Or.inr rfl), ?_⟩
    rw [List.cons_append, run_cons, hopen, Option.bind_some, run_append, run_doubled rfl,
      Option.bind_some, run_cons]
    simp [step, hfield]

theorem run_lineText (hplace : r.place = .start) (hfield : r.field = [])
    {values texts : List (List Char)} (h : List.Forall₂ FieldText values texts)
    (hne : values ≠ []) :
    r.run (lineText texts) =
      some { r with fields := [], records := r.records ++ [r.fields ++ values] } := by
  induction h generalizing r with
  | nil => exact absurd rfl hne
  | @cons value text values texts hfirst hrest ih =>
    obtain ⟨place,hends,hrun⟩ := run_fieldText hplace hfield hfirst
    cases hrest with
    | nil =>
      have hcr := @step_cr { r with place, field := value } hends
      have hline : lineText [text] = text ++ ['\r', '\n'] := by simp [lineText]
      rw [hline, run_append, hrun, Option.bind_some, run_cons, hcr, Option.bind_some, run_cons]
      simp [step, endField, endRecord, hplace, hfield]
    | @cons value' text' values texts hsecond hrest =>
      have hcomma := @step_comma { r with place, field := value } hends
      have hline : lineText (text :: text' :: texts) =
          text ++ ',' :: lineText (text' :: texts) := by
        simp [lineText, List.intercalate_cons_cons]
      rw [hline, run_append, hrun, Option.bind_some, run_cons, hcomma, Option.bind_some,
        ih rfl rfl (List.cons_ne_nil _ _)]
      simp [endField, hplace, hfield]

/-- Line by line the reader keeps in step with the writer. -/
theorem run_lines {lines : List (List (List Char) × List (List Char))}
    (h : ∀ line ∈ lines, line.1 ≠ [] ∧ List.Forall₂ FieldText line.1 line.2)
    (records : List (List (List Char))) :
    run { records } (lines.flatMap fun line => lineText line.2) =
      some { records := records ++ lines.map Prod.fst } := by
  induction lines generalizing records with
  | nil => simp
  | cons line lines ih =>
    obtain ⟨hne,hfields⟩ := h line List.mem_cons_self
    rw [List.flatMap_cons, run_append, run_lineText rfl rfl hfields hne, Option.bind_some]
    have hrest := ih (fun l hl => h l (List.mem_cons_of_mem _ hl)) (records ++ [line.1])
    simpa using hrest

end Reader

/-- What is read of a file is what its fields were made from. -/
theorem read_lines {lines : List (List (List Char) × List (List Char))}
    (h : ∀ line ∈ lines, line.1 ≠ [] ∧ List.Forall₂ FieldText line.1 line.2) :
    read (String.ofList (lines.flatMap fun line => lineText line.2)) =
      some (lines.map fun line => line.1.map String.ofList) := by
  have hrun := Reader.run_lines h []
  rw [read, String.toList_ofList, hrun]
  simp [Reader.finish]

example : read "a,\"b\"\"\r\n,\",\r\n\"\",c" = some [["a", "b\"\r\n,", ""], ["", "c"]] ∧
    read "a\"b" = none ∧ read "a\nb" = none := by decide

end Csv
