import StreamPay.Library.Csv
import StreamPay.Library.IsoDate
import StreamPay.StreamExport
import StreamPay.StreamRepository

/-! The text of `GET /export.csv`. -/
namespace StreamPay

/-- A `numeric(20,9)` as the driver hands it over: nine decimal places. -/
def numericText (amount : ℤ) : String :=
  let digits := Nat.toDigits 10 (amount.natAbs%10^9)
  String.ofList ((if amount < 0 then ['-'] else []) ++ Nat.toDigits 10 (amount.natAbs/10^9) ++
    '.' :: (List.replicate (9-digits.length) '0' ++ digits))

def csvHeader : String :=
  "id,payer,recipient,status,ratePerSecond,startTime,endTime,totalAmount,lastSettledAt,createdAt,updatedAt\r\n"

/-- RFC 4180-compliant field escaping. -/
def escapeCsvField (value : String) : String :=
  if value.toList.any (· ∈ [',', '"', '\r', '\n']) then
    "\"" ++ String.ofList (value.toList.flatMap fun c => if c = '"' then ['"', '"'] else [c]) ++ "\""
  else value

/-- The array `fields` of `rowToCsvLine`. -/
def csvFields (stream : Stream) : List String :=
  [stream.id.text, stream.payer, stream.recipient, stream.status.name,
    numericText stream.ratePerSecond, IsoDate.toISOString stream.startTime,
    (stream.endTime.map IsoDate.toISOString).getD "", numericText stream.totalAmount,
    IsoDate.toISOString stream.lastSettledAt, IsoDate.toISOString stream.createdAt,
    IsoDate.toISOString stream.updatedAt]

def rowToCsvLine (stream : Stream) : String :=
  String.intercalate "," ((csvFields stream).map escapeCsvField) ++ "\r\n"

/-- What `GET /export.csv` writes for the rows it has read. -/
def exportedCsv (rows : List Stream) : String := csvHeader ++ String.join (rows.map rowToCsvLine)

example : numericText 1500000000 = "1.500000000" ∧ numericText (-7) = "-0.000000007" := by decide

/-- The names of the columns, as the header has them. -/
def csvColumns : List String :=
  ["id", "payer", "recipient", "status", "ratePerSecond", "startTime", "endTime", "totalAmount",
    "lastSettledAt", "createdAt", "updatedAt"]

/-- Escaping a field gives one of the two forms that RFC 4180 has for it. -/
theorem fieldText_escapeCsvField (value : String) :
    Csv.FieldText value.toList (escapeCsvField value).toList := by
  unfold escapeCsvField
  split_ifs with h
  · have hquoted := Csv.FieldText.quoted value.toList
    simp only [String.toList_append, String.toList_ofList]
    exact hquoted
  · apply Csv.FieldText.plain
    intro c hc
    have hplain : c ∉ [',', '"', '\r', '\n'] := by
      intro hspecial
      exact h (List.any_eq_true.mpr ⟨c, hc, decide_eq_true hspecial⟩)
    simp only [List.mem_cons, List.not_mem_nil, or_false, not_or] at hplain
    simp [Csv.isSpecial, hplain]

/-- A line with the characters of its fields and of their texts. -/
def csvLine (fields : List String) : List (List Char) × List (List Char) :=
  (fields.map String.toList, fields.map fun field => (escapeCsvField field).toList)

theorem csvLine_fields (fields : List String) :
    List.Forall₂ Csv.FieldText (csvLine fields).1 (csvLine fields).2 := by
  induction fields with
  | nil => exact List.Forall₂.nil
  | cons field fields ih => exact List.Forall₂.cons (fieldText_escapeCsvField field) ih

theorem toList_csvLine (fields : List String) :
    (String.intercalate "," (fields.map escapeCsvField) ++ "\r\n").toList =
      Csv.lineText (csvLine fields).2 := by
  simp only [Csv.lineText, csvLine, String.toList_append, String.toList_intercalate, List.map_map]
  rfl

theorem csvHeader_eq : csvHeader =
    String.intercalate "," (csvColumns.map escapeCsvField) ++ "\r\n" := by
  decide +kernel

theorem toList_exportedCsv (rows : List Stream) :
    (exportedCsv rows).toList =
      ((csvColumns :: rows.map csvFields).map csvLine).flatMap fun line => Csv.lineText line.2 := by
  have hrows : (String.join (rows.map rowToCsvLine)).toList =
      ((rows.map csvFields).map csvLine).flatMap fun line => Csv.lineText line.2 := by
    rw [String.toList_join, List.flatMap_map, List.flatMap_map, List.flatMap_map]
    exact List.flatMap_congr fun stream _ => toList_csvLine (csvFields stream)
  rw [exportedCsv, String.toList_append, hrows, csvHeader_eq, toList_csvLine]
  rfl

/-- Lines of escaped fields read as these fields. -/
theorem read_csvLines {records : List (List String)} (h : ∀ fields ∈ records, fields ≠ []) :
    Csv.read (String.ofList ((records.map csvLine).flatMap fun line => Csv.lineText line.2)) =
      some records := by
  have hlines : ∀ line ∈ records.map csvLine,
      line.1 ≠ [] ∧ List.Forall₂ Csv.FieldText line.1 line.2 := by
    intro line hline
    obtain ⟨fields,hfields,rfl⟩ := List.mem_map.mp hline
    exact ⟨fun hnil => h fields hfields (List.map_eq_nil_iff.mp hnil), csvLine_fields fields⟩
  have hback : ∀ fields : List String, (csvLine fields).1.map String.ofList = fields := by
    intro fields
    simp [csvLine]
  rw [Csv.read_lines hlines, List.map_map]
  congr 1
  calc records.map ((fun line => line.1.map String.ofList) ∘ csvLine)
      = records.map id := List.map_congr_left fun fields _ => hback fields
    _ = records := List.map_id records

/-- The file of any rows reads as the header and one record a row, with the fields of
the row in the order of the columns. -/
theorem read_exportedCsv (rows : List Stream) :
    Csv.read (exportedCsv rows) = some
      (["id", "payer", "recipient", "status", "ratePerSecond", "startTime", "endTime",
          "totalAmount", "lastSettledAt", "createdAt", "updatedAt"] ::
        rows.map fun stream => [stream.id.text, stream.payer, stream.recipient,
          stream.status.name, numericText stream.ratePerSecond,
          IsoDate.toISOString stream.startTime,
          match stream.endTime with
            | none => ""
            | some endTime => IsoDate.toISOString endTime,
          numericText stream.totalAmount, IsoDate.toISOString stream.lastSettledAt,
          IsoDate.toISOString stream.createdAt, IsoDate.toISOString stream.updatedAt]) := by
  have hread : Csv.read (exportedCsv rows) = some (csvColumns :: rows.map csvFields) := by
    rw [← String.ofList_toList (s := exportedCsv rows), toList_exportedCsv]
    apply read_csvLines
    intro fields hfields
    rcases List.mem_cons.mp hfields with rfl | hrow
    · exact List.cons_ne_nil _ _
    · obtain ⟨stream,_,rfl⟩ := List.mem_map.mp hrow
      exact List.cons_ne_nil _ _
  rw [hread]
  congr 2
  apply List.map_congr_left
  intro stream _
  rw [csvFields]
  cases stream.endTime <;> rfl

end StreamPay
