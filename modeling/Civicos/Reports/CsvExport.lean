import Civicos.Library.Csv
import Civicos.Library.Text
import Civicos.Reports.T3010Sections
import Mathlib.Data.Int.Lemmas

/-!
# Exported files

Exports are sent row by row, a byte order mark first. Read back, a file has the header and under it
the values of each row, where a cell that a spreadsheet might evaluate has a tab in front.
-/
namespace Civicos.Reports

open Library Library.Csv
open Payments (Cents decimalText)

/-! ## Streaming -/

/-- A row by its values as text. Of a dict, the first entry of a key is its value. -/
inductive ExportRow where
  | dict (fields : List (String × String))
  | sequence (values : List String)
deriving DecidableEq, Repr

namespace ExportRow

/-- The values of a row under the columns of an export -/
def values (columns : List String) : ExportRow → List String
  | dict fields => columns.map fun col => (fields.lookup col).getD ""
  | sequence values => values

def cells (columns : List String) (row : ExportRow) : List String :=
  (row.values columns).map sanitizeCsvCell

end ExportRow

/-- `csv.writer.writerow` -/
def writerow (row : List String) : String :=
  String.ofList (excel.writeRecord (row.map String.toList))

structure StreamingResponse where
  filename : String
  chunks : List String
deriving DecidableEq, Repr

def streamingCsvResponse (rows : List ExportRow) (columns : List String) (filenamePrefix : String)
    (periodStart periodEnd : ℕ) : StreamingResponse where
  filename := filenamePrefix ++ "_" ++ isoDate periodStart ++ "_" ++ isoDate periodEnd ++ ".csv"
  chunks := "\uFEFF" :: writerow columns :: rows.map fun row => writerow (row.cells columns)

/-- What the client has when the stream ends -/
def StreamingResponse.body (r : StreamingResponse) : String := String.join r.chunks

/-! ## Reading an export -/

/-- The records of a file behind its byte order mark -/
def readExport (text : String) : List (List String) :=
  match text.toList with
  | '\uFEFF' :: rest => (excel.read rest).map (·.map String.ofList)
  | _ => []

/-- What a spreadsheet shows of a cell -/
def shownCell (s : String) : String :=
  match s.toList with
  | '\t' :: rest => String.ofList rest
  | _ => s

/-- The first characters that make a spreadsheet evaluate a cell -/
def isFormula (s : String) : Bool := s.toList.head?.any (· ∈ "=+-@\r".toList)

section RoundTrip

variable {rows rows' : List ExportRow} {columns : List String} {filenamePrefix : String}
  {periodStart periodEnd : ℕ}

theorem shownCell_sanitize (s : String) : shownCell (sanitizeCsvCell s) = s := by
  unfold sanitizeCsvCell
  split
  · simp [shownCell, String.toList_append]
  next h =>
    unfold shownCell
    split
    next rest htext => simp [htext] at h
    next => rfl

theorem isFormula_sanitize (s : String) : isFormula (sanitizeCsvCell s) = false := by
  unfold sanitizeCsvCell
  split
  · simp [isFormula, String.toList_append]
  next h =>
    unfold isFormula
    cases htext : s.toList with
    | nil => rfl
    | cons c rest =>
      simp only [htext, List.head?_cons, Option.any_some, decide_eq_true_eq] at h
      simp only [List.head?_cons, Option.any_some, decide_eq_false_iff_not]
      simp at h ⊢
      grind

theorem map_shownCell (row : ExportRow) :
    (row.cells columns).map shownCell = row.values columns := by
  simp [ExportRow.cells, Function.comp_def, shownCell_sanitize]

theorem toList_join_writerow (records : List (List String)) :
    (String.join (records.map writerow)).toList =
      excel.write (records.map (·.map String.toList)) := by
  induction records with
  | nil => rfl
  | cons r rs ih => simp [String.join_cons, String.toList_append, ih, writerow, Dialect.write]

theorem readExport_body : readExport
    (streamingCsvResponse rows columns filenamePrefix periodStart periodEnd).body =
      columns :: rows.map (·.cells columns) := by
  have hrows : (rows.map fun row => writerow (row.cells columns)) =
      (rows.map (·.cells columns)).map writerow := by simp [Function.comp_def]
  have htext : (streamingCsvResponse rows columns filenamePrefix periodStart
      periodEnd).body.toList =
        '\uFEFF' :: excel.write ((columns :: rows.map (·.cells columns)).map
          (·.map String.toList)) := by
    rw [← toList_join_writerow, StreamingResponse.body, streamingCsvResponse, String.join_cons,
      String.toList_append, hrows]
    rfl
  simp only [readExport, htext, excel.read_write, List.map_map, Function.comp_def,
    String.ofList_toList, List.map_id']

theorem map_map_shownCell (rows : List ExportRow) :
    (rows.map (·.cells columns)).map (·.map shownCell) = rows.map (·.values columns) := by
  simp [Function.comp_def, map_shownCell]

/-- Files under one header are equal exactly when the values under it are. -/
theorem body_inj {name name' : String} {start stop start' stop' : ℕ} :
    (streamingCsvResponse rows columns name start stop).body =
        (streamingCsvResponse rows' columns name' start' stop').body ↔
      rows.map (·.values columns) = rows'.map (·.values columns) := by
  constructor
  · intro h
    have hread := congrArg readExport h
    rw [readExport_body, readExport_body, List.cons.injEq] at hread
    rw [← map_map_shownCell, hread.2, map_map_shownCell]
  · intro h
    have hcells : ∀ rs : List ExportRow, (rs.map fun row => writerow (row.cells columns)) =
        (rs.map (·.values columns)).map fun vs => writerow (vs.map sanitizeCsvCell) := fun rs => by
      simp [ExportRow.cells, Function.comp_def]
    simp only [StreamingResponse.body, streamingCsvResponse, hcells, h]

/-- Whatever is exported, the file reads back as its header and the rows, one cell for each value.
Without the tabs the cells are the values under the columns, no cell of a row is a formula, and two
files under one header are equal only when these values are: no other key of a row shows. -/
theorem export_round_trip (rows : List ExportRow) (columns : List String) (filenamePrefix : String)
    (periodStart periodEnd : ℕ) :
    readExport (streamingCsvResponse rows columns filenamePrefix periodStart periodEnd).body =
        columns :: rows.map (·.cells columns) ∧
      (rows.map (·.cells columns)).map (·.map shownCell) = rows.map (·.values columns) ∧
      (∀ row ∈ rows, ∀ cell ∈ row.cells columns, isFormula cell = false) ∧
      ∀ rows' name' start' end',
        (streamingCsvResponse rows' columns name' start' end').body =
            (streamingCsvResponse rows columns filenamePrefix periodStart periodEnd).body ↔
          rows'.map (·.values columns) = rows.map (·.values columns) := by
  refine ⟨readExport_body, map_map_shownCell rows, ?_, fun _ _ _ _ => body_inj⟩
  rintro row - cell hcell
  obtain ⟨value, -, rfl⟩ := List.mem_map.mp hcell
  exact isFormula_sanitize value

example : (streamingCsvResponse [.dict [("a", "=1"), ("b", "x,\"y\""), ("c", "left out")]]
    ["a", "b"] "p" 0 0).chunks = ["\uFEFF", "a,b\r\n", "\t=1,\"x,\"\"y\"\"\"\r\n"] := by decide

end RoundTrip

/-! ## The T3010 file -/

def prepColumns : List String :=
  ["section", "period", "donation_count", "total_donated", "eligible_amount", "advantage_amount",
    "receipts_issued"]

def PrepRow.fields (row : PrepRow) : ExportRow :=
  .dict [("section", row.sectionName), ("period", row.period),
    ("donation_count", row.donationCount), ("total_donated", row.totalDonated),
    ("eligible_amount", row.eligibleAmount), ("advantage_amount", row.advantageAmount),
    ("receipts_issued", row.receiptsIssued)]

def T3010Data.prepFile (data : T3010Data) : StreamingResponse :=
  streamingCsvResponse (data.exportT3010PrepCsv.map (·.fields)) prepColumns "t3010_prep"
    data.fiscalYearStart data.fiscalYearEnd

/-- What the rows of the file are made of -/
structure PrepFigures where
  period : String
  summary : GiftFigures
  advantage : Cents
  receiptsIssued : ℕ
  receipted : Cents
  deadline : String
  largeDonationCount : ℕ
  months : List (String × GiftFigures)
  campaigns : List CampaignRow
deriving DecidableEq, Repr

/-- What is printed of a month -/
def labelled (row : FiscalMonthRow) : String × GiftFigures := (row.monthLabel, row.figures)

def T3010Data.prepFigures (data : T3010Data) : PrepFigures where
  period := "FY " ++ isoDate data.fiscalYearStart ++ " to " ++ isoDate data.fiscalYearEnd
  summary := data.summary
  advantage := data.totalAdvantageAmount
  receiptsIssued := data.receiptsIssuedInYear
  receipted := data.totalReceiptedDonations
  deadline := isoDate data.filingDeadline
  largeDonationCount := data.largeDonationCount
  months := data.byMonth.map labelled
  campaigns := data.byCampaign

section Prep

variable {data data' : T3010Data}

/-- Amounts that print alike are equal. -/
theorem decimalText_injective : Function.Injective decimalText := by
  have hdigits : ∀ m n : ℕ,
      toString (m / 100) ++ "." ++ toString (m / 10 % 10) ++ toString (m % 10) =
        toString (n / 100) ++ "." ++ toString (n / 10 % 10) ++ toString (n % 10) → m = n := by
    intro m n h
    have hdot : ∀ k : ℕ, '.' ∉ (toString k).toList := notMem_toString rfl
    have hone : ∀ k < 10, (toString k).toList.length = 1 := by decide
    have hlist := congrArg String.toList h
    simp only [String.toList_append, List.append_assoc] at hlist
    obtain ⟨hwhole, hcents⟩ := append_separator_inj (c := '.') (hdot _) (hdot _) hlist
    have hcents : (toString (m / 10 % 10)).toList ++ (toString (m % 10)).toList =
        (toString (n / 10 % 10)).toList ++ (toString (n % 10)).toList := hcents
    obtain ⟨htens, hunits⟩ := List.append_inj hcents (by
      rw [hone _ (Nat.mod_lt _ (by decide)), hone _ (Nat.mod_lt _ (by decide))])
    have hwhole : m / 100 = n / 100 :=
      Payments.toString_uuid_inj.mp (String.toList_injective hwhole)
    have htens : m / 10 % 10 = n / 10 % 10 :=
      Payments.toString_uuid_inj.mp (String.toList_injective htens)
    have hunits : m % 10 = n % 10 :=
      Payments.toString_uuid_inj.mp (String.toList_injective hunits)
    omega
  have hsign : ∀ m n : ℕ,
      "-" ++ (toString (m / 100) ++ "." ++ toString (m / 10 % 10) ++ toString (m % 10)) ≠
        toString (n / 100) ++ "." ++ toString (n / 10 % 10) ++ toString (n % 10) := by
    intro m n h
    have hminus : '-' ∉ (toString (n / 100) ++ "." ++ toString (n / 10 % 10) ++
        toString (n % 10)).toList := by
      simp only [String.toList_append, List.mem_append, not_or]
      exact ⟨⟨⟨notMem_toString rfl _, by decide⟩, notMem_toString rfl _⟩, notMem_toString rfl _⟩
    rw [← h, String.toList_append] at hminus
    exact hminus List.mem_cons_self
  intro a b h
  unfold decimalText at h
  split at h <;> split at h
  next ha hb =>
    exact (Int.natAbs_inj_of_nonpos_of_nonpos (le_of_lt ha) (le_of_lt hb)).mp
      (hdigits _ _ (String.append_right_inj _ |>.mp h))
  next => exact absurd h (hsign _ _)
  next => exact absurd h.symm (hsign _ _)
  next ha hb =>
    exact (Int.natAbs_inj_of_nonneg_of_nonneg (not_lt.mp ha) (not_lt.mp hb)).mp (hdigits _ _ h)

theorem values_fields (row : PrepRow) : row.fields.values prepColumns =
    [row.sectionName, row.period, row.donationCount, row.totalDonated, row.eligibleAmount,
      row.advantageAmount, row.receiptsIssued] := rfl

theorem values_fields_injective :
    Function.Injective fun row : PrepRow => row.fields.values prepColumns := by
  rintro ⟨⟩ ⟨⟩ h
  simpa [values_fields] using h

theorem ofFigures_inj {s p p' i i' : String} {f f' : GiftFigures} {a a' : Cents} :
    PrepRow.ofFigures s p f a i = PrepRow.ofFigures s p' f' a' i' ↔
      p = p' ∧ f = f' ∧ a = a' ∧ i = i' := by
  obtain ⟨total, eligible, count⟩ := f
  obtain ⟨total', eligible', count'⟩ := f'
  simp only [PrepRow.ofFigures, PrepRow.mk.injEq, GiftFigures.mk.injEq, true_and,
    decimalText_injective.eq_iff, Payments.toString_uuid_inj]
  tauto

theorem ofMonth_inj {r r' : FiscalMonthRow} :
    PrepRow.ofMonth r = PrepRow.ofMonth r' ↔ labelled r = labelled r' := by
  rw [PrepRow.ofMonth, PrepRow.ofMonth, ofFigures_inj, labelled, labelled, Prod.mk.injEq]
  grind

theorem ofCampaign_injective : Function.Injective PrepRow.ofCampaign := by
  intro r r' h
  obtain ⟨hname, hfigures, -, -⟩ := ofFigures_inj.mp h
  cases r
  cases r'
  simp_all

theorem map_ofMonth_inj {m m' : List FiscalMonthRow} :
    m.map PrepRow.ofMonth = m'.map PrepRow.ofMonth ↔ m.map labelled = m'.map labelled := by
  induction m generalizing m' with
  | nil => cases m' <;> simp
  | cons r m ih => cases m' <;> simp [ofMonth_inj, ih]

/-- Rows of months and rows of campaigns are told apart by their sections. -/
theorem sections_inj {m m' : List FiscalMonthRow} {c c' : List CampaignRow} :
    m.map PrepRow.ofMonth ++ c.map PrepRow.ofCampaign =
        m'.map PrepRow.ofMonth ++ c'.map PrepRow.ofCampaign ↔
      m.map labelled = m'.map labelled ∧ c = c' := by
  have hmonths : ∀ (m : List FiscalMonthRow) (c : List CampaignRow),
      (m.map PrepRow.ofMonth ++ c.map PrepRow.ofCampaign).filter
        (fun row => row.sectionName = "MONTHLY") = m.map PrepRow.ofMonth := by
    intro m c
    have hm : (m.map PrepRow.ofMonth).filter (fun row => row.sectionName = "MONTHLY") =
        m.map PrepRow.ofMonth := by
      simp [List.filter_eq_self, PrepRow.ofMonth, PrepRow.ofFigures]
    have hc : (c.map PrepRow.ofCampaign).filter (fun row => row.sectionName = "MONTHLY") = [] := by
      simp [List.filter_eq_nil_iff, PrepRow.ofCampaign, PrepRow.ofFigures]
    rw [List.filter_append, hm, hc, List.append_nil]
  constructor
  · intro h
    have hm : m.map PrepRow.ofMonth = m'.map PrepRow.ofMonth := by
      rw [← hmonths m c, h, hmonths]
    rw [hm] at h
    exact ⟨map_ofMonth_inj.mp hm,
      List.map_injective_iff.mpr ofCampaign_injective (List.append_cancel_left h)⟩
  · rintro ⟨hm, rfl⟩
    rw [map_ofMonth_inj.mpr hm]

theorem exportT3010PrepCsv_inj :
    data.exportT3010PrepCsv = data'.exportT3010PrepCsv ↔ data.prepFigures = data'.prepFigures := by
  simp only [T3010Data.exportT3010PrepCsv, List.cons_append, List.nil_append,
    List.cons.injEq, ofFigures_inj, sections_inj, T3010Data.prepFigures, PrepFigures.mk.injEq,
    PrepRow.mk.injEq, decimalText_injective.eq_iff, Payments.toString_uuid_inj]
  grind

/-- The file of a report says what the report says in print, and nothing else. -/
theorem t3010_file_determines (data data' : T3010Data) :
    data.prepFile.body = data'.prepFile.body ↔ data.prepFigures = data'.prepFigures := by
  unfold T3010Data.prepFile
  rw [body_inj, List.map_map, List.map_map, ← exportT3010PrepCsv_inj]
  exact (List.map_injective_iff.mpr values_fields_injective).eq_iff

end Prep

end Civicos.Reports
