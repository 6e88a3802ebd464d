import FleetTracking.ControlPlane.AlertEngine
import FleetTracking.ControlPlane.Reports
import FleetTracking.Lib.Csv
import FleetTracking.Lib.Decimal

/-!
# The CSV Export

A report as a CSV text, and what a reader of RFC 4180 sees of it. A cell is put in quotes for a
quote, a comma or a LF, but not for a CR: where the last cell of a line ends with one, the reader
takes it for the line ending.

1. `toCsv`: the function; `Report.records`: what a reader should see.
2. `toCsv_eq`: the text is that of the records.
3. `csv_round_trip_iff`: when a reader sees them.
-/

namespace FleetTracking.ControlPlane

open ReportEngine

/-! ## The exporter -/

/-- `String(v)`. -/
def ReportValue.toText : ReportValue → List Char
  | .text s => s.toList
  | .number (some x) => (JsNumber.numberText x).toList
  | .number none => "NaN".toList

namespace CsvExport

/-- `/[",\n]/`. -/
def special (c : Char) : Bool := c = '"' ∨ c = ',' ∨ c = '\n'

def csvCell (v : ReportValue) : List Char :=
  let s := v.toText
  if s.any special then '"' :: s.flatMap (fun c => if c = '"' then ['"', '"'] else [c]) ++ ['"']
  else s

def toCsv (report : Report) : List Char :=
  let header := [','].intercalate (report.columns.map fun c => csvCell (.text c.label))
  let rows := report.rows.map fun row =>
    [','].intercalate (report.columns.map fun c => csvCell (row.cell c.key))
  let summary := report.summary.map fun (k, v) => csvCell (.text k) ++ [','] ++ csvCell v
  ['\n'].intercalate ([header] ++ rows ++ [[]] ++ summary)

end CsvExport

/-- The labels, the cells of each row in order, the empty record, and the pairs of the summary. -/
def Report.records (report : Report) : List Csv.Record :=
  [report.columns.map fun c => c.label.toList] ++
    report.rows.map (fun row => report.columns.map fun c => (row.cell c.key).toText) ++
    [[[]]] ++ report.summary.map fun (k, v) => [k.toList, v.toText]

namespace CsvExport

/-! ## What a reader sees -/

section Reading

variable {report : Report} {column : ReportColumn} {t : List Char}

theorem special_covers : Csv.Covers special where
  comma := rfl
  newline := rfl
  quote := rfl

theorem csvCell_eq (v : ReportValue) : csvCell v = Csv.writeCell special v.toText := rfl

theorem writeRecord_header (columns : List ReportColumn) :
    Csv.writeRecord special (columns.map fun c => c.label.toList) =
      [','].intercalate (columns.map fun c => csvCell (.text c.label)) := by
  simp only [Csv.writeRecord, List.map_map, csvCell_eq]
  rfl

theorem writeRecord_row (columns : List ReportColumn) (row : ReportRow) :
    Csv.writeRecord special (columns.map fun c => (row.cell c.key).toText) =
      [','].intercalate (columns.map fun c => csvCell (row.cell c.key)) := by
  simp only [Csv.writeRecord, List.map_map, csvCell_eq]
  rfl

theorem writeRecord_pair (k : String) (v : ReportValue) :
    Csv.writeRecord special [k.toList, v.toText] = csvCell (.text k) ++ [','] ++ csvCell v := by
  rw [Csv.writeRecord, List.map_cons, List.map_singleton, List.intercalate_cons_cons,
    List.intercalate_singleton, csvCell_eq, csvCell_eq]
  rfl

/-- **The text of a report is that of its records.** -/
theorem toCsv_eq (report : Report) : toCsv report = Csv.write special report.records := by
  unfold toCsv Csv.write Report.records
  simp only [List.map_append, List.map_map, List.map_cons, List.map_nil, Function.comp_def,
    writeRecord_header, writeRecord_row, writeRecord_pair]
  rfl

/-- No CR, no loss. -/
theorem not_swallowed_of_not_mem (h : '\r' ∉ t) : ¬ Csv.Swallowed special t :=
  fun hswallowed => h (List.mem_of_getLast? hswallowed.2)

/-- A report with this last column, whose summary is not empty and holds no CR in its values. -/
structure LastColumn (report : Report) (column : ReportColumn) : Prop where
  last : report.columns.getLast? = some column
  label : '\r' ∉ column.label.toList
  summary : report.summary ≠ []
  values : ∀ pair ∈ report.summary, '\r' ∉ pair.2.toText

theorem LastColumn.records_ne_nil (h : LastColumn report column) :
    ∀ r ∈ report.records, r ≠ [] := by
  have hcolumns : report.columns ≠ [] := by
    intro hnil
    have hlast := h.last
    rw [hnil] at hlast
    cases hlast
  intro r hr
  simp only [Report.records, List.mem_append, List.mem_singleton, List.mem_map] at hr
  rcases hr with ((rfl | ⟨row, -, rfl⟩) | rfl) | ⟨pair, -, rfl⟩
  · exact fun hnil => hcolumns (List.map_eq_nil_iff.mp hnil)
  · exact fun hnil => hcolumns (List.map_eq_nil_iff.mp hnil)
  · exact List.cons_ne_nil _ _
  · exact List.cons_ne_nil _ _

/-- The last record is a pair of the summary. -/
theorem LastColumn.last_record (h : LastColumn report column) :
    ∀ r ∈ report.records.getLast?, r ≠ [[]] := by
  intro r hr
  rw [Report.records, List.getLast?_append_of_ne_nil _ (by simpa using h.summary),
    List.getLast?_map] at hr
  obtain ⟨pair, -, rfl⟩ := Option.map_eq_some_iff.mp hr
  intro hempty
  cases (List.cons.inj hempty).2

/-- **What a reader loses** is the CR at the end of a cell in the last column. -/
theorem LastColumn.read_toCsv_iff (h : LastColumn report column) :
    Csv.read (toCsv report) = some report.records ↔
      ∀ row ∈ report.rows, ¬ Csv.Swallowed special (row.cell column.key).toText := by
  rw [toCsv_eq, Csv.read_write_iff special_covers h.records_ne_nil h.last_record, Report.records,
    List.dropLast_append_of_ne_nil (by simpa using h.summary), List.append_assoc,
    List.append_assoc]
  constructor
  · intro hall row hrow
    apply hall _ (List.mem_append_right _ (List.mem_append_left _ (List.mem_map_of_mem hrow)))
    rw [List.getLast?_map, h.last]
    rfl
  · intro hrows r hr t ht
    rcases List.mem_append.mp hr with hr | hr
    · -- the labels
      obtain rfl := List.mem_singleton.mp hr
      rw [List.getLast?_map, h.last] at ht
      obtain rfl := Option.some.inj ht
      exact not_swallowed_of_not_mem h.label
    rcases List.mem_append.mp hr with hr | hr
    · obtain ⟨row, hrow, rfl⟩ := List.mem_map.mp hr
      rw [List.getLast?_map, h.last] at ht
      obtain rfl := Option.some.inj ht
      exact hrows row hrow
    rcases List.mem_append.mp hr with hr | hr
    · -- the empty record
      obtain rfl := List.mem_singleton.mp hr
      obtain rfl := Option.some.inj ht
      exact not_swallowed_of_not_mem List.not_mem_nil
    · obtain ⟨pair, hpair, rfl⟩ := List.mem_map.mp (List.mem_of_mem_dropLast hr)
      obtain rfl := Option.some.inj ht
      exact not_swallowed_of_not_mem (h.values pair hpair)

theorem LastColumn.read_toCsv (h : LastColumn report column)
    (hrows : ∀ row ∈ report.rows, '\r' ∉ (row.cell column.key).toText) :
    Csv.read (toCsv report) = some report.records :=
  h.read_toCsv_iff.mpr fun row hrow => not_swallowed_of_not_mem (hrows row hrow)

end Reading

/-! ## Cells that never end with a CR -/

theorem not_mem_digits (n : Nat) : '\r' ∉ (toString n).toList :=
  fun h => absurd (Decimal.isDigit_of_mem_digits h) (by decide)

theorem not_mem_int (i : Int) : '\r' ∉ (toString i).toList := by
  cases i with
  | ofNat n => exact not_mem_digits n
  | negSucc n =>
    have htext : (toString (Int.negSucc n)).toList = '-' :: (toString (n + 1)).toList :=
      String.toList_append
    rw [htext, List.mem_cons, not_or]
    exact ⟨by decide, not_mem_digits (n + 1)⟩

theorem not_mem_numberText (x : ℚ) : '\r' ∉ (JsNumber.numberText x).toList := by
  have hsign : '\r' ∉ (if x < 0 then "-" else "").toList := by
    split
    · decide
    · decide
  unfold JsNumber.numberText
  dsimp only
  split
  · rw [String.toList_append, List.mem_append, not_or]
    exact ⟨hsign, not_mem_digits _⟩
  · simp only [String.toList_append, List.mem_append, not_or]
    refine ⟨⟨⟨hsign, not_mem_digits _⟩, by decide⟩, fun h => ?_⟩
    exact absurd (Decimal.isDigit_of_mem_padded h) (by decide)

theorem not_mem_number (x : Option ℚ) : '\r' ∉ (ReportValue.number x).toText := by
  cases x with
  | none => decide
  | some x => exact not_mem_numberText x

theorem not_mem_hm (min : Option Int) : '\r' ∉ (ReportValue.text (hm min)).toText := by
  cases min with
  | none => decide
  | some min =>
    have htext : (hm (some min)).toList =
        (toString (min.fdiv 60)).toList ++ "h ".toList ++ (toString (min.tmod 60)).toList ++
          "m".toList := by
      simp only [hm, String.toList_append]
      rfl
    rw [ReportValue.toText, htext]
    simp only [List.mem_append, not_or]
    exact ⟨⟨⟨not_mem_int _, by decide⟩, not_mem_int _⟩, by decide⟩

theorem not_mem_score (score : Int) : '\r' ∉ (ReportValue.text s!"{score}/100").toText := by
  have htext : (s!"{score}/100").toList = (toString score).toList ++ "/100".toList := by
    simp only [String.toList_append]
    rfl
  rw [ReportValue.toText, htext, List.mem_append, not_or]
  exact ⟨not_mem_int score, by decide⟩

/-! ## The reports -/

section Reports

variable (dateParse : String → Option Int)

theorem tripsReport_last (trips : List Trip) (start stop generatedAt : String) :
    LastColumn (tripsReport dateParse trips start stop generatedAt)
      ⟨"maxSpeedKph", "Max speed (km/h)"⟩ where
  last := rfl
  label := by decide
  summary := List.cons_ne_nil _ _
  values := by
    simp only [tripsReport, List.forall_mem_cons]
    exact ⟨not_mem_number _, not_mem_number _, not_mem_hm _, fun _ h => nomatch h⟩

theorem speedingReport_last (alerts : List AlertEvent) (start stop generatedAt : String) :
    LastColumn (speedingReport alerts start stop generatedAt) ⟨"limitKph", "Limit (km/h)"⟩ where
  last := rfl
  label := by decide
  summary := List.cons_ne_nil _ _
  values := by
    simp only [speedingReport, List.forall_mem_cons]
    exact ⟨not_mem_number _, not_mem_number _, fun _ h => nomatch h⟩

theorem geofenceActivityReport_last (alerts : List AlertEvent) (start stop generatedAt : String) :
    LastColumn (geofenceActivityReport alerts start stop generatedAt) ⟨"detail", "Detail"⟩ where
  last := rfl
  label := by decide
  summary := List.cons_ne_nil _ _
  values := by
    simp only [geofenceActivityReport, List.forall_mem_cons]
    exact ⟨not_mem_number _, not_mem_number _, fun _ h => nomatch h⟩

theorem deviceSummaryReport_last (trips : List Trip) (alerts : List AlertEvent)
    (start stop generatedAt : String) :
    LastColumn (deviceSummaryReport dateParse trips alerts start stop generatedAt)
      ⟨"value", "Value"⟩ where
  last := rfl
  label := by decide
  summary := List.cons_ne_nil _ _
  values := by
    simp only [deviceSummaryReport, List.forall_mem_cons]
    exact ⟨not_mem_number _, not_mem_number _, not_mem_number _, fun _ h => nomatch h⟩

theorem fleetSummaryReport_last (perDevice : List FleetEntry) (start stop generatedAt : String) :
    LastColumn (fleetSummaryReport dateParse perDevice start stop generatedAt)
      ⟨"score", "Score"⟩ where
  last := rfl
  label := by decide
  summary := List.cons_ne_nil _ _
  values := by
    simp only [fleetSummaryReport, List.forall_mem_cons]
    exact ⟨not_mem_number _, not_mem_number _, not_mem_number _, fun _ h => nomatch h⟩

/-- Every message of a geofence report that ends with a CR gets quotes. -/
def Quoted : ReportCall → Prop
  | .geofence alerts _ _ _ => ∀ a ∈ alerts, a.type = .geofence_enter ∨ a.type = .geofence_exit →
      a.message.toList.getLast? = some '\r' → a.message.toList.any special = true
  | _ => True

/-- **When the export comes back.** A reader that takes LF and CRLF for a line ending sees the
labels, the rows, the empty record and the summary exactly if no message in the last column of a
geofence report ends with a CR without being put in quotes. -/
theorem csv_round_trip_iff (call : ReportCall) :
    Csv.read (toCsv (call.report dateParse)) = some (call.report dateParse).records ↔
      Quoted call := by
  -- only the geofence report ends its rows with a text of the tenant; the others end with numbers
  cases call with
  | trips ts start stop now =>
    have hlast := tripsReport_last dateParse ts start stop now
    refine iff_of_true (hlast.read_toCsv fun row hrow => ?_) trivial
    obtain ⟨t, -, rfl⟩ := List.mem_map.mp hrow
    exact not_mem_number _
  | speeding alerts start stop now =>
    have hlast := speedingReport_last alerts start stop now
    refine iff_of_true (hlast.read_toCsv fun row hrow => ?_) trivial
    obtain ⟨a, -, rfl⟩ := List.mem_map.mp hrow
    exact not_mem_number _
  | summary ts alerts start stop now =>
    have hlast := deviceSummaryReport_last dateParse ts alerts start stop now
    refine iff_of_true (hlast.read_toCsv ?_) trivial
    simp only [deviceSummaryReport, List.forall_mem_cons]
    exact ⟨not_mem_number _, not_mem_number _, not_mem_hm _, not_mem_number _, not_mem_number _,
      not_mem_number _, not_mem_score _, fun _ h => nomatch h⟩
  | fleet perDevice start stop now =>
    have hlast := fleetSummaryReport_last dateParse perDevice start stop now
    refine iff_of_true (hlast.read_toCsv fun row hrow => ?_) trivial
    obtain ⟨s, -, rfl⟩ := List.mem_map.mp hrow
    exact not_mem_number _
  | geofence alerts start stop now =>
    refine (geofenceActivityReport_last alerts start stop now).read_toCsv_iff.trans ?_
    have hcell : ∀ a : AlertEvent, ¬ Csv.Swallowed special a.message.toList ↔
        (a.message.toList.getLast? = some '\r' → a.message.toList.any special = true) := by
      intro a
      rw [Csv.Swallowed, not_and', Bool.not_eq_false]
    constructor
    · intro hall a ha htype
      have hgeo : a ∈ alerts.filter isGeofence :=
        List.mem_filter.mpr ⟨ha, decide_eq_true htype⟩
      exact (hcell a).mp (hall _ (List.mem_map_of_mem hgeo))
    · intro hquoted row hrow
      obtain ⟨a, ha, rfl⟩ := List.mem_map.mp hrow
      obtain ⟨hmem, htype⟩ := List.mem_filter.mp ha
      exact (hcell a).mpr (hquoted a hmem (of_decide_eq_true htype))

end Reports

/-- A position in a geofence whose name ends with a CR. -/
def sampleEntered : List AlertEvent :=
  (AlertEngine.new.evaluate (fun _ _ _ _ => 0)
    ⟨"acme", "van", "356307042441013", "2026-01-01T00:00:00.000Z", 0, 0, 0, 0, 0, 9, none, []⟩
    DEFAULT_ALERT_CONFIG [⟨"yard", "acme", "Yard\r", .circle 0 0 100⟩] 0).2

def sampleActivity : Report :=
  geofenceActivityReport sampleEntered "2026-01-01T00:00:00.000Z" "2026-01-02T00:00:00.000Z"
    "2026-01-02T00:00:00.000Z"

/-- **A CR at the end of a geofence's name is lost.** -/
theorem trailing_return_lost :
    sampleActivity.records = [["Time", "Event", "Detail"],
        ["2026-01-01 00:00:00 UTC", "Enter", "Entered Yard\r"], [""], ["entries", "1"],
        ["exits", "0"]].map (fun r => r.map String.toList) ∧
      Csv.read (toCsv sampleActivity) = some ([["Time", "Event", "Detail"],
        ["2026-01-01 00:00:00 UTC", "Enter", "Entered Yard"], [""], ["entries", "1"],
        ["exits", "0"]].map fun r => r.map String.toList) ∧
      Csv.read (toCsv sampleActivity) ≠ some sampleActivity.records := by
  decide +kernel

end CsvExport

end FleetTracking.ControlPlane
