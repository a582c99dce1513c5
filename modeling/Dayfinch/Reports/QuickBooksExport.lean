/-
# Dayfinch.Reports.QuickBooksExport -- the QuickBooks export can be read back, and adds up

Two things are proved about an export. Every field is printable ASCII (`PrintableLine`), so that neither
a CR nor a TAB stands inside a field and the table is read as it was written. And the lines of a row show
durations between a minute and `MAX_DURATION_MINUTES` that add up to the row's minutes (`RowLines`), which is
what one pass through the loop preserves (`exportRow_ensures`) and therefore the whole loop
(`exportRows_ensures`).
-/
import Dayfinch.Reports.QuickBooks

namespace Dayfinch

open Library (Ensures ensures_ite bind_eq_ok)
open Library.Text (truncate strip)
open Library.Lines (writeTable readTable)

/-! ## Printable texts -/

/-- Printable ASCII. -/
def Printable (text : String) : Prop := ∀ c ∈ text.toList, 32 ≤ c.toNat ∧ c.toNat ≤ 126

instance (text : String) : Decidable (Printable text) :=
  List.decidableBAll (fun c : Char => 32 ≤ c.toNat ∧ c.toNat ≤ 126) text.toList

/-- A line whose fields are printable. -/
def PrintableLine (line : List String) : Prop := ∀ field ∈ line, Printable field

instance (line : List String) : Decidable (PrintableLine line) :=
  List.decidableBAll Printable line

theorem printable_of_ascii {c : Char} (hascii : isAscii c = true) (hcontrol : isControl c = false) :
    32 ≤ c.toNat ∧ c.toNat ≤ 126 := by
  simp only [isAscii, decide_eq_true_eq] at hascii
  simp only [isControl, Bool.or_eq_false_iff, decide_eq_false_iff_not, beq_eq_false_iff_ne] at hcontrol
  omega

theorem printable_append {s t : String} (hs : Printable s) (ht : Printable t) : Printable (s ++ t) := by
  intro c hc
  rw [String.toList_append] at hc
  rcases List.mem_append.mp hc with hmem | hmem
  · exact hs c hmem
  · exact ht c hmem

theorem printable_digits {s : String} (h : ∀ c ∈ s.toList, c.isDigit = true) : Printable s := by
  intro c hc
  have hdigit := h c hc
  simp only [Char.isDigit, Bool.and_eq_true, decide_eq_true_eq, UInt32.le_iff_toNat_le] at hdigit
  exact ⟨le_trans (by decide) hdigit.1, le_trans hdigit.2 (by decide)⟩

theorem printable_toString (n : Nat) : Printable (toString n) :=
  printable_digits fun _ hc => Library.Text.isDigit_of_mem_toString hc

theorem printable_leftpad (width n : Nat) : Printable (String.leftpad width '0' (toString n)) :=
  printable_digits fun _ hc => Library.Text.isDigit_of_mem_leftpad hc

theorem printable_toString_int (n : Int) : Printable (toString n) := by
  rw [Int.toString_eq_repr, Int.repr_eq_if]
  split
  · exact printable_toString n.toNat
  · exact printable_append (by decide) (printable_toString (-n).toNat)

theorem printable_truncate {n : Nat} {s : String} (hs : Printable s) : Printable (truncate n s) := by
  intro c hc
  rw [truncate, String.toList_ofList] at hc
  exact hs c (List.mem_of_mem_take hc)

theorem printable_durationText (minutes : Nat) : Printable (durationText minutes) := by
  refine printable_append (printable_append (printable_toString _) (by decide)) ?_
  exact printable_leftpad 2 (minutes % 60)

theorem printable_monthAndDay (day : Int) : Printable (monthAndDay day) := by
  refine printable_append (printable_append (printable_append ?_ (by decide)) ?_) (by decide)
  · exact printable_leftpad 2 _
  · exact printable_leftpad 2 _

/-- **A mapping that is accepted is printable.** -/
theorem validateMapping_ensures (value label : String) (required : Bool) (maxLength : Nat) :
    Ensures (validateMapping value label required maxLength) Printable := by
  refine Ensures.bind ensures_raiseIf fun _ _ => ?_
  refine Ensures.bind ensures_raiseIf fun _ _ => ?_
  refine Ensures.bind ensures_raiseIf fun _ hcontrol => ?_
  refine Ensures.bind ensures_raiseIf fun _ hascii => ?_
  refine Ensures.bind ensures_raiseIf fun _ _ => ?_
  rw [Library.ensures_pure]
  intro c hc
  rw [Bool.not_eq_true, List.any_eq_false] at hcontrol
  rw [Bool.not_eq_false, List.all_eq_true] at hascii
  exact printable_of_ascii (hascii c hc) (by simpa using hcontrol c hc)

/-- **Whatever a note contains, what is written of it is printable.** -/
theorem printable_safeNote {unicode : UnicodeData} (h : unicode.Documented) (value : Option String) :
    Printable (safeNote unicode value) := by
  have hnote : ∀ folded : List Char, Printable (truncate 1000 (String.ofList
      (((unicode.nfkd (folded.map fun c => if isControl c then ' ' else c)).filter
        fun c => !unicode.combining c).map fun c => if isAscii c then c else '?'))) := by
    intro folded
    apply printable_truncate
    -- control characters have been replaced by spaces, and the normal form brings none
    have hfolded : ∀ c ∈ folded.map fun c => if isControl c then ' ' else c, isControl c = false := by
      intro c hc
      obtain ⟨x, _, rfl⟩ := List.mem_map.mp hc
      by_cases hcontrol : isControl x = true
      · simp only [hcontrol, if_true]
        decide
      · rw [if_neg hcontrol]
        exact Bool.eq_false_iff.mpr hcontrol
    intro c hc
    rw [String.toList_ofList] at hc
    obtain ⟨x, hx, rfl⟩ := List.mem_map.mp hc
    split
    · rename_i hascii
      exact printable_of_ascii hascii (h.nfkd_controls _ hfolded x (List.mem_of_mem_filter hx))
    · decide
  unfold safeNote
  simp only
  split
  · exact printable_truncate (printable_append (by decide) (hnote _))
  · exact hnote _

/-! ## The lines of a row -/

/-- The values of a row are printable, and its seconds are rounded half up to minutes. -/
structure RowValues.Of (values : RowValues) (row : QuickBooksRow) : Prop where
  printable : ∀ duration, PrintableLine (values.activity duration)
  seconds : 0 ≤ row.seconds
  rounded : (values.roundedMinutes : Int) = (row.seconds + 30) / 60

theorem rowValues_ensures {unicode : UnicodeData} (h : unicode.Documented) (row : QuickBooksRow)
    (defaultItem : String) :
    Ensures (rowValues unicode row defaultItem) fun values => values.Of row := by
  refine Ensures.bind (validateMapping_ensures _ _ _ _) fun employee hemployee => ?_
  refine Ensures.bind (validateMapping_ensures _ _ _ _) fun job hjob => ?_
  refine Ensures.bind (validateMapping_ensures _ _ _ _) fun serviceItem hserviceItem => ?_
  refine Ensures.bind (validateMapping_ensures _ _ _ _) fun className hclassName => ?_
  refine Ensures.bind ensures_raiseIf fun _ _ => ?_
  refine Ensures.bind ensures_raiseIf fun _ hseconds => ?_
  rw [Library.ensures_pure]
  refine ⟨fun duration field hfield => ?_, not_lt.mp hseconds, ?_⟩
  · simp only [RowValues.activity, List.mem_cons, List.not_mem_nil, or_false] at hfield
    rcases hfield with rfl | rfl | rfl | rfl | rfl | rfl | rfl | rfl | rfl | rfl
    · decide
    · exact printable_append (printable_monthAndDay _) (printable_leftpad 2 _)
    · exact hjob
    · exact hemployee
    · exact hserviceItem
    · decide
    · exact printable_durationText duration
    · exact hclassName
    · exact printable_safeNote h row.note
    · exact printable_toString _
  · show ((((row.seconds + 30) / 60).toNat : Nat) : Int) = _
    omega

/-- Lines with these durations have been added. -/
def IifTotals.emitAll (totals : IifTotals) (values : RowValues) (durations : List Nat) : IifTotals :=
  { totals with
    output := totals.output ++ durations.map values.activity
    exportedMinutes := totals.exportedMinutes + durations.sum
    rowCount := totals.rowCount + durations.length }

theorem IifTotals.emitAll_emit (totals : IifTotals) (values : RowValues) (duration : Nat)
    (durations : List Nat) :
    (totals.emit values duration).emitAll values durations =
      totals.emitAll values (duration :: durations) := by
  simp [IifTotals.emitAll, IifTotals.emit]
  omega

/-- Between a minute and a minute less than a day. -/
def Chunks (durations : List Nat) : Prop := ∀ d ∈ durations, 1 ≤ d ∧ d ≤ maxDurationMinutes

/-- **The loop divides the minutes** into durations that fit a line. -/
theorem emitDurations_ensures (values : RowValues) (minutes : Nat) (totals : IifTotals) :
    Ensures (emitDurations values minutes totals) fun totals' =>
      ∃ durations, Chunks durations ∧ durations.sum = minutes ∧
        totals' = totals.emitAll values durations := by
  induction minutes, totals using emitDurations.induct with
  | values => exact values
  | case1 totals =>
    unfold emitDurations
    rw [if_pos rfl, Library.ensures_pure]
    exact ⟨[], fun _ h => absurd h List.not_mem_nil, rfl, by simp [IifTotals.emitAll]⟩
  | case2 minutes totals hminutes duration totals' hlimit =>
    unfold emitDurations
    rw [if_neg hminutes]
    simp only
    rw [if_pos hlimit]
    exact Library.ensures_error
  | case3 minutes totals hminutes duration totals' hlimit ih =>
    unfold emitDurations
    rw [if_neg hminutes]
    simp only
    rw [if_neg hlimit]
    refine ih.mono fun totals'' ⟨durations, hchunks, hsum, htotals⟩ => ?_
    refine ⟨duration :: durations, ?_, ?_, ?_⟩
    · intro d hd
      rcases List.mem_cons.mp hd with rfl | hmem
      · refine ⟨?_, min_le_right _ _⟩
        unfold duration maxDurationMinutes
        omega
      · exact hchunks d hmem
    · rw [List.sum_cons, hsum]
      unfold duration
      omega
    · rw [htotals]
      exact totals.emitAll_emit values duration durations

/-- The lines of a row: its values, with durations that add up to its minutes. -/
def RowLines (row : QuickBooksRow) (lines : List (List String)) : Prop :=
  ∃ (values : RowValues) (durations : List Nat), values.Of row ∧ Chunks durations ∧
    durations.sum = values.roundedMinutes ∧ lines = durations.map values.activity

/-- What is skipped of a row: all of it when it is shorter than half a minute. -/
def QuickBooksRow.skipped (row : QuickBooksRow) : Int := if row.seconds < 30 then row.seconds else 0

/-- The totals with the lines of a row. -/
def IifTotals.addRow (totals : IifTotals) (row : QuickBooksRow) (lines : List (List String)) : IifTotals where
  output := totals.output ++ lines
  sourceSeconds := totals.sourceSeconds + row.seconds
  exportedMinutes := totals.exportedMinutes + ((row.seconds + 30) / 60).toNat
  skippedSeconds := totals.skippedSeconds + row.skipped
  rowCount := totals.rowCount + lines.length

/-- **One pass through the loop** adds the lines of its row. -/
theorem exportRow_ensures {unicode : UnicodeData} (h : unicode.Documented) (defaultItem : String)
    (totals : IifTotals) (row : QuickBooksRow) :
    Ensures (exportRow unicode defaultItem totals row) fun totals' =>
      ∃ lines, RowLines row lines ∧ totals' = totals.addRow row lines := by
  refine Ensures.bind (rowValues_ensures h row defaultItem) fun values hvalues => ?_
  have hrounded := hvalues.rounded
  have hseconds := hvalues.seconds
  have hminutes : ((row.seconds + 30) / 60).toNat = values.roundedMinutes := by omega
  refine ensures_ite (fun hzero => ?_) fun hpositive => ?_
  · have hskipped : row.seconds < 30 := by omega
    rw [Library.ensures_pure]
    refine ⟨[], ⟨values, [], hvalues, fun _ hd => absurd hd List.not_mem_nil, hzero.symm, rfl⟩, ?_⟩
    simp [IifTotals.addRow, QuickBooksRow.skipped, hskipped, hminutes, hzero]
  · have hkept : ¬row.seconds < 30 := by omega
    refine (emitDurations_ensures values _ _).mono fun totals' ⟨durations, hchunks, hsum, htotals⟩ => ?_
    refine ⟨durations.map values.activity, ⟨values, durations, hvalues, hchunks, hsum, rfl⟩, ?_⟩
    rw [htotals]
    simp [IifTotals.addRow, IifTotals.emitAll, QuickBooksRow.skipped, hkept, hminutes, hsum]

/-- **The whole loop** adds the lines of every row, in order. -/
theorem exportRows_ensures {unicode : UnicodeData} (h : unicode.Documented) (defaultItem : String)
    (rows : List QuickBooksRow) (totals : IifTotals) :
    Ensures (rows.foldlM (exportRow unicode defaultItem) totals) fun totals' =>
      ∃ activities : List (List (List String)), List.Forall₂ RowLines rows activities ∧
        totals' = (rows.zip activities).foldl (fun t entry => t.addRow entry.1 entry.2) totals := by
  induction rows generalizing totals with
  | nil =>
    rw [List.foldlM_nil, Library.ensures_pure]
    exact ⟨[], .nil, rfl⟩
  | cons row rows ih =>
    rw [List.foldlM_cons]
    refine Ensures.bind (exportRow_ensures h defaultItem totals row) ?_
    rintro _ ⟨lines, hlines, rfl⟩
    refine (ih (totals.addRow row lines)).mono fun totals' ⟨activities, hactivities, htotals⟩ => ?_
    exact ⟨lines :: activities, .cons hlines hactivities, htotals⟩

/-- The totals of the whole loop. -/
theorem foldl_addRow {rows : List QuickBooksRow} {activities : List (List (List String))}
    (h : List.Forall₂ RowLines rows activities) (totals : IifTotals) :
    (rows.zip activities).foldl (fun t entry => t.addRow entry.1 entry.2) totals =
      { output := totals.output ++ activities.flatten
        sourceSeconds := totals.sourceSeconds + (rows.map (·.seconds)).sum
        exportedMinutes := totals.exportedMinutes + (rows.map fun row => ((row.seconds + 30) / 60).toNat).sum
        skippedSeconds := totals.skippedSeconds + (rows.map (·.skipped)).sum
        rowCount := totals.rowCount + activities.flatten.length } := by
  induction h generalizing totals with
  | nil => simp
  | cons _ _ ih =>
    rw [List.zip_cons_cons, List.foldl_cons, ih]
    simp only [IifTotals.addRow, List.flatten_cons, List.map_cons, List.sum_cons, List.length_append,
      List.append_assoc, Int.add_assoc, Nat.add_assoc]

/-! ## What is read back -/

/-- The minutes that lines show. -/
def minutesShown (lines : List (List String)) : Nat := (lines.map fun line => (lineMinutes line).getD 0).sum

theorem ofDigitChars_toString (n : Nat) : Nat.ofDigitChars 10 (toString n).toList 0 = n := by
  rw [Nat.toString_eq_ofList_toDigits, String.toList_ofList, Nat.ofDigitChars_ten_toDigits]

theorem ofDigitChars_twoDigits (n : Nat) : Nat.ofDigitChars 10 (twoDigits n).toList 0 = n := by
  rw [twoDigits, String.leftpad, String.toList_ofList, List.leftpad, Nat.ofDigitChars_append,
    Nat.ofDigitChars_replicate_zero, Nat.mul_zero]
  exact ofDigitChars_toString n

theorem splitOn_pair {c : Char} {xs ys : List Char} (hxs : c ∉ xs) (hys : c ∉ ys) :
    (xs ++ c :: ys).splitOn c = [xs, ys] := by
  have hjoin : xs ++ c :: ys = [c].intercalate [xs, ys] := by
    simp [List.intercalate_cons_cons]
  rw [hjoin]
  exact List.splitOn_intercalate c (by simp [hxs, hys]) (List.cons_ne_nil _ _)

/-- **A duration is read as it was written.** -/
theorem readDuration_durationText (minutes : Nat) : readDuration (durationText minutes) = some minutes := by
  have hhours : ∀ c ∈ (toString (minutes / 60)).toList, c.isDigit = true := fun _ hc =>
    Library.Text.isDigit_of_mem_toString hc
  have hminutes : ∀ c ∈ (twoDigits (minutes % 60)).toList, c.isDigit = true := fun _ hc =>
    Library.Text.isDigit_of_mem_leftpad hc
  have hcolon (field : List Char) (h : ∀ c ∈ field, c.isDigit = true) : ':' ∉ field := fun hmem =>
    absurd (h ':' hmem) (by decide)
  have htext : (durationText minutes).toList =
      (toString (minutes / 60)).toList ++ ':' :: (twoDigits (minutes % 60)).toList := by
    rw [durationText, String.toList_append, String.toList_append, List.append_assoc]
    rfl
  unfold readDuration
  rw [htext, splitOn_pair (hcolon _ hhours) (hcolon _ hminutes)]
  simp only
  rw [List.all_eq_true.mpr hhours, List.all_eq_true.mpr hminutes, ofDigitChars_toString,
    ofDigitChars_twoDigits]
  simp only [Bool.and_self, if_true, Option.some.injEq]
  omega

theorem lineMinutes_activity (values : RowValues) (duration : Nat) :
    lineMinutes (values.activity duration) = some duration :=
  readDuration_durationText duration

theorem minutesShown_map (values : RowValues) (durations : List Nat) :
    minutesShown (durations.map values.activity) = durations.sum := by
  unfold minutesShown
  rw [List.map_map]
  congr 1
  conv_rhs => rw [← List.map_id durations]
  refine List.map_congr_left fun duration _ => ?_
  simp [lineMinutes_activity]

/-! ## The table is read as it was written -/

theorem decode_encode {c : Char} (h : isAscii c = true) :
    Char.ofNat (UInt8.ofNat c.toNat).toNat = c := by
  simp only [isAscii, decide_eq_true_eq] at h
  rw [UInt8.toNat_ofNat', Nat.mod_eq_of_lt (by omega), Char.ofNat_toNat]

/-- The payload is the table of the lines. -/
theorem payload_toList {lines : List (List String)} (hlines : lines ≠ []) :
    ("\r\n".intercalate (lines.map "\t".intercalate) ++ "\r\n").toList =
      writeTable '\r' '\n' '\t' (lines.map (List.map String.toList)) := by
  have hempty : lines.map (List.map String.toList) ≠ [] := by simpa using hlines
  rw [Library.Lines.writeTable_eq hempty, String.toList_append, String.toList_intercalate, List.map_map,
    List.map_map]
  congr 2
  refine List.map_congr_left fun line _ => ?_
  exact String.toList_intercalate

/-- A table of printable fields can be encoded. -/
theorem exists_encodeAscii {lines : List (List String)} (hlines : lines ≠ [])
    (hprintable : ∀ line ∈ lines, PrintableLine line) :
    ∃ data, encodeAscii ("\r\n".intercalate (lines.map "\t".intercalate) ++ "\r\n") = .ok data := by
  refine ⟨_, bind_eq_ok.mpr ⟨(), raiseIf_eq_ok.mpr ?_, rfl⟩⟩
  rw [Bool.not_eq_false, List.all_eq_true, payload_toList hlines]
  intro c hc
  rcases Library.Lines.mem_writeTable hc with hends | ⟨line, hline, field, hfield, hmem⟩
  · rcases hends with rfl | rfl | rfl <;> decide
  · obtain ⟨texts, htexts, rfl⟩ := List.mem_map.mp hline
    obtain ⟨text, htext, rfl⟩ := List.mem_map.mp hfield
    have hbound := (hprintable texts htexts text htext c hmem).2
    exact decide_eq_true (by omega)

/-- **What is read of an encoded table are its lines.** -/
theorem readIif_encodeAscii {lines : List (List String)} {data : List UInt8} (hlines : lines ≠ [])
    (hnonempty : ∀ line ∈ lines, line ≠ []) (hprintable : ∀ line ∈ lines, PrintableLine line)
    (h : encodeAscii ("\r\n".intercalate (lines.map "\t".intercalate) ++ "\r\n") = .ok data) :
    readIif data = lines := by
  obtain ⟨_, hascii, hdata⟩ := bind_eq_ok.mp h
  rw [raiseIf_eq_ok, Bool.not_eq_false, List.all_eq_true] at hascii
  obtain rfl := Except.ok.inj hdata
  -- no printable field contains a control character
  have habsent (c : Char) (hc : c.toNat < 32) :
      ∀ line ∈ lines.map (List.map String.toList), ∀ field ∈ line, c ∉ field := by
    intro line hline field hfield hmem
    obtain ⟨texts, htexts, rfl⟩ := List.mem_map.mp hline
    obtain ⟨text, htext, rfl⟩ := List.mem_map.mp hfield
    have hbound := (hprintable texts htexts text htext c hmem).1
    omega
  have hdecoded : (("\r\n".intercalate (lines.map "\t".intercalate) ++ "\r\n").toList.map
      fun c => UInt8.ofNat c.toNat).map (fun b => Char.ofNat b.toNat) =
        writeTable '\r' '\n' '\t' (lines.map (List.map String.toList)) := by
    rw [← payload_toList hlines, List.map_map]
    conv_rhs => rw [← List.map_id (String.toList _)]
    refine List.map_congr_left fun c hc => ?_
    exact decode_encode (hascii c hc)
  unfold readIif
  rw [hdecoded, Library.Lines.readTable_writeTable (by decide) ?_ (habsent '\r' (by decide))
    (habsent '\t' (by decide)), List.map_map]
  · conv_rhs => rw [← List.map_id lines]
    refine List.map_congr_left fun line _ => ?_
    simp [Function.comp_def]
  · intro line hline
    obtain ⟨texts, htexts, rfl⟩ := List.mem_map.mp hline
    simpa using hnonempty texts htexts

/-- What a reader of an export finds: the header, and for every row its lines. -/
structure QuickBooksIIFExport.Shows (exported : QuickBooksIIFExport) (header : List (List String))
    (rows : List QuickBooksRow) (activities : List (List (List String))) : Prop where
  ended : ∃ before, exported.data = before ++ [13, 10]
  lines : readIif exported.data = header ++ activities.flatten
  count : activities.flatten.length = exported.rowCount
  activity : ∀ line ∈ activities.flatten, line.length = 10 ∧ line.head? = some "TIMEACT"
  printable : ∀ line ∈ readIif exported.data, PrintableLine line
  duration : ∀ line ∈ activities.flatten, ∃ minutes, lineMinutes line = some minutes ∧
    1 ≤ minutes ∧ minutes ≤ 23 * 60 + 59
  rounded : List.Forall₂ (fun row lines => (minutesShown lines : Int) = (row.seconds + 30) / 60)
    rows activities
  exportedMinutes : exported.exportedMinutes = minutesShown activities.flatten
  sourceSeconds : exported.sourceSeconds = (rows.map (·.seconds)).sum
  skippedSeconds : exported.skippedSeconds = ((rows.filter (·.seconds < 30)).map (·.seconds)).sum

theorem RowLines.minutesShown {row : QuickBooksRow} {lines : List (List String)} (h : RowLines row lines) :
    (Dayfinch.minutesShown lines : Int) = (row.seconds + 30) / 60 := by
  obtain ⟨values, durations, hvalues, -, hsum, rfl⟩ := h
  rw [minutesShown_map, hsum]
  exact hvalues.rounded

theorem RowLines.line {row : QuickBooksRow} {lines : List (List String)} (h : RowLines row lines)
    {line : List String} (hline : line ∈ lines) :
    (line.length = 10 ∧ line.head? = some "TIMEACT") ∧ PrintableLine line ∧
      ∃ minutes, lineMinutes line = some minutes ∧ 1 ≤ minutes ∧ minutes ≤ 23 * 60 + 59 := by
  obtain ⟨values, durations, hvalues, hchunks, -, rfl⟩ := h
  obtain ⟨duration, hduration, rfl⟩ := List.mem_map.mp hline
  exact ⟨⟨rfl, rfl⟩, hvalues.printable duration, duration, lineMinutes_activity values duration,
    hchunks duration hduration⟩

theorem minutesShown_flatten {rows : List QuickBooksRow} {activities : List (List (List String))}
    (h : List.Forall₂ RowLines rows activities) :
    (rows.map fun row => ((row.seconds + 30) / 60).toNat).sum = minutesShown activities.flatten := by
  induction h with
  | nil => rfl
  | cons hlines _ ih =>
    have hminutes := hlines.minutesShown
    rw [List.map_cons, List.sum_cons, ih, List.flatten_cons]
    unfold minutesShown at hminutes ⊢
    rw [List.map_append, List.sum_append]
    omega

theorem sum_skipped (rows : List QuickBooksRow) :
    (rows.map (·.skipped)).sum = ((rows.filter (·.seconds < 30)).map (·.seconds)).sum := by
  induction rows with
  | nil => rfl
  | cons row rows ih =>
    rw [List.map_cons, List.sum_cons, ih, List.filter_cons]
    unfold QuickBooksRow.skipped
    by_cases hshort : row.seconds < 30
    · simp [hshort]
    · simp [hshort]

theorem printable_iifHeader {company companyTime : String} (hcompany : Printable company)
    (htime : Printable companyTime) (observed : Int) :
    ∀ line ∈ iifHeader company companyTime observed, PrintableLine line := by
  have hnil : PrintableLine [] := fun _ h => absurd h List.not_mem_nil
  unfold iifHeader
  refine List.forall_mem_cons.mpr ⟨by decide, List.forall_mem_cons.mpr ⟨?_, ?_⟩⟩
  · -- TIMERHDR
    refine List.forall_mem_cons.mpr ⟨by decide, List.forall_mem_cons.mpr ⟨by decide, ?_⟩⟩
    refine List.forall_mem_cons.mpr ⟨by decide, List.forall_mem_cons.mpr ⟨hcompany, ?_⟩⟩
    refine List.forall_mem_cons.mpr ⟨by decide, List.forall_mem_cons.mpr ⟨by decide, ?_⟩⟩
    exact List.forall_mem_cons.mpr ⟨htime, hnil⟩
  refine List.forall_mem_cons.mpr ⟨by decide, List.forall_mem_cons.mpr ⟨?_, ?_⟩⟩
  · -- HDR
    refine List.forall_mem_cons.mpr ⟨by decide, List.forall_mem_cons.mpr ⟨by decide, ?_⟩⟩
    refine List.forall_mem_cons.mpr ⟨by decide, List.forall_mem_cons.mpr ⟨by decide, ?_⟩⟩
    refine List.forall_mem_cons.mpr ⟨by decide, List.forall_mem_cons.mpr ⟨?_, ?_⟩⟩
    · exact printable_append (printable_monthAndDay _) (printable_leftpad 4 _)
    refine List.forall_mem_cons.mpr ⟨printable_toString_int _, ?_⟩
    exact List.forall_mem_cons.mpr ⟨by decide, List.forall_mem_cons.mpr ⟨by decide, hnil⟩⟩
  exact List.forall_mem_cons.mpr ⟨by decide, fun _ h => absurd h List.not_mem_nil⟩

/-- The lines of rows are printable. -/
theorem printable_activities {rows : List QuickBooksRow} {activities : List (List (List String))}
    (h : List.Forall₂ RowLines rows activities) : ∀ line ∈ activities.flatten,
      (line.length = 10 ∧ line.head? = some "TIMEACT") ∧ PrintableLine line ∧
        ∃ minutes, lineMinutes line = some minutes ∧ 1 ≤ minutes ∧ minutes ≤ 23 * 60 + 59 := by
  intro line hline
  obtain ⟨lines, hmem, hline⟩ := List.mem_flatten.mp hline
  obtain ⟨row, -, hrow⟩ := Library.exists_of_forall₂_right h hmem
  exact hrow.line hline

/-- The checks before the loop have passed. -/
structure IifAccepted (companyName companyCreateTime defaultServiceItem company defaultItem : String) :
    Prop where
  company : validateMapping companyName "QuickBooks company name" true 255 = .ok company
  time : strip companyCreateTime ≠ "" ∧ (strip companyCreateTime).toList.all Char.isDigit = true ∧
    (strip companyCreateTime).length ≤ 20
  item : validateMapping defaultServiceItem "Default QuickBooks service item" false 209 = .ok defaultItem

section Accepted

variable {companyName companyCreateTime defaultServiceItem company defaultItem : String}
  (haccepted : IifAccepted companyName companyCreateTime defaultServiceItem company defaultItem)
include haccepted

/-- What the loop leaves is a table of printable fields. -/
theorem IifAccepted.output {unicode : UnicodeData} (h : unicode.Documented) {rows : List QuickBooksRow}
    {observed : Int} {totals : IifTotals}
    (hloop : rows.foldlM (exportRow unicode defaultItem)
      { output := iifHeader company (strip companyCreateTime) observed } = .ok totals) :
    ∃ activities, List.Forall₂ RowLines rows activities ∧
      totals = (rows.zip activities).foldl (fun t entry => t.addRow entry.1 entry.2)
        { output := iifHeader company (strip companyCreateTime) observed } ∧
      totals.output = iifHeader company (strip companyCreateTime) observed ++ activities.flatten ∧
      ∀ line ∈ totals.output, line ≠ [] ∧ PrintableLine line := by
  obtain ⟨activities, hactivities, htotals⟩ := exportRows_ensures h defaultItem rows _ totals hloop
  have houtput : totals.output =
      iifHeader company (strip companyCreateTime) observed ++ activities.flatten := by
    rw [htotals, foldl_addRow hactivities]
  refine ⟨activities, hactivities, htotals, houtput, fun line hline => ?_⟩
  rw [houtput] at hline
  rcases List.mem_append.mp hline with hheader | hactivity
  · have htime : Printable (strip companyCreateTime) :=
      printable_digits (List.all_eq_true.mp haccepted.time.2.1)
    have hcompany := validateMapping_ensures _ _ _ _ company haccepted.company
    refine ⟨?_, printable_iifHeader hcompany htime observed line hheader⟩
    rintro rfl
    simp [iifHeader] at hheader
  · obtain ⟨hlength, hprintable, -⟩ := printable_activities hactivities line hactivity
    refine ⟨?_, hprintable⟩
    rintro rfl
    exact absurd hlength.1 (by decide)

/-- Behind the loop nothing is refused. -/
theorem IifAccepted.exists_exported {unicode : UnicodeData} (h : unicode.Documented)
    {rows : List QuickBooksRow} {observed : Int} {totals : IifTotals}
    (hloop : rows.foldlM (exportRow unicode defaultItem)
      { output := iifHeader company (strip companyCreateTime) observed } = .ok totals) :
    ∃ exported, quickbooksTimerIif unicode companyName companyCreateTime defaultServiceItem rows observed =
      .ok exported ∧ exported.rowCount = totals.rowCount := by
  obtain ⟨activities, -, -, houtput, hlines⟩ := haccepted.output h hloop
  have hnonempty : totals.output ≠ [] := by simp [houtput, iifHeader]
  obtain ⟨data, hdata⟩ := exists_encodeAscii hnonempty fun line hline => (hlines line hline).2
  refine ⟨{ data := data, rowCount := totals.rowCount, sourceSeconds := totals.sourceSeconds,
            exportedMinutes := totals.exportedMinutes, skippedSeconds := totals.skippedSeconds }, ?_, rfl⟩
  refine bind_eq_ok.mpr ⟨company, haccepted.company, bind_eq_ok.mpr ⟨(), raiseIf_eq_ok.mpr ?_, ?_⟩⟩
  · simpa using haccepted.time
  · refine bind_eq_ok.mpr ⟨defaultItem, haccepted.item, bind_eq_ok.mpr ⟨totals, hloop, ?_⟩⟩
    exact bind_eq_ok.mpr ⟨data, hdata, rfl⟩

end Accepted

/-- **The export is faithful.** Whatever rows it accepts, with whatever notes, the table is read back as
the five lines of the header and the lines of every row; these show the row's minutes, and the totals are
the totals of the rows. -/
theorem quickbooksTimerIif_shows {unicode : UnicodeData} (h : unicode.Documented)
    {companyName companyCreateTime defaultServiceItem : String} {rows : List QuickBooksRow} {observed : Int}
    {exported : QuickBooksIIFExport}
    (hok : quickbooksTimerIif unicode companyName companyCreateTime defaultServiceItem rows observed =
      .ok exported) :
    ∃ (company : String) (activities : List (List (List String))),
      validateMapping companyName "QuickBooks company name" true 255 = .ok company ∧
      exported.Shows (iifHeader company (strip companyCreateTime) observed) rows activities := by
  obtain ⟨company, hcompany, hok⟩ := bind_eq_ok.mp hok
  obtain ⟨_, htime, hok⟩ := bind_eq_ok.mp hok
  obtain ⟨defaultItem, hitem, hok⟩ := bind_eq_ok.mp hok
  obtain ⟨totals, hloop, hok⟩ := bind_eq_ok.mp hok
  obtain ⟨data, hdata, hok⟩ := bind_eq_ok.mp hok
  obtain rfl := Except.ok.inj hok
  have haccepted : IifAccepted companyName companyCreateTime defaultServiceItem company defaultItem :=
    ⟨hcompany, by simpa using raiseIf_eq_ok.mp htime, hitem⟩
  obtain ⟨activities, hactivities, htotals, houtput, hlines⟩ := haccepted.output h hloop
  have hread : readIif data = iifHeader company (strip companyCreateTime) observed ++ activities.flatten := by
    rw [← houtput]
    exact readIif_encodeAscii (by simp [houtput, iifHeader]) (fun line hline => (hlines line hline).1)
      (fun line hline => (hlines line hline).2) hdata
  have hactivity := printable_activities hactivities
  rw [foldl_addRow hactivities] at htotals
  refine ⟨company, activities, hcompany, ?_, hread, ?_, ?_, ?_, ?_, ?_, ?_, ?_, ?_⟩
  · obtain ⟨_, -, hencoded⟩ := bind_eq_ok.mp hdata
    obtain rfl := Except.ok.inj hencoded
    rw [String.toList_append, List.map_append]
    exact ⟨_, rfl⟩
  · rw [htotals]
    exact (Nat.zero_add _).symm
  · exact fun line hline => (hactivity line hline).1
  · intro line hline
    rw [hread, ← houtput] at hline
    exact (hlines line hline).2
  · exact fun line hline => (hactivity line hline).2.2
  · exact hactivities.imp fun row lines hrow => hrow.minutesShown
  · rw [htotals, ← minutesShown_flatten hactivities]
    exact Nat.zero_add _
  · rw [htotals]
    exact Int.zero_add _
  · rw [htotals, ← sum_skipped]
    exact Int.zero_add _

/-- Unicode as far as an accented letter: `é` is an `e` with a combining accent. -/
def accents : UnicodeData where
  nfkd note := note.flatMap fun c => if c = 'é' then ['e', Char.ofNat 0x301] else [c]
  combining c := c = Char.ofNat 0x301

theorem accents_documented : accents.Documented where
  nfkd_controls note hnote c hc := by
    obtain ⟨x, hx, hc⟩ := List.mem_flatMap.mp hc
    split at hc
    · rcases List.mem_pair.mp hc with rfl | rfl <;> decide
    · rw [List.mem_singleton.mp hc]
      exact hnote x hx

/-- A day and a half of work, with a note of two lines. -/
def cafeRow : QuickBooksRow where
  workDate := 13883
  note := some "=Café\r\nvisit"
  quickbooksName := some "Joe Employee"
  quickbooksCustomerJob := some "Customer:Job"
  quickbooksClass := none
  quickbooksBillable := true
  quickbooksServiceItem := none
  seconds := 129600

/-- The day and a half takes two lines, of 23:59 and of 12:01. -/
theorem quickbooksTimerIif_shows_cafeRow :
    ∃ exported : QuickBooksIIFExport,
      quickbooksTimerIif accents "Company" "1208544781" "Labor" [cafeRow] 0 = .ok exported ∧
      exported.rowCount = 2 ∧ ∃ (company : String) (activities : List (List (List String))),
        validateMapping "Company" "QuickBooks company name" true 255 = .ok company ∧
        exported.Shows (iifHeader company (strip "1208544781") 0) [cafeRow] activities := by
  have haccepted : IifAccepted "Company" "1208544781" "Labor" "Company" "Labor" :=
    ⟨by decide +kernel, by decide +kernel, by decide +kernel⟩
  have hcount : (([cafeRow].foldlM (exportRow accents "Labor")
      { output := iifHeader "Company" (strip "1208544781") 0 }).toOption.map (·.rowCount)) = some 2 := by
    decide +kernel
  obtain ⟨totals, htotals, hrows⟩ := Option.map_eq_some_iff.mp hcount
  obtain ⟨exported, hok, hexported⟩ :=
    haccepted.exists_exported accents_documented (Library.toOption_eq_some.mp htotals)
  exact ⟨exported, hok, hexported.trans hrows, quickbooksTimerIif_shows accents_documented hok⟩

example : safeNote accents cafeRow.note = "'=Cafe/nvisit" := by decide +kernel

end Dayfinch
