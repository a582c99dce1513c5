/-
# Dayfinch.Library.Lines -- tables written as lines of separated fields

A line is ended by two symbols (`\r\n`), and its fields are separated by one (`\t`). What is read back is
what was written as long as no field contains the separator or the first symbol of a line's end
(`readTable_writeTable`).
-/
import Mathlib.Data.List.Basic

namespace Dayfinch.Library.Lines

variable {α : Type}

/-- `data.split(c + d)`. -/
def splitOnPair [DecidableEq α] (c d : α) : List α → List (List α)
  | [] => [[]]
  | [x] => [[x]]
  | x :: y :: rest =>
    if x = c ∧ y = d then [] :: splitOnPair c d rest
    else (splitOnPair c d (y :: rest)).modifyHead (x :: ·)

/-- Lines, each of fields, with the end of a line behind every one. -/
def writeTable (c d sep : α) (lines : List (List (List α))) : List α :=
  lines.flatMap fun line => [sep].intercalate line ++ [c, d]

/-- The lines before the last end of a line, and their fields. -/
def readTable [DecidableEq α] (c d sep : α) (data : List α) : List (List (List α)) :=
  (splitOnPair c d data).dropLast.map (List.splitOn sep)

/-- Joining the lines and ending the last one ends every line. -/
theorem writeTable_eq {c d sep : α} {lines : List (List (List α))} (h : lines ≠ []) :
    writeTable c d sep lines = [c, d].intercalate (lines.map [sep].intercalate) ++ [c, d] := by
  induction lines with
  | nil => exact absurd rfl h
  | cons line lines ih =>
    cases lines with
    | nil => simp [writeTable]
    | cons line' lines =>
      have hlines := ih (List.cons_ne_nil line' lines)
      rw [List.map_cons, List.map_cons, List.intercalate_cons_cons, List.append_assoc, ← List.map_cons,
        ← hlines]
      simp [writeTable]

theorem splitOnPair_append [DecidableEq α] {c d : α} {line : List α} (h : c ∉ line) (rest : List α) :
    splitOnPair c d (line ++ c :: d :: rest) = line :: splitOnPair c d rest := by
  induction line with
  | nil => simp [splitOnPair]
  | cons x line ih =>
    obtain ⟨hx, hline⟩ : c ≠ x ∧ c ∉ line := by simpa using h
    have hsplit := ih hline
    cases line with
    | nil =>
      rw [List.nil_append] at hsplit
      simp only [List.cons_append, List.nil_append, splitOnPair, Ne.symm hx, false_and, if_false]
      simp
    | cons y line =>
      simp only [List.cons_append, splitOnPair, Ne.symm hx, false_and, if_false]
      rw [← List.cons_append, hsplit]
      rfl

/-- The lines of a table are those that were written, and nothing stands behind the last one. -/
theorem splitOnPair_writeTable [DecidableEq α] {c d sep : α} {lines : List (List (List α))}
    (h : ∀ line ∈ lines, c ∉ [sep].intercalate line) :
    splitOnPair c d (writeTable c d sep lines) = lines.map [sep].intercalate ++ [[]] := by
  induction lines with
  | nil => rfl
  | cons line lines ih =>
    have hlines := ih fun l hl => h l (List.mem_cons_of_mem line hl)
    rw [writeTable, List.flatMap_cons, List.append_assoc]
    show splitOnPair c d ([sep].intercalate line ++ c :: d :: writeTable c d sep lines) = _
    rw [splitOnPair_append (h line List.mem_cons_self), hlines]
    rfl

theorem mem_intercalate {c sep : α} {line : List (List α)} (h : c ∈ [sep].intercalate line) :
    c = sep ∨ ∃ field ∈ line, c ∈ field := by
  induction line with
  | nil => exact absurd h List.not_mem_nil
  | cons field line ih =>
    cases line with
    | nil =>
      rw [List.intercalate_singleton] at h
      exact .inr ⟨field, List.mem_cons_self, h⟩
    | cons field' line =>
      rw [List.intercalate_cons_cons, List.append_assoc] at h
      rcases List.mem_append.mp h with hfield | hrest
      · exact .inr ⟨field, List.mem_cons_self, hfield⟩
      rcases List.mem_append.mp hrest with hsep | hline
      · exact .inl (List.mem_singleton.mp hsep)
      · exact (ih hline).imp_right fun ⟨f, hf, hc⟩ => ⟨f, List.mem_cons_of_mem field hf, hc⟩

/-- The symbols of a table are those of its fields, the separators and the ends of lines. -/
theorem mem_writeTable {x c d sep : α} {lines : List (List (List α))} (h : x ∈ writeTable c d sep lines) :
    (x = c ∨ x = d ∨ x = sep) ∨ ∃ line ∈ lines, ∃ field ∈ line, x ∈ field := by
  obtain ⟨line, hline, hx⟩ := List.mem_flatMap.mp h
  rcases List.mem_append.mp hx with hfields | hend
  · rcases mem_intercalate hfields with rfl | hfield
    · exact .inl (.inr (.inr rfl))
    · exact .inr ⟨line, hline, hfield⟩
  · rcases List.mem_pair.mp hend with rfl | rfl
    · exact .inl (.inl rfl)
    · exact .inl (.inr (.inl rfl))

/-- **What is read is what was written.** -/
theorem readTable_writeTable [DecidableEq α] {c d sep : α} (hsep : c ≠ sep) {lines : List (List (List α))}
    (hlines : ∀ line ∈ lines, line ≠ []) (hc : ∀ line ∈ lines, ∀ field ∈ line, c ∉ field)
    (hfields : ∀ line ∈ lines, ∀ field ∈ line, sep ∉ field) :
    readTable c d sep (writeTable c d sep lines) = lines := by
  unfold readTable
  have habsent : ∀ line ∈ lines, c ∉ [sep].intercalate line := by
    intro line hline hmem
    rcases mem_intercalate hmem with heq | ⟨field, hfield, hmem⟩
    · exact hsep heq
    · exact hc line hline field hfield hmem
  rw [splitOnPair_writeTable habsent, List.dropLast_concat, List.map_map]
  conv_rhs => rw [← List.map_id lines]
  apply List.map_congr_left
  intro line hline
  exact List.splitOn_intercalate sep (hfields line hline) (hlines line hline)

end Dayfinch.Library.Lines
