/-
# Dayfinch.Library.Csv -- tables as comma-separated values

The writer of the `excel` dialect quotes a field only where it must: around a comma, a quote or a line's end, with
its quotes doubled, and where a record would otherwise be an empty line. The reader goes through the text one
character at a time (`Reader.char`), and is told where a line ends (`Reader.endLine`), which matters outside of
quotes only.

What is written is read back, whatever is in the fields (`readRows_writeRows`). The invariant of the proof is the
reader's state between two fields: nothing of the next field is read, and all of the fields before it are kept.
-/
import Mathlib.Data.List.Basic

namespace Dayfinch.Library.Csv

/-! ## The writer -/

/-- What makes the writer quote a field. -/
def isSpecial (c : Char) : Bool := c == ',' || c == '"' || c == '\r' || c == '\n'

/-- A quote in a quoted field. -/
def doubled (c : Char) : List Char := if c = '"' then ['"', '"'] else [c]

/-- A field, quoted where it must be. -/
def encodeField (field : List Char) : List Char :=
  if field.any isSpecial then '"' :: (field.flatMap doubled ++ ['"']) else field

/-- `writerow`. A record of one empty field is not an empty line. -/
def writeRow (row : List (List Char)) : List Char :=
  (if row = [[]] then ['"', '"'] else [','].intercalate (row.map encodeField)) ++ ['\r', '\n']

def writeRows (rows : List (List (List Char))) : List Char := rows.flatMap writeRow

/-! ## The reader -/

inductive ReadState
  | startRecord | startField | inField | inQuotedField | quoteInQuotedField | eatLineEnd
  deriving DecidableEq, Repr

/-- What the reader has read: whole rows, and of the next row some fields and part of a field. -/
structure Reader where
  state : ReadState := .startRecord
  field : List Char := []
  fields : List (List Char) := []
  rows : List (List (List Char)) := []
  deriving DecidableEq, Repr

def Reader.addChar (r : Reader) (c : Char) (state : ReadState) : Reader :=
  { r with state, field := r.field ++ [c] }

def Reader.saveField (r : Reader) (state : ReadState) : Reader :=
  { r with state, field := [], fields := r.fields ++ [r.field] }

/-- The first character of a field. -/
def Reader.firstChar (r : Reader) (c : Char) : Reader :=
  if c = '\n' ∨ c = '\r' then r.saveField .eatLineEnd
  else if c = '"' then { r with state := .inQuotedField }
  else if c = ',' then r.saveField .startField
  else r.addChar c .inField

/-- One character; `none` is a line's end where there cannot be one. -/
def Reader.char (r : Reader) (c : Char) : Option Reader :=
  match r.state with
  | .startRecord => if c = '\n' ∨ c = '\r' then some { r with state := .eatLineEnd } else some (r.firstChar c)
  | .startField => some (r.firstChar c)
  | .inField =>
    if c = '\n' ∨ c = '\r' then some (r.saveField .eatLineEnd)
    else if c = ',' then some (r.saveField .startField)
    else some (r.addChar c .inField)
  | .inQuotedField =>
    if c = '"' then some { r with state := .quoteInQuotedField } else some (r.addChar c .inQuotedField)
  | .quoteInQuotedField =>
    if c = '"' then some (r.addChar c .inQuotedField)
    else if c = ',' then some (r.saveField .startField)
    else if c = '\n' ∨ c = '\r' then some (r.saveField .eatLineEnd)
    else some (r.addChar c .inField)
  | .eatLineEnd => if c = '\n' ∨ c = '\r' then some r else none

/-- A row that is complete. -/
def Reader.endRow (r : Reader) : Reader :=
  { state := .startRecord, field := [], fields := [], rows := r.rows ++ [r.fields] }

/-- The end of a line; in quotes it ends nothing. -/
def Reader.endLine (r : Reader) : Reader :=
  match r.state with
  | .startRecord | .eatLineEnd => r.endRow
  | .startField | .inField | .quoteInQuotedField => (r.saveField .startRecord).endRow
  | .inQuotedField => r

/-- A line ends at `\n`, `\r` or `\r\n`. -/
def endsLine (c : Char) (rest : List Char) : Bool := c == '\n' || (c == '\r' && rest.head? != some '\n')

def Reader.read (r : Reader) : List Char → Option Reader
  | [] => some r
  | c :: rest => (r.char c).bind fun r' => (if endsLine c rest then r'.endLine else r').read rest

/-- The rows, when there is no more text. -/
def Reader.finish (r : Reader) : List (List (List Char)) :=
  if r.state = .startRecord then r.rows
  else if r.endLine.state = .startRecord then r.endLine.rows
  else r.rows ++ [r.fields ++ [r.field]]

def readRows (text : List Char) : Option (List (List (List Char))) :=
  (({} : Reader).read text).map Reader.finish

/-! ## A field -/

theorem endsLine_eq_false {c : Char} (hc : isSpecial c = false) (rest : List Char) : endsLine c rest = false := by
  unfold isSpecial at hc
  unfold endsLine
  simp only [Bool.or_eq_false_iff] at hc
  rw [hc.2, hc.1.2]
  rfl

/-- A character that is not special is read as itself. -/
theorem read_plain {r : Reader} {c : Char} (hstate : r.state = .startRecord ∨ r.state = .startField ∨ r.state = .inField)
    (hc : isSpecial c = false) (rest : List Char) : r.read (c :: rest) = (r.addChar c .inField).read rest := by
  have hends := endsLine_eq_false hc rest
  have hne : c ≠ ',' ∧ c ≠ '"' ∧ c ≠ '\r' ∧ c ≠ '\n' := by
    refine ⟨?_, ?_, ?_, ?_⟩ <;> rintro rfl <;> exact absurd hc (by decide)
  have hline : ¬ (c = '\n' ∨ c = '\r') := fun h => h.elim hne.2.2.2 hne.2.2.1
  have hchar : r.char c = some (r.addChar c .inField) := by
    rcases hstate with h | h | h
    · simp only [Reader.char, h, Reader.firstChar, hline, hne.2.1, hne.1, if_false]
    · simp only [Reader.char, h, Reader.firstChar, hline, hne.2.1, hne.1, if_false]
    · simp only [Reader.char, h, hline, hne.1, if_false]
  rw [Reader.read, hchar, Option.bind_some, hends]
  rfl

/-- The rest of a field without quotes. -/
theorem read_inField {r : Reader} {field : List Char} (hstate : r.state = .inField)
    (hfield : field.any isSpecial = false) (rest : List Char) :
    r.read (field ++ rest) = ({ r with field := r.field ++ field } : Reader).read rest := by
  induction field generalizing r with
  | nil => simp
  | cons c field ih =>
    rw [List.any_cons, Bool.or_eq_false_iff] at hfield
    rw [List.cons_append, read_plain (.inr (.inr hstate)) hfield.1,
      ih (r := r.addChar c .inField) rfl hfield.2]
    simp [Reader.addChar, hstate]

/-- The rest of a quoted field, with its last quote. -/
theorem read_inQuotedField {r : Reader} (hstate : r.state = .inQuotedField) (field rest : List Char) :
    r.read (field.flatMap doubled ++ '"' :: rest) =
      ({ r with state := .quoteInQuotedField, field := r.field ++ field } : Reader).read rest := by
  induction field generalizing r with
  | nil => simp [Reader.read, Reader.char, hstate, endsLine]
  | cons c field ih =>
    -- A quote is written twice, and the reader needs both to take one.
    by_cases hquote : c = '"'
    · subst hquote
      have hstep : r.read ('"' :: '"' :: (field.flatMap doubled ++ '"' :: rest)) =
          (r.addChar '"' .inQuotedField).read (field.flatMap doubled ++ '"' :: rest) := by
        simp [Reader.read, Reader.char, hstate, endsLine, Reader.addChar]
      rw [List.flatMap_cons, doubled, if_pos rfl]
      refine hstep.trans ((ih (r := r.addChar '"' .inQuotedField) rfl).trans ?_)
      simp [Reader.addChar]
    · have hstep : ∀ tail, r.read (c :: tail) = (r.addChar c .inQuotedField).read tail := by
        intro tail
        have hend : (r.addChar c .inQuotedField).endLine = r.addChar c .inQuotedField := rfl
        simp only [Reader.read, Reader.char, hstate, hquote, if_false, Option.bind_some, hend, ite_self]
      rw [List.flatMap_cons, doubled, if_neg hquote]
      refine (hstep _).trans ((ih (r := r.addChar c .inQuotedField) rfl).trans ?_)
      simp [Reader.addChar]

/-- A written field is read whole. Only an empty one leaves the reader where it was. -/
theorem read_encodeField {r : Reader} (hstate : r.state = .startRecord ∨ r.state = .startField) (hempty : r.field = [])
    (field rest : List Char) : ∃ state, (state = .inField ∨ state = .quoteInQuotedField ∨ state = r.state ∧ field = []) ∧
      r.read (encodeField field ++ rest) = ({ r with state, field } : Reader).read rest := by
  unfold encodeField
  split
  next =>
      have hopen : r.char '"' = some { r with state := .inQuotedField } := by
        rcases hstate with h | h <;> simp [Reader.char, h, Reader.firstChar]
      -- The field began with its opening quote, which adds nothing.
      refine ⟨.quoteInQuotedField, .inr (.inl rfl), ?_⟩
      rw [List.cons_append, List.append_assoc, Reader.read, hopen, Option.bind_some]
      refine (read_inQuotedField (r := { r with state := .inQuotedField }) rfl field rest).trans ?_
      rw [hempty, List.nil_append]
  next hplain =>
      cases field with
      | nil =>
        refine ⟨r.state, .inr (.inr ⟨rfl, rfl⟩), ?_⟩
        rw [List.nil_append, ← hempty]
      | cons c field =>
        rw [Bool.not_eq_true, List.any_cons, Bool.or_eq_false_iff] at hplain
        refine ⟨.inField, .inl rfl, ?_⟩
        rw [List.cons_append, read_plain (hstate.imp_right .inl) hplain.1,
          read_inField (r := r.addChar c .inField) rfl hplain.2]
        simp [Reader.addChar, hempty]

/-! ## A row -/

theorem read_comma {r : Reader} (hstate : r.state ≠ .inQuotedField) (hline : r.state ≠ .eatLineEnd) (rest : List Char) :
    r.read (',' :: rest) = (r.saveField .startField).read rest := by
  obtain ⟨state, field, fields, rows⟩ := r
  cases state with
  | inQuotedField => exact absurd rfl hstate
  | eatLineEnd => exact absurd rfl hline
  | startRecord | startField | inField | quoteInQuotedField => rfl

/-- The end of a line after a field. -/
theorem read_lineEnd {r : Reader} (hstate : r.state = .startField ∨ r.state = .inField ∨ r.state = .quoteInQuotedField)
    (rest : List Char) :
    r.read ('\r' :: '\n' :: rest) = ({ rows := r.rows ++ [r.fields ++ [r.field]] } : Reader).read rest := by
  obtain ⟨state, field, fields, rows⟩ := r
  rcases hstate with rfl | rfl | rfl <;> rfl

/-- The fields of a row are read one after the other. -/
theorem read_fields {r : Reader} (hempty : r.field = []) {row : List (List Char)} (hrow : row ≠ [])
    (hstate : r.state = .startField ∨ r.state = .startRecord ∧ row ≠ [[]]) (rest : List Char) :
    r.read ([','].intercalate (row.map encodeField) ++ '\r' :: '\n' :: rest) =
      ({ rows := r.rows ++ [r.fields ++ row] } : Reader).read rest := by
  induction row generalizing r with
  | nil => exact absurd rfl hrow
  | cons field row ih =>
    have hbegin : r.state = .startRecord ∨ r.state = .startField := hstate.symm.imp_left And.left
    cases row with
    | nil =>
      obtain ⟨state, hafter, hread⟩ := read_encodeField hbegin hempty field ('\r' :: '\n' :: rest)
      have hone : [','].intercalate ([field].map encodeField) = encodeField field := by simp
      rw [hone, hread, read_lineEnd]
      -- An empty last field needs a comma before it; a record of one empty field is written in quotes.
      rcases hafter with h | h | ⟨h, hnil⟩
      · exact .inr (.inl h)
      · exact .inr (.inr h)
      · refine .inl ((hstate.resolve_right fun hstart => hstart.2 (by rw [hnil])) ▸ h)
    | cons next row =>
      have hmore : [','].intercalate ((field :: next :: row).map encodeField) ++ '\r' :: '\n' :: rest =
          encodeField field ++ ',' :: ([','].intercalate ((next :: row).map encodeField) ++ '\r' :: '\n' :: rest) := by
        rw [List.map_cons, List.map_cons, List.intercalate_cons_cons]
        simp
      obtain ⟨state, hafter, hread⟩ := read_encodeField hbegin hempty field
        (',' :: ([','].intercalate ((next :: row).map encodeField) ++ '\r' :: '\n' :: rest))
      have hplace : state ≠ .inQuotedField ∧ state ≠ .eatLineEnd := by
        rcases hafter with rfl | rfl | ⟨rfl, _⟩
        · exact ⟨nofun, nofun⟩
        · exact ⟨nofun, nofun⟩
        · rcases hbegin with h | h <;> rw [h] <;> exact ⟨nofun, nofun⟩
      rw [hmore, hread, read_comma hplace.1 hplace.2]
      refine (ih (r := Reader.saveField { r with state, field } .startField) rfl (List.cons_ne_nil _ _)
        (.inl rfl)).trans ?_
      simp [Reader.saveField]

/-- A row is read back between rows. -/
theorem read_writeRow (rows : List (List (List Char))) (row : List (List Char)) (rest : List Char) :
    ({ rows } : Reader).read (writeRow row ++ rest) = ({ rows := rows ++ [row] } : Reader).read rest := by
  unfold writeRow
  split
  next hone =>
      rw [hone]
      rfl
  next hother =>
      cases row with
      | nil => rfl
      | cons field row =>
        rw [List.append_assoc]
        exact read_fields (r := { rows }) rfl (List.cons_ne_nil _ _) (.inr ⟨rfl, hother⟩) rest

/-- **What is written is read back.** -/
theorem readRows_writeRows (rows : List (List (List Char))) : readRows (writeRows rows) = some rows := by
  have hread : ∀ (todo done : List (List (List Char))),
      ({ rows := done } : Reader).read (writeRows todo) = some { rows := done ++ todo } := by
    -- By induction on the rows still to be read, with those that are done.
    intro todo
    induction todo with
    | nil =>
      intro done
      rw [List.append_nil]
      rfl
    | cons row todo ih =>
      intro done
      rw [writeRows, List.flatMap_cons, read_writeRow, ← writeRows, ih, List.append_assoc, List.singleton_append]
  unfold readRows
  rw [hread rows [], List.nil_append]
  rfl

example : writeRows [["a,b".toList, "".toList], ["".toList]] = "\"a,b\",\r\n\"\"\r\n".toList := by decide

end Dayfinch.Library.Csv
