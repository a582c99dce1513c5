/-
# Dayfinch.Reports.ZipRoundTrip -- a streamed archive can be read, or the stream has raised in time

An entry that was accepted is a `StoredEntry`: it stands at its offset, and all integers of its two headers
fit their fields (`StoredEntry.Fits`). What the loop has yielded is the concatenation of stored entries, each
at the offset where the one before ends (`Located`), whether the loop finished or raised
(`addEntries_stored`). That is what the reader needs to find everything again, and the limits are exactly the
widths of the end record's fields (`streamZip_accepts_iff`).
-/
import Dayfinch.Reports.ZipStream

namespace Dayfinch

open Library (bind_eq_ok bind_eq_error)
open Library.Calendar (monthOf monthOf_spec exists_year_month monthStart_of_year monthStart_succ_of_year
  leap_cases daysBeforeMonth)
open Library.Records (Fits encode pack unpack slice pack_eq_some unpack_encode_append length_encode)

/-! ## Stored entries -/

/-- An entry with its time stamps, at an offset of the archive. -/
structure StoredEntry where
  entry : ZipEntry
  time : Nat
  date : Nat
  offset : Nat

namespace StoredEntry

/-- The bytes of the name. -/
def name (x : StoredEntry) : List UInt8 := encodeUtf8 x.entry.name

/-- The fields of the local header. -/
def localFields (x : StoredEntry) : List Nat :=
  localValues x.time x.date (crc32 x.entry.data) x.entry.data.length x.name.length

/-- The fields of the record in the central directory. -/
def centralFields (x : StoredEntry) : List Nat :=
  centralValues x.time x.date (crc32 x.entry.data) x.entry.data.length x.name.length x.offset

/-- What is yielded for the entry. -/
def localBytes (x : StoredEntry) : List UInt8 :=
  encode localFormat x.localFields ++ (x.name ++ x.entry.data)

/-- What is kept for the central directory. -/
def centralBytes (x : StoredEntry) : List UInt8 := encode centralFormat x.centralFields ++ x.name

/-- No field of a header is truncated. -/
structure Fits (x : StoredEntry) : Prop where
  localHeader : Library.Records.Fits localFormat x.localFields
  centralRecord : Library.Records.Fits centralFormat x.centralFields

end StoredEntry

/-- Every entry stands where the one before it ends, from a position on. -/
def Located : Nat → List StoredEntry → Prop
  | _, [] => True
  | base, x :: stored => x.offset = base ∧ Located (base + x.localBytes.length) stored

/-! ## One entry -/

theorem raiseWhen_eq_ok {c : Prop} [Decidable c] {e : ZipError} {u : Unit} :
    raiseWhen c e = .ok u ↔ ¬c := by
  unfold raiseWhen
  split <;> simp_all

theorem structPack_eq_ok {format values : List Nat} {bytes : List UInt8} :
    structPack format values = .ok bytes ↔ Library.Records.Fits format values ∧ bytes = encode format values := by
  rw [← pack_eq_some]
  unfold structPack
  cases pack format values <;> simp

theorem safeName_eq_ok {value : String} {bytes : List UInt8} (h : safeName value = .ok bytes) :
    bytes = encodeUtf8 value ∧ bytes.length ≤ 65535 := by
  obtain ⟨_, -, h⟩ := bind_eq_ok.mp h
  obtain ⟨_, hlength, h⟩ := bind_eq_ok.mp h
  obtain rfl := Except.ok.inj h
  exact ⟨rfl, not_lt.mp (raiseWhen_eq_ok.mp hlength)⟩

theorem crc32_lt (data : List UInt8) : crc32 data < 256 ^ 4 := UInt32.toNat_lt _

theorem dayOfMonth_le (d : Int) : dayOfMonth d ≤ 31 := by
  have hlength : Library.Calendar.monthLength (monthOf d) ≤ 31 := by
    obtain ⟨y, m, hm, hmonth⟩ := exists_year_month (monthOf d)
    unfold Library.Calendar.monthLength
    rw [hmonth, monthStart_of_year y hm, monthStart_succ_of_year y hm]
    have hleap := leap_cases y
    interval_cases m <;> simp only [daysBeforeMonth] <;> omega
  have hspec := monthOf_spec d
  unfold Library.Calendar.monthLength at hlength
  unfold dayOfMonth
  omega

/-- The stamps take two bytes each. -/
theorem dosTime_lt {value : Datetime} {stamps : Nat × Nat} (h : dosTime value = .ok stamps) :
    stamps.1 < 256 ^ 2 ∧ stamps.2 < 256 ^ 2 := by
  unfold dosTime at h
  cases hobserved : value.observed with
  | none =>
    rw [hobserved] at h
    cases h
  | some t =>
    simp only [hobserved] at h
    obtain rfl := Except.ok.inj h
    have hday := dayOfMonth_le (dateOf t)
    have hclock : ((t - startOfDay (dateOf t)) / seconds 1).toNat < 86400 := by
      have hspec := (dateOf_eq_iff (t := t)).mp rfl
      unfold startOfDay days seconds at hspec ⊢
      omega
    have hword : (256 : Nat) ^ 2 = 2 ^ 16 := by decide
    -- the parts of a stamp are disjoint, but that each of them is below the limit is enough
    rw [hword]
    refine ⟨Nat.or_lt_two_pow (Nat.or_lt_two_pow ?_ ?_) ?_, Nat.or_lt_two_pow (Nat.or_lt_two_pow ?_ ?_) ?_⟩
    all_goals try rw [Nat.shiftLeft_eq]
    all_goals omega

/-- The state with an entry more. -/
def ZipState.add (s : ZipState) (x : StoredEntry) : ZipState where
  yielded := s.yielded ++ [encode localFormat x.localFields, x.name, x.entry.data]
  centralDirectory := s.centralDirectory ++ [x.centralBytes]
  offset := s.offset + ((encode localFormat x.localFields).length + x.name.length + x.entry.data.length)
  seen := x.name :: s.seen

@[simp] theorem ZipState.add_yielded (s : ZipState) (x : StoredEntry) :
    (s.add x).yielded.flatten = s.yielded.flatten ++ x.localBytes := by
  simp [ZipState.add, StoredEntry.localBytes]

@[simp] theorem ZipState.add_offset (s : ZipState) (x : StoredEntry) :
    (s.add x).offset = s.offset + x.localBytes.length := by
  simp only [ZipState.add, StoredEntry.localBytes, List.length_append, Nat.add_assoc]

/-- What an accepted entry adds. -/
theorem addEntry_eq_ok {s s' : ZipState} {entry : ZipEntry} (h : addEntry s entry = .ok s') :
    ∃ x : StoredEntry, x.entry = entry ∧ x.offset = s.offset ∧ x.Fits ∧ s' = s.add x := by
  obtain ⟨name, hname, h⟩ := bind_eq_ok.mp h
  obtain ⟨rfl, -⟩ := safeName_eq_ok hname
  obtain ⟨_, -, h⟩ := bind_eq_ok.mp h
  obtain ⟨_, -, h⟩ := bind_eq_ok.mp h
  obtain ⟨⟨time, date⟩, -, h⟩ := bind_eq_ok.mp h
  obtain ⟨localHeader, hlocal, h⟩ := bind_eq_ok.mp h
  obtain ⟨record, hcentral, h⟩ := bind_eq_ok.mp h
  obtain rfl := Except.ok.inj h
  obtain ⟨hlocalFits, rfl⟩ := structPack_eq_ok.mp hlocal
  obtain ⟨hcentralFits, rfl⟩ := structPack_eq_ok.mp hcentral
  exact ⟨⟨entry, time, date, s.offset⟩, rfl, rfl, ⟨hlocalFits, hcentralFits⟩, rfl⟩

theorem localValues_fits {time date crc size nameLength : Nat} (htime : time < 256 ^ 2)
    (hdate : date < 256 ^ 2) (hcrc : crc < 256 ^ 4) (hsize : size < 256 ^ 4) (hname : nameLength < 256 ^ 2) :
    Library.Records.Fits localFormat (localValues time date crc size nameLength) := by
  unfold Library.Records.Fits localFormat localValues utf8Flag
  simp only [List.forall₂_cons, List.Forall₂.nil, and_true]
  exact ⟨by decide, by decide, by decide, by decide, htime, hdate, hcrc, hsize, hsize, hname, by decide⟩

theorem centralValues_fits {time date crc size nameLength offset : Nat} (htime : time < 256 ^ 2)
    (hdate : date < 256 ^ 2) (hcrc : crc < 256 ^ 4) (hsize : size < 256 ^ 4) (hname : nameLength < 256 ^ 2)
    (hoffset : offset < 256 ^ 4) :
    Library.Records.Fits centralFormat (centralValues time date crc size nameLength offset) := by
  unfold Library.Records.Fits centralFormat centralValues utf8Flag
  simp only [List.forall₂_cons, List.Forall₂.nil, and_true]
  exact ⟨by decide, by decide, by decide, by decide, by decide, htime, hdate, hcrc, hsize, hsize, hname,
    by decide, by decide, by decide, by decide, by decide, hoffset⟩

theorem raiseWhen_eq_error {c : Prop} [Decidable c] {e e' : ZipError} :
    raiseWhen c e = .error e' ↔ c ∧ e = e' := by
  unfold raiseWhen
  split <;> simp_all

theorem structPack_of_fits {format values : List Nat} (h : Library.Records.Fits format values) :
    structPack format values = .ok (encode format values) := structPack_eq_ok.mpr ⟨h, rfl⟩

/-- The limits that are checked for an entry. -/
def EntryLimits (s : ZipState) (entry : ZipEntry) : Prop :=
  s.offset + (30 + (encodeUtf8 entry.name).length + entry.data.length) ≤ maxZip32Value ∧
    s.centralDirectory.length < 65535

/-- An entry whose name and time can be written, and whose name is new. -/
structure Proper (s : ZipState) (entry : ZipEntry) : Prop where
  name : safeName entry.name = .ok (encodeUtf8 entry.name)
  time : ∃ stamps, dosTime entry.modifiedAt = .ok stamps
  new : encodeUtf8 entry.name ∉ s.seen

/-- Within the limits `struct.pack` has nothing to refuse. -/
theorem addEntry_isOk {s : ZipState} {entry : ZipEntry} (hproper : Proper s entry)
    (hlimits : EntryLimits s entry) :
    ∃ x : StoredEntry, x.entry = entry ∧ addEntry s entry = .ok (s.add x) := by
  obtain ⟨⟨time, date⟩, hstamps⟩ := hproper.time
  obtain ⟨htime, hdate⟩ := dosTime_lt hstamps
  obtain ⟨-, hname⟩ := safeName_eq_ok hproper.name
  obtain ⟨hlimit, hcount⟩ := hlimits
  have hmax : maxZip32Value = 256 ^ 4 - 1 := by decide
  have hcrc := crc32_lt entry.data
  have hsize : entry.data.length < 256 ^ 4 := by omega
  have hlength : (encodeUtf8 entry.name).length < 256 ^ 2 := by omega
  have hoffset : s.offset < 256 ^ 4 := by omega
  have hlocal := localValues_fits htime hdate hcrc hsize hlength
  have hcentral := centralValues_fits htime hdate hcrc hsize hlength hoffset
  refine ⟨⟨entry, time, date, s.offset⟩, rfl, ?_⟩
  refine bind_eq_ok.mpr ⟨_, hproper.name, bind_eq_ok.mpr ⟨(), raiseWhen_eq_ok.mpr hproper.new, ?_⟩⟩
  refine bind_eq_ok.mpr ⟨(), raiseWhen_eq_ok.mpr (by omega), bind_eq_ok.mpr ⟨_, hstamps, ?_⟩⟩
  refine bind_eq_ok.mpr ⟨_, structPack_of_fits hlocal, bind_eq_ok.mpr ⟨_, structPack_of_fits hcentral, ?_⟩⟩
  rfl

/-- Beyond the limits a `ValueError` says so. -/
theorem addEntry_eq_limit {s : ZipState} {entry : ZipEntry} (hproper : Proper s entry)
    (hlimits : ¬EntryLimits s entry) :
    addEntry s entry = .error (.valueError "ZIP32 archive limit exceeded") := by
  refine bind_eq_error.mpr (.inr ⟨_, hproper.name, bind_eq_error.mpr (.inr ⟨(), ?_, ?_⟩)⟩)
  · exact raiseWhen_eq_ok.mpr hproper.new
  · refine bind_eq_error.mpr (.inl (raiseWhen_eq_error.mpr ⟨?_, rfl⟩))
    unfold EntryLimits at hlimits
    omega

theorem safeName_error {value : String} {error : ZipError} (h : safeName value = .error error) :
    error ≠ .structError := by
  rcases bind_eq_error.mp h with h | ⟨_, -, h⟩
  · rw [← (raiseWhen_eq_error.mp h).2]
    exact ZipError.noConfusion
  rcases bind_eq_error.mp h with h | ⟨_, -, h⟩
  · rw [← (raiseWhen_eq_error.mp h).2]
    exact ZipError.noConfusion
  · cases h

/-- **No value is truncated**: `struct.pack` never sees one that does not fit. -/
theorem addEntry_ne_structError {s : ZipState} {entry : ZipEntry} {error : ZipError}
    (h : addEntry s entry = .error error) : error ≠ .structError := by
  rintro rfl
  -- what the checks have left is an entry that is accepted
  have hproper : Proper s entry ∧ EntryLimits s entry := by
    rcases bind_eq_error.mp h with h | ⟨name, hname, h⟩
    · exact absurd rfl (safeName_error h)
    obtain ⟨rfl, -⟩ := safeName_eq_ok hname
    rcases bind_eq_error.mp h with h | ⟨_, hnew, h⟩
    · cases (raiseWhen_eq_error.mp h).2
    rcases bind_eq_error.mp h with h | ⟨_, hlimits, h⟩
    · cases (raiseWhen_eq_error.mp h).2
    rcases bind_eq_error.mp h with h | ⟨stamps, hstamps, -⟩
    · unfold dosTime at h
      split at h <;> cases h
    have hlimits := raiseWhen_eq_ok.mp hlimits
    refine ⟨⟨hname, ⟨stamps, hstamps⟩, raiseWhen_eq_ok.mp hnew⟩, ?_⟩
    unfold EntryLimits
    omega
  obtain ⟨x, -, hok⟩ := addEntry_isOk hproper.1 hproper.2
  rw [hok] at h
  cases h

/-! ## All entries -/

/-- What the loop leaves when it has stored entries. -/
theorem foldl_add (stored : List StoredEntry) (s : ZipState) :
    (stored.foldl ZipState.add s).yielded.flatten = s.yielded.flatten ++ stored.flatMap (·.localBytes) ∧
      (stored.foldl ZipState.add s).centralDirectory = s.centralDirectory ++ stored.map (·.centralBytes) ∧
      (stored.foldl ZipState.add s).offset = s.offset + (stored.flatMap (·.localBytes)).length := by
  induction stored generalizing s with
  | nil => simp
  | cons x stored ih =>
    obtain ⟨hyielded, hcentral, hoffset⟩ := ih (s.add x)
    rw [List.foldl_cons]
    refine ⟨?_, ?_, ?_⟩
    · rw [hyielded, ZipState.add_yielded, List.flatMap_cons, List.append_assoc]
    · rw [hcentral]
      simp [ZipState.add]
    · rw [hoffset, ZipState.add_offset, List.flatMap_cons, List.length_append]
      omega

/-- **The loop stores the entries one behind the other**, those before the exception if there is one. -/
theorem addEntries_stored (entries : List ZipEntry) (s : ZipState) :
    ∃ stored : List StoredEntry, (addEntries s entries).1 = stored.foldl ZipState.add s ∧
      Located s.offset stored ∧ (∀ x ∈ stored, x.Fits) ∧ stored.map (·.entry) <+: entries ∧
      ((addEntries s entries).2 = none → stored.map (·.entry) = entries) ∧
      (addEntries s entries).2 ≠ some .structError := by
  induction entries generalizing s with
  | nil =>
    exact ⟨[], rfl, trivial, fun _ h => absurd h List.not_mem_nil, List.nil_prefix, fun _ => rfl,
      Option.some_ne_none _ |>.symm⟩
  | cons entry entries ih =>
    unfold addEntries
    cases hentry : addEntry s entry with
    | error error =>
      refine ⟨[], rfl, trivial, fun _ h => absurd h List.not_mem_nil, List.nil_prefix, ?_, ?_⟩
      · intro h
        cases h
      · intro h
        exact addEntry_ne_structError hentry (Option.some.inj h)
    | ok s' =>
      obtain ⟨x, rfl, hoffset, hfits, rfl⟩ := addEntry_eq_ok hentry
      obtain ⟨stored, hstate, hlocated, hall, hprefix, hdone, herror⟩ := ih (s.add x)
      refine ⟨x :: stored, hstate, ⟨hoffset, ?_⟩, List.forall_mem_cons.mpr ⟨hfits, hall⟩, ?_, ?_, herror⟩
      · rw [← ZipState.add_offset]
        exact hlocated
      · exact (List.prefix_cons_inj x.entry).mpr hprefix
      · intro hnone
        rw [List.map_cons, hdone hnone]

/-! ## The limits -/

/-- What an entry takes in the archive, before the central directory. -/
def ZipEntry.storedSize (entry : ZipEntry) : Nat :=
  30 + (encodeUtf8 entry.name).length + entry.data.length

/-- What it takes in the central directory. -/
def ZipEntry.recordSize (entry : ZipEntry) : Nat := 46 + (encodeUtf8 entry.name).length

theorem length_localBytes {x : StoredEntry} (h : x.Fits) : x.localBytes.length = x.entry.storedSize := by
  have hheader := length_encode h.localHeader.length_eq
  have hsum : localFormat.sum = 30 := rfl
  unfold StoredEntry.localBytes StoredEntry.name ZipEntry.storedSize
  rw [List.length_append, List.length_append, hheader]
  omega

theorem length_centralBytes {x : StoredEntry} (h : x.Fits) : x.centralBytes.length = x.entry.recordSize := by
  have hheader := length_encode h.centralRecord.length_eq
  have hsum : centralFormat.sum = 46 := rfl
  unfold StoredEntry.centralBytes StoredEntry.name ZipEntry.recordSize
  rw [List.length_append, hheader]
  omega

/-- Entries whose names and times can be written, with different names. -/
structure ProperEntries (seen : List (List UInt8)) (entries : List ZipEntry) : Prop where
  name : ∀ entry ∈ entries, safeName entry.name = .ok (encodeUtf8 entry.name)
  time : ∀ entry ∈ entries, ∃ stamps, dosTime entry.modifiedAt = .ok stamps
  new : ∀ entry ∈ entries, encodeUtf8 entry.name ∉ seen
  nodup : (entries.map fun entry => encodeUtf8 entry.name).Nodup

theorem ProperEntries.head {s : ZipState} {entry : ZipEntry} {entries : List ZipEntry}
    (h : ProperEntries s.seen (entry :: entries)) : Proper s entry where
  name := h.name entry List.mem_cons_self
  time := h.time entry List.mem_cons_self
  new := h.new entry List.mem_cons_self

theorem ProperEntries.tail {seen : List (List UInt8)} {entry : ZipEntry} {entries : List ZipEntry}
    (h : ProperEntries seen (entry :: entries)) : ProperEntries (encodeUtf8 entry.name :: seen) entries where
  name e he := h.name e (List.mem_cons_of_mem entry he)
  time e he := h.time e (List.mem_cons_of_mem entry he)
  new e he := by
    have hnodup := List.nodup_cons.mp h.nodup
    rw [List.mem_cons, not_or]
    exact ⟨fun heq => hnodup.1 (List.mem_map.mpr ⟨e, he, heq⟩), h.new e (List.mem_cons_of_mem entry he)⟩
  nodup := (List.nodup_cons.mp h.nodup).2

/-- **Which entries the loop accepts**: as many as the end record can count, up to the largest offset. -/
theorem addEntries_limits {entries : List ZipEntry} {s : ZipState} (hproper : ProperEntries s.seen entries)
    (hoffset : s.offset ≤ maxZip32Value) (hcount : s.centralDirectory.length ≤ 65535) :
    (addEntries s entries).2 =
      if s.centralDirectory.length + entries.length ≤ 65535 ∧
          s.offset + (entries.map (·.storedSize)).sum ≤ maxZip32Value then none
      else some (.valueError "ZIP32 archive limit exceeded") := by
  induction entries generalizing s with
  | nil => simp [addEntries, hoffset, hcount]
  | cons entry entries ih =>
    unfold addEntries
    simp only [List.length_cons, List.map_cons, List.sum_cons]
    by_cases hlimits : EntryLimits s entry
    · obtain ⟨x, rfl, hok⟩ := addEntry_isOk hproper.head hlimits
      obtain ⟨y, hyentry, -, hfits, hadd⟩ := addEntry_eq_ok hok
      have hnext : (s.add x).offset = s.offset + x.entry.storedSize := by
        rw [hadd, ZipState.add_offset, length_localBytes hfits, hyentry]
      have hcountNext : (s.add x).centralDirectory.length = s.centralDirectory.length + 1 := by
        simp [ZipState.add]
      rw [hok]
      show (addEntries (s.add x) entries).2 = _
      unfold EntryLimits at hlimits
      rw [ih hproper.tail, hnext, hcountNext]
      · congr 1
        simp only [eq_iff_iff]
        omega
      · rw [hnext]
        exact hlimits.1
      · omega
    · rw [addEntry_eq_limit hproper.head hlimits, if_neg]
      intro hwithin
      apply hlimits
      unfold ZipEntry.storedSize at hwithin
      unfold EntryLimits
      omega

/-! ## What is read back -/

@[simp] theorem decodeUtf8_encodeUtf8 (value : String) : decodeUtf8 (encodeUtf8 value) = some value := by
  unfold decodeUtf8 encodeUtf8
  have hbytes : (⟨value.toByteArray.data.toList.toArray⟩ : ByteArray) = value.toByteArray := by
    rw [Array.toArray_toList]
  rw [hbytes, String.fromUTF8?, dif_pos value.isValidUTF8]
  rfl

/-- The record a reader finds for an entry. -/
def StoredEntry.record (x : StoredEntry) : CentralRecord where
  flags := utf8Flag
  method := 0
  crc := crc32 x.entry.data
  compressedSize := x.entry.data.length
  size := x.entry.data.length
  offset := x.offset
  name := x.name

/-- **The central directory is read as it was written.** -/
theorem readCentral_records {stored : List StoredEntry} (h : ∀ x ∈ stored, x.Fits) :
    readCentral stored.length (stored.map (·.centralBytes)).flatten = some (stored.map (·.record)) := by
  induction stored with
  | nil => rfl
  | cons x stored ih =>
    obtain ⟨hx, hstored⟩ := List.forall_mem_cons.mp h
    have hunpack : unpack centralFormat ((x :: stored).map (·.centralBytes)).flatten =
        some (x.centralFields, x.name ++ (stored.map (·.centralBytes)).flatten) := by
      rw [List.map_cons, List.flatten_cons, StoredEntry.centralBytes, List.append_assoc]
      exact unpack_encode_append hx.centralRecord _
    rw [List.length_cons, readCentral, hunpack]
    simp only [StoredEntry.centralFields, centralValues, Option.bind_eq_bind, Option.bind_some, true_and,
      Nat.add_zero, List.length_append, Nat.le_add_right, if_true, List.drop_left, List.take_left,
      ih hstored, List.map_cons]
    rfl

/-- **An entry is read from where its record points to.** -/
theorem readLocal_record {x : StoredEntry} (h : x.Fits) {data rest : List UInt8}
    (hdata : data.drop x.offset = x.localBytes ++ rest) :
    readLocal data x.record = some (x.entry.name, x.entry.data) := by
  have hunpack : unpack localFormat (data.drop x.record.offset) =
      some (x.localFields, x.name ++ (x.entry.data ++ rest)) := by
    show unpack localFormat (data.drop x.offset) = _
    rw [hdata, StoredEntry.localBytes, List.append_assoc, List.append_assoc]
    exact unpack_encode_append h.localHeader _
  have hcontent : slice (x.name ++ (x.entry.data ++ rest)) x.name.length x.entry.data.length =
      x.entry.data := by
    rw [slice, List.drop_left, List.take_left]
  have hname : decodeUtf8 x.name = some x.entry.name := decodeUtf8_encodeUtf8 x.entry.name
  rw [readLocal, hunpack]
  simp only [StoredEntry.localFields, localValues, Option.bind_eq_bind, Option.bind_some, StoredEntry.record,
    Nat.add_zero, hcontent, List.take_left, true_and, and_self, if_true, hname]

/-- What stands at the offset of an entry. -/
theorem Located.drop {stored : List StoredEntry} {base : Nat} (h : Located base stored)
    {before : List UInt8} (hbefore : before.length = base) (after : List UInt8) {x : StoredEntry}
    (hx : x ∈ stored) : ∃ rest, (before ++ (stored.flatMap (·.localBytes) ++ after)).drop x.offset =
      x.localBytes ++ rest := by
  induction stored generalizing base before with
  | nil => exact absurd hx List.not_mem_nil
  | cons y stored ih =>
    obtain ⟨hoffset, hrest⟩ := h
    rw [List.flatMap_cons, List.append_assoc]
    rcases List.mem_cons.mp hx with rfl | hmem
    · rw [hoffset, ← hbefore, List.drop_left]
      exact ⟨_, rfl⟩
    · have hnext : (before ++ y.localBytes).length = base + y.localBytes.length := by
        rw [List.length_append, hbefore]
      obtain ⟨rest, hdrop⟩ := ih hrest hnext hmem
      rw [List.append_assoc] at hdrop
      exact ⟨rest, hdrop⟩

theorem findEndRecord_eq {data : List UInt8} {position : Nat} (h : isEndRecord data position = true) :
    findEndRecord data position = some position := by
  cases position <;> simp [findEndRecord, h]

theorem mapM_eq_some {α β γ : Type} {f : β → Option γ} {g : α → β} {k : α → γ} {xs : List α}
    (h : ∀ x ∈ xs, f (g x) = some (k x)) : (xs.map g).mapM f = some (xs.map k) := by
  induction xs with
  | nil => rfl
  | cons x xs ih =>
    obtain ⟨hx, hxs⟩ := List.forall_mem_cons.mp h
    rw [List.map_cons, List.mapM_cons, hx, ih hxs]
    rfl

/-- An archive: the entries, the central directory, the end record. -/
def archive (stored : List StoredEntry) : List UInt8 :=
  stored.flatMap (·.localBytes) ++ ((stored.map (·.centralBytes)).flatten ++
    encode endFormat (endValues stored.length (stored.map (·.centralBytes)).flatten.length
      (stored.flatMap (·.localBytes)).length))

/-- **An archive is read as it was written.** -/
theorem readZip_archive {stored : List StoredEntry} (hlocated : Located 0 stored)
    (hfits : ∀ x ∈ stored, x.Fits)
    (hend : Library.Records.Fits endFormat (endValues stored.length
      (stored.map (·.centralBytes)).flatten.length (stored.flatMap (·.localBytes)).length)) :
    readZip (archive stored) = some (stored.map fun x => (x.entry.name, x.entry.data)) := by
  have hcentral := readCentral_records hfits
  have hentries : ∀ x ∈ stored, readLocal (archive stored) x.record = some (x.entry.name, x.entry.data) := by
    intro x hx
    obtain ⟨rest, hdrop⟩ := hlocated.drop (show ([] : List UInt8).length = 0 from rfl)
      ((stored.map (·.centralBytes)).flatten ++ encode endFormat (endValues stored.length
        (stored.map (·.centralBytes)).flatten.length (stored.flatMap (·.localBytes)).length)) hx
    exact readLocal_record (hfits x hx) hdrop
  unfold archive at hentries ⊢
  generalize stored.flatMap (·.localBytes) = locals at *
  generalize (stored.map (·.centralBytes)).flatten = centrals at *
  generalize hvalues : endValues stored.length centrals.length locals.length = values at *
  have hlength : (locals ++ (centrals ++ encode endFormat values)).length =
      locals.length + centrals.length + endFormat.sum := by
    rw [List.length_append, List.length_append, length_encode hend.length_eq, Nat.add_assoc]
  have hdrop : (locals ++ (centrals ++ encode endFormat values)).drop (locals.length + centrals.length) =
      encode endFormat values := by
    rw [← List.append_assoc]
    exact List.drop_left' List.length_append
  have hunpack : unpack endFormat ((locals ++ (centrals ++ encode endFormat values)).drop
      (locals.length + centrals.length)) = some (values, []) := by
    rw [hdrop, ← List.append_nil (encode endFormat values)]
    exact unpack_encode_append hend []
  have hslice : slice (locals ++ (centrals ++ encode endFormat values)) locals.length centrals.length =
      centrals := by
    rw [slice, List.drop_left, List.take_left]
  have hfound : isEndRecord (locals ++ (centrals ++ encode endFormat values))
      (locals.length + centrals.length) = true := by
    rw [isEndRecord, hunpack, ← hvalues]
    rfl
  have hread := mapM_eq_some (g := StoredEntry.record) hentries
  generalize locals ++ (centrals ++ encode endFormat values) = data at *
  have hposition : data.length - endFormat.sum = locals.length + centrals.length := by omega
  unfold readZip
  rw [if_neg (by omega), hposition, findEndRecord_eq hfound]
  simp only [Option.bind_eq_bind, Option.bind_some, hunpack]
  rw [← hvalues]
  simp only [endValues, true_and, if_true, hslice, hcentral, Option.bind_some]
  exact hread

/-! ## The stream -/

/-- The archive of the entries does not need more than ZIP32 has. -/
def WithinZip32 (entries : List ZipEntry) : Prop :=
  entries.length ≤ 65535 ∧
    (entries.map (·.storedSize)).sum + (entries.map (·.recordSize)).sum ≤ maxZip32Value

instance (entries : List ZipEntry) : Decidable (WithinZip32 entries) := inferInstanceAs (Decidable (_ ∧ _))

theorem sum_storedSize {stored : List StoredEntry} (h : ∀ x ∈ stored, x.Fits) :
    (stored.flatMap (·.localBytes)).length = ((stored.map (·.entry)).map (·.storedSize)).sum := by
  induction stored with
  | nil => rfl
  | cons x stored ih =>
    obtain ⟨hx, hstored⟩ := List.forall_mem_cons.mp h
    rw [List.flatMap_cons, List.length_append, length_localBytes hx, ih hstored]
    rfl

theorem sum_recordSize {stored : List StoredEntry} (h : ∀ x ∈ stored, x.Fits) :
    (stored.map (·.centralBytes)).flatten.length = ((stored.map (·.entry)).map (·.recordSize)).sum := by
  induction stored with
  | nil => rfl
  | cons x stored ih =>
    obtain ⟨hx, hstored⟩ := List.forall_mem_cons.mp h
    rw [List.map_cons, List.flatten_cons, List.length_append, length_centralBytes hx, ih hstored]
    rfl

/-- The end record of stored entries. -/
def endFields (stored : List StoredEntry) : List Nat :=
  endValues stored.length (stored.map (·.centralBytes)).flatten.length
    (stored.flatMap (·.localBytes)).length

theorem endValues_fits {count centralSize centralOffset : Nat} (hcount : count ≤ 65535)
    (hcentral : centralSize ≤ maxZip32Value) (hoffset : centralOffset ≤ maxZip32Value) :
    Library.Records.Fits endFormat (endValues count centralSize centralOffset) := by
  have hmax : maxZip32Value = 256 ^ 4 - 1 := by decide
  unfold Library.Records.Fits endFormat endValues
  simp only [List.forall₂_cons, List.Forall₂.nil, and_true]
  exact ⟨by decide, by decide, by decide, by omega, by omega, by omega, by omega, by decide⟩

/-- The count of the central directory has been checked with every entry. -/
theorem addEntries_count (entries : List ZipEntry) {s : ZipState} (h : s.centralDirectory.length ≤ 65535) :
    (addEntries s entries).1.centralDirectory.length ≤ 65535 := by
  induction entries generalizing s with
  | nil => exact h
  | cons entry entries ih =>
    unfold addEntries
    cases hentry : addEntry s entry with
    | error error => exact h
    | ok s' =>
      refine ih ?_
      obtain ⟨_, -, hentry⟩ := bind_eq_ok.mp hentry
      obtain ⟨_, -, hentry⟩ := bind_eq_ok.mp hentry
      obtain ⟨_, hlimits, hentry⟩ := bind_eq_ok.mp hentry
      obtain ⟨_, -, hentry⟩ := bind_eq_ok.mp hentry
      obtain ⟨_, -, hentry⟩ := bind_eq_ok.mp hentry
      obtain ⟨_, -, hentry⟩ := bind_eq_ok.mp hentry
      obtain rfl := Except.ok.inj hentry
      have hlimits := raiseWhen_eq_ok.mp hlimits
      show (s.centralDirectory ++ [_]).length ≤ 65535
      rw [List.length_append, List.length_singleton]
      omega

/-- The end of the stream: it raises when the archive has become too long, and only then. -/
theorem finishZip_eq {s : ZipState} (hcount : s.centralDirectory.length ≤ 65535) :
    finishZip s =
      if s.offset + s.centralDirectory.flatten.length ≤ maxZip32Value then
        (s.yielded ++ s.centralDirectory ++ [encode endFormat
          (endValues s.centralDirectory.length s.centralDirectory.flatten.length s.offset)], none)
      else (s.yielded ++ s.centralDirectory, some (.valueError "ZIP32 archive limit exceeded")) := by
  unfold finishZip
  simp only [Nat.add_sub_cancel_left]
  by_cases hlimit : s.offset + s.centralDirectory.flatten.length ≤ maxZip32Value
  · rw [if_neg (by omega), if_pos hlimit, structPack_of_fits (endValues_fits hcount (by omega) (by omega))]
  · rw [if_pos (by omega), if_neg hlimit]

/-- What has been yielded: the entries one behind the other, and the central directory behind them. -/
structure Yielded (entries : List ZipEntry) (stored : List StoredEntry) : Prop where
  located : Located 0 stored
  fits : ∀ x ∈ stored, x.Fits
  stored_prefix : stored.map (·.entry) <+: entries
  finished : (streamZip entries).2 = none → stored.map (·.entry) = entries ∧
    Library.Records.Fits endFormat (endFields stored) ∧ (streamZip entries).1.flatten = archive stored
  raised : (streamZip entries).2 ≠ none → (streamZip entries).1.flatten <+:
    stored.flatMap (·.localBytes) ++ (stored.map (·.centralBytes)).flatten

/-- **What a stream yields**, and that it never ends with `struct.error`. -/
theorem streamZip_yielded (entries : List ZipEntry) :
    (∃ stored, Yielded entries stored) ∧ (streamZip entries).2 ≠ some .structError := by
  obtain ⟨stored, hstate, hlocated, hfits, hprefix, hdone, herror⟩ := addEntries_stored entries {}
  obtain ⟨hyielded, hcentral, hoffset⟩ := foldl_add stored {}
  have hcount := addEntries_count entries (s := {}) (Nat.zero_le _)
  rw [← hstate] at hyielded hcentral hoffset
  generalize hresult : addEntries {} entries = result at *
  obtain ⟨s, ended⟩ := result
  replace hyielded : s.yielded.flatten = stored.flatMap (·.localBytes) := hyielded
  replace hcentral : s.centralDirectory = stored.map (·.centralBytes) := hcentral
  replace hoffset : s.offset = (stored.flatMap (·.localBytes)).length := hoffset.trans (Nat.zero_add _)
  cases ended with
  | some error =>
    have hstream : streamZip entries = (s.yielded, some error) := by
      rw [streamZip, hresult]
    refine ⟨⟨stored, hlocated, hfits, hprefix, ?_, ?_⟩, ?_⟩
    · rw [hstream]
      intro h
      cases h
    · intro _
      rw [hstream]
      show s.yielded.flatten <+: _
      rw [hyielded]
      exact List.prefix_append _ _
    · rw [hstream]
      exact herror
  | none =>
    have hstream : streamZip entries = finishZip s := by
      rw [streamZip, hresult]
    rw [finishZip_eq hcount, hcentral, hoffset] at hstream
    by_cases hlimit : (stored.flatMap (·.localBytes)).length +
        (stored.map (·.centralBytes)).flatten.length ≤ maxZip32Value
    · rw [if_pos hlimit] at hstream
      refine ⟨⟨stored, hlocated, hfits, hprefix, fun _ => ⟨hdone rfl, ?_, ?_⟩, ?_⟩, ?_⟩
      · refine endValues_fits ?_ (by omega) (by omega)
        have hlength : s.centralDirectory.length ≤ 65535 := hcount
        rw [hcentral, List.length_map] at hlength
        exact hlength
      · rw [hstream]
        simp [archive, hyielded]
      · rw [hstream]
        exact fun h => absurd rfl h
      · rw [hstream]
        exact (Option.some_ne_none _).symm
    · rw [if_neg hlimit] at hstream
      refine ⟨⟨stored, hlocated, hfits, hprefix, ?_, ?_⟩, ?_⟩
      · rw [hstream]
        intro h
        cases h
      · intro _
        rw [hstream]
        simp [hyielded]
      · rw [hstream]
        intro h
        cases h

/-- **The limits of a stream** of proper entries are those of ZIP32. -/
theorem streamZip_limits {entries : List ZipEntry} (hproper : ProperEntries [] entries) :
    (streamZip entries).2 =
      if WithinZip32 entries then none else some (.valueError "ZIP32 archive limit exceeded") := by
  obtain ⟨stored, hstate, -, hfits, -, hdone, -⟩ := addEntries_stored entries {}
  obtain ⟨-, hcentral, hoffset⟩ := foldl_add stored {}
  have hcount := addEntries_count entries (s := {}) (Nat.zero_le _)
  have hlimits := addEntries_limits (s := {}) hproper (Nat.zero_le _) (Nat.zero_le _)
  rw [← hstate] at hcentral hoffset
  generalize hresult : addEntries {} entries = result at *
  obtain ⟨s, ended⟩ := result
  replace hcentral : s.centralDirectory = stored.map (·.centralBytes) := hcentral
  replace hoffset : s.offset = (stored.flatMap (·.localBytes)).length := hoffset.trans (Nat.zero_add _)
  simp only [List.length_nil, Nat.zero_add] at hlimits
  cases ended with
  | some error =>
    have hstream : streamZip entries = (s.yielded, some error) := by
      rw [streamZip, hresult]
    rw [hstream, hlimits, if_neg, if_neg]
    · rintro ⟨hlength, hsize⟩
      rw [if_pos ⟨hlength, by omega⟩] at hlimits
      cases hlimits
    · intro hwithin
      rw [if_pos hwithin] at hlimits
      cases hlimits
  | none =>
    have hstream : streamZip entries = finishZip s := by
      rw [streamZip, hresult]
    have hlength : entries.length ≤ 65535 := by
      by_contra hover
      rw [if_neg fun hwithin => hover hwithin.1] at hlimits
      cases hlimits
    rw [hstream, finishZip_eq hcount, hcentral, hoffset, sum_storedSize hfits, sum_recordSize hfits,
      hdone rfl]
    unfold WithinZip32
    simp only [hlength, true_and]
    split <;> rfl

/-- **The round trip of a streamed archive.** An archive whose stream has finished is read as its entries, in
order. Entries that need more than ZIP32 has end the stream with a `ValueError`, never with `struct.error`, and
whatever has been yielded by then consists of headers whose fields fit. -/
theorem streamZip_roundTrip (entries : List ZipEntry) :
    ((streamZip entries).2 = none → readZip (streamZip entries).1.flatten =
      some (entries.map fun entry => (entry.name, entry.data))) ∧
    (ProperEntries [] entries → (streamZip entries).2 =
      if WithinZip32 entries then none else some (.valueError "ZIP32 archive limit exceeded")) ∧
    (∃ stored, Yielded entries stored) ∧ (streamZip entries).2 ≠ some .structError := by
  obtain ⟨⟨stored, hyielded⟩, herror⟩ := streamZip_yielded entries
  refine ⟨fun hdone => ?_, streamZip_limits, ⟨stored, hyielded⟩, herror⟩
  obtain ⟨hentries, hend, hbytes⟩ := hyielded.finished hdone
  rw [hbytes, readZip_archive hyielded.located hyielded.fits hend, ← hentries, List.map_map]
  rfl

/-- Two entries, the second of them empty. -/
def twoEntries : List ZipEntry :=
  [⟨"a/b.txt", [104, 105], ⟨startOfDay 19753, none⟩⟩, ⟨"c", [], ⟨startOfDay 19753, none⟩⟩]

example : (streamZip twoEntries).2 = none := by decide +kernel

end Dayfinch
