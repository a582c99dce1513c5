/-
# Dayfinch.Reports.ZipStream -- the archive that an export of screenshots is streamed as

`stream_zip` is a generator: it yields the chunks of the archive and may raise in between. `streamZip` gives
both, the chunks that were yielded and the exception, if one ended the stream; an entry's chunks are yielded
after everything that can raise for it (`addEntry`). `struct.pack` does not truncate, it raises
(`ZipError.structError`).

`readZip` is a reader of ZIP32 archives: it looks for the end record from behind, walks the central directory
and follows the offset of every local header, comparing the two headers and the CRC of the content.
-/
import Dayfinch.Library.Outcome
import Dayfinch.Library.Records
import Dayfinch.Reports.NextDelivery

namespace Dayfinch

open Library.Calendar (monthOf)
open Library.Records (Fits encode pack unpack slice)

/-! ## Entries -/

/-- How the generator fails. -/
inductive ZipError
  | valueError (message : String)
  | structError
  | overflowError
  deriving DecidableEq, Repr

/-- `if condition: raise error`. -/
def raiseWhen (condition : Prop) [Decidable condition] (error : ZipError) : Except ZipError Unit :=
  if condition then .error error else .ok ()

/-- `ZipEntry`. -/
structure ZipEntry where
  name : String
  data : List UInt8
  modifiedAt : Datetime
  deriving DecidableEq, Repr

/-- `value.encode("utf-8")`. -/
def encodeUtf8 (value : String) : List UInt8 := value.toByteArray.data.toList

/-- `bytes.decode("utf-8")`. -/
def decodeUtf8 (bytes : List UInt8) : Option String := String.fromUTF8? ⟨bytes.toArray⟩

/-- `zlib.crc32` of one more byte: the bits of the polynomial, low ones first. -/
def crc32Step (crc : UInt32) (byte : UInt8) : UInt32 :=
  Nat.iterate (fun c => if c &&& 1 = 1 then (c >>> 1) ^^^ 0xEDB88320 else c >>> 1) 8
    (crc ^^^ byte.toUInt32)

/-- `zlib.crc32(data)`. -/
def crc32 (data : List UInt8) : Nat := (data.foldl crc32Step 0xFFFFFFFF ^^^ 0xFFFFFFFF).toNat

example : crc32 [49, 50, 51, 52, 53, 54, 55, 56, 57] = 0xCBF43926 := by decide +kernel

/-- `PurePosixPath(value).parts` of a relative path: empty parts and single dots are left out. -/
def pathParts (value : String) : List (List Char) :=
  (value.toList.splitOn '/').filter fun part => part ≠ [] ∧ part ≠ ['.']

/-- `_safe_name(value)`. -/
def safeName (value : String) : Except ZipError (List UInt8) := do
  raiseWhen (value = "" ∨ value.toList.head? = some '/' ∨ '\\' ∈ value.toList ∨
    ∃ part ∈ pathParts value, part = [] ∨ part = ['.'] ∨ part = ['.', '.'])
    (.valueError "ZIP entry name is unsafe")
  let encoded := encodeUtf8 value
  raiseWhen (65535 < encoded.length) (.valueError "ZIP entry name is too long")
  pure encoded

/-- `_dos_time(value)`: the time and the date. -/
def dosTime (value : Datetime) : Except ZipError (Nat × Nat) :=
  match value.observed with
  | none => .error .overflowError
  | some t =>
    let day := dateOf t
    let clock := ((t - startOfDay day) / seconds 1).toNat
    let year := min 2107 (max 1980 (monthOf day / 12).toNat)
    let dosDate := (year - 1980) <<< 9 ||| (monthOf day % 12 + 1).toNat <<< 5 ||| (dayOfMonth day).toNat
    let dosTime := (clock / 3600) <<< 11 ||| (clock / 60 % 60) <<< 5 ||| clock % 60 / 2
    .ok (dosTime, dosDate)

/-! ## Headers -/

/-- `MAX_ZIP32_VALUE`. -/
def maxZip32Value : Nat := (1 <<< 32) - 1

/-- `UTF8_FLAG`. -/
def utf8Flag : Nat := 1 <<< 11

/-- `"<IHHHHHIIIHH"`. -/
def localFormat : List Nat := [4, 2, 2, 2, 2, 2, 4, 4, 4, 2, 2]

/-- `"<IHHHHHHIIIHHHHHII"`. -/
def centralFormat : List Nat := [4, 2, 2, 2, 2, 2, 2, 4, 4, 4, 2, 2, 2, 2, 2, 4, 4]

/-- `"<IHHHHIIH"`. -/
def endFormat : List Nat := [4, 2, 2, 2, 2, 4, 4, 2]

/-- The fields of a local header. -/
def localValues (dosTime dosDate crc size nameLength : Nat) : List Nat :=
  [0x04034B50, 20, utf8Flag, 0, dosTime, dosDate, crc, size, size, nameLength, 0]

/-- The fields of a record of the central directory. -/
def centralValues (dosTime dosDate crc size nameLength offset : Nat) : List Nat :=
  [0x02014B50, 0x0314, 20, utf8Flag, 0, dosTime, dosDate, crc, size, size, nameLength, 0, 0, 0, 0,
    0o100600 <<< 16, offset]

/-- The fields of the end record. -/
def endValues (count centralSize centralOffset : Nat) : List Nat :=
  [0x06054B50, 0, 0, count, count, centralSize, centralOffset, 0]

/-- `struct.pack(format, *values)`. -/
def structPack (format values : List Nat) : Except ZipError (List UInt8) :=
  match pack format values with
  | some bytes => .ok bytes
  | none => .error .structError

/-! ## The generator -/

/-- The variables of the generator, and what it has yielded. -/
structure ZipState where
  yielded : List (List UInt8) := []
  centralDirectory : List (List UInt8) := []
  offset : Nat := 0
  seen : List (List UInt8) := []
  deriving DecidableEq, Repr

/-- `for entry in entries: ..`. -/
def addEntry (s : ZipState) (entry : ZipEntry) : Except ZipError ZipState := do
  let name ← safeName entry.name
  raiseWhen (name ∈ s.seen) (.valueError "ZIP entry names must be unique")
  let size := entry.data.length
  let localSize := 30 + name.length + size
  raiseWhen (maxZip32Value < size ∨ maxZip32Value < s.offset ∨ maxZip32Value < s.offset + localSize ∨
    65535 ≤ s.centralDirectory.length) (.valueError "ZIP32 archive limit exceeded")
  let crc := crc32 entry.data
  let (time, date) ← dosTime entry.modifiedAt
  let localHeader ← structPack localFormat (localValues time date crc size name.length)
  let record ← structPack centralFormat (centralValues time date crc size name.length s.offset)
  pure {
    yielded := s.yielded ++ [localHeader, name, entry.data]
    centralDirectory := s.centralDirectory ++ [record ++ name]
    offset := s.offset + (localHeader.length + name.length + size)
    seen := name :: s.seen }

/-- The loop over the entries, up to the first exception. -/
def addEntries : ZipState → List ZipEntry → ZipState × Option ZipError
  | s, [] => (s, none)
  | s, entry :: entries =>
    match addEntry s entry with
    | .ok s' => addEntries s' entries
    | .error error => (s, some error)

/-- The central directory and the end record, behind the entries. -/
def finishZip (s : ZipState) : List (List UInt8) × Option ZipError :=
  let centralOffset := s.offset
  let yielded := s.yielded ++ s.centralDirectory
  let offset := s.offset + s.centralDirectory.flatten.length
  let centralSize := offset - centralOffset
  if maxZip32Value < max offset (max centralSize centralOffset) then
    (yielded, some (.valueError "ZIP32 archive limit exceeded"))
  else
    match structPack endFormat (endValues s.centralDirectory.length centralSize centralOffset) with
    | .ok record => (yielded ++ [record], none)
    | .error error => (yielded, some error)

/-- `stream_zip(entries)`: the chunks, and what the stream ended with. -/
def streamZip (entries : List ZipEntry) : List (List UInt8) × Option ZipError :=
  match addEntries {} entries with
  | (s, some error) => (s.yielded, some error)
  | (s, none) => finishZip s

/-! ## A reader -/

/-- The end record stands here: its comment reaches to the end of the archive. -/
def isEndRecord (data : List UInt8) (position : Nat) : Bool :=
  match unpack endFormat (data.drop position) with
  | some ([signature, _, _, _, _, _, _, commentLength], comment) =>
    signature == 0x06054B50 && commentLength == comment.length
  | _ => false

/-- The last position up to this one where an end record stands. -/
def findEndRecord (data : List UInt8) : Nat → Option Nat
  | 0 => if isEndRecord data 0 then some 0 else none
  | position + 1 =>
    if isEndRecord data (position + 1) then some (position + 1) else findEndRecord data position

/-- What a reader keeps of a record of the central directory. -/
structure CentralRecord where
  flags : Nat
  method : Nat
  crc : Nat
  compressedSize : Nat
  size : Nat
  offset : Nat
  name : List UInt8
  deriving DecidableEq, Repr

/-- So many records of the central directory, and nothing behind them. -/
def readCentral : Nat → List UInt8 → Option (List CentralRecord)
  | 0, bytes => if bytes = [] then some [] else none
  | count + 1, bytes => do
    let (values, rest) ← unpack centralFormat bytes
    match values with
    | [signature, _, _, flags, method, _, _, crc, compressedSize, size, nameLength, extraLength,
        commentLength, _, _, _, offset] =>
      if signature = 0x02014B50 ∧ nameLength + extraLength + commentLength ≤ rest.length then do
        let records ← readCentral count (rest.drop (nameLength + extraLength + commentLength))
        some (⟨flags, method, crc, compressedSize, size, offset, rest.take nameLength⟩ :: records)
      else none
    | _ => none

/-- The entry of a record, from its local header on. -/
def readLocal (data : List UInt8) (record : CentralRecord) : Option (String × List UInt8) := do
  let (values, rest) ← unpack localFormat (data.drop record.offset)
  match values with
  | [signature, _, flags, method, _, _, crc, compressedSize, size, nameLength, extraLength] =>
    let content := slice rest (nameLength + extraLength) compressedSize
    if signature = 0x04034B50 ∧ flags = record.flags ∧ method = 0 ∧ record.method = 0 ∧
        crc = record.crc ∧ compressedSize = record.compressedSize ∧ size = record.size ∧
        rest.take nameLength = record.name ∧ content.length = size ∧ crc32 content = crc then do
      let name ← decodeUtf8 record.name
      some (name, content)
    else none
  | _ => none

/-- The names and contents of an archive. -/
def readZip (data : List UInt8) : Option (List (String × List UInt8)) := do
  let position ← if data.length < endFormat.sum then none else findEndRecord data (data.length - endFormat.sum)
  let (values, _) ← unpack endFormat (data.drop position)
  match values with
  | [_, _, _, countHere, count, centralSize, centralOffset, _] =>
    if countHere = count ∧ centralOffset + centralSize = position then do
      let records ← readCentral count (slice data centralOffset centralSize)
      records.mapM (readLocal data)
    else none
  | _ => none

end Dayfinch
