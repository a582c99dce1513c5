/-
# Dayfinch.Library.Records -- binary records of little-endian integers

A format is the list of the widths of a record's fields, in bytes. `pack` writes values that fit their
fields and refuses others, as `struct.pack` does, and `unpack` reads them back, together with what stands
behind the record. Records are read at a position of a longer text of bytes: `slice` is what stands there.
-/
import Mathlib.Data.List.Forall2
import Mathlib.Tactic.Ring

namespace Dayfinch.Library.Records

/-! ## Integers -/

/-- The bytes of a value, the low ones first; what does not fit is lost. -/
def toBytes : Nat → Nat → List UInt8
  | 0, _ => []
  | width + 1, value => UInt8.ofNat (value % 256) :: toBytes width (value / 256)

/-- The value of bytes. -/
def ofBytes : List UInt8 → Nat
  | [] => 0
  | b :: bytes => b.toNat + 256 * ofBytes bytes

@[simp] theorem length_toBytes (width value : Nat) : (toBytes width value).length = width := by
  induction width generalizing value with
  | zero => rfl
  | succ width ih => rw [toBytes, List.length_cons, ih]

theorem ofBytes_toBytes {width value : Nat} (h : value < 256 ^ width) : ofBytes (toBytes width value) = value := by
  induction width generalizing value with
  | zero =>
    rw [pow_zero] at h
    show 0 = value
    omega
  | succ width ih =>
    have hrest : value / 256 < 256 ^ width := by
      apply Nat.div_lt_of_lt_mul
      rw [pow_succ'] at h
      exact h
    rw [toBytes, ofBytes, ih hrest, UInt8.toNat_ofNat', Nat.mod_eq_of_lt (Nat.mod_lt value (by decide))]
    exact Nat.mod_add_div value 256

/-! ## Records -/

/-- Every value fits its field, and there is one for each. -/
def Fits (format values : List Nat) : Prop := List.Forall₂ (fun width value => value < 256 ^ width) format values

instance (format values : List Nat) : Decidable (Fits format values) :=
  inferInstanceAs (Decidable (List.Forall₂ _ format values))

/-- The bytes of a record. -/
def encode (format values : List Nat) : List UInt8 := (List.zipWith toBytes format values).flatten

/-- `struct.pack(format, *values)`, if it does not raise. -/
def pack (format values : List Nat) : Option (List UInt8) :=
  if Fits format values then some (encode format values) else none

/-- The values of a record's bytes. -/
def decode : List Nat → List UInt8 → List Nat
  | [], _ => []
  | width :: format, bytes => ofBytes (bytes.take width) :: decode format (bytes.drop width)

/-- `struct.unpack` of a record that bytes begin with, and the bytes behind it. -/
def unpack (format : List Nat) (bytes : List UInt8) : Option (List Nat × List UInt8) :=
  if bytes.length < format.sum then none else some (decode format bytes, bytes.drop format.sum)

theorem pack_eq_some {format values : List Nat} {bytes : List UInt8} :
    pack format values = some bytes ↔ Fits format values ∧ bytes = encode format values := by
  unfold pack
  split
  · rename_i hfits
    simp [hfits, eq_comm]
  · rename_i hfits
    simp [hfits]

theorem length_encode {format values : List Nat} (h : format.length = values.length) :
    (encode format values).length = format.sum := by
  induction format generalizing values with
  | nil => rfl
  | cons width format ih =>
    cases values with
    | nil => cases h
    | cons value values =>
      show (toBytes width value ++ encode format values).length = width + format.sum
      rw [List.length_append, length_toBytes, ih (Nat.succ.inj h)]

theorem decode_encode_append {format values : List Nat} (h : Fits format values) (rest : List UInt8) :
    decode format (encode format values ++ rest) = values := by
  induction h with
  | nil => rfl
  | @cons width value format values hvalue _ ih =>
    show decode (width :: format) (toBytes width value ++ encode format values ++ rest) = _
    rw [decode, List.append_assoc, List.take_left' (length_toBytes width value),
      List.drop_left' (length_toBytes width value), ofBytes_toBytes hvalue, ih]

/-- **A record is read as it was written**, whatever follows. -/
theorem unpack_encode_append {format values : List Nat} (h : Fits format values) (rest : List UInt8) :
    unpack format (encode format values ++ rest) = some (values, rest) := by
  have hlength := length_encode h.length_eq
  unfold unpack
  rw [List.length_append, hlength, if_neg (by omega), decode_encode_append h, List.drop_left' hlength]

/-! ## Positions -/

/-- What stands at a position, for some length. -/
def slice (bytes : List UInt8) (position length : Nat) : List UInt8 := (bytes.drop position).take length

end Dayfinch.Library.Records
