/-
  Lib/LittleEndian.lean --- records of little-endian numbers.

  A record is a list of fields, each with its width in bytes.  What is written field by
  field is read back field by field, modulo the widths.
-/
import Mathlib.Data.List.Basic
import Mathlib.Algebra.Group.Nat.Defs

set_option autoImplicit false

namespace DragonDevice.Lib

abbrev Byte : Type := BitVec 8

/-! ## Numbers -/

/-- The `width` bytes of a number, the least significant first. -/
def toBytes : Nat → Nat → List Byte
  | 0, _ => []
  | width + 1, n => BitVec.ofNat 8 n :: toBytes width (n / 256)

/-- The number with the given bytes. -/
def ofBytes : List Byte → Nat
  | [] => 0
  | b :: bytes => b.toNat + 256 * ofBytes bytes

@[simp] theorem length_toBytes (width n : Nat) : (toBytes width n).length = width := by
  induction width generalizing n with
  | zero => rfl
  | succ width ih => rw [toBytes, List.length_cons, ih]

theorem ofBytes_toBytes (width n : Nat) : ofBytes (toBytes width n) = n % 256 ^ width := by
  induction width generalizing n with
  | zero => rw [toBytes, ofBytes, Nat.pow_zero, Nat.mod_one]
  | succ width ih =>
      rw [toBytes, ofBytes, ih, BitVec.toNat_ofNat, @Nat.pow_succ' 256 width, Nat.mod_mul]

theorem ofBytes_lt (bytes : List Byte) : ofBytes bytes < 256 ^ bytes.length := by
  induction bytes with
  | nil => exact Nat.one_pos
  | cons b bytes ih =>
      have hb : b.toNat < 256 := b.isLt
      rw [ofBytes, List.length_cons, Nat.pow_succ']
      omega

/-! ## Records -/

/-- The bytes of a record, given as widths and values. -/
def encodeFields : List (Nat × Nat) → List Byte
  | [] => []
  | field :: fields => toBytes field.1 field.2 ++ encodeFields fields

/-- The values of a record with fields of the given widths. -/
def decodeFields : List Nat → List Byte → List Nat
  | [], _ => []
  | width :: widths, bytes => ofBytes (bytes.take width) :: decodeFields widths (bytes.drop width)

/-- Every value is below what its width can hold. -/
def FieldsFit (fields : List (Nat × Nat)) : Prop :=
  ∀ field ∈ fields, field.2 < 256 ^ field.1

theorem decodeFields_encodeFields {fields : List (Nat × Nat)} (h : FieldsFit fields) :
    decodeFields (fields.map Prod.fst) (encodeFields fields) = fields.map Prod.snd := by
  induction fields with
  | nil => rfl
  | cons field fields ih =>
      have hfield : field.2 < 256 ^ field.1 := h field List.mem_cons_self
      rw [List.map_cons, List.map_cons, encodeFields, decodeFields,
        List.take_left' (length_toBytes _ _), List.drop_left' (length_toBytes _ _),
        ofBytes_toBytes, Nat.mod_eq_of_lt hfield,
        ih fun field hmem => h field (List.mem_cons_of_mem _ hmem)]

theorem decodeFields_lt (widths : List Nat) (bytes : List Byte) :
    ∀ field ∈ widths.zip (decodeFields widths bytes), field.2 < 256 ^ field.1 := by
  induction widths generalizing bytes with
  | nil =>
      intro field hmem
      cases hmem
  | cons width widths ih =>
      intro field hmem
      rw [decodeFields, List.zip_cons_cons] at hmem
      rcases List.mem_cons.mp hmem with rfl | hrest
      · have hlt := ofBytes_lt (bytes.take width)
        have hle : (bytes.take width).length ≤ width := List.length_take_le _ _
        exact Nat.lt_of_lt_of_le hlt (Nat.pow_le_pow_right (by decide) hle)
      · exact ih _ field hrest

end DragonDevice.Lib
