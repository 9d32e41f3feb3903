/-
  Recovery/Vbnv.lean --- the vboot NVRAM of `vboot_interface.c`.

  The NVRAM is a section of 16-byte records written one after the other.  The
  current record is the last one that is not all ones.  A flag is set by writing
  a changed copy of it: over the record itself when that only clears bits, else
  behind it, else at the start of the section after an erase.
-/
import DragonDevice.Recovery.Flash

set_option autoImplicit false

namespace DragonDevice.Recovery

open DragonDevice.Lib

/-! ## Parameters -/

/-- `VB_CRC_OFFSET`. -/
def vbCrcOffset : Nat := 15

/-- `VB_NVDATA_SIZE`. -/
def vbNvdataSize : Nat := 16

/-- `struct vbnv_param`; `writable` is the flag `VBNV_WRITABLE`. -/
structure VbnvParam where
  name : String
  writable : Bool
  offset : Nat
  shift : Nat
  mask : Nat
  deriving DecidableEq, Repr

/-- `param_table`. -/
def paramTable : List VbnvParam :=
  [ ⟨"try_count", true, 1, 0, 0xf⟩,
    ⟨"backup_nvram", true, 1, 4, 0x01⟩,
    ⟨"oprom_needed", true, 1, 5, 0x01⟩,
    ⟨"disable_dev", true, 1, 6, 0x01⟩,
    ⟨"debug_reset", true, 1, 7, 0x01⟩,
    ⟨"boot_result", true, 7, 0, 0x3⟩,
    ⟨"fw_tried", false, 7, 2, 0x01⟩,
    ⟨"fw_try_next", true, 7, 3, 0x01⟩,
    ⟨"fw_prev_result", false, 7, 4, 0x3⟩,
    ⟨"prev_tried", false, 7, 6, 0x01⟩,
    ⟨"dev_boot_usb", true, 4, 0, 0x01⟩,
    ⟨"dev_boot_signed_only", true, 4, 1, 0x01⟩,
    ⟨"dev_boot_legacy", true, 4, 2, 0x01⟩,
    ⟨"dev_boot_fastboot_full_cap", true, 4, 3, 0x01⟩,
    ⟨"tpm_clear_owner_request", true, 5, 0, 0x01⟩,
    ⟨"tpm_clear_owner_done", true, 5, 1, 0x01⟩,
    ⟨"unlock_fastboot", true, 8, 0, 0x01⟩,
    ⟨"boot_on_ac_detect", true, 8, 1, 0x01⟩,
    ⟨"recovery_reason", true, 2, 0, 0xff⟩ ]

namespace VbnvParam

/-- The field's bits in its byte, `(uint8_t)(mask << shift)`. -/
def bits (param : VbnvParam) : Byte := BitVec.ofNat 8 (param.mask <<< param.shift)

/-- `flag_value`, `(uint8_t)((*value & mask) << shift)`. -/
def flagValue (param : VbnvParam) (value : Byte) : Byte :=
  BitVec.ofNat 8 ((value.toNat &&& param.mask) <<< param.shift)

end VbnvParam

/-! ## The checksum -/

/-- One turn of the inner loop of `crc8`. -/
def crc8Bit (crc : BitVec 32) : BitVec 32 :=
  (if crc &&& 0x8000#32 ≠ 0#32 then crc ^^^ (0x1070#32 <<< 3) else crc) <<< 1

def crc8Byte (crc : BitVec 32) (data : Byte) : BitVec 32 :=
  Nat.repeat crc8Bit 8 (crc ^^^ (data.setWidth 32 <<< 8))

/-- `crc8`. -/
def crc8 (data : Bytes) : Byte := ((data.foldl crc8Byte 0#32) >>> 8).setWidth 8

/-! ## Reading and writing a parameter -/

/-- `can_overwrite`: no bit of the flash has to be set. -/
def canOverwrite (current new : Byte) : Bool := current &&& new == new

/-- An empty record, all ones. -/
def emptyBlock : Bytes := List.replicate vbNvdataSize 0xff#8

/-- The loop that looks for the last used block, with `n` blocks to go: the offsets
`block` and `curr` in the section when it ends. -/
def findLastUsed (nvram : Bytes) : Nat → Nat → Nat → Nat × Nat
  | 0, block, curr => (block, curr)
  | n + 1, block, curr =>
      if slice nvram curr vbNvdataSize = emptyBlock then (block, curr)
      else findLastUsed nvram n curr (curr + vbNvdataSize)

/-- The changed copy of a record: the field's bits replaced and the checksum redone. -/
def changeRecord (param : VbnvParam) (value : Byte) (record : Bytes) : Bytes :=
  let old := record.getD param.offset 0#8
  let changed := record.set param.offset
    ((old &&& ~~~param.bits) ||| (param.flagValue value &&& param.bits))
  changed.set vbCrcOffset (crc8 (changed.take vbCrcOffset))

/-- The field of a record. -/
def fieldOf (param : VbnvParam) (record : Bytes) : Byte :=
  (record.getD param.offset 0#8 &&& param.bits) >>> param.shift

variable {σ : Type}

/-- The section as `vbnv_readwrite` accepts it: at least one block, and whole
blocks. -/
def readNvram (spi : FlashDevice σ) : Option Section × FlashDevice σ :=
  match fmapReadSection spi (some (cstr "RW_NVRAM")) with
  | (none, spi) => (none, spi)
  | (some nvram, spi) =>
      if nvram.size < vbNvdataSize ∨ nvram.size % vbNvdataSize ≠ 0 then (none, spi)
      else (some nvram, spi)

/-- The writing half of `vbnv_readwrite`. -/
def writeRecord (spi : FlashDevice σ) (nvram : Section) (param : VbnvParam)
    (value : Byte) : Option (Int × FlashDevice σ) := do
  let (block, curr) := findLastUsed nvram.data (nvram.size / vbNvdataSize) 0 0
  let record := slice nvram.data block vbNvdataSize
  let new := changeRecord param value record
  if (List.zipWith canOverwrite record new).all id then
    -- the block can be overwritten in place
    finish (← flashWrite spi (nvram.offset + block) new)
  else if curr ≠ nvram.size then
    finish (← flashWrite spi (nvram.offset + curr) new)
  else
    let (res, spi) ← flashErase spi nvram.offset nvram.size
    if res ≠ 0 then some (-eio, spi)
    else finish (← flashWrite spi nvram.offset new)
where
  /-- a failed write is reported as `-EIO` -/
  finish (result : Int × FlashDevice σ) : Option (Int × FlashDevice σ) :=
    if result.1 ≠ 0 then some (-eio, result.2) else some (0, result.2)

/-- `vbnv_readwrite` with `write` set. -/
def vbnvWrite (spi : FlashDevice σ) (param : VbnvParam) (value : Byte) :
    Option (Int × FlashDevice σ) :=
  if param.offset ≥ vbNvdataSize then some (-eio, spi)
  else
    match readNvram spi with
    | (none, spi) => some (-eio, spi)
    | (some nvram, spi) => writeRecord spi nvram param value

/-- `vbnv_readwrite` without `write`: the value, or the error. -/
def vbnvRead (spi : FlashDevice σ) (param : VbnvParam) :
    Except Int Byte × FlashDevice σ :=
  if param.offset ≥ vbNvdataSize then (.error (-eio), spi)
  else
    match readNvram spi with
    | (none, spi) => (.error (-eio), spi)
    | (some nvram, spi) =>
        let (block, _) := findLastUsed nvram.data (nvram.size / vbNvdataSize) 0 0
        (.ok (fieldOf param (slice nvram.data block vbNvdataSize)), spi)

def findParam (name : String) : Option VbnvParam :=
  paramTable.find? (·.name == name)

/-- `vbnv_set_flag`. -/
def vbnvSetFlag (spi : FlashDevice σ) (name : String) (value : Byte) :
    Option (Int × FlashDevice σ) :=
  match findParam name with
  | none => some (-eio, spi)
  | some param => if param.writable then vbnvWrite spi param value else some (-eio, spi)

/-- `vbnv_get_flag`. -/
def vbnvGetFlag (spi : FlashDevice σ) (name : String) : Except Int Byte × FlashDevice σ :=
  match findParam name with
  | none => (.error (-eio), spi)
  | some param => vbnvRead spi param

end DragonDevice.Recovery
