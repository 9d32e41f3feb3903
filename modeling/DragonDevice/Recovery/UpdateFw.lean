/-
  Recovery/UpdateFw.lean --- the firmware update of `recovery/updater/update_fw.cpp`.

  The image and the SPI flash are two devices.  An update checks that their root
  keys agree, copies the partition that is not running from the image, and has the
  next boots try it.
-/
import DragonDevice.Recovery.Vbnv

set_option autoImplicit false

namespace DragonDevice.Recovery

open DragonDevice.Lib

variable {σ τ : Type}

/-- `check_compatible_keys`; a comparison that leaves one of the blocks has no
result. -/
def checkCompatibleKeys (layout : GbbHeaderLayout) (img : FlashDevice τ)
    (spi : FlashDevice σ) : Option (Bool × FlashDevice τ × FlashDevice σ) :=
  let (imgRootkey, img) := gbbGetRootkey layout img
  let (spiRootkey, spi) := gbbGetRootkey layout spi
  match imgRootkey, spiRootkey with
  | some (imgGbb, imgOff, imgSize), some (spiGbb, spiOff, spiSize) =>
      if imgSize ≠ spiSize then some (false, img, spi)
      else if imgGbb.length < imgOff + imgSize ∨ spiGbb.length < spiOff + spiSize then none
      else some (slice imgGbb imgOff imgSize == slice spiGbb spiOff spiSize, img, spi)
  | _, _ => some (false, img, spi)

/-- `update_partition`.  Both failures of the flash end at `out_free`, which returns
zero. -/
def updatePartition (src : FlashDevice τ) (dst : FlashDevice σ) (name : Option Bytes) :
    Option (Int × FlashDevice τ × FlashDevice σ) :=
  match fmapReadSection src name with
  | (none, src) => some (-eio, src, dst)
  | (some content, src) => do
      let (res, dst) ← flashErase dst content.offset content.size
      if res ≠ 0 then some (0, src, dst)
      else
        let (_, dst) ← flashWrite dst content.offset content.data
        some (0, src, dst)

/-- `rw_name`: the partition that is not running, B when it is unknown. -/
def rwName (curPart : Char) : Bytes :=
  cstr (if curPart = 'B' then "RW_SECTION_A" else "RW_SECTION_B")

/-- `try_next`. -/
def tryNext (curPart : Char) : Byte := if curPart = 'B' then 0#8 else 1#8

/-- `update_rw_fw`. -/
def updateRwFw (layout : GbbHeaderLayout) (spi : FlashDevice σ) (img : FlashDevice τ)
    (curPart : Char) : Option (Int × FlashDevice σ) := do
  let (compatible, img, spi) ← checkCompatibleKeys layout img spi
  if compatible then
    let (res, _, spi) ← updatePartition img spi (some (rwName curPart))
    if res = 0 then
      let (_, spi) ← vbnvSetFlag spi "fw_try_next" (tryNext curPart)
      let (_, spi) ← vbnvSetFlag spi "try_count" 6#8
      some (res, spi)
    else some (res, spi)
  else some (-einval, spi)

/-- `update_recovery_fw`: with `wp` set it only updates the writable partitions. -/
def updateRecoveryFw (layout : GbbHeaderLayout) (spi : FlashDevice σ) (img : FlashDevice τ) :
    Option (Int × FlashDevice σ) := do
  let (compatible, img, spi) ← checkCompatibleKeys layout img spi
  if compatible then
    let (ra, img, spi) ← updatePartition img spi (some (cstr "RW_SECTION_A"))
    let (rb, img, spi) ← updatePartition img spi (some (cstr "RW_SECTION_B"))
    let (rs, _, spi) ← updatePartition img spi (some (cstr "RW_SHARED"))
    some (if ra ≠ 0 ∨ rb ≠ 0 ∨ rs ≠ 0 then -eio else 0, spi)
  else some (-einval, spi)

/-- The end of `update_fw`, with the devices open and an update due: recovery or
normal mode, and 1 for a successful update. -/
def updateOpened (layout : GbbHeaderLayout) (spi : FlashDevice σ) (img : FlashDevice τ)
    (curPart : Char) : Option (Int × FlashDevice σ) := do
  let (res, spi) ←
    if curPart = 'R' then updateRecoveryFw layout spi img
    else updateRwFw layout spi img curPart
  some (if res = 0 then 1 else res, spi)

end DragonDevice.Recovery
