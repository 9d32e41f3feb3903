/-
  Recovery/Flash.lean --- `recovery/updater/flash_device.c`, the flash map and the
  Google Binary Block of `vboot_interface.c`.

  A flash device is a table of operations over private data of any type; what a
  backend does is left to the table.  A computation that would trap (the alignment
  checks divide by a block size that a backend may report as zero) or read outside
  an allocated buffer has no result: it is `none`.  `malloc` is taken to succeed.
-/
import Mathlib.Algebra.Group.Nat.Defs
import DragonDevice.Lib.Memory

set_option autoImplicit false

namespace DragonDevice.Recovery

open DragonDevice.Lib

abbrev Byte : Type := BitVec 8

abbrev Bytes : Type := List Byte

/-! ## Error codes -/

def eio : Int := 5

def einval : Int := 22

/-! ## The flash map -/

/-- `struct fmap_area`; the flags of an area are never read. -/
structure FmapArea where
  offset : Nat
  size : Nat
  name : Bytes
  deriving DecidableEq, Repr

/-- `struct fmap`, as far as the lookups read it: `nareas` areas. -/
structure Fmap where
  areas : List FmapArea
  deriving DecidableEq, Repr

/-- `FMAP_SIGNATURE`, the bytes of `__FMAP__`. -/
def fmapSignature : Bytes :=
  [0x5f#8, 0x5f#8, 0x46#8, 0x4d#8, 0x41#8, 0x50#8, 0x5f#8, 0x5f#8]

/-- `FMAP_STRLEN`. -/
def fmapStrlen : Nat := 32

/-- `sizeof(struct fmap)`, a packed structure without its areas. -/
def sizeofFmap : Nat := 56

/-- `sizeof(struct fmap_area)`. -/
def sizeofFmapArea : Nat := 42

/-- The value of a little-endian field. -/
def leNat : Bytes → Nat
  | [] => 0
  | b :: rest => b.toNat + 256 * leNat rest

def parseFmapArea (bytes : Bytes) : FmapArea where
  offset := leNat (slice bytes 0 4)
  size := leNat (slice bytes 4 4)
  name := slice bytes 8 fmapStrlen

/-- `nareas`, the last field of the header. -/
def fmapNareas (bytes : Bytes) : Nat := leNat (slice bytes 54 2)

def parseFmap (bytes : Bytes) : Fmap where
  areas := (List.range (fmapNareas bytes)).map fun i =>
    parseFmapArea (slice bytes (sizeofFmap + sizeofFmapArea * i) sizeofFmapArea)

/-- `!strcmp(name, area.name)` for a name shorter than `FMAP_STRLEN`: the area's
bytes begin with the name and its terminator. -/
def FmapArea.isNamed (name : Bytes) (area : FmapArea) : Bool :=
  (name ++ [0#8]).isPrefixOf area.name

/-- The first area of that name, as the lookup loops find it. -/
def Fmap.find? (fmap : Fmap) (name : Bytes) : Option FmapArea :=
  fmap.areas.find? (·.isNamed name)

/-! ## Devices -/

/-- `struct flash_device_ops`, without opening, closing and raw commands.  A read
that fails gives its error code, and one that succeeds fills the buffer; a write or
an erase gives its result, zero for success, and the private data it leaves
behind. -/
structure FlashDeviceOps (σ : Type) where
  read : σ → Nat → Nat → Except Int Bytes
  read_length : ∀ s off len bytes, read s off len = .ok bytes → bytes.length = len
  write : σ → Nat → Bytes → Int × σ
  erase : σ → Nat → Nat → Int × σ
  getSize : σ → Nat
  getFmapOffset : σ → Nat

/-- `struct flash_device`: the flash map and the GBB are loaded once and kept. -/
structure FlashDevice (σ : Type) where
  ops : FlashDeviceOps σ
  privData : σ
  fmap : Option Fmap
  gbb : Option Bytes
  writeSize : Nat
  eraseSize : Nat

variable {σ : Type}

def flashRead (dev : FlashDevice σ) (off len : Nat) : Except Int Bytes :=
  dev.ops.read dev.privData off len

/-- The alignment check of `flash_write` and `flash_erase`; it traps on a zero
block size. -/
def badAlignment (blockSize off len : Nat) : Option Bool :=
  if blockSize = 0 then none else some (off % blockSize ≠ 0 || len % blockSize ≠ 0)

def flashWrite (dev : FlashDevice σ) (off : Nat) (buff : Bytes) :
    Option (Int × FlashDevice σ) := do
  if ← badAlignment dev.writeSize off buff.length then
    some (-einval, dev)
  else
    let (res, privData) := dev.ops.write dev.privData off buff
    some (res, { dev with privData })

def flashErase (dev : FlashDevice σ) (off len : Nat) :
    Option (Int × FlashDevice σ) := do
  if ← badAlignment dev.eraseSize off len then
    some (-einval, dev)
  else
    let (res, privData) := dev.ops.erase dev.privData off len
    some (res, { dev with privData })

def flashGetSize (dev : FlashDevice σ) : Nat := dev.ops.getSize dev.privData

/-! ## Loading the flash map -/

/-- The body of the scan at the 64-byte boundary `64 * k`, going down: it stops at
a failed read, at the signature, or at zero. -/
def fmapScanFrom (dev : FlashDevice σ) : Nat → Nat
  | 0 => 0
  | k + 1 =>
      match flashRead dev (64 * (k + 1)) fmapSignature.length with
      | .error _ => 64 * (k + 1)
      | .ok h => if h = fmapSignature then 64 * (k + 1) else fmapScanFrom dev k

/-- `fmap_scan_offset`.  The offset is a `uint32_t`, so the first step down from
zero wraps. -/
def fmapScanOffset (dev : FlashDevice σ) (fin : Nat) : Nat :=
  let off := (fin - fin % 64) % 2 ^ 32
  fmapScanFrom dev ((off + 2 ^ 32 - 64) % 2 ^ 32 / 64)

/-- `fmap_load`. -/
def fmapLoad (dev : FlashDevice σ) (offset : Nat) : Option Fmap :=
  match flashRead dev offset sizeofFmap with
  | .error _ => none
  | .ok hdr =>
      if slice hdr 0 fmapSignature.length ≠ fmapSignature then none
      else
        match flashRead dev offset (sizeofFmap + fmapNareas hdr * sizeofFmapArea) with
        | .error _ => none
        | .ok bytes => some (parseFmap bytes)

/-- `flash_get_fmap`. -/
def flashGetFmap (dev : FlashDevice σ) : Option Fmap × FlashDevice σ :=
  match dev.fmap with
  | some fmap => (some fmap, dev)
  | none =>
      let off := fmapScanOffset dev (dev.ops.getFmapOffset dev.privData)
      let fmap := fmapLoad dev off
      (fmap, { dev with fmap })

/-- What `fmap_read_section` hands back: the content, its size and its offset. -/
structure Section where
  data : Bytes
  size : Nat
  offset : Nat
  deriving DecidableEq, Repr

/-- The size and offset of a section, or of the whole flash for `NULL`. -/
def sectionRange (dev : FlashDevice σ) (fmap : Fmap) : Option Bytes → Option (Nat × Nat)
  | none => some (flashGetSize dev, 0)
  | some name => (fmap.find? name).map fun area => (area.size, area.offset)

/-- `fmap_read_section`. -/
def fmapReadSection (dev : FlashDevice σ) (name : Option Bytes) :
    Option Section × FlashDevice σ :=
  match flashGetFmap dev with
  | (none, dev) => (none, dev)
  | (some fmap, dev) =>
      match sectionRange dev fmap name with
      | none => (none, dev)
      | some (size, offset) =>
          match flashRead dev offset size with
          | .error _ => (none, dev)
          | .ok data => (some ⟨data, size, offset⟩, dev)

/-! ## The Google Binary Block -/

/-- The C string of a section name. -/
def cstr (s : String) : Bytes := s.toList.map fun c => BitVec.ofNat 8 c.toNat

/-- `flash_get_gbb`. -/
def flashGetGbb (dev : FlashDevice σ) : Option Bytes × FlashDevice σ :=
  match dev.gbb with
  | some gbb => (some gbb, dev)
  | none =>
      let (sec, dev) := fmapReadSection dev (some (cstr "GBB"))
      let gbb := sec.map (·.data)
      (gbb, { dev with gbb })

/-- Where vboot's `GoogleBinaryBlockHeader` keeps the fields the updater reads.
The header is not part of this repository. -/
structure GbbHeaderLayout where
  sizeof : Nat
  signature : Bytes
  rootkeyOffset : Nat
  rootkeySize : Nat

/-- `gbb_get_rootkey`: the block with the offset and size of the key in it.  The
sum of the two `uint32_t` fields wraps. -/
def gbbGetRootkey (layout : GbbHeaderLayout) (dev : FlashDevice σ) :
    Option (Bytes × Nat × Nat) × FlashDevice σ :=
  match flashGetGbb dev with
  | (none, dev) => (none, dev)
  | (some gbb, dev) =>
      if slice gbb 0 layout.signature.length ≠ layout.signature ∨
          gbb.length < layout.sizeof then (none, dev)
      else
        let off := leNat (slice gbb layout.rootkeyOffset 4)
        let size := leNat (slice gbb layout.rootkeySize 4)
        if (off + size) % 2 ^ 32 > gbb.length then (none, dev)
        else (some (gbb, off, size), dev)

/-! ## What loading changes -/

/-- The same flash with the same map, whatever of it has been loaded yet. -/
structure SameFlash (dev dev' : FlashDevice σ) : Prop where
  ops : dev'.ops = dev.ops
  privData : dev'.privData = dev.privData
  writeSize : dev'.writeSize = dev.writeSize
  eraseSize : dev'.eraseSize = dev.eraseSize
  fmap : (flashGetFmap dev').1 = (flashGetFmap dev).1

theorem SameFlash.refl (dev : FlashDevice σ) : SameFlash dev dev := ⟨rfl, rfl, rfl, rfl, rfl⟩

theorem SameFlash.trans {dev₁ dev₂ dev₃ : FlashDevice σ} (h : SameFlash dev₁ dev₂)
    (h' : SameFlash dev₂ dev₃) : SameFlash dev₁ dev₃ :=
  ⟨h'.ops.trans h.ops, h'.privData.trans h.privData, h'.writeSize.trans h.writeSize,
    h'.eraseSize.trans h.eraseSize, h'.fmap.trans h.fmap⟩

variable {dev dev' : FlashDevice σ}

/-- The device keeps the map it has loaded. -/
theorem flashGetFmap_snd (dev : FlashDevice σ) :
    (flashGetFmap dev).2 = { dev with fmap := (flashGetFmap dev).1 } := by
  obtain ⟨ops, privData, fmap, gbb, writeSize, eraseSize⟩ := dev
  cases fmap with
  | some fmap => rfl
  | none => rfl

theorem fmapScanFrom_congr (hops : dev'.ops = dev.ops) (hpriv : dev'.privData = dev.privData) :
    ∀ k, fmapScanFrom dev' k = fmapScanFrom dev k := by
  intro k
  induction k with
  | zero => rfl
  | succ k ih => rw [fmapScanFrom, fmapScanFrom, flashRead, flashRead, hops, hpriv, ih]

/-- The map is loaded from the content alone. -/
theorem flashGetFmap_congr (hops : dev'.ops = dev.ops) (hpriv : dev'.privData = dev.privData)
    (hfmap : dev'.fmap = dev.fmap) : (flashGetFmap dev').1 = (flashGetFmap dev).1 := by
  rw [flashGetFmap, flashGetFmap, hfmap]
  cases dev.fmap with
  | some fmap => rfl
  | none =>
      have hscan : ∀ fin, fmapScanOffset dev' fin = fmapScanOffset dev fin := by
        intro fin
        rw [fmapScanOffset, fmapScanOffset, fmapScanFrom_congr hops hpriv]
      have hload : ∀ off, fmapLoad dev' off = fmapLoad dev off := by
        intro off
        simp only [fmapLoad, flashRead, hops, hpriv]
      dsimp only
      rw [hscan, hload, hops, hpriv]

/-- A map that could not be loaded is looked for again, in the same place. -/
theorem flashGetFmap_loaded (dev : FlashDevice σ) (gbb : Option Bytes) :
    (flashGetFmap { dev with fmap := (flashGetFmap dev).1, gbb := gbb }).1 =
      (flashGetFmap dev).1 := by
  cases hload : (flashGetFmap dev).1 with
  | some fmap => rfl
  | none =>
      have hnone : dev.fmap = none := by
        cases hdev : dev.fmap with
        | none => rfl
        | some fmap =>
            rw [flashGetFmap, hdev] at hload
            cases hload
      have hagain := @flashGetFmap_congr _ dev
        { dev with fmap := none, gbb := gbb } rfl rfl hnone.symm
      rw [hagain, hload]

theorem fmapReadSection_snd (dev : FlashDevice σ) (name : Option Bytes) :
    (fmapReadSection dev name).2 = { dev with fmap := (flashGetFmap dev).1 } := by
  rw [← flashGetFmap_snd, fmapReadSection]
  obtain ⟨fmap, dev'⟩ := flashGetFmap dev
  cases fmap with
  | none => rfl
  | some fmap =>
      dsimp only
      cases sectionRange dev' fmap name with
      | none => rfl
      | some range =>
          dsimp only
          cases flashRead dev' range.2 range.1 with
          | error _ => rfl
          | ok _ => rfl

/-- A section of a map that is loaded. -/
def readSectionOf (dev : FlashDevice σ) (name : Option Bytes) (fmap : Fmap) : Option Section :=
  match sectionRange dev fmap name with
  | none => none
  | some (size, offset) =>
      match flashRead dev offset size with
      | .error _ => none
      | .ok data => some ⟨data, size, offset⟩

theorem fmapReadSection_fst (dev : FlashDevice σ) (name : Option Bytes) :
    (fmapReadSection dev name).1 = (flashGetFmap dev).1.bind (readSectionOf dev name) := by
  have hsnd := flashGetFmap_snd dev
  rw [fmapReadSection]
  generalize flashGetFmap dev = loaded at hsnd ⊢
  obtain ⟨fmap, dev'⟩ := loaded
  dsimp only at hsnd
  subst hsnd
  cases fmap with
  | none => rfl
  | some fmap =>
      have hrange : sectionRange { dev with fmap := some fmap } fmap name =
          sectionRange dev fmap name := by
        cases name with
        | none => rfl
        | some name => rfl
      dsimp only
      rw [Option.bind_some, readSectionOf, hrange]
      cases sectionRange dev fmap name with
      | none => rfl
      | some range =>
          dsimp only [flashRead]
          cases dev.ops.read dev.privData range.2 range.1 with
          | error _ => rfl
          | ok _ => rfl

theorem area_of_readSectionOf {name : Bytes} {fmap : Fmap} {content : Section}
    (h : readSectionOf dev (some name) fmap = some content) :
    ∃ area, fmap.find? name = some area ∧ content.offset = area.offset ∧
      content.size = area.size ∧ flashRead dev area.offset area.size = .ok content.data := by
  rw [readSectionOf, sectionRange] at h
  cases hfind : fmap.find? name with
  | none =>
      rw [hfind] at h
      cases h
  | some area =>
      rw [hfind] at h
      dsimp only [Option.map_some] at h
      cases hread : flashRead dev area.offset area.size with
      | error _ =>
          rw [hread] at h
          cases h
      | ok data =>
          rw [hread] at h
          cases h
          exact ⟨area, rfl, rfl, rfl, hread⟩

/-- The content of a section does not depend on what has been loaded. -/
theorem SameFlash.fmapReadSection_eq (h : SameFlash dev dev') (name : Option Bytes) :
    (fmapReadSection dev' name).1 = (fmapReadSection dev name).1 := by
  have hread : readSectionOf dev' name = readSectionOf dev name := by
    funext fmap
    cases name with
    | none => simp only [readSectionOf, sectionRange, flashGetSize, flashRead, h.ops, h.privData]
    | some name => simp only [readSectionOf, sectionRange, flashRead, h.ops, h.privData]
  rw [fmapReadSection_fst, fmapReadSection_fst, h.fmap, hread]

theorem sameFlash_fmapReadSection (dev : FlashDevice σ) (name : Option Bytes) :
    SameFlash dev (fmapReadSection dev name).2 := by
  rw [fmapReadSection_snd]
  exact ⟨rfl, rfl, rfl, rfl, flashGetFmap_loaded dev dev.gbb⟩

theorem sameFlash_flashGetGbb (dev : FlashDevice σ) : SameFlash dev (flashGetGbb dev).2 := by
  rw [flashGetGbb]
  cases dev.gbb with
  | some gbb => exact SameFlash.refl dev
  | none =>
      dsimp only
      rw [fmapReadSection_snd]
      exact ⟨rfl, rfl, rfl, rfl, flashGetFmap_loaded dev _⟩

theorem gbbGetRootkey_snd (layout : GbbHeaderLayout) (dev : FlashDevice σ) :
    (gbbGetRootkey layout dev).2 = (flashGetGbb dev).2 := by
  rw [gbbGetRootkey]
  obtain ⟨gbb, dev'⟩ := flashGetGbb dev
  cases gbb with
  | none => rfl
  | some gbb =>
      dsimp only
      split
      · rfl
      · split <;> rfl

theorem sameFlash_gbbGetRootkey (layout : GbbHeaderLayout) (dev : FlashDevice σ) :
    SameFlash dev (gbbGetRootkey layout dev).2 := by
  rw [gbbGetRootkey_snd]
  exact sameFlash_flashGetGbb dev

/-- What a section read hands back has the size it says. -/
theorem length_of_fmapReadSection {name : Option Bytes} {content : Section}
    (h : (fmapReadSection dev name).1 = some content) : content.data.length = content.size := by
  rw [fmapReadSection_fst, Option.bind_eq_some_iff] at h
  obtain ⟨fmap, _, hread⟩ := h
  rw [readSectionOf] at hread
  split at hread
  · cases hread
  · split at hread
    · cases hread
    · rename_i hdata
      cases hread
      exact dev.ops.read_length _ _ _ _ hdata

end DragonDevice.Recovery
