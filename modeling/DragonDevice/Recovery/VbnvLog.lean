/-
  Recovery/VbnvLog.lean --- the vboot NVRAM as a log of records.

  The used blocks of the section are a prefix of it (`UsedPrefix`) and the last
  of them is the current record.  Whichever of its three places
  `vbnv_readwrite` chooses, the new record goes to block `i` of a section whose
  used blocks end at `i` or just behind it, so one lemma about writing a block
  (`UsedPrefix.splice`) serves all three.  A record with its checksum is never
  all ones, so it never looks free.
-/
import Mathlib.Data.List.Induction
import DragonDevice.Recovery.Vbnv
import DragonDevice.Recovery.NorFlash

set_option autoImplicit false

namespace DragonDevice.Recovery

open DragonDevice.Lib

/-! ## The parameter table -/

/-- The mask of a parameter as the byte it is applied to. -/
def VbnvParam.maskByte (param : VbnvParam) : Byte := BitVec.ofNat 8 param.mask

/-- A parameter lies before the checksum, and its field inside its byte. -/
def VbnvParam.Fits (param : VbnvParam) : Prop :=
  param.offset < vbCrcOffset ∧ (param.maskByte <<< param.shift) >>> param.shift = param.maskByte

instance (param : VbnvParam) : Decidable param.Fits := by
  unfold VbnvParam.Fits
  infer_instance

theorem fits_of_mem_paramTable : ∀ param ∈ paramTable, param.Fits := by decide

theorem paramTable_bits_disjoint : ∀ param ∈ paramTable, ∀ other ∈ paramTable,
    param ≠ other → param.offset = other.offset → param.bits &&& other.bits = 0#8 := by
  decide +kernel

theorem findParam_name : ∀ param ∈ paramTable, findParam param.name = some param := by
  decide +kernel

theorem byte_ofNat_shiftLeft (x k : Nat) :
    BitVec.ofNat 8 (x <<< k) = BitVec.ofNat 8 x <<< k := by
  apply BitVec.eq_of_toNat_eq
  simp [Nat.shiftLeft_eq, Nat.mod_mul_mod]

theorem VbnvParam.bits_eq (param : VbnvParam) :
    param.bits = param.maskByte <<< param.shift :=
  byte_ofNat_shiftLeft param.mask param.shift

theorem VbnvParam.flagValue_eq (param : VbnvParam) (value : Byte) :
    param.flagValue value = (value &&& param.maskByte) <<< param.shift := by
  rw [flagValue, maskByte, byte_ofNat_shiftLeft, BitVec.ofNat_and, BitVec.ofNat_toNat,
    BitVec.setWidth_eq]

/-- The changed byte shows the masked value in the field that was set. -/
theorem VbnvParam.field_changed {param : VbnvParam} (hfits : param.Fits) (old value : Byte) :
    (((old &&& ~~~param.bits) ||| (param.flagValue value &&& param.bits)) &&& param.bits)
      >>> param.shift = value &&& param.maskByte := by
  have hfield : ((old &&& ~~~param.bits) ||| (param.flagValue value &&& param.bits))
      &&& param.bits = (value &&& param.maskByte) <<< param.shift := by
    rw [flagValue_eq, bits_eq]
    ext i hi
    simp only [BitVec.getElem_and, BitVec.getElem_or, BitVec.getElem_not,
      BitVec.getElem_shiftLeft]
    cases param.maskByte[i - param.shift] <;> cases decide (i < param.shift) <;> simp
  have hback : ((value &&& param.maskByte) <<< param.shift) >>> param.shift =
      value &&& param.maskByte := by
    apply BitVec.eq_of_getLsbD_eq
    intro i hi
    have hbit := congrArg (·.getLsbD i) hfits.2
    simp only [BitVec.getLsbD_ushiftRight, BitVec.getLsbD_shiftLeft, BitVec.getLsbD_and,
      Nat.add_sub_cancel_left] at hbit ⊢
    cases hm : param.maskByte.getLsbD i
    · simp
    · rw [hm] at hbit
      have hlt : param.shift + i < 8 := by simpa using hbit
      simp [hlt]
  rw [hfield, hback]

/-- A field that shares no bit with the one that was set keeps its value. -/
theorem VbnvParam.field_unchanged {param other : VbnvParam}
    (hdisj : param.bits &&& other.bits = 0#8) (old value : Byte) :
    ((old &&& ~~~param.bits) ||| (param.flagValue value &&& param.bits)) &&& other.bits =
      old &&& other.bits := by
  ext i hi
  have hbit : (param.bits[i] && other.bits[i]) = false := by
    rw [← BitVec.getElem_and, hdisj, BitVec.getElem_zero]
  simp only [BitVec.getElem_and, BitVec.getElem_or, BitVec.getElem_not]
  cases hp : param.bits[i] <;> cases ho : other.bits[i] <;> simp_all

/-! ## Changing a record -/

/-- The last byte of a record is the checksum of the others. -/
def CrcOk (record : Bytes) : Prop :=
  record[vbCrcOffset]? = some (crc8 (record.take vbCrcOffset))

theorem length_changeRecord (param : VbnvParam) (value : Byte) (record : Bytes) :
    (changeRecord param value record).length = record.length := by
  simp only [changeRecord, List.length_set]

theorem crcOk_changeRecord {param : VbnvParam} {value : Byte} {record : Bytes}
    (hlen : record.length = vbNvdataSize) : CrcOk (changeRecord param value record) := by
  have hlt : vbCrcOffset < record.length := by
    rw [hlen]
    decide
  rw [CrcOk, changeRecord, List.getElem?_set_self (by simpa using hlt),
    List.take_set_of_le (Nat.le_refl _)]

/-- All ones are no valid record: their checksum is `0x03`. -/
theorem not_crcOk_emptyBlock : ¬ CrcOk emptyBlock := by
  unfold CrcOk
  decide +kernel

theorem CrcOk.ne_emptyBlock {record : Bytes} (h : CrcOk record) : record ≠ emptyBlock := by
  intro heq
  rw [heq] at h
  exact not_crcOk_emptyBlock h

/-- The bytes before the checksum, after the change. -/
theorem getD_changeRecord {param : VbnvParam} {value : Byte} {record : Bytes} {i : Nat}
    (hlen : record.length = vbNvdataSize) (hi : i < vbCrcOffset) :
    (changeRecord param value record).getD i 0#8 =
      if param.offset = i then
        (record.getD i 0#8 &&& ~~~param.bits) ||| (param.flagValue value &&& param.bits)
      else record.getD i 0#8 := by
  have hcrc : vbCrcOffset ≠ i := Nat.ne_of_gt hi
  have hrec : i < record.length := by
    rw [hlen]
    exact Nat.lt_trans hi (by decide)
  simp only [changeRecord, List.getD_eq_getElem?_getD, List.getElem?_set_ne hcrc]
  by_cases heq : param.offset = i
  · rw [if_pos heq, heq, List.getElem?_set_self hrec, Option.getD_some]
  · rw [if_neg heq, List.getElem?_set_ne heq]

theorem fieldOf_changeRecord_self {param : VbnvParam} {record : Bytes} (hfits : param.Fits)
    (hlen : record.length = vbNvdataSize) (value : Byte) :
    fieldOf param (changeRecord param value record) = value &&& param.maskByte := by
  rw [fieldOf, getD_changeRecord hlen hfits.1, if_pos rfl]
  exact VbnvParam.field_changed hfits _ value

theorem fieldOf_changeRecord_other {param other : VbnvParam} {record : Bytes}
    (hparam : param ∈ paramTable) (hother : other ∈ paramTable) (hne : other ≠ param)
    (hlen : record.length = vbNvdataSize) (value : Byte) :
    fieldOf other (changeRecord param value record) = fieldOf other record := by
  have hfits := fits_of_mem_paramTable other hother
  rw [fieldOf, getD_changeRecord hlen hfits.1]
  by_cases hoff : param.offset = other.offset
  · have hdisj := paramTable_bits_disjoint param hparam other hother hne.symm hoff
    rw [if_pos hoff, VbnvParam.field_unchanged hdisj, fieldOf]
  · rw [if_neg hoff, fieldOf]

/-! ## The log -/

/-- Block `i` of the section. -/
def blockAt (nvram : Bytes) (i : Nat) : Bytes := slice nvram (vbNvdataSize * i) vbNvdataSize

/-- The first `used` of `n` blocks are in use and the others are free. -/
structure UsedPrefix (nvram : Bytes) (n used : Nat) : Prop where
  le : used ≤ n
  inUse : ∀ i, i < used → blockAt nvram i ≠ emptyBlock
  free : ∀ i, used ≤ i → i < n → blockAt nvram i = emptyBlock

/-- The record that is read: the last block in use, or the first one. -/
def currentRecord (nvram : Bytes) (used : Nat) : Bytes := blockAt nvram (used - 1)

variable {nvram : Bytes} {n used : Nat}

theorem findLastUsed_from (h : UsedPrefix nvram n used) :
    ∀ m i, i + m = n → i ≤ used →
      findLastUsed nvram m (vbNvdataSize * (i - 1)) (vbNvdataSize * i) =
        (vbNvdataSize * (used - 1), vbNvdataSize * used) := by
  intro m
  induction m with
  | zero =>
      intro i hi hle
      have hused : used = i := Nat.le_antisymm (by have := h.le; omega) hle
      rw [findLastUsed, hused]
  | succ m ih =>
      intro i hi hle
      rw [findLastUsed, ← blockAt]
      by_cases hlt : i < used
      · rw [if_neg (h.inUse i hlt)]
        exact ih (i + 1) (by omega) hlt
      · have hused : used = i := by omega
        rw [if_pos (h.free i (by omega) (by omega)), hused]

/-- The scan ends at the current record and behind it. -/
theorem findLastUsed_eq (h : UsedPrefix nvram n used) :
    findLastUsed nvram n 0 0 = (vbNvdataSize * (used - 1), vbNvdataSize * used) :=
  findLastUsed_from h n 0 (Nat.zero_add n) (Nat.zero_le used)

theorem length_blockAt {i : Nat} (hlen : nvram.length = vbNvdataSize * n) (hi : i < n) :
    (blockAt nvram i).length = vbNvdataSize := by
  apply length_slice
  rw [hlen, ← Nat.mul_succ]
  exact Nat.mul_le_mul_left _ hi

theorem blockAt_splice {i j : Nat} {record : Bytes} (hlen : nvram.length = vbNvdataSize * n)
    (hi : i < n) (hrec : record.length = vbNvdataSize) :
    blockAt (splice nvram (vbNvdataSize * i) record) j =
      if j = i then record else blockAt nvram j := by
  have hfit : vbNvdataSize * i + record.length ≤ nvram.length := by
    rw [hlen, hrec, ← Nat.mul_succ]
    exact Nat.mul_le_mul_left _ hi
  by_cases hj : j = i
  · have hself := slice_splice_self hfit
    rw [hrec] at hself
    rw [if_pos hj, hj, blockAt, hself]
  · rw [if_neg hj]
    refine slice_splice_disjoint hfit ?_
    rw [hrec]
    simp only [vbNvdataSize]
    omega

/-- A record written to the last used block or to the first free one ends the used
prefix. -/
theorem UsedPrefix.splice {i : Nat} {record : Bytes} (h : UsedPrefix nvram n used)
    (hlen : nvram.length = vbNvdataSize * n) (hi : i < n) (hlow : i ≤ used)
    (hhigh : used ≤ i + 1) (hrec : record.length = vbNvdataSize) (hne : record ≠ emptyBlock) :
    UsedPrefix (Lib.splice nvram (vbNvdataSize * i) record) n (i + 1) := by
  refine ⟨hi, ?_, ?_⟩
  · intro j hj
    rw [blockAt_splice hlen hi hrec]
    by_cases hji : j = i
    · rw [if_pos hji]
      exact hne
    · rw [if_neg hji]
      exact h.inUse j (by omega)
  · intro j hij hj
    rw [blockAt_splice hlen hi hrec, if_neg (by omega)]
    exact h.free j (by omega) hj

/-! ## The section in the flash -/

/-- A NOR flash whose operations succeed, with the section the flash map names
`RW_NVRAM`: whole blocks, at least one, aligned for writing a block and for
erasing the section. -/
structure NvramReady (dev : FlashDevice NorFlash) (fmap : Fmap) (area : FmapArea) : Prop where
  ops : dev.ops = NorFlash.ops
  script : dev.privData.script = []
  loaded : (flashGetFmap dev).1 = some fmap
  named : fmap.find? (cstr "RW_NVRAM") = some area
  nonempty : 0 < area.size
  blocks : vbNvdataSize ∣ area.size
  fits : area.offset + area.size ≤ dev.privData.mem.length
  writePos : 0 < dev.writeSize
  writeOffset : dev.writeSize ∣ area.offset
  writeBlock : dev.writeSize ∣ vbNvdataSize
  erasePos : 0 < dev.eraseSize
  eraseOffset : dev.eraseSize ∣ area.offset
  eraseSection : dev.eraseSize ∣ area.size

/-- The content of the section. -/
def nvramOf (dev : FlashDevice NorFlash) (area : FmapArea) : Bytes :=
  slice dev.privData.mem area.offset area.size

/-- The number of blocks of the section. -/
def blockCount (area : FmapArea) : Nat := area.size / vbNvdataSize

variable {dev : FlashDevice NorFlash} {fmap : Fmap} {area : FmapArea}

namespace NvramReady

theorem size_eq (h : NvramReady dev fmap area) :
    area.size = vbNvdataSize * blockCount area :=
  (Nat.mul_div_cancel' h.blocks).symm

theorem blockCount_pos (h : NvramReady dev fmap area) : 0 < blockCount area := by
  have hpos := h.nonempty
  rw [h.size_eq] at hpos
  exact Nat.pos_of_mul_pos_left hpos

theorem length_nvramOf (h : NvramReady dev fmap area) :
    (nvramOf dev area).length = vbNvdataSize * blockCount area := by
  rw [nvramOf, length_slice h.fits, h.size_eq]

/-- Only the memory and the record of writes differ from a ready device. -/
theorem of_mem (h : NvramReady dev fmap area) {mem : Bytes} {writes : List NorWrite}
    (hlen : mem.length = dev.privData.mem.length) {dev' : FlashDevice NorFlash}
    (hdev : dev' = { dev with
      fmap := some fmap, privData := { dev.privData with mem, writes } }) :
    NvramReady dev' fmap area := by
  subst hdev
  exact { h with loaded := rfl, fits := by rw [hlen]; exact h.fits }

theorem flashGetFmap_eq (h : NvramReady dev fmap area) :
    flashGetFmap dev = (some fmap, { dev with fmap := some fmap }) := by
  have hloaded := h.loaded
  obtain ⟨ops, privData, cached, gbb, writeSize, eraseSize⟩ := dev
  cases cached with
  | some cached =>
      cases hloaded
      rfl
  | none => exact Prod.ext hloaded (congrArg (FlashDevice.mk ops privData · gbb _ _) hloaded)

theorem readNvram_eq (h : NvramReady dev fmap area) :
    readNvram dev = (some ⟨nvramOf dev area, area.size, area.offset⟩,
      { dev with fmap := some fmap }) := by
  have hread : flashRead { dev with fmap := some fmap } area.offset area.size =
      .ok (nvramOf dev area) := by
    rw [flashRead, h.ops]
    exact if_pos h.fits
  have hsection : fmapReadSection dev (some (cstr "RW_NVRAM")) =
      (some ⟨nvramOf dev area, area.size, area.offset⟩, { dev with fmap := some fmap }) := by
    simp only [fmapReadSection, h.flashGetFmap_eq, sectionRange, h.named, Option.map_some,
      hread]
  have hsize : ¬ (area.size < vbNvdataSize ∨ area.size % vbNvdataSize ≠ 0) := by
    have hmod := Nat.mod_eq_zero_of_dvd h.blocks
    have hle := Nat.le_of_dvd h.nonempty h.blocks
    omega
  rw [readNvram, hsection]
  exact if_neg hsize

/-- Writing a block: the new content of the section and the recorded write. -/
theorem flashWrite_block (h : NvramReady dev fmap area) (hfmap : dev.fmap = some fmap)
    {i : Nat} {record : Bytes} (hi : i < blockCount area)
    (hrec : record.length = vbNvdataSize)
    (hclear : List.zipWith (· &&& ·) (blockAt (nvramOf dev area) i) record = record) :
    ∃ dev', flashWrite dev (area.offset + vbNvdataSize * i) record = some (0, dev') ∧
      NvramReady dev' fmap area ∧
      nvramOf dev' area = splice (nvramOf dev area) (vbNvdataSize * i) record ∧
      ∃ w, dev'.privData.writes = dev.privData.writes ++ [w] ∧ w.readBack = w.data := by
  have hin : vbNvdataSize * i + record.length ≤ area.size := by
    rw [hrec, h.size_eq, ← Nat.mul_succ]
    exact Nat.mul_le_mul_left _ hi
  have hfits := h.fits
  have hmem : area.offset + vbNvdataSize * i + record.length ≤ dev.privData.mem.length := by
    omega
  have hslice : slice dev.privData.mem (area.offset + vbNvdataSize * i) record.length =
      blockAt (nvramOf dev area) i := by
    rw [blockAt, nvramOf, slice_slice (by omega), hrec]
  have hprogram : dev.privData.program (area.offset + vbNvdataSize * i) record =
      splice dev.privData.mem (area.offset + vbNvdataSize * i) record :=
    NorFlash.program_of_and_eq (by rw [hslice, hclear])
  have halign : badAlignment dev.writeSize (area.offset + vbNvdataSize * i) record.length =
      some false := by
    have hoff : dev.writeSize ∣ area.offset + vbNvdataSize * i :=
      Nat.dvd_add h.writeOffset (Nat.dvd_trans h.writeBlock (Nat.dvd_mul_right _ i))
    rw [badAlignment, if_neg (Nat.ne_of_gt h.writePos), hrec,
      Nat.mod_eq_zero_of_dvd hoff, Nat.mod_eq_zero_of_dvd h.writeBlock]
    rfl
  have hwrite := NorFlash.write_of_nextSucceeds
    (NorFlash.nextSucceeds_of_script_nil h.script) hmem
  rw [hprogram, slice_splice_self hmem, h.script, List.tail_nil, ← h.script] at hwrite
  refine ⟨{ dev with privData := { dev.privData with
      mem := splice dev.privData.mem (area.offset + vbNvdataSize * i) record
      writes := dev.privData.writes ++
        [⟨area.offset + vbNvdataSize * i, record, record⟩] } }, ?_, ?_, ?_, ?_⟩
  · simp only [flashWrite, halign, Option.bind_eq_bind, Option.bind_some, h.ops]
    show some _ = _
    simp only [NorFlash.ops, hwrite]
  · exact h.of_mem (length_splice hmem) (by rw [← hfmap])
  · exact slice_splice_inside hfits hin
  · exact ⟨_, rfl, rfl⟩

/-- Erasing the section frees every block. -/
theorem flashErase_section (h : NvramReady dev fmap area) (hfmap : dev.fmap = some fmap) :
    ∃ dev', flashErase dev area.offset area.size = some (0, dev') ∧
      NvramReady dev' fmap area ∧ dev'.fmap = some fmap ∧
      UsedPrefix (nvramOf dev' area) (blockCount area) 0 ∧
      dev'.privData.writes = dev.privData.writes := by
  have hfits := h.fits
  have halign : badAlignment dev.eraseSize area.offset area.size = some false := by
    rw [badAlignment, if_neg (Nat.ne_of_gt h.erasePos), Nat.mod_eq_zero_of_dvd h.eraseOffset,
      Nat.mod_eq_zero_of_dvd h.eraseSection]
    rfl
  have hfit : area.offset + (List.replicate area.size NorFlash.erased).length ≤
      dev.privData.mem.length := by
    rw [List.length_replicate]
    exact hfits
  have hself := slice_splice_self hfit
  rw [List.length_replicate] at hself
  have herase := NorFlash.erase_of_nextSucceeds
    (NorFlash.nextSucceeds_of_script_nil h.script) hfits
  rw [h.script, List.tail_nil, ← h.script] at herase
  refine ⟨{ dev with privData := { dev.privData with
      mem := splice dev.privData.mem area.offset
        (List.replicate area.size NorFlash.erased) } }, ?_, ?_, hfmap, ?_, rfl⟩
  · simp only [flashErase, halign, Option.bind_eq_bind, Option.bind_some, h.ops]
    show some _ = _
    simp only [NorFlash.ops, herase]
  · exact h.of_mem (length_splice hfit) (by rw [← hfmap])
  · refine ⟨Nat.zero_le _, fun i hi => absurd hi (Nat.not_lt_zero i), fun i _ hi => ?_⟩
    have hin : vbNvdataSize * i + vbNvdataSize ≤ area.size := by
      rw [h.size_eq, ← Nat.mul_succ]
      exact Nat.mul_le_mul_left _ hi
    rw [blockAt, nvramOf, hself]
    simp only [slice, List.drop_replicate, List.take_replicate, emptyBlock, NorFlash.erased]
    congr 1
    omega

end NvramReady

/-! ## One call -/

theorem zipWith_and_of_canOverwrite : ∀ {record new : Bytes}, record.length = new.length →
    (List.zipWith canOverwrite record new).all id = true →
    List.zipWith (· &&& ·) record new = new
  | [], [], _, _ => rfl
  | b :: record, c :: new, hlen, hall => by
      simp only [List.zipWith_cons_cons, List.all_cons, Bool.and_eq_true, id_eq] at hall
      have hhead : b &&& c = c := by simpa [canOverwrite] using hall.1
      rw [List.zipWith_cons_cons, hhead,
        zipWith_and_of_canOverwrite (Nat.succ.inj hlen) hall.2]

/-- The device after a record was written: `record` is current, and the one write
that took place is read back as it was written. -/
structure RecordWritten (before after : FlashDevice NorFlash) (fmap : Fmap) (area : FmapArea)
    (record : Bytes) : Prop where
  ready : NvramReady after fmap area
  current : ∃ used, 0 < used ∧ UsedPrefix (nvramOf after area) (blockCount area) used ∧
    currentRecord (nvramOf after area) used = record
  write : ∃ w, after.privData.writes = before.privData.writes ++ [w] ∧ w.readBack = w.data

/-- A record written over the last used block or to the first free one. -/
theorem recordWritten_of_block (h : NvramReady dev fmap area) (hfmap : dev.fmap = some fmap)
    (hlog : UsedPrefix (nvramOf dev area) (blockCount area) used) {i : Nat} {record : Bytes}
    (hi : i < blockCount area) (hlow : i ≤ used) (hhigh : used ≤ i + 1)
    (hrec : record.length = vbNvdataSize) (hne : record ≠ emptyBlock)
    (hclear : List.zipWith (· &&& ·) (blockAt (nvramOf dev area) i) record = record) :
    ∃ dev', flashWrite dev (area.offset + vbNvdataSize * i) record = some (0, dev') ∧
      RecordWritten dev dev' fmap area record := by
  obtain ⟨dev', hwrite, hready, hnvram, hw⟩ := h.flashWrite_block hfmap hi hrec hclear
  refine ⟨dev', hwrite, hready, ⟨i + 1, Nat.succ_pos i, ?_, ?_⟩, hw⟩
  · rw [hnvram]
    exact hlog.splice h.length_nvramOf hi hlow hhigh hrec hne
  · rw [hnvram, currentRecord, Nat.add_sub_cancel, blockAt_splice h.length_nvramOf hi hrec,
      if_pos rfl]

theorem zipWith_and_emptyBlock {record : Bytes} (hrec : record.length = vbNvdataSize) :
    List.zipWith (· &&& ·) emptyBlock record = record := by
  rw [emptyBlock, ← hrec]
  exact NorFlash.zipWith_and_replicate_erased record

/-- The writing half of `vbnv_readwrite`, in all its three places. -/
theorem writeRecord_spec (h : NvramReady dev fmap area) (hfmap : dev.fmap = some fmap)
    (hlog : UsedPrefix (nvramOf dev area) (blockCount area) used) (param : VbnvParam)
    (value : Byte) :
    ∃ dev', writeRecord dev ⟨nvramOf dev area, area.size, area.offset⟩ param value =
        some (0, dev') ∧
      RecordWritten dev dev' fmap area
        (changeRecord param value (currentRecord (nvramOf dev area) used)) := by
  have hpos := h.blockCount_pos
  have hle := hlog.le
  have hcur : (currentRecord (nvramOf dev area) used).length = vbNvdataSize :=
    length_blockAt h.length_nvramOf (by omega)
  generalize hnew : changeRecord param value (currentRecord (nvramOf dev area) used) = new
  have hlen : new.length = vbNvdataSize := by rw [← hnew, length_changeRecord, hcur]
  have hne : new ≠ emptyBlock := by
    rw [← hnew]
    exact (crcOk_changeRecord hcur).ne_emptyBlock
  rw [writeRecord]
  simp only [show area.size / vbNvdataSize = blockCount area from rfl, findLastUsed_eq hlog]
  rw [← blockAt, ← currentRecord, hnew]
  by_cases hover : (List.zipWith canOverwrite (currentRecord (nvramOf dev area) used) new).all id
  · -- in place: the used prefix already ends behind the block, or it is empty
    obtain ⟨dev', hwrite, hdone⟩ := recordWritten_of_block h hfmap hlog
      (i := used - 1) (by omega) (by omega) (by omega) hlen hne
      (zipWith_and_of_canOverwrite (hcur.trans hlen.symm) hover)
    refine ⟨dev', ?_, hdone⟩
    rw [if_pos hover, hwrite]
    rfl
  · rw [if_neg hover]
    by_cases hfull : vbNvdataSize * used ≠ area.size
    · -- behind the last used block
      have hlt : used < blockCount area := by
        rw [h.size_eq] at hfull
        exact Nat.lt_of_le_of_ne hle fun heq => hfull (by rw [heq])
      obtain ⟨dev', hwrite, hdone⟩ := recordWritten_of_block h hfmap hlog
        hlt (Nat.le_refl _) (Nat.le_succ _) hlen hne
        (by rw [hlog.free used (Nat.le_refl _) hlt, zipWith_and_emptyBlock hlen])
      refine ⟨dev', ?_, hdone⟩
      rw [if_pos hfull, hwrite]
      rfl
    · -- the section is full: start over
      obtain ⟨dev₁, herase, hready₁, hfmap₁, hlog₁, hwrites₁⟩ := h.flashErase_section hfmap
      obtain ⟨dev', hwrite, hdone⟩ := recordWritten_of_block hready₁ hfmap₁ hlog₁
        hpos (Nat.le_refl _) (Nat.zero_le _) hlen hne
        (by rw [hlog₁.free 0 (Nat.le_refl _) hpos, zipWith_and_emptyBlock hlen])
      rw [Nat.mul_zero, Nat.add_zero] at hwrite
      refine ⟨dev', ?_, hdone.ready, hdone.current, ?_⟩
      · rw [if_neg hfull, herase]
        simp only [Option.bind_eq_bind, Option.bind_some, ne_eq, not_true_eq_false, if_false,
          hwrite]
        rfl
      · rw [← hwrites₁]
        exact hdone.write

/-- `vbnv_set_flag` of a writable parameter changes the current record, whichever
call this is. -/
theorem vbnvSetFlag_spec (h : NvramReady dev fmap area)
    (hlog : UsedPrefix (nvramOf dev area) (blockCount area) used) {param : VbnvParam}
    (hparam : param ∈ paramTable) (hwritable : param.writable = true) (value : Byte) :
    ∃ dev', vbnvSetFlag dev param.name value = some (0, dev') ∧
      RecordWritten dev dev' fmap area
        (changeRecord param value (currentRecord (nvramOf dev area) used)) := by
  have hoff : ¬ param.offset ≥ vbNvdataSize := by
    have := (fits_of_mem_paramTable param hparam).1
    simp only [vbCrcOffset, vbNvdataSize] at *
    omega
  have hready : NvramReady { dev with fmap := some fmap } fmap area :=
    h.of_mem (rfl : dev.privData.mem.length = _) rfl
  obtain ⟨dev', hwrite, hdone⟩ := writeRecord_spec hready rfl hlog param value
  rw [vbnvSetFlag, findParam_name param hparam]
  simp only [hwritable, if_true, vbnvWrite, hoff, if_false, h.readNvram_eq]
  exact ⟨dev', hwrite, hdone.ready, hdone.current, hdone.write⟩

/-- `vbnv_get_flag` reads the field of the current record. -/
theorem vbnvGetFlag_spec (h : NvramReady dev fmap area)
    (hlog : UsedPrefix (nvramOf dev area) (blockCount area) used) {param : VbnvParam}
    (hparam : param ∈ paramTable) :
    (vbnvGetFlag dev param.name).1 =
      .ok (fieldOf param (currentRecord (nvramOf dev area) used)) := by
  have hoff : ¬ param.offset ≥ vbNvdataSize := by
    have := (fits_of_mem_paramTable param hparam).1
    simp only [vbCrcOffset, vbNvdataSize] at *
    omega
  rw [vbnvGetFlag, findParam_name param hparam]
  simp only [vbnvRead, hoff, if_false, h.readNvram_eq]
  rw [show area.size / vbNvdataSize = blockCount area from rfl, findLastUsed_eq hlog]
  rfl

/-! ## Sequences of calls -/

/-- `vbnv_set_flag` for each parameter and value in turn. -/
def setFlags (dev : FlashDevice NorFlash) :
    List (VbnvParam × Byte) → Option (FlashDevice NorFlash)
  | [] => some dev
  | (param, value) :: calls => do
      let (_, dev) ← vbnvSetFlag dev param.name value
      setFlags dev calls

/-- The value that the last of the calls for `param` sets. -/
def lastSet (param : VbnvParam) (calls : List (VbnvParam × Byte)) : Option Byte :=
  calls.foldl (fun last call => if call.1 = param then some call.2 else last) none

theorem lastSet_concat (param : VbnvParam) (calls : List (VbnvParam × Byte))
    (call : VbnvParam × Byte) :
    lastSet param (calls ++ [call]) =
      if call.1 = param then some call.2 else lastSet param calls := by
  simp only [lastSet, List.foldl_append, List.foldl_cons, List.foldl_nil]

theorem setFlags_concat (param : VbnvParam) (value : Byte) :
    ∀ (calls : List (VbnvParam × Byte)) (dev before after : FlashDevice NorFlash),
      setFlags dev calls = some before →
      vbnvSetFlag before param.name value = some (0, after) →
      setFlags dev (calls ++ [(param, value)]) = some after := by
  intro calls
  induction calls with
  | nil =>
      intro dev before after hcalls hcall
      cases hcalls
      rw [List.nil_append, setFlags, hcall]
      rfl
  | cons call calls ih =>
      intro dev before after hcalls hcall
      rw [setFlags, Option.bind_eq_bind, Option.bind_eq_some_iff] at hcalls
      obtain ⟨⟨res, dev₁⟩, hfirst, hrest⟩ := hcalls
      rw [List.cons_append, setFlags, hfirst]
      exact ih dev₁ before after hrest hcall

/-- What `vbnv_get_flag` has to return: the last value set, masked, or what it
returned at first. -/
def expectedFlag (dev : FlashDevice NorFlash) (calls : List (VbnvParam × Byte))
    (param : VbnvParam) : Except Int Byte :=
  match lastSet param calls with
  | some value => .ok (value &&& param.maskByte)
  | none => (vbnvGetFlag dev param.name).1

/-- The state of the log after one more call. -/
structure FlagSet (dev before after : FlashDevice NorFlash) (area : FmapArea)
    (calls : List (VbnvParam × Byte)) (param : VbnvParam) (value : Byte) : Prop where
  /-- the used blocks are a non-empty prefix and the last one has its checksum -/
  log : ∃ used, 0 < used ∧ UsedPrefix (nvramOf after area) (blockCount area) used ∧
    CrcOk (currentRecord (nvramOf after area) used)
  /-- every parameter has the last value set for it -/
  get : ∀ p ∈ paramTable,
    (vbnvGetFlag after p.name).1 = expectedFlag dev (calls ++ [(param, value)]) p
  /-- no other parameter is touched -/
  frame : ∀ p ∈ paramTable, p ≠ param →
    (vbnvGetFlag after p.name).1 = (vbnvGetFlag before p.name).1
  /-- the call writes once, and what it writes is what is read back -/
  write : ∃ w, after.privData.writes = before.privData.writes ++ [w] ∧ w.readBack = w.data

variable {calls : List (VbnvParam × Byte)}

/-- One call after any calls that left the log in order. -/
theorem flagSet_step {before : FlashDevice NorFlash} (h : NvramReady before fmap area)
    (hlog : UsedPrefix (nvramOf before area) (blockCount area) used)
    (hget : ∀ p ∈ paramTable, (vbnvGetFlag before p.name).1 = expectedFlag dev calls p)
    {param : VbnvParam} (hparam : param ∈ paramTable) (hwritable : param.writable = true)
    (value : Byte) :
    ∃ after, vbnvSetFlag before param.name value = some (0, after) ∧
      NvramReady after fmap area ∧ FlagSet dev before after area calls param value := by
  obtain ⟨after, hset, hready, ⟨used', hpos, hlog', hcur⟩, hwrite⟩ :=
    vbnvSetFlag_spec h hlog hparam hwritable value
  have hlen : (currentRecord (nvramOf before area) used).length = vbNvdataSize :=
    length_blockAt h.length_nvramOf (by have := hlog.le; have := h.blockCount_pos; omega)
  have hframe : ∀ p ∈ paramTable, p ≠ param →
      (vbnvGetFlag after p.name).1 = (vbnvGetFlag before p.name).1 := by
    intro p hp hne
    rw [vbnvGetFlag_spec hready hlog' hp, vbnvGetFlag_spec h hlog hp, hcur,
      fieldOf_changeRecord_other hparam hp hne hlen]
  refine ⟨after, hset, hready, ⟨used', hpos, hlog', ?_⟩, ?_, hframe, hwrite⟩
  · rw [hcur]
    exact crcOk_changeRecord hlen
  · intro p hp
    rw [expectedFlag, lastSet_concat]
    by_cases heq : param = p
    · rw [if_pos heq, ← heq, vbnvGetFlag_spec hready hlog' hparam, hcur,
        fieldOf_changeRecord_self (fits_of_mem_paramTable param hparam) hlen]
    · rw [if_neg heq, hframe p hp (Ne.symm heq)]
      exact hget p hp

/-- Every sequence of calls leaves the log in order. -/
theorem setFlags_log (h : NvramReady dev fmap area)
    (hlog : UsedPrefix (nvramOf dev area) (blockCount area) used)
    (hcalls : ∀ call ∈ calls, call.1 ∈ paramTable ∧ call.1.writable = true) :
    ∃ before used', setFlags dev calls = some before ∧ NvramReady before fmap area ∧
      UsedPrefix (nvramOf before area) (blockCount area) used' ∧
      ∀ p ∈ paramTable, (vbnvGetFlag before p.name).1 = expectedFlag dev calls p := by
  -- the calls are taken from the end, so that the last one is the step
  induction calls using List.reverseRecOn with
  | nil => exact ⟨dev, used, rfl, h, hlog, fun p _ => rfl⟩
  | append_singleton calls call ih =>
      obtain ⟨param, value⟩ := call
      have hlast := hcalls (param, value) (List.mem_append_right _ (List.mem_singleton_self _))
      obtain ⟨before, used₁, hrun, hready, hlog₁, hget⟩ :=
        ih fun call hcall => hcalls call (List.mem_append_left _ hcall)
      obtain ⟨after, hset, hready', hdone⟩ :=
        flagSet_step hready hlog₁ hget hlast.1 hlast.2 value
      obtain ⟨used', _, hlog', _⟩ := hdone.log
      exact ⟨after, used', setFlags_concat param value calls dev before after hrun hset,
        hready', hlog', hdone.get⟩

/-- After any sequence of calls, one more call of `vbnv_set_flag` succeeds and leaves
a log whose current record has its checksum, every parameter with the last value
set for it, and the flash with exactly the bytes that were written. -/
theorem vbnvSetFlag_keeps_log (h : NvramReady dev fmap area)
    (hlog : UsedPrefix (nvramOf dev area) (blockCount area) used)
    (hcalls : ∀ call ∈ calls, call.1 ∈ paramTable ∧ call.1.writable = true)
    {param : VbnvParam} (hparam : param ∈ paramTable) (hwritable : param.writable = true)
    (value : Byte) :
    ∃ before after, setFlags dev calls = some before ∧
      vbnvSetFlag before param.name value = some (0, after) ∧
      FlagSet dev before after area calls param value := by
  obtain ⟨before, used', hrun, hready, hlog', hget⟩ := setFlags_log h hlog hcalls
  obtain ⟨after, hset, _, hdone⟩ := flagSet_step hready hlog' hget hparam hwritable value
  exact ⟨before, after, hrun, hset, hdone⟩

/-- A section of two blocks, at the start of the flash. -/
def smallNvramArea : FmapArea where
  offset := 0
  size := 32
  name := cstr "RW_NVRAM" ++ List.replicate 24 0#8

/-- A flash with that section: a block of zeros in use and a free one. -/
def smallNvramDevice : FlashDevice NorFlash where
  ops := NorFlash.ops
  privData := ⟨List.replicate 16 0#8 ++ List.replicate 16 0xff#8, [], 0, []⟩
  fmap := some ⟨[smallNvramArea]⟩
  gbb := none
  writeSize := 1
  eraseSize := 4

theorem smallNvramDevice_ready : NvramReady smallNvramDevice ⟨[smallNvramArea]⟩ smallNvramArea where
  ops := rfl
  script := rfl
  loaded := rfl
  named := by decide
  nonempty := by decide
  blocks := by decide
  fits := by decide
  writePos := by decide
  writeOffset := by decide
  writeBlock := by decide
  erasePos := by decide
  eraseOffset := by decide
  eraseSection := by decide

theorem smallNvramDevice_usedPrefix :
    UsedPrefix (nvramOf smallNvramDevice smallNvramArea) (blockCount smallNvramArea) 1 where
  le := by decide
  inUse := by decide
  free := by
    intro i hlow hhigh
    have hi : i = 1 := Nat.le_antisymm (Nat.le_of_lt_succ hhigh) hlow
    rw [hi]
    decide

/-- Two calls on the small section. -/
theorem vbnvSetFlag_keeps_log_small :
    ∃ before after,
      setFlags smallNvramDevice [(⟨"try_count", true, 1, 0, 0xf⟩, 3#8)] = some before ∧
      vbnvSetFlag before "fw_try_next" 1#8 = some (0, after) ∧
      FlagSet smallNvramDevice before after smallNvramArea
        [(⟨"try_count", true, 1, 0, 0xf⟩, 3#8)] ⟨"fw_try_next", true, 7, 3, 0x01⟩ 1#8 := by
  have hcalls : ∀ call ∈ [((⟨"try_count", true, 1, 0, 0xf⟩ : VbnvParam), 3#8)],
      call.1 ∈ paramTable ∧ call.1.writable = true := by decide
  have hparam : (⟨"fw_try_next", true, 7, 3, 0x01⟩ : VbnvParam) ∈ paramTable := by decide
  exact vbnvSetFlag_keeps_log smallNvramDevice_ready smallNvramDevice_usedPrefix hcalls
    hparam rfl 1#8

end DragonDevice.Recovery
