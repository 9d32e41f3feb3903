/-
  Recovery/UpdateFwReport.lean --- what a firmware update reports and what it did.

  The SPI flash is a NOR flash whose erases and writes fail in any pattern.
  `update_partition` returns zero also when one of them failed, so `update_rw_fw`
  is honest exactly when the key check or the image stops it before it touches the
  flash, or when the erase and the write of the partition both succeed.  What the
  flag updates write stays inside the NVRAM section (`NvramStep`).
-/
import DragonDevice.Recovery.UpdateFw
import DragonDevice.Recovery.NorFlash

set_option autoImplicit false

namespace DragonDevice.Recovery

open DragonDevice.Lib

variable {τ : Type} {dev dev' : FlashDevice NorFlash}

/-! ## Operations on a NOR device -/

/-- A NOR flash with the block sizes its geometry gives. -/
structure NorDevice (dev : FlashDevice NorFlash) : Prop where
  ops : dev.ops = NorFlash.ops
  writePos : 0 < dev.writeSize
  erasePos : 0 < dev.eraseSize

/-- From `dev` to `dev'` only bytes of the range changed. -/
structure FlashStep (off len : Nat) (dev dev' : FlashDevice NorFlash) : Prop where
  device : dev' = { dev with privData := dev'.privData }
  within : NorFlash.OnlyWithin off len dev.privData dev'.privData

theorem NorDevice.flashWrite_step (h : NorDevice dev) (off : Nat) (data : Bytes) :
    ∃ res dev', flashWrite dev off data = some (res, dev') ∧
      FlashStep off data.length dev dev' := by
  have halign := Nat.ne_of_gt h.writePos
  rw [flashWrite, badAlignment, if_neg halign]
  simp only [Option.bind_eq_bind, Option.bind_some]
  split
  · exact ⟨-einval, dev, rfl, rfl, NorFlash.OnlyWithin.refl _⟩
  · refine ⟨_, _, rfl, rfl, ?_⟩
    rw [h.ops]
    exact NorFlash.onlyWithin_write dev.privData off data

theorem NorDevice.flashErase_step (h : NorDevice dev) (off len : Nat) :
    ∃ res dev', flashErase dev off len = some (res, dev') ∧ FlashStep off len dev dev' := by
  have halign := Nat.ne_of_gt h.erasePos
  rw [flashErase, badAlignment, if_neg halign]
  simp only [Option.bind_eq_bind, Option.bind_some]
  split
  · exact ⟨-einval, dev, rfl, rfl, NorFlash.OnlyWithin.refl _⟩
  · refine ⟨_, _, rfl, rfl, ?_⟩
    rw [h.ops]
    exact NorFlash.onlyWithin_erase dev.privData off len

theorem FlashStep.norDevice {off len : Nat} (h : FlashStep off len dev dev')
    (hnor : NorDevice dev) : NorDevice dev' := by
  rw [h.device]
  exact ⟨hnor.ops, hnor.writePos, hnor.erasePos⟩

/-! ## Setting a flag only touches the NVRAM -/

/-- The range does not meet the section the map calls `RW_NVRAM`. -/
def ApartFromNvram (fmap : Fmap) (off len : Nat) : Prop :=
  ∀ area, fmap.find? (cstr "RW_NVRAM") = some area →
    off + len ≤ area.offset ∨ area.offset + area.size ≤ off

/-- The section `RW_NVRAM` can hold records: it lies in the flash, and whole records fill it. -/
structure NvramUsable (dev : FlashDevice NorFlash) (area : FmapArea) : Prop where
  inside : area.offset + area.size ≤ dev.privData.mem.length
  holds : vbNvdataSize ≤ area.size
  whole : area.size % vbNvdataSize = 0

/-- From `dev` to `dev'` only the NVRAM changed. -/
structure NvramStep (fmap : Fmap) (dev dev' : FlashDevice NorFlash) : Prop where
  device : dev' = { dev with privData := dev'.privData }
  frame : ∀ off len, ApartFromNvram fmap off len →
    slice dev'.privData.mem off len = slice dev.privData.mem off len

theorem NvramStep.refl (fmap : Fmap) (dev : FlashDevice NorFlash) : NvramStep fmap dev dev :=
  ⟨rfl, fun _ _ _ => rfl⟩

theorem NvramStep.norDevice {fmap : Fmap} (h : NvramStep fmap dev dev')
    (hnor : NorDevice dev) : NorDevice dev' := by
  rw [h.device]
  exact ⟨hnor.ops, hnor.writePos, hnor.erasePos⟩

theorem FlashStep.nvramStep {fmap : Fmap} {area : FmapArea} {off len : Nat}
    (h : FlashStep off len dev dev') (hnamed : fmap.find? (cstr "RW_NVRAM") = some area)
    (hlow : area.offset ≤ off) (hhigh : off + len ≤ area.offset + area.size) :
    NvramStep fmap dev dev' := by
  refine ⟨h.device, ?_⟩
  intro off' len' hapart
  have hdisj := hapart area hnamed
  exact h.within.frame off' len' (by omega)

theorem NvramStep.trans {fmap : Fmap} {dev₁ dev₂ dev₃ : FlashDevice NorFlash}
    (h : NvramStep fmap dev₁ dev₂) (h' : NvramStep fmap dev₂ dev₃) :
    NvramStep fmap dev₁ dev₃ := by
  refine ⟨?_, ?_⟩
  · rw [h'.device, h.device]
  · intro off len hapart
    rw [h'.frame off len hapart, h.frame off len hapart]

/-- Whatever the section holds, the scan ends inside it. -/
theorem findLastUsed_inside (nvram : Bytes) :
    ∀ n block curr size, block + vbNvdataSize ≤ size → curr + vbNvdataSize * n = size →
      (findLastUsed nvram n block curr).1 + vbNvdataSize ≤ size ∧
        ((findLastUsed nvram n block curr).2 ≠ size →
          (findLastUsed nvram n block curr).2 + vbNvdataSize ≤ size) := by
  intro n
  induction n with
  | zero =>
      intro block curr size hblock hcurr
      rw [findLastUsed]
      exact ⟨hblock, fun hne => absurd hcurr (by simpa using hne)⟩
  | succ n ih =>
      intro block curr size hblock hcurr
      rw [Nat.mul_succ] at hcurr
      rw [findLastUsed]
      split
      · refine ⟨hblock, fun _ => ?_⟩
        dsimp only
        omega
      · exact ih curr (curr + vbNvdataSize) size (by omega) (by omega)

/-- The section that is read when the map is loaded. -/
theorem readNvram_cases {fmap : Fmap} (hfmap : dev.fmap = some fmap) :
    readNvram dev = (none, dev) ∨
      ∃ nvram area, readNvram dev = (some nvram, dev) ∧
        fmap.find? (cstr "RW_NVRAM") = some area ∧ nvram.offset = area.offset ∧
        nvram.size = area.size ∧ nvram.data.length = nvram.size ∧
        vbNvdataSize ≤ nvram.size ∧ nvram.size % vbNvdataSize = 0 := by
  have hload : flashGetFmap dev = (some fmap, dev) := by rw [flashGetFmap, hfmap]
  have hsnd : (fmapReadSection dev (some (cstr "RW_NVRAM"))).2 = dev := by
    rw [fmapReadSection_snd, hload, ← hfmap]
  cases hsection : fmapReadSection dev (some (cstr "RW_NVRAM")) with
  | mk found dev₁ =>
      rw [hsection] at hsnd
      dsimp only at hsnd
      subst hsnd
      cases found with
      | none =>
          left
          rw [readNvram, hsection]
      | some nvram =>
          rw [readNvram, hsection]
          dsimp only
          split
          · exact Or.inl rfl
          · rename_i hsize
            right
            have hfst := fmapReadSection_fst dev₁ (some (cstr "RW_NVRAM"))
            have hlen := length_of_fmapReadSection (congrArg Prod.fst hsection)
            rw [hsection, hload] at hfst
            obtain ⟨area, hnamed, hoff, hsz, _⟩ := area_of_readSectionOf hfst.symm
            exact ⟨nvram, area, rfl, hnamed, hoff, hsz, hlen, by omega, by omega⟩

/-- Wherever the record goes, it goes into the section. -/
theorem writeRecord_step {fmap : Fmap} {area : FmapArea} {nvram : Section} (h : NorDevice dev)
    (hnamed : fmap.find? (cstr "RW_NVRAM") = some area) (hoff : nvram.offset = area.offset)
    (hsize : nvram.size = area.size) (hlen : nvram.data.length = nvram.size)
    (hge : vbNvdataSize ≤ nvram.size) (hmod : nvram.size % vbNvdataSize = 0)
    (param : VbnvParam) (value : Byte) :
    ∃ res dev', writeRecord dev nvram param value = some (res, dev') ∧
      NvramStep fmap dev dev' := by
  have hblocks : 0 + vbNvdataSize * (nvram.size / vbNvdataSize) = nvram.size := by
    rw [Nat.zero_add, Nat.mul_div_cancel' (Nat.dvd_of_mod_eq_zero hmod)]
  have hinside := findLastUsed_inside nvram.data (nvram.size / vbNvdataSize) 0 0 nvram.size
    (by omega) hblocks
  rw [writeRecord]
  generalize findLastUsed nvram.data (nvram.size / vbNvdataSize) 0 0 = ends at hinside ⊢
  obtain ⟨block, curr⟩ := ends
  dsimp only at hinside ⊢
  have hrecord : (slice nvram.data block vbNvdataSize).length = vbNvdataSize :=
    length_slice (by omega)
  generalize hnew : changeRecord param value (slice nvram.data block vbNvdataSize) = new
  have hnewlen : new.length = vbNvdataSize := by
    rw [← hnew]
    simp only [changeRecord, List.length_set, hrecord]
  -- a record written to `off` in the section, whatever the write returns
  have hwrite : ∀ (dev₁ : FlashDevice NorFlash) (off : Nat), NorDevice dev₁ →
      off + vbNvdataSize ≤ nvram.size → NvramStep fmap dev dev₁ →
      ∃ res dev', ((flashWrite dev₁ (nvram.offset + off) new).bind writeRecord.finish) =
        some (res, dev') ∧ NvramStep fmap dev dev' := by
    intro dev₁ off hnor hfits hstep
    obtain ⟨res, dev', hres, hflash⟩ := hnor.flashWrite_step (nvram.offset + off) new
    have hnext : NvramStep fmap dev₁ dev' := hflash.nvramStep hnamed (by omega) (by omega)
    rw [hres, Option.bind_some, writeRecord.finish]
    split
    · exact ⟨-eio, dev', rfl, hstep.trans hnext⟩
    · exact ⟨0, dev', rfl, hstep.trans hnext⟩
  split
  · exact hwrite dev block h hinside.1 (NvramStep.refl fmap dev)
  · split
    · rename_i hcurr
      exact hwrite dev curr h (hinside.2 hcurr) (NvramStep.refl fmap dev)
    · obtain ⟨res, dev₁, herase, hflash⟩ := h.flashErase_step nvram.offset nvram.size
      have hstep : NvramStep fmap dev dev₁ := hflash.nvramStep hnamed (by omega) (by omega)
      rw [herase]
      simp only [Option.bind_eq_bind, Option.bind_some]
      split
      · exact ⟨-eio, dev₁, rfl, hstep⟩
      · exact hwrite dev₁ 0 (hstep.norDevice h) (by omega) hstep

/-- `vbnv_set_flag` ends, and changes nothing but the NVRAM, whatever fails. -/
theorem vbnvSetFlag_step {fmap : Fmap} (h : NorDevice dev) (hfmap : dev.fmap = some fmap)
    (name : String) (value : Byte) :
    ∃ res dev', vbnvSetFlag dev name value = some (res, dev') ∧ NvramStep fmap dev dev' := by
  rw [vbnvSetFlag]
  cases findParam name with
  | none => exact ⟨-eio, dev, rfl, NvramStep.refl fmap dev⟩
  | some param =>
      dsimp only
      split
      · rw [vbnvWrite]
        split
        · exact ⟨-eio, dev, rfl, NvramStep.refl fmap dev⟩
        · cases readNvram_cases hfmap with
          | inl hnone =>
              rw [hnone]
              exact ⟨-eio, dev, rfl, NvramStep.refl fmap dev⟩
          | inr hsome =>
              obtain ⟨nvram, area, hread, hnamed, hoff, hsize, hlen, hge, hmod⟩ := hsome
              rw [hread]
              exact writeRecord_step h hnamed hoff hsize hlen hge hmod param value
      · exact ⟨-eio, dev, rfl, NvramStep.refl fmap dev⟩

/-- Without room for records no flag is set. -/
theorem vbnvSetFlag_unusable {fmap : Fmap} {area : FmapArea} (h : NorDevice dev)
    (hfmap : dev.fmap = some fmap) (hnamed : fmap.find? (cstr "RW_NVRAM") = some area)
    (hnot : ¬ NvramUsable dev area) {name : String} {value : Byte} {res : Int}
    (hrun : vbnvSetFlag dev name value = some (res, dev')) : dev' = dev := by
  have hnone : readNvram dev = (none, dev) := by
    rcases readNvram_cases hfmap with hnone | ⟨nvram, area', hread, hnamed', -, hsize, -, hge, hmod⟩
    · exact hnone
    · rw [hnamed] at hnamed'
      cases hnamed'
      rw [hsize] at hge hmod
      refine absurd ⟨?_, hge, hmod⟩ hnot
      have hload : flashGetFmap dev = (some fmap, dev) := by rw [flashGetFmap, hfmap]
      have hfst := fmapReadSection_fst dev (some (cstr "RW_NVRAM"))
      rw [hload, Option.bind_some] at hfst
      cases hsection : (fmapReadSection dev (some (cstr "RW_NVRAM"))).1 with
      | none =>
          rw [readNvram] at hread
          generalize fmapReadSection dev (some (cstr "RW_NVRAM")) = found at hsection hread
          obtain ⟨found, dev₁⟩ := found
          cases hsection
          cases hread
      | some content =>
          rw [hsection] at hfst
          obtain ⟨area', hnamed', -, -, hdata⟩ := area_of_readSectionOf hfst.symm
          rw [hnamed] at hnamed'
          cases hnamed'
          rw [flashRead, h.ops] at hdata
          exact NorFlash.inside_of_read hdata
  rw [vbnvSetFlag] at hrun
  cases hparam : findParam name with
  | none =>
      rw [hparam] at hrun
      cases hrun
      rfl
  | some param =>
      rw [hparam] at hrun
      dsimp only at hrun
      split at hrun
      · rw [vbnvWrite] at hrun
        split at hrun
        · cases hrun
          rfl
        · rw [hnone] at hrun
          cases hrun
          rfl
      · cases hrun
        rfl

/-! ## The key check -/

/-- A device as `flash_open` returns it: nothing is loaded yet. -/
structure Opened (dev : FlashDevice NorFlash) : Prop extends NorDevice dev where
  fmap : dev.fmap = none
  gbb : dev.gbb = none

/-- The root keys are found compatible. -/
def KeysCompatible (layout : GbbHeaderLayout) (img : FlashDevice τ)
    (spi : FlashDevice NorFlash) : Prop :=
  (checkCompatibleKeys layout img spi).map (·.1) = some true

/-- A key is only found with the flash map loaded. -/
theorem Opened.gbbGetRootkey_fmap {spi : FlashDevice NorFlash} (h : Opened spi)
    {layout : GbbHeaderLayout} {key : Bytes × Nat × Nat}
    (hkey : (gbbGetRootkey layout spi).1 = some key) :
    ∃ fmap, (flashGetFmap spi).1 = some fmap ∧
      (gbbGetRootkey layout spi).2.fmap = some fmap := by
  have hload : flashGetGbb spi =
      ((fmapReadSection spi (some (cstr "GBB"))).1.map (·.data),
        { spi with
          fmap := (flashGetFmap spi).1
          gbb := (fmapReadSection spi (some (cstr "GBB"))).1.map (·.data) }) := by
    rw [flashGetGbb, h.gbb]
    dsimp only
    rw [fmapReadSection_snd]
  cases hmap : (flashGetFmap spi).1 with
  | some fmap =>
      refine ⟨fmap, rfl, ?_⟩
      rw [gbbGetRootkey_snd, hload, ← hmap]
  | none =>
      rw [fmapReadSection_fst, hmap] at hload
      rw [gbbGetRootkey, hload] at hkey
      cases hkey

/-- The check loads both blocks, and needs both keys to find them compatible. -/
theorem devices_of_checkCompatibleKeys {layout : GbbHeaderLayout} {img img' : FlashDevice τ}
    {spi spi' : FlashDevice NorFlash} {compatible : Bool}
    (h : checkCompatibleKeys layout img spi = some (compatible, img', spi')) :
    img' = (gbbGetRootkey layout img).2 ∧ spi' = (gbbGetRootkey layout spi).2 ∧
      (compatible = true → ∃ key, (gbbGetRootkey layout spi).1 = some key) := by
  rw [checkCompatibleKeys] at h
  generalize gbbGetRootkey layout img = imgKey at h ⊢
  generalize gbbGetRootkey layout spi = spiKey at h ⊢
  obtain ⟨imgKey, img₁⟩ := imgKey
  obtain ⟨spiKey, spi₁⟩ := spiKey
  cases imgKey with
  | none =>
      cases h
      exact ⟨rfl, rfl, fun htrue => nomatch htrue⟩
  | some imgKey =>
      cases spiKey with
      | none =>
          cases h
          exact ⟨rfl, rfl, fun htrue => nomatch htrue⟩
      | some spiKey =>
          dsimp only at h
          split at h
          · cases h
            exact ⟨rfl, rfl, fun _ => ⟨spiKey, rfl⟩⟩
          · split at h
            · cases h
            · cases h
              exact ⟨rfl, rfl, fun _ => ⟨spiKey, rfl⟩⟩

theorem KeysCompatible.devices {layout : GbbHeaderLayout} {img : FlashDevice τ}
    {spi : FlashDevice NorFlash} (h : KeysCompatible layout img spi) (hopen : Opened spi) :
    ∃ img' spi' fmap, checkCompatibleKeys layout img spi = some (true, img', spi') ∧
      SameFlash img img' ∧ SameFlash spi spi' ∧ (flashGetFmap spi).1 = some fmap ∧
      spi'.fmap = some fmap := by
  rw [KeysCompatible, Option.map_eq_some_iff] at h
  obtain ⟨⟨compatible, img', spi'⟩, hcheck, htrue⟩ := h
  dsimp only at htrue
  subst htrue
  obtain ⟨himg, hspi, hkey⟩ := devices_of_checkCompatibleKeys hcheck
  obtain ⟨key, hkey⟩ := hkey rfl
  obtain ⟨fmap, hload, hfmap⟩ := hopen.gbbGetRootkey_fmap hkey
  subst himg hspi
  exact ⟨_, _, fmap, hcheck, sameFlash_gbbGetRootkey layout img,
    sameFlash_gbbGetRootkey layout spi, hload, hfmap⟩

/-- Without compatible keys the flash is not touched. -/
theorem updateRwFw_of_not_compatible {layout : GbbHeaderLayout} {img : FlashDevice τ}
    {spi spi' : FlashDevice NorFlash} {curPart : Char} {res : Int}
    (h : ¬ KeysCompatible layout img spi)
    (hrun : updateRwFw layout spi img curPart = some (res, spi')) :
    res = -einval ∧ spi'.privData = spi.privData := by
  rw [updateRwFw, Option.bind_eq_bind, Option.bind_eq_some_iff] at hrun
  obtain ⟨⟨compatible, img₁, spi₁⟩, hcheck, hrun⟩ := hrun
  cases compatible with
  | true => exact absurd (by rw [KeysCompatible, hcheck]; rfl) h
  | false =>
      obtain ⟨_, hspi, _⟩ := devices_of_checkCompatibleKeys hcheck
      cases hrun
      rw [hspi]
      exact ⟨rfl, (sameFlash_gbbGetRootkey layout spi).privData⟩

/-! ## Copying the partition -/

/-- The erase and the write of the range succeed: both are aligned and inside the
flash, and the next two operations do not fail. -/
structure RangeWritable (dev : FlashDevice NorFlash) (off len : Nat) : Prop where
  inside : off + len ≤ dev.privData.mem.length
  eraseAligned : off % dev.eraseSize = 0 ∧ len % dev.eraseSize = 0
  writeAligned : off % dev.writeSize = 0 ∧ len % dev.writeSize = 0
  erase : dev.privData.script.head?.all Outcome.isSuccess = true
  write : dev.privData.script.tail.head?.all Outcome.isSuccess = true

/-- Erasing and writing a range that is writable leaves the data there. -/
theorem RangeWritable.erase_write {off : Nat} {data : Bytes} (hnor : NorDevice dev)
    (h : RangeWritable dev off data.length) :
    ∃ dev₁ dev₂, flashErase dev off data.length = some (0, dev₁) ∧
      flashWrite dev₁ off data = some (0, dev₂) ∧
      dev₂ = { dev with privData := dev₂.privData } ∧
      dev₂.privData.mem = splice dev.privData.mem off data := by
  have hreplicate : (List.replicate data.length NorFlash.erased).length = data.length :=
    List.length_replicate
  have hfit : off + (List.replicate data.length NorFlash.erased).length ≤
      dev.privData.mem.length := by
    rw [hreplicate]
    exact h.inside
  have herase := NorFlash.erase_of_nextSucceeds h.erase h.inside
  generalize hp : ({ dev.privData with
      mem := splice dev.privData.mem off (List.replicate data.length NorFlash.erased)
      script := dev.privData.script.tail } : NorFlash) = p at herase
  have hmem : p.mem = splice dev.privData.mem off
      (List.replicate data.length NorFlash.erased) := by rw [← hp]
  have hinside : off + data.length ≤ p.mem.length := by
    rw [hmem, length_splice hfit]
    exact h.inside
  have hself := slice_splice_self hfit
  rw [hreplicate, ← hmem] at hself
  have hprogram : p.program off data = splice dev.privData.mem off data := by
    rw [NorFlash.program_of_and_eq
      (by rw [hself, NorFlash.zipWith_and_replicate_erased]), hmem, splice_splice hreplicate hfit]
  have hnext : p.NextSucceeds := by
    rw [← hp]
    exact h.write
  have hwrite := NorFlash.write_of_nextSucceeds hnext hinside
  rw [hprogram] at hwrite
  refine ⟨{ dev with privData := p }, { dev with privData := (p.write off data).2 }, ?_, ?_,
    rfl, by rw [hwrite]⟩
  · rw [flashErase, badAlignment, if_neg (Nat.ne_of_gt hnor.erasePos), h.eraseAligned.1,
      h.eraseAligned.2, hnor.ops]
    simp only [NorFlash.ops, herase]
    rfl
  · rw [flashWrite, badAlignment, if_neg (Nat.ne_of_gt hnor.writePos), h.writeAligned.1,
      h.writeAligned.2, hnor.ops]
    simp only [NorFlash.ops, hwrite]
    rfl

/-- `update_partition` with a readable section returns zero, whatever the flash does. -/
theorem updatePartition_spec {src : FlashDevice τ} {name : Option Bytes} {content : Section}
    (hnor : NorDevice dev) (hread : (fmapReadSection src name).1 = some content) :
    ∃ src' dev', updatePartition src dev name = some (0, src', dev') ∧
      dev' = { dev with privData := dev'.privData } ∧
      (RangeWritable dev content.offset content.size →
        dev'.privData.mem = splice dev.privData.mem content.offset content.data) := by
  have hlen := length_of_fmapReadSection hread
  cases hsection : fmapReadSection src name with
  | mk found src' =>
      rw [hsection] at hread
      dsimp only at hread
      subst hread
      by_cases hok : RangeWritable dev content.offset content.size
      · rw [← hlen] at hok
        obtain ⟨dev₁, dev₂, herase, hwrite, hdev, hmem⟩ := hok.erase_write hnor
        refine ⟨src', dev₂, ?_, hdev, fun _ => hmem⟩
        rw [hlen] at herase
        rw [updatePartition, hsection]
        simp [herase, hwrite]
      · obtain ⟨res, dev₁, herase, hstep⟩ := hnor.flashErase_step content.offset content.size
        obtain ⟨res₂, dev₂, hwrite, hstep₂⟩ :=
          (hstep.norDevice hnor).flashWrite_step content.offset content.data
        rw [updatePartition, hsection]
        simp only [herase, Option.bind_eq_bind, Option.bind_some, hwrite]
        split
        · exact ⟨src', dev₁, rfl, hstep.device, fun h => absurd h hok⟩
        · refine ⟨src', dev₂, rfl, ?_, fun h => absurd h hok⟩
          rw [hstep₂.device, hstep.device]

theorem badAlignment_eq {blockSize off len : Nat} (hpos : 0 < blockSize) :
    badAlignment blockSize off len =
      some (decide ¬ (off % blockSize = 0 ∧ len % blockSize = 0)) := by
  rw [badAlignment, if_neg (Nat.ne_of_gt hpos)]
  by_cases hoff : off % blockSize = 0
  · simp [hoff]
  · simp [hoff]

/-- A range is writable when its erase and its write both return zero. -/
theorem rangeWritable_iff {off : Nat} {data : Bytes} (hnor : NorDevice dev) :
    RangeWritable dev off data.length ↔
      ∃ dev₁ dev₂, flashErase dev off data.length = some (0, dev₁) ∧
        flashWrite dev₁ off data = some (0, dev₂) := by
  refine ⟨fun h => ?_, ?_⟩
  · obtain ⟨dev₁, dev₂, herase, hwrite, _⟩ := h.erase_write hnor
    exact ⟨dev₁, dev₂, herase, hwrite⟩
  · intro h
    obtain ⟨dev₁, dev₂, herase, hwrite⟩ := h
    rw [flashErase, badAlignment_eq hnor.erasePos, hnor.ops] at herase
    simp only [Option.bind_eq_bind, Option.bind_some] at herase
    split at herase
    · cases herase
    · rename_i hea
      have hres : (dev.privData.erase off data.length).1 = 0 :=
        congrArg Prod.fst (Option.some.inj herase)
      obtain ⟨hinside, hnext⟩ := NorFlash.next_of_erase hres
      rw [NorFlash.ops] at herase
      dsimp only at herase
      rw [NorFlash.erase_of_nextSucceeds hnext hinside] at herase
      cases herase
      rw [flashWrite, badAlignment_eq hnor.writePos] at hwrite
      simp only [Option.bind_eq_bind, Option.bind_some] at hwrite
      split at hwrite
      · cases hwrite
      · rename_i hwa
        have hwres := congrArg Prod.fst (Option.some.inj hwrite)
        have hnext' := NorFlash.next_of_write hwres
        exact ⟨hinside, by simpa using hea, by simpa using hwa, hnext, hnext'⟩

/-! ## What is reported -/

/-- A section of the SPI flash, where the flash's own map has it. -/
def spiSection (spi : FlashDevice NorFlash) (mem : Bytes) (name : Bytes) : Option Bytes :=
  ((flashGetFmap spi).1.bind (·.find? name)).map fun area => slice mem area.offset area.size

/-- The section of the image that goes into the target partition. -/
def imageSection (img : FlashDevice τ) (curPart : Char) : Option Section :=
  (fmapReadSection img (some (rwName curPart))).1

/-- The erase or the write of the target partition returns an error. -/
def TargetFails (layout : GbbHeaderLayout) (spi : FlashDevice NorFlash) (img : FlashDevice τ)
    (curPart : Char) : Prop :=
  KeysCompatible layout img spi ∧ ∃ content, imageSection img curPart = some content ∧
    ¬ ∃ dev₁ dev₂, flashErase spi content.offset content.size = some (0, dev₁) ∧
      flashWrite dev₁ content.offset content.data = some (0, dev₂)

/-- What an update returns, and what it leaves in the NVRAM, is true of the flash. -/
structure HonestReport (layout : GbbHeaderLayout) (spi : FlashDevice NorFlash)
    (img : FlashDevice τ) (curPart : Char) (res : Int) (spi' : FlashDevice NorFlash) : Prop where
  /-- success is reported, or flags are set, only with the image's section in place -/
  success : res = 0 ∨ spiSection spi spi'.privData.mem (cstr "RW_NVRAM") ≠
      spiSection spi spi.privData.mem (cstr "RW_NVRAM") →
    ∃ content, imageSection img curPart = some content ∧
      spiSection spi spi'.privData.mem (rwName curPart) = some content.data
  /-- a failed erase or write is reported, and the flags stay -/
  failure : TargetFails layout spi img curPart →
    res ≠ 0 ∧ spiSection spi spi'.privData.mem (cstr "RW_NVRAM") =
      spiSection spi spi.privData.mem (cstr "RW_NVRAM")

/-- The update is stopped before it touches the flash. -/
def StopsEarly (layout : GbbHeaderLayout) (spi : FlashDevice NorFlash) (img : FlashDevice τ)
    (curPart : Char) : Prop :=
  ¬ KeysCompatible layout img spi ∨ imageSection img curPart = none

/-- The erase and the write succeed, and the image's section lies where the flash's
own map has the partition. -/
def CopiesSection (spi : FlashDevice NorFlash) (img : FlashDevice τ) (curPart : Char) : Prop :=
  ∃ content, imageSection img curPart = some content ∧
    RangeWritable spi content.offset content.size ∧
    spiSection spi (splice spi.privData.mem content.offset content.data) (rwName curPart) =
      some content.data

/-- The flag updates spare the target partition: the flash's own map keeps it apart from the
NVRAM, or the NVRAM cannot be used. -/
def TargetSpared (spi : FlashDevice NorFlash) (curPart : Char) : Prop :=
  ∀ fmap area nvram, (flashGetFmap spi).1 = some fmap →
    fmap.find? (rwName curPart) = some area → fmap.find? (cstr "RW_NVRAM") = some nvram →
    NvramUsable spi nvram →
    area.offset + area.size ≤ nvram.offset ∨ nvram.offset + nvram.size ≤ area.offset

variable {layout : GbbHeaderLayout} {spi : FlashDevice NorFlash} {img : FlashDevice τ}
  {curPart : Char}

theorem RangeWritable.congr {off len : Nat} (h : SameFlash dev dev') :
    RangeWritable dev' off len ↔ RangeWritable dev off len := by
  refine ⟨fun hok => ?_, fun hok => ?_⟩
  · obtain ⟨h₁, h₂, h₃, h₄, h₅⟩ := hok
    rw [h.privData] at h₁ h₄ h₅
    rw [h.eraseSize] at h₂
    rw [h.writeSize] at h₃
    exact ⟨h₁, h₂, h₃, h₄, h₅⟩
  · obtain ⟨h₁, h₂, h₃, h₄, h₅⟩ := hok
    rw [← h.privData] at h₁ h₄ h₅
    rw [← h.eraseSize] at h₂
    rw [← h.writeSize] at h₃
    exact ⟨h₁, h₂, h₃, h₄, h₅⟩

theorem targetFails_iff (hopen : Opened spi) {content : Section}
    (hkeys : KeysCompatible layout img spi) (hread : imageSection img curPart = some content) :
    TargetFails layout spi img curPart ↔ ¬ RangeWritable spi content.offset content.size := by
  have hlen := length_of_fmapReadSection hread
  rw [TargetFails, ← hlen, rangeWritable_iff hopen.toNorDevice, hlen]
  refine ⟨fun h => ?_, fun h => ⟨hkeys, content, hread, h⟩⟩
  obtain ⟨_, content', hread', hfail⟩ := h
  rw [hread] at hread'
  cases hread'
  exact hfail

/-- With compatible keys and a readable section the update always returns zero. -/
theorem updateRwFw_of_compatible (hopen : Opened spi) {content : Section}
    (hkeys : KeysCompatible layout img spi) (hread : imageSection img curPart = some content) :
    ∃ spi', updateRwFw layout spi img curPart = some (0, spi') ∧
      (TargetSpared spi curPart → RangeWritable spi content.offset content.size →
        spiSection spi spi'.privData.mem (rwName curPart) =
          spiSection spi (splice spi.privData.mem content.offset content.data)
            (rwName curPart)) := by
  obtain ⟨img₁, spi₁, fmap, hcheck, himg, hspi, hload, hfmap⟩ := hkeys.devices hopen
  have hnor : NorDevice spi₁ :=
    ⟨by rw [hspi.ops, hopen.ops], by rw [hspi.writeSize]; exact hopen.writePos,
      by rw [hspi.eraseSize]; exact hopen.erasePos⟩
  have hread₁ : (fmapReadSection img₁ (some (rwName curPart))).1 = some content := by
    rw [himg.fmapReadSection_eq]
    exact hread
  obtain ⟨img₂, spi₂, hupdate, hdev₂, hmem₂⟩ := updatePartition_spec hnor hread₁
  have hnor₂ : NorDevice spi₂ := by
    rw [hdev₂]
    exact ⟨hnor.ops, hnor.writePos, hnor.erasePos⟩
  have hfmap₂ : spi₂.fmap = some fmap := by rw [hdev₂, hfmap]
  obtain ⟨res₃, spi₃, hset₃, hstep₃⟩ :=
    vbnvSetFlag_step hnor₂ hfmap₂ "fw_try_next" (tryNext curPart)
  have hfmap₃ : spi₃.fmap = some fmap := by rw [hstep₃.device, hfmap₂]
  obtain ⟨res₄, spi₄, hset₄, hstep₄⟩ :=
    vbnvSetFlag_step (hstep₃.norDevice hnor₂) hfmap₃ "try_count" 6#8
  refine ⟨spi₄, ?_, ?_⟩
  · simp only [updateRwFw, hcheck, Option.bind_eq_bind, Option.bind_some, if_true, hupdate,
      hset₃, hset₄]
  · intro hspared hok
    have hmem := hmem₂ ((RangeWritable.congr hspi).mpr hok)
    rw [hspi.privData] at hmem
    rw [spiSection, spiSection, hload, Option.bind_some]
    cases harea : fmap.find? (rwName curPart) with
    | none => rfl
    | some area =>
        rw [Option.map_some, Option.map_some, ← hmem]
        refine congrArg some ?_
        by_cases hapart : ApartFromNvram fmap area.offset area.size
        · exact (hstep₃.trans hstep₄).frame area.offset area.size hapart
        · -- then the NVRAM cannot be used, and the flags are not set
          simp only [ApartFromNvram, not_forall] at hapart
          obtain ⟨nvram, hnamed, hoverlap⟩ := hapart
          have hlen : spi₂.privData.mem.length = spi.privData.mem.length := by
            rw [hmem]
            refine length_splice ?_
            rw [length_of_fmapReadSection hread]
            exact hok.inside
          have hnot : ¬ NvramUsable spi₂ nvram := fun husable =>
            hoverlap (hspared fmap area nvram hload harea hnamed
              ⟨by rw [← hlen]; exact husable.inside, husable.holds, husable.whole⟩)
          have hsame₃ := vbnvSetFlag_unusable hnor₂ hfmap₂ hnamed hnot hset₃
          subst hsame₃
          rw [vbnvSetFlag_unusable hnor₂ hfmap₂ hnamed hnot hset₄]

/-- An update that stops early returns an error and leaves the flash alone. -/
theorem unchanged_of_stopsEarly (hopen : Opened spi) (hstop : StopsEarly layout spi img curPart)
    {res : Int} {spi' : FlashDevice NorFlash}
    (hrun : updateRwFw layout spi img curPart = some (res, spi')) :
    res < 0 ∧ spi'.privData = spi.privData := by
  by_cases hkeys : KeysCompatible layout img spi
  · have hnone : imageSection img curPart = none := by
      cases hstop with
      | inl hnot => exact absurd hkeys hnot
      | inr hnone => exact hnone
    obtain ⟨img₁, spi₁, fmap, hcheck, himg, hspi, _, _⟩ := hkeys.devices hopen
    have hread : (fmapReadSection img₁ (some (rwName curPart))).1 = none := by
      rw [himg.fmapReadSection_eq]
      exact hnone
    have hupdate : updatePartition img₁ spi₁ (some (rwName curPart)) =
        some (-eio, (fmapReadSection img₁ (some (rwName curPart))).2, spi₁) := by
      rw [updatePartition]
      generalize fmapReadSection img₁ (some (rwName curPart)) = found at hread ⊢
      obtain ⟨content, img₂⟩ := found
      dsimp only at hread
      subst hread
      rfl
    simp only [updateRwFw, hcheck, Option.bind_eq_bind, Option.bind_some, if_true,
      hupdate] at hrun
    cases hrun
    exact ⟨by decide, hspi.privData⟩
  · obtain ⟨hres, hpriv⟩ := updateRwFw_of_not_compatible hkeys hrun
    rw [hres]
    exact ⟨by decide, hpriv⟩

theorem honest_of_stopsEarly (hopen : Opened spi) (hstop : StopsEarly layout spi img curPart)
    {res : Int} {spi' : FlashDevice NorFlash}
    (hrun : updateRwFw layout spi img curPart = some (res, spi')) :
    HonestReport layout spi img curPart res spi' := by
  obtain ⟨hres, hpriv⟩ := unchanged_of_stopsEarly hopen hstop hrun
  refine ⟨fun h => ?_, fun _ => ⟨Int.ne_of_lt hres, by rw [hpriv]⟩⟩
  cases h with
  | inl hzero => exact absurd hzero (Int.ne_of_lt hres)
  | inr hchanged => exact absurd (by rw [hpriv]) hchanged

/-- An update is honest when it stops before it touches the flash, or when the erase and the
write of the partition both succeed, put the section where the flash's own map has it, and the
flag updates spare it.  That both succeed is needed wherever the NVRAM lies, and that the
section lies right wherever the flag updates spare it. -/
theorem updateRwFw_honest_of_copied (hopen : Opened spi) (img : FlashDevice τ) (curPart : Char) :
    (StopsEarly layout spi img curPart ∨
        CopiesSection spi img curPart ∧ TargetSpared spi curPart →
      ∀ res spi', updateRwFw layout spi img curPart = some (res, spi') →
        HonestReport layout spi img curPart res spi') ∧
    ((∀ res spi', updateRwFw layout spi img curPart = some (res, spi') →
        HonestReport layout spi img curPart res spi') →
      StopsEarly layout spi img curPart ∨
        (∃ content, imageSection img curPart = some content ∧
          RangeWritable spi content.offset content.size) ∧
        (TargetSpared spi curPart → CopiesSection spi img curPart)) := by
  by_cases hstop : StopsEarly layout spi img curPart
  · exact ⟨fun _ res spi' => @honest_of_stopsEarly _ _ _ _ _ hopen hstop res spi',
      fun _ => Or.inl hstop⟩
  · have hkeys : KeysCompatible layout img spi := by
      by_contra hnot
      exact hstop (Or.inl hnot)
    obtain ⟨content, hread⟩ : ∃ content, imageSection img curPart = some content := by
      cases hread : imageSection img curPart with
      | none => exact absurd (Or.inr hread) hstop
      | some content => exact ⟨content, rfl⟩
    obtain ⟨spi', hrun, hslot⟩ := updateRwFw_of_compatible hopen hkeys hread
    refine ⟨fun hcond => ?_, fun hhonest => Or.inr ?_⟩
    · intro res spi'' hrun'
      rw [hrun] at hrun'
      cases hrun'
      obtain ⟨⟨content', hread', hok, hlaid⟩, hspared⟩ := hcond.resolve_left hstop
      rw [hread] at hread'
      cases hread'
      refine ⟨fun _ => ⟨content, hread, by rw [hslot hspared hok, hlaid]⟩, fun hfails => ?_⟩
      exact absurd hok ((targetFails_iff hopen hkeys hread).mp hfails)
    · have hok : RangeWritable spi content.offset content.size := by
        by_contra hnot
        have hfails := (targetFails_iff hopen hkeys hread).mpr hnot
        exact ((hhonest 0 spi' hrun).failure hfails).1 rfl
      refine ⟨⟨content, hread, hok⟩, fun hspared => ?_⟩
      obtain ⟨content', hread', hsection⟩ := (hhonest 0 spi' hrun).success (Or.inl rfl)
      rw [hread] at hread'
      cases hread'
      exact ⟨content, hread, hok, by rw [← hslot hspared hok, hsection]⟩

/-! ## The whole update -/

/-- The partitions that an update copies. -/
def updatedPartitions (curPart : Char) : List Bytes :=
  if curPart = 'R' then [cstr "RW_SECTION_A", cstr "RW_SECTION_B", cstr "RW_SHARED"]
  else [rwName curPart]

/-- The image has the section. -/
def HasSection (img : FlashDevice τ) (name : Bytes) : Prop :=
  (fmapReadSection img (some name)).1.isSome = true

theorem SameFlash.hasSection {img img' : FlashDevice τ} (h : SameFlash img img') (name : Bytes) :
    HasSection img' name ↔ HasSection img name := by
  rw [HasSection, HasSection, h.fmapReadSection_eq]

/-- `update_partition` reports an error when the image does not have the section, and never
else. -/
theorem updatePartition_report (hnor : NorDevice dev) (src : FlashDevice τ) (name : Bytes) :
    ∃ res src' dev', updatePartition src dev (some name) = some (res, src', dev') ∧
      (res = 0 ↔ HasSection src name) ∧ SameFlash src src' ∧ NorDevice dev' := by
  have hsame := sameFlash_fmapReadSection src (some name)
  cases hread : (fmapReadSection src (some name)).1 with
  | none =>
      refine ⟨-eio, _, dev, ?_, ?_, hsame, hnor⟩
      · rw [updatePartition]
        generalize fmapReadSection src (some name) = found at hread ⊢
        obtain ⟨content, src'⟩ := found
        cases hread
        rfl
      · rw [HasSection, hread]
        decide
  | some content =>
      obtain ⟨src', dev', hupdate, hdev, -⟩ := updatePartition_spec hnor hread
      have hsrc : src' = (fmapReadSection src (some name)).2 := by
        rw [updatePartition] at hupdate
        generalize fmapReadSection src (some name) = found at hread hupdate ⊢
        obtain ⟨_, src₁⟩ := found
        cases hread
        obtain ⟨⟨res, dev₁⟩, -, hupdate⟩ := Option.bind_eq_some_iff.mp hupdate
        dsimp only at hupdate
        split at hupdate
        · cases hupdate
          rfl
        · obtain ⟨⟨res₂, dev₂⟩, -, hupdate⟩ := Option.bind_eq_some_iff.mp hupdate
          cases hupdate
          rfl
      refine ⟨0, src', dev', hupdate, ⟨fun _ => by rw [HasSection, hread]; rfl, fun _ => rfl⟩,
        by rw [hsrc]; exact hsame, ?_⟩
      rw [hdev]
      exact ⟨hnor.ops, hnor.writePos, hnor.erasePos⟩

/-- `update_recovery_fw` succeeds when the keys agree and the image has what it copies. -/
theorem updateRecoveryFw_success_iff (hopen : Opened spi) {res : Int}
    {spi' : FlashDevice NorFlash} (hrun : updateRecoveryFw layout spi img = some (res, spi')) :
    res ≤ 0 ∧ (res = 0 ↔ KeysCompatible layout img spi ∧
      ∀ name ∈ updatedPartitions 'R', HasSection img name) := by
  by_cases hkeys : KeysCompatible layout img spi
  · obtain ⟨img₁, spi₁, fmap, hcheck, himg, hspi, -, -⟩ := hkeys.devices hopen
    have hnor : NorDevice spi₁ :=
      ⟨by rw [hspi.ops, hopen.ops], by rw [hspi.writeSize]; exact hopen.writePos,
        by rw [hspi.eraseSize]; exact hopen.erasePos⟩
    obtain ⟨ra, img₂, spi₂, ha, hra, himg₂, hnor₂⟩ :=
      updatePartition_report hnor img₁ (cstr "RW_SECTION_A")
    obtain ⟨rb, img₃, spi₃, hb, hrb, himg₃, hnor₃⟩ :=
      updatePartition_report hnor₂ img₂ (cstr "RW_SECTION_B")
    obtain ⟨rs, img₄, spi₄, hs, hrs, -, -⟩ :=
      updatePartition_report hnor₃ img₃ (cstr "RW_SHARED")
    rw [himg.hasSection] at hra
    rw [(himg.trans himg₂).hasSection] at hrb
    rw [((himg.trans himg₂).trans himg₃).hasSection] at hrs
    simp only [updateRecoveryFw, hcheck, Option.bind_eq_bind, Option.bind_some, if_true, ha, hb,
      hs] at hrun
    have hres : res = if ra ≠ 0 ∨ rb ≠ 0 ∨ rs ≠ 0 then -eio else 0 :=
      (congrArg Prod.fst (Option.some.inj hrun)).symm
    have hall : (∀ name ∈ updatedPartitions 'R', HasSection img name) ↔
        ra = 0 ∧ rb = 0 ∧ rs = 0 := by
      rw [hra, hrb, hrs]
      simp [updatedPartitions]
    rw [hall, hres]
    split
    · rename_i hfailed
      refine ⟨by decide, fun h => absurd h (by decide), fun h => ?_⟩
      rcases hfailed with h' | h' | h'
      · exact absurd h.2.1 h'
      · exact absurd h.2.2.1 h'
      · exact absurd h.2.2.2 h'
    · rename_i hworked
      refine ⟨Int.le_refl 0, fun _ => ⟨hkeys, ?_⟩, fun _ => rfl⟩
      simpa only [not_or, not_not] using hworked
  · have hres : res = -einval := by
      rw [updateRecoveryFw, Option.bind_eq_bind, Option.bind_eq_some_iff] at hrun
      obtain ⟨⟨compatible, img₁, spi₁⟩, hcheck, hrun⟩ := hrun
      cases compatible with
      | true => exact absurd (by rw [KeysCompatible, hcheck]; rfl) hkeys
      | false =>
          cases hrun
          rfl
    rw [hres]
    exact ⟨by decide, fun h => absurd h (by decide), fun h => absurd h.1 hkeys⟩

/-- `update_fw` records an update when the keys agree and the image has what is copied, whatever
the flash has done with it. -/
theorem updateOpened_success_iff (hopen : Opened spi) {res : Int} {spi' : FlashDevice NorFlash}
    (hrun : updateOpened layout spi img curPart = some (res, spi')) :
    res = 1 ↔ KeysCompatible layout img spi ∧
      ∀ name ∈ updatedPartitions curPart, HasSection img name := by
  have hresult : ∀ {done : Int} {spi₁ : FlashDevice NorFlash},
      some (if done = 0 then (1 : Int) else done, spi₁) = some (res, spi') → done ≤ 0 →
      (res = 1 ↔ done = 0) := by
    intro done spi₁ hrun hle
    have hres : (if done = 0 then (1 : Int) else done) = res :=
      congrArg Prod.fst (Option.some.inj hrun)
    rw [← hres]
    split
    · rename_i hzero
      exact ⟨fun _ => hzero, fun _ => rfl⟩
    · rename_i hne
      exact ⟨fun h => by omega, fun h => absurd h hne⟩
  unfold updateOpened at hrun
  split at hrun
  · rename_i hrecovery
    obtain ⟨⟨done, spi₁⟩, hdone, hrun⟩ := Option.bind_eq_some_iff.mp hrun
    obtain ⟨hle, hspec⟩ := updateRecoveryFw_success_iff hopen hdone
    rw [hresult hrun hle, hspec, hrecovery]
  · rename_i hnormal
    obtain ⟨⟨done, spi₁⟩, hdone, hrun⟩ := Option.bind_eq_some_iff.mp hrun
    rw [updatedPartitions, if_neg hnormal, List.forall_mem_singleton]
    by_cases hstop : StopsEarly layout spi img curPart
    · obtain ⟨hneg, -⟩ := unchanged_of_stopsEarly hopen hstop hdone
      rw [hresult hrun (Int.le_of_lt hneg)]
      refine ⟨fun h => absurd h (Int.ne_of_lt hneg), fun ⟨hkeys, hread⟩ => ?_⟩
      rcases hstop with hnot | hnone
      · exact absurd hkeys hnot
      · rw [HasSection, show (fmapReadSection img (some (rwName curPart))).1 = none from hnone]
          at hread
        cases hread
    · simp only [StopsEarly, not_or, not_not] at hstop
      obtain ⟨content, hread⟩ := Option.ne_none_iff_exists'.mp hstop.2
      obtain ⟨spi₂, hrw, -⟩ := updateRwFw_of_compatible hopen hstop.1 hread
      rw [hdone] at hrw
      cases hrw
      rw [hresult hrun (Int.le_refl 0)]
      exact ⟨fun _ => ⟨hstop.1, congrArg Option.isSome hread⟩, fun _ => rfl⟩

/-! ## A flash that fails -/

/-- vboot's header: `$GBB`, and the root key's offset and size as the seventh and
eighth word. -/
def vbootGbbLayout : GbbHeaderLayout where
  sizeof := 128
  signature := cstr "$GBB"
  rootkeyOffset := 24
  rootkeySize := 28

/-- A block of one header and a root key of eight bytes behind it. -/
def smallGbb : Bytes :=
  cstr "$GBB" ++ List.replicate 20 0#8 ++ [128#8, 0#8, 0#8, 0#8] ++ [8#8, 0#8, 0#8, 0#8] ++
    List.replicate 96 0#8 ++ List.replicate 8 0x5a#8

def smallFmapArea (offset size : Nat) (name : String) : Bytes :=
  [BitVec.ofNat 8 offset, 0#8, 0#8, 0#8] ++ [BitVec.ofNat 8 size, 0#8, 0#8, 0#8] ++
    cstr name ++ List.replicate (34 - name.length) 0#8

/-- An erased NVRAM, a slot, the block, and a map of the three at 192. -/
def smallFlash (slot : Bytes) : Bytes :=
  List.replicate 16 0xff#8 ++ slot ++ smallGbb ++ List.replicate 24 0#8 ++
    fmapSignature ++ List.replicate 46 0#8 ++ [3#8, 0#8] ++
    smallFmapArea 0 16 "RW_NVRAM" ++ smallFmapArea 16 16 "RW_SECTION_B" ++
    smallFmapArea 32 136 "GBB"

def smallDevice (slot : Bytes) (script : List Outcome) : FlashDevice NorFlash where
  ops := NorFlash.ops
  privData := ⟨smallFlash slot, script, 256, []⟩
  fmap := none
  gbb := none
  writeSize := 1
  eraseSize := 4

/-- The flash of a device whose slot is old, and whose second operation fails. -/
def failingSpi : FlashDevice NorFlash :=
  smallDevice (List.replicate 16 0x11#8) [.succeed, .fail 5 (by decide) []]

def newImage : FlashDevice NorFlash := smallDevice (List.replicate 16 0x22#8) []

theorem smallDevice_opened (slot : Bytes) (script : List Outcome) :
    Opened (smallDevice slot script) where
  ops := rfl
  writePos := Nat.one_pos
  erasePos := Nat.succ_pos 3
  fmap := rfl
  gbb := rfl

/-- The write of the partition fails: the slot is left erased, and the update sets
the flags and returns zero. -/
theorem updateRwFw_reports_failed_write :
    ¬ (∀ res spi', updateRwFw vbootGbbLayout failingSpi newImage 'A' = some (res, spi') →
      HonestReport vbootGbbLayout failingSpi newImage 'A' res spi') ∧
    (updateRwFw vbootGbbLayout failingSpi newImage 'A').map (fun r => (r.1,
        spiSection failingSpi r.2.privData.mem (cstr "RW_SECTION_B"),
        spiSection failingSpi r.2.privData.mem (cstr "RW_NVRAM") ==
          spiSection failingSpi failingSpi.privData.mem (cstr "RW_NVRAM"))) =
      some (0, some (List.replicate 16 0xff#8), false) := by
  have hkeys : KeysCompatible vbootGbbLayout newImage failingSpi := by
    unfold KeysCompatible
    decide +kernel
  have hread : imageSection newImage 'A' = some ⟨List.replicate 16 0x22#8, 16, 16⟩ := by
    decide +kernel
  have hopen : Opened failingSpi := smallDevice_opened _ _
  have hfails : ¬ RangeWritable failingSpi 16 16 := by
    intro hok
    exact absurd hok.write (by decide)
  refine ⟨fun hhonest => ?_, by decide +kernel⟩
  obtain ⟨spi', hrun, _⟩ := updateRwFw_of_compatible hopen hkeys hread
  exact ((hhonest 0 spi' hrun).failure ((targetFails_iff hopen hkeys hread).mpr hfails)).1 rfl

/-- The same flash without the failure. -/
def workingSpi : FlashDevice NorFlash := smallDevice (List.replicate 16 0x11#8) []

theorem workingSpi_targetSpared : TargetSpared workingSpi 'A' := by
  intro fmap area nvram hload harea hnvram _
  have hmap : (flashGetFmap workingSpi).1 =
      some (parseFmap (slice workingSpi.privData.mem 192 182)) := by
    decide +kernel
  rw [hmap] at hload
  cases hload
  have hslot : area.offset = 16 := by
    have h : ((parseFmap (slice workingSpi.privData.mem 192 182)).find? (rwName 'A')).map
        (·.offset) = some 16 := by decide +kernel
    rw [harea] at h
    exact Option.some.inj h
  have hend : nvram.offset + nvram.size = 16 := by
    have h : ((parseFmap (slice workingSpi.privData.mem 192 182)).find? (cstr "RW_NVRAM")).map
        (fun a => a.offset + a.size) = some 16 := by decide +kernel
    rw [hnvram] at h
    exact Option.some.inj h
  omega

/-- An update of the working flash is honest. -/
theorem updateRwFw_honest_working : Opened workingSpi ∧
    (∀ res spi', updateRwFw vbootGbbLayout workingSpi newImage 'A' = some (res, spi') →
      HonestReport vbootGbbLayout workingSpi newImage 'A' res spi') ∧
    (updateRwFw vbootGbbLayout workingSpi newImage 'A').map (·.1) = some 0 := by
  have hcopies : CopiesSection workingSpi newImage 'A' := by
    refine ⟨⟨List.replicate 16 0x22#8, 16, 16⟩, by decide +kernel, ?_, by decide +kernel⟩
    exact ⟨by decide +kernel, by decide, by decide, by decide, by decide⟩
  have hopen : Opened workingSpi := smallDevice_opened _ _
  exact ⟨hopen, (updateRwFw_honest_of_copied hopen newImage 'A').1
    (Or.inr ⟨hcopies, workingSpi_targetSpared⟩), by decide +kernel⟩

end DragonDevice.Recovery
