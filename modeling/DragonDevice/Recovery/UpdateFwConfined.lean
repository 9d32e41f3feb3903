/-
  Recovery/UpdateFwConfined.lean --- what a firmware update can change.

  `update_partition` takes the offset and the size of the partition from the flash map of
  the image and erases and writes there, whatever the flash's own map says.  The flags go
  where the flash's own map has the NVRAM.  Erases and writes can end in any way.
-/
import DragonDevice.Recovery.UpdateFwReport

set_option autoImplicit false

namespace DragonDevice.Recovery

open DragonDevice.Lib

variable {σ τ : Type}

/-! ## Devices that read the same -/

/-- Two devices with the same content, and the same of it loaded. -/
structure SameContent (dev dev' : FlashDevice σ) : Prop where
  read : ∀ off len, flashRead dev' off len = flashRead dev off len
  size : flashGetSize dev' = flashGetSize dev
  fmapOffset : dev'.ops.getFmapOffset dev'.privData = dev.ops.getFmapOffset dev.privData
  fmap : dev'.fmap = dev.fmap
  gbb : dev'.gbb = dev.gbb

namespace SameContent

variable {dev dev' : FlashDevice σ}

theorem fmapScanFrom_eq (h : SameContent dev dev') :
    ∀ k, fmapScanFrom dev' k = fmapScanFrom dev k := by
  intro k
  induction k with
  | zero => rfl
  | succ k ih => rw [fmapScanFrom, fmapScanFrom, h.read, ih]

theorem flashGetFmap_eq (h : SameContent dev dev') :
    (flashGetFmap dev').1 = (flashGetFmap dev).1 := by
  have hscan : ∀ fin, fmapScanOffset dev' fin = fmapScanOffset dev fin := by
    intro fin
    rw [fmapScanOffset, fmapScanOffset, h.fmapScanFrom_eq]
  have hload : ∀ off, fmapLoad dev' off = fmapLoad dev off := by
    intro off
    simp only [fmapLoad, h.read]
  rw [flashGetFmap, flashGetFmap, h.fmap]
  cases dev.fmap with
  | some fmap => rfl
  | none =>
      dsimp only
      rw [hscan, hload, h.fmapOffset]

theorem fmapReadSection_eq (h : SameContent dev dev') (name : Option Bytes) :
    (fmapReadSection dev' name).1 = (fmapReadSection dev name).1 := by
  have hread : readSectionOf dev' name = readSectionOf dev name := by
    funext fmap
    cases name with
    | none => simp only [readSectionOf, sectionRange, h.size, h.read]
    | some name => simp only [readSectionOf, sectionRange, h.read]
  rw [fmapReadSection_fst, fmapReadSection_fst, h.flashGetFmap_eq, hread]

theorem flashGetGbb_eq (h : SameContent dev dev') : (flashGetGbb dev').1 = (flashGetGbb dev).1 := by
  have hread := h.fmapReadSection_eq (some (cstr "GBB"))
  rw [flashGetGbb, flashGetGbb, h.gbb]
  cases dev.gbb with
  | some gbb => rfl
  | none => exact congrArg (Option.map _) hread

theorem gbbGetRootkey_eq (h : SameContent dev dev') (layout : GbbHeaderLayout) :
    (gbbGetRootkey layout dev').1 = (gbbGetRootkey layout dev).1 := by
  have hgbb := h.flashGetGbb_eq
  rw [gbbGetRootkey, gbbGetRootkey]
  generalize flashGetGbb dev' = loaded' at hgbb ⊢
  generalize flashGetGbb dev = loaded at hgbb ⊢
  obtain ⟨gbb', dev₁'⟩ := loaded'
  obtain ⟨gbb, dev₁⟩ := loaded
  dsimp only at hgbb
  rw [hgbb]
  cases gbb with
  | none => rfl
  | some gbb =>
      dsimp only
      split
      · rfl
      · split
        · rfl
        · rfl

/-- The key check only depends on the content. -/
theorem checkCompatibleKeys_eq (h : SameContent dev dev') (layout : GbbHeaderLayout)
    (img : FlashDevice τ) :
    (checkCompatibleKeys layout img dev').map (·.1) =
      (checkCompatibleKeys layout img dev).map (·.1) := by
  have hkey := h.gbbGetRootkey_eq layout
  rw [checkCompatibleKeys, checkCompatibleKeys]
  generalize gbbGetRootkey layout dev' = key' at hkey ⊢
  generalize gbbGetRootkey layout dev = key at hkey ⊢
  generalize gbbGetRootkey layout img = imgKey
  obtain ⟨key', dev₁'⟩ := key'
  obtain ⟨key, dev₁⟩ := key
  obtain ⟨imgKey, img₁⟩ := imgKey
  dsimp only at hkey
  rw [hkey]
  cases imgKey with
  | none => rfl
  | some imgKey =>
      cases key with
      | none => rfl
      | some key =>
          dsimp only
          split
          · rfl
          · split
            · rfl
            · rfl

end SameContent

/-- The flash with another course of its erases and writes. -/
def FlashDevice.withScript (spi : FlashDevice NorFlash) (script : List Outcome) :
    FlashDevice NorFlash :=
  { spi with privData := { spi.privData with script } }

theorem sameContent_withScript {spi : FlashDevice NorFlash} (hnor : NorDevice spi)
    (script : List Outcome) : SameContent spi (spi.withScript script) := by
  refine ⟨fun off len => ?_, ?_, ?_, rfl, rfl⟩
  · rw [flashRead, flashRead, FlashDevice.withScript, hnor.ops]
    rfl
  · rw [flashGetSize, flashGetSize, FlashDevice.withScript, hnor.ops]
    rfl
  · rw [FlashDevice.withScript, hnor.ops]
    rfl

theorem NorDevice.withScript {spi : FlashDevice NorFlash} (hnor : NorDevice spi)
    (script : List Outcome) : NorDevice (spi.withScript script) :=
  ⟨hnor.ops, hnor.writePos, hnor.erasePos⟩

theorem Opened.withScript {spi : FlashDevice NorFlash} (hopen : Opened spi)
    (script : List Outcome) :
    Opened (spi.withScript script) where
  toNorDevice := hopen.toNorDevice.withScript script
  fmap := hopen.fmap
  gbb := hopen.gbb

/-! ## The property and the condition -/

/-- A byte is in a section of the flash's own map. -/
def InSection (spi : FlashDevice NorFlash) (name : Bytes) (i : Nat) : Prop :=
  ∃ fmap area, (flashGetFmap spi).1 = some fmap ∧ fmap.find? name = some area ∧
    area.offset ≤ i ∧ i < area.offset + area.size

/-- However the erases and writes end, only the target partition and the NVRAM of the
flash's own map change. -/
def UpdateConfined (layout : GbbHeaderLayout) (spi : FlashDevice NorFlash) (img : FlashDevice τ)
    (curPart : Char) : Prop :=
  ∀ script res spi', updateRwFw layout (spi.withScript script) img curPart = some (res, spi') →
    ∀ i, ¬ InSection spi (rwName curPart) i → ¬ InSection spi (cstr "RW_NVRAM") i →
      spi'.privData.mem[i]? = spi.privData.mem[i]?

/-- The erase of a range is not refused at once. -/
def EraseStarts (spi : FlashDevice NorFlash) (off len : Nat) : Prop :=
  off % spi.eraseSize = 0 ∧ len % spi.eraseSize = 0 ∧ off + len ≤ spi.privData.mem.length

/-- Where the image's map has the partition, the flash's own map has it too, or the
NVRAM. -/
def ImageSectionFits (spi : FlashDevice NorFlash) (content : Section) (curPart : Char) : Prop :=
  ∀ i, content.offset ≤ i → i < content.offset + content.size →
    InSection spi (rwName curPart) i ∨ InSection spi (cstr "RW_NVRAM") i

/-! ## Copying the partition -/

variable {dev : FlashDevice NorFlash} {off len : Nat}

/-- An erase that is misaligned or leaves the flash returns an error and does nothing. -/
theorem flashErase_refused (hnor : NorDevice dev) (h : ¬ EraseStarts dev off len) :
    ∃ res, res ≠ 0 ∧ flashErase dev off len = some (res, dev) := by
  rw [flashErase, badAlignment_eq hnor.erasePos, Option.bind_eq_bind, Option.bind_some]
  by_cases halign : off % dev.eraseSize = 0 ∧ len % dev.eraseSize = 0
  · have hout : dev.privData.mem.length < off + len :=
      Nat.lt_of_not_le fun hin => h ⟨halign.1, halign.2, hin⟩
    have herase : dev.ops.erase dev.privData off len = (einval, dev.privData) := by
      rw [hnor.ops]
      exact if_pos hout
    rw [if_neg (by rw [decide_eq_true_iff]; exact not_not_intro halign), herase]
    exact ⟨einval, by decide, rfl⟩
  · rw [if_pos (by rw [decide_eq_true_iff]; exact halign)]
    exact ⟨-einval, by decide, rfl⟩

/-- An erase that fails part way. -/
theorem flashErase_fails (hnor : NorDevice dev) (h : EraseStarts dev off len) {code : Int}
    {nonzero : code ≠ 0} {left : Bytes} {script : List Outcome}
    (hscript : dev.privData.script = .fail code nonzero left :: script) :
    ∃ dev', flashErase dev off len = some (code, dev') ∧
      dev'.privData.mem = dev.privData.damage off len left := by
  have herase : dev.ops.erase dev.privData off len =
      (code, { dev.privData with mem := dev.privData.damage off len left, script }) := by
    rw [hnor.ops]
    change dev.privData.erase off len = _
    rw [NorFlash.erase, if_neg (Nat.not_lt.mpr h.2.2), hscript]
  rw [flashErase, badAlignment_eq hnor.erasePos, Option.bind_eq_bind, Option.bind_some,
    if_neg (by rw [decide_eq_true_iff]; exact not_not_intro ⟨h.1, h.2.1⟩), herase]
  exact ⟨_, rfl, rfl⟩

/-- What an erase does to the flash, and the write behind it when the erase succeeds. -/
structure PartitionCopied (dev dev' : FlashDevice NorFlash) (off len : Nat) : Prop where
  step : FlashStep off len dev dev'
  refused : ¬ EraseStarts dev off len → dev' = dev
  damaged : ∀ code nonzero left script, EraseStarts dev off len →
    dev.privData.script = .fail code nonzero left :: script →
    dev'.privData.mem = dev.privData.damage off len left

theorem NorDevice.erase_write_cases (hnor : NorDevice dev) (off : Nat) (data : Bytes) :
    ∃ res dev₁ res₂ dev₂, flashErase dev off data.length = some (res, dev₁) ∧
      flashWrite dev₁ off data = some (res₂, dev₂) ∧
      PartitionCopied dev (if res = 0 then dev₂ else dev₁) off data.length := by
  obtain ⟨res, dev₁, herase, hstep⟩ := hnor.flashErase_step off data.length
  obtain ⟨res₂, dev₂, hwrite, hstep₂⟩ := (hstep.norDevice hnor).flashWrite_step off data
  refine ⟨res, dev₁, res₂, dev₂, herase, hwrite, ?_, fun hnot => ?_,
    fun code nonzero left script hstarts hscript => ?_⟩
  · split
    · exact ⟨by rw [hstep₂.device, hstep.device], hstep.within.trans hstep₂.within⟩
    · exact hstep
  · obtain ⟨res', hne, hres'⟩ := flashErase_refused hnor hnot
    rw [herase] at hres'
    cases hres'
    rw [if_neg hne]
  · obtain ⟨dev', hdev', hmem⟩ := flashErase_fails hnor hstarts hscript
    rw [herase] at hdev'
    cases hdev'
    rw [if_neg nonzero, hmem]

theorem updatePartition_copied {src : FlashDevice τ} {name : Option Bytes} {content : Section}
    (hnor : NorDevice dev) (hread : (fmapReadSection src name).1 = some content) :
    ∃ src' dev', updatePartition src dev name = some (0, src', dev') ∧
      PartitionCopied dev dev' content.offset content.size := by
  obtain ⟨res, dev₁, res₂, dev₂, herase, hwrite, hcopied⟩ :=
    hnor.erase_write_cases content.offset content.data
  rw [length_of_fmapReadSection hread] at herase hcopied
  cases hsection : fmapReadSection src name with
  | mk found src' =>
      rw [hsection] at hread
      dsimp only at hread
      subst hread
      rw [updatePartition, hsection]
      simp only [herase, Option.bind_eq_bind, Option.bind_some, hwrite]
      by_cases hres : res = 0
      · rw [if_pos hres] at hcopied
        rw [if_neg (not_not_intro hres)]
        exact ⟨src', dev₂, rfl, hcopied⟩
      · rw [if_neg hres] at hcopied
        rw [if_pos hres]
        exact ⟨src', dev₁, rfl, hcopied⟩

/-! ## The whole update -/

variable {layout : GbbHeaderLayout} {spi : FlashDevice NorFlash} {img : FlashDevice τ}
  {curPart : Char}

theorem EraseStarts.congr {dev dev' : FlashDevice NorFlash} (h : SameFlash dev dev') :
    EraseStarts dev' off len ↔ EraseStarts dev off len := by
  rw [EraseStarts, EraseStarts, h.eraseSize, h.privData]

/-- The partition is copied, and then only the NVRAM changes. -/
theorem updateRwFw_changes (hopen : Opened spi) {content : Section}
    (hkeys : KeysCompatible layout img spi) (hread : imageSection img curPart = some content) :
    ∃ fmap p spi', (flashGetFmap spi).1 = some fmap ∧
      updateRwFw layout spi img curPart = some (0, spi') ∧
      NorFlash.OnlyWithin content.offset content.size spi.privData p ∧
      (¬ EraseStarts spi content.offset content.size → p = spi.privData) ∧
      (∀ code nonzero left script, EraseStarts spi content.offset content.size →
        spi.privData.script = .fail code nonzero left :: script →
        p.mem = spi.privData.damage content.offset content.size left) ∧
      ∀ off len, ApartFromNvram fmap off len →
        slice spi'.privData.mem off len = slice p.mem off len := by
  obtain ⟨img₁, spi₁, fmap, hcheck, himg, hspi, hload, hfmap⟩ := hkeys.devices hopen
  have hnor : NorDevice spi₁ :=
    ⟨by rw [hspi.ops, hopen.ops], by rw [hspi.writeSize]; exact hopen.writePos,
      by rw [hspi.eraseSize]; exact hopen.erasePos⟩
  have hread₁ : (fmapReadSection img₁ (some (rwName curPart))).1 = some content := by
    rw [himg.fmapReadSection_eq]
    exact hread
  obtain ⟨img₂, spi₂, hupdate, hcopied⟩ := updatePartition_copied hnor hread₁
  have hfmap₂ : spi₂.fmap = some fmap := by rw [hcopied.step.device, hfmap]
  obtain ⟨res₃, spi₃, hset₃, hstep₃⟩ :=
    vbnvSetFlag_step (hcopied.step.norDevice hnor) hfmap₂ "fw_try_next" (tryNext curPart)
  have hfmap₃ : spi₃.fmap = some fmap := by rw [hstep₃.device, hfmap₂]
  obtain ⟨res₄, spi₄, hset₄, hstep₄⟩ :=
    vbnvSetFlag_step (hstep₃.norDevice (hcopied.step.norDevice hnor)) hfmap₃ "try_count" 6#8
  refine ⟨fmap, spi₂.privData, spi₄, hload, ?_, ?_, fun hnot => ?_, ?_, (hstep₃.trans hstep₄).frame⟩
  · simp only [updateRwFw, hcheck, Option.bind_eq_bind, Option.bind_some, if_true, hupdate,
      hset₃, hset₄]
  · rw [← hspi.privData]
    exact hcopied.step.within
  · rw [hcopied.refused fun hstarts => hnot ((EraseStarts.congr hspi).mp hstarts), hspi.privData]
  · intro code nonzero left script hstarts hscript
    rw [hcopied.damaged code nonzero left script ((EraseStarts.congr hspi).mpr hstarts)
      (hspi.privData ▸ hscript), hspi.privData]

/-- One byte of two memories that agree on it. -/
theorem getElem?_of_slice_eq {mem mem' : Bytes} {i : Nat} (h : slice mem' i 1 = slice mem i 1) :
    mem'[i]? = mem[i]? := by
  have hget := congrArg (·[0]?) h
  simpa only [getElem?_slice, Nat.zero_lt_one, if_true, Nat.add_zero] using hget

/-- A byte that is not in the NVRAM. -/
theorem apartFromNvram_of_not {fmap : Fmap} (hload : (flashGetFmap spi).1 = some fmap) {i : Nat}
    (h : ¬ InSection spi (cstr "RW_NVRAM") i) : ApartFromNvram fmap i 1 := by
  intro area harea
  have hnot : ¬ (area.offset ≤ i ∧ i < area.offset + area.size) :=
    fun hboth => h ⟨fmap, area, hload, harea, hboth⟩
  omega

/-- Flip the bits of a range. -/
def flipped (mem : Bytes) (off len : Nat) : Bytes := (slice mem off len).map fun b => ~~~b

theorem getElem?_damage_flipped {p : NorFlash} {i : Nat} (hfits : off + len ≤ p.mem.length)
    (hlow : off ≤ i) (hhigh : i < off + len) :
    (p.damage off len (flipped p.mem off len))[i]? ≠ p.mem[i]? := by
  have hflipped : (flipped p.mem off len).length = len := by
    rw [flipped, List.length_map, length_slice hfits]
  have hdata : (flipped p.mem off len ++ (slice p.mem off len).drop
      (flipped p.mem off len).length).take len = flipped p.mem off len := by
    rw [List.take_append_of_le_length (Nat.le_of_eq hflipped.symm),
      List.take_of_length_le (Nat.le_of_eq hflipped)]
  have hi : i < p.mem.length := by omega
  rw [NorFlash.damage, hdata, getElem?_splice (by rw [hflipped]; exact hfits), hflipped,
    if_pos ⟨hlow, hhigh⟩, flipped, List.getElem?_map, getElem?_slice, if_pos (by omega),
    show off + (i - off) = i by omega, List.getElem?_eq_getElem hi, Option.map_some]
  intro heq
  have hself : ~~~p.mem[i] = p.mem[i] := Option.some.inj heq
  have hbit := congrArg (·.getLsbD 0) hself
  simp at hbit

theorem stopsEarly_withScript (hopen : Opened spi) (script : List Outcome) :
    StopsEarly layout (spi.withScript script) img curPart ↔ StopsEarly layout spi img curPart := by
  rw [StopsEarly, StopsEarly, KeysCompatible, KeysCompatible,
    (sameContent_withScript hopen.toNorDevice script).checkCompatibleKeys_eq]

/-- An update only changes the target partition and the NVRAM exactly when it stops before
it touches the flash, or the erase of the range that the image's map gives is refused, or
that range lies in these sections. -/
theorem updateRwFw_confined_iff (hopen : Opened spi) (img : FlashDevice τ) (curPart : Char) :
    UpdateConfined layout spi img curPart ↔
      StopsEarly layout spi img curPart ∨
        ∃ content, imageSection img curPart = some content ∧
          (EraseStarts spi content.offset content.size → ImageSectionFits spi content curPart) := by
  by_cases hstop : StopsEarly layout spi img curPart
  · refine iff_of_true (fun script res spi' hrun i _ _ => ?_) (Or.inl hstop)
    have hunchanged := (unchanged_of_stopsEarly (hopen.withScript script)
      ((stopsEarly_withScript hopen script).mpr hstop) hrun).2
    rw [hunchanged]
    rfl
  · obtain ⟨content, hread⟩ : ∃ content, imageSection img curPart = some content := by
      cases hread : imageSection img curPart with
      | none => exact absurd (Or.inr hread) hstop
      | some content => exact ⟨content, rfl⟩
    have hkeys : ∀ script, KeysCompatible layout img (spi.withScript script) := by
      intro script
      by_contra hnot
      exact hstop ((stopsEarly_withScript hopen script).mp (Or.inl hnot))
    rw [or_iff_right hstop]
    refine ⟨fun hconfined => ⟨content, hread, fun hstarts i hlow hhigh => ?_⟩,
      fun hcond script res spi' hrun i hslot hnvram => ?_⟩
    · -- an erase that fails and flips every bit of its range
      by_contra hnot
      rw [not_or] at hnot
      obtain ⟨fmap, p, spi', hload, hrun, _, _, hdamaged, hrest⟩ := updateRwFw_changes
        (hopen.withScript [.fail 1 Int.one_ne_zero
          (flipped spi.privData.mem content.offset content.size)])
        (hkeys _) hread
      rw [(sameContent_withScript hopen.toNorDevice _).flashGetFmap_eq] at hload
      have hsame := hconfined _ _ _ hrun i hnot.1 hnot.2
      rw [getElem?_of_slice_eq (hrest i 1 (apartFromNvram_of_not hload hnot.2)),
        hdamaged 1 Int.one_ne_zero _ [] hstarts rfl] at hsame
      exact getElem?_damage_flipped (p := (spi.withScript _).privData) hstarts.2.2 hlow hhigh hsame
    · obtain ⟨content', hread', hfits⟩ := hcond
      rw [hread] at hread'
      cases hread'
      obtain ⟨fmap, p, spi₁, hload, hrun₁, hwithin, hrefused, _, hrest⟩ :=
        updateRwFw_changes (hopen.withScript script) (hkeys script) hread
      rw [hrun] at hrun₁
      cases hrun₁
      rw [(sameContent_withScript hopen.toNorDevice _).flashGetFmap_eq] at hload
      rw [getElem?_of_slice_eq (hrest i 1 (apartFromNvram_of_not hload hnvram))]
      by_cases hstarts : EraseStarts spi content.offset content.size
      · apply getElem?_of_slice_eq
        apply hwithin.frame
        have hnot : ¬ (content.offset ≤ i ∧ i < content.offset + content.size) := by
          intro hboth
          cases hfits hstarts i hboth.1 hboth.2 with
          | inl h => exact hslot h
          | inr h => exact hnvram h
        omega
      · rw [hrefused hstarts]
        rfl

/-! ## An image with another layout -/

/-- An image with the same root key, whose map has `RW_SECTION_B` where the flash has its
read-only block. -/
def mislaidImage : FlashDevice NorFlash :=
  { newImage with
    privData :=
      { newImage.privData with
        mem := splice (splice newImage.privData.mem 144 (List.replicate 16 0x33#8)) 290
          (smallFmapArea 144 16 "RW_SECTION_B") } }

/-- The keys are compatible, and the update writes over the read-only block. -/
theorem updateRwFw_overwrites_read_only :
    KeysCompatible vbootGbbLayout mislaidImage workingSpi ∧
      ¬ UpdateConfined vbootGbbLayout workingSpi mislaidImage 'A' ∧
      InSection workingSpi (cstr "GBB") 144 ∧
      (updateRwFw vbootGbbLayout workingSpi mislaidImage 'A').map
          (fun r => (r.1, r.2.privData.mem[144]?, workingSpi.privData.mem[144]?)) =
        some (0, some 0x33#8, some 0#8) := by
  have hmap : (flashGetFmap workingSpi).1 =
      some (parseFmap (slice workingSpi.privData.mem 192 182)) := by
    decide +kernel
  have hoff : ∀ name area, (parseFmap (slice workingSpi.privData.mem 192 182)).find? name =
      some area → name = rwName 'A' ∨ name = cstr "RW_NVRAM" → area.offset + area.size ≤ 32 := by
    have hslot : ((parseFmap (slice workingSpi.privData.mem 192 182)).find? (rwName 'A')).map
        (fun a => a.offset + a.size) = some 32 := by decide +kernel
    have hnvram : ((parseFmap (slice workingSpi.privData.mem 192 182)).find?
        (cstr "RW_NVRAM")).map (fun a => a.offset + a.size) = some 16 := by decide +kernel
    intro name area hfind hname
    cases hname with
    | inl h =>
        rw [← h, hfind] at hslot
        exact Nat.le_of_eq (Option.some.inj hslot)
    | inr h =>
        rw [← h, hfind] at hnvram
        have hend : area.offset + area.size = 16 := Option.some.inj hnvram
        omega
  have hnot : ∀ name, name = rwName 'A' ∨ name = cstr "RW_NVRAM" →
      ¬ InSection workingSpi name 144 := by
    intro name hname hin
    obtain ⟨fmap, area, hload, hfind, _, hhigh⟩ := hin
    rw [hmap] at hload
    cases hload
    have hend := hoff name area hfind hname
    omega
  have hrun : (updateRwFw vbootGbbLayout workingSpi mislaidImage 'A').map
      (fun r => (r.1, r.2.privData.mem[144]?, workingSpi.privData.mem[144]?)) =
        some (0, some 0x33#8, some 0#8) := by
    decide +kernel
  refine ⟨by unfold KeysCompatible; decide +kernel, fun hconfined => ?_, ?_, hrun⟩
  · obtain ⟨⟨res, spi'⟩, hres, hbytes⟩ := Option.map_eq_some_iff.mp hrun
    have hsame := hconfined [] res spi' hres 144 (hnot _ (Or.inl rfl)) (hnot _ (Or.inr rfl))
    have hnew := congrArg (fun r => r.2.1) hbytes
    have hold := congrArg (fun r => r.2.2) hbytes
    dsimp only at hnew hold
    rw [hnew, hold] at hsame
    cases hsame
  · refine ⟨_, ⟨32, 136, slice (smallFmapArea 32 136 "GBB") 8 32⟩, hmap, by decide +kernel, ?_, ?_⟩
    · exact Nat.le_of_ble_eq_true rfl
    · exact Nat.le_of_ble_eq_true rfl

/-- An image with the flash's own layout is confined. -/
theorem updateRwFw_confined_same_layout : Opened workingSpi ∧
    UpdateConfined vbootGbbLayout workingSpi newImage 'A' := by
  have hopen : Opened workingSpi := smallDevice_opened _ _
  refine ⟨hopen, (updateRwFw_confined_iff hopen newImage 'A').mpr (Or.inr ?_)⟩
  refine ⟨⟨List.replicate 16 0x22#8, 16, 16⟩, by decide +kernel, fun _ i hlow hhigh => Or.inl ?_⟩
  exact ⟨parseFmap (slice workingSpi.privData.mem 192 182),
    ⟨16, 16, slice (smallFmapArea 16 16 "RW_SECTION_B") 8 32⟩, by decide +kernel, by decide +kernel,
    hlow, hhigh⟩

end DragonDevice.Recovery
