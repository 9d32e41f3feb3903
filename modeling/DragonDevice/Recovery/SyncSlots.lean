/-
  Recovery/SyncSlots.lean --- `sync_slots` of `recovery/updater/fwtool.cpp`.

  After a boot that went well the slot that runs is copied over the other one.  The offset
  is that of the old slot and the size that of the current one, so the copy stays in the old
  slot, and fills it, only when the two sections of the flash map have one size.
-/
import DragonDevice.Recovery.UpdateFwConfined

set_option autoImplicit false

namespace DragonDevice.Recovery

open DragonDevice.Lib

variable {σ : Type}

/-! ## The function -/

/-- `fmap_get_section_offset`. -/
def fmapGetSectionOffset (dev : FlashDevice σ) (name : Option Bytes) :
    Option Nat × FlashDevice σ :=
  match flashGetFmap dev with
  | (none, dev) => (none, dev)
  | (some fmap, dev) =>
      match name with
      | some name => ((fmap.find? name).map (·.offset), dev)
      | none => (some 0, dev)

/-- An entry of `part_list`. -/
structure SlotPart where
  part : Char
  nameStr : Bytes
  idStr : Bytes

def slotA : SlotPart := ⟨'A', cstr "RW_SECTION_A", cstr "RW_FWID_A"⟩

def slotB : SlotPart := ⟨'B', cstr "RW_SECTION_B", cstr "RW_FWID_B"⟩

/-- The entries at `cur_index` and at `old_index`. -/
def slotsOf (curPart : Char) : Option (SlotPart × SlotPart) :=
  if curPart = slotA.part then some (slotA, slotB)
  else if curPart = slotB.part then some (slotB, slotA)
  else none

/-- `!strncmp` of two buffers of `n` bytes: they agree up to a terminator, or as a whole. -/
def strncmpEq : Bytes → Bytes → Bool
  | a :: as, b :: bs => if a ≠ b then false else if a = 0#8 then true else strncmpEq as bs
  | _, _ => true

/-- The old slot has the firmware of the current one. -/
def alreadySynced (curFwid : Section) : Option Section → Bool
  | none => false
  | some oldFwid =>
      oldFwid.size ≠ 0 && curFwid.size == oldFwid.size && strncmpEq curFwid.data oldFwid.data

/-- How `sync_slots` ends: it returns nothing, but logs a message before each return. -/
inductive SyncEnd where
  | unexpectedPart
  | currentFwidUnread
  | alreadySynced
  | currentSlotUnread
  | oldOffsetUnread
  | eraseFailed
  | updateFailed
  | complete
  deriving DecidableEq, Repr

/-- The second half, for slots that differ. -/
def copySlot (dev : FlashDevice σ) (cur old : SlotPart) : Option (SyncEnd × FlashDevice σ) :=
  match fmapReadSection dev (some cur.nameStr) with
  | (none, dev) => some (.currentSlotUnread, dev)
  | (some curSection, dev) =>
      match fmapGetSectionOffset dev (some old.nameStr) with
      | (none, dev) => some (.oldOffsetUnread, dev)
      | (some oldOffset, dev) => do
          let (res, dev) ← flashErase dev oldOffset curSection.size
          if res ≠ 0 then some (.eraseFailed, dev)
          else
            let (res, dev) ← flashWrite dev oldOffset curSection.data
            some (if res ≠ 0 then .updateFailed else .complete, dev)

/-- `sync_slots` on an open device. -/
def syncSlots (dev : FlashDevice σ) (curPart : Char) : Option (SyncEnd × FlashDevice σ) :=
  match slotsOf curPart with
  | none => some (.unexpectedPart, dev)
  | some (cur, old) =>
      match fmapReadSection dev (some cur.idStr) with
      | (none, dev) => some (.currentFwidUnread, dev)
      | (some curFwid, dev) =>
          if curFwid.size = 0 then some (.currentFwidUnread, dev)
          else
            let (oldFwid, dev) := fmapReadSection dev (some old.idStr)
            if alreadySynced curFwid oldFwid then some (.alreadySynced, dev)
            else copySlot dev cur old

/-! ## The property and the condition -/

/-- The bytes of a section, where the flash's own map has it. -/
def sectionBytes (spi : FlashDevice NorFlash) (mem : Bytes) (name : Bytes) : Option Bytes :=
  ((flashGetFmap spi).1.bind (·.find? name)).bind fun area =>
    if area.offset + area.size ≤ mem.length then some (slice mem area.offset area.size) else none

/-- However the erase and the write end, only the old slot changes, and a copy that is
complete leaves the content of the current slot there. -/
def SyncConfined (spi : FlashDevice NorFlash) (curPart : Char) (cur old : SlotPart) : Prop :=
  ∀ script done spi', syncSlots (spi.withScript script) curPart = some (done, spi') →
    (∀ i, ¬ InSection spi old.nameStr i → spi'.privData.mem[i]? = spi.privData.mem[i]?) ∧
    (done = .complete → sectionBytes spi spi'.privData.mem old.nameStr =
      sectionBytes spi spi.privData.mem cur.nameStr)

/-- The firmware of the current slot is known, and the old slot does not have it. -/
def FwidsDiffer (dev : FlashDevice σ) (cur old : SlotPart) : Prop :=
  ∃ curFwid, (fmapReadSection dev (some cur.idStr)).1 = some curFwid ∧ curFwid.size ≠ 0 ∧
    alreadySynced curFwid (fmapReadSection dev (some old.idStr)).1 = false

/-- The copy gets as far as the erase: what is copied, and the area of the old slot. -/
structure CopyBegins (dev : FlashDevice σ) (cur old : SlotPart) (content : Section)
    (area : FmapArea) : Prop where
  fwids : FwidsDiffer dev cur old
  content : (fmapReadSection dev (some cur.nameStr)).1 = some content
  area : (flashGetFmap dev).1.bind (·.find? old.nameStr) = some area

/-- The write of a range is not refused at once. -/
def WriteAligned (spi : FlashDevice NorFlash) (off len : Nat) : Prop :=
  off % spi.writeSize = 0 ∧ len % spi.writeSize = 0

/-- A copy whose erase starts has the size of the old slot, or a smaller one and a write that
is refused. -/
def SlotSizesAgree (spi : FlashDevice NorFlash) (cur old : SlotPart) : Prop :=
  ∀ content area, CopyBegins spi cur old content area →
    EraseStarts spi area.offset content.size →
      content.size = area.size ∨
        (content.size < area.size ∧ ¬ WriteAligned spi area.offset content.size)

/-! ## The reads leave the flash alone -/

variable {dev dev' : FlashDevice σ} {cur old : SlotPart} {content : Section} {area : FmapArea}

theorem fmapGetSectionOffset_eq (dev : FlashDevice σ) (name : Bytes) :
    fmapGetSectionOffset dev (some name) =
      (((flashGetFmap dev).1.bind (·.find? name)).map (·.offset), (flashGetFmap dev).2) := by
  rw [fmapGetSectionOffset]
  obtain ⟨fmap, dev'⟩ := flashGetFmap dev
  cases fmap with
  | none => rfl
  | some fmap => rfl

theorem sameFlash_flashGetFmap (dev : FlashDevice σ) : SameFlash dev (flashGetFmap dev).2 := by
  rw [flashGetFmap_snd]
  exact ⟨rfl, rfl, rfl, rfl, flashGetFmap_loaded dev dev.gbb⟩

/-- Where a copy begins depends on what is read alone. -/
theorem CopyBegins.congr (h : CopyBegins dev cur old content area)
    (hread : ∀ name, (fmapReadSection dev' name).1 = (fmapReadSection dev name).1)
    (hfmap : (flashGetFmap dev').1 = (flashGetFmap dev).1) :
    CopyBegins dev' cur old content area := by
  obtain ⟨⟨curFwid, hfwid, hsize, hdiffer⟩, hcontent, harea⟩ := h
  exact ⟨⟨curFwid, by rw [hread, hfwid], hsize, by rw [hread, hdiffer]⟩, by rw [hread, hcontent],
    by rw [hfmap, harea]⟩

/-! ## The copy -/

section Copy

variable {spi spi' : FlashDevice NorFlash} {curPart : Char}

/-- What the copy of `data` to `off` does to the flash. -/
structure SlotCopied (spi : FlashDevice NorFlash) (off : Nat) (data : Bytes) (done : SyncEnd)
    (spi' : FlashDevice NorFlash) : Prop where
  within : NorFlash.OnlyWithin off data.length spi.privData spi'.privData
  refused : ¬ EraseStarts spi off data.length → spi'.privData = spi.privData
  damaged : ∀ code nonzero left script, EraseStarts spi off data.length →
    spi.privData.script = .fail code nonzero left :: script →
    spi'.privData.mem = spi.privData.damage off data.length left
  complete : done = .complete ↔ RangeWritable spi off data.length
  copied : done = .complete → spi'.privData.mem = splice spi.privData.mem off data

/-- A copy from a device on which more is loaded is one from the device itself. -/
theorem SlotCopied.of_sameFlash {base : FlashDevice NorFlash} {off : Nat} {data : Bytes}
    {done : SyncEnd} (h : SlotCopied base off data done spi') (hsame : SameFlash spi base) :
    SlotCopied spi off data done spi' := by
  have hpriv := hsame.privData
  refine ⟨hpriv ▸ h.within, fun hnot => ?_, fun code nonzero left script hstarts hscript => ?_,
    ?_, fun hdone => ?_⟩
  · rw [h.refused fun hstarts => hnot ((EraseStarts.congr hsame).mp hstarts), hpriv]
  · rw [h.damaged code nonzero left script ((EraseStarts.congr hsame).mpr hstarts)
      (hpriv ▸ hscript), hpriv]
  · rw [h.complete]
    exact RangeWritable.congr hsame
  · rw [h.copied hdone, hpriv]

/-- The erase and the write at the end of `sync_slots`. -/
theorem slotCopied_of_erase_write {base : FlashDevice NorFlash} (hnor : NorDevice base)
    (off : Nat) (data : Bytes) :
    ∃ done spi', (do
        let (res, dev) ← flashErase base off data.length
        if res ≠ 0 then some (SyncEnd.eraseFailed, dev)
        else
          let (res, dev) ← flashWrite dev off data
          some (if res ≠ 0 then .updateFailed else .complete, dev)) = some (done, spi') ∧
      SlotCopied base off data done spi' := by
  obtain ⟨res, dev₁, res₂, dev₂, herase, hwrite, hcopied⟩ := hnor.erase_write_cases off data
  have hwritable : RangeWritable base off data.length ↔ res = 0 ∧ res₂ = 0 := by
    rw [rangeWritable_iff hnor, herase]
    constructor
    · intro h
      obtain ⟨dev₁', dev₂', herase', hwrite'⟩ := h
      cases herase'
      rw [hwrite] at hwrite'
      cases hwrite'
      exact ⟨rfl, rfl⟩
    · intro h
      exact ⟨dev₁, dev₂, by rw [h.1], by rw [hwrite, h.2]⟩
  have hmem : RangeWritable base off data.length →
      dev₂.privData.mem = splice base.privData.mem off data := by
    intro h
    obtain ⟨dev₁', dev₂', herase', hwrite', _, hmem⟩ := h.erase_write hnor
    rw [herase] at herase'
    cases herase'
    rw [hwrite] at hwrite'
    cases hwrite'
    exact hmem
  simp only [herase, Option.bind_eq_bind, Option.bind_some, hwrite]
  by_cases hres : res = 0
  · rw [if_pos hres] at hcopied
    rw [if_neg (not_not_intro hres)]
    refine ⟨_, dev₂, rfl, hcopied.step.within, fun hnot => by rw [hcopied.refused hnot],
      hcopied.damaged, ?_, fun hdone => hmem (hwritable.mpr ⟨hres, ?_⟩)⟩
    · rw [hwritable]
      by_cases hres₂ : res₂ = 0
      · simp [hres, hres₂]
      · simp [hres₂]
    · by_contra hres₂
      rw [if_pos hres₂] at hdone
      cases hdone
  · rw [if_neg hres] at hcopied
    rw [if_pos hres]
    refine ⟨_, dev₁, rfl, hcopied.step.within, fun hnot => by rw [hcopied.refused hnot],
      hcopied.damaged, ?_, fun hdone => nomatch hdone⟩
    rw [hwritable]
    exact ⟨fun hdone => (nomatch hdone), fun h => absurd h.1 hres⟩

/-- From the second half on, with the section and the area found. -/
theorem copySlot_of_found (hnor : NorDevice spi)
    (hcontent : (fmapReadSection spi (some cur.nameStr)).1 = some content)
    (harea : (flashGetFmap spi).1.bind (·.find? old.nameStr) = some area) :
    ∃ done spi', copySlot spi cur old = some (done, spi') ∧
      SlotCopied spi area.offset content.data done spi' := by
  have hlen := length_of_fmapReadSection hcontent
  have hread := sameFlash_fmapReadSection spi (some cur.nameStr)
  generalize hfound : fmapReadSection spi (some cur.nameStr) = found at hcontent hread
  obtain ⟨sec, base⟩ := found
  dsimp only at hcontent hread
  subst hcontent
  have hsame := hread.trans (sameFlash_flashGetFmap base)
  have hbase : NorDevice (flashGetFmap base).2 :=
    ⟨by rw [hsame.ops, hnor.ops], by rw [hsame.writeSize]; exact hnor.writePos,
      by rw [hsame.eraseSize]; exact hnor.erasePos⟩
  obtain ⟨done, spi', hrun, hcopied⟩ := slotCopied_of_erase_write hbase area.offset content.data
  rw [hlen] at hrun
  refine ⟨done, spi', ?_, hcopied.of_sameFlash hsame⟩
  rw [copySlot, hfound]
  dsimp only
  rw [fmapGetSectionOffset_eq, hread.fmap, harea]
  exact hrun

/-- The second half without the section or the area. -/
theorem copySlot_of_not_found
    (h : ∀ content area, (fmapReadSection spi (some cur.nameStr)).1 = some content →
      (flashGetFmap spi).1.bind (·.find? old.nameStr) ≠ some area) :
    ∃ done spi', copySlot spi cur old = some (done, spi') ∧ done ≠ .complete ∧
      spi'.privData = spi.privData := by
  have hread := sameFlash_fmapReadSection spi (some cur.nameStr)
  rw [copySlot]
  generalize fmapReadSection spi (some cur.nameStr) = found at h hread ⊢
  obtain ⟨sec, base⟩ := found
  cases sec with
  | none => exact ⟨_, base, rfl, by decide, hread.privData⟩
  | some content =>
      dsimp only at hread ⊢
      have hnone : (flashGetFmap base).1.bind (·.find? old.nameStr) = none := by
        rw [hread.fmap]
        exact Option.eq_none_iff_forall_ne_some.mpr fun area => h content area rfl
      rw [fmapGetSectionOffset_eq, hnone]
      exact ⟨_, _, rfl, by decide,
        (sameFlash_flashGetFmap base).privData.trans hread.privData⟩

theorem syncSlots_cases (hnor : NorDevice spi) (hslots : slotsOf curPart = some (cur, old)) :
    ∃ done spi', syncSlots spi curPart = some (done, spi') ∧
      ((∃ content area, CopyBegins spi cur old content area ∧
          SlotCopied spi area.offset content.data done spi') ∨
        ((∀ content area, ¬ CopyBegins spi cur old content area) ∧ done ≠ .complete ∧
          spi'.privData = spi.privData)) := by
  have hcur := sameFlash_fmapReadSection spi (some cur.idStr)
  rw [syncSlots, hslots]
  dsimp only
  generalize hfound : fmapReadSection spi (some cur.idStr) = found at hcur ⊢
  obtain ⟨fwid, dev₁⟩ := found
  have hfwid : ∀ content area, CopyBegins spi cur old content area → ∃ curFwid,
      fwid = some curFwid ∧ curFwid.size ≠ 0 ∧
        alreadySynced curFwid (fmapReadSection spi (some old.idStr)).1 = false := by
    intro content area hbegins
    have hdiffer := hbegins.fwids
    rw [FwidsDiffer, hfound] at hdiffer
    exact hdiffer
  cases fwid with
  | none =>
      refine ⟨_, dev₁, rfl, Or.inr ⟨fun content area hbegins => ?_, by decide, hcur.privData⟩⟩
      obtain ⟨curFwid, hnone, _⟩ := hfwid content area hbegins
      cases hnone
  | some curFwid =>
      dsimp only at hcur ⊢
      by_cases hsize : curFwid.size = 0
      · rw [if_pos hsize]
        refine ⟨_, dev₁, rfl, Or.inr ⟨fun content area hbegins => ?_, by decide, hcur.privData⟩⟩
        obtain ⟨_, hsome, hne, _⟩ := hfwid content area hbegins
        cases hsome
        exact hne hsize
      · rw [if_neg hsize]
        have hold := hcur.trans (sameFlash_fmapReadSection dev₁ (some old.idStr))
        rw [hcur.fmapReadSection_eq]
        generalize (fmapReadSection dev₁ (some old.idStr)).2 = dev₂ at hold ⊢
        cases hsynced : alreadySynced curFwid (fmapReadSection spi (some old.idStr)).1 with
        | true =>
            refine ⟨_, dev₂, rfl, Or.inr ⟨fun content area hbegins => ?_, by decide,
              hold.privData⟩⟩
            obtain ⟨_, hsome, _, hdiffer⟩ := hfwid content area hbegins
            cases hsome
            rw [hsynced] at hdiffer
            cases hdiffer
        | false =>
            have hdiffer : FwidsDiffer spi cur old :=
              ⟨curFwid, by rw [hfound], hsize, hsynced⟩
            have hnor₂ : NorDevice dev₂ :=
              ⟨by rw [hold.ops, hnor.ops], by rw [hold.writeSize]; exact hnor.writePos,
                by rw [hold.eraseSize]; exact hnor.erasePos⟩
            by_cases hbegins : ∃ content area, CopyBegins spi cur old content area
            · obtain ⟨content, area, hbegins⟩ := hbegins
              obtain ⟨done, spi', hrun, hcopied⟩ := copySlot_of_found hnor₂
                (by rw [hold.fmapReadSection_eq, hbegins.content])
                (by rw [hold.fmap, hbegins.area])
              exact ⟨done, spi', hrun, Or.inl ⟨content, area, hbegins,
                hcopied.of_sameFlash hold⟩⟩
            · have hnone : ∀ content area,
                  (fmapReadSection dev₂ (some cur.nameStr)).1 = some content →
                  (flashGetFmap dev₂).1.bind (·.find? old.nameStr) ≠ some area :=
                fun content area hcontent harea => hbegins
                  ⟨content, area, hdiffer, by rw [← hold.fmapReadSection_eq, hcontent],
                    by rw [← hold.fmap, harea]⟩
              obtain ⟨done, spi', hrun, hne, hpriv⟩ := copySlot_of_not_found hnone
              exact ⟨done, spi', hrun, Or.inr ⟨fun content area h => hbegins ⟨content, area, h⟩,
                hne, hpriv.trans hold.privData⟩⟩

/-! ## Where the copy stays in the old slot -/

theorem copyBegins_withScript (hnor : NorDevice spi) (script : List Outcome) :
    CopyBegins (spi.withScript script) cur old content area ↔
      CopyBegins spi cur old content area := by
  have hsame := sameContent_withScript hnor script
  exact ⟨fun h => h.congr (fun name => (hsame.fmapReadSection_eq name).symm)
      hsame.flashGetFmap_eq.symm,
    fun h => h.congr hsame.fmapReadSection_eq hsame.flashGetFmap_eq⟩

theorem CopyBegins.inSection_iff (h : CopyBegins spi cur old content area) {i : Nat} :
    InSection spi old.nameStr i ↔ area.offset ≤ i ∧ i < area.offset + area.size := by
  obtain ⟨fmap, hload, hfind⟩ := Option.bind_eq_some_iff.mp h.area
  constructor
  · intro hin
    obtain ⟨fmap', area', hload', hfind', hrange⟩ := hin
    rw [hload] at hload'
    cases hload'
    rw [hfind] at hfind'
    cases hfind'
    exact hrange
  · intro hrange
    exact ⟨fmap, area, hload, hfind, hrange⟩

/-- What is copied is the content of the current slot. -/
theorem CopyBegins.sectionBytes_cur (hnor : NorDevice spi)
    (h : CopyBegins spi cur old content area) :
    sectionBytes spi spi.privData.mem cur.nameStr = some content.data := by
  have hcontent := h.content
  rw [fmapReadSection_fst, Option.bind_eq_some_iff] at hcontent
  obtain ⟨fmap, hload, hread⟩ := hcontent
  obtain ⟨curArea, hfind, _, _, hdata⟩ := area_of_readSectionOf hread
  rw [flashRead, hnor.ops] at hdata
  change spi.privData.read curArea.offset curArea.size = _ at hdata
  rw [NorFlash.read] at hdata
  rw [sectionBytes, hload, Option.bind_some, hfind, Option.bind_some]
  split at hdata
  · rename_i hfits
    rw [if_pos hfits, Except.ok.inj hdata]
  · cases hdata

theorem CopyBegins.sectionBytes_old (h : CopyBegins spi cur old content area) (mem : Bytes) :
    sectionBytes spi mem old.nameStr =
      if area.offset + area.size ≤ mem.length then some (slice mem area.offset area.size)
      else none := by
  rw [sectionBytes, h.area, Option.bind_some]

/-- A copy that begins is made, however the erase and the write end. -/
theorem CopyBegins.run (hnor : NorDevice spi) (hslots : slotsOf curPart = some (cur, old))
    (hbegins : CopyBegins spi cur old content area) (script : List Outcome) :
    ∃ done spi', syncSlots (spi.withScript script) curPart = some (done, spi') ∧
      SlotCopied (spi.withScript script) area.offset content.data done spi' := by
  obtain ⟨done, spi', hrun, hcases⟩ := syncSlots_cases (hnor.withScript script) hslots
  have hbegins := (copyBegins_withScript hnor script).mpr hbegins
  cases hcases with
  | inl hcopied =>
      obtain ⟨content', area', hbegins', hcopied⟩ := hcopied
      have hcontent := hbegins.content.symm.trans hbegins'.content
      have harea := hbegins.area.symm.trans hbegins'.area
      cases hcontent
      cases harea
      exact ⟨done, spi', hrun, hcopied⟩
  | inr hstops => exact absurd hbegins (hstops.1 content area)

/-- An erase that fails and flips every bit of its range shows where the copy goes. -/
theorem SyncConfined.size_le (hnor : NorDevice spi) (hslots : slotsOf curPart = some (cur, old))
    (hconfined : SyncConfined spi curPart cur old) (hbegins : CopyBegins spi cur old content area)
    (hstarts : EraseStarts spi area.offset content.size) : content.size ≤ area.size := by
  have hlen := length_of_fmapReadSection hbegins.content
  by_contra hlt
  obtain ⟨done, spi', hsync, hcopied⟩ := hbegins.run hnor hslots [.fail 1 Int.one_ne_zero
    (flipped spi.privData.mem area.offset content.size)]
  have hmem := hcopied.damaged 1 Int.one_ne_zero _ [] (by rw [hlen]; exact hstarts) rfl
  rw [hlen] at hmem
  have hsame := (hconfined _ done spi' hsync).1 (area.offset + area.size) fun hin =>
    Nat.lt_irrefl _ (hbegins.inSection_iff.mp hin).2
  rw [hmem] at hsame
  exact getElem?_damage_flipped (p := (spi.withScript _).privData) hstarts.2.2
    (Nat.le_add_right _ _) (by omega) hsame

/-- When nothing fails, the old slot gets as many bytes as the current one has. -/
theorem SyncConfined.size_eq (hnor : NorDevice spi) (hslots : slotsOf curPart = some (cur, old))
    (hconfined : SyncConfined spi curPart cur old) (hbegins : CopyBegins spi cur old content area)
    (hstarts : EraseStarts spi area.offset content.size)
    (haligned : WriteAligned spi area.offset content.size) : content.size = area.size := by
  have hlen := length_of_fmapReadSection hbegins.content
  obtain ⟨done, spi', hsync, hcopied⟩ := hbegins.run hnor hslots []
  have hdone : done = .complete := hcopied.complete.mpr
    ⟨by rw [hlen]; exact hstarts.2.2, by rw [hlen]; exact ⟨hstarts.1, hstarts.2.1⟩,
      by rw [hlen]; exact haligned, rfl, rfl⟩
  have hbytes := (hconfined [] done spi' hsync).2 hdone
  rw [hbegins.sectionBytes_cur hnor, hbegins.sectionBytes_old] at hbytes
  split at hbytes
  · rename_i hfits
    have hslice := congrArg List.length (Option.some.inj hbytes)
    rw [length_slice hfits, hlen] at hslice
    exact hslice.symm
  · cases hbytes

/-- A copy whose erase starts, into a slot of a size that agrees. -/
theorem SlotCopied.confined (hnor : NorDevice spi) {script : List Outcome} {done : SyncEnd}
    (hbegins : CopyBegins spi cur old content area)
    (hcopied : SlotCopied (spi.withScript script) area.offset content.data done spi')
    (hsizes : content.size = area.size ∨
      (content.size < area.size ∧ ¬ WriteAligned spi area.offset content.size)) :
    (∀ i, ¬ InSection spi old.nameStr i → spi'.privData.mem[i]? = spi.privData.mem[i]?) ∧
      (done = .complete → sectionBytes spi spi'.privData.mem old.nameStr =
        sectionBytes spi spi.privData.mem cur.nameStr) := by
  have hlen := length_of_fmapReadSection hbegins.content
  refine ⟨fun i hout => ?_, fun hdone => ?_⟩
  · rw [hbegins.inSection_iff] at hout
    have hframe := hcopied.within.frame i 1 (by omega)
    exact getElem?_of_slice_eq hframe
  · have hwritable := hcopied.complete.mp hdone
    have haligned : WriteAligned spi area.offset content.size := hlen ▸ hwritable.writeAligned
    have heq : content.size = area.size := hsizes.resolve_right fun h => h.2 haligned
    have hfits : area.offset + content.data.length ≤ spi.privData.mem.length :=
      hwritable.inside
    rw [hbegins.sectionBytes_cur hnor, hbegins.sectionBytes_old, hcopied.copied hdone]
    change (if _ ≤ (splice spi.privData.mem area.offset content.data).length then
      some (slice (splice spi.privData.mem area.offset content.data) _ _) else none) = _
    rw [length_splice hfits, ← heq, ← hlen, if_pos hfits, slice_splice_self hfits]

/-- A copy whose erase is refused changes nothing. -/
theorem SlotCopied.unchanged {script : List Outcome} {off : Nat} {data : Bytes} {done : SyncEnd}
    (hcopied : SlotCopied (spi.withScript script) off data done spi')
    (hrefused : ¬ EraseStarts spi off data.length) :
    spi'.privData.mem = spi.privData.mem ∧ done ≠ .complete := by
  have hrefused : ¬ EraseStarts (spi.withScript script) off data.length := hrefused
  refine ⟨by rw [hcopied.refused hrefused]; rfl, fun hdone => ?_⟩
  have hwritable := hcopied.complete.mp hdone
  exact hrefused ⟨hwritable.eraseAligned.1, hwritable.eraseAligned.2, hwritable.inside⟩

/-- The copy stays in the old slot and fills it exactly when, wherever its erase starts, the
two sections have one size, or the old one is larger and the write is refused. -/
theorem syncSlots_confined_iff (hnor : NorDevice spi)
    (hslots : slotsOf curPart = some (cur, old)) :
    SyncConfined spi curPart cur old ↔ SlotSizesAgree spi cur old := by
  constructor
  · intro hconfined content area hbegins hstarts
    have hle := hconfined.size_le hnor hslots hbegins hstarts
    by_cases haligned : WriteAligned spi area.offset content.size
    · exact Or.inl (hconfined.size_eq hnor hslots hbegins hstarts haligned)
    · by_cases heq : content.size = area.size
      · exact Or.inl heq
      · exact Or.inr ⟨Nat.lt_of_le_of_ne hle heq, haligned⟩
  · intro hagree script done spi' hsync
    obtain ⟨done', spi'', hsync', hcases⟩ := syncSlots_cases (hnor.withScript script) hslots
    rw [hsync] at hsync'
    cases hsync'
    cases hcases with
    | inr hstops =>
        refine ⟨fun i _ => ?_, fun hdone => absurd hdone hstops.2.1⟩
        rw [hstops.2.2]
        rfl
    | inl hcopied =>
        obtain ⟨content, area, hbegins, hcopied⟩ := hcopied
        have hbegins := (copyBegins_withScript hnor script).mp hbegins
        by_cases hstarts : EraseStarts spi area.offset content.size
        · exact hcopied.confined hnor hbegins (hagree content area hbegins hstarts)
        · obtain ⟨hsame, hdone⟩ := hcopied.unchanged
            (by rw [length_of_fmapReadSection hbegins.content]; exact hstarts)
          exact ⟨fun i _ => by rw [hsame], fun h => absurd h hdone⟩

end Copy

/-! ## Slots of two sizes -/

/-- The fwid of slot A, the slots, a block behind them, and a map of the four at 64. -/
def slotFlash (sizeA sizeB : Nat) : Bytes :=
  [0x31#8, 0#8, 0#8, 0#8] ++ List.replicate 12 0xff#8 ++ List.replicate sizeA 0x22#8 ++
    List.replicate (48 - sizeA) 0x11#8 ++
    fmapSignature ++ List.replicate 46 0#8 ++ [4#8, 0#8] ++
    smallFmapArea 0 4 "RW_FWID_A" ++ smallFmapArea 16 sizeA "RW_SECTION_A" ++
    smallFmapArea (16 + sizeA) sizeB "RW_SECTION_B" ++
    smallFmapArea (16 + sizeA + sizeB) 8 "GBB"

def slotDevice (sizeA sizeB : Nat) : FlashDevice NorFlash where
  ops := NorFlash.ops
  privData := ⟨slotFlash sizeA sizeB, [], 128, []⟩
  fmap := none
  gbb := none
  writeSize := 1
  eraseSize := 4

theorem slotDevice_norDevice (sizeA sizeB : Nat) : NorDevice (slotDevice sizeA sizeB) :=
  ⟨rfl, Nat.one_pos, Nat.succ_pos 3⟩

theorem slotsOf_A : slotsOf 'A' = some (slotA, slotB) := rfl

/-- With a slot B of half the size the copy of slot A goes on over the block behind it. -/
theorem syncSlots_overwrites_block :
    ¬ SyncConfined (slotDevice 16 8) 'A' slotA slotB ∧
      sectionBytes (slotDevice 16 8) (slotDevice 16 8).privData.mem (cstr "GBB") =
        some (List.replicate 8 0x11#8) ∧
      (syncSlots (slotDevice 16 8) 'A').map (fun r => (r.1,
          sectionBytes (slotDevice 16 8) r.2.privData.mem (cstr "GBB"))) =
        some (.complete, some (List.replicate 8 0x22#8)) := by
  have hrun : (syncSlots (slotDevice 16 8) 'A').map (fun r => (r.1,
      sectionBytes (slotDevice 16 8) r.2.privData.mem slotB.nameStr,
      sectionBytes (slotDevice 16 8) (slotDevice 16 8).privData.mem slotA.nameStr)) =
      some (.complete, some (List.replicate 8 0x22#8), some (List.replicate 16 0x22#8)) := by
    decide +kernel
  refine ⟨fun hconfined => ?_, by decide +kernel, by decide +kernel⟩
  obtain ⟨⟨done, spi'⟩, hsync, hvalues⟩ := Option.map_eq_some_iff.mp hrun
  have hdone : done = .complete := congrArg Prod.fst hvalues
  have hold := congrArg (·.2.1) hvalues
  have hcur := congrArg (·.2.2) hvalues
  have hbytes := (hconfined [] done spi' hsync).2 hdone
  dsimp only at hold hcur
  rw [hold, hcur] at hbytes
  exact absurd hbytes (by decide)

/-- With slots of one size the copy stays in slot B. -/
theorem syncSlots_confined_equal : NorDevice (slotDevice 16 16) ∧
    slotsOf 'A' = some (slotA, slotB) ∧ SyncConfined (slotDevice 16 16) 'A' slotA slotB := by
  have hnor := slotDevice_norDevice 16 16
  refine ⟨hnor, slotsOf_A, (syncSlots_confined_iff hnor slotsOf_A).mpr ?_⟩
  intro content area hbegins _
  have hsizes : (fmapReadSection (slotDevice 16 16) (some slotA.nameStr)).1.map (·.size) =
      some 16 ∧ ((flashGetFmap (slotDevice 16 16)).1.bind (·.find? slotB.nameStr)).map (·.size) =
      some 16 := by decide +kernel
  rw [hbegins.content, hbegins.area] at hsizes
  exact Or.inl (Option.some.inj (hsizes.1.trans hsizes.2.symm))

end DragonDevice.Recovery
