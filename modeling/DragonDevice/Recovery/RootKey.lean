/-
  Recovery/RootKey.lean --- which bytes of a Google Binary Block are compared.

  `gbb_get_rootkey` takes the place of the key from the block itself and checks it with a
  32-bit sum.  A sum that wraps passes the check with a place outside the block.
-/
import DragonDevice.Recovery.UpdateFwReport

set_option autoImplicit false

namespace DragonDevice.Recovery

open DragonDevice.Lib

variable {σ τ : Type} {layout : GbbHeaderLayout} {dev : FlashDevice σ} {gbb : Bytes}

/-! ## Sizes -/

/-- The sizes on a device are of type `uint32_t`, or nothing is loaded yet. -/
structure U32Sizes (dev : FlashDevice σ) : Prop where
  gbb : ∀ gbb, dev.gbb = some gbb → gbb.length < 2 ^ 32
  areas : ∀ fmap, dev.fmap = some fmap → ∀ area ∈ fmap.areas, area.size < 2 ^ 32

theorem leNat_lt (bytes : Bytes) : leNat bytes < 256 ^ bytes.length := by
  induction bytes with
  | nil => exact Nat.one_pos
  | cons b rest ih =>
      have hb := b.isLt
      rw [leNat, List.length_cons, Nat.pow_succ]
      omega

/-- A field of four bytes. -/
theorem leNat_slice_lt (bytes : Bytes) (off : Nat) : leNat (slice bytes off 4) < 2 ^ 32 := by
  have hlen : (slice bytes off 4).length ≤ 4 := List.length_take_le 4 _
  calc leNat (slice bytes off 4)
      < 256 ^ (slice bytes off 4).length := leNat_lt _
    _ ≤ 256 ^ 4 := Nat.pow_le_pow_right (by decide) hlen
    _ = 2 ^ 32 := by decide

theorem size_lt_of_parseFmap (bytes : Bytes) :
    ∀ area ∈ (parseFmap bytes).areas, area.size < 2 ^ 32 := by
  intro area harea
  obtain ⟨i, _, rfl⟩ := List.mem_map.mp harea
  exact leNat_slice_lt _ 4

/-- A device as `flash_open` returns it. -/
theorem u32Sizes_of_opened (hfmap : dev.fmap = none) (hgbb : dev.gbb = none) : U32Sizes dev := by
  refine ⟨fun gbb h => ?_, fun fmap h => ?_⟩
  · rw [hgbb] at h
    cases h
  · rw [hfmap] at h
    cases h

/-- The areas of the map that a device has or loads. -/
theorem U32Sizes.flashGetFmap (h : U32Sizes dev) {fmap : Fmap}
    (hload : (flashGetFmap dev).1 = some fmap) : ∀ area ∈ fmap.areas, area.size < 2 ^ 32 := by
  rw [Recovery.flashGetFmap] at hload
  cases hfmap : dev.fmap with
  | some old =>
      rw [hfmap] at hload
      cases hload
      exact h.areas fmap hfmap
  | none =>
      rw [hfmap] at hload
      dsimp only [fmapLoad] at hload
      split at hload
      · cases hload
      · split at hload
        · cases hload
        · split at hload
          · cases hload
          · cases hload
            exact size_lt_of_parseFmap _

/-- The block that a device has or loads. -/
theorem U32Sizes.flashGetGbb (h : U32Sizes dev) (hgbb : (flashGetGbb dev).1 = some gbb) :
    gbb.length < 2 ^ 32 := by
  rw [Recovery.flashGetGbb] at hgbb
  cases hold : dev.gbb with
  | some old =>
      rw [hold] at hgbb
      cases hgbb
      exact h.gbb gbb hold
  | none =>
      rw [hold] at hgbb
      obtain ⟨content, hread, hdata⟩ := Option.map_eq_some_iff.mp hgbb
      have hlen := length_of_fmapReadSection hread
      rw [fmapReadSection_fst, Option.bind_eq_some_iff] at hread
      obtain ⟨fmap, hload, hread⟩ := hread
      obtain ⟨area, hfind, _, hsize, _⟩ := area_of_readSectionOf hread
      have harea := h.flashGetFmap hload area (List.mem_of_find?_eq_some hfind)
      rw [← hdata, hlen, hsize]
      exact harea

/-! ## What is read -/

/-- The fields that are read lie in the header. -/
structure GbbHeaderLayout.Valid (layout : GbbHeaderLayout) : Prop where
  signature : layout.signature.length ≤ layout.sizeof
  rootkeyOffset : layout.rootkeyOffset + 4 ≤ layout.sizeof
  rootkeySize : layout.rootkeySize + 4 ≤ layout.sizeof

/-- The signature agrees and the block has room for a header. -/
def HeaderAccepted (layout : GbbHeaderLayout) (gbb : Bytes) : Prop :=
  slice gbb 0 layout.signature.length = layout.signature ∧ layout.sizeof ≤ gbb.length

instance (layout : GbbHeaderLayout) (gbb : Bytes) : Decidable (HeaderAccepted layout gbb) :=
  inferInstanceAs (Decidable (_ ∧ _))

/-- The ranges of the block that `gbb_get_rootkey` reads: the signature comes before the
size check, and the fields of the key after it. -/
def gbbHeaderReads (layout : GbbHeaderLayout) (gbb : Bytes) : List (Nat × Nat) :=
  (0, layout.signature.length) ::
    if HeaderAccepted layout gbb then [(layout.rootkeyOffset, 4), (layout.rootkeySize, 4)] else []

/-- `hdr->rootkey_offset`. -/
def keyOffset (layout : GbbHeaderLayout) (gbb : Bytes) : Nat :=
  leNat (slice gbb layout.rootkeyOffset 4)

/-- `hdr->rootkey_size`. -/
def keySize (layout : GbbHeaderLayout) (gbb : Bytes) : Nat :=
  leNat (slice gbb layout.rootkeySize 4)

theorem gbbGetRootkey_eq_some {key : Bytes × Nat × Nat} :
    (gbbGetRootkey layout dev).1 = some key ↔
      ∃ gbb, (flashGetGbb dev).1 = some gbb ∧ HeaderAccepted layout gbb ∧
        (keyOffset layout gbb + keySize layout gbb) % 2 ^ 32 ≤ gbb.length ∧
        key = (gbb, keyOffset layout gbb, keySize layout gbb) := by
  rw [gbbGetRootkey]
  generalize flashGetGbb dev = loaded
  obtain ⟨found, dev'⟩ := loaded
  cases found with
  | none =>
      constructor
      · intro h
        cases h
      · intro h
        obtain ⟨gbb, hgbb, _⟩ := h
        cases hgbb
  | some gbb =>
      dsimp only
      constructor
      · intro h
        split at h
        · cases h
        · rename_i haccepted
          rw [not_or, not_not, Nat.not_lt] at haccepted
          split at h
          · cases h
          · rename_i hsum
            cases h
            exact ⟨gbb, rfl, haccepted, Nat.not_lt.mp hsum, rfl⟩
      · intro h
        obtain ⟨gbb', hgbb, haccepted, hsum, hkey⟩ := h
        cases hgbb
        have hnot : ¬ (leNat (slice gbb layout.rootkeyOffset 4) +
            leNat (slice gbb layout.rootkeySize 4)) % 2 ^ 32 > gbb.length := Nat.not_lt.mpr hsum
        rw [if_neg (by rw [not_or, not_not, Nat.not_lt]; exact haccepted), if_neg hnot, hkey]
        rfl

/-! ## The key lies in the block -/

/-- A key that is returned lies in its block, and so do the bytes that decided it. -/
def RootkeyInside (layout : GbbHeaderLayout) (dev : FlashDevice σ) : Prop :=
  ∀ gbb off size, (gbbGetRootkey layout dev).1 = some (gbb, off, size) →
    off + size ≤ gbb.length ∧ ∀ range ∈ gbbHeaderReads layout gbb, range.1 + range.2 ≤ gbb.length

/-- The sum of the offset and the size of the key is not one that wraps to the size of the
block or less. -/
def KeySumFits (layout : GbbHeaderLayout) (dev : FlashDevice σ) : Prop :=
  ∀ gbb, (flashGetGbb dev).1 = some gbb → HeaderAccepted layout gbb →
    ¬ (2 ^ 32 ≤ keyOffset layout gbb + keySize layout gbb ∧
      keyOffset layout gbb + keySize layout gbb ≤ 2 ^ 32 + gbb.length)

/-- The header of a block that is accepted is read inside the block. -/
theorem gbbHeaderReads_inside (hvalid : layout.Valid) (haccepted : HeaderAccepted layout gbb) :
    ∀ range ∈ gbbHeaderReads layout gbb, range.1 + range.2 ≤ gbb.length := by
  have hsize := haccepted.2
  have hsignature := hvalid.signature
  have hoff := hvalid.rootkeyOffset
  have hlen := hvalid.rootkeySize
  intro range hrange
  rw [gbbHeaderReads, if_pos haccepted] at hrange
  simp only [List.mem_cons, List.not_mem_nil, or_false] at hrange
  obtain rfl | rfl | rfl := hrange
  · dsimp only
    omega
  · dsimp only
    omega
  · dsimp only
    omega

theorem rootkeyInside_iff (hvalid : layout.Valid) (hu32 : U32Sizes dev) :
    RootkeyInside layout dev ↔ KeySumFits layout dev := by
  constructor
  · intro hinside gbb hgbb haccepted hwraps
    have hsum : (keyOffset layout gbb + keySize layout gbb) % 2 ^ 32 ≤ gbb.length := by omega
    have hkey := (hinside gbb _ _ (gbbGetRootkey_eq_some.mpr ⟨gbb, hgbb, haccepted, hsum, rfl⟩)).1
    have hlen := hu32.flashGetGbb hgbb
    omega
  · intro hfits gbb off size hkey
    obtain ⟨gbb', hgbb, haccepted, hsum, hkey⟩ := gbbGetRootkey_eq_some.mp hkey
    cases hkey
    refine ⟨?_, gbbHeaderReads_inside hvalid haccepted⟩
    have hfits := hfits gbb hgbb haccepted
    have hoff : keyOffset layout gbb < 2 ^ 32 := leNat_slice_lt _ _
    have hsize : keySize layout gbb < 2 ^ 32 := leNat_slice_lt _ _
    omega

/-- Keys inside their blocks are compared inside them. -/
theorem checkCompatibleKeys_ne_none {img : FlashDevice τ} {spi : FlashDevice σ}
    (himg : RootkeyInside layout img) (hspi : RootkeyInside layout spi) :
    checkCompatibleKeys layout img spi ≠ none := by
  unfold RootkeyInside at himg hspi
  rw [checkCompatibleKeys]
  generalize gbbGetRootkey layout img = imgKey at himg ⊢
  generalize gbbGetRootkey layout spi = spiKey at hspi ⊢
  obtain ⟨imgKey, img₁⟩ := imgKey
  obtain ⟨spiKey, spi₁⟩ := spiKey
  cases imgKey with
  | none => exact Option.some_ne_none _
  | some imgKey =>
      cases spiKey with
      | none => exact Option.some_ne_none _
      | some spiKey =>
          obtain ⟨imgGbb, imgOff, imgSize⟩ := imgKey
          obtain ⟨spiGbb, spiOff, spiSize⟩ := spiKey
          have himg := (himg _ _ _ rfl).1
          have hspi := (hspi _ _ _ rfl).1
          dsimp only
          split
          · exact Option.some_ne_none _
          · rw [if_neg (by omega)]
            exact Option.some_ne_none _

/-- The keys lie in their blocks, and are compared there, exactly when no sum of an accepted
header wraps to the size of its block or less. -/
theorem rootkeys_inside_iff (hvalid : layout.Valid) {img : FlashDevice τ} {spi : FlashDevice σ}
    (himg : U32Sizes img) (hspi : U32Sizes spi) :
    (RootkeyInside layout img ∧ RootkeyInside layout spi ∧
        checkCompatibleKeys layout img spi ≠ none) ↔
      KeySumFits layout img ∧ KeySumFits layout spi := by
  rw [← rootkeyInside_iff hvalid himg, ← rootkeyInside_iff hvalid hspi]
  refine ⟨fun h => ⟨h.1, h.2.1⟩, fun h => ⟨h.1, h.2, ?_⟩⟩
  exact checkCompatibleKeys_ne_none h.1 h.2

theorem vbootGbbLayout_valid : vbootGbbLayout.Valid := ⟨by decide, by decide, by decide⟩

/-- Two flashes with a good block. -/
theorem rootkeys_inside_small :
    RootkeyInside vbootGbbLayout newImage ∧ RootkeyInside vbootGbbLayout workingSpi ∧
      checkCompatibleKeys vbootGbbLayout newImage workingSpi ≠ none := by
  have hfits : ¬ (2 ^ 32 ≤ keyOffset vbootGbbLayout smallGbb + keySize vbootGbbLayout smallGbb ∧
      keyOffset vbootGbbLayout smallGbb + keySize vbootGbbLayout smallGbb ≤
        2 ^ 32 + smallGbb.length) := by decide +kernel
  have hblock : (flashGetGbb newImage).1 = some smallGbb ∧
      (flashGetGbb workingSpi).1 = some smallGbb := by decide +kernel
  refine (rootkeys_inside_iff vbootGbbLayout_valid (u32Sizes_of_opened rfl rfl)
    (u32Sizes_of_opened rfl rfl)).mpr ⟨fun gbb hgbb _ => ?_, fun gbb hgbb _ => ?_⟩
  · rw [Option.some.inj (hgbb.symm.trans hblock.1)]
    exact hfits
  · rw [Option.some.inj (hgbb.symm.trans hblock.2)]
    exact hfits

/-! ## A sum that wraps -/

/-- A flash whose block says that its key has 32 bytes at offset `0xfffffff0`. -/
def wrappingSpi : FlashDevice NorFlash :=
  { workingSpi with
    privData :=
      { workingSpi.privData with
        mem := splice workingSpi.privData.mem 56
          [0xf0#8, 0xff#8, 0xff#8, 0xff#8, 0x20#8, 0#8, 0#8, 0#8] } }

/-- The key is returned, and two such flashes cannot be compared inside their blocks. -/
theorem rootkey_outside_wrapping :
    (gbbGetRootkey vbootGbbLayout wrappingSpi).1.map (fun key => (key.1.length, key.2)) =
        some (136, 0xfffffff0, 0x20) ∧
      ¬ (RootkeyInside vbootGbbLayout wrappingSpi ∧ RootkeyInside vbootGbbLayout wrappingSpi ∧
        checkCompatibleKeys vbootGbbLayout wrappingSpi wrappingSpi ≠ none) ∧
      (checkCompatibleKeys vbootGbbLayout wrappingSpi wrappingSpi).isNone = true := by
  have hkey : (gbbGetRootkey vbootGbbLayout wrappingSpi).1.map
      (fun key => (key.1.length, key.2)) = some (136, 0xfffffff0, 0x20) := by decide +kernel
  refine ⟨hkey, fun h => ?_, by decide +kernel⟩
  obtain ⟨⟨gbb, off, size⟩, hfound, hvalues⟩ := Option.map_eq_some_iff.mp hkey
  have hinside := (h.1 gbb off size hfound).1
  have hlen : gbb.length = 136 := congrArg Prod.fst hvalues
  have hoff : off = 0xfffffff0 := congrArg (·.2.1) hvalues
  omega

end DragonDevice.Recovery
