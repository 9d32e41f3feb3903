/-
  Recovery/FmapDiscovery.lean --- which flash map is found.

  The scan goes down from the last 64-byte boundary before the end and stops at the first
  signature; it ends at zero as well, whether or not a map starts there, and leaves that to
  the check of `fmap_load`.  So the map that is loaded is the highest one.
-/
import Mathlib.Order.Bounds.Basic
import DragonDevice.Recovery.UpdateFwConfined

set_option autoImplicit false

namespace DragonDevice.Recovery

open DragonDevice.Lib

variable {σ : Type} {dev : FlashDevice σ} {mem : Bytes}

/-- The flash holds `mem`: its ranges can be read. -/
def Holds (dev : FlashDevice σ) (mem : Bytes) : Prop :=
  ∀ off len, off + len ≤ mem.length → flashRead dev off len = .ok (slice mem off len)

/-- Nothing can be read that goes past the end. -/
def EndsWith (dev : FlashDevice σ) (mem : Bytes) : Prop :=
  ∀ off len, mem.length < off + len → ∃ code, flashRead dev off len = .error code

/-- A NOR flash holds its content. -/
theorem NorDevice.holds {dev : FlashDevice NorFlash} (hnor : NorDevice dev) :
    Holds dev dev.privData.mem := by
  intro off len hfits
  rw [flashRead, hnor.ops]
  exact if_pos hfits

/-- A NOR flash ends with its content. -/
theorem NorDevice.endsWith {dev : FlashDevice NorFlash} (hnor : NorDevice dev) :
    EndsWith dev dev.privData.mem := by
  intro off len hout
  refine ⟨einval, ?_⟩
  rw [flashRead, hnor.ops]
  exact if_neg (Nat.not_le_of_lt hout)

/-! ## Where a map can be -/

/-- The bytes at `off` start with `FMAP_SIGNATURE`. -/
def SignatureAt (mem : Bytes) (off : Nat) : Prop :=
  slice mem off fmapSignature.length = fmapSignature

instance (mem : Bytes) (off : Nat) : Decidable (SignatureAt mem off) :=
  inferInstanceAs (Decidable (_ = _))

/-- The 64-byte boundaries below `bound` with a signature. -/
def mapOffsets (mem : Bytes) (bound : Nat) : Set Nat :=
  fun off => 64 ∣ off ∧ off < bound ∧ SignatureAt mem off

/-- The map at `off`, with as many areas as its header says, when the flash has all of it. -/
def fmapAt (mem : Bytes) (off : Nat) : Option Fmap :=
  let size := sizeofFmap + fmapNareas (slice mem off sizeofFmap) * sizeofFmapArea
  if off + size ≤ mem.length then some (parseFmap (slice mem off size)) else none

/-! ## The scan -/

/-- One step of the scan, at a boundary that can be read. -/
theorem fmapScanFrom_succ (hdev : Holds dev mem) {k : Nat}
    (hfits : 64 * (k + 1) + fmapSignature.length ≤ mem.length) :
    fmapScanFrom dev (k + 1) =
      if SignatureAt mem (64 * (k + 1)) then 64 * (k + 1) else fmapScanFrom dev k := by
  rw [fmapScanFrom, hdev _ _ hfits]
  rfl

/-- Below one more boundary there is a map there, or one that was there before. -/
theorem mapOffsets_succ {k off : Nat} :
    off ∈ mapOffsets mem (64 * (k + 2)) ↔
      (off = 64 * (k + 1) ∧ SignatureAt mem off) ∨ off ∈ mapOffsets mem (64 * (k + 1)) := by
  constructor
  · intro h
    obtain ⟨⟨j, hj⟩, hlt, hsig⟩ := h
    by_cases htop : off = 64 * (k + 1)
    · exact Or.inl ⟨htop, hsig⟩
    · exact Or.inr ⟨⟨j, hj⟩, by omega, hsig⟩
  · intro h
    cases h with
    | inl htop => exact ⟨⟨k + 1, htop.1⟩, by omega, htop.2⟩
    | inr hold => exact ⟨hold.1, by have := hold.2.1; omega, hold.2.2⟩

/-- The scan ends at the highest signature, or at zero when there is none. -/
theorem fmapScanFrom_spec (hdev : Holds dev mem) :
    ∀ k, 64 * k + fmapSignature.length ≤ mem.length →
      IsGreatest (mapOffsets mem (64 * (k + 1))) (fmapScanFrom dev k) ∨
        (mapOffsets mem (64 * (k + 1)) = ∅ ∧ fmapScanFrom dev k = 0) := by
  intro k
  induction k with
  | zero =>
      intro _
      by_cases hsig : SignatureAt mem 0
      · refine Or.inl ⟨⟨⟨0, rfl⟩, Nat.succ_pos 63, hsig⟩, fun off hoff => ?_⟩
        obtain ⟨⟨j, hj⟩, hlt, _⟩ := hoff
        rw [fmapScanFrom]
        omega
      · refine Or.inr ⟨Set.eq_empty_iff_forall_notMem.mpr fun off hoff => hsig ?_, rfl⟩
        obtain ⟨⟨j, hj⟩, hlt, hoff⟩ := hoff
        rwa [show off = 0 by omega] at hoff
  | succ k ih =>
      intro hfits
      rw [fmapScanFrom_succ hdev hfits]
      split
      · rename_i hsig
        refine Or.inl ⟨mapOffsets_succ.mpr (Or.inl ⟨rfl, hsig⟩), fun off hoff => ?_⟩
        obtain ⟨⟨j, hj⟩, hlt, _⟩ := hoff
        omega
      · rename_i hsig
        have hsame : mapOffsets mem (64 * (k + 2)) = mapOffsets mem (64 * (k + 1)) := by
          ext off
          rw [mapOffsets_succ, or_iff_right]
          intro h
          exact hsig (h.1 ▸ h.2)
        rw [hsame]
        exact ih (by omega)

/-! ## The load -/

/-- Where the header can be read, a map is loaded only if it starts with the signature. -/
theorem fmapLoad_eq (hdev : Holds dev mem) {off : Nat} (hheader : off + sizeofFmap ≤ mem.length) :
    fmapLoad dev off =
      if SignatureAt mem off then
        match flashRead dev off
          (sizeofFmap + fmapNareas (slice mem off sizeofFmap) * sizeofFmapArea) with
        | .error _ => none
        | .ok bytes => some (parseFmap bytes)
      else none := by
  have hsig : slice (slice mem off sizeofFmap) 0 fmapSignature.length =
      slice mem off fmapSignature.length := by
    rw [slice_slice (by decide), Nat.add_zero]
  rw [fmapLoad, hdev _ _ hheader]
  dsimp only
  rw [hsig]
  by_cases hat : SignatureAt mem off
  · rw [if_pos hat, ite_not]
    exact if_pos hat
  · rw [if_neg hat, ite_not]
    exact if_neg hat

/-- A map that lies in the flash is loaded. -/
theorem fmapLoad_of_fmapAt (hdev : Holds dev mem) {off : Nat} {fmap : Fmap}
    (hsig : SignatureAt mem off) (hmap : fmapAt mem off = some fmap) :
    fmapLoad dev off = some fmap := by
  rw [fmapAt] at hmap
  split at hmap
  · rename_i hfits
    rw [fmapLoad_eq hdev (by omega), if_pos hsig, hdev _ _ hfits]
    exact hmap
  · cases hmap

/-- One that is cut off by the end of the flash is not. -/
theorem fmapLoad_of_endsWith (hdev : Holds dev mem) (hend : EndsWith dev mem) {off : Nat}
    (hheader : off + sizeofFmap ≤ mem.length) (hsig : SignatureAt mem off) :
    fmapLoad dev off = fmapAt mem off := by
  cases hmap : fmapAt mem off with
  | some fmap => exact fmapLoad_of_fmapAt hdev hsig hmap
  | none =>
      rw [fmapAt] at hmap
      split at hmap
      · cases hmap
      · rename_i hcut
        obtain ⟨code, hcode⟩ := hend off _ (Nat.lt_of_not_le hcut)
        rw [fmapLoad_eq hdev hheader, if_pos hsig, hcode]

/-- The boundary the scan starts from. -/
theorem fmapScanOffset_eq {fin : Nat} (hlow : 64 ≤ fin) (hhigh : fin < 2 ^ 32) :
    ∃ k, fin - fin % 64 = 64 * (k + 1) ∧ fmapScanOffset dev fin = fmapScanFrom dev k := by
  refine ⟨fin / 64 - 1, by omega, ?_⟩
  rw [fmapScanOffset, show ((fin - fin % 64) % 2 ^ 32 + 2 ^ 32 - 64) % 2 ^ 32 / 64 =
    fin / 64 - 1 by omega]

/-- The map at the highest signature below the last boundary before the end is loaded, when it
lies in the flash, and none when there is no signature.  A map that is cut off is not loaded,
when nothing can be read past the end. -/
theorem fmapLoad_scan_highest (hdev : Holds dev mem) {fin : Nat} (hlow : 64 ≤ fin)
    (hhigh : fin < 2 ^ 32) (hreadable : fin - fin % 64 ≤ mem.length) :
    (∀ off, IsGreatest (mapOffsets mem (fin - fin % 64)) off →
      (∀ fmap, fmapAt mem off = some fmap →
        fmapLoad dev (fmapScanOffset dev fin) = some fmap) ∧
      (EndsWith dev mem → fmapLoad dev (fmapScanOffset dev fin) = fmapAt mem off)) ∧
    (mapOffsets mem (fin - fin % 64) = ∅ →
      fmapLoad dev (fmapScanOffset dev fin) = none) ∧
    (dev.fmap = none → dev.ops.getFmapOffset dev.privData = fin →
      (flashGetFmap dev).1 = fmapLoad dev (fmapScanOffset dev fin)) := by
  obtain ⟨k, hbound, hscan⟩ := @fmapScanOffset_eq _ dev _ hlow hhigh
  have hspec := fmapScanFrom_spec hdev k
    (by have h8 : fmapSignature.length = 8 := rfl; omega)
  have hsize : sizeofFmap ≤ 64 := by decide
  rw [hbound, hscan]
  refine ⟨fun off hgreatest => ?_, fun hnone => ?_, fun hfmap hfin => ?_⟩
  · have hmem := hgreatest.1
    obtain ⟨⟨j, hj⟩, hlt, hsig⟩ := hmem
    cases hspec with
    | inl hfound =>
        rw [hfound.unique hgreatest]
        exact ⟨fun fmap hmap => fmapLoad_of_fmapAt hdev hsig hmap,
          fun hend => fmapLoad_of_endsWith hdev hend (by omega) hsig⟩
    | inr hempty =>
        rw [hempty.1] at hgreatest
        exact absurd hgreatest.1 (Set.notMem_empty off)
  · cases hspec with
    | inl hfound =>
        rw [hnone] at hfound
        exact absurd hfound.1 (Set.notMem_empty _)
    | inr hempty =>
        rw [hempty.2, fmapLoad_eq hdev (by omega), if_neg fun hsig => ?_]
        have hzero : 0 ∈ mapOffsets mem (64 * (k + 1)) := ⟨⟨0, rfl⟩, by omega, hsig⟩
        rw [hnone] at hzero
        exact absurd hzero (Set.notMem_empty 0)
  · rw [flashGetFmap, hfmap, hfin]
    dsimp only
    rw [hscan]

/-- Of the flash of an update, the map at 192 is loaded. -/
theorem fmapLoad_scan_working :
    fmapLoad workingSpi (fmapScanOffset workingSpi 256) = fmapAt workingSpi.privData.mem 192 := by
  have hnor := (smallDevice_opened (List.replicate 16 0x11#8) []).toNorDevice
  refine ((fmapLoad_scan_highest hnor.holds (by decide) (by decide) (by decide +kernel)).1 192
    ⟨⟨⟨3, rfl⟩, by decide, by decide +kernel⟩, ?_⟩).2 hnor.endsWith
  intro off hoff
  obtain ⟨⟨j, hj⟩, hlt, _⟩ := hoff
  omega

end DragonDevice.Recovery
