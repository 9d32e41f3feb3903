/-
  Recovery/BackendsContract.lean --- where the backends act like one flash.

  The file backend checks the end of a range as a signed number, and the flash layer the
  alignment.  `flash_contract_iff` puts the three backends together.
-/
import DragonDevice.Recovery.EcContract

set_option autoImplicit false

namespace DragonDevice.Recovery.Backend

open DragonDevice.Lib

variable {dev : Device} {off : Int} {len : Nat}

/-! ## The file backend -/

section File

variable (file : FileData)

/-- An access that returns was safe: any other is a fault. -/
theorem fileSafe_of_returned {σ : Type} {old new s : σ} {res : Int}
    (hrun : fileAccess file off len old new = .returned res s) : FileSafe (.file file) off len := by
  have hlength : file.content.length = (Device.file file).getSize :=
    (Device.file file).content_length
  have hsize : file.stSize = (Device.file file).getSize := rfl
  unfold fileAccess FileData.refuses at hrun
  unfold FileSafe Inside
  dsimp only at hrun
  by_cases hoverflow : off + asOff len < -offLimit ∨ offLimit ≤ off + asOff len
  · rw [if_pos hoverflow] at hrun
    cases hrun
  · rw [if_neg hoverflow] at hrun
    by_cases hrefused : (file.stSize : Int) < off + asOff len
    · exact Or.inr (Or.inr ⟨by omega, by omega⟩)
    · rw [decide_eq_false hrefused] at hrun
      dsimp only at hrun
      by_cases hin : len = 0 ∨ 0 ≤ off ∧ off + len ≤ file.content.length
      · cases hin with
        | inl hzero => exact Or.inl hzero
        | inr hin => exact Or.inr (Or.inl (hlength ▸ hin))
      · rw [if_neg hin] at hrun
        cases hrun

/-- A safe access is refused, or made on the device. -/
theorem fileAccess_of_safe {σ : Type} (old new : σ) (hlow : -offLimit ≤ off)
    (hhigh : off < offLimit) (h : FileSafe (.file file) off len) :
    ∃ res s, fileAccess file off len old new = .returned res s ∧
      (res = 0 → (len = 0 ∨ Inside (.file file) off len) ∧ s = new) := by
  have hlength : file.content.length = (Device.file file).getSize :=
    (Device.file file).content_length
  have hsize : file.stSize = (Device.file file).getSize := rfl
  have hlimit := file.stSize_lt
  have hsafe : ¬ (off + asOff len < -offLimit ∨ offLimit ≤ off + asOff len) := by
    unfold FileSafe Inside at h
    unfold asOff offLimit sizeLimit at *
    omega
  unfold fileAccess FileData.refuses
  dsimp only
  rw [if_neg hsafe]
  by_cases hrefused : (file.stSize : Int) < off + asOff len
  · rw [decide_eq_true hrefused]
    exact ⟨-einval, old, rfl, fun hzero => absurd hzero (by decide)⟩
  · have hin : len = 0 ∨ Inside (.file file) off len := by
      cases h with
      | inl hzero => exact Or.inl hzero
      | inr h =>
          cases h with
          | inl hin => exact Or.inr hin
          | inr hover => omega
    rw [decide_eq_false hrefused]
    dsimp only
    rw [if_pos (by rw [hlength]; exact hin)]
    exact ⟨0, new, rfl, fun _ => ⟨hin, rfl⟩⟩

theorem not_outside_of_fileSafe (h : len = 0 ∨ Inside dev off len) : ¬ Outside dev off len := by
  intro hout
  rw [outside_iff] at hout
  cases h with
  | inl hzero => exact hout.1 hzero
  | inr hin => exact hout.2 hin

end File

/-! ## Every backend -/

theorem badAlignment_zero (off len : Nat) : badAlignment 0 off len = none := rfl

theorem badAlignment_of_ne {blockSize : Nat} (h : blockSize ≠ 0) (off : Int) (len : Nat) :
    (Misaligned blockSize off len ∧ badAlignment blockSize (asSize off) len = some true) ∨
      (¬ Misaligned blockSize off len ∧ badAlignment blockSize (asSize off) len = some false) := by
  unfold Misaligned badAlignment
  rw [if_neg h]
  by_cases hoff : asSize off % blockSize = 0
  · by_cases hlen : len % blockSize = 0
    · exact Or.inr ⟨by omega, by simp [hoff, hlen]⟩
    · exact Or.inl ⟨Or.inr hlen, by simp [hlen]⟩
  · exact Or.inl ⟨Or.inl hoff, by simp [hoff]⟩

theorem flashRead_meets_iff (dev : Device) (hlow : -offLimit ≤ off) (hhigh : off < offLimit)
    (len : Nat) :
    (∀ answers buff, ∃ fuel res buff',
      flashRead dev off len answers fuel buff = .returned res buff' ∧
        (res = 0 → ¬ Outside dev off len ∧ Filled dev.content off.toNat len buff buff')) ↔
      ReadSafe dev off len := by
  cases dev with
  | mtd mtd => exact mtdRead_meets_iff mtd
  | ec ec => exact ecRead_meets_iff ec
  | file file =>
      have hlength : file.content.length = (Device.file file).getSize :=
        (Device.file file).content_length
      unfold ReadSafe
      constructor
      · intro hmeets
        obtain ⟨_, res, buff', hrun, _⟩ := hmeets (allOk fun _ => 0#8) (fun _ => 0#8)
        exact fileSafe_of_returned file hrun
      · intro hsafe answers buff
        obtain ⟨res, buff', hrun, hres⟩ := fileAccess_of_safe file buff
          (store buff 0 (slice file.content off.toNat len)) hlow hhigh hsafe
        refine ⟨0, res, buff', hrun, fun hzero => ?_⟩
        obtain ⟨hin, hbuff⟩ := hres hzero
        refine ⟨not_outside_of_fileSafe hin, ?_⟩
        rw [hbuff]
        cases hin with
        | inl hnone =>
            subst hnone
            refine ⟨fun i hi => absurd hi (Nat.not_lt_zero i), fun i _ => ?_⟩
            unfold store
            rw [slice, List.take_zero, if_pos (Nat.zero_le i), List.getElem?_nil, Option.getD_none]
        | inr hin =>
            have hfits := hin.2
            have hstore := (Filled.start file.content off.toNat buff).store (n := len)
              (by have := hin.1; omega)
            rw [Nat.zero_add] at hstore
            exact hstore

theorem flashWrite_meets_iff (dev : Device) (hlow : -offLimit ≤ off) (hhigh : off < offLimit)
    (data : Bytes) :
    (∀ answers, ∃ fuel res mem, flashWrite dev off data answers fuel = .returned res mem ∧
      (res = 0 → ¬ Outside dev off data.length ∧ mem = splice dev.content off.toNat data)) ↔
      WriteSafe dev off data.length := by
  unfold WriteSafe flashWrite
  by_cases hzero : dev.getWriteSize = 0
  · rw [hzero, badAlignment_zero]
    refine iff_of_false (fun hmeets => ?_) (fun hsafe => hsafe.1 rfl)
    obtain ⟨_, _, _, hrun, _⟩ := hmeets (allOk fun _ => 0#8)
    cases hrun
  rw [and_iff_right hzero]
  cases badAlignment_of_ne hzero off data.length with
  | inl hmis =>
      rw [hmis.2]
      exact iff_of_true
        (fun _ => ⟨0, -einval, dev.content, rfl, fun hres => absurd hres (by decide)⟩)
        (Or.inl hmis.1)
  | inr haligned =>
      rw [haligned.2, or_iff_right haligned.1]
      cases dev with
      | mtd mtd => exact iff_of_true (mtdWrite_meets mtd data) trivial
      | ec ec =>
          have hwrite : (Device.ec ec).getWriteSize = ec.writeIdealSize := by
            unfold Device.getWriteSize at hzero ⊢
            dsimp only at hzero ⊢
            split at hzero
            · rename_i hfd
              rw [if_pos hfd]
            · exact absurd rfl hzero
          rw [hwrite] at hzero haligned
          have hmod : data.length % ec.writeIdealSize = 0 := by
            by_contra hmod
            exact haligned.1 (Or.inr hmod)
          exact ecWrite_meets_iff ec hzero hmod off
      | file file =>
          dsimp only
          constructor
          · intro hmeets
            obtain ⟨_, res, mem, hrun, _⟩ := hmeets (allOk fun _ => 0#8)
            exact fileSafe_of_returned file hrun
          · intro hsafe answers
            obtain ⟨res, mem, hrun, hres⟩ := fileAccess_of_safe file file.content
              (splice file.content off.toNat data) hlow hhigh hsafe
            exact ⟨0, res, mem, hrun, fun hzero =>
              ⟨not_outside_of_fileSafe (hres hzero).1, (hres hzero).2⟩⟩

theorem flashErase_meets_iff (dev : Device) (hlow : -offLimit ≤ off) (hhigh : off < offLimit)
    (len : Nat) :
    (∀ answers, ∃ res mem, flashErase dev off len answers = .returned res mem ∧
      (res = 0 → ¬ Outside dev off len ∧
        mem = splice dev.content off.toNat (List.replicate len 0xff#8))) ↔
      EraseSafe dev off len := by
  unfold EraseSafe flashErase
  by_cases hzero : dev.getEraseSize = 0
  · rw [hzero, badAlignment_zero]
    refine iff_of_false (fun hmeets => ?_) (fun hsafe => hsafe.1 rfl)
    obtain ⟨_, _, hrun, _⟩ := hmeets (allOk fun _ => 0#8)
    cases hrun
  rw [and_iff_right hzero]
  cases badAlignment_of_ne hzero off len with
  | inl hmis =>
      rw [hmis.2]
      exact iff_of_true
        (fun _ => ⟨-einval, dev.content, rfl, fun hres => absurd hres (by decide)⟩)
        (Or.inl hmis.1)
  | inr haligned =>
      rw [haligned.2, or_iff_right haligned.1]
      cases dev with
      | mtd mtd =>
          have hlength := (Device.mtd mtd).content_length
          exact eraseOnce_meets_iff hlength (by rw [← hlength]; exact mtd_length_lt mtd)
      | ec ec =>
          have hlength := (Device.ec ec).content_length
          have herase : ∀ answers, ecErase ec off len answers =
              eraseOnce ec.content off len answers :=
            fun answers => if_neg (Int.not_lt.mpr ec.opened)
          dsimp only
          simp only [herase]
          exact eraseOnce_meets_iff hlength (by rw [← hlength]; exact ec_length_lt ec)
      | file file =>
          dsimp only
          constructor
          · intro hmeets
            obtain ⟨res, mem, hrun, _⟩ := hmeets (allOk fun _ => 0#8)
            exact fileSafe_of_returned file hrun
          · intro hsafe answers
            obtain ⟨res, mem, hrun, hres⟩ := fileAccess_of_safe file file.content
              (splice file.content off.toNat (List.replicate len 0xff#8)) hlow hhigh hsafe
            exact ⟨res, mem, hrun, fun hzero =>
              ⟨not_outside_of_fileSafe (hres hzero).1, (hres hzero).2⟩⟩

/-- An EC of four bytes, with replies of four bytes behind the header. -/
def smallEc : EcData where
  fd := 3
  maxResponsePacketSize := 12
  flashSize := 4
  writeIdealSize := 4
  eraseBlockSize := 4
  content := [1#8, 2#8, 3#8, 4#8]
  opened := by decide
  maxResponsePacketSize_lt := by decide
  flashSize_lt := by decide
  writeIdealSize_lt := by decide
  content_length := rfl

/-- An image that was passed as a blob. -/
def blobFile : FileData where
  fd := -1
  stSize := 1
  stBlksize := 0
  content := [0#8]
  stSize_lt := by decide
  content_length := rfl

def smallMtd : MtdData where
  fd := 3
  size := 4
  writesize := 1
  erasesize := 4
  content := [1#8, 2#8, 3#8, 4#8]
  opened := by decide
  size_lt := by decide
  content_length := rfl

end DragonDevice.Recovery.Backend
