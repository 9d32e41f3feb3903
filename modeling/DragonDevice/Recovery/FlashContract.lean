/-
  Recovery/FlashContract.lean --- where the backends act like one flash.

  The contract is that of an array of bytes: a call ends, zero is returned only for a range
  inside, and then exactly that range is stored or changed.  Each backend keeps it for some
  calls only.  This module states for which, and shows it of the mtd backend and of an erase
  with one ioctl.
-/
import DragonDevice.Recovery.FlashBackends

set_option autoImplicit false

namespace DragonDevice.Recovery.Backend

open DragonDevice.Lib

/-! ## The contract -/

/-- Some byte of the range is not on the device. -/
def Outside (dev : Device) (off : Int) (len : Nat) : Prop :=
  ∃ i : Int, off ≤ i ∧ i < off + len ∧ ¬ (0 ≤ i ∧ i < dev.getSize)

/-- The bytes `[start, start + len)` are in the buffer, and the rest is as it was. -/
def Filled (content : Bytes) (start len : Nat) (buff buff' : Caller) : Prop :=
  (∀ i, i < len → some (buff' i) = content[start + i]?) ∧ ∀ i, len ≤ i → buff' i = buff i

inductive Request where
  | read (len : Nat)
  | write (data : Bytes)
  | erase (len : Nat)

def Request.len : Request → Nat
  | .read len => len
  | .write data => data.length
  | .erase len => len

/-- An offset and a length in the range of their types. -/
structure Call where
  off : Int
  req : Request
  off_ge : -offLimit ≤ off
  off_lt : off < offLimit
  len_lt : req.len < sizeLimit

/-- The contract at one call, whatever the system calls answer. -/
def Meets (dev : Device) (call : Call) : Prop :=
  match call.req with
  | .read len =>
      ∀ answers buff, ∃ fuel res buff',
        flashRead dev call.off len answers fuel buff = .returned res buff' ∧
          (res = 0 → ¬ Outside dev call.off len ∧
            Filled dev.content call.off.toNat len buff buff')
  | .write data =>
      ∀ answers, ∃ fuel res mem,
        flashWrite dev call.off data answers fuel = .returned res mem ∧
          (res = 0 → ¬ Outside dev call.off data.length ∧
            mem = splice dev.content call.off.toNat data)
  | .erase len =>
      ∀ answers, ∃ res mem, flashErase dev call.off len answers = .returned res mem ∧
        (res = 0 → ¬ Outside dev call.off len ∧
          mem = splice dev.content call.off.toNat (List.replicate len 0xff#8))

/-! ## The condition -/

/-- The range is on the device. -/
def Inside (dev : Device) (off : Int) (len : Nat) : Prop := 0 ≤ off ∧ off + len ≤ dev.getSize

/-- The file's check takes the range for what it is. -/
def FileSafe (dev : Device) (off : Int) (len : Nat) : Prop :=
  len = 0 ∨ Inside dev off len ∨ (dev.getSize < off + asOff len ∧ off + asOff len < offLimit)

def ReadSafe (dev : Device) (off : Int) (len : Nat) : Prop :=
  match dev with
  | .mtd mtd => 0 ≤ off → off ≤ (Device.mtd mtd).getSize → off + len ≤ (Device.mtd mtd).getSize
  | .ec ec =>
      len = 0 ∨ (ec.readSize = 0 ∧ (Device.ec ec).getSize < asU32 off) ∨
        (ec.readSize ≠ 0 ∧ (Inside (.ec ec) off len → len % ec.readSize = 0) ∧
          (¬ Inside (.ec ec) off len → (Device.ec ec).getSize < asU32 off + len))
  | .file file => FileSafe (.file file) off len

/-- The flash layer refuses the call. -/
def Misaligned (blockSize : Nat) (off : Int) (len : Nat) : Prop :=
  asSize off % blockSize ≠ 0 ∨ len % blockSize ≠ 0

def WriteSafe (dev : Device) (off : Int) (len : Nat) : Prop :=
  dev.getWriteSize ≠ 0 ∧
    (Misaligned dev.getWriteSize off len ∨
      match dev with
      | .mtd _ => True
      | .ec ec =>
          len = 0 ∨ (sizeofFlashWrite + ec.writeIdealSize < u32Limit ∧
            (Inside (.ec ec) off len ∨ (Device.ec ec).getSize < asU32 off + len))
      | .file file => FileSafe (.file file) off len)

/-- The ioctl gets the range as it is, or one that is outside as well. -/
def EraseOnceSafe (dev : Device) (off : Int) (len : Nat) : Prop :=
  len = 0 ∨ Inside dev off len ∨ dev.getSize < asU32 off + len % u32Limit

def EraseSafe (dev : Device) (off : Int) (len : Nat) : Prop :=
  dev.getEraseSize ≠ 0 ∧
    (Misaligned dev.getEraseSize off len ∨
      match dev with
      | .mtd mtd => EraseOnceSafe (.mtd mtd) off len
      | .ec ec => EraseOnceSafe (.ec ec) off len
      | .file file => FileSafe (.file file) off len)

def Safe (dev : Device) (call : Call) : Prop :=
  match call.req with
  | .read len => ReadSafe dev call.off len
  | .write data => WriteSafe dev call.off data.length
  | .erase len => EraseSafe dev call.off len

/-! ## Ranges and integers -/

variable {dev : Device} {off : Int} {len : Nat}

theorem outside_iff : Outside dev off len ↔ len ≠ 0 ∧ ¬ Inside dev off len := by
  constructor
  · intro h
    obtain ⟨i, hlow, hhigh, hnot⟩ := h
    refine ⟨by omega, fun hin => ?_⟩
    unfold Inside at hin
    omega
  · intro h
    obtain ⟨hlen, hnot⟩ := h
    unfold Inside at hnot
    by_cases hneg : off < 0
    · exact ⟨off, Int.le_refl off, by omega, by omega⟩
    · exact ⟨off + len - 1, by omega, by omega, by omega⟩

theorem Inside.not_outside (h : Inside dev off len) : ¬ Outside dev off len := by
  intro hout
  exact (outside_iff.mp hout).2 h

theorem not_outside_zero : ¬ Outside dev off 0 := by
  intro hout
  exact (outside_iff.mp hout).1 rfl

theorem asU32_lt (off : Int) : asU32 off < u32Limit := by
  unfold asU32 u32Limit
  omega

/-- Cut to 32 bits, an offset goes on as long as it does not wrap. -/
theorem asU32_add {done : Nat} (h : asU32 off + done < u32Limit) :
    asU32 (off + done) = asU32 off + done := by
  unfold asU32 u32Limit at *
  omega

theorem asU32_of_lt (hlow : 0 ≤ off) (hhigh : off < u32Limit) : asU32 off = off.toNat := by
  unfold asU32 u32Limit at *
  omega

/-- What is left of whole chunks has room for another one. -/
theorem chunk_le {total done count : Nat} {chunk : Nat} (htotal : done + count = total)
    (hmod : total % chunk = 0) (hdone : done % chunk = 0) (hcount : 0 < count) :
    chunk ≤ count := by
  apply Nat.le_of_dvd hcount
  rw [← Nat.dvd_add_right (Nat.dvd_of_mod_eq_zero hdone), htotal]
  exact Nat.dvd_of_mod_eq_zero hmod

/-! ## Storing into the buffer -/

theorem Filled.start (content : Bytes) (start : Nat) (buff : Caller) :
    Filled content start 0 buff buff :=
  ⟨fun i hi => absurd hi (Nat.not_lt_zero i), fun _ _ => rfl⟩

theorem Filled.store {content : Bytes} {start done n : Nat} {buff buff' : Caller}
    (h : Filled content start done buff buff') (hfits : start + done + n ≤ content.length) :
    Filled content start (done + n) buff
      (Backend.store buff' done (slice content (start + done) n)) := by
  have hlen : (slice content (start + done) n).length = n := length_slice hfits
  refine ⟨fun i hi => ?_, fun i hi => ?_⟩
  · unfold Backend.store
    by_cases hlow : done ≤ i
    · have hin : start + done + (i - done) = start + i := by omega
      have hlt : start + i < content.length := by omega
      rw [if_pos hlow, getElem?_slice, if_pos (by omega), hin, List.getElem?_eq_getElem hlt,
        Option.getD_some]
    · rw [if_neg hlow]
      exact h.1 i (by omega)
  · unfold Backend.store
    rw [if_pos (by omega), List.getElem?_eq_none (by omega), Option.getD_none]
    exact h.2 i (by omega)

/-! ## The mtd backend -/

/-- Every system call succeeds and does as little as it can. -/
def allOk (fill : Nat → Byte) : Answers := fun _ => .ok 0 fill

theorem sysRead_cases (mem : Bytes) (pos count : Nat) (a : Answer) :
    (∃ code, code ≠ 0 ∧ sysRead mem pos count a = .error code) ∨
      ∃ n, sysRead mem pos count a = .ok (slice mem pos n) ∧ n ≤ count ∧ (0 < count → 0 < n) := by
  cases a with
  | fail code nonzero => exact Or.inl ⟨code, nonzero, rfl⟩
  | ok more fill =>
      exact Or.inr ⟨min (more + 1) count, rfl, Nat.min_le_right _ _, fun h => by omega⟩

theorem lseek_inside {mem : Bytes} (hlow : 0 ≤ off) (hhigh : off ≤ mem.length) :
    lseek mem off = some off.toNat := if_pos ⟨hlow, hhigh⟩

theorem mtdRead_inside (mtd : MtdData) (hlow : 0 ≤ off) (hhigh : off + len ≤ mtd.content.length)
    (answers : Answers) (buff : Caller) :
    ∃ fuel res buff', mtdRead mtd off len answers fuel buff = .returned res buff' ∧
      (res = 0 → Filled mtd.content off.toNat len buff buff') := by
  have hturn : TurnKeeps (mtdReadTurn mtd off.toNat answers)
      (fun done buff' => Filled mtd.content off.toNat done buff buff') (· ≠ 0) len := by
    intro call done count buff' hcount htotal hI
    unfold mtdReadTurn
    cases sysRead_cases mtd.content (off.toNat + done) count (answers call) with
    | inl herror =>
        obtain ⟨code, hcode, hread⟩ := herror
        exact Or.inr ⟨code, buff', by rw [hread], hcode⟩
    | inr hok =>
        obtain ⟨n, hread, hle, hpos⟩ := hok
        have hn : (slice mtd.content (off.toNat + done) n).length = n := length_slice (by omega)
        refine Or.inl ⟨n, _, ?_, hpos hcount, hle, hI.store (by omega)⟩
        rw [hread]
        dsimp only
        rw [hn]
  obtain ⟨res, buff', hrun, hres⟩ := transfer_spec hturn (Filled.start mtd.content off.toNat buff)
  refine ⟨len + 1, res, buff', ?_, fun hzero => ?_⟩
  · rw [mtdRead, lseek_inside hlow (by omega)]
    exact hrun
  · cases hres with
    | inl hdone => exact hdone.2
    | inr hfailed => exact absurd hzero hfailed

/-- At the end of the device `read` returns zero, and the loop asks again. -/
theorem mtdRead_running (mtd : MtdData) (hlow : 0 ≤ off) (hhigh : off ≤ mtd.content.length)
    (hover : mtd.content.length < off + len) (fill : Nat → Byte) (fuel : Nat) (buff : Caller) :
    mtdRead mtd off len (allOk fill) fuel buff = .running := by
  rw [mtdRead, lseek_inside hlow hhigh]
  refine transfer_running (P := fun done count _ => off.toNat + done ≤ mtd.content.length ∧
    mtd.content.length < off.toNat + done + count) ?_ fuel 0 0 len buff ⟨by omega, by omega⟩
  intro call done count buff' hP
  refine ⟨by omega, _, _, rfl, ?_⟩
  rw [slice, List.length_take, List.length_drop]
  omega

theorem mtdRead_meets_iff (mtd : MtdData) :
    (∀ answers buff, ∃ fuel res buff', mtdRead mtd off len answers fuel buff = .returned res buff' ∧
      (res = 0 → ¬ Outside (.mtd mtd) off len ∧ Filled mtd.content off.toNat len buff buff')) ↔
      ReadSafe (.mtd mtd) off len := by
  have hsize : mtd.content.length = (Device.mtd mtd).getSize := (Device.mtd mtd).content_length
  unfold ReadSafe
  constructor
  · intro hmeets hlow hhigh
    by_contra hover
    obtain ⟨fuel, res, buff', hrun, _⟩ := hmeets (allOk fun _ => 0#8) (fun _ => 0#8)
    rw [mtdRead_running mtd hlow (by omega) (by omega)] at hrun
    cases hrun
  · intro hsafe answers buff
    by_cases hseek : 0 ≤ off ∧ off ≤ mtd.content.length
    · have hin := hsafe hseek.1 (by omega)
      obtain ⟨fuel, res, buff', hrun, hres⟩ :=
        mtdRead_inside mtd hseek.1 (hsize ▸ hin) answers buff
      exact ⟨fuel, res, buff', hrun, fun hzero =>
        ⟨Inside.not_outside ⟨hseek.1, hin⟩, hres hzero⟩⟩
    · refine ⟨0, einval, buff, ?_, fun hzero => absurd hzero (by decide)⟩
      rw [mtdRead, lseek, if_neg hseek]

theorem sysWrite_cases (mem : Bytes) (pos : Nat) {data : Bytes} (hdata : 0 < data.length)
    (a : Answer) :
    (∃ code, code ≠ 0 ∧ sysWrite mem pos data a = .error code) ∨
      ∃ n, sysWrite mem pos data a = .ok (n, splice mem pos (data.take n)) ∧ 0 < n ∧
        n ≤ data.length ∧ pos + n ≤ mem.length := by
  cases a with
  | fail code nonzero => exact Or.inl ⟨code, nonzero, rfl⟩
  | ok more fill =>
      unfold sysWrite
      by_cases hroom : mem.length ≤ pos
      · exact Or.inl ⟨enospc, by decide, if_pos hroom⟩
      · exact Or.inr ⟨min (more + 1) (min data.length (mem.length - pos)), if_neg hroom,
          by omega, by omega, by omega⟩

/-- What a write leaves after `done` bytes. -/
structure Written (content : Bytes) (start : Nat) (data : Bytes) (done : Nat) (mem : Bytes) :
    Prop where
  fits : start + done ≤ content.length
  mem : mem = splice content start (data.take done)

theorem Written.next {content data mem : Bytes} {start done n : Nat}
    (h : Written content start data done mem) (hdata : done + n ≤ data.length)
    (hfits : start + (done + n) ≤ content.length) :
    Written content start data (done + n) (splice mem (start + done) (slice data done n)) := by
  have htake : (data.take done).length = done := by
    rw [List.length_take]
    omega
  have hslice : (slice data done n).length = n := length_slice hdata
  refine ⟨hfits, ?_⟩
  have hboth := @splice_append _ content start (data.take done) (slice data done n)
    (by rw [htake, hslice]; omega)
  rw [htake] at hboth
  rw [h.mem, hboth, slice, ← List.take_add]

theorem Written.length {content data mem : Bytes} {start done : Nat}
    (h : Written content start data done mem) : mem.length = content.length := by
  have hfits := h.fits
  rw [h.mem, length_splice]
  rw [List.length_take]
  omega

theorem Written.start {content data : Bytes} {start : Nat} (hfits : start ≤ content.length) :
    Written content start data 0 content := by
  refine ⟨hfits, ?_⟩
  rw [List.take_zero, splice_nil]

/-- A write to an MTD device ends, and returns zero only with everything written. -/
theorem mtdWrite_meets (mtd : MtdData) (data : Bytes) (answers : Answers) :
    ∃ fuel res mem, mtdWrite mtd off data answers fuel = .returned res mem ∧
      (res = 0 → ¬ Outside (.mtd mtd) off data.length ∧
        mem = splice mtd.content off.toNat data) := by
  have hsize : mtd.content.length = (Device.mtd mtd).getSize := (Device.mtd mtd).content_length
  by_cases hseek : 0 ≤ off ∧ off ≤ mtd.content.length
  · have hturn : TurnKeeps (mtdWriteTurn off.toNat data answers)
        (fun done mem => Written mtd.content off.toNat data done mem) (· ≠ 0) data.length := by
      intro call done count mem hcount htotal hI
      have hmem := hI.length
      have hslice : (slice data done count).length = count :=
        length_slice (Nat.le_of_eq htotal)
      unfold mtdWriteTurn
      cases sysWrite_cases mem (off.toNat + done) (hslice ▸ hcount) (answers call) with
      | inl herror =>
          obtain ⟨code, hcode, hwrite⟩ := herror
          exact Or.inr ⟨code, mem, by rw [hwrite], hcode⟩
      | inr hok =>
          obtain ⟨n, hwrite, hpos, hle, hroom⟩ := hok
          rw [hslice] at hle
          refine Or.inl ⟨n, _, by rw [hwrite], hpos, hle, ?_⟩
          rw [slice, List.take_take, Nat.min_eq_left hle]
          exact hI.next (by omega) (by omega)
    obtain ⟨res, mem, hrun, hres⟩ := transfer_spec hturn (Written.start (by omega))
    refine ⟨data.length + 1, res, mem, ?_, fun hzero => ?_⟩
    · rw [mtdWrite, lseek_inside hseek.1 hseek.2]
      exact hrun
    · cases hres with
      | inl hdone =>
          have hfits := hdone.2.fits
          refine ⟨Inside.not_outside ⟨hseek.1, by omega⟩, ?_⟩
          rw [hdone.2.mem, List.take_length]
      | inr hfailed => exact absurd hzero hfailed
  · refine ⟨0, einval, mtd.content, ?_, fun hzero => absurd hzero (by decide)⟩
    rw [mtdWrite, lseek, if_neg hseek]

/-! ## Erasing with one ioctl -/

theorem mtd_length_lt (mtd : MtdData) : mtd.content.length < u32Limit := by
  rw [mtd.content_length]
  have hlimit := mtd.size_lt
  split
  · exact hlimit
  · exact Nat.zero_lt_of_lt hlimit

theorem eraseOnce_meets_iff {content : Bytes} (hsize : content.length = dev.getSize)
    (hlimit : dev.getSize < u32Limit) :
    (∀ answers, ∃ res mem, eraseOnce content off len answers = .returned res mem ∧
      (res = 0 → ¬ Outside dev off len ∧
        mem = splice content off.toNat (List.replicate len 0xff#8))) ↔
      EraseOnceSafe dev off len := by
  unfold EraseOnceSafe
  constructor
  · intro hmeets
    by_contra hnot
    rw [not_or, not_or] at hnot
    obtain ⟨hlen, hin, hcut⟩ := hnot
    obtain ⟨res, mem, hrun, hres⟩ := hmeets (allOk fun _ => 0#8)
    rw [eraseOnce, allOk, sysErase, if_pos (by omega)] at hrun
    cases hrun
    exact (hres rfl).1 (outside_iff.mpr ⟨hlen, hin⟩)
  · intro hsafe answers
    unfold eraseOnce sysErase
    cases answers 0 with
    | fail code nonzero => exact ⟨code, content, rfl, fun hzero => absurd hzero nonzero⟩
    | ok more fill =>
        dsimp only
        by_cases hcut : asU32 off + len % u32Limit ≤ content.length
        · rw [if_pos hcut]
          refine ⟨0, _, rfl, fun _ => ?_⟩
          cases hsafe with
          | inl hzero =>
              subst hzero
              refine ⟨not_outside_zero, ?_⟩
              rw [Nat.zero_mod, List.replicate_zero, splice_nil, splice_nil]
          | inr hsafe =>
              cases hsafe with
              | inl hin =>
                  have hboth := hin
                  unfold Inside at hboth
                  rw [asU32_of_lt hin.1 (by omega), Nat.mod_eq_of_lt (by omega)]
                  exact ⟨hin.not_outside, rfl⟩
              | inr hover => omega
        · rw [if_neg hcut]
          exact ⟨einval, content, rfl, fun hzero => absurd hzero (by decide)⟩

end DragonDevice.Recovery.Backend
