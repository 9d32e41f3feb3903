/-
  Recovery/EcContract.lean --- where the ec backend keeps the contract of a flash.

  Reads and writes go in chunks.  The EC sees the cut offset of each chunk, so all of them
  lie where the first one starts on its flash.  The reply to a read may fill `read_size` bytes
  also when fewer are left.
-/
import DragonDevice.Recovery.FlashContract

set_option autoImplicit false

namespace DragonDevice.Recovery.Backend

open DragonDevice.Lib

variable {dev : Device} {off : Int} {len : Nat}

/-! ## The ec backend -/

section Ec

variable (ec : EcData)

theorem ecCommand_eq {α : Type} (reply : Except Int α) : ecCommand ec reply = reply :=
  if_neg (Int.not_lt.mpr ec.opened)

theorem ec_length_lt : ec.content.length < u32Limit := by
  rw [ec.content_length]
  have hlimit := ec.flashSize_lt
  split
  · exact hlimit
  · exact Nat.zero_lt_of_lt hlimit

/-- A chunk on the flash is read, and the reply buffer filled up behind it. -/
theorem ecReadTurn_fits {call done count more : Nat} {fill : Nat → Byte} {answers : Answers}
    (buff : Caller) (hanswer : answers call = .ok more fill)
    (h : asU32 (off + done) + min ec.readSize count ≤ ec.content.length) :
    ecReadTurn ec off answers call done count buff =
      .moved (min ec.readSize count)
        (store buff done (slice ec.content (asU32 (off + done)) (min ec.readSize count) ++
          (List.range (ec.readSize - min ec.readSize count)).map fill)) := by
  unfold ecReadTurn
  dsimp only
  rw [ecCommand_eq, hanswer, ecFlashRead, if_pos h]

theorem ecReadTurn_fails {call done count : Nat} {code : Int} {nonzero : code ≠ 0}
    {answers : Answers} (buff : Caller) (hanswer : answers call = .fail code nonzero) :
    ecReadTurn ec off answers call done count buff = .failed code buff := by
  unfold ecReadTurn
  dsimp only
  rw [ecCommand_eq, hanswer, ecFlashRead]

/-- A chunk that ends behind the flash is refused. -/
theorem ecReadTurn_over {call done count : Nat} {answers : Answers} (buff : Caller)
    (h : ec.content.length < asU32 (off + done) + min ec.readSize count) :
    ∃ res, res ≠ 0 ∧ ecReadTurn ec off answers call done count buff = .failed res buff := by
  cases hanswer : answers call with
  | fail code nonzero => exact ⟨code, nonzero, ecReadTurn_fails ec buff hanswer⟩
  | ok more fill =>
      refine ⟨ecResError, by decide, ?_⟩
      unfold ecReadTurn
      dsimp only
      rw [ecCommand_eq, hanswer, ecFlashRead, if_neg (Nat.not_le.mpr h)]

/-- A read of whole chunks on the flash. -/
theorem ecRead_inside (hlow : 0 ≤ off) (hhigh : off + len ≤ ec.content.length)
    (hsize : ec.readSize ≠ 0) (hmod : len % ec.readSize = 0) (answers : Answers) (buff : Caller) :
    ∃ res buff', ecRead ec off len answers (len + 1) buff = .returned res buff' ∧
      (res = 0 → Filled ec.content off.toNat len buff buff') := by
  have hlimit := ec_length_lt ec
  have hturn : TurnKeeps (ecReadTurn ec off answers)
      (fun done buff' => done % ec.readSize = 0 ∧ Filled ec.content off.toNat done buff buff')
      (· ≠ 0) len := by
    intro call done count buff' hcount htotal hI
    have hchunk := chunk_le htotal hmod hI.1 hcount
    have hmin : min ec.readSize count = ec.readSize := Nat.min_eq_left hchunk
    have hat : asU32 (off + done) = off.toNat + done := by
      rw [asU32_of_lt (by omega) (by omega)]
      omega
    cases hanswer : answers call with
    | fail code nonzero => exact Or.inr ⟨code, buff', ecReadTurn_fails ec buff' hanswer, nonzero⟩
    | ok more fill =>
        have hfits : asU32 (off + done) + min ec.readSize count ≤ ec.content.length := by
          rw [hmin, hat]
          omega
        have hrun := ecReadTurn_fits ec buff' hanswer hfits
        rw [hmin, Nat.sub_self, List.range_zero, List.map_nil, List.append_nil, hat] at hrun
        refine Or.inl ⟨_, _, hrun, Nat.pos_of_ne_zero hsize, hchunk, ?_, hI.2.store (by omega)⟩
        rw [Nat.add_mod_right]
        exact hI.1
  obtain ⟨res, buff', hrun, hres⟩ :=
    transfer_spec hturn ⟨Nat.zero_mod _, Filled.start ec.content off.toNat buff⟩
  refine ⟨res, buff', hrun, fun hzero => ?_⟩
  cases hres with
  | inl hdone => exact hdone.2.2
  | inr hfailed => exact absurd hzero hfailed

/-- The last chunk of any other read is shorter than its reply buffer, which the EC may fill:
the byte behind the buffer is overwritten. -/
theorem ecRead_overruns (hlow : 0 ≤ off) (hhigh : off + len ≤ ec.content.length)
    (hsize : ec.readSize ≠ 0) (hmod : len % ec.readSize ≠ 0) (fill : Byte) (buff : Caller) :
    ∃ buff', ecRead ec off len (allOk fun _ => fill) (len + 1) buff = .returned 0 buff' ∧
      buff' len = fill := by
  have hlimit := ec_length_lt ec
  have hturn : TurnKeeps (ecReadTurn ec off (allOk fun _ => fill))
      (fun done buff' => (done < len → done % ec.readSize = 0) ∧ (done = len → buff' len = fill))
      (fun _ => False) len := by
    intro call done count buff' hcount htotal hI
    have hat : asU32 (off + done) = off.toNat + done := by
      rw [asU32_of_lt (by omega) (by omega)]
      omega
    have hdone : done % ec.readSize = 0 := hI.1 (by omega)
    have hfits : asU32 (off + done) + min ec.readSize count ≤ ec.content.length := by
      rw [hat]
      omega
    have hrun := @ecReadTurn_fits off ec call _ _ _ _ (allOk fun _ => fill) buff' rfl hfits
    refine Or.inl ⟨_, _, hrun, by omega, Nat.min_le_right _ _, fun hlt => ?_, fun hend => ?_⟩
    · rw [Nat.min_eq_left (by omega), Nat.add_mod_right]
      exact hdone
    · -- the chunk is the last one, and shorter than its buffer
      have hshort : count < ec.readSize := by
        by_contra hlong
        rw [Nat.min_eq_left (by omega)] at hend
        exact hmod (by rw [← hend, Nat.add_mod_right, hdone])
      have hslice : (slice ec.content (asU32 (off + done)) count).length = count :=
        length_slice (by rw [hat]; omega)
      have hlast : len - done = count := by omega
      unfold store
      rw [if_pos (by omega), Nat.min_eq_right (by omega), hlast,
        List.getElem?_append_right (by omega), hslice, Nat.sub_self, List.getElem?_map,
        List.getElem?_range (by omega), Option.map_some, Option.getD_some]
  obtain ⟨res, buff', hrun, hres⟩ := transfer_spec hturn
    ⟨fun _ => Nat.zero_mod _, fun hzero => absurd (hzero ▸ Nat.zero_mod _) hmod⟩
  cases hres with
  | inl hdone => exact ⟨buff', hdone.1 ▸ hrun, hdone.2.2 rfl⟩
  | inr hfalse => exact hfalse.elim

/-- Where the chunks lie on the flash that the EC sees: the cut offset, as long as the
chunks before ended on the flash. -/
theorem asU32_chunk (off : Int) {done : Nat} (h : done = 0 ∨ asU32 off + done ≤ ec.content.length) :
    asU32 (off + done) = asU32 off + done := by
  have hlimit := ec_length_lt ec
  have hcut := asU32_lt off
  exact asU32_add (by omega)

/-- A read that the EC sees end behind its flash. -/
theorem ecRead_refused (off : Int) (hlen : len ≠ 0) (hover : ec.content.length < asU32 off + len)
    (hsize : ec.readSize = 0 → ec.content.length < asU32 off) (answers : Answers)
    (buff : Caller) :
    ∃ res buff', ecRead ec off len answers (len + 1) buff = .returned res buff' ∧ res ≠ 0 := by
  have hturn : TurnKeeps (ecReadTurn ec off answers)
      (fun done _ => done = 0 ∨ asU32 off + done ≤ ec.content.length) (· ≠ 0) len := by
    intro call done count buff' hcount htotal hI
    have hat := asU32_chunk ec off hI
    by_cases hfits : asU32 (off + done) + min ec.readSize count ≤ ec.content.length
    · cases hanswer : answers call with
      | fail code nonzero =>
          exact Or.inr ⟨code, buff', ecReadTurn_fails ec buff' hanswer, nonzero⟩
      | ok more fill =>
          refine Or.inl ⟨_, _, ecReadTurn_fits ec buff' hanswer hfits, ?_,
            Nat.min_le_right _ _, Or.inr (by omega)⟩
          have hpos : ec.readSize ≠ 0 := fun hzero => by
            have := hsize hzero
            omega
          omega
    · obtain ⟨res, hres, hrun⟩ := ecReadTurn_over ec buff' (Nat.lt_of_not_le hfits)
      exact Or.inr ⟨res, buff', hrun, hres⟩
  obtain ⟨res, buff', hrun, hres⟩ := transfer_spec hturn (s := buff) (Or.inl rfl)
  refine ⟨res, buff', hrun, ?_⟩
  cases hres with
  | inl hdone => omega
  | inr hfailed => exact hfailed

/-- A read that the EC sees on its flash returns zero, wherever it should have been. -/
theorem ecRead_cut (off : Int) (hsize : ec.readSize ≠ 0)
    (hcut : asU32 off + len ≤ ec.content.length)
    (fill : Nat → Byte) (buff : Caller) :
    ∃ buff', ecRead ec off len (allOk fill) (len + 1) buff = .returned 0 buff' := by
  have hturn : TurnKeeps (ecReadTurn ec off (allOk fill)) (fun _ _ => True) (fun _ => False)
      len := by
    intro call done count buff' hcount htotal _
    have hat := asU32_chunk ec off (Or.inr (by omega : asU32 off + done ≤ ec.content.length))
    have hfits : asU32 (off + done) + min ec.readSize count ≤ ec.content.length := by
      rw [hat]
      omega
    have hrun := @ecReadTurn_fits off ec call _ _ _ _ (allOk fill) buff' rfl hfits
    exact Or.inl ⟨_, _, hrun, by omega, Nat.min_le_right _ _, trivial⟩
  obtain ⟨res, buff', hrun, hres⟩ := transfer_spec hturn (s := buff) trivial
  cases hres with
  | inl hdone => exact ⟨buff', hdone.1 ▸ hrun⟩
  | inr hfalse => exact hfalse.elim

/-- With a response of only the header no byte is ever read. -/
theorem ecRead_running (hlen : len ≠ 0) (hsize : ec.readSize = 0)
    (hcut : asU32 off ≤ ec.content.length) (fill : Nat → Byte) (fuel : Nat) (buff : Caller) :
    ecRead ec off len (allOk fill) fuel buff = .running := by
  refine transfer_running (P := fun done count _ => done = 0 ∧ count = len) ?_ fuel 0 0 len buff
    ⟨rfl, rfl⟩
  intro call done count buff' hP
  have hat := asU32_chunk ec off (Or.inl hP.1)
  have hmin : min ec.readSize count = 0 := by omega
  have hfits : asU32 (off + done) + min ec.readSize count ≤ ec.content.length := by
    rw [hat]
    omega
  have hrun := @ecReadTurn_fits off ec call _ _ _ _ (allOk fill) buff' rfl hfits
  refine ⟨by omega, _, _, hrun, ?_⟩
  rw [hmin]
  exact hP

theorem ecRead_meets_iff :
    (∀ answers buff, ∃ fuel res buff', ecRead ec off len answers fuel buff = .returned res buff' ∧
      (res = 0 → ¬ Outside (.ec ec) off len ∧ Filled ec.content off.toNat len buff buff')) ↔
      ReadSafe (.ec ec) off len := by
  have hlength : ec.content.length = (Device.ec ec).getSize := (Device.ec ec).content_length
  unfold ReadSafe
  dsimp only
  rw [← hlength]
  constructor
  · intro hmeets
    by_cases hlen : len = 0
    · exact Or.inl hlen
    by_cases hsize : ec.readSize = 0
    · refine Or.inr (Or.inl ⟨hsize, ?_⟩)
      by_contra hcut
      obtain ⟨fuel, res, buff', hrun, _⟩ := hmeets (allOk fun _ => 0#8) (fun _ => 0#8)
      rw [ecRead_running ec hlen hsize (by omega)] at hrun
      cases hrun
    · refine Or.inr (Or.inr ⟨hsize, fun hin => ?_, fun hout => ?_⟩)
      · by_contra hmod
        obtain ⟨fuel, res, buff', hrun, hres⟩ := hmeets (allOk fun _ => 1#8) (fun _ => 0#8)
        obtain ⟨buff'', hrun', hbyte⟩ := ecRead_overruns ec hin.1 (hlength ▸ hin.2) hsize hmod 1#8
          (fun _ => 0#8)
        obtain ⟨hzero, hbuff⟩ := transfer_unique hrun hrun'
        have hkept := (hres hzero).2.2 len (Nat.le_refl len)
        rw [hbuff, hbyte] at hkept
        cases hkept
      · by_contra hcut
        obtain ⟨fuel, res, buff', hrun, hres⟩ := hmeets (allOk fun _ => 0#8) (fun _ => 0#8)
        obtain ⟨buff'', hrun'⟩ := ecRead_cut ec off hsize (Nat.le_of_not_lt hcut)
          (fun _ => 0#8) (fun _ => 0#8)
        obtain ⟨hzero, _⟩ := transfer_unique hrun hrun'
        exact (hres hzero).1 (outside_iff.mpr ⟨hlen, hout⟩)
  · intro hsafe answers buff
    by_cases hlen : len = 0
    · subst hlen
      exact ⟨1, 0, buff, rfl, fun _ => ⟨not_outside_zero, Filled.start _ _ _⟩⟩
    by_cases hin : Inside (.ec ec) off len
    · cases hsafe with
      | inl hzero => exact absurd hzero hlen
      | inr hsafe =>
          cases hsafe with
          | inl hempty =>
              have hboth := hin
              unfold Inside at hboth
              have hlimit := ec_length_lt ec
              have hat := asU32_of_lt hin.1 (by omega)
              omega
          | inr hchunks =>
              obtain ⟨hsize, hmod, _⟩ := hchunks
              obtain ⟨res, buff', hrun, hres⟩ :=
                ecRead_inside ec hin.1 (hlength ▸ hin.2) hsize (hmod hin) answers buff
              exact ⟨_, res, buff', hrun, fun hzero => ⟨hin.not_outside, hres hzero⟩⟩
    · have hover : ec.content.length < asU32 off + len ∧
          (ec.readSize = 0 → ec.content.length < asU32 off) := by
        cases hsafe with
        | inl hzero => exact absurd hzero hlen
        | inr hsafe =>
            cases hsafe with
            | inl hempty => exact ⟨by omega, fun _ => hempty.2⟩
            | inr hchunks =>
                exact ⟨hchunks.2.2 hin, fun hzero => absurd hzero hchunks.1⟩
      obtain ⟨res, buff', hrun, hres⟩ := ecRead_refused ec off hlen hover.1 hover.2 answers buff
      exact ⟨_, res, buff', hrun, fun hzero => absurd hzero hres⟩

/-- The packet of a write fits into what was allocated for it. -/
def PacketFits : Prop := sizeofFlashWrite + ec.writeIdealSize < u32Limit

variable {data : Bytes}

theorem ecWriteTurn_fits (hpacket : PacketFits ec) {call done count more : Nat}
    {fill : Nat → Byte} {answers : Answers} (hanswer : answers call = .ok more fill) (mem : Bytes)
    (hcount : ec.writeIdealSize ≤ count) (hdata : done + count ≤ data.length)
    (hfits : asU32 (off + done) + ec.writeIdealSize ≤ mem.length) :
    ecWriteTurn ec off data answers call done count mem = .moved ec.writeIdealSize
      (splice mem (asU32 (off + done)) (slice data done ec.writeIdealSize)) := by
  have hslice : (slice data done ec.writeIdealSize).length = ec.writeIdealSize :=
    length_slice (by omega)
  unfold ecWriteTurn
  dsimp only
  rw [Nat.mod_eq_of_lt hpacket, if_neg (by omega), ecCommand_eq, hanswer, ecFlashWrite, hslice,
    if_pos hfits]

/-- A chunk is written where the EC sees it, or refused. -/
theorem ecWriteTurn_cases (hpacket : PacketFits ec) {call done count : Nat} {answers : Answers}
    (mem : Bytes) (hcount : ec.writeIdealSize ≤ count) (hdata : done + count ≤ data.length) :
    (∃ res, res ≠ 0 ∧ ecWriteTurn ec off data answers call done count mem = .failed res mem) ∨
      (asU32 (off + done) + ec.writeIdealSize ≤ mem.length ∧
        ecWriteTurn ec off data answers call done count mem = .moved ec.writeIdealSize
          (splice mem (asU32 (off + done)) (slice data done ec.writeIdealSize))) := by
  have hslice : (slice data done ec.writeIdealSize).length = ec.writeIdealSize :=
    length_slice (by omega)
  have hguard : ¬ ((sizeofFlashWrite + ec.writeIdealSize) % u32Limit <
      sizeofFlashWrite + ec.writeIdealSize ∨ count < ec.writeIdealSize) := by
    rw [Nat.mod_eq_of_lt hpacket]
    omega
  cases hanswer : answers call with
  | fail code nonzero =>
      refine Or.inl ⟨code, nonzero, ?_⟩
      unfold ecWriteTurn
      dsimp only
      rw [if_neg hguard, ecCommand_eq, hanswer, ecFlashWrite]
  | ok more fill =>
      by_cases hfits : asU32 (off + done) + ec.writeIdealSize ≤ mem.length
      · exact Or.inr ⟨hfits, ecWriteTurn_fits ec hpacket hanswer mem hcount hdata hfits⟩
      · refine Or.inl ⟨ecResError, by decide, ?_⟩
        unfold ecWriteTurn
        dsimp only
        rw [if_neg hguard, ecCommand_eq, hanswer, ecFlashWrite, hslice, if_neg hfits]

variable (hpacket : PacketFits ec) (hsize : ec.writeIdealSize ≠ 0)
  (hmod : data.length % ec.writeIdealSize = 0)

include hpacket hsize hmod

theorem ecWrite_inside (hlow : 0 ≤ off) (hhigh : off + data.length ≤ ec.content.length)
    (answers : Answers) :
    ∃ res mem, ecWrite ec off data answers (data.length + 1) = .returned res mem ∧
      (res = 0 → mem = splice ec.content off.toNat data) := by
  have hlimit := ec_length_lt ec
  have hturn : TurnKeeps (ecWriteTurn ec off data answers)
      (fun done mem => done % ec.writeIdealSize = 0 ∧
        Written ec.content off.toNat data done mem) (· ≠ 0) data.length := by
    intro call done count mem hcount htotal hI
    have hchunk := chunk_le htotal hmod hI.1 hcount
    have hat : asU32 (off + done) = off.toNat + done := by
      rw [asU32_of_lt (by omega) (by omega)]
      omega
    cases ecWriteTurn_cases ec hpacket mem hchunk (Nat.le_of_eq htotal) with
    | inl hfailed =>
        obtain ⟨res, hres, hrun⟩ := hfailed
        exact Or.inr ⟨res, mem, hrun, hres⟩
    | inr hmoved =>
        rw [hat] at hmoved
        refine Or.inl ⟨_, _, hmoved.2, Nat.pos_of_ne_zero hsize, hchunk, ?_,
          hI.2.next (by omega) (by omega)⟩
        rw [Nat.add_mod_right]
        exact hI.1
  obtain ⟨res, mem, hrun, hres⟩ := transfer_spec hturn ⟨Nat.zero_mod _, Written.start (by omega)⟩
  refine ⟨res, mem, hrun, fun hzero => ?_⟩
  cases hres with
  | inl hdone => rw [hdone.2.2.mem, List.take_length]
  | inr hfailed => exact absurd hzero hfailed

/-- A write that the EC sees end behind its flash. -/
theorem ecWrite_refused (off : Int) (hdata : data.length ≠ 0)
    (hover : ec.content.length < asU32 off + data.length) (answers : Answers) :
    ∃ res mem, ecWrite ec off data answers (data.length + 1) = .returned res mem ∧ res ≠ 0 := by
  have hturn : TurnKeeps (ecWriteTurn ec off data answers)
      (fun done mem => mem.length = ec.content.length ∧ done % ec.writeIdealSize = 0 ∧
        (done = 0 ∨ asU32 off + done ≤ ec.content.length)) (· ≠ 0) data.length := by
    intro call done count mem hcount htotal hI
    have hchunk := chunk_le htotal hmod hI.2.1 hcount
    have hat := asU32_chunk ec off hI.2.2
    cases ecWriteTurn_cases ec hpacket mem hchunk (Nat.le_of_eq htotal) with
    | inl hfailed =>
        obtain ⟨res, hres, hrun⟩ := hfailed
        exact Or.inr ⟨res, mem, hrun, hres⟩
    | inr hmoved =>
        obtain ⟨hfits, hrun⟩ := hmoved
        have hslice : (slice data done ec.writeIdealSize).length = ec.writeIdealSize :=
          length_slice (by omega)
        refine Or.inl ⟨_, _, hrun, Nat.pos_of_ne_zero hsize, hchunk, ?_, ?_, Or.inr (by omega)⟩
        · rw [length_splice (by rw [hslice]; exact hfits), hI.1]
        · rw [Nat.add_mod_right]
          exact hI.2.1
  obtain ⟨res, mem, hrun, hres⟩ :=
    transfer_spec (s := ec.content) hturn ⟨rfl, Nat.zero_mod _, Or.inl rfl⟩
  refine ⟨res, mem, hrun, ?_⟩
  cases hres with
  | inl hdone => omega
  | inr hfailed => exact hfailed

/-- A write that the EC sees on its flash returns zero, wherever it should have gone. -/
theorem ecWrite_cut (off : Int) (hcut : asU32 off + data.length ≤ ec.content.length)
    (fill : Nat → Byte) :
    ∃ mem, ecWrite ec off data (allOk fill) (data.length + 1) = .returned 0 mem := by
  have hturn : TurnKeeps (ecWriteTurn ec off data (allOk fill))
      (fun done mem => mem.length = ec.content.length ∧ done % ec.writeIdealSize = 0)
      (fun _ => False) data.length := by
    intro call done count mem hcount htotal hI
    have hchunk := chunk_le htotal hmod hI.2 hcount
    have hat := asU32_chunk ec off (Or.inr (by omega : asU32 off + done ≤ ec.content.length))
    have hfits : asU32 (off + done) + ec.writeIdealSize ≤ mem.length := by omega
    have hslice : (slice data done ec.writeIdealSize).length = ec.writeIdealSize :=
      length_slice (by omega)
    have hrun := @ecWriteTurn_fits off ec data hpacket call _ _ _ _ (allOk fill) rfl mem hchunk
      (Nat.le_of_eq htotal) hfits
    refine Or.inl ⟨_, _, hrun, Nat.pos_of_ne_zero hsize, hchunk, ?_, ?_⟩
    · rw [length_splice (by rw [hslice]; exact hfits), hI.1]
    · rw [Nat.add_mod_right]
      exact hI.2
  obtain ⟨res, mem, hrun, hres⟩ := transfer_spec (s := ec.content) hturn ⟨rfl, Nat.zero_mod _⟩
  cases hres with
  | inl hdone => exact ⟨mem, hdone.1 ▸ hrun⟩
  | inr hfalse => exact hfalse.elim

omit hpacket in
theorem ecWrite_meets_iff (off : Int) :
    (∀ answers, ∃ fuel res mem, ecWrite ec off data answers fuel = .returned res mem ∧
      (res = 0 → ¬ Outside (.ec ec) off data.length ∧
        mem = splice ec.content off.toNat data)) ↔
      (data.length = 0 ∨ (PacketFits ec ∧
        (Inside (.ec ec) off data.length ∨ (Device.ec ec).getSize < asU32 off + data.length))) := by
  have hlength : ec.content.length = (Device.ec ec).getSize := (Device.ec ec).content_length
  rw [← hlength]
  by_cases hdata : data.length = 0
  · refine iff_of_true (fun answers => ?_) (Or.inl hdata)
    rw [List.length_eq_zero_iff] at hdata
    subst hdata
    refine ⟨1, 0, ec.content, rfl, fun _ => ⟨not_outside_zero, ?_⟩⟩
    rw [splice_nil]
  rw [or_iff_right hdata]
  constructor
  · intro hmeets
    obtain ⟨fuel, res, mem, hrun, hres⟩ := hmeets (allOk fun _ => 0#8)
    have hpacket : PacketFits ec := by
      by_contra hnot
      -- the first turn copies behind the packet
      have hfault : ∀ fuel, ecWrite ec off data (allOk fun _ => 0#8) fuel = .running ∨
          ecWrite ec off data (allOk fun _ => 0#8) fuel = .fault := by
        intro fuel
        cases fuel with
        | zero => exact Or.inl rfl
        | succ fuel =>
            right
            have hbound := ec.writeIdealSize_lt
            unfold PacketFits sizeofFlashWrite u32Limit at hnot
            unfold u32Limit at hbound
            unfold ecWrite transfer ecWriteTurn sizeofFlashWrite u32Limit
            dsimp only
            rw [if_neg hdata, if_pos (Or.inl (by omega))]
      cases hfault fuel with
      | inl hrunning =>
          rw [hrun] at hrunning
          cases hrunning
      | inr hfault =>
          rw [hrun] at hfault
          cases hfault
    refine ⟨hpacket, ?_⟩
    by_contra hnot
    rw [not_or] at hnot
    obtain ⟨mem', hrun'⟩ := ecWrite_cut ec hpacket hsize hmod off (Nat.le_of_not_lt hnot.2)
      (fun _ => 0#8)
    obtain ⟨hzero, _⟩ := transfer_unique hrun hrun'
    exact (hres hzero).1 (outside_iff.mpr ⟨hdata, hnot.1⟩)
  · intro hsafe answers
    obtain ⟨hpacket, hsafe⟩ := hsafe
    by_cases hin : Inside (.ec ec) off data.length
    · obtain ⟨res, mem, hrun, hres⟩ :=
        ecWrite_inside ec hpacket hsize hmod hin.1 (hlength ▸ hin.2) answers
      exact ⟨_, res, mem, hrun, fun hzero => ⟨hin.not_outside, hres hzero⟩⟩
    · cases hsafe with
      | inl hyes => exact absurd hyes hin
      | inr hover =>
          obtain ⟨res, mem, hrun, hres⟩ :=
            ecWrite_refused ec hpacket hsize hmod off hdata hover answers
          exact ⟨_, res, mem, hrun, fun hzero => absurd hzero hres⟩

end Ec

end DragonDevice.Recovery.Backend
