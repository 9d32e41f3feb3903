/-
  Audio/CaptureBounds.lean --- where the reading of frames writes, and that it notices errors.

  Here reads may fail at any time.  An error of `pcm_read` is what the reading returns, and with
  effects and a resampler that give no more frames than they are asked for, the caller's buffer
  is written within the frames of the request.
-/
import DragonDevice.Audio.Capture

set_option autoImplicit false

namespace DragonDevice.Audio

open DragonDevice.Lib

variable {α : Type} {world : CaptureWorld α} {format : CaptureFormat}

/-- Effects and the resampler stay within the frames they are offered and asked for, in frames of
the stream's configuration. -/
structure CaptureWorld.Within (world : CaptureWorld α) (channels : Nat) : Prop where
  consumed : world.Compliant channels
  produced : ∀ round effect offered room,
    (world.process round effect offered room).produced ≤ room
  output : ∀ round effect offered room,
    (world.process round effect offered room).output.length ≤ room * channels
  frames : ∀ call wanted, (world.resample call wanted).frames ≤ wanted
  resampled : ∀ call wanted, (world.resample call wanted).output.length ≤ wanted * channels

/-- Reads that led from one state of the buffers to another: the status is an error or 0, and
unless it is an error none of them failed. -/
structure ReadsNoted (world : CaptureWorld α) (b b' : CaptureBuffers α) : Prop where
  status : b'.readStatus ≤ 0
  grown : b.reads ≤ b'.reads
  noted : b'.readStatus = 0 → ∀ k, b.reads ≤ k → k < b'.reads → world.readError k = 0

theorem ReadsNoted.refl {b : CaptureBuffers α} (h : b.readStatus ≤ 0) : ReadsNoted world b b :=
  ⟨h, Nat.le_refl _, fun _ _ hle hlt => absurd hlt (Nat.not_lt.mpr hle)⟩

/-! ## Reading frames -/

/-- One buffer from the provider. -/
theorem getNextBuffer_noted {b : CaptureBuffers α} (h : b.readStatus ≤ 0) (frameCount : Nat) :
    ReadsNoted world b (getNextBuffer world format b frameCount).1 ∧
      (getNextBuffer world format b frameCount).2.1 ≤ frameCount := by
  unfold getNextBuffer
  by_cases hempty : b.readBufFrames = 0
  · rw [if_pos hempty]
    dsimp only
    have hlast : ∀ k, b.reads ≤ k → k < b.reads + 1 → k = b.reads := fun k hle hlt => by omega
    split
    · rename_i hstatus
      refine ⟨⟨?_, Nat.le_succ _, fun hzero => absurd hzero hstatus⟩, Nat.zero_le _⟩
      dsimp only
      omega
    · rename_i hstatus
      refine ⟨⟨?_, Nat.le_succ _, fun _ k hle hlt => ?_⟩, Nat.min_le_left _ _⟩
      · dsimp only
        omega
      · rw [hlast k hle hlt]
        omega
  · rw [if_neg hempty]
    exact ⟨.refl h, Nat.min_le_left _ _⟩

/-- A resampler leaves an error or 0. -/
theorem pullBuffers_status (pulls : List Nat) {b : CaptureBuffers α} (h : b.readStatus ≤ 0) :
    (pullBuffers world format b pulls).readStatus ≤ 0 ∧
      b.reads ≤ (pullBuffers world format b pulls).reads := by
  induction pulls generalizing b with
  | nil => exact ⟨h, Nat.le_refl _⟩
  | cons frameCount pulls ih =>
      obtain ⟨hnoted, -⟩ := @getNextBuffer_noted _ world format _ h frameCount
      obtain ⟨hstatus, hgrown⟩ := @ih (releaseBuffer
        (getNextBuffer world format b frameCount).1 (getNextBuffer world format b frameCount).2.1)
        hnoted.status
      exact ⟨hstatus, Nat.le_trans hnoted.grown hgrown⟩

/-- One turn of the loop, within what is missing. -/
structure TurnRead (world : CaptureWorld α) (format : CaptureFormat) (resampler : Bool)
    (b b' : CaptureBuffers α) (framesWr wanted framesRd : Nat)
    (write : Option (Nat × List α)) : Prop where
  status : b'.readStatus ≤ 0
  grown : b.reads ≤ b'.reads
  noted : resampler = false → ReadsNoted world b b'
  bound : world.Within format.channels → framesRd ≤ wanted
  within : world.Within format.channels → format.pcmChannels = format.channels → ∀ w ∈ write,
    w.1 + w.2.length ≤ (framesWr + wanted) * format.channels

theorem readTurn_read (world : CaptureWorld α) (format : CaptureFormat) (resampler : Bool)
    {b : CaptureBuffers α} (h : b.readStatus ≤ 0) (framesWr wanted : Nat) :
    TurnRead world format resampler b (readTurn world format resampler b framesWr wanted).1
      framesWr wanted (readTurn world format resampler b framesWr wanted).2.1
      (readTurn world format resampler b framesWr wanted).2.2 := by
  cases resampler with
  | true =>
      rw [readTurn, if_pos rfl]
      obtain ⟨hstatus, hgrown⟩ := @pullBuffers_status _ world format
        (world.resample b.resamplings wanted).pulls
        { b with resamplings := b.resamplings + 1 } h
      refine ⟨hstatus, hgrown, nofun, fun hworld => hworld.frames _ _,
        fun hworld hchannels w hw => ?_⟩
      cases hw
      have hlen := hworld.resampled b.resamplings wanted
      rw [hchannels, Nat.add_mul]
      exact Nat.add_le_add_left hlen _
  | false =>
      rw [readTurn, if_neg Bool.false_ne_true]
      obtain ⟨hnoted, hcount⟩ := @getNextBuffer_noted _ world format b h wanted
      generalize getNextBuffer world format b wanted = next at hnoted hcount
      obtain ⟨b', count, place⟩ := next
      have hreleased : ReadsNoted world b (releaseBuffer b' count) :=
        ⟨hnoted.status, hnoted.grown, hnoted.noted⟩
      cases place with
      | none =>
          exact ⟨hnoted.status, hnoted.grown, fun _ => hreleased, fun _ => Nat.le_refl _, nofun⟩
      | some place =>
          refine ⟨hnoted.status, hnoted.grown, fun _ => hreleased, fun _ => hcount,
            fun _ hchannels w hw => ?_⟩
          cases hw
          dsimp only
          rw [length_load, hchannels, ← Nat.add_mul]
          exact Nat.mul_le_mul_right _ (Nat.add_le_add_left hcount _)

/-- What a reading does to the buffers and returns.  Without a resampler, every read counts. -/
structure FramesRead (world : CaptureWorld α) (format : CaptureFormat) (resampler : Bool)
    (frames : Nat) (b b' : CaptureBuffers α) (ret : Option Int) : Prop where
  status : b'.readStatus ≤ 0
  grown : b.reads ≤ b'.reads
  bound : world.Within format.channels → ∀ v, ret = some v → v ≤ frames
  noted : resampler = false → ∀ v, ret = some v → 0 ≤ v →
    ∀ k, b.reads ≤ k → k < b'.reads → world.readError k = 0

/-- The loop, for any number of turns. -/
theorem readLoop_read (world : CaptureWorld α) (format : CaptureFormat) (resampler : Bool)
    {turns : Nat} {b : CaptureBuffers α} {frames framesWr : Nat} (h : b.readStatus ≤ 0)
    (hle : world.Within format.channels → framesWr ≤ frames) :
    FramesRead world format resampler frames b
        (readLoop world format resampler turns b frames framesWr).1
        (readLoop world format resampler turns b frames framesWr).2.1 ∧
      (world.Within format.channels → format.pcmChannels = format.channels →
        ∀ w ∈ (readLoop world format resampler turns b frames framesWr).2.2,
          w.1 + w.2.length ≤ frames * format.channels) := by
  induction turns generalizing b framesWr with
  | zero =>
      exact ⟨⟨h, Nat.le_refl _, nofun, nofun⟩, nofun⟩
  | succ turns ih =>
      rw [readLoop]
      by_cases hlt : framesWr < frames
      · rw [if_pos hlt]
        have hturn := readTurn_read world format resampler h framesWr (frames - framesWr)
        generalize readTurn world format resampler b framesWr (frames - framesWr) = turn at hturn
        obtain ⟨b₁, framesRd, write⟩ := turn
        dsimp only at hturn ⊢
        have hsum : framesWr + (frames - framesWr) = frames := by omega
        have hbound := hturn.bound
        have hwithin := hturn.within
        rw [hsum] at hwithin
        by_cases hstatus : b₁.readStatus ≠ 0
        · rw [if_pos hstatus]
          have hnegative := hturn.status
          refine ⟨⟨hnegative, hturn.grown, fun _ v hv => ?_, fun _ v hv hnonneg => ?_⟩, ?_⟩
          · cases hv
            omega
          · cases hv
            omega
          · intro hworld hchannels w hw
            exact hwithin hworld hchannels w (Option.mem_toList.mp hw)
        · rw [if_neg hstatus]
          have hzero := Decidable.not_not.mp hstatus
          obtain ⟨hrest, hwrites⟩ := @ih b₁ (framesWr + framesRd) hturn.status
            fun hworld => by have hbound := hbound hworld; omega
          refine ⟨⟨hrest.status, Nat.le_trans hturn.grown hrest.grown, hrest.bound, ?_⟩, ?_⟩
          · intro hresampler v hv hnonneg k hle hlt
            by_cases hk : k < b₁.reads
            · exact (hturn.noted hresampler).noted hzero k hle hk
            · exact hrest.noted hresampler v hv hnonneg k (Nat.not_lt.mp hk) hlt
          · intro hworld hchannels w hw
            rcases List.mem_append.mp hw with hw | hw
            · exact hwithin hworld hchannels w (Option.mem_toList.mp hw)
            · exact hwrites hworld hchannels w hw
      · rw [if_neg hlt]
        refine ⟨⟨h, Nat.le_refl _, fun hworld v hv => ?_, fun _ _ _ _ k hle hlt => ?_⟩, nofun⟩
        · cases hv
          exact Int.ofNat_le.mpr (hle hworld)
        · exact absurd hlt (Nat.not_lt.mpr hle)

theorem readFrames_read (world : CaptureWorld α) (format : CaptureFormat) (resampler : Bool)
    (patience : Nat) {b : CaptureBuffers α} (h : b.readStatus ≤ 0) (frames : Nat) :
    FramesRead world format resampler frames b
        (readFrames world format resampler patience b frames).1
        (readFrames world format resampler patience b frames).2.1 ∧
      (world.Within format.channels → format.pcmChannels = format.channels →
        ∀ w ∈ (readFrames world format resampler patience b frames).2.2,
          w.1 + w.2.length ≤ frames * format.channels) :=
  readLoop_read world format resampler h fun _ => Nat.zero_le frames

/-! ## Effects -/

/-- A round of effects stays within the room that the first of them has. -/
theorem runEffects_within (hworld : world.Within format.channels) (round : Nat)
    (bufIn : Nat → α) (effects : List Nat) (consumed room : Nat) :
    ∀ output ∈ (runEffects world format round bufIn effects consumed room).2.2,
      output.length ≤ room * format.channels := by
  induction effects generalizing consumed room with
  | nil => exact nofun
  | cons effect effects ih =>
      intro output houtput
      rcases List.mem_cons.mp houtput with rfl | houtput
      · exact hworld.output round effect _ room
      · exact Nat.le_trans (ih _ _ output houtput)
          (Nat.mul_le_mul_right _ (hworld.produced round effect _ room))

/-- A round of effects reads nothing from the device. -/
theorem processRound_within (world : CaptureWorld α) (format : CaptureFormat)
    (effects : List Nat) (b : CaptureBuffers α) (framesNum framesWr : Nat) :
    ∃ b' consumed produced outputs,
      processRound world format effects b framesNum framesWr = (b', consumed, produced, outputs) ∧
      b'.readStatus = b.readStatus ∧ b'.reads = b.reads ∧
      (world.Within format.channels →
        ∀ output ∈ outputs, output.length ≤ (framesNum - framesWr) * format.channels) :=
  ⟨_, _, _, _, rfl, rfl, rfl, fun hworld => runEffects_within hworld b.rounds b.procBufIn effects
    b.procBufFrames (framesNum - framesWr)⟩

theorem reloadProcBuf_read (world : CaptureWorld α) (format : CaptureFormat) (resampler : Bool)
    (patience : Nat) {b : CaptureBuffers α} (h : b.readStatus ≤ 0) (framesNum : Nat) :
    FramesRead world format resampler framesNum b
      (reloadProcBuf world format resampler patience b framesNum).1
      (reloadProcBuf world format resampler patience b framesNum).2 := by
  unfold reloadProcBuf
  by_cases hlt : b.procBufFrames < framesNum
  · rw [if_pos hlt]
    obtain ⟨hread, -⟩ := readFrames_read world format resampler patience h
      (framesNum - b.procBufFrames)
    generalize readFrames world format resampler patience b (framesNum - b.procBufFrames) = result
      at hread
    obtain ⟨b₁, ret, writes⟩ := result
    dsimp only at hread ⊢
    cases ret with
    | none => exact ⟨hread.status, hread.grown, nofun, nofun⟩
    | some framesRd =>
        dsimp only
        by_cases hnegative : framesRd < 0
        · rw [if_pos hnegative]
          refine ⟨hread.status, hread.grown, fun _ v hv => ?_, fun _ v hv hnonneg => ?_⟩
          · cases hv
            omega
          · cases hv
            omega
        · rw [if_neg hnegative]
          refine ⟨hread.status, hread.grown, fun _ v hv => ?_, fun hresampler v hv _ => ?_⟩
          · cases hv
            exact Int.natCast_nonneg _
          · exact hread.noted hresampler framesRd rfl (Int.not_lt.mp hnegative)
  · rw [if_neg hlt]
    refine ⟨h, Nat.le_refl _, fun _ v hv => ?_, fun _ _ _ _ k hle hlt => ?_⟩
    · cases hv
      exact Int.natCast_nonneg _
    · exact absurd hlt (Nat.not_lt.mpr hle)

/-- The loop with effects, for any number of rounds. -/
theorem processLoop_read (world : CaptureWorld α) (format : CaptureFormat) (resampler : Bool)
    (patience : Nat) (effects : List Nat) (inPlace : Bool) {rounds : Nat}
    {b : CaptureBuffers α} {framesNum framesWr : Nat} (h : b.readStatus ≤ 0)
    (hle : framesWr ≤ framesNum) :
    ∃ b' ret offers written,
      processLoop world format resampler patience effects inPlace rounds b framesNum framesWr =
        (b', ret, offers, written) ∧
      FramesRead world format resampler framesNum b b' ret ∧
      (world.Within format.channels →
        ∀ w ∈ written, inPlace = true ∧ w.1 + w.2 ≤ framesNum * format.channels) := by
  induction rounds generalizing b framesWr with
  | zero =>
      exact ⟨b, none, [], [], rfl, ⟨h, Nat.le_refl _, nofun, nofun⟩, nofun⟩
  | succ rounds ih =>
      rw [processLoop]
      by_cases hlt : framesWr < framesNum
      · rw [if_pos hlt]
        have hreload := reloadProcBuf_read world format resampler patience h framesNum
        generalize reloadProcBuf world format resampler patience b framesNum = reload at hreload
        obtain ⟨b₁, status⟩ := reload
        cases status with
        | none => exact ⟨b₁, none, [], [], rfl, hreload, nofun⟩
        | some status =>
            dsimp only
            by_cases hnegative : status < 0
            · rw [if_pos hnegative]
              exact ⟨b₁, some status, [], [], rfl, hreload, nofun⟩
            · rw [if_neg hnegative]
              obtain ⟨b₂, consumed, produced, outputs, hround, hstatus, hreads, houtputs⟩ :=
                processRound_within world format effects b₁ framesNum framesWr
              rw [hround]
              dsimp only
              have hnext : (if framesWr + produced ≤ framesNum then framesWr + produced
                  else framesNum) ≤ framesNum := by
                split <;> omega
              obtain ⟨b₃, ret, offers, written, hloop, hread, hwritten⟩ :=
                ih (hstatus ▸ hreload.status) hnext
              rw [hloop]
              have hgrown := hread.grown
              rw [hreads] at hgrown
              refine ⟨b₃, ret, _, _, rfl, ⟨hread.status, Nat.le_trans hreload.grown hgrown,
                hread.bound, ?_⟩, ?_⟩
              · intro hresampler v hv hnonneg k hk hk'
                by_cases hfirst : k < b₁.reads
                · exact hreload.noted hresampler status rfl (Int.not_lt.mp hnegative) k hk hfirst
                · refine hread.noted hresampler v hv hnonneg k ?_ hk'
                  rw [hreads]
                  exact Nat.not_lt.mp hfirst
              · intro hworld w hw
                rcases List.mem_append.mp hw with hw | hw
                · split at hw
                  · rename_i hinPlace
                    obtain ⟨output, houtput, rfl⟩ := List.mem_map.mp hw
                    have hlen := houtputs hworld output houtput
                    have hsum : framesWr * format.channels +
                        (framesNum - framesWr) * format.channels =
                        framesNum * format.channels := by
                      rw [← Nat.add_mul, Nat.add_sub_cancel' hle]
                    refine ⟨hinPlace, ?_⟩
                    dsimp only
                    omega
                  · cases hw
                · exact hwritten hworld w hw
      · rw [if_neg hlt]
        refine ⟨b, some framesWr, [], [], rfl, ⟨h, Nat.le_refl _, fun _ v hv => ?_,
          fun _ _ _ _ k hle hlt => ?_⟩, nofun⟩
        · cases hv
          exact Int.ofNat_le.mpr hle
        · exact absurd hlt (Nat.not_lt.mpr hle)

/-! ## Requests -/

/-- The channel adjustment writes the frames that were read. -/
theorem adjustWrites_within {ret : Option Int} {frames : Nat} (h : ∀ v, ret = some v → v ≤ frames) :
    ∀ w ∈ adjustWrites format ret, w.1 + w.2 ≤ frames * format.mainChannels := by
  intro w hw
  unfold adjustWrites at hw
  split at hw
  · rename_i n
    have hn : n + 1 ≤ frames := Int.ofNat_le.mp (h _ rfl)
    split at hw
    · rw [List.mem_singleton.mp hw, Nat.zero_add]
      exact Nat.mul_le_mul_right _ hn
    · cases hw
  · cases hw

theorem requestBufs_reads (effects : List Nat) (b : CaptureBuffers α) (framesNum : Nat) :
    (requestBufs format effects b framesNum).readStatus = b.readStatus ∧
      (requestBufs format effects b framesNum).reads = b.reads := by
  unfold requestBufs
  split <;> exact ⟨rfl, rfl⟩

theorem remaps_eq_false : format.remaps = false ↔ format.mainChannels = format.channels := by
  rw [CaptureFormat.remaps, decide_eq_false_iff_not, not_not]

/-- A request writes to the caller's buffer within its frames, if frames that need no adjustment
are frames of the PCM. -/
theorem readAndProcessFrames_read (world : CaptureWorld α) (format : CaptureFormat)
    (resampler : Bool) (patience rounds : Nat) (effects : List Nat) {b : CaptureBuffers α}
    (h : b.readStatus ≤ 0) (framesNum : Nat) :
    ∃ b' ret trace,
      readAndProcessFrames world format resampler patience rounds effects b framesNum =
        (b', ret, trace) ∧
      FramesRead world format resampler framesNum b b' ret ∧
      (world.Within format.channels →
        (format.mainChannels = format.channels → format.pcmChannels = format.channels) →
        ∀ w ∈ trace.written, w.1 + w.2 ≤ framesNum * format.mainChannels) := by
  obtain ⟨hstatus, hreads⟩ := @requestBufs_reads _ format effects b framesNum
  have hkept : ∀ {b' : CaptureBuffers α} {ret : Option Int},
      FramesRead world format resampler framesNum (requestBufs format effects b framesNum) b' ret →
      FramesRead world format resampler framesNum b b' ret := by
    intro b' ret hread
    have hgrown := hread.grown
    have hnoted := hread.noted
    rw [hreads] at hgrown hnoted
    exact ⟨hread.status, hgrown, hread.bound, hnoted⟩
  rw [readAndProcessFrames]
  by_cases heffects : effects ≠ []
  · rw [if_pos heffects]
    obtain ⟨b', ret, offers, written, hloop, hread, hwritten⟩ := processLoop_read world format
      resampler patience effects (!format.remaps) (hstatus ▸ h) (Nat.zero_le framesNum)
    rw [hloop]
    refine ⟨b', ret, _, rfl, hkept hread, fun hworld _ w hw => ?_⟩
    rcases List.mem_append.mp hw with hw | hw
    · obtain ⟨hinPlace, hle⟩ := hwritten hworld w hw
      rwa [remaps_eq_false.mp ((Bool.not_eq_true' _).mp hinPlace)]
    · exact adjustWrites_within (hread.bound hworld) w hw
  · rw [if_neg heffects]
    obtain ⟨hread, hwrites⟩ := readFrames_read world format resampler patience (hstatus ▸ h)
      framesNum
    generalize readFrames world format resampler patience (requestBufs format effects b framesNum)
      framesNum = result at hread hwrites
    obtain ⟨b', ret, writes⟩ := result
    dsimp only at hread hwrites ⊢
    refine ⟨_, ret, _, rfl, hkept ?_, fun hworld hpcm w hw => ?_⟩
    · split
      · exact ⟨hread.status, hread.grown, hread.bound, hread.noted⟩
      · exact hread
    · rcases List.mem_append.mp hw with hw | hw
      · split at hw
        · cases hw
        · rename_i hremaps
          have hmain := remaps_eq_false.mp (Bool.not_eq_true _ ▸ hremaps)
          obtain ⟨write, hwrite, rfl⟩ := List.mem_map.mp hw
          rw [hmain]
          exact hwrites hworld (hpcm hmain) write hwrite
      · exact adjustWrites_within (hread.bound hworld) w hw

end DragonDevice.Audio
