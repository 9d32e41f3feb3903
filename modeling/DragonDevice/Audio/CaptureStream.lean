/-
  Audio/CaptureStream.lean --- captured frames are neither lost, repeated nor reordered.

  Without a resampler and with reads that succeed, the period buffer always holds the last
  frames that the device delivered, and the processing buffer the ones before them that no
  effect has consumed.  The frames handed on are then the device's, from where the stream was
  started.  What a round of effects leaves is shifted by `memcpy`, which is defined only while
  no more is left than was consumed.
-/
import DragonDevice.Audio.Capture

set_option autoImplicit false

namespace DragonDevice.Audio

open DragonDevice.Lib

variable {α : Type} {world : CaptureWorld α} {format : CaptureFormat}

/-- A PCM with the channels of the configuration, read without errors. -/
structure Faultless (world : CaptureWorld α) (format : CaptureFormat) : Prop where
  channels : format.pcmChannels = format.channels
  period : 0 < format.periodSize
  reads : ∀ k, world.readError k = 0

/-! ## The period buffer -/

/-- The next frame of the device that the period buffer gives. -/
def CaptureBuffers.next (b : CaptureBuffers α) : Nat := b.position - b.readBufFrames

/-- The end of the period buffer holds the last frames that the device delivered. -/
structure PeriodKept (world : CaptureWorld α) (format : CaptureFormat) (b : CaptureBuffers α) :
    Prop where
  period : b.readBufFrames ≤ format.periodSize
  delivered : b.readBufFrames ≤ b.position
  status : b.readBufFrames ≠ 0 → b.readStatus = 0
  held : load b.readBuf ((format.periodSize - b.readBufFrames) * format.channels)
      (b.readBufFrames * format.channels) =
    load world.samples (b.next * format.channels) (b.readBufFrames * format.channels)

/-- Nothing of the processing buffers has changed. -/
structure SameProc (b b' : CaptureBuffers α) : Prop where
  bufIn : b'.procBufIn = b.procBufIn
  frames : b'.procBufFrames = b.procBufFrames
  size : b'.procBufSize = b.procBufSize
  bufOut : b'.procBufOut = b.procBufOut

theorem SameProc.trans {b₁ b₂ b₃ : CaptureBuffers α} (h₁ : SameProc b₁ b₂)
    (h₂ : SameProc b₂ b₃) : SameProc b₁ b₃ where
  bufIn := h₂.bufIn.trans h₁.bufIn
  frames := h₂.frames.trans h₁.frames
  size := h₂.size.trans h₁.size
  bufOut := h₂.bufOut.trans h₁.bufOut

/-- A stretch of frames taken from the front of another. -/
theorem load_front {mem mem' : Nat → α} {off off' len count : Nat} (hle : count ≤ len)
    (h : load mem off len = load mem' off' len) : load mem off count = load mem' off' count := by
  obtain ⟨rest, rfl⟩ := Nat.exists_eq_add_of_le hle
  rw [load_add, load_add] at h
  exact (List.append_inj h (by simp)).1

/-- What is left of it. -/
theorem load_back {mem mem' : Nat → α} {off off' len count : Nat} (hle : count ≤ len)
    (h : load mem off len = load mem' off' len) :
    load mem (off + count) (len - count) = load mem' (off' + count) (len - count) := by
  obtain ⟨rest, rfl⟩ := Nat.exists_eq_add_of_le hle
  rw [load_add, load_add] at h
  rw [Nat.add_sub_cancel_left]
  exact (List.append_inj h (by simp)).2

/-- Frames are taken from a period buffer that has some. -/
theorem PeriodKept.take {b : CaptureBuffers α} (h : PeriodKept world format b) {count : Nat}
    (hle : count ≤ b.readBufFrames) :
    PeriodKept world format (releaseBuffer b count) ∧
      (releaseBuffer b count).next = b.next + count ∧
      load b.readBuf ((format.periodSize - b.readBufFrames) * format.channels)
        (count * format.channels) =
        load world.samples (b.next * format.channels) (count * format.channels) := by
  have hperiod := h.period
  have hdelivered := h.delivered
  have hle' : count * format.channels ≤ b.readBufFrames * format.channels :=
    Nat.mul_le_mul_right _ hle
  have hnext : (releaseBuffer b count).next = b.next + count := by
    simp only [CaptureBuffers.next, releaseBuffer]
    omega
  refine ⟨⟨?_, ?_, ?_, ?_⟩, hnext, load_front hle' h.held⟩
  · simp only [releaseBuffer]
    omega
  · simp only [releaseBuffer]
    omega
  · intro hne
    refine h.status ?_
    simp only [releaseBuffer] at hne
    omega
  · have hback := load_back hle' h.held
    rw [← Nat.add_mul, ← Nat.add_mul, ← Nat.sub_mul] at hback
    rw [hnext]
    simp only [releaseBuffer]
    rwa [show format.periodSize - (b.readBufFrames - count) =
      format.periodSize - b.readBufFrames + count by omega]

/-- The period buffer after a read that succeeded. -/
theorem PeriodKept.refill {b : CaptureBuffers α} (hfault : Faultless world format)
    (hempty : b.readBufFrames = 0) :
    ∃ b', PeriodKept world format b' ∧ b'.next = b.next ∧ b'.readBufFrames = format.periodSize ∧
      SameProc b b' ∧ ∀ frameCount, getNextBuffer world format b frameCount =
        (b', min frameCount b'.readBufFrames, some 0) := by
  refine ⟨?b', ?_, ?_, ?_, ?_, fun frameCount => ?_⟩
  rotate_left 5
  · unfold getNextBuffer
    rw [if_pos hempty]
    simp only [hfault.reads b.reads, Int.natCast_zero, Int.neg_zero, ne_eq, not_true_eq_false,
      if_false]
    rfl
  · refine ⟨Nat.le_refl _, Nat.le_add_left _ _, fun _ => rfl, ?_⟩
    simp only [CaptureBuffers.next, Nat.sub_self, Nat.zero_mul, Nat.add_sub_cancel,
      hfault.channels]
    have hself := load_store_self b.readBuf 0 (load world.samples (b.position * format.channels)
      (format.periodSize * format.channels))
    rwa [length_load] at hself
  · simp [CaptureBuffers.next, hempty]
  · rfl
  · exact ⟨rfl, rfl, rfl, rfl⟩

/-- One turn of the loop: at least a frame, and the next ones of the device. -/
theorem readTurn_spec {b : CaptureBuffers α} (hfault : Faultless world format)
    (h : PeriodKept world format b) {wanted : Nat} (hwanted : 0 < wanted) (framesWr : Nat) :
    ∃ b' count, readTurn world format false b framesWr wanted =
        (b', count, some (framesWr * format.channels,
          load world.samples (b.next * format.channels) (count * format.channels))) ∧
      0 < count ∧ count ≤ wanted ∧ PeriodKept world format b' ∧ b'.next = b.next + count ∧
      b'.readStatus = 0 ∧ SameProc b b' := by
  obtain ⟨b₁, place, hget, hkept, hnext, hframes, hplace, hsame⟩ : ∃ b₁ place,
      getNextBuffer world format b wanted = (b₁, min wanted b₁.readBufFrames, some place) ∧
      PeriodKept world format b₁ ∧ b₁.next = b.next ∧ 0 < b₁.readBufFrames ∧
      place = (format.periodSize - b₁.readBufFrames) * format.channels ∧ SameProc b b₁ := by
    by_cases hempty : b.readBufFrames = 0
    · obtain ⟨b₁, hkept, hnext, hframes, hsame, hget⟩ := PeriodKept.refill hfault hempty
      refine ⟨b₁, 0, hget wanted, hkept, hnext, ?_, ?_, hsame⟩
      · rw [hframes]
        exact hfault.period
      · rw [hframes, Nat.sub_self, Nat.zero_mul]
    · refine ⟨b, _, ?_, h, rfl, Nat.pos_of_ne_zero hempty, rfl, ⟨rfl, rfl, rfl, rfl⟩⟩
      rw [getNextBuffer, if_neg hempty]
  obtain ⟨hkept', hnext', hdata⟩ := hkept.take (Nat.min_le_right wanted b₁.readBufFrames)
  refine ⟨releaseBuffer b₁ (min wanted b₁.readBufFrames), min wanted b₁.readBufFrames, ?_, ?_,
    Nat.min_le_left _ _, hkept', ?_, hkept.status (Nat.pos_iff_ne_zero.mp hframes),
    hsame.trans ⟨rfl, rfl, rfl, rfl⟩⟩
  · rw [readTurn, if_neg Bool.false_ne_true, hget]
    dsimp only
    rw [hfault.channels, hplace, hdata, hnext]
  · exact Nat.lt_min.mpr ⟨hwanted, hframes⟩
  · rw [hnext', hnext]

/-! ## Reading frames -/

/-- The writes lay the frames from one to another of the destination, and nothing before them:
the next frames of the device. -/
def LaysFrames (world : CaptureWorld α) (channels next framesWr frames : Nat)
    (writes : List (Nat × List α)) : Prop :=
  ∀ (mem : Nat → α) (base : Nat),
    (∀ k, k < base + framesWr * channels → storeAll mem base writes k = mem k) ∧
      load (storeAll mem base writes) (base + framesWr * channels)
        ((frames - framesWr) * channels) =
          load world.samples (next * channels) ((frames - framesWr) * channels)

theorem LaysFrames.cons {channels next framesWr count frames : Nat}
    {writes : List (Nat × List α)} (hle : framesWr + count ≤ frames)
    (h : LaysFrames world channels (next + count) (framesWr + count) frames writes) :
    LaysFrames world channels next framesWr frames
      ((framesWr * channels, load world.samples (next * channels) (count * channels)) ::
        writes) := by
  intro mem base
  generalize hdata : load world.samples (next * channels) (count * channels) = data
  have hlen : data.length = count * channels := by rw [← hdata, length_load]
  have hcons : storeAll mem base ((framesWr * channels, data) :: writes) =
      storeAll (store mem (base + framesWr * channels) data) base writes := rfl
  obtain ⟨hbefore, hrest⟩ := h (store mem (base + framesWr * channels) data) base
  rw [hcons]
  have hadd : (framesWr + count) * channels = framesWr * channels + count * channels :=
    Nat.add_mul _ _ _
  refine ⟨fun k hk => ?_, ?_⟩
  · rw [hbefore k (by omega)]
    exact store_of_lt mem data hk
  · rw [show frames - framesWr = count + (frames - (framesWr + count)) by omega, Nat.add_mul,
      load_add, load_add, ← Nat.add_mul, hdata]
    congr 1
    · -- what this write laid is not touched by the ones after it
      have hself := load_store_self mem (base + framesWr * channels) data
      rw [hlen] at hself
      refine Eq.trans (load_congr fun k hk => ?_) hself
      exact hbefore _ (by omega)
    · rw [show base + framesWr * channels + count * channels =
        base + (framesWr + count) * channels by omega]
      exact hrest

/-- The loop reads what is missing. -/
theorem readLoop_spec (hfault : Faultless world format) {turns : Nat} {b : CaptureBuffers α}
    {frames framesWr : Nat} (h : PeriodKept world format b) (hle : framesWr ≤ frames)
    (hturns : frames - framesWr < turns) :
    ∃ b' writes, readLoop world format false turns b frames framesWr =
        (b', some (frames : Int), writes) ∧ PeriodKept world format b' ∧
      b'.next = b.next + (frames - framesWr) ∧ SameProc b b' ∧
      LaysFrames world format.channels b.next framesWr frames writes := by
  induction turns generalizing b framesWr with
  | zero => omega
  | succ turns ih =>
      by_cases hlt : framesWr < frames
      · obtain ⟨b₁, count, hturn, hpos, hcount, hkept, hnext, hstatus, hsame⟩ :=
          readTurn_spec hfault h (Nat.sub_pos_of_lt hlt) framesWr
        obtain ⟨b₂, writes, hloop, hkept₂, hnext₂, hsame₂, hlays⟩ :=
          @ih b₁ (framesWr + count) hkept (by omega) (by omega)
        rw [hnext] at hlays
        refine ⟨b₂, _ :: writes, ?_, hkept₂, ?_, hsame.trans hsame₂, hlays.cons (by omega)⟩
        · rw [readLoop, if_pos hlt, hturn]
          dsimp only
          rw [if_neg (by simp [hstatus]), hloop]
          rfl
        · rw [hnext₂, hnext]
          omega
      · obtain rfl : framesWr = frames := by omega
        refine ⟨b, [], ?_, h, by omega, ⟨rfl, rfl, rfl, rfl⟩, fun mem base => ⟨fun _ _ => rfl, ?_⟩⟩
        · rw [readLoop, if_neg hlt]
        · rw [Nat.sub_self, Nat.zero_mul, load_zero, load_zero]

/-- `read_frames` returns the number of frames asked for. -/
theorem readFrames_spec (hfault : Faultless world format) (patience : Nat)
    {b : CaptureBuffers α} (h : PeriodKept world format b) (frames : Nat) :
    ∃ b' writes, readFrames world format false patience b frames =
        (b', some (frames : Int), writes) ∧ PeriodKept world format b' ∧
      b'.next = b.next + frames ∧ SameProc b b' ∧
      LaysFrames world format.channels b.next 0 frames writes := by
  obtain ⟨b', writes, hloop, hkept, hnext, hsame, hlays⟩ :=
    readLoop_spec hfault h (Nat.zero_le frames) (show frames - 0 < patience + frames + 1 by omega)
  exact ⟨b', writes, hloop, hkept, hnext, hsame, hlays⟩

/-! ## Effects -/

/-- The processing buffer holds the frames between those that were consumed and those that
are still in the period buffer, within its capacity. -/
structure ProcKept (world : CaptureWorld α) (format : CaptureFormat) (b : CaptureBuffers α)
    (consumed : Nat) : Prop where
  period : PeriodKept world format b
  next : b.next = consumed + b.procBufFrames
  held : load b.procBufIn 0 (b.procBufFrames * format.channels) =
    load world.samples (consumed * format.channels) (b.procBufFrames * format.channels)
  capacity : b.procBufFrames * (format.channels * bytesPerSample) ≤ b.procBufSize

/-- The reload fills the buffer up to the request. -/
theorem ProcKept.reload (hfault : Faultless world format) (patience : Nat)
    {b : CaptureBuffers α} {consumed : Nat} (h : ProcKept world format b consumed)
    {framesNum : Nat}
    (hsize : framesNum * (format.channels * bytesPerSample) ≤ b.procBufSize) :
    ∃ b', reloadProcBuf world format false patience b framesNum = (b', some 0) ∧
      ProcKept world format b' consumed ∧ b'.procBufSize = b.procBufSize := by
  unfold reloadProcBuf
  by_cases hlt : b.procBufFrames < framesNum
  · obtain ⟨b₁, writes, hread, hkept, hnext, hsame, hlays⟩ :=
      readFrames_spec hfault patience h.period (framesNum - b.procBufFrames)
    rw [if_pos hlt, hread]
    refine ⟨_, rfl, ⟨⟨hkept.period, hkept.delivered, hkept.status, hkept.held⟩, ?_, ?_, ?_⟩,
      hsame.size⟩
    · have hfirst := h.next
      show b₁.next = consumed + (b₁.procBufFrames + (framesNum - b.procBufFrames : Nat))
      rw [hnext, hsame.frames]
      omega
    · obtain ⟨hbefore, hafter⟩ := hlays b.procBufIn (b.procBufFrames * format.channels)
      dsimp only
      rw [hsame.frames, Int.toNat_natCast, Nat.add_mul, load_add, load_add, ← Nat.add_mul]
      congr 1
      · rw [← h.held]
        exact load_congr fun k hk => hbefore _ (by omega)
      · rw [h.next, Nat.sub_zero, Nat.zero_mul, Nat.add_zero] at hafter
        rw [Nat.zero_add]
        exact hafter
    · dsimp only
      rw [hsame.frames, hsame.size, Int.toNat_natCast,
        show b.procBufFrames + (framesNum - b.procBufFrames) = framesNum by omega]
      exact hsize
  · rw [if_neg hlt]
    exact ⟨b, rfl, h, rfl⟩

/-- The effects of a round consume no more than what the first of them was offered. -/
theorem runEffects_consumed (hcompliant : world.Compliant format.channels) (round : Nat)
    (bufIn : Nat → α) (effects : List Nat) (frames room : Nat) :
    (runEffects world format round bufIn effects frames room).1 ≤ frames := by
  induction effects generalizing frames room with
  | nil => exact Nat.le_refl _
  | cons effect effects ih =>
      exact Nat.le_trans (ih _ _) (hcompliant round effect bufIn frames room)

/-- A round takes frames from the front of the buffer and shifts the rest, if it is no more than
what was taken. -/
theorem ProcKept.round (hcompliant : world.Compliant format.channels) (effects : List Nat)
    {b : CaptureBuffers α} {consumed : Nat} (h : ProcKept world format b consumed)
    {framesNum framesWr : Nat}
    (hleaves : b.procBufFrames * format.channels ≤
      2 * ((processRound world format effects b framesNum framesWr).2.1 * format.channels)) :
    ∃ b' taken produced outputs,
      processRound world format effects b framesNum framesWr = (b', taken, produced, outputs) ∧
      taken ≤ b.procBufFrames ∧ ProcKept world format b' (consumed + taken) ∧
      b'.procBufSize = b.procBufSize := by
  have htaken := runEffects_consumed hcompliant b.rounds b.procBufIn effects b.procBufFrames
    (framesNum - framesWr)
  unfold processRound at hleaves ⊢
  generalize runEffects world format b.rounds b.procBufIn effects b.procBufFrames
    (framesNum - framesWr) = ran at htaken hleaves
  obtain ⟨taken, produced, outputs⟩ := ran
  dsimp only at htaken hleaves
  have hadd : taken * format.channels + (b.procBufFrames - taken) * format.channels =
      b.procBufFrames * format.channels := by
    rw [← Nat.add_mul, Nat.add_sub_cancel' htaken]
  refine ⟨_, taken, produced, outputs, rfl, htaken, ⟨⟨h.period.period, h.period.delivered,
    h.period.status, h.period.held⟩, ?_, ?_, ?_⟩, rfl⟩
  · have hnext := h.next
    show b.next = consumed + taken + (b.procBufFrames - taken)
    omega
  · dsimp only
    split
    · have hback := load_back (Nat.mul_le_mul_right format.channels htaken) h.held
      rw [load_memcpy (Or.inl (by omega)), ← Nat.zero_add (taken * format.channels), Nat.add_mul]
      rwa [← Nat.sub_mul] at hback
    · rename_i hleft
      rw [Decidable.not_not.mp hleft, Nat.zero_mul, load_zero, load_zero]
  · refine Nat.le_trans (Nat.mul_le_mul_right _ (Nat.sub_le _ _)) h.capacity

/-- The frames that were consumed in some rounds. -/
def consumedBy (offers : List (List α × Nat)) : Nat :=
  offers.foldr (fun offer n => offer.2 + n) 0

/-- Each time the effects are offered the frames from the first one on that is not consumed,
as the device recorded them. -/
def Unconsumed (world : CaptureWorld α) (channels : Nat) : Nat → List (List α × Nat) → Prop
  | _, [] => True
  | start, offer :: offers =>
      (∃ frames, offer.1 = load world.samples (start * channels) (frames * channels) ∧
        offer.2 ≤ frames) ∧ Unconsumed world channels (start + offer.2) offers

/-- No round leaves more than it consumed. -/
def LeavesNoMore (channels : Nat) (offers : List (List α × Nat)) : Prop :=
  ∀ offer ∈ offers, offer.1.length ≤ 2 * (offer.2 * channels)

/-- The loop with effects, for any number of rounds. -/
theorem processLoop_spec (hfault : Faultless world format)
    (hcompliant : world.Compliant format.channels) (patience : Nat) (effects : List Nat)
    (inPlace : Bool) {rounds : Nat} {b : CaptureBuffers α} {consumed framesNum framesWr : Nat}
    (h : ProcKept world format b consumed)
    (hsize : framesNum * (format.channels * bytesPerSample) ≤ b.procBufSize)
    (hleaves : LeavesNoMore format.channels (processLoop world format false patience effects
      inPlace rounds b framesNum framesWr).2.2.1) :
    ∃ b' ret offers written,
      processLoop world format false patience effects inPlace rounds b framesNum framesWr =
        (b', ret, offers, written) ∧
      ProcKept world format b' (consumed + consumedBy offers) ∧
      b'.procBufSize = b.procBufSize ∧ Unconsumed world format.channels consumed offers ∧
      ∀ offer ∈ offers, offer.1.length * bytesPerSample ≤ b.procBufSize := by
  induction rounds generalizing b consumed framesWr with
  | zero => exact ⟨b, none, [], [], rfl, h, rfl, trivial, nofun⟩
  | succ rounds ih =>
      unfold processLoop at hleaves ⊢
      split
      · rename_i hlt
        obtain ⟨b₁, hreload, h₁, hsize₁⟩ := h.reload hfault patience hsize
        rw [if_pos hlt, hreload] at hleaves
        rw [hreload]
        dsimp only at hleaves ⊢
        rw [if_neg (by decide)] at hleaves ⊢
        obtain ⟨hfirst, hrest⟩ := List.forall_mem_cons.mp hleaves
        rw [length_load] at hfirst
        obtain ⟨b₂, taken, produced, outputs, hround, htaken, h₂, hsize₂⟩ :=
          h₁.round hcompliant effects hfirst
        rw [hround] at hrest ⊢
        dsimp only at hrest ⊢
        obtain ⟨b₃, ret, offers, written, hloop, h₃, hsize₃, hoffers, hlengths⟩ :=
          ih h₂ (by rw [hsize₂, hsize₁]; exact hsize) hrest
        rw [hloop]
        refine ⟨b₃, ret, _ :: offers, _, rfl, ?_, ?_,
          ⟨⟨b₁.procBufFrames, h₁.held, htaken⟩, hoffers⟩,
          fun offer hoffer => ?_⟩
        · rw [Nat.add_assoc] at h₃
          exact h₃
        · rw [hsize₃, hsize₂, hsize₁]
        · rcases List.mem_cons.mp hoffer with rfl | hoffer
          · have hcapacity := h₁.capacity
            rw [hsize₁] at hcapacity
            rw [length_load, Nat.mul_assoc]
            exact hcapacity
          · have hlength := hlengths offer hoffer
            rwa [hsize₂, hsize₁] at hlength
      · exact ⟨b, _, [], [], rfl, h, rfl, trivial, nofun⟩

/-! ## Requests -/

/-- The buffers after a start are empty. -/
theorem started_kept (world : CaptureWorld α) (format : CaptureFormat) (b : CaptureBuffers α) :
    ProcKept world format b.started b.position where
  period := ⟨Nat.zero_le _, Nat.zero_le _, fun hne => absurd rfl hne, by
    simp [CaptureBuffers.started]⟩
  next := rfl
  held := by simp [CaptureBuffers.started]
  capacity := by simp [CaptureBuffers.started]

theorem requestBufs_period {b : CaptureBuffers α} (h : PeriodKept world format b)
    (effects : List Nat) (framesNum : Nat) :
    PeriodKept world format (requestBufs format effects b framesNum) ∧
      (requestBufs format effects b framesNum).next = b.next := by
  unfold requestBufs
  split
  · exact ⟨⟨h.period, h.delivered, h.status, h.held⟩, rfl⟩
  · exact ⟨h, rfl⟩

/-- With effects there is room for the request. -/
theorem ProcKept.request {b : CaptureBuffers α} {consumed : Nat}
    (h : ProcKept world format b consumed) {effects : List Nat} (heffects : effects ≠ [])
    (framesNum : Nat) :
    ProcKept world format (requestBufs format effects b framesNum) consumed ∧
      framesNum * (format.channels * bytesPerSample) ≤
        (requestBufs format effects b framesNum).procBufSize := by
  unfold requestBufs
  rw [if_pos (.inr heffects)]
  refine ⟨⟨⟨h.period.period, h.period.delivered, h.period.status, h.period.held⟩, h.next, h.held,
    Nat.le_trans h.capacity (Nat.le_max_left _ _)⟩, Nat.le_max_right _ _⟩

/-- A request without effects. -/
theorem readAndProcessFrames_plain (hfault : Faultless world format) (patience rounds : Nat)
    {b : CaptureBuffers α} (h : PeriodKept world format b) (framesNum : Nat) :
    ∃ b' trace, readAndProcessFrames world format false patience rounds [] b framesNum =
        (b', some (framesNum : Int), trace) ∧ PeriodKept world format b' ∧
      b'.next = b.next + framesNum ∧
      trace.handed = load world.samples (b.next * format.channels)
        (framesNum * format.channels) := by
  obtain ⟨hkept, hnext⟩ := requestBufs_period h [] framesNum
  obtain ⟨b₁, writes, hread, hkept₁, hnext₁, -, hlays⟩ :=
    readFrames_spec hfault patience hkept framesNum
  have hhanded := (hlays b₁.procBufOut 0).2
  rw [hnext, Nat.zero_mul, Nat.add_zero, Nat.sub_zero] at hhanded
  unfold readAndProcessFrames
  dsimp only
  rw [if_neg (not_not_intro rfl), hread]
  refine ⟨_, _, rfl, ?_, ?_, ?_⟩
  · split
    · exact ⟨hkept₁.period, hkept₁.delivered, hkept₁.status, hkept₁.held⟩
    · exact hkept₁
  · rw [hnext] at hnext₁
    split
    · exact hnext₁
    · exact hnext₁
  · exact hhanded

/-- A request with effects. -/
theorem readAndProcessFrames_effects (hfault : Faultless world format)
    (hcompliant : world.Compliant format.channels) (patience rounds : Nat) {effects : List Nat}
    (heffects : effects ≠ []) {b : CaptureBuffers α} {consumed : Nat}
    (h : ProcKept world format b consumed) {framesNum : Nat}
    (hleaves : LeavesNoMore format.channels (readAndProcessFrames world format false patience
      rounds effects b framesNum).2.2.offers) :
    ∃ b' ret trace, readAndProcessFrames world format false patience rounds effects b framesNum =
        (b', ret, trace) ∧ ProcKept world format b' (consumed + consumedBy trace.offers) ∧
      Unconsumed world format.channels consumed trace.offers ∧
      ∀ offer ∈ trace.offers, offer.1.length * bytesPerSample ≤ b'.procBufSize := by
  obtain ⟨hkept, hsize⟩ := h.request heffects framesNum
  unfold readAndProcessFrames at hleaves ⊢
  dsimp only at hleaves ⊢
  rw [if_pos heffects] at hleaves ⊢
  obtain ⟨b₁, ret, offers, written, hloop, hkept₁, hsize₁, hoffers, hlengths⟩ :=
    processLoop_spec hfault hcompliant patience effects (!format.remaps) hkept hsize hleaves
  rw [hloop]
  refine ⟨b₁, ret, _, rfl, hkept₁, hoffers, fun offer hoffer => ?_⟩
  rw [hsize₁]
  exact hlengths offer hoffer

theorem unconsumed_append {channels start : Nat} {offers offers' : List (List α × Nat)}
    (h : Unconsumed world channels start offers)
    (h' : Unconsumed world channels (start + consumedBy offers) offers') :
    Unconsumed world channels start (offers ++ offers') := by
  induction offers generalizing start with
  | nil => exact h'
  | cons offer offers ih =>
      refine ⟨h.1, ih h.2 ?_⟩
      rw [Nat.add_assoc]
      exact h'

/-- The frames that some requests ask for. -/
def framesOf (requests : List FrameRequest) : Nat :=
  requests.foldr (fun request n => request.frames + n) 0

theorem readRequests_plain (hfault : Faultless world format) (patience : Nat)
    (requests : List FrameRequest) {b : CaptureBuffers α} (h : PeriodKept world format b) :
    (readRequests world format false patience [] requests b).map (fun result => result.2.1) =
        requests.map (fun request => some (request.frames : Int)) ∧
      (readRequests world format false patience [] requests b).flatMap
          (fun result => result.2.2.handed) =
        load world.samples (b.next * format.channels) (framesOf requests * format.channels) := by
  induction requests generalizing b with
  | nil => simp [readRequests, framesOf]
  | cons request requests ih =>
      obtain ⟨b₁, trace, hread, hkept, hnext, hhanded⟩ :=
        readAndProcessFrames_plain hfault patience request.rounds h request.frames
      obtain ⟨hrets, hrest⟩ := ih hkept
      unfold readRequests
      rw [hread]
      refine ⟨?_, ?_⟩
      · rw [List.map_cons, List.map_cons, hrets]
      · rw [List.flatMap_cons, hrest, hhanded, hnext, Nat.add_mul, ← load_add, ← Nat.add_mul]
        rfl

theorem readRequests_effects (hfault : Faultless world format)
    (hcompliant : world.Compliant format.channels) (patience : Nat) {effects : List Nat}
    (heffects : effects ≠ []) (requests : List FrameRequest) {b : CaptureBuffers α}
    {consumed : Nat} (h : ProcKept world format b consumed)
    (hleaves : ∀ result ∈ readRequests world format false patience effects requests b,
      LeavesNoMore format.channels result.2.2.offers) :
    Unconsumed world format.channels consumed
        ((readRequests world format false patience effects requests b).flatMap
          fun result => result.2.2.offers) ∧
      ∀ result ∈ readRequests world format false patience effects requests b,
        (∃ consumed', ProcKept world format result.1 consumed') ∧
        ∀ offer ∈ result.2.2.offers,
          offer.1.length * bytesPerSample ≤ result.1.procBufSize := by
  induction requests generalizing b consumed with
  | nil => exact ⟨trivial, nofun⟩
  | cons request requests ih =>
      unfold readRequests at hleaves ⊢
      obtain ⟨hfirst, hrest⟩ := List.forall_mem_cons.mp hleaves
      obtain ⟨b₁, ret, trace, hread, hkept, hoffers, hlengths⟩ :=
        readAndProcessFrames_effects hfault hcompliant patience request.rounds heffects h hfirst
      rw [hread] at hrest ⊢
      obtain ⟨hrest, hresults⟩ := ih hkept hrest
      refine ⟨?_, fun result hresult => ?_⟩
      · rw [List.flatMap_cons]
        exact unconsumed_append hoffers hrest
      · rcases List.mem_cons.mp hresult with rfl | hresult
        · exact ⟨⟨_, hkept⟩, hlengths⟩
        · exact hresults result hresult

/-- From the start of a stream on, for every sequence of requests.  Without effects every
request returns its frames, and together they are the device's, from the start on.  With
effects, of which no round leaves more frames than it consumed, each round offers the frames that
are not consumed, and the processing buffer never holds more than its capacity, at each offer and
after each request; what was taken from the period buffer and not consumed is still in it. -/
theorem capture_exact (hfault : Faultless world format)
    (hcompliant : world.Compliant format.channels) (patience : Nat) (effects : List Nat)
    (requests : List FrameRequest) (b : CaptureBuffers α) :
    (effects = [] →
      (readRequests world format false patience effects requests b.started).map
          (fun result => result.2.1) = requests.map (fun request => some (request.frames : Int)) ∧
      (readRequests world format false patience effects requests b.started).flatMap
          (fun result => result.2.2.handed) =
        load world.samples (b.position * format.channels)
          (framesOf requests * format.channels)) ∧
    (effects ≠ [] →
      (∀ result ∈ readRequests world format false patience effects requests b.started,
        LeavesNoMore format.channels result.2.2.offers) →
      Unconsumed world format.channels b.position
        ((readRequests world format false patience effects requests b.started).flatMap
          fun result => result.2.2.offers) ∧
      ∀ result ∈ readRequests world format false patience effects requests b.started,
        (∃ consumed, ProcKept world format result.1 consumed) ∧
        ∀ offer ∈ result.2.2.offers,
          offer.1.length * bytesPerSample ≤ result.1.procBufSize) := by
  have hstart := started_kept world format b
  refine ⟨fun heffects => ?_, fun heffects hleaves => ?_⟩
  · subst heffects
    exact readRequests_plain hfault patience requests hstart.period
  · exact readRequests_effects hfault hcompliant patience heffects requests hstart hleaves

/-- A copy that begins with the last cell. -/
def copyDown {α : Type} (mem : Nat → α) (dst src : Nat) : Nat → Nat → α
  | 0 => mem
  | len + 1 => copyDown (Function.update mem (dst + len) (mem (src + len))) dst src len

/-- A device that counts, and effects that give a frame a round and consume what they are
told to.  A `memcpy` of stretches that overlap begins at their ends. -/
def countingWorld (consumed : Nat → Nat) : CaptureWorld Nat where
  samples k := k
  readError _ := 0
  process _ _ offered _ := ⟨consumed offered.length, 1, []⟩
  resample _ _ := ⟨[], 0, []⟩
  overlapped _ := copyDown

/-- Buffers before anything was read. -/
def emptyBuffers : CaptureBuffers Nat :=
  ⟨fun _ => 0, 0, 0, 0, fun _ => 0, 0, 0, fun _ => 0, 0, 0, 0, 0⟩

theorem countingWorld_faultless (consumed : Nat → Nat) :
    Faultless (countingWorld consumed) ⟨3, 1, 1, 1⟩ := ⟨rfl, by decide, fun _ => rfl⟩

theorem countingWorld_compliant {consumed : Nat → Nat} (h : ∀ frames, consumed frames ≤ frames) :
    (countingWorld consumed).Compliant 1 := by
  intro round effect mem frames room
  show consumed (load mem 0 (frames * 1)).length ≤ frames
  rw [length_load, Nat.mul_one]
  exact h frames

/-- Requests across the ends of a period of three frames, with and without effects, which leave
the last frame of an offer. -/
theorem capture_exact_counting :
    (readRequests (countingWorld fun frames => frames - 1) ⟨3, 1, 1, 1⟩ false 0 []
        [⟨2, 0⟩, ⟨2, 0⟩, ⟨3, 0⟩] emptyBuffers.started).flatMap (fun result => result.2.2.handed) =
          [0, 1, 2, 3, 4, 5, 6] ∧
      Unconsumed (countingWorld fun frames => frames - 1) 1 0
        ((readRequests (countingWorld fun frames => frames - 1) ⟨3, 1, 1, 1⟩ false 0 [7]
          [⟨2, 3⟩, ⟨4, 2⟩] emptyBuffers.started).flatMap fun result => result.2.2.offers) := by
  have hfault := countingWorld_faultless fun frames => frames - 1
  have hcompliant := countingWorld_compliant fun frames => Nat.sub_le frames 1
  refine ⟨?_, ?_⟩
  · exact ((capture_exact hfault hcompliant 0 [] [⟨2, 0⟩, ⟨2, 0⟩, ⟨3, 0⟩] emptyBuffers).1 rfl).2
  · refine ((capture_exact hfault hcompliant 0 [7] [⟨2, 3⟩, ⟨4, 2⟩] emptyBuffers).2 nofun ?_).1
    unfold LeavesNoMore
    decide

/-- An effect that consumes one of three frames: the two that are left are shifted by one, and
the next offer has the third frame twice and the second not at all. -/
theorem not_capture_exact_overlapped :
    Faultless (countingWorld (min 1)) ⟨3, 1, 1, 1⟩ ∧ (countingWorld (min 1)).Compliant 1 ∧
      ((readRequests (countingWorld (min 1)) ⟨3, 1, 1, 1⟩ false 0 [7] [⟨3, 2⟩]
        emptyBuffers.started).flatMap fun result => result.2.2.offers) =
          [([0, 1, 2], 1), ([2, 2, 3], 1)] ∧
      ¬ Unconsumed (countingWorld (min 1)) 1 0
        ((readRequests (countingWorld (min 1)) ⟨3, 1, 1, 1⟩ false 0 [7] [⟨3, 2⟩]
          emptyBuffers.started).flatMap fun result => result.2.2.offers) := by
  have hoffers : ((readRequests (countingWorld (min 1)) ⟨3, 1, 1, 1⟩ false 0 [7] [⟨3, 2⟩]
      emptyBuffers.started).flatMap fun result => result.2.2.offers) =
        [([0, 1, 2], 1), ([2, 2, 3], 1)] := by decide
  refine ⟨countingWorld_faultless _,
    countingWorld_compliant fun frames => Nat.min_le_right 1 frames, hoffers, ?_⟩
  rw [hoffers]
  rintro ⟨-, ⟨frames, hsecond, -⟩, -⟩
  have hlength := congrArg List.length hsecond
  rw [length_load] at hlength
  have hframes : frames * 1 = 3 := hlength.symm
  rw [hframes] at hsecond
  exact absurd hsecond (by decide)

end DragonDevice.Audio
