/-
  Audio/Bookkeeping.lean --- what the shared functions of the HAL do to its bookkeeping.

  The activity of the HAL is which streams are out of standby and on which output a call
  goes on.  The books are kept when the use cases are exactly those of the activity, the
  ledger is in order, and every PCM that is open is listed by a stream out of standby.
-/
import DragonDevice.Audio.Ledger
import DragonDevice.Audio.Calls

set_option autoImplicit false

namespace DragonDevice.Audio

open DragonDevice.Lib

/-! ## Activity -/

/-- The use case of an output that is not in standby. -/
def StreamOut.plays (out : StreamOut) : Option UsecaseId :=
  if out.standby then none else some out.usecase

/-- The use case of an input that is not in standby. -/
def StreamIn.captures (inp : StreamIn) : Option UsecaseId :=
  if inp.standby then none else some inp.usecase

/-- The PCMs of a list of devices. -/
def pcmsOf (devices : List PcmDevice) : List Nat := devices.filterMap PcmDevice.pcm

/-- The PCMs that an output lists, out of standby. -/
def StreamOut.openPcms (out : StreamOut) : List Nat :=
  if out.standby then [] else pcmsOf out.pcmDevList

/-- The PCMs that an input lists, out of standby. -/
def StreamIn.openPcms (inp : StreamIn) : List Nat :=
  if inp.standby then [] else pcmsOf inp.pcmDevList

def playing (outs : Nat → Option StreamOut) (i : Nat) : Option UsecaseId :=
  (outs i).bind StreamOut.plays

def capturing (ins : Nat → Option StreamIn) (i : Nat) : Option UsecaseId :=
  (ins i).bind StreamIn.captures

/-- The PCMs that a stream lists, out of standby. -/
def openPcms (outs : Nat → Option StreamOut) (ins : Nat → Option StreamIn) :
    StreamRef → List Nat
  | .out i => ((outs i).map StreamOut.openPcms).getD []
  | .inp i => ((ins i).map StreamIn.openPcms).getD []

/-- The output of the voice call. -/
def AudioDevice.call (adev : AudioDevice) : Option Nat :=
  if adev.inCall then adev.primaryOutput else none

/-- The use cases that an activity has. -/
inductive Live (playing capturing : Nat → Option UsecaseId) (call : Option Nat) :
    UsecaseKey → Prop where
  | playing {i : Nat} {id : UsecaseId} (h : playing i = some id) :
      Live playing capturing call ⟨id, .pcmPlayback, .out i⟩
  | capturing {i : Nat} {id : UsecaseId} (h : capturing i = some id) :
      Live playing capturing call ⟨id, .pcmCapture, .inp i⟩
  | call {i : Nat} (h : call = some i) :
      Live playing capturing call ⟨.voiceCall, .voiceCall, .out i⟩

section Views

variable (outs : Nat → Option StreamOut) (ins : Nat → Option StreamIn) (i : Nat)

theorem playing_update (o : Option StreamOut) :
    playing (Function.update outs i o) =
      Function.update (playing outs) i (o.bind StreamOut.plays) := by
  funext j
  unfold playing
  by_cases hj : j = i
  · subst hj
    simp
  · simp [Function.update_of_ne hj]

theorem capturing_update (o : Option StreamIn) :
    capturing (Function.update ins i o) =
      Function.update (capturing ins) i (o.bind StreamIn.captures) := by
  funext j
  unfold capturing
  by_cases hj : j = i
  · subst hj
    simp
  · simp [Function.update_of_ne hj]

theorem openPcms_update_out (o : Option StreamOut) :
    openPcms (Function.update outs i o) ins =
      Function.update (openPcms outs ins) (.out i) ((o.map StreamOut.openPcms).getD []) := by
  funext ref
  cases ref with
  | out j =>
      by_cases hj : j = i
      · subst hj
        simp [openPcms]
      · rw [Function.update_of_ne (by simpa using hj)]
        simp [openPcms, Function.update_of_ne hj]
  | inp j => rfl

theorem openPcms_update_in (o : Option StreamIn) :
    openPcms outs (Function.update ins i o) =
      Function.update (openPcms outs ins) (.inp i) ((o.map StreamIn.openPcms).getD []) := by
  funext ref
  cases ref with
  | inp j =>
      by_cases hj : j = i
      · subst hj
        simp [openPcms]
      · rw [Function.update_of_ne (by simpa using hj)]
        simp [openPcms, Function.update_of_ne hj]
  | out j => rfl

end Views

/-- The rate of every PCM device for playback, and of every output. -/
def playbackRate : Nat := 48000

/-- The profiles as loaded, but for the period. -/
def LoadedButPeriod (profiles : ProfileId → PcmDeviceProfile) : Prop :=
  ∀ p, ∃ period, profiles p =
    { loadedProfiles p with
      config := { (loadedProfiles p).config with periodSize := period } }

/-- What holds of the open streams as such. -/
structure StreamsOpen (outs : Nat → Option StreamOut) (ins : Nat → Option StreamIn)
    (primary : Option Nat) (nextStream : Nat) : Prop where
  primary : ∀ i, primary = some i → (outs i).isSome
  outKinds : ∀ i out, outs i = some out →
    (out.usecase = .audioPlayback ∨ out.usecase = .audioPlaybackDeepBuffer) ∧
      out.sampleRate = playbackRate
  inKinds : ∀ i inp, ins i = some inp →
    inp.usecase = .audioCapture ∨ inp.usecase = .audioCaptureHotword
  fresh : ∀ i, nextStream ≤ i → outs i = none ∧ ins i = none

/-- The invariant. -/
structure Kept (adev : AudioDevice) : Prop where
  ledger : Ledger adev.usecaseList adev.sndDevRefCnt
  listed : ∀ key, key ∈ adev.usecaseList.map AudioUsecase.key ↔
    Live (playing adev.outs) (capturing adev.ins) adev.call key
  handles : ∀ h ∈ adev.handles, h.ready = true → h.id ∈ openPcms adev.outs adev.ins h.owner
  active : ∀ i, adev.activeInput = some i → (capturing adev.ins i).isSome
  callOn : adev.inCall = true → adev.primaryOutput.isSome
  streams : StreamsOpen adev.outs adev.ins adev.primaryOutput adev.nextStream
  profiles : LoadedButPeriod adev.profiles

theorem adevOpen_kept (soundTrigger : Bool) : Kept (adevOpen soundTrigger) where
  ledger := ⟨List.nodup_nil, fun _ => rfl, fun _ h => absurd h List.not_mem_nil⟩
  listed := by
    intro key
    refine ⟨fun h => absurd h List.not_mem_nil, fun h => ?_⟩
    rcases h with h | h | h <;> cases h
  handles := fun _ h => absurd h List.not_mem_nil
  active := nofun
  callOn := nofun
  streams := ⟨nofun, nofun, nofun, fun _ _ => ⟨rfl, rfl⟩⟩
  profiles := fun _ => ⟨_, rfl⟩

section Streams

variable {outs : Nat → Option StreamOut} {ins : Nat → Option StreamIn} {primary : Option Nat}
  {nextStream i : Nat}

/-- An open output changes, but neither its use case nor its rate. -/
theorem StreamsOpen.updateOut (h : StreamsOpen outs ins primary nextStream)
    {out out' : StreamOut} (hout : outs i = some out) (husecase : out'.usecase = out.usecase)
    (hrate : out'.sampleRate = out.sampleRate) :
    StreamsOpen (Function.update outs i (some out')) ins primary nextStream where
  primary := by
    intro j hj
    by_cases hji : j = i
    · subst hji
      simp
    · rw [Function.update_of_ne hji]
      exact h.primary j hj
  outKinds := by
    intro j o ho
    by_cases hji : j = i
    · subst hji
      rw [Function.update_self, Option.some.injEq] at ho
      rw [← ho, husecase, hrate]
      exact h.outKinds j out hout
    · rw [Function.update_of_ne hji] at ho
      exact h.outKinds j o ho
  inKinds := h.inKinds
  fresh := by
    intro j hj
    have hji : j ≠ i := by
      rintro rfl
      rw [(h.fresh j hj).1] at hout
      cases hout
    rw [Function.update_of_ne hji]
    exact h.fresh j hj

/-- An open input changes, but not its use case. -/
theorem StreamsOpen.updateIn (h : StreamsOpen outs ins primary nextStream)
    {inp inp' : StreamIn} (hinp : ins i = some inp) (husecase : inp'.usecase = inp.usecase) :
    StreamsOpen outs (Function.update ins i (some inp')) primary nextStream where
  primary := h.primary
  outKinds := h.outKinds
  inKinds := by
    intro j o ho
    by_cases hji : j = i
    · subst hji
      rw [Function.update_self, Option.some.injEq] at ho
      rw [← ho, husecase]
      exact h.inKinds j inp hinp
    · rw [Function.update_of_ne hji] at ho
      exact h.inKinds j o ho
  fresh := by
    intro j hj
    have hji : j ≠ i := by
      rintro rfl
      rw [(h.fresh j hj).2] at hinp
      cases hinp
    rw [Function.update_of_ne hji]
    exact h.fresh j hj

end Streams

/-- Selecting devices keeps the books. -/
theorem Kept.reselected {adev adev' : AudioDevice} (h : Kept adev)
    (hsel : Reselected adev adev') : Kept adev' := by
  have hledger := hsel.ledger h.ledger
  have hkeys := hsel.keys
  rw [hsel.frame]
  exact ⟨hledger, fun key => by rw [hkeys]; exact h.listed key, h.handles, h.active, h.callOn,
    h.streams, h.profiles⟩

/-- An output changes in nothing that the books are about. -/
theorem Kept.touchOut {adev : AudioDevice} (h : Kept adev) {i : Nat} {out out' : StreamOut}
    (hout : adev.outs i = some out) (hplays : out'.plays = out.plays)
    (hpcms : out'.openPcms = out.openPcms) (husecase : out'.usecase = out.usecase)
    (hrate : out'.sampleRate = out.sampleRate) : Kept (adev.setOut i out') := by
  have hplaying : playing (Function.update adev.outs i (some out')) = playing adev.outs := by
    rw [playing_update, Option.bind_some, hplays, Function.update_eq_self_iff]
    simp [playing, hout]
  have hopen : openPcms (Function.update adev.outs i (some out')) adev.ins =
      openPcms adev.outs adev.ins := by
    rw [openPcms_update_out, Option.map_some, Option.getD_some, hpcms, Function.update_eq_self_iff]
    simp [openPcms, hout]
  refine ⟨h.ledger, fun key => ?_, fun x hx hr => ?_, h.active, h.callOn,
    h.streams.updateOut hout husecase hrate, h.profiles⟩
  · show _ ↔ Live (playing (Function.update adev.outs i (some out'))) _ _ key
    rw [hplaying]
    exact h.listed key
  · show x.id ∈ openPcms (Function.update adev.outs i (some out')) adev.ins _
    rw [hopen]
    exact h.handles x hx hr

/-- An input changes in nothing that the books are about. -/
theorem Kept.touchIn {adev : AudioDevice} (h : Kept adev) {i : Nat} {inp inp' : StreamIn}
    (hinp : adev.ins i = some inp) (hcaptures : inp'.captures = inp.captures)
    (hpcms : inp'.openPcms = inp.openPcms) (husecase : inp'.usecase = inp.usecase) :
    Kept (adev.setIn i inp') := by
  have hcapturing : capturing (Function.update adev.ins i (some inp')) = capturing adev.ins := by
    rw [capturing_update, Option.bind_some, hcaptures, Function.update_eq_self_iff]
    simp [capturing, hinp]
  have hopen : openPcms adev.outs (Function.update adev.ins i (some inp')) =
      openPcms adev.outs adev.ins := by
    rw [openPcms_update_in, Option.map_some, Option.getD_some, hpcms, Function.update_eq_self_iff]
    simp [openPcms, hinp]
  refine ⟨h.ledger, fun key => ?_, fun x hx hr => ?_, fun j hj => ?_, h.callOn,
    h.streams.updateIn hinp husecase, h.profiles⟩
  · show _ ↔ Live _ (capturing (Function.update adev.ins i (some inp'))) _ key
    rw [hcapturing]
    exact h.listed key
  · show x.id ∈ openPcms adev.outs (Function.update adev.ins i (some inp')) _
    rw [hopen]
    exact h.handles x hx hr
  · show (capturing (Function.update adev.ins i (some inp')) j).isSome
    rw [hcapturing]
    exact h.active j hj

/-! ## A use case leaves or joins -/

/-- The use case with an id leaves the list, and its sound devices are released. -/
theorem Ledger.drop {l : List AudioUsecase} {cnt cnt' : SndDevice → Nat} (h : Ledger l cnt)
    {uc : AudioUsecase} (huc : uc ∈ l) (hcnt : ∀ d, cnt' d = cnt d - uc.held d) :
    Ledger (removeUsecase uc.id l) cnt' ∧
      ∀ key, key ∈ (removeUsecase uc.id l).map AudioUsecase.key ↔
        key ∈ l.map AudioUsecase.key ∧ key ≠ uc.key := by
  obtain ⟨before, after, hl⟩ := List.append_of_mem huc
  subst hl
  have hnodup := h.nodup
  rw [List.map_append, List.map_cons] at hnodup
  have hid : ∀ x ∈ before ++ after, x.id ≠ uc.id := by
    intro x hx heq
    refine (List.nodup_middle.mp hnodup).notMem ?_
    rw [← List.map_append, ← heq]
    exact List.mem_map_of_mem hx
  have hbefore : ∀ x ∈ before, x.id ≠ uc.id := fun x hx => hid x (List.mem_append_left _ hx)
  rw [removeUsecase_split hbefore rfl]
  refine ⟨h.remove hcnt, fun key => ⟨fun hkey => ?_, fun hkey => ?_⟩⟩
  · obtain ⟨x, hx, rfl⟩ := List.mem_map.mp hkey
    refine ⟨List.mem_map_of_mem ?_, fun heq => hid x hx (congrArg UsecaseKey.id heq)⟩
    rcases List.mem_append.mp hx with hx | hx
    · exact List.mem_append_left _ hx
    · exact List.mem_append_right _ (List.mem_cons_of_mem _ hx)
  · obtain ⟨hmem, hne⟩ := hkey
    obtain ⟨x, hx, rfl⟩ := List.mem_map.mp hmem
    refine List.mem_map_of_mem ?_
    rcases List.mem_append.mp hx with hx | hx
    · exact List.mem_append_left _ hx
    · rcases List.mem_cons.mp hx with rfl | hx
      · exact absurd rfl hne
      · exact List.mem_append_right _ hx

/-- A playback leaves. -/
theorem Ledger.dropPlayback {l : List AudioUsecase} {cnt : SndDevice → Nat} (h : Ledger l cnt)
    {uc : AudioUsecase} (huc : uc ∈ l) (htype : uc.type = .pcmPlayback) :
    Ledger (removeUsecase uc.id l) (release cnt (uc.outSndDevice.map .out)) ∧
      ∀ key, key ∈ (removeUsecase uc.id l).map AudioUsecase.key ↔
        key ∈ l.map AudioUsecase.key ∧ key ≠ uc.key := by
  refine h.drop huc fun d => ?_
  rw [release_apply, AudioUsecase.held, (h.oneSided uc huc).1 htype]
  rfl

/-- A capture leaves. -/
theorem Ledger.dropCapture {l : List AudioUsecase} {cnt : SndDevice → Nat} (h : Ledger l cnt)
    {uc : AudioUsecase} (huc : uc ∈ l) (htype : uc.type = .pcmCapture) :
    Ledger (removeUsecase uc.id l) (release cnt (uc.inSndDevice.map .inp)) ∧
      ∀ key, key ∈ (removeUsecase uc.id l).map AudioUsecase.key ↔
        key ∈ l.map AudioUsecase.key ∧ key ≠ uc.key := by
  refine h.drop huc fun d => ?_
  rw [release_apply, AudioUsecase.held, (h.oneSided uc huc).2 htype]
  show _ = _ - (0 + _)
  rw [Nat.zero_add]

section Live

variable {playing capturing : Nat → Option UsecaseId} {call : Option Nat} {i : Nat}
  {id : UsecaseId} {key : UsecaseKey}

theorem live_stopPlaying (h : playing i = some id) :
    Live (Function.update playing i none) capturing call key ↔
      Live playing capturing call key ∧ key ≠ ⟨id, .pcmPlayback, .out i⟩ := by
  constructor
  · intro hlive
    rcases hlive with @⟨j, id', hj⟩ | hj | hj
    · by_cases hji : j = i
      · subst hji
        simp at hj
      · rw [Function.update_of_ne hji] at hj
        exact ⟨.playing hj, by simp [hji]⟩
    · exact ⟨.capturing hj, by simp⟩
    · exact ⟨.call hj, by simp⟩
  · rintro ⟨hlive, hne⟩
    rcases hlive with @⟨j, id', hj⟩ | hj | hj
    · have hji : j ≠ i := by
        rintro rfl
        rw [h] at hj
        cases hj
        exact hne rfl
      exact .playing (by rwa [Function.update_of_ne hji])
    · exact .capturing hj
    · exact .call hj

theorem live_stopCapturing (h : capturing i = some id) :
    Live playing (Function.update capturing i none) call key ↔
      Live playing capturing call key ∧ key ≠ ⟨id, .pcmCapture, .inp i⟩ := by
  constructor
  · intro hlive
    rcases hlive with hj | @⟨j, id', hj⟩ | hj
    · exact ⟨.playing hj, by simp⟩
    · by_cases hji : j = i
      · subst hji
        simp at hj
      · rw [Function.update_of_ne hji] at hj
        exact ⟨.capturing hj, by simp [hji]⟩
    · exact ⟨.call hj, by simp⟩
  · rintro ⟨hlive, hne⟩
    rcases hlive with hj | @⟨j, id', hj⟩ | hj
    · exact .playing hj
    · have hji : j ≠ i := by
        rintro rfl
        rw [h] at hj
        cases hj
        exact hne rfl
      exact .capturing (by rwa [Function.update_of_ne hji])
    · exact .call hj

theorem live_stopCall :
    Live playing capturing none key ↔
      Live playing capturing (some i) key ∧ key ≠ ⟨.voiceCall, .voiceCall, .out i⟩ := by
  constructor
  · intro hlive
    rcases hlive with hj | hj | hj
    · exact ⟨.playing hj, by simp⟩
    · exact ⟨.capturing hj, by simp⟩
    · cases hj
  · rintro ⟨hlive, hne⟩
    rcases hlive with hj | hj | hj
    · exact .playing hj
    · exact .capturing hj
    · cases hj
      exact absurd rfl hne

theorem live_startPlaying (h : playing i = none) :
    Live (Function.update playing i (some id)) capturing call key ↔
      Live playing capturing call key ∨ key = ⟨id, .pcmPlayback, .out i⟩ := by
  have hself := Function.update_self i (some id) playing
  have hstop := @live_stopPlaying _ capturing call i id key hself
  rw [Function.update_idem, Function.update_eq_self_iff.mpr h.symm] at hstop
  refine ⟨fun hlive => ?_, fun hlive => ?_⟩
  · by_cases hkey : key = ⟨id, .pcmPlayback, .out i⟩
    · exact .inr hkey
    · exact .inl (hstop.mpr ⟨hlive, hkey⟩)
  · rcases hlive with hlive | rfl
    · exact (hstop.mp hlive).1
    · exact .playing hself

theorem live_startCapturing (h : capturing i = none) :
    Live playing (Function.update capturing i (some id)) call key ↔
      Live playing capturing call key ∨ key = ⟨id, .pcmCapture, .inp i⟩ := by
  have hself := Function.update_self i (some id) capturing
  have hstop := @live_stopCapturing playing _ call i id key hself
  rw [Function.update_idem, Function.update_eq_self_iff.mpr h.symm] at hstop
  refine ⟨fun hlive => ?_, fun hlive => ?_⟩
  · by_cases hkey : key = ⟨id, .pcmCapture, .inp i⟩
    · exact .inr hkey
    · exact .inl (hstop.mpr ⟨hlive, hkey⟩)
  · rcases hlive with hlive | rfl
    · exact (hstop.mp hlive).1
    · exact .capturing hself

theorem live_startCall :
    Live playing capturing (some i) key ↔
      Live playing capturing none key ∨ key = ⟨.voiceCall, .voiceCall, .out i⟩ := by
  refine ⟨fun hlive => ?_, fun hlive => ?_⟩
  · by_cases hkey : key = ⟨.voiceCall, .voiceCall, .out i⟩
    · exact .inr hkey
    · exact .inl (live_stopCall.mpr ⟨hlive, hkey⟩)
  · rcases hlive with hlive | rfl
    · exact (live_stopCall.mp hlive).1
    · exact .call rfl

end Live

/-! ## Standby -/

theorem mem_pcmsOf {devices : List PcmDevice} {pcm : Nat} :
    pcm ∈ pcmsOf devices ↔ ∃ device ∈ devices, device.pcm = some pcm := by
  unfold pcmsOf
  rw [List.mem_filterMap]

/-- Closing a list of devices. -/
theorem closeAll_eq (adev : AudioDevice) (devices : List PcmDevice) :
    adev.closeAll devices =
      { adev with handles := adev.handles.filter fun h => h.id ∉ pcmsOf devices } := by
  induction devices generalizing adev with
  | nil => simp [AudioDevice.closeAll, pcmsOf]
  | cons device devices ih =>
      show (adev.pcmClose device.pcm).closeAll devices = _
      rw [ih]
      cases hpcm : device.pcm with
      | none => simp [AudioDevice.pcmClose, pcmsOf, hpcm]
      | some pcm =>
          simp only [AudioDevice.pcmClose, List.filter_filter, pcmsOf, List.filterMap_cons, hpcm]
          congr 1
          refine List.filter_congr fun h _ => ?_
          simp [Bool.and_comm]

/-- The use case of an output that plays. -/
theorem Kept.playbackEntry {adev : AudioDevice} (h : Kept adev) {i : Nat} {out : StreamOut}
    (hout : adev.outs i = some out) (hstandby : out.standby = false) :
    ∃ uc ∈ adev.usecaseList, uc.key = ⟨out.usecase, .pcmPlayback, .out i⟩ ∧
      adev.getUsecaseFromId out.usecase = some uc := by
  have hlive : Live (playing adev.outs) (capturing adev.ins) adev.call
      ⟨out.usecase, .pcmPlayback, .out i⟩ :=
    .playing (by simp [playing, hout, StreamOut.plays, hstandby])
  obtain ⟨uc, huc, hkey⟩ := List.mem_map.mp ((h.listed _).mpr hlive)
  refine ⟨uc, huc, hkey, ?_⟩
  have hfind := getUsecaseFromId_of_mem h.ledger.nodup huc
  rwa [show uc.id = out.usecase from congrArg UsecaseKey.id hkey] at hfind

/-- The use case of an input that captures. -/
theorem Kept.captureEntry {adev : AudioDevice} (h : Kept adev) {i : Nat} {inp : StreamIn}
    (hinp : adev.ins i = some inp) (hstandby : inp.standby = false) :
    ∃ uc ∈ adev.usecaseList, uc.key = ⟨inp.usecase, .pcmCapture, .inp i⟩ ∧
      adev.getUsecaseFromId inp.usecase = some uc := by
  have hlive : Live (playing adev.outs) (capturing adev.ins) adev.call
      ⟨inp.usecase, .pcmCapture, .inp i⟩ :=
    .capturing (by simp [capturing, hinp, StreamIn.captures, hstandby])
  obtain ⟨uc, huc, hkey⟩ := List.mem_map.mp ((h.listed _).mpr hlive)
  refine ⟨uc, huc, hkey, ?_⟩
  have hfind := getUsecaseFromId_of_mem h.ledger.nodup huc
  rwa [show uc.id = inp.usecase from congrArg UsecaseKey.id hkey] at hfind

/-- `stop_output_stream` where the use case is the stream's own. -/
theorem stopOutputStream_eq {adev : AudioDevice} {i : Nat} {out : StreamOut}
    {uc : AudioUsecase} (hout : adev.outs i = some out)
    (hfind : adev.getUsecaseFromId out.usecase = some uc) (hstream : uc.stream = .out i) :
    stopOutputStream adev i = some
      { adev with
        sndDevRefCnt := release adev.sndDevRefCnt (uc.outSndDevice.map .out)
        outs := Function.update adev.outs i (some { out with pcmDevList := [] })
        usecaseList := removeUsecase out.usecase adev.usecaseList } := by
  simp [stopOutputStream, hout, hfind, hstream, ucReleasePcmDevices, disableSndDevice,
    AudioDevice.setOut]

/-- `stop_input_stream` where the use case is listed. -/
theorem stopInputStream_eq {adev : AudioDevice} {i : Nat} {inp : StreamIn} {id : UsecaseId}
    {uc : AudioUsecase} (hid : inp.usecase = id) (hfind : adev.getUsecaseFromId id = some uc)
    (hinp : adev.ins i = some inp) :
    stopInputStream adev i = some
      { adev with
        activeInput := none
        sndDevRefCnt := release adev.sndDevRefCnt (uc.inSndDevice.map .inp)
        ins := Function.update adev.ins i (some { inp with pcmDevList := [] })
        usecaseList := removeUsecase id adev.usecaseList } := by
  subst hid
  have hfind' : { adev with activeInput := none }.getUsecaseFromId inp.usecase = some uc := hfind
  simp [stopInputStream, hinp, hfind', disableSndDevice, AudioDevice.setIn]

/-- The same for an input that was just set. -/
theorem stopInputStream_setIn {adev : AudioDevice} {i : Nat} {inp : StreamIn} {id : UsecaseId}
    {uc : AudioUsecase} (hid : inp.usecase = id) (hfind : adev.getUsecaseFromId id = some uc) :
    stopInputStream (adev.setIn i inp) i = some
      { adev with
        activeInput := none
        sndDevRefCnt := release adev.sndDevRefCnt (uc.inSndDevice.map .inp)
        ins := Function.update adev.ins i (some { inp with pcmDevList := [] })
        usecaseList := removeUsecase id adev.usecaseList } := by
  have hfind' : (adev.setIn i inp).getUsecaseFromId id = some uc := hfind
  rw [stopInputStream_eq hid hfind' (Function.update_self _ _ _)]
  simp only [AudioDevice.setIn, Function.update_idem]

theorem outClosePcmDevices_eq {adev : AudioDevice} {i : Nat} {out : StreamOut}
    (hout : adev.outs i = some out) :
    outClosePcmDevices adev i = some
      { adev with
        handles := adev.handles.filter fun h => h.id ∉ pcmsOf out.pcmDevList
        outs := Function.update adev.outs i
          (some { out with pcmDevList := out.pcmDevList.map PcmDevice.closedOut }) } := by
  simp [outClosePcmDevices, hout, closeAll_eq, AudioDevice.setOut]

theorem inClosePcmDevices_eq {adev : AudioDevice} {i : Nat} {inp : StreamIn}
    (hinp : adev.ins i = some inp) :
    inClosePcmDevices adev i = some
      { adev with
        handles := adev.handles.filter fun h => h.id ∉ pcmsOf inp.pcmDevList
        ins := Function.update adev.ins i
          (some { inp with pcmDevList := inp.pcmDevList.map PcmDevice.closedIn }) } := by
  simp [inClosePcmDevices, hinp, closeAll_eq, AudioDevice.setIn]

/-- The PCMs that a stream lists are closed; the others are listed as before. -/
theorem Kept.closed {adev : AudioDevice} (h : Kept adev) {ref : StreamRef} {pcms : List Nat}
    (hopen : openPcms adev.outs adev.ins ref = pcms) (l : List Nat) {x : PcmHandle}
    (hx : x ∈ adev.handles.filter fun h => h.id ∉ pcms) (hr : x.ready = true) :
    x.id ∈ Function.update (openPcms adev.outs adev.ins) ref l x.owner := by
  rw [List.mem_filter, decide_eq_true_iff] at hx
  have hlisted := h.handles x hx.1 hr
  have hne : x.owner ≠ ref := by
    rintro rfl
    rw [hopen] at hlisted
    exact hx.2 hlisted
  rwa [Function.update_of_ne hne]

/-- The output goes out of the books with its use case and its PCMs. -/
theorem Kept.stopOut {adev : AudioDevice} (h : Kept adev) {i : Nat} {out : StreamOut}
    (hout : adev.outs i = some out) (hstandby : out.standby = false) {uc : AudioUsecase}
    (huc : uc ∈ adev.usecaseList) (hkey : uc.key = ⟨out.usecase, .pcmPlayback, .out i⟩) :
    Kept
      { adev with
        handles := adev.handles.filter fun h => h.id ∉ pcmsOf out.pcmDevList
        sndDevRefCnt := release adev.sndDevRefCnt (uc.outSndDevice.map .out)
        outs := Function.update adev.outs i
          (some { out with standby := true, pcmDevList := [] })
        usecaseList := removeUsecase out.usecase adev.usecaseList } := by
  have hplays : playing adev.outs i = some out.usecase := by
    simp [playing, hout, StreamOut.plays, hstandby]
  have hopen : openPcms adev.outs adev.ins (.out i) = pcmsOf out.pcmDevList := by
    simp [openPcms, hout, StreamOut.openPcms, hstandby]
  obtain ⟨hledger, hkeys⟩ := h.ledger.dropPlayback huc (congrArg UsecaseKey.type hkey)
  rw [show uc.id = out.usecase from congrArg UsecaseKey.id hkey] at hledger hkeys
  refine ⟨hledger, fun key => ?_, fun x hx hr => ?_, h.active, h.callOn,
    h.streams.updateOut hout rfl rfl, h.profiles⟩
  · rw [hkeys, h.listed, hkey, playing_update, Option.bind_some, StreamOut.plays, if_pos rfl]
    exact (live_stopPlaying hplays).symm
  · dsimp only at hx ⊢
    rw [openPcms_update_out]
    exact h.closed hopen _ hx hr

/-- The input goes out of the books with its use case and its PCMs. -/
theorem Kept.stopIn {adev : AudioDevice} (h : Kept adev) {i : Nat} {inp : StreamIn}
    (hinp : adev.ins i = some inp) (hstandby : inp.standby = false) {uc : AudioUsecase}
    (huc : uc ∈ adev.usecaseList) (hkey : uc.key = ⟨inp.usecase, .pcmCapture, .inp i⟩) :
    Kept
      { adev with
        activeInput := none
        handles := adev.handles.filter fun h => h.id ∉ pcmsOf inp.pcmDevList
        sndDevRefCnt := release adev.sndDevRefCnt (uc.inSndDevice.map .inp)
        ins := Function.update adev.ins i
          (some { inp with standby := true, pcmDevList := [] })
        usecaseList := removeUsecase inp.usecase adev.usecaseList } := by
  have hcaptures : capturing adev.ins i = some inp.usecase := by
    simp [capturing, hinp, StreamIn.captures, hstandby]
  have hopen : openPcms adev.outs adev.ins (.inp i) = pcmsOf inp.pcmDevList := by
    simp [openPcms, hinp, StreamIn.openPcms, hstandby]
  obtain ⟨hledger, hkeys⟩ := h.ledger.dropCapture huc (congrArg UsecaseKey.type hkey)
  rw [show uc.id = inp.usecase from congrArg UsecaseKey.id hkey] at hledger hkeys
  refine ⟨hledger, fun key => ?_, fun x hx hr => ?_, nofun, h.callOn,
    h.streams.updateIn hinp rfl, h.profiles⟩
  · rw [hkeys, h.listed, hkey, capturing_update, Option.bind_some, StreamIn.captures, if_pos rfl]
    exact (live_stopCapturing hcaptures).symm
  · dsimp only at hx ⊢
    rw [openPcms_update_in]
    exact h.closed hopen _ hx hr

/-- `do_out_standby_l` of an output that plays. -/
theorem Kept.doOutStandby {adev adev' : AudioDevice} (h : Kept adev) {i : Nat}
    {out : StreamOut} (hout : adev.outs i = some out) (hstandby : out.standby = false)
    (hrun : Audio.doOutStandby adev i = some adev') :
    Kept adev' ∧ adev'.outs = Function.update adev.outs i
      (some { out with standby := true, pcmDevList := [] }) ∧
      adev'.mode = adev.mode ∧ adev'.inCall = adev.inCall ∧
      adev'.primaryOutput = adev.primaryOutput := by
  obtain ⟨uc, huc, hkey, hfind⟩ := h.playbackEntry hout hstandby
  rw [Audio.doOutStandby, hout, Option.bind_eq_bind, Option.bind_some] at hrun
  obtain ⟨mid, hmid, hrun⟩ := Option.bind_eq_some_iff.mp hrun
  rw [outClosePcmDevices_eq (Function.update_self i _ adev.outs)] at hmid
  have hmid := (Option.some.inj hmid).symm
  have hfind' : mid.getUsecaseFromId out.usecase = some uc := by
    rw [hmid]
    exact hfind
  have hout' : mid.outs i = some
      { out with standby := true, pcmDevList := out.pcmDevList.map PcmDevice.closedOut } := by
    rw [hmid]
    exact Function.update_self _ _ _
  rw [stopOutputStream_eq hout' hfind' (congrArg UsecaseKey.stream hkey)] at hrun
  cases hrun
  subst hmid
  simp only [AudioDevice.setOut, Function.update_idem]
  exact ⟨h.stopOut hout hstandby huc hkey, trivial, trivial, trivial, trivial⟩

/-- `do_in_standby_l`. -/
theorem Kept.doInStandby {adev adev' : AudioDevice} (h : Kept adev) {i : Nat}
    (hrun : Audio.doInStandby adev i = some adev') : Kept adev' := by
  obtain ⟨inp, hinp, hrun⟩ := Option.bind_eq_some_iff.mp hrun
  cases hstandby : inp.standby with
  | true =>
      rw [if_pos hstandby] at hrun
      cases hrun
      exact h
  | false =>
      obtain ⟨uc, huc, hkey, hfind⟩ := h.captureEntry hinp hstandby
      rw [if_neg (by simp [hstandby]), inClosePcmDevices_eq hinp] at hrun
      obtain ⟨mid, hmid, hrun⟩ := Option.bind_eq_some_iff.mp hrun
      have hmid := (Option.some.inj hmid).symm
      have hfind' : mid.getUsecaseFromId inp.usecase = some uc := by
        rw [hmid]
        exact hfind
      have hinp' : mid.ins i = some
          { inp with pcmDevList := inp.pcmDevList.map PcmDevice.closedIn } := by
        rw [hmid]
        exact Function.update_self _ _ _
      rw [stopInputStream_eq (by rfl) hfind' hinp'] at hrun
      simp only [Option.bind_eq_bind, Option.bind_some, Function.update_self] at hrun
      cases hrun
      subst hmid
      simp only [AudioDevice.setIn, Function.update_idem]
      exact h.stopIn hinp hstandby huc hkey

end DragonDevice.Audio
