/-
  Audio/StartKept.lean --- starting a stream or the voice call keeps the books, if no use
  case with its id is listed and, for an input, the resampler can be created.
-/
import DragonDevice.Audio.Bookkeeping

set_option autoImplicit false

namespace DragonDevice.Audio

open DragonDevice.Lib

/-! ## Profiles -/

/-- A profile that is found has the type that was asked for. -/
theorem getPcmDevice_type {profiles : ProfileId → PcmDeviceProfile} {type : UsecaseType}
    {devices : AudioDevices} {p : ProfileId} (h : getPcmDevice profiles type devices = some p) :
    (profiles p).type = type := by
  unfold getPcmDevice at h
  dsimp only at h
  split at h
  · cases h
  · have hp := List.find?_some h
    simp only [Bool.and_eq_true, decide_eq_true_eq] at hp
    exact hp.1

theorem LoadedButPeriod.type_eq {profiles : ProfileId → PcmDeviceProfile}
    (h : LoadedButPeriod profiles) (p : ProfileId) :
    (profiles p).type = (loadedProfiles p).type := by
  obtain ⟨period, hp⟩ := h p
  rw [hp]

/-- Every profile for playback has the one rate. -/
theorem LoadedButPeriod.rate_eq {profiles : ProfileId → PcmDeviceProfile}
    (h : LoadedButPeriod profiles) {p : ProfileId} (htype : (profiles p).type = .pcmPlayback) :
    (profiles p).config.rate = playbackRate := by
  rw [h.type_eq p] at htype
  obtain ⟨period, hp⟩ := h p
  rw [hp]
  cases p with
  | playbackHs => rfl
  | playbackSpk => rfl
  | playbackSpkAndHeadset => rfl
  | capture => cases htype
  | captureLoopbackAec => cases htype
  | hotwordStreaming => cases htype

theorem LoadedButPeriod.applyFastPeriod {adev : AudioDevice}
    (h : LoadedButPeriod adev.profiles) (flags : BitVec 32) (p : ProfileId) :
    LoadedButPeriod (applyFastPeriod adev flags p).profiles := by
  unfold Audio.applyFastPeriod
  split
  · intro q
    by_cases hq : q = p
    · subst hq
      obtain ⟨period, hp⟩ := h q
      refine ⟨capturePeriodSizeLowLatency, ?_⟩
      dsimp only
      rw [Function.update_self, hp]
    · obtain ⟨period, hp⟩ := h q
      refine ⟨period, ?_⟩
      dsimp only
      rw [Function.update_of_ne hq, hp]
  · exact h

/-- The use case that was added, and the others. -/
theorem exists_added {l old : List AudioUsecase} {k : UsecaseKey}
    (hkeys : l.map AudioUsecase.key = old.map AudioUsecase.key ++ [k])
    (hnone : ∀ x ∈ old, x.id ≠ k.id) :
    ∃ uc ∈ l, uc.key = k ∧ ∀ key, key ∈ l.map AudioUsecase.key ∧ key ≠ uc.key ↔
      key ∈ old.map AudioUsecase.key := by
  have hmem : k ∈ l.map AudioUsecase.key := by
    rw [hkeys]
    exact List.mem_append_right _ List.mem_cons_self
  obtain ⟨uc, huc, hkey⟩ := List.mem_map.mp hmem
  refine ⟨uc, huc, hkey, fun key => ?_⟩
  rw [hkeys, hkey, List.mem_append, List.mem_singleton]
  refine ⟨fun hk => hk.1.resolve_right hk.2, fun hk => ⟨.inl hk, ?_⟩⟩
  rintro rfl
  obtain ⟨x, hx, hxkey⟩ := List.mem_map.mp hk
  exact hnone x hx (congrArg UsecaseKey.id hxkey)

/-! ## Outputs -/

/-- The devices of an output that starts: the one of the profile, if there is one. -/
def selectedPcmDevices (adev : AudioDevice) (out : StreamOut) : List PcmDevice :=
  ((getPcmDevice adev.profiles .pcmPlayback out.devices).map newPcmDevice).toList

/-- The state in which `enable_output_path_l` selects the devices. -/
def listedOutput (adev : AudioDevice) (i : Nat) (out : StreamOut) : AudioDevice :=
  { adev with
    outs := Function.update adev.outs i
      (some { out with pcmDevList := selectedPcmDevices adev out })
    usecaseList := adev.usecaseList ++ [playbackUsecase i out] }

theorem enableOutputPath_eq {asInput : AsInput} {depth : Nat} {adev : AudioDevice} {i : Nat}
    {out : StreamOut} (hout : adev.outs i = some out) :
    enableOutputPath asInput depth adev i =
      selectDevices asInput depth (listedOutput adev i out) out.usecase := by
  simp [enableOutputPath, hout, ucSelectPcmDevices, playbackUsecase, AudioDevice.setOut,
    listedOutput, selectedPcmDevices]

/-- What `enable_output_path_l` leaves: the use case is listed, and the stream lists its
devices. -/
theorem enableOutputPath_spec {asInput : AsInput} {depth : Nat} {adev mid : AudioDevice}
    {i : Nat} {out : StreamOut} (hout : adev.outs i = some out)
    (hrun : enableOutputPath asInput depth adev i = some mid) :
    mid =
      { adev with
        usecaseList := mid.usecaseList
        sndDevRefCnt := mid.sndDevRefCnt
        outs := Function.update adev.outs i
          (some { out with pcmDevList := selectedPcmDevices adev out }) } ∧
      mid.usecaseList.map AudioUsecase.key =
        adev.usecaseList.map AudioUsecase.key ++ [⟨out.usecase, .pcmPlayback, .out i⟩] ∧
      (adev.getUsecaseFromId out.usecase = none →
        Ledger adev.usecaseList adev.sndDevRefCnt →
          Ledger mid.usecaseList mid.sndDevRefCnt) := by
  rw [enableOutputPath_eq hout] at hrun
  have hres := selectDevices_reselected hrun
  refine ⟨hres.frame, ?_, fun hnone hledger => hres.ledger ?_⟩
  · rw [hres.keys, listedOutput, List.map_append]
    rfl
  · exact hledger.add (getUsecaseFromId_eq_none.mp hnone) rfl rfl

section OpenOne

variable {answers : StartAnswers} {adev adev' : AudioDevice} {i : Nat} {out : StreamOut}
  {p : ProfileId}

/-- What the resampler of an output's device answers, if one is needed. -/
def outResampler (answers : StartAnswers) (sampleRate : Nat)
    (profiles : ProfileId → PcmDeviceProfile) (p : ProfileId) : Int :=
  if sampleRate ≠ (profiles p).config.rate then answers.createResampler p else 0

/-- No device to open. -/
theorem outOpenPcmDevices_nil (hout : adev.outs i = some out) (hlist : out.pcmDevList = []) :
    outOpenPcmDevices answers adev i = some (0, adev.setOut i out) := by
  rw [outOpenPcmDevices, hout, Option.bind_eq_bind, Option.bind_some, hlist]
  simp [openPcmDevices, ← hlist]

/-- One device, and `pcm_open` gives no handle. -/
theorem outOpenPcmDevices_null (hout : adev.outs i = some out)
    (hlist : out.pcmDevList = [newPcmDevice p]) (hopen : answers.pcmOpen p = .null) :
    ∃ device, device.pcm = none ∧
      outOpenPcmDevices answers adev i = some (outResampler answers out.sampleRate adev.profiles p,
        adev.setOut i { out with pcmDevList := [device] }) := by
  refine ⟨?device, ?_, ?_⟩
  rotate_left 2
  · rw [outOpenPcmDevices, hout, Option.bind_eq_bind, Option.bind_some, hlist]
    simp only [openPcmDevices, newPcmDevice, hopen, AudioDevice.pcmOpen, reduceCtorEq, if_false,
      Bool.false_eq_true]
    rfl
  · rfl

/-- One device, and the handle is not ready. -/
theorem outOpenPcmDevices_notReady (hout : adev.outs i = some out)
    (hlist : out.pcmDevList = [newPcmDevice p]) (hopen : answers.pcmOpen p = .notReady) :
    outOpenPcmDevices answers adev i = some (-eio,
      { adev with
        handles := ⟨adev.freshHandle, .out i, false⟩ :: adev.handles
        outs := Function.update adev.outs i
          (some { out with pcmDevList := [(newPcmDevice p).closedOut] }) }) := by
  rw [outOpenPcmDevices, hout, Option.bind_eq_bind, Option.bind_some, hlist]
  simp only [openPcmDevices, newPcmDevice, hopen, AudioDevice.pcmOpen, if_true]
  rw [outClosePcmDevices_eq (Function.update_self i _ _)]
  simp [pcmsOf, AudioDevice.setOut]

/-- One device, and it is ready. -/
theorem outOpenPcmDevices_ready (hout : adev.outs i = some out)
    (hlist : out.pcmDevList = [newPcmDevice p]) (hopen : answers.pcmOpen p = .ready) :
    ∃ device, device.pcm = some adev.freshHandle ∧
      outOpenPcmDevices answers adev i = some (outResampler answers out.sampleRate adev.profiles p,
        { adev with
          handles := ⟨adev.freshHandle, .out i, true⟩ :: adev.handles
          outs := Function.update adev.outs i (some { out with pcmDevList := [device] }) }) := by
  refine ⟨?device, ?_, ?_⟩
  rotate_left 2
  · rw [outOpenPcmDevices, hout, Option.bind_eq_bind, Option.bind_some, hlist]
    simp only [openPcmDevices, newPcmDevice, hopen, AudioDevice.pcmOpen, reduceCtorEq, if_false,
      Bool.false_eq_true]
    rfl
  · rfl

end OpenOne

/-- The output joins the books with its use case and its PCMs. -/
theorem Kept.joinOut {adev : AudioDevice} (h : Kept adev) {i : Nat} {out : StreamOut}
    (hout : adev.outs i = some out) (hstandby : out.standby = true) {l : List AudioUsecase}
    {cnt : SndDevice → Nat} (hledger : Ledger l cnt)
    (hkeys : l.map AudioUsecase.key =
      adev.usecaseList.map AudioUsecase.key ++ [⟨out.usecase, .pcmPlayback, .out i⟩])
    {handles : List PcmHandle} {devices : List PcmDevice}
    (hhandles : ∀ x ∈ handles, x ∈ adev.handles ∨ x.owner = .out i ∧ x.id ∈ pcmsOf devices) :
    Kept
      { adev with
        usecaseList := l
        sndDevRefCnt := cnt
        handles := handles
        outs := Function.update adev.outs i
          (some { out with standby := false, pcmDevList := devices }) } := by
  have hplays : playing adev.outs i = none := by
    simp [playing, hout, StreamOut.plays, hstandby]
  refine ⟨hledger, fun key => ?_, fun x hx hr => ?_, h.active, h.callOn,
    h.streams.updateOut hout rfl rfl, h.profiles⟩
  · dsimp only
    rw [hkeys, List.mem_append, List.mem_singleton, h.listed, playing_update,
      Option.bind_some, StreamOut.plays,
      if_neg Bool.false_ne_true]
    exact (live_startPlaying hplays).symm
  · dsimp only
    rw [openPcms_update_out, Option.map_some, Option.getD_some, StreamOut.openPcms,
      if_neg Bool.false_ne_true]
    rcases hhandles x hx with hx | ⟨howner, hpcm⟩
    · -- the stream listed no PCM while it was in standby
      have hlisted := h.handles x hx hr
      have hne : x.owner ≠ .out i := by
        intro howner
        rw [howner] at hlisted
        simp [openPcms, hout, StreamOut.openPcms, hstandby] at hlisted
      rwa [Function.update_of_ne hne]
    · rwa [howner, Function.update_self]

/-- An output in standby that failed to start: the use cases are the same again, and what
handles there are more are not ready. -/
theorem Kept.failOut {adev : AudioDevice} (h : Kept adev) {i : Nat} {out : StreamOut}
    (hout : adev.outs i = some out) (hstandby : out.standby = true) {l : List AudioUsecase}
    {cnt : SndDevice → Nat} (hledger : Ledger l cnt)
    (hkeys : ∀ key, key ∈ l.map AudioUsecase.key ↔
      key ∈ adev.usecaseList.map AudioUsecase.key)
    {handles : List PcmHandle} {devices : List PcmDevice}
    (hhandles : ∀ x ∈ handles, x ∈ adev.handles ∨ x.ready = false) :
    Kept
      { adev with
        usecaseList := l
        sndDevRefCnt := cnt
        handles := handles
        outs := Function.update adev.outs i (some { out with pcmDevList := devices }) } := by
  have htouch := @Kept.touchOut adev h i out { out with pcmDevList := devices } hout rfl
    (by simp [StreamOut.openPcms, hstandby]) rfl rfl
  refine ⟨hledger, fun key => ?_, fun x hx hr => ?_, h.active, h.callOn, htouch.streams,
    h.profiles⟩
  · rw [hkeys]
    exact htouch.listed key
  · rcases hhandles x hx with hx | hready
    · exact htouch.handles x hx hr
    · rw [hready] at hr
      cases hr

/-- `start_output_stream` when no use case with the id is listed.  On success the caller takes
the stream out of standby. -/
theorem Kept.startOutputStream {asInput : AsInput} {depth : Nat} {answers : StartAnswers}
    {adev adev' : AudioDevice} (h : Kept adev) {i : Nat} {out : StreamOut} {ret : Int}
    (hout : adev.outs i = some out) (hstandby : out.standby = true)
    (hnone : adev.getUsecaseFromId out.usecase = none)
    (hrun : Audio.startOutputStream asInput depth answers adev i = some (ret, adev')) :
    ∃ out', adev'.outs i = some out' ∧ out'.standby = true ∧
      if ret = 0 then Kept (adev'.setOut i { out' with standby := false }) else Kept adev' := by
  obtain ⟨mid, hmid, hrun⟩ := Option.bind_eq_some_iff.mp hrun
  obtain ⟨hframe, hkeys, hledger⟩ := enableOutputPath_spec hout hmid
  have hledger := hledger hnone h.ledger
  generalize mid.usecaseList = l at hframe hledger hkeys
  generalize mid.sndDevRefCnt = cnt at hframe hledger
  obtain ⟨⟨ret', opened⟩, hopened, hrun⟩ := Option.bind_eq_some_iff.mp hrun
  cases hprofile : getPcmDevice adev.profiles .pcmPlayback out.devices with
  | none =>
      have hmidout : mid.outs i = some { out with pcmDevList := [] } := by
        rw [hframe, selectedPcmDevices, hprofile]
        exact Function.update_self _ _ _
      rw [outOpenPcmDevices_nil hmidout rfl] at hopened
      cases hopened
      cases hrun
      refine ⟨_, Function.update_self _ _ _, hstandby, ?_⟩
      rw [if_pos rfl, hframe]
      simp only [AudioDevice.setOut, Function.update_idem]
      exact h.joinOut hout hstandby hledger hkeys fun x hx => .inl hx
  | some p =>
      have hmidout : mid.outs i = some { out with pcmDevList := [newPcmDevice p] } := by
        rw [hframe, selectedPcmDevices, hprofile]
        exact Function.update_self _ _ _
      have hmidprofiles : mid.profiles = adev.profiles := by rw [hframe]
      have hmidhandles : mid.handles = adev.handles := by rw [hframe]
      -- every output and every playback device run at the same rate
      have hrate : outResampler answers out.sampleRate mid.profiles p = 0 := by
        rw [outResampler, (h.streams.outKinds i out hout).2, hmidprofiles,
          h.profiles.rate_eq (getPcmDevice_type hprofile), if_neg (not_not_intro rfl)]
      cases hopen : answers.pcmOpen p with
      | null =>
          obtain ⟨device, -, heq⟩ := outOpenPcmDevices_null hmidout rfl hopen
          rw [heq, hrate] at hopened
          cases hopened
          cases hrun
          refine ⟨_, Function.update_self _ _ _, hstandby, ?_⟩
          rw [if_pos rfl, hframe]
          simp only [AudioDevice.setOut, Function.update_idem]
          exact h.joinOut hout hstandby hledger hkeys fun x hx => .inl hx
      | ready =>
          obtain ⟨device, hdevice, heq⟩ := outOpenPcmDevices_ready hmidout rfl hopen
          rw [heq, hrate] at hopened
          cases hopened
          cases hrun
          refine ⟨_, Function.update_self _ _ _, hstandby, ?_⟩
          rw [if_pos rfl, hframe]
          simp only [AudioDevice.setOut, Function.update_idem]
          refine h.joinOut hout hstandby hledger hkeys fun x hx => ?_
          rcases List.mem_cons.mp hx with rfl | hx
          · refine .inr ⟨rfl, mem_pcmsOf.mpr ⟨device, List.mem_cons_self, ?_⟩⟩
            rw [hdevice, hframe]
          · exact .inl hx
      | notReady =>
          rw [outOpenPcmDevices_notReady hmidout rfl hopen, hframe] at hopened
          obtain ⟨hret, hopened⟩ := Prod.mk.inj (Option.some.inj hopened)
          dsimp only at hrun
          rw [← hret, if_pos (by decide)] at hrun
          obtain ⟨stopped, hstopped, hrun⟩ := Option.bind_eq_some_iff.mp hrun
          cases hrun
          obtain ⟨uc, huc, hkey, hrest⟩ := exists_added hkeys (getUsecaseFromId_eq_none.mp hnone)
          have hid : uc.id = out.usecase := congrArg UsecaseKey.id hkey
          have hfind : opened.getUsecaseFromId out.usecase = some uc := by
            rw [← hopened, ← hid]
            exact getUsecaseFromId_of_mem hledger.nodup huc
          have hopenedout : opened.outs i = some
              { out with pcmDevList := [(newPcmDevice p).closedOut] } := by
            rw [← hopened]
            exact Function.update_self _ _ _
          rw [stopOutputStream_eq hopenedout hfind (congrArg UsecaseKey.stream hkey)] at hstopped
          cases hstopped
          obtain ⟨hledger', hkeys'⟩ := hledger.dropPlayback huc (congrArg UsecaseKey.type hkey)
          refine ⟨_, Function.update_self _ _ _, hstandby, ?_⟩
          rw [if_neg (by decide), ← hopened]
          simp only [Function.update_idem]
          rw [hid] at hledger' hkeys'
          refine h.failOut hout hstandby hledger' (fun key => ?_) fun x hx => ?_
          · rw [hkeys', hrest]
          · rcases List.mem_cons.mp hx with rfl | hx
            · exact .inr rfl
            · exact .inl hx

/-! ## Inputs -/

/-- The input joins the books with its use case and its PCMs, and is the active one. -/
theorem Kept.joinIn {adev : AudioDevice} (h : Kept adev) {i : Nat} {inp inp' : StreamIn}
    (hinp : adev.ins i = some inp) (hstandby : inp.standby = true)
    (hstarted : inp'.standby = false) (husecase : inp'.usecase = inp.usecase)
    {profiles : ProfileId → PcmDeviceProfile} (hprofiles : LoadedButPeriod profiles)
    {l : List AudioUsecase} {cnt : SndDevice → Nat} (hledger : Ledger l cnt)
    (hkeys : l.map AudioUsecase.key =
      adev.usecaseList.map AudioUsecase.key ++ [⟨inp.usecase, .pcmCapture, .inp i⟩])
    {handles : List PcmHandle}
    (hhandles : ∀ x ∈ handles, x ∈ adev.handles ∨
      x.owner = .inp i ∧ x.id ∈ pcmsOf inp'.pcmDevList) :
    Kept
      { adev with
        profiles := profiles
        activeInput := some i
        usecaseList := l
        sndDevRefCnt := cnt
        handles := handles
        ins := Function.update adev.ins i (some inp') } := by
  have hcaptures : capturing adev.ins i = none := by
    simp [capturing, hinp, StreamIn.captures, hstandby]
  have hnew : inp'.captures = some inp.usecase := by
    simp [StreamIn.captures, hstarted, husecase]
  refine ⟨hledger, fun key => ?_, fun x hx hr => ?_, fun j hj => ?_, h.callOn,
    h.streams.updateIn hinp husecase, hprofiles⟩
  · dsimp only
    rw [hkeys, List.mem_append, List.mem_singleton, h.listed, capturing_update,
      Option.bind_some, hnew]
    exact (live_startCapturing hcaptures).symm
  · dsimp only
    rw [openPcms_update_in, Option.map_some, Option.getD_some, StreamIn.openPcms, hstarted,
      if_neg Bool.false_ne_true]
    rcases hhandles x hx with hx | ⟨howner, hpcm⟩
    · have hlisted := h.handles x hx hr
      have hne : x.owner ≠ .inp i := by
        intro howner
        rw [howner] at hlisted
        simp [openPcms, hinp, StreamIn.openPcms, hstandby] at hlisted
      rwa [Function.update_of_ne hne]
    · rwa [howner, Function.update_self]
  · cases hj
    dsimp only
    rw [capturing_update, Option.bind_some, hnew, Function.update_self]
    rfl

/-- An input in standby that failed to start: the use cases are the same again, and no input
is active. -/
theorem Kept.failIn {adev : AudioDevice} (h : Kept adev) {i : Nat} {inp inp' : StreamIn}
    (hinp : adev.ins i = some inp) (hstandby : inp.standby = true)
    (hfailed : inp'.standby = true) (husecase : inp'.usecase = inp.usecase)
    {profiles : ProfileId → PcmDeviceProfile} (hprofiles : LoadedButPeriod profiles)
    {l : List AudioUsecase} {cnt : SndDevice → Nat} (hledger : Ledger l cnt)
    (hkeys : ∀ key, key ∈ l.map AudioUsecase.key ↔
      key ∈ adev.usecaseList.map AudioUsecase.key)
    {handles : List PcmHandle} (hhandles : ∀ x ∈ handles, x ∈ adev.handles) :
    Kept
      { adev with
        profiles := profiles
        activeInput := none
        usecaseList := l
        sndDevRefCnt := cnt
        handles := handles
        ins := Function.update adev.ins i (some inp') } := by
  have htouch := @Kept.touchIn adev h i inp inp' hinp
    (by simp [StreamIn.captures, hstandby, hfailed])
    (by simp [StreamIn.openPcms, hstandby, hfailed]) husecase
  refine ⟨hledger, fun key => ?_, fun x hx hr => ?_, (by simp), h.callOn, htouch.streams,
    hprofiles⟩
  · rw [hkeys]
    exact htouch.listed key
  · exact htouch.handles x (hhandles x hx) hr

/-- Neither the PCM nor the DSP of an input opens. -/
def CaptureFails (answers : StartAnswers) (adev : AudioDevice) (p : ProfileId) : Prop :=
  if (adev.profiles p).type = .pcmHotwordStreaming then
    ¬ (adev.soundTrigger ∧ 0 < answers.openForStreaming)
  else
    answers.pcmOpen p = .notReady

instance (answers : StartAnswers) (adev : AudioDevice) (p : ProfileId) :
    Decidable (CaptureFails answers adev p) := by
  unfold CaptureFails
  infer_instance

theorem lt_freshHandle {adev : AudioDevice} {x : PcmHandle} (hx : x ∈ adev.handles) :
    x.id < adev.freshHandle := by
  unfold AudioDevice.freshHandle
  generalize adev.handles = handles at hx
  induction handles with
  | nil => cases hx
  | cons y handles ih =>
      rw [List.map_cons, List.foldr_cons]
      rcases List.mem_cons.mp hx with rfl | hx
      · omega
      · have hlt := ih hx
        omega

/-- A handle that was just opened is closed again. -/
theorem pcmClose_fresh (adev : AudioDevice) (owner : StreamRef) :
    (adev.pcmOpen owner .notReady).1.pcmClose (adev.pcmOpen owner .notReady).2 = adev := by
  have hsame : adev.handles.filter (fun h => ¬ h.id = adev.freshHandle) = adev.handles := by
    refine List.filter_eq_self.mpr fun x hx => ?_
    have hlt := lt_freshHandle hx
    simp only [decide_eq_true_eq]
    omega
  simp only [AudioDevice.pcmOpen, AudioDevice.pcmClose, List.filter_cons, ne_eq,
    not_true_eq_false, decide_false, Bool.false_eq_true, if_false]
  rw [hsame]

theorem openCapture_fails {answers : StartAnswers} {adev : AudioDevice} {p : ProfileId}
    (h : CaptureFails answers adev p) (i : Nat) :
    openCapture answers adev i p = (adev, none) := by
  unfold CaptureFails at h
  unfold openCapture
  dsimp only
  split
  · rename_i htype
    rw [if_pos htype] at h
    rw [if_neg h]
  · rename_i htype
    rw [if_neg htype] at h
    rw [h, if_pos rfl, pcmClose_fresh]

/-- The device that opens is listed with the handle it has, if any, and was opened with the
configuration of the profile. -/
theorem openCapture_opens {answers : StartAnswers} {adev : AudioDevice} {p : ProfileId}
    (h : ¬ CaptureFails answers adev p) (i : Nat) :
    ∃ device handles,
      openCapture answers adev i p = ({ adev with handles := handles }, some device) ∧
      (∀ x ∈ handles, x ∈ adev.handles ∨ x.owner = .inp i ∧ x.id ∈ pcmsOf [device]) ∧
      ∀ config, device.openedWith = some config → config = (adev.profiles p).config ∧
        (adev.profiles p).type ≠ .pcmHotwordStreaming := by
  unfold CaptureFails at h
  unfold openCapture
  dsimp only
  split
  · rename_i htype
    rw [if_pos htype, not_not] at h
    rw [if_pos h]
    exact ⟨_, _, rfl, fun x hx => .inl hx, nofun⟩
  · rename_i htype
    rw [if_neg htype] at h
    rw [if_neg h]
    cases hopen : answers.pcmOpen p with
    | notReady => exact absurd hopen h
    | null => exact ⟨_, _, rfl, fun x hx => .inl hx, nofun⟩
    | ready =>
        refine ⟨_, _, rfl, fun x hx => ?_,
          fun config hconfig => ⟨(Option.some.inj hconfig).symm, htype⟩⟩
        rcases List.mem_cons.mp hx with rfl | hx
        · exact .inr ⟨rfl, by simp [pcmsOf, AudioDevice.pcmOpen]⟩
        · exact .inl hx

/-- An input may start: no use case with its id is listed, and the resampler that it needs is
created, unless the device does not open anyway.  Without a profile it does not come to that. -/
def StartsWell (answers : StartAnswers) (adev : AudioDevice) (inp : StreamIn) : Prop :=
  ∀ p, getPcmDevice adev.profiles inp.usecaseType inp.devices = some p →
    adev.getUsecaseFromId inp.usecase = none ∧
      (recreateResampler inp (adev.profiles p).config = true →
        answers.createResampler p = 0 ∨ CaptureFails answers adev p)

/-- The profiles that the fast period leaves. -/
theorem applyFastPeriod_frame (adev : AudioDevice) (flags : BitVec 32) (p : ProfileId) :
    applyFastPeriod adev flags p =
      { adev with profiles := (applyFastPeriod adev flags p).profiles } ∧
    ∀ q, ((applyFastPeriod adev flags p).profiles q).type = (adev.profiles q).type ∧
      ((applyFastPeriod adev flags p).profiles q).config.rate = (adev.profiles q).config.rate ∧
      ((applyFastPeriod adev flags p).profiles q).config.channels =
        (adev.profiles q).config.channels := by
  unfold applyFastPeriod
  split
  · refine ⟨rfl, fun q => ?_⟩
    by_cases hq : q = p
    · subst hq
      simp
    · simp [Function.update_of_ne hq]
  · exact ⟨rfl, fun q => ⟨rfl, rfl, rfl⟩⟩

/-- What an input has when its devices are selected: the use case is listed, the stream lists
the device of the profile, and is the active input. -/
theorem enableInputPath_spec {asInput : AsInput} {depth : Nat} {adev mid : AudioDevice}
    {i : Nat} {inp : StreamIn} {p : ProfileId}
    (hrun : enableInputPath asInput depth adev i inp p = some mid) :
    mid =
      { adev with
        profiles := mid.profiles
        activeInput := some i
        usecaseList := mid.usecaseList
        sndDevRefCnt := mid.sndDevRefCnt
        ins := Function.update adev.ins i (some { inp with pcmDevList := [newPcmDevice p] }) } ∧
      mid.profiles = (applyFastPeriod adev inp.inputFlags p).profiles ∧
      mid.usecaseList.map AudioUsecase.key =
        adev.usecaseList.map AudioUsecase.key ++ [⟨inp.usecase, .pcmCapture, .inp i⟩] ∧
      (adev.getUsecaseFromId inp.usecase = none →
        Ledger adev.usecaseList adev.sndDevRefCnt →
          Ledger mid.usecaseList mid.sndDevRefCnt) := by
  have hfast := (applyFastPeriod_frame { adev with activeInput := some i } inp.inputFlags p).1
  have hprofiles : (applyFastPeriod { adev with activeInput := some i } inp.inputFlags p).profiles
      = (applyFastPeriod adev inp.inputFlags p).profiles := by
    unfold applyFastPeriod
    split <;> rfl
  rw [enableInputPath, hfast] at hrun
  have hres := selectDevices_reselected hrun
  refine ⟨?_, ?_, ?_, fun hnone hledger => hres.ledger ?_⟩
  · rw [hres.frame]
    rfl
  · rw [hres.frame]
    exact hprofiles
  · rw [hres.keys, AudioDevice.setIn, List.map_append]
    rfl
  · exact hledger.add (getUsecaseFromId_eq_none.mp hnone) rfl rfl

/-- `start_input_stream` when the input may start.  On success the caller takes the stream
out of standby. -/
theorem Kept.startInputStream {asInput : AsInput} {depth : Nat} {answers : StartAnswers}
    {adev adev' : AudioDevice} (h : Kept adev) {i : Nat} {inp : StreamIn} {ret : Int}
    (hinp : adev.ins i = some inp) (hstandby : inp.standby = true)
    (hstarts : StartsWell answers adev inp)
    (hrun : Audio.startInputStream asInput depth answers adev i = some (ret, adev')) :
    ∃ inp', adev'.ins i = some inp' ∧ inp'.standby = true ∧
      if ret = 0 then Kept (adev'.setIn i { inp' with standby := false }) else Kept adev' := by
  rw [Audio.startInputStream, hinp, Option.bind_eq_bind, Option.bind_some] at hrun
  cases hprofile : getPcmDevice adev.profiles inp.usecaseType inp.devices with
  | none =>
      rw [hprofile] at hrun
      cases hrun
      refine ⟨inp, hinp, hstandby, ?_⟩
      rw [if_neg (by decide)]
      exact ⟨h.ledger, h.listed, h.handles, nofun, h.callOn, h.streams, h.profiles⟩
  | some p =>
      rw [hprofile] at hrun
      dsimp only at hrun
      obtain ⟨hnone, hresampler⟩ := hstarts p hprofile
      obtain ⟨mid, hmid, hrun⟩ := Option.bind_eq_some_iff.mp hrun
      obtain ⟨hframe, hprofiles, hkeys, hledger⟩ := enableInputPath_spec hmid
      have hledger := hledger hnone h.ledger
      have hsame := (applyFastPeriod_frame adev inp.inputFlags p).2 p
      have hloaded := h.profiles.applyFastPeriod inp.inputFlags p
      rw [← hprofiles] at hsame hloaded
      have hfails : CaptureFails answers mid p ↔ CaptureFails answers adev p := by
        unfold CaptureFails
        rw [hsame.1, hframe]
      have hrecreate : recreateResampler inp (mid.profiles p).config =
          recreateResampler inp (adev.profiles p).config := by
        unfold recreateResampler
        rw [hsame.2.1]
      by_cases hopens : CaptureFails answers mid p
      · rw [openCapture_fails hopens] at hrun
        obtain ⟨stopped, hstopped, hrun⟩ := Option.bind_eq_some_iff.mp hrun
        cases hrun
        obtain ⟨uc, huc, hkey, hrest⟩ := exists_added hkeys (getUsecaseFromId_eq_none.mp hnone)
        have hid : uc.id = inp.usecase := congrArg UsecaseKey.id hkey
        have hfind : mid.getUsecaseFromId inp.usecase = some uc := by
          rw [← hid]
          exact getUsecaseFromId_of_mem hledger.nodup huc
        rw [stopInputStream_setIn (by rfl) hfind] at hstopped
        cases hstopped
        obtain ⟨hledger', hkeys'⟩ := hledger.dropCapture huc (congrArg UsecaseKey.type hkey)
        rw [hid] at hledger' hkeys'
        refine ⟨_, Function.update_self _ _ _, hstandby, ?_⟩
        rw [if_neg (by decide)]
        generalize mid.profiles = profiles at hframe hloaded ⊢
        generalize mid.usecaseList = l at hframe hkeys' hledger' hrest
        generalize mid.sndDevRefCnt = cnt at hframe hledger'
        rw [hframe]
        simp only [Function.update_idem]
        refine h.failIn hinp hstandby ?_ ?_ hloaded hledger' (fun key => ?_) fun x hx => hx
        · exact hstandby
        · rfl
        · rw [hkeys', hrest]
      · obtain ⟨device, handles, hopen, hhandles, -⟩ := openCapture_opens hopens i
        rw [hopen] at hrun
        cases hrun
        have hret : inResampler answers inp (mid.profiles p).config p = 0 := by
          unfold inResampler
          split
          · rename_i hneeded
            rw [hrecreate] at hneeded
            exact (hresampler hneeded).resolve_right fun hf => hopens (hfails.mpr hf)
          · rfl
        refine ⟨_, Function.update_self _ _ _, hstandby, ?_⟩
        rw [if_pos hret]
        have hmidhandles : mid.handles = adev.handles := by rw [hframe]
        rw [hmidhandles] at hhandles
        generalize mid.profiles = profiles at hframe hloaded ⊢
        generalize mid.usecaseList = l at hframe hkeys hledger
        generalize mid.sndDevRefCnt = cnt at hframe hledger
        rw [hframe]
        simp only [AudioDevice.setIn, Function.update_idem]
        refine h.joinIn hinp hstandby ?_ ?_ hloaded hledger hkeys ?_
        · rfl
        · rfl
        · exact hhandles

/-! ## Voice call -/

/-- Without a call there is no use case of one. -/
theorem Kept.no_call {adev : AudioDevice} (h : Kept adev) (hcall : adev.inCall = false) :
    ∀ uc ∈ adev.usecaseList, uc.id ≠ .voiceCall := by
  intro uc huc hid
  have hlive := (h.listed uc.key).mp (List.mem_map_of_mem huc)
  have hkeyid : uc.key.id = .voiceCall := hid
  generalize uc.key = key at hlive hkeyid
  rcases hlive with @⟨i, id, hplays⟩ | @⟨i, id, hcaptures⟩ | hcallOn
  · obtain ⟨out, hout, hplays⟩ := Option.bind_eq_some_iff.mp hplays
    have hkind := (h.streams.outKinds i out hout).1
    unfold StreamOut.plays at hplays
    split at hplays
    · cases hplays
    · cases hplays
      rcases hkind with hkind | hkind <;> rw [hkind] at hkeyid <;> cases hkeyid
  · obtain ⟨inp, hinp, hcaptures⟩ := Option.bind_eq_some_iff.mp hcaptures
    have hkind := h.streams.inKinds i inp hinp
    unfold StreamIn.captures at hcaptures
    split at hcaptures
    · cases hcaptures
    · cases hcaptures
      rcases hkind with hkind | hkind <;> rw [hkind] at hkeyid <;> cases hkeyid
  · rw [AudioDevice.call, hcall] at hcallOn
    cases hcallOn

/-- `start_voice_call` on a primary output in standby. -/
theorem Kept.startVoiceCall {asInput : AsInput} {depth : Nat} {adev adev' : AudioDevice}
    (h : Kept adev) {i : Nat} {out : StreamOut} (hprimary : adev.primaryOutput = some i)
    (hout : adev.outs i = some out) (hstandby : out.standby = true)
    (hcall : adev.inCall = false)
    (hrun : Audio.startVoiceCall asInput depth adev = some adev') :
    Kept adev' ∧ adev'.mode = adev.mode := by
  rw [Audio.startVoiceCall, hprimary, Option.bind_eq_bind, Option.bind_some, hout,
    Option.bind_eq_bind, Option.bind_some] at hrun
  obtain ⟨sel, hsel, hrun⟩ := Option.bind_eq_some_iff.mp hrun
  obtain ⟨mid, hmid, hrun⟩ := Option.bind_eq_some_iff.mp hrun
  cases hrun
  rw [ucSelectPcmDevices] at hsel
  simp only [hout, Option.map_some, Option.some.injEq] at hsel
  subst hsel
  generalize ((getPcmDevice adev.profiles .voiceCall out.devices).map newPcmDevice).toList =
    devices at hmid
  have htouch := @Kept.touchOut adev h i out { out with pcmDevList := devices } hout rfl
    (by simp [StreamOut.openPcms, hstandby]) rfl rfl
  have hres := selectDevices_reselected hmid
  have hledger := hres.ledger (h.ledger.add (h.no_call hcall) rfl rfl)
  have hkeys := hres.keys
  have hframe := hres.frame
  generalize mid.usecaseList = l at hledger hkeys hframe
  generalize mid.sndDevRefCnt = cnt at hledger hframe
  rw [hframe]
  refine ⟨⟨hledger, fun key => ?_, htouch.handles, htouch.active, fun _ => ?_, htouch.streams,
    htouch.profiles⟩, rfl⟩
  · have hlisted := htouch.listed key
    rw [show (adev.setOut i { out with pcmDevList := devices }).call = none by
      simp [AudioDevice.call, AudioDevice.setOut, hcall]] at hlisted
    rw [hkeys, List.map_append, List.mem_append, hlisted]
    simp only [AudioDevice.call, if_true]
    rw [show (adev.setOut i { out with pcmDevList := devices }).primaryOutput = some i from
      hprimary, live_startCall]
    simp [AudioUsecase.key]
  · show adev.primaryOutput.isSome
    rw [hprimary]
    rfl

/-- `stop_voice_call` on a primary output in standby. -/
theorem Kept.stopVoiceCall {adev adev' : AudioDevice} (h : Kept adev) {i : Nat}
    {out : StreamOut} (hprimary : adev.primaryOutput = some i) (hout : adev.outs i = some out)
    (hstandby : out.standby = true) (hcall : adev.inCall = true)
    (hrun : Audio.stopVoiceCall adev = some adev') : Kept adev' := by
  have hcallOn : adev.call = some i := by
    rw [AudioDevice.call, if_pos hcall, hprimary]
  obtain ⟨uc, huc, hkey⟩ := List.mem_map.mp ((h.listed _).mpr (.call hcallOn))
  have hid : uc.id = .voiceCall := congrArg UsecaseKey.id hkey
  have hfind := getUsecaseFromId_of_mem h.ledger.nodup huc
  rw [hid] at hfind
  have hfind' : { adev with inCall := false }.getUsecaseFromId .voiceCall = some uc := hfind
  rw [Audio.stopVoiceCall] at hrun
  simp only [hfind', disableSndDevice, ucReleasePcmDevices,
    show uc.stream = .out i from congrArg UsecaseKey.stream hkey, hout, Option.map_some,
    Option.bind_eq_bind, Option.bind_some, Option.some.injEq] at hrun
  subst hrun
  obtain ⟨hledger, hkeys⟩ := h.ledger.drop huc fun d => by
    rw [AudioUsecase.held, ← Nat.sub_sub, ← release_apply, ← release_apply]
  rw [hid] at hledger hkeys
  have htouch := @Kept.touchOut adev h i out { out with pcmDevList := [] } hout rfl
    (by simp [StreamOut.openPcms, hstandby]) rfl rfl
  refine ⟨hledger, fun key => ?_, htouch.handles, htouch.active, fun h => (by cases h),
    htouch.streams, htouch.profiles⟩
  have hlisted := htouch.listed key
  rw [show (adev.setOut i { out with pcmDevList := [] }).call = some i from hcallOn] at hlisted
  show key ∈ (removeUsecase .voiceCall adev.usecaseList).map AudioUsecase.key ↔
    Live (playing (adev.setOut i { out with pcmDevList := [] }).outs) (capturing adev.ins) none
      key
  rw [hkeys, hkey]
  refine Iff.trans (and_congr_left fun _ => hlisted) ?_
  exact live_stopCall.symm

end DragonDevice.Audio
