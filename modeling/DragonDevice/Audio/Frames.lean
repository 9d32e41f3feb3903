/-
  Audio/Frames.lean --- what the functions of the audio HAL leave as it is.

  Nothing on the side of the outputs, of the voice call and of routing touches an input, the
  active input or the profiles.
-/
import DragonDevice.Audio.Ledger
import DragonDevice.Audio.Calls

set_option autoImplicit false

namespace DragonDevice.Audio

/-- The inputs, the active one, the profiles and the number of streams are as before. -/
structure InputsKept (adev adev' : AudioDevice) : Prop where
  ins : adev'.ins = adev.ins
  active : adev'.activeInput = adev.activeInput
  profiles : adev'.profiles = adev.profiles
  next : adev'.nextStream = adev.nextStream

theorem InputsKept.refl (adev : AudioDevice) : InputsKept adev adev := ⟨rfl, rfl, rfl, rfl⟩

theorem InputsKept.trans {adev₁ adev₂ adev₃ : AudioDevice} (h₁ : InputsKept adev₁ adev₂)
    (h₂ : InputsKept adev₂ adev₃) : InputsKept adev₁ adev₃ where
  ins := h₂.ins.trans h₁.ins
  active := h₂.active.trans h₁.active
  profiles := h₂.profiles.trans h₁.profiles
  next := h₂.next.trans h₁.next

section Keeps

variable {asInput : AsInput} {depth : Nat} {answers : StartAnswers} {adev adev' : AudioDevice}
  {i : Nat} {ret : Int}

theorem selectDevices_inputsKept {id : UsecaseId}
    (h : selectDevices asInput depth adev id = some adev') : InputsKept adev adev' := by
  rw [(selectDevices_reselected h).frame]
  exact ⟨rfl, rfl, rfl, rfl⟩

theorem closeAll_inputsKept (devices : List PcmDevice) (adev : AudioDevice) :
    InputsKept adev (adev.closeAll devices) := by
  unfold AudioDevice.closeAll
  induction devices generalizing adev with
  | nil => exact .refl adev
  | cons device devices ih =>
      refine .trans ?_ (ih (adev.pcmClose device.pcm))
      cases device.pcm with
      | none => exact .refl adev
      | some pcm => exact ⟨rfl, rfl, rfl, rfl⟩

theorem outClosePcmDevices_inputsKept (h : outClosePcmDevices adev i = some adev') :
    InputsKept adev adev' := by
  obtain ⟨out, -, h⟩ := Option.bind_eq_some_iff.mp h
  cases h
  have hclose := closeAll_inputsKept out.pcmDevList adev
  exact ⟨hclose.ins, hclose.active, hclose.profiles, hclose.next⟩

theorem ucReleasePcmDevices_inputsKept {ref : StreamRef}
    (h : ucReleasePcmDevices adev ref = some adev') : InputsKept adev adev' := by
  cases ref with
  | inp id => cases h
  | out id =>
      obtain ⟨out, -, rfl⟩ := Option.map_eq_some_iff.mp h
      exact ⟨rfl, rfl, rfl, rfl⟩

theorem ucSelectPcmDevices_inputsKept {uc : AudioUsecase}
    (h : ucSelectPcmDevices adev uc = some adev') : InputsKept adev adev' := by
  unfold ucSelectPcmDevices at h
  split at h
  · obtain ⟨out, -, rfl⟩ := Option.map_eq_some_iff.mp h
    exact ⟨rfl, rfl, rfl, rfl⟩
  · cases h

theorem stopOutputStream_inputsKept (h : stopOutputStream adev i = some adev') :
    InputsKept adev adev' := by
  obtain ⟨out, -, h⟩ := Option.bind_eq_some_iff.mp h
  split at h
  · cases h
    exact .refl adev
  · obtain ⟨released, hreleased, h⟩ := Option.bind_eq_some_iff.mp h
    cases h
    have hrelease := ucReleasePcmDevices_inputsKept hreleased
    exact ⟨hrelease.ins, hrelease.active, hrelease.profiles, hrelease.next⟩

theorem doOutStandby_inputsKept (h : doOutStandby adev i = some adev') :
    InputsKept adev adev' := by
  obtain ⟨out, -, h⟩ := Option.bind_eq_some_iff.mp h
  obtain ⟨closed, hclosed, h⟩ := Option.bind_eq_some_iff.mp h
  have hclose := outClosePcmDevices_inputsKept hclosed
  have hstop := stopOutputStream_inputsKept h
  exact .trans ⟨hclose.ins, hclose.active, hclose.profiles, hclose.next⟩ hstop

theorem openPcmDevices_inputsKept (owner : StreamRef) (sampleRate : Nat)
    (devices : List PcmDevice) (adev : AudioDevice) (ret : Int) :
    InputsKept adev (openPcmDevices answers owner sampleRate adev ret devices).1 := by
  induction devices generalizing adev ret with
  | nil => exact .refl adev
  | cons device devices ih =>
      unfold openPcmDevices
      have hopen : InputsKept adev (adev.pcmOpen owner (answers.pcmOpen device.profile)).1 := by
        cases answers.pcmOpen device.profile <;> exact ⟨rfl, rfl, rfl, rfl⟩
      dsimp only
      split
      · exact hopen
      · exact hopen.trans (ih _ _)

theorem outOpenPcmDevices_inputsKept
    (h : outOpenPcmDevices answers adev i = some (ret, adev')) : InputsKept adev adev' := by
  obtain ⟨out, -, h⟩ := Option.bind_eq_some_iff.mp h
  have hopened := @openPcmDevices_inputsKept answers (.out i) out.sampleRate out.pcmDevList adev 0
  dsimp only at h
  split at h
  · obtain ⟨closed, hclosed, h⟩ := Option.bind_eq_some_iff.mp h
    cases h
    have hclose := outClosePcmDevices_inputsKept hclosed
    exact hopened.trans ⟨hclose.ins, hclose.active, hclose.profiles, hclose.next⟩
  · cases h
    exact ⟨hopened.ins, hopened.active, hopened.profiles, hopened.next⟩

theorem startOutputStream_inputsKept
    (h : startOutputStream asInput depth answers adev i = some (ret, adev')) :
    InputsKept adev adev' := by
  obtain ⟨mid, hmid, h⟩ := Option.bind_eq_some_iff.mp h
  obtain ⟨out, -, hmid⟩ := Option.bind_eq_some_iff.mp hmid
  obtain ⟨selected, hselected, hmid⟩ := Option.bind_eq_some_iff.mp hmid
  obtain ⟨⟨ret', opened⟩, hopened, h⟩ := Option.bind_eq_some_iff.mp h
  have hselect := ucSelectPcmDevices_inputsKept hselected
  have hroute := selectDevices_inputsKept hmid
  have hstart : InputsKept adev opened :=
    (hselect.trans ⟨hroute.ins, hroute.active, hroute.profiles, hroute.next⟩).trans
      (outOpenPcmDevices_inputsKept hopened)
  dsimp only at h
  split at h
  · obtain ⟨stopped, hstopped, h⟩ := Option.bind_eq_some_iff.mp h
    cases h
    exact hstart.trans (stopOutputStream_inputsKept hstopped)
  · cases h
    exact hstart

theorem startVoiceCall_inputsKept (h : startVoiceCall asInput depth adev = some adev') :
    InputsKept adev adev' := by
  obtain ⟨id, -, h⟩ := Option.bind_eq_some_iff.mp h
  obtain ⟨out, -, h⟩ := Option.bind_eq_some_iff.mp h
  obtain ⟨listed, hlisted, h⟩ := Option.bind_eq_some_iff.mp h
  obtain ⟨selected, hselected, h⟩ := Option.bind_eq_some_iff.mp h
  cases h
  have hroute := selectDevices_inputsKept hselected
  exact (ucSelectPcmDevices_inputsKept hlisted).trans
    ⟨hroute.ins, hroute.active, hroute.profiles, hroute.next⟩

theorem stopVoiceCall_inputsKept (h : stopVoiceCall adev = some adev') :
    InputsKept adev adev' := by
  unfold stopVoiceCall at h
  dsimp only at h
  split at h
  · cases h
    exact ⟨rfl, rfl, rfl, rfl⟩
  · obtain ⟨released, hreleased, h⟩ := Option.bind_eq_some_iff.mp h
    cases h
    have hrelease := ucReleasePcmDevices_inputsKept hreleased
    exact ⟨hrelease.ins, hrelease.active, hrelease.profiles, hrelease.next⟩

theorem outStandby_inputsKept (h : outStandby adev i = some adev') : InputsKept adev adev' := by
  obtain ⟨out, -, h⟩ := Option.bind_eq_some_iff.mp h
  split at h
  · cases h
    exact .refl adev
  · exact doOutStandby_inputsKept h

theorem applyRouting_inputsKept {value : AudioDevices}
    (h : applyRouting asInput depth adev i value = some adev') : InputsKept adev adev' := by
  unfold applyRouting at h
  split at h
  · obtain ⟨rerouted, hrerouted, h⟩ := Option.bind_eq_some_iff.mp h
    have hcall : InputsKept rerouted adev' := by
      unfold routeCall at h
      split at h
      · split at h
        · exact selectDevices_inputsKept h
        · exact startVoiceCall_inputsKept h
      · cases h
        exact .refl _
    refine .trans ?_ hcall
    obtain ⟨out, -, hrerouted⟩ := Option.bind_eq_some_iff.mp hrerouted
    dsimp only at hrerouted
    split at hrerouted
    · cases hrerouted
      exact ⟨rfl, rfl, rfl, rfl⟩
    · split at hrerouted
      · have hstandby := doOutStandby_inputsKept hrerouted
        exact ⟨hstandby.ins, hstandby.active, hstandby.profiles, hstandby.next⟩
      · have hroute := selectDevices_inputsKept hrerouted
        exact ⟨hroute.ins, hroute.active, hroute.profiles, hroute.next⟩
  · cases h
    exact .refl adev

theorem endCall_inputsKept (h : endCall adev i = some adev') : InputsKept adev adev' := by
  unfold endCall at h
  split at h
  · exact stopVoiceCall_inputsKept h
  · cases h
    exact .refl adev

theorem adevSetTty_inputsKept {tty : TtyMode}
    (h : adevSetTty asInput depth adev tty = some adev') : InputsKept adev adev' := by
  unfold adevSetTty at h
  dsimp only at h
  split at h
  · split at h
    · have hroute := selectDevices_inputsKept h
      exact ⟨hroute.ins, hroute.active, hroute.profiles, hroute.next⟩
    · cases h
      exact ⟨rfl, rfl, rfl, rfl⟩
  · cases h
    exact .refl adev

end Keeps

end DragonDevice.Audio
