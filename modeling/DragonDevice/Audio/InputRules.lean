/-
  Audio/InputRules.lean --- properties of every input that all calls keep.

  An input changes in few ways: it is created, its devices are listed anew or closed, it
  enters or leaves standby, its source, devices or effects change, or it starts.  A property
  that all of these keep holds of every input in every run.
-/
import DragonDevice.Audio.BookkeepingContract
import DragonDevice.Audio.Frames

set_option autoImplicit false

namespace DragonDevice.Audio

open DragonDevice.Lib

/-- The profiles that a start of an input goes on with. -/
def fastProfiles (profiles : ProfileId → PcmDeviceProfile) (flags : BitVec 32) (p : ProfileId) :
    ProfileId → PcmDeviceProfile :=
  if anyOf flags inputFlagFast then
    Function.update profiles p
      { profiles p with
        config := { (profiles p).config with periodSize := capturePeriodSizeLowLatency } }
  else
    profiles

theorem applyFastPeriod_profiles (adev : AudioDevice) (flags : BitVec 32) (p : ProfileId) :
    (applyFastPeriod adev flags p).profiles = fastProfiles adev.profiles flags p := by
  unfold applyFastPeriod fastProfiles
  split <;> rfl

/-- A property of the profiles and one of the inputs that go with each other, by the number of
the next stream, where inputs start under a condition. -/
structure InputRule (R : Nat → (ProfileId → PcmDeviceProfile) → Prop) (Ok : StreamIn → Prop)
    (P : Nat → Nat → StreamIn → Prop) : Prop where
  growProfiles : ∀ n profiles, R n profiles → R (n + 1) profiles
  growInput : ∀ n i inp, P n i inp → P (n + 1) i inp
  created : ∀ n profiles request p, R n profiles →
    checkInputParameters request.sampleRate request.pcm16
      (audioChannelCountFromInMask request.channelMask) = 0 →
    P (n + 1) n (newInput request (profiles p).config)
  unopened : ∀ n i inp devices, (∀ d ∈ devices, d.openedWith = none) → P n i inp →
    P n i { inp with pcmDevList := devices }
  standby : ∀ n i inp standby, P n i inp → P n i { inp with standby := standby }
  parameters : ∀ n i inp source devices, P n i inp →
    P n i { inp with source := source, devices := devices }
  effects : ∀ n i inp preprocessors aux changed, aux = inp.auxChannels ∨ aux = 0 ∨
    aux = channelIndexMask4 → P n i inp →
    P n i { inp with
            preprocessors := preprocessors, auxChannels := aux, auxChannelsChanged := changed }
  fast : ∀ n profiles inp p, R n profiles → Ok inp →
    getPcmDevice profiles inp.usecaseType inp.devices = some p →
    R n (fastProfiles profiles inp.inputFlags p)
  started : ∀ n i profiles inp p answers devices resampler, R n profiles → Ok inp → P n i inp →
    getPcmDevice profiles inp.usecaseType inp.devices = some p →
    (∀ d ∈ devices, ∀ config, d.openedWith = some config →
      config = (fastProfiles profiles inp.inputFlags p p).config ∧
        (fastProfiles profiles inp.inputFlags p p).type ≠ .pcmHotwordStreaming) →
    P n i { configuredInput answers inp (fastProfiles profiles inp.inputFlags p p).config p with
            pcmDevList := devices, resampler := resampler }

/-- The properties hold of the device. -/
structure InputsMeet (R : Nat → (ProfileId → PcmDeviceProfile) → Prop)
    (P : Nat → Nat → StreamIn → Prop) (adev : AudioDevice) : Prop where
  profiles : R adev.nextStream adev.profiles
  inputs : ∀ i inp, adev.ins i = some inp → P adev.nextStream i inp

theorem updatedAuxChannels_eq (answers : Nat → EffectAnswers) (inp : StreamIn) :
    updatedAuxChannels answers inp = 0 ∨ updatedAuxChannels answers inp = channelIndexMask4 := by
  unfold updatedAuxChannels
  dsimp only
  split
  · exact .inl rfl
  · unfold inGetAuxChannels
    split
    · exact .inl rfl
    · split
      · exact .inl rfl
      · exact .inr rfl

section Steps

variable {R : Nat → (ProfileId → PcmDeviceProfile) → Prop} {Ok : StreamIn → Prop}
  {P : Nat → Nat → StreamIn → Prop} {adev adev' : AudioDevice} {i : Nat}

theorem InputsMeet.kept (h : InputsMeet R P adev) (hkept : InputsKept adev adev') :
    InputsMeet R P adev' where
  profiles := by
    rw [hkept.profiles, hkept.next]
    exact h.profiles
  inputs := by
    rw [hkept.ins, hkept.next]
    exact h.inputs

theorem InputsMeet.setIn (h : InputsMeet R P adev) {inp : StreamIn}
    (hinp : P adev.nextStream i inp) :
    InputsMeet R P (adev.setIn i inp) where
  profiles := h.profiles
  inputs j x hx := by
    have hx : Function.update adev.ins i (some inp) j = some x := hx
    by_cases hj : j = i
    · subst hj
      rw [Function.update_self] at hx
      cases hx
      exact hinp
    · rw [Function.update_of_ne hj] at hx
      exact h.inputs j x hx

variable (rule : InputRule R Ok P)

include rule

theorem InputsMeet.inClose (h : InputsMeet R P adev)
    (hrun : inClosePcmDevices adev i = some adev') : InputsMeet R P adev' := by
  obtain ⟨inp, hinp, hrun⟩ := Option.bind_eq_some_iff.mp hrun
  cases hrun
  have hclose := closeAll_inputsKept inp.pcmDevList adev
  have hclosed := h.kept hclose
  rw [← hclose.ins] at hinp
  refine hclosed.setIn (rule.unopened _ i inp _ ?_ (hclosed.inputs i inp hinp))
  intro d hd
  obtain ⟨device, -, rfl⟩ := List.mem_map.mp hd
  rfl

theorem InputsMeet.stopIn (h : InputsMeet R P adev)
    (hrun : stopInputStream adev i = some adev') : InputsMeet R P adev' := by
  obtain ⟨inp, hinp, hrun⟩ := Option.bind_eq_some_iff.mp hrun
  dsimp only at hrun
  split at hrun
  · cases hrun
    exact ⟨h.profiles, h.inputs⟩
  · cases hrun
    have hmeet : InputsMeet R P (adev.setIn i { inp with pcmDevList := [] }) :=
      h.setIn (rule.unopened _ i inp [] nofun (h.inputs i inp hinp))
    exact ⟨hmeet.profiles, hmeet.inputs⟩

theorem InputsMeet.inStandby (h : InputsMeet R P adev)
    (hrun : doInStandby adev i = some adev') : InputsMeet R P adev' := by
  obtain ⟨inp, -, hrun⟩ := Option.bind_eq_some_iff.mp hrun
  split at hrun
  · cases hrun
    exact h
  · obtain ⟨closed, hclosed, hrun⟩ := Option.bind_eq_some_iff.mp hrun
    obtain ⟨stopped, hstopped, hrun⟩ := Option.bind_eq_some_iff.mp hrun
    obtain ⟨inp', hinp', hrun⟩ := Option.bind_eq_some_iff.mp hrun
    cases hrun
    have hmeet := (h.inClose rule hclosed).stopIn rule hstopped
    exact hmeet.setIn (rule.standby _ i inp' true (hmeet.inputs i inp' hinp'))

/-- A start, of an input that meets the condition. -/
theorem InputsMeet.startIn (h : InputsMeet R P adev) {asInput : AsInput} {depth : Nat}
    {answers : StartAnswers} {inp : StreamIn} {ret : Int} (hinp : adev.ins i = some inp)
    (hok : Ok inp)
    (hrun : startInputStream asInput depth answers adev i = some (ret, adev')) :
    InputsMeet R P adev' := by
  rw [startInputStream, hinp, Option.bind_eq_bind, Option.bind_some] at hrun
  cases hprofile : getPcmDevice adev.profiles inp.usecaseType inp.devices with
  | none =>
      rw [hprofile] at hrun
      cases hrun
      exact ⟨h.profiles, h.inputs⟩
  | some p =>
      rw [hprofile] at hrun
      dsimp only at hrun
      obtain ⟨mid, hmid, hrun⟩ := Option.bind_eq_some_iff.mp hrun
      have hkept := selectDevices_inputsKept hmid
      have hprofiles : mid.profiles = fastProfiles adev.profiles inp.inputFlags p :=
        hkept.profiles.trans (applyFastPeriod_profiles _ inp.inputFlags p)
      have hins : mid.ins = Function.update adev.ins i
          (some { inp with pcmDevList := [newPcmDevice p] }) := by
        rw [hkept.ins]
        unfold applyFastPeriod AudioDevice.setIn
        split <;> rfl
      have hnext : mid.nextStream = adev.nextStream := by
        rw [hkept.next]
        unfold applyFastPeriod AudioDevice.setIn
        split <;> rfl
      have hprev : R adev.nextStream adev.profiles ∧ P adev.nextStream i inp :=
        ⟨h.profiles, h.inputs i inp hinp⟩
      have hmeet : InputsMeet R P mid := by
        refine ⟨?_, ?_⟩
        · rw [hprofiles, hnext]
          exact rule.fast _ _ inp p h.profiles hok hprofile
        · rw [hins, hnext]
          refine (h.setIn (rule.unopened _ i inp _ (fun d hd => ?_) hprev.2)).inputs
          rw [List.mem_singleton.mp hd]
          rfl
      rw [hprofiles] at hrun
      rw [← hnext] at hprev
      have hstarted := fun devices resampler =>
        rule.started _ i adev.profiles inp p answers devices resampler hprev.1 hok hprev.2 hprofile
      by_cases hfails : CaptureFails answers mid p
      · rw [openCapture_fails hfails] at hrun
        obtain ⟨stopped, hstopped, hrun⟩ := Option.bind_eq_some_iff.mp hrun
        cases hrun
        have hlisted := hstarted [newPcmDevice p] false fun d hd config hconfig => by
          rw [List.mem_singleton.mp hd] at hconfig
          cases hconfig
        have hstop := (@InputsMeet.setIn _ _ _ i hmeet _ hlisted).stopIn rule hstopped
        exact ⟨hstop.profiles, hstop.inputs⟩
      · obtain ⟨device, handles, hopen, -, hconfig⟩ := openCapture_opens hfails i
        rw [hopen] at hrun
        cases hrun
        have hopened : InputsMeet R P { mid with handles := handles } :=
          ⟨hmeet.profiles, hmeet.inputs⟩
        refine hopened.setIn ?_
        refine hstarted [device] _ fun d hd config hd' => ?_
        rw [List.mem_singleton.mp hd] at hd'
        have hopened := hconfig config hd'
        rwa [hprofiles] at hopened

/-! ## Calls -/

theorem InputsMeet.reset (h : InputsMeet R P adev) {reset : Option Nat}
    (hrun : resetInput adev reset = some adev') : InputsMeet R P adev' := by
  cases reset with
  | none =>
      cases hrun
      exact h
  | some j =>
      unfold resetInput at hrun
      dsimp only at hrun
      split at hrun
      · exact h.inStandby rule hrun
      · cases hrun

theorem InputsMeet.write (h : InputsMeet R P adev) {status : ProfileId → Int}
    {reset : Option Nat} (hrun : writeStarted status adev i reset = some adev') :
    InputsMeet R P adev' := by
  obtain ⟨out, -, hrun⟩ := Option.bind_eq_some_iff.mp hrun
  obtain ⟨mid, hmid, hrun⟩ := Option.bind_eq_some_iff.mp hrun
  unfold standbyOnError at hmid
  split at hmid
  · exact (h.kept (outStandby_inputsKept hmid)).reset rule hrun
  · cases hmid
    exact h.reset rule hrun

theorem InputsMeet.outWrite (h : InputsMeet R P adev) {asInput : AsInput} {depth : Nat}
    {answers : StartAnswers} {status : ProfileId → Int}
    (hrun : Audio.outWrite asInput depth answers status adev i = some adev') :
    InputsMeet R P adev' := by
  obtain ⟨out, -, hrun⟩ := Option.bind_eq_some_iff.mp hrun
  split at hrun
  · obtain ⟨⟨ret, started⟩, hstarted, hrun⟩ := Option.bind_eq_some_iff.mp hrun
    have hmeet := h.kept (startOutputStream_inputsKept hstarted)
    dsimp only at hrun
    split at hrun
    · rw [standbyOnError, if_pos (by assumption)] at hrun
      exact hmeet.kept (outStandby_inputsKept hrun)
    · obtain ⟨out', -, hrun⟩ := Option.bind_eq_some_iff.mp hrun
      obtain ⟨reset, -, hrun⟩ := Option.bind_eq_some_iff.mp hrun
      have hleft : InputsMeet R P (started.setOut i { out' with standby := false }) :=
        ⟨hmeet.profiles, hmeet.inputs⟩
      exact hleft.write rule hrun
  · exact h.write rule hrun

theorem InputsMeet.outSetRouting (h : InputsMeet R P adev) {asInput : AsInput} {depth : Nat}
    {value : AudioDevices}
    (hrun : Audio.outSetRouting asInput depth adev i value = some adev') :
    InputsMeet R P adev' := by
  obtain ⟨out, -, hrun⟩ := Option.bind_eq_some_iff.mp hrun
  obtain ⟨reset, -, hrun⟩ := Option.bind_eq_some_iff.mp hrun
  obtain ⟨routed, hrouted, hrun⟩ := Option.bind_eq_some_iff.mp hrun
  obtain ⟨ended, hended, hrun⟩ := Option.bind_eq_some_iff.mp hrun
  have hmeet := (h.kept (applyRouting_inputsKept hrouted)).kept (endCall_inputsKept hended)
  exact hmeet.reset rule hrun

theorem InputsMeet.read (h : InputsMeet R P adev) {successful : Bool}
    (hrun : readStarted successful adev i = some adev') : InputsMeet R P adev' := by
  obtain ⟨inp, -, hrun⟩ := Option.bind_eq_some_iff.mp hrun
  split at hrun
  · cases hrun
    exact h
  · exact h.inStandby rule hrun

theorem InputsMeet.inRead (h : InputsMeet R P adev) {asInput : AsInput} {depth : Nat}
    {answers : StartAnswers} {successful : Bool}
    (hok : ∀ inp, adev.ins i = some inp → inp.standby = true → Ok inp)
    (hrun : Audio.inRead asInput depth answers successful adev i = some adev') :
    InputsMeet R P adev' := by
  obtain ⟨inp, hinp, hrun⟩ := Option.bind_eq_some_iff.mp hrun
  split at hrun
  · rename_i hstandby
    obtain ⟨⟨ret, started⟩, hstarted, hrun⟩ := Option.bind_eq_some_iff.mp hrun
    have hmeet := h.startIn rule hinp (hok inp hinp hstandby) hstarted
    dsimp only at hrun
    split at hrun
    · exact hmeet.inStandby rule hrun
    · obtain ⟨inp', hinp', hrun⟩ := Option.bind_eq_some_iff.mp hrun
      have hleft := @InputsMeet.setIn _ _ _ i hmeet _
        (rule.standby _ i inp' false (hmeet.inputs i inp' hinp'))
      exact hleft.read rule hrun
  · exact h.read rule hrun

theorem InputsMeet.inSetParameters (h : InputsMeet R P adev) {asInput : AsInput} {depth : Nat}
    {source : Option Nat} {routing : Option AudioDevices}
    (hrun : Audio.inSetParameters asInput depth adev i source routing = some adev') :
    InputsMeet R P adev' := by
  obtain ⟨inp, hinp, hrun⟩ := Option.bind_eq_some_iff.mp hrun
  have hset : ∀ source devices, InputsMeet R P
      (adev.setIn i { inp with source := source, devices := devices }) :=
    fun source devices => h.setIn (rule.parameters _ i inp source devices (h.inputs i inp hinp))
  cases routing with
  | none =>
      cases hrun
      exact hset _ inp.devices
  | some val =>
      dsimp only at hrun
      split at hrun
      · have hrouted : ∀ source,
            InputsMeet R P ((adev.setIn i { inp with source := source }).setIn i
              { inp with source := source, devices := val }) := by
          intro source
          have hval := hset source val
          simpa only [AudioDevice.setIn, Function.update_idem] using hval
        split at hrun
        · cases hrun
          exact hrouted _
        · split at hrun
          · exact (hrouted _).inStandby rule hrun
          · exact (hrouted _).kept (selectDevices_inputsKept hrun)
      · cases hrun
        exact hset _ inp.devices

theorem InputsMeet.addEffect (h : InputsMeet R P adev) {answers : Nat → EffectAnswers}
    {effect : Nat} {ret : Int}
    (hrun : inAddAudioEffect answers adev i effect = some (ret, adev')) :
    InputsMeet R P adev' := by
  obtain ⟨inp, hinp, hrun⟩ := Option.bind_eq_some_iff.mp hrun
  split at hrun
  · cases hrun
    exact h
  · obtain ⟨updated, hupdated, hrun⟩ := Option.bind_eq_some_iff.mp hrun
    obtain ⟨inp', hinp', hrun⟩ := Option.bind_eq_some_iff.mp hrun
    cases hrun
    have hpinp := h.inputs i inp hinp
    have hmeet : InputsMeet R P updated := by
      obtain ⟨added, hadded, hupdated⟩ := Option.bind_eq_some_iff.mp hupdated
      have hadded : Function.update adev.ins i
          (some { inp with preprocessors := inp.preprocessors ++ [effect] }) i = some added :=
        hadded
      rw [Function.update_self] at hadded
      cases hadded
      dsimp only at hupdated
      split at hupdated
      · refine InputsMeet.inStandby rule ?_ hupdated
        have hset := @InputsMeet.setIn _ _ _ i h _ (rule.effects _ i inp
          (inp.preprocessors ++ [effect]) _ true
          (.inr (updatedAuxChannels_eq answers
            { inp with preprocessors := inp.preprocessors ++ [effect] })) hpinp)
        simpa only [AudioDevice.setIn, Function.update_idem] using hset
      · cases hupdated
        exact h.setIn (rule.effects _ i inp (inp.preprocessors ++ [effect]) inp.auxChannels
          inp.auxChannelsChanged (.inl rfl) hpinp)
    exact hmeet.setIn (rule.effects _ i inp' inp'.preprocessors inp'.auxChannels true (.inl rfl)
      (hmeet.inputs i inp' hinp'))

theorem InputsMeet.removeEffect (h : InputsMeet R P adev) {effect : Nat} {ret : Int}
    (hrun : inRemoveAudioEffect adev i effect = some (ret, adev')) :
    InputsMeet R P adev' := by
  obtain ⟨inp, hinp, hrun⟩ := Option.bind_eq_some_iff.mp hrun
  split at hrun
  · cases hrun
    exact h
  · split at hrun
    · cases hrun
      exact h.setIn (rule.effects _ i inp _ inp.auxChannels false (.inl rfl) (h.inputs i inp hinp))
    · cases hrun
      exact h

/-- Every call keeps the property, if an input that it starts meets the condition. -/
theorem InputsMeet.run (h : InputsMeet R P adev) {asInput : AsInput} {depth : Nat} {call : Call}
    (hok : ∀ id answers successful, call = .inRead id answers successful →
      ∀ inp, adev.ins id = some inp → inp.standby = true → Ok inp)
    (hrun : call.run asInput depth adev = some adev') : InputsMeet R P adev' := by
  cases call with
  | openOutputStream devices flags =>
      cases hrun
      have hprofiles := rule.growProfiles _ _ h.profiles
      have hinputs := fun i inp hinp => rule.growInput _ i inp (h.inputs i inp hinp)
      unfold adevOpenOutputStream
      dsimp only
      split
      · exact h
      · split
        · exact h
        · split <;> exact ⟨hprofiles, hinputs⟩
  | closeOutputStream id =>
      obtain ⟨mid, hmid, hrun⟩ := Option.bind_eq_some_iff.mp hrun
      cases hrun
      have hmeet := h.kept (outStandby_inputsKept hmid)
      exact ⟨hmeet.profiles, hmeet.inputs⟩
  | openInputStream request =>
      cases hrun
      unfold adevOpenInputStream
      dsimp only
      split
      · exact h
      · rename_i hcheck
        split
        · exact h
        · rename_i p _
          have hnew := rule.created _ adev.profiles request p h.profiles (not_not.mp hcheck)
          have hnext : InputsMeet R P { adev with nextStream := adev.nextStream + 1 } :=
            ⟨rule.growProfiles _ _ h.profiles,
              fun i inp hinp => rule.growInput _ i inp (h.inputs i inp hinp)⟩
          exact hnext.setIn hnew
  | closeInputStream id =>
      obtain ⟨mid, hmid, hrun⟩ := Option.bind_eq_some_iff.mp hrun
      cases hrun
      have hmeet := h.inStandby rule hmid
      refine ⟨hmeet.profiles, fun j inp hinp => ?_⟩
      have hinp : Function.update mid.ins id none j = some inp := hinp
      by_cases hj : j = id
      · subst hj
        rw [Function.update_self] at hinp
        cases hinp
      · rw [Function.update_of_ne hj] at hinp
        exact hmeet.inputs j inp hinp
  | outWrite id answers status => exact h.outWrite rule hrun
  | outStandby id => exact h.kept (outStandby_inputsKept hrun)
  | outSetRouting id value => exact h.outSetRouting rule hrun
  | inRead id answers successful => exact h.inRead rule (hok id answers successful rfl) hrun
  | inStandby id => exact h.inStandby rule hrun
  | inSetParameters id source routing => exact h.inSetParameters rule hrun
  | inAddAudioEffect id effect answers =>
      obtain ⟨⟨ret, added⟩, hadded, rfl⟩ := Option.map_eq_some_iff.mp hrun
      exact h.addEffect rule hadded
  | inRemoveAudioEffect id effect =>
      obtain ⟨⟨ret, removed⟩, hremoved, rfl⟩ := Option.map_eq_some_iff.mp hrun
      exact h.removeEffect rule hremoved
  | setMode mode =>
      cases hrun
      exact ⟨h.profiles, h.inputs⟩
  | setTty tty => exact h.kept (adevSetTty_inputsKept hrun)
  | setMicMute state =>
      cases hrun
      exact ⟨h.profiles, h.inputs⟩

end Steps

/-- The inputs that a call starts meet a condition. -/
def StartsMeet (Ok : StreamIn → Prop) (adev : AudioDevice) : Call → Prop
  | .inRead id _ _ => ∀ inp, adev.ins id = some inp → inp.standby = true → Ok inp
  | _ => True

theorem run_meet {R : Nat → (ProfileId → PcmDeviceProfile) → Prop} {Ok : StreamIn → Prop}
    {P : Nat → Nat → StreamIn → Prop} (rule : InputRule R Ok P) {asInput : AsInput} {depth : Nat}
    {adev adev' : AudioDevice} {call : Call} (h : InputsMeet R P adev)
    (hok : StartsMeet Ok adev call) (hrun : call.run asInput depth adev = some adev') :
    InputsMeet R P adev' := by
  refine h.run rule (fun id answers successful hcall => ?_) hrun
  rw [hcall] at hok
  exact hok

/-- The property in every run from the opening of the HAL on. -/
theorem reachable_meet {R : Nat → (ProfileId → PcmDeviceProfile) → Prop} {Ok : StreamIn → Prop}
    {P : Nat → Nat → StreamIn → Prop} (rule : InputRule R Ok P) (hloaded : R 0 loadedProfiles)
    {asInput : AsInput} {depth : Nat} {adev : AudioDevice}
    (h : (audioSystem asInput depth).Reachable (StartsMeet Ok) adev) : InputsMeet R P adev := by
  refine h.invariant ?_ fun _ _ _ hI hok hnext => run_meet rule hI hok hnext
  rintro _ ⟨soundTrigger, rfl⟩
  exact ⟨hloaded, nofun⟩

/-- The property in every run from a state on that has it. -/
theorem resumed_meet {R : Nat → (ProfileId → PcmDeviceProfile) → Prop} {Ok : StreamIn → Prop}
    {P : Nat → Nat → StreamIn → Prop} (rule : InputRule R Ok P) {asInput : AsInput} {depth : Nat}
    {adev adev' : AudioDevice} (h : InputsMeet R P adev)
    (hrun : ((audioSystem asInput depth).resumed adev).Reachable (StartsMeet Ok) adev') :
    InputsMeet R P adev' := by
  refine hrun.invariant ?_ fun _ _ _ hI hok hnext => run_meet rule hI hok hnext
  rintro _ rfl
  exact h

end DragonDevice.Audio
