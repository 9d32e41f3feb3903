/-
  Audio/BookkeepingContract.lean --- when the audio HAL keeps its books over every run.

  The check for a use case that is already there is made when a stream is opened, but the
  use case joins the list only when it starts; a failed resampler leaves an input half
  started; the primary output stays recorded when its stream is freed; and the voice call
  takes the list of PCM devices away from the primary output.  In runs without these the
  contract holds.
-/
import DragonDevice.Lib.Transition
import DragonDevice.Audio.StartKept

set_option autoImplicit false

namespace DragonDevice.Audio

open DragonDevice.Lib

/-- What a call must avoid: to open a primary output that some profile fits while its use case is
listed and no primary output is recorded, to close the primary output, to start a stream while a
use case with its id is listed, to start an input whose resampler fails, and to start or stop the
voice call while the primary output goes on playing. -/
def Careful (adev : AudioDevice) : Call → Prop
  | .openOutputStream devices flags =>
      anyOf flags outputFlagPrimary = true → adev.primaryOutput = none →
        getPcmDevice adev.profiles .pcmPlayback (openedOutDevices devices) ≠ none →
          adev.getUsecaseFromId (newOutput devices flags playbackConfig).usecase = none
  | .closeOutputStream id => adev.primaryOutput ≠ some id
  | .outWrite id _ _ =>
      ∀ out, adev.outs id = some out → out.standby = true →
        adev.getUsecaseFromId out.usecase = none
  | .inRead id answers _ =>
      ∀ inp, adev.ins id = some inp → inp.standby = true → StartsWell answers adev inp
  | .outSetRouting id value =>
      adev.primaryOutput = some id →
        (adev.mode = modeInCall ∧ adev.inCall = false ∧ value ≠ 0 ∨
          adev.mode = modeNormal ∧ adev.inCall = true) →
        ∀ out, adev.outs id = some out →
          out.standby = true ∨ value ≠ 0 ∧ out.devices ≠ value
  | _ => True

/-! ## Opening and closing -/

section Streams

variable {outs : Nat → Option StreamOut} {ins : Nat → Option StreamIn} {primary : Option Nat}
  {nextStream : Nat}

theorem StreamsOpen.addOut (h : StreamsOpen outs ins primary nextStream) {out : StreamOut}
    (hkind : (out.usecase = .audioPlayback ∨ out.usecase = .audioPlaybackDeepBuffer) ∧
      out.sampleRate = playbackRate)
    {primary' : Option Nat} (hprimary : primary' = primary ∨ primary' = some nextStream) :
    StreamsOpen (Function.update outs nextStream (some out)) ins primary' (nextStream + 1) where
  primary := by
    intro j hj
    by_cases hjn : j = nextStream
    · subst hjn
      simp
    · rw [Function.update_of_ne hjn]
      rcases hprimary with rfl | rfl
      · exact h.primary j hj
      · exact absurd (Option.some.inj hj).symm hjn
  outKinds := by
    intro j o ho
    by_cases hjn : j = nextStream
    · subst hjn
      rw [Function.update_self, Option.some.injEq] at ho
      rw [← ho]
      exact hkind
    · rw [Function.update_of_ne hjn] at ho
      exact h.outKinds j o ho
  inKinds := h.inKinds
  fresh := by
    intro j hj
    rw [Function.update_of_ne (by omega)]
    exact h.fresh j (by omega)

theorem StreamsOpen.addIn (h : StreamsOpen outs ins primary nextStream) {inp : StreamIn}
    (hkind : inp.usecase = .audioCapture ∨ inp.usecase = .audioCaptureHotword) :
    StreamsOpen outs (Function.update ins nextStream (some inp)) primary (nextStream + 1) where
  primary := h.primary
  outKinds := h.outKinds
  inKinds := by
    intro j o ho
    by_cases hjn : j = nextStream
    · subst hjn
      rw [Function.update_self, Option.some.injEq] at ho
      rw [← ho]
      exact hkind
    · rw [Function.update_of_ne hjn] at ho
      exact h.inKinds j o ho
  fresh := by
    intro j hj
    rw [Function.update_of_ne (by omega)]
    exact h.fresh j (by omega)

theorem StreamsOpen.eraseOut (h : StreamsOpen outs ins primary nextStream) {i : Nat}
    (hprimary : primary ≠ some i) :
    StreamsOpen (Function.update outs i none) ins primary nextStream where
  primary := by
    intro j hj
    have hji : j ≠ i := by
      rintro rfl
      exact hprimary hj
    rw [Function.update_of_ne hji]
    exact h.primary j hj
  outKinds := by
    intro j o ho
    by_cases hji : j = i
    · subst hji
      rw [Function.update_self] at ho
      cases ho
    · rw [Function.update_of_ne hji] at ho
      exact h.outKinds j o ho
  inKinds := h.inKinds
  fresh := by
    intro j hj
    by_cases hji : j = i
    · subst hji
      exact ⟨Function.update_self _ _ _, (h.fresh j hj).2⟩
    · rw [Function.update_of_ne hji]
      exact h.fresh j hj

theorem StreamsOpen.eraseIn (h : StreamsOpen outs ins primary nextStream) (i : Nat) :
    StreamsOpen outs (Function.update ins i none) primary nextStream where
  primary := h.primary
  outKinds := h.outKinds
  inKinds := by
    intro j o ho
    by_cases hji : j = i
    · subst hji
      rw [Function.update_self] at ho
      cases ho
    · rw [Function.update_of_ne hji] at ho
      exact h.inKinds j o ho
  fresh := by
    intro j hj
    by_cases hji : j = i
    · subst hji
      exact ⟨(h.fresh j hj).1, Function.update_self _ _ _⟩
    · rw [Function.update_of_ne hji]
      exact h.fresh j hj

end Streams

/-- The view of an output in standby is that of none. -/
theorem playing_idle {outs : Nat → Option StreamOut} {i : Nat} {o : Option StreamOut}
    (hold : (outs i).bind StreamOut.plays = none) (hnew : o.bind StreamOut.plays = none) :
    playing (Function.update outs i o) = playing outs := by
  rw [playing_update, hnew, Function.update_eq_self_iff]
  exact hold.symm

theorem capturing_idle {ins : Nat → Option StreamIn} {i : Nat} {o : Option StreamIn}
    (hold : (ins i).bind StreamIn.captures = none) (hnew : o.bind StreamIn.captures = none) :
    capturing (Function.update ins i o) = capturing ins := by
  rw [capturing_update, hnew, Function.update_eq_self_iff]
  exact hold.symm

/-- A new output in standby; it may be the primary one, if there is none. -/
theorem Kept.addOut {adev : AudioDevice} (h : Kept adev) {out : StreamOut}
    (hstandby : out.standby = true)
    (hkind : (out.usecase = .audioPlayback ∨ out.usecase = .audioPlaybackDeepBuffer) ∧
      out.sampleRate = playbackRate)
    {primary : Option Nat}
    (hprimary : primary = adev.primaryOutput ∨
      adev.primaryOutput = none ∧ primary = some adev.nextStream) :
    Kept
      { adev with
        nextStream := adev.nextStream + 1
        primaryOutput := primary
        outs := Function.update adev.outs adev.nextStream (some out) } := by
  have hfree := (h.streams.fresh adev.nextStream (Nat.le_refl _)).1
  have hplaying : playing (Function.update adev.outs adev.nextStream (some out)) =
      playing adev.outs :=
    playing_idle (by simp [hfree]) (by simp [StreamOut.plays, hstandby])
  have hopen : openPcms (Function.update adev.outs adev.nextStream (some out)) adev.ins =
      openPcms adev.outs adev.ins := by
    rw [openPcms_update_out, Function.update_eq_self_iff]
    simp [openPcms, hfree, StreamOut.openPcms, hstandby]
  have hcall : (if adev.inCall then primary else none) = adev.call := by
    rcases hprimary with rfl | ⟨hnone, -⟩
    · rfl
    · have hoff : adev.inCall = false := by
        refine Bool.eq_false_iff.mpr fun hon => ?_
        have hsome := h.callOn hon
        rw [hnone] at hsome
        cases hsome
      simp [AudioDevice.call, hoff]
  refine ⟨h.ledger, fun key => ?_, fun x hx hr => ?_, h.active, fun hon => ?_, ?_, h.profiles⟩
  · rw [h.listed, hplaying, ← hcall]
    rfl
  · rw [hopen]
    exact h.handles x hx hr
  · rcases hprimary with rfl | ⟨-, rfl⟩
    · exact h.callOn hon
    · rfl
  · refine h.streams.addOut hkind ?_
    rcases hprimary with hsame | ⟨-, hnew⟩
    · exact .inl hsame
    · exact .inr hnew

/-- A new input in standby. -/
theorem Kept.addIn {adev : AudioDevice} (h : Kept adev) {inp : StreamIn}
    (hstandby : inp.standby = true)
    (hkind : inp.usecase = .audioCapture ∨ inp.usecase = .audioCaptureHotword) :
    Kept
      { adev with
        nextStream := adev.nextStream + 1
        ins := Function.update adev.ins adev.nextStream (some inp) } := by
  have hfree := (h.streams.fresh adev.nextStream (Nat.le_refl _)).2
  have hcapturing : capturing (Function.update adev.ins adev.nextStream (some inp)) =
      capturing adev.ins :=
    capturing_idle (by simp [hfree]) (by simp [StreamIn.captures, hstandby])
  have hopen : openPcms adev.outs (Function.update adev.ins adev.nextStream (some inp)) =
      openPcms adev.outs adev.ins := by
    rw [openPcms_update_in, Function.update_eq_self_iff]
    simp [openPcms, hfree, StreamIn.openPcms, hstandby]
  refine ⟨h.ledger, fun key => ?_, fun x hx hr => ?_, fun j hj => ?_, h.callOn,
    h.streams.addIn hkind, h.profiles⟩
  · rw [h.listed, hcapturing]
    rfl
  · rw [hopen]
    exact h.handles x hx hr
  · rw [hcapturing]
    exact h.active j hj

/-- An output in standby goes, if it is not the primary one. -/
theorem Kept.closeOut {adev : AudioDevice} (h : Kept adev) {i : Nat} {out : StreamOut}
    (hout : adev.outs i = some out) (hstandby : out.standby = true)
    (hprimary : adev.primaryOutput ≠ some i) :
    Kept { adev with outs := Function.update adev.outs i none } := by
  have hplaying : playing (Function.update adev.outs i none) = playing adev.outs :=
    playing_idle (by simp [hout, StreamOut.plays, hstandby]) rfl
  have hopen : openPcms (Function.update adev.outs i none) adev.ins =
      openPcms adev.outs adev.ins := by
    rw [openPcms_update_out, Function.update_eq_self_iff]
    simp [openPcms, hout, StreamOut.openPcms, hstandby]
  refine ⟨h.ledger, fun key => ?_, fun x hx hr => ?_, h.active, h.callOn,
    h.streams.eraseOut hprimary, h.profiles⟩
  · rw [h.listed, hplaying]
    rfl
  · rw [hopen]
    exact h.handles x hx hr

/-- An input in standby goes. -/
theorem Kept.closeIn {adev : AudioDevice} (h : Kept adev) {i : Nat} {inp : StreamIn}
    (hinp : adev.ins i = some inp) (hstandby : inp.standby = true) :
    Kept { adev with ins := Function.update adev.ins i none } := by
  have hcapturing : capturing (Function.update adev.ins i none) = capturing adev.ins :=
    capturing_idle (by simp [hinp, StreamIn.captures, hstandby]) rfl
  have hopen : openPcms adev.outs (Function.update adev.ins i none) =
      openPcms adev.outs adev.ins := by
    rw [openPcms_update_in, Function.update_eq_self_iff]
    simp [openPcms, hinp, StreamIn.openPcms, hstandby]
  refine ⟨h.ledger, fun key => ?_, fun x hx hr => ?_, fun j hj => ?_, h.callOn,
    h.streams.eraseIn i, h.profiles⟩
  · rw [h.listed, hcapturing]
    rfl
  · rw [hopen]
    exact h.handles x hx hr
  · rw [hcapturing]
    exact h.active j hj

/-! ## Calls -/

theorem Kept.adevOpenOutputStream {adev : AudioDevice} (h : Kept adev)
    {devices : AudioDevices} {flags : BitVec 32}
    (hok : Careful adev (.openOutputStream devices flags)) :
    Kept (adevOpenOutputStream adev devices flags).2 := by
  unfold Audio.adevOpenOutputStream
  dsimp only
  split
  · exact h
  · rename_i p hprofile
    have hkind : ((newOutput (openedOutDevices devices) flags (adev.profiles p).config).usecase =
          .audioPlayback ∨
        (newOutput (openedOutDevices devices) flags (adev.profiles p).config).usecase =
          .audioPlaybackDeepBuffer) ∧
        (newOutput (openedOutDevices devices) flags (adev.profiles p).config).sampleRate =
          playbackRate := by
      have hrate := h.profiles.rate_eq (getPcmDevice_type hprofile)
      unfold newOutput
      dsimp only
      split
      · exact ⟨.inr rfl, rfl⟩
      · exact ⟨.inl rfl, hrate⟩
    split
    · exact h
    · rename_i hfirst
      split
      · -- the use case is listed, so the output cannot become the primary one
        rename_i uc hlisted
        have hnot : ¬ anyOf flags outputFlagPrimary = true := by
          intro hflag
          have hnone : adev.primaryOutput = none := by
            by_contra hsome
            exact hfirst ⟨hflag, hsome⟩
          have hfree := hok hflag hnone (by rw [hprofile]; exact Option.some_ne_none p)
          have hlisted' : adev.getUsecaseFromId (newOutput devices flags playbackConfig).usecase =
            some uc := hlisted
          rw [hfree] at hlisted'
          cases hlisted'
        rw [if_neg hnot]
        have hfresh := h.streams.fresh
        exact ⟨h.ledger, h.listed, h.handles, h.active, h.callOn,
          ⟨h.streams.primary, h.streams.outKinds, h.streams.inKinds,
            fun j hj => hfresh j (Nat.le_of_succ_le hj)⟩, h.profiles⟩
      · refine h.addOut rfl hkind ?_
        split
        · rename_i hflag
          refine .inr ⟨?_, rfl⟩
          by_contra hsome
          exact hfirst ⟨hflag, hsome⟩
        · exact .inl rfl

theorem Kept.outStandby {adev adev' : AudioDevice} (h : Kept adev) {i : Nat}
    (hrun : outStandby adev i = some adev') :
    Kept adev' ∧ adev'.primaryOutput = adev.primaryOutput ∧
      ∃ out, adev'.outs i = some out ∧ out.standby = true := by
  obtain ⟨out, hout, hrun⟩ := Option.bind_eq_some_iff.mp hrun
  cases hstandby : out.standby with
  | true =>
      rw [if_pos hstandby] at hrun
      cases hrun
      exact ⟨h, rfl, out, hout, hstandby⟩
  | false =>
      rw [if_neg (by simp [hstandby])] at hrun
      obtain ⟨hkept, houts, -, -, hprimary⟩ := h.doOutStandby hout hstandby hrun
      refine ⟨hkept, hprimary, { out with standby := true, pcmDevList := [] }, ?_, rfl⟩
      rw [houts]
      exact Function.update_self _ _ _

theorem Kept.adevCloseOutputStream {adev adev' : AudioDevice} (h : Kept adev) {i : Nat}
    (hprimary : adev.primaryOutput ≠ some i)
    (hrun : adevCloseOutputStream adev i = some adev') : Kept adev' := by
  obtain ⟨mid, hmid, hrun⟩ := Option.bind_eq_some_iff.mp hrun
  cases hrun
  obtain ⟨hkept, hsame, out, hout, hstandby⟩ := h.outStandby hmid
  exact hkept.closeOut hout hstandby (by rwa [hsame])

theorem Kept.adevOpenInputStream {adev : AudioDevice} (h : Kept adev) (request : InputRequest) :
    Kept (adevOpenInputStream adev request).2 := by
  unfold Audio.adevOpenInputStream
  dsimp only
  split
  · exact h
  · split
    · exact h
    · refine h.addIn rfl ?_
      unfold newInput
      dsimp only
      split
      · exact .inr rfl
      · exact .inl rfl

/-- After `do_in_standby_l` the input is in standby. -/
theorem doInStandby_standby {adev adev' : AudioDevice} {i : Nat}
    (hrun : doInStandby adev i = some adev') :
    ∃ inp, adev'.ins i = some inp ∧ inp.standby = true := by
  obtain ⟨inp, hinp, hrun⟩ := Option.bind_eq_some_iff.mp hrun
  split at hrun
  · rename_i hstandby
    cases hrun
    exact ⟨inp, hinp, hstandby⟩
  · obtain ⟨closed, -, hrun⟩ := Option.bind_eq_some_iff.mp hrun
    obtain ⟨stopped, -, hrun⟩ := Option.bind_eq_some_iff.mp hrun
    obtain ⟨inp', -, hrun⟩ := Option.bind_eq_some_iff.mp hrun
    cases hrun
    exact ⟨_, Function.update_self _ _ _, rfl⟩

theorem Kept.adevCloseInputStream {adev adev' : AudioDevice} (h : Kept adev) {i : Nat}
    (hrun : adevCloseInputStream adev i = some adev') : Kept adev' := by
  obtain ⟨mid, hmid, hrun⟩ := Option.bind_eq_some_iff.mp hrun
  cases hrun
  obtain ⟨inp, hinp, hstandby⟩ := doInStandby_standby hmid
  exact (h.doInStandby hmid).closeIn hinp hstandby

theorem Kept.resetInput {adev adev' : AudioDevice} (h : Kept adev) {reset : Option Nat}
    (hrun : resetInput adev reset = some adev') : Kept adev' := by
  cases reset with
  | none =>
      cases hrun
      exact h
  | some i =>
      have hrun : (if adev.activeInput = some i then Audio.doInStandby adev i else none) =
        some adev' := hrun
      split at hrun
      · exact h.doInStandby hrun
      · cases hrun

theorem Kept.standbyOnError {adev adev' : AudioDevice} (h : Kept adev) {i : Nat} {ret : Int}
    (hrun : standbyOnError adev i ret = some adev') : Kept adev' := by
  unfold Audio.standbyOnError at hrun
  split at hrun
  · exact (h.outStandby hrun).1
  · cases hrun
    exact h

theorem Kept.writeStarted {status : ProfileId → Int} {adev adev' : AudioDevice} (h : Kept adev)
    {i : Nat} {reset : Option Nat} (hrun : writeStarted status adev i reset = some adev') :
    Kept adev' := by
  obtain ⟨out, -, hrun⟩ := Option.bind_eq_some_iff.mp hrun
  obtain ⟨mid, hmid, hrun⟩ := Option.bind_eq_some_iff.mp hrun
  exact (h.standbyOnError hmid).resetInput hrun

theorem Kept.outWrite {asInput : AsInput} {depth : Nat} {answers : StartAnswers}
    {status : ProfileId → Int} {adev adev' : AudioDevice} (h : Kept adev) {i : Nat}
    (hok : Careful adev (.outWrite i answers status))
    (hrun : outWrite asInput depth answers status adev i = some adev') : Kept adev' := by
  obtain ⟨out, hout, hrun⟩ := Option.bind_eq_some_iff.mp hrun
  cases hstandby : out.standby with
  | false =>
      rw [if_neg (by simp [hstandby])] at hrun
      exact h.writeStarted hrun
  | true =>
      rw [if_pos hstandby] at hrun
      obtain ⟨⟨ret, started⟩, hstart, hrun⟩ := Option.bind_eq_some_iff.mp hrun
      obtain ⟨out', hout', hstandby', hkept⟩ :=
        h.startOutputStream hout hstandby (hok out hout hstandby) hstart
      dsimp only at hrun
      by_cases hret : ret = 0
      · rw [if_neg (not_not_intro hret), hout', Option.bind_eq_bind, Option.bind_some] at hrun
        rw [if_pos hret] at hkept
        obtain ⟨reset, -, hrun⟩ := Option.bind_eq_some_iff.mp hrun
        exact hkept.writeStarted hrun
      · rw [if_pos hret] at hrun
        rw [if_neg hret] at hkept
        exact hkept.standbyOnError hrun

/-- The routing of an output.  With other devices it ends up in standby. -/
theorem Kept.rerouteOutput {asInput : AsInput} {depth : Nat} {adev adev' : AudioDevice}
    (h : Kept adev) {i : Nat} {out : StreamOut} (hout : adev.outs i = some out)
    {value : AudioDevices} (hrun : rerouteOutput asInput depth adev i value = some adev') :
    Kept adev' ∧
      (adev'.mode = adev.mode ∧ adev'.inCall = adev.inCall ∧
        adev'.primaryOutput = adev.primaryOutput) ∧
      (out.standby = true ∨ out.devices ≠ value →
        ∃ out', adev'.outs i = some out' ∧ out'.standby = true) := by
  have htouch := @Kept.touchOut adev h i out { out with devices := value } hout rfl rfl rfl rfl
  have hself : (adev.setOut i { out with devices := value }).outs i =
      some { out with devices := value } := Function.update_self _ _ _
  rw [Audio.rerouteOutput, hout, Option.bind_eq_bind, Option.bind_some] at hrun
  dsimp only at hrun
  split at hrun
  · rename_i hstandby
    cases hrun
    exact ⟨htouch, ⟨rfl, rfl, rfl⟩, fun _ => ⟨_, hself, hstandby⟩⟩
  · rename_i hstandby
    have hstandby : out.standby = false := Bool.eq_false_iff.mpr hstandby
    split at hrun
    · obtain ⟨hkept, houts, hframe⟩ := htouch.doOutStandby hself hstandby hrun
      refine ⟨hkept, hframe, fun _ =>
        ⟨{ out with devices := value, standby := true, pcmDevList := [] }, ?_, rfl⟩⟩
      rw [houts]
      exact Function.update_self _ _ _
    · rename_i hsame
      have hres := selectDevices_reselected hrun
      refine ⟨htouch.reselected hres, ?_, fun hor => ?_⟩
      · rw [hres.frame]
        exact ⟨rfl, rfl, rfl⟩
      · rcases hor with hor | hor
        · rw [hstandby] at hor
          cases hor
        · exact absurd hor hsame

/-- The routing of the voice call, when it starts on an output in standby. -/
theorem Kept.routeCall {asInput : AsInput} {depth : Nat} {adev adev' : AudioDevice}
    (h : Kept adev) {i : Nat}
    (hidle : adev.primaryOutput = some i → adev.mode = modeInCall → adev.inCall = false →
      ∃ out, adev.outs i = some out ∧ out.standby = true)
    (hrun : routeCall asInput depth adev i = some adev') :
    Kept adev' ∧ adev'.mode = adev.mode := by
  unfold Audio.routeCall at hrun
  split at hrun
  · rename_i hroutes
    split at hrun
    · have hres := selectDevices_reselected hrun
      refine ⟨h.reselected hres, ?_⟩
      rw [hres.frame]
    · rename_i hcall
      have hcall : adev.inCall = false := Bool.eq_false_iff.mpr hcall
      obtain ⟨out, hout, hstandby⟩ := hidle hroutes.2 hroutes.1 hcall
      exact h.startVoiceCall hroutes.2 hout hstandby hcall hrun
  · cases hrun
    exact ⟨h, rfl⟩

/-- The end of the voice call on an output in standby. -/
theorem Kept.endCall {adev adev' : AudioDevice} (h : Kept adev) {i : Nat}
    (hidle : adev.primaryOutput = some i → adev.mode = modeNormal → adev.inCall = true →
      ∃ out, adev.outs i = some out ∧ out.standby = true)
    (hrun : endCall adev i = some adev') : Kept adev' := by
  unfold Audio.endCall at hrun
  split at hrun
  · rename_i hends
    obtain ⟨out, hout, hstandby⟩ := hidle hends.2.2 hends.1 hends.2.1
    exact h.stopVoiceCall hends.2.2 hout hstandby hends.2.1 hrun
  · cases hrun
    exact h

theorem Kept.outSetRouting {asInput : AsInput} {depth : Nat} {adev adev' : AudioDevice}
    (h : Kept adev) {i : Nat} {value : AudioDevices}
    (hok : Careful adev (.outSetRouting i value))
    (hrun : outSetRouting asInput depth adev i value = some adev') : Kept adev' := by
  obtain ⟨out, hout, hrun⟩ := Option.bind_eq_some_iff.mp hrun
  obtain ⟨reset, -, hrun⟩ := Option.bind_eq_some_iff.mp hrun
  obtain ⟨routed, hrouted, hrun⟩ := Option.bind_eq_some_iff.mp hrun
  obtain ⟨ended, hended, hrun⟩ := Option.bind_eq_some_iff.mp hrun
  refine Kept.resetInput ?_ hrun
  unfold applyRouting at hrouted
  split at hrouted
  · rename_i hvalue
    obtain ⟨rerouted, hrerouted, hrouted⟩ := Option.bind_eq_some_iff.mp hrouted
    obtain ⟨hkept, ⟨hmode, hcall, hprimary⟩, hidle⟩ := h.rerouteOutput hout hrerouted
    have hstarted : Kept routed ∧ routed.mode = rerouted.mode := by
      refine hkept.routeCall (fun hp hm hc => ?_) hrouted
      rw [hprimary] at hp
      rw [hmode] at hm
      rw [hcall] at hc
      refine hidle ((hok hp (.inl ⟨hm, hc, hvalue⟩) out hout).imp_right And.right)
    refine hstarted.1.endCall (fun hp hm hc => ?_) hended
    rw [hstarted.2] at hm
    -- the mode is not that of a call, so nothing was started
    have hsame : routed = rerouted := by
      unfold Audio.routeCall at hrouted
      rw [if_neg (by simp [hm, modeNormal, modeInCall])] at hrouted
      exact (Option.some.inj hrouted).symm
    rw [hmode] at hm
    rw [hsame] at hp hc ⊢
    rw [hprimary] at hp
    rw [hcall] at hc
    exact hidle ((hok hp (.inr ⟨hm, hc⟩) out hout).imp_right And.right)
  · rename_i hvalue
    cases hrouted
    refine h.endCall (fun hp hm hc => ?_) hended
    rcases hok hp (.inr ⟨hm, hc⟩) out hout with hstandby | hchanged
    · exact ⟨out, hout, hstandby⟩
    · exact absurd hchanged.1 hvalue

theorem Kept.readStarted {successful : Bool} {adev adev' : AudioDevice} (h : Kept adev)
    {i : Nat} (hrun : readStarted successful adev i = some adev') : Kept adev' := by
  obtain ⟨inp, -, hrun⟩ := Option.bind_eq_some_iff.mp hrun
  split at hrun
  · cases hrun
    exact h
  · exact h.doInStandby hrun

theorem Kept.inRead {asInput : AsInput} {depth : Nat} {answers : StartAnswers}
    {successful : Bool} {adev adev' : AudioDevice} (h : Kept adev) {i : Nat}
    (hok : Careful adev (.inRead i answers successful))
    (hrun : inRead asInput depth answers successful adev i = some adev') : Kept adev' := by
  obtain ⟨inp, hinp, hrun⟩ := Option.bind_eq_some_iff.mp hrun
  cases hstandby : inp.standby with
  | false =>
      rw [if_neg (by simp [hstandby])] at hrun
      exact h.readStarted hrun
  | true =>
      rw [if_pos hstandby] at hrun
      obtain ⟨⟨ret, started⟩, hstart, hrun⟩ := Option.bind_eq_some_iff.mp hrun
      obtain ⟨inp', hinp', hstandby', hkept⟩ :=
        h.startInputStream hinp hstandby (hok inp hinp hstandby) hstart
      dsimp only at hrun
      by_cases hret : ret = 0
      · rw [if_neg (not_not_intro hret), hinp', Option.bind_eq_bind, Option.bind_some] at hrun
        rw [if_pos hret] at hkept
        exact hkept.readStarted hrun
      · rw [if_pos hret] at hrun
        rw [if_neg hret] at hkept
        exact hkept.doInStandby hrun

theorem Kept.inSetParameters {asInput : AsInput} {depth : Nat} {adev adev' : AudioDevice}
    (h : Kept adev) {i : Nat} {source : Option Nat} {routing : Option AudioDevices}
    (hrun : inSetParameters asInput depth adev i source routing = some adev') : Kept adev' := by
  obtain ⟨inp, hinp, hrun⟩ := Option.bind_eq_some_iff.mp hrun
  dsimp only at hrun
  generalize hsource : (source.filter fun val => val ≠ 0).getD inp.source = val at hrun
  have hset := @Kept.touchIn adev h i inp { inp with source := val } hinp rfl rfl rfl
  cases routing with
  | none =>
    cases hrun
    exact hset
  | some devices =>
    dsimp only at hrun
    split at hrun
    · have hroute := @Kept.touchIn _ hset i { inp with source := val }
        { inp with source := val, devices := devices } (Function.update_self _ _ _) rfl rfl rfl
      split at hrun
      · cases hrun
        exact hroute
      · split at hrun
        · exact hroute.doInStandby hrun
        · exact hroute.reselected (selectDevices_reselected hrun)
    · cases hrun
      exact hset

theorem Kept.inAddAudioEffect {answers : Nat → EffectAnswers} {adev adev' : AudioDevice}
    (h : Kept adev) {i effect : Nat} {status : Int}
    (hrun : inAddAudioEffect answers adev i effect = some (status, adev')) : Kept adev' := by
  obtain ⟨inp, hinp, hrun⟩ := Option.bind_eq_some_iff.mp hrun
  split at hrun
  · cases hrun
    exact h
  · obtain ⟨mid, hmid, hrun⟩ := Option.bind_eq_some_iff.mp hrun
    obtain ⟨inp', hinp', hrun⟩ := Option.bind_eq_some_iff.mp hrun
    cases hrun
    have hadded := @Kept.touchIn adev h i inp
      { inp with preprocessors := inp.preprocessors ++ [effect] } hinp rfl rfl rfl
    suffices hkept : Kept mid from hkept.touchIn hinp' rfl rfl rfl
    obtain ⟨added, hget, hmid⟩ := Option.bind_eq_some_iff.mp hmid
    dsimp only at hmid
    split at hmid
    · refine Kept.doInStandby ?_ hmid
      exact hadded.touchIn hget rfl rfl rfl
    · cases hmid
      exact hadded

theorem Kept.inRemoveAudioEffect {adev adev' : AudioDevice} (h : Kept adev) {i effect : Nat}
    {status : Int} (hrun : inRemoveAudioEffect adev i effect = some (status, adev')) :
    Kept adev' := by
  obtain ⟨inp, hinp, hrun⟩ := Option.bind_eq_some_iff.mp hrun
  split at hrun
  · cases hrun
    exact h
  · split at hrun
    · cases hrun
      exact h.touchIn hinp rfl rfl rfl
    · cases hrun
      exact h

theorem Kept.adevSetTty {asInput : AsInput} {depth : Nat} {adev adev' : AudioDevice}
    (h : Kept adev) {tty : TtyMode} (hrun : adevSetTty asInput depth adev tty = some adev') :
    Kept adev' := by
  have hset : Kept { adev with tty := tty } :=
    ⟨h.ledger, h.listed, h.handles, h.active, h.callOn, h.streams, h.profiles⟩
  unfold Audio.adevSetTty at hrun
  split at hrun
  · dsimp only at hrun
    split at hrun
    · exact hset.reselected (selectDevices_reselected hrun)
    · cases hrun
      exact hset
  · cases hrun
    exact h

/-- One call. -/
theorem Kept.run {asInput : AsInput} {depth : Nat} {adev adev' : AudioDevice} {call : Call}
    (h : Kept adev) (hok : Careful adev call) (hrun : call.run asInput depth adev = some adev') :
    Kept adev' := by
  cases call with
  | openOutputStream devices flags =>
      cases hrun
      exact h.adevOpenOutputStream hok
  | closeOutputStream i => exact h.adevCloseOutputStream hok hrun
  | openInputStream request =>
      cases hrun
      exact h.adevOpenInputStream request
  | closeInputStream i => exact h.adevCloseInputStream hrun
  | outWrite i answers status => exact h.outWrite hok hrun
  | outStandby i => exact (h.outStandby hrun).1
  | outSetRouting i value => exact h.outSetRouting hok hrun
  | inRead i answers successful => exact h.inRead hok hrun
  | inStandby i => exact h.doInStandby hrun
  | inSetParameters i source routing => exact h.inSetParameters hrun
  | inAddAudioEffect i effect answers =>
      obtain ⟨⟨status, mid⟩, hmid, rfl⟩ := Option.map_eq_some_iff.mp hrun
      exact h.inAddAudioEffect hmid
  | inRemoveAudioEffect i effect =>
      obtain ⟨⟨status, mid⟩, hmid, rfl⟩ := Option.map_eq_some_iff.mp hrun
      exact h.inRemoveAudioEffect hmid
  | setMode mode =>
      cases hrun
      exact ⟨h.ledger, h.listed, h.handles, h.active, h.callOn, h.streams, h.profiles⟩
  | setTty tty => exact h.adevSetTty hrun
  | setMicMute state =>
      cases hrun
      exact ⟨h.ledger, h.listed, h.handles, h.active, h.callOn, h.streams, h.profiles⟩

/-! ## The contract -/

/-- The stream is open and not in standby. -/
def AudioDevice.runs (adev : AudioDevice) : StreamRef → Bool
  | .out i => (adev.outs i).any fun out => !out.standby
  | .inp i => (adev.ins i).any fun inp => !inp.standby

/-- The PCMs that a stream lists. -/
def AudioDevice.listedPcms (adev : AudioDevice) : StreamRef → List Nat
  | .out i => ((adev.outs i).map fun out => pcmsOf out.pcmDevList).getD []
  | .inp i => ((adev.ins i).map fun inp => pcmsOf inp.pcmDevList).getD []

/-- A sound device is the current one of a use case, on either side. -/
def AudioUsecase.uses (uc : AudioUsecase) (d : SndDevice) : Bool :=
  uc.outSndDevice.map .out = some d || uc.inSndDevice.map .inp = some d

/-- The books after a call. -/
structure Booked (adev : AudioDevice) : Prop where
  onePerId : ∀ id, (adev.usecaseList.countP fun uc => uc.id = id) ≤ 1
  onePerStream : ∀ ref, (adev.usecaseList.countP fun uc =>
    uc.id ≠ .voiceCall && uc.stream = ref) = if adev.runs ref then 1 else 0
  onePerCall : (adev.usecaseList.countP fun uc => uc.id = .voiceCall) =
    if adev.inCall then 1 else 0
  refCounts : ∀ d, adev.sndDevRefCnt d = adev.usecaseList.countP fun uc => uc.uses d
  pcmsListed : ∀ h ∈ adev.handles, h.ready = true → adev.runs h.owner = true →
    h.id ∈ adev.listedPcms h.owner
  activeRuns : ∀ i, adev.activeInput = some i → adev.runs (.inp i) = true
  primaryOpen : ∀ i, adev.primaryOutput = some i → (adev.outs i).isSome

/-- The use case of a stream that is not in standby. -/
def AudioDevice.usecaseOf (adev : AudioDevice) : StreamRef → Option UsecaseId
  | .out i => playing adev.outs i
  | .inp i => capturing adev.ins i

theorem runs_eq (adev : AudioDevice) (ref : StreamRef) :
    adev.runs ref = (adev.usecaseOf ref).isSome := by
  cases ref with
  | out i =>
      show (adev.outs i).any _ = ((adev.outs i).bind _).isSome
      cases adev.outs i with
      | none => rfl
      | some out => cases hstandby : out.standby <;> simp [StreamOut.plays, hstandby]
  | inp i =>
      show (adev.ins i).any _ = ((adev.ins i).bind _).isSome
      cases adev.ins i with
      | none => rfl
      | some inp => cases hstandby : inp.standby <;> simp [StreamIn.captures, hstandby]

/-- What is listed out of standby is listed. -/
theorem openPcms_subset (adev : AudioDevice) (ref : StreamRef) :
    openPcms adev.outs adev.ins ref ⊆ adev.listedPcms ref := by
  cases ref with
  | out i =>
      show ((adev.outs i).map _).getD [] ⊆ ((adev.outs i).map _).getD []
      cases adev.outs i with
      | none => exact List.Subset.refl _
      | some out => cases hstandby : out.standby <;> simp [StreamOut.openPcms, hstandby]
  | inp i =>
      show ((adev.ins i).map _).getD [] ⊆ ((adev.ins i).map _).getD []
      cases adev.ins i with
      | none => exact List.Subset.refl _
      | some inp => cases hstandby : inp.standby <;> simp [StreamIn.openPcms, hstandby]

/-- A use case that is not the call's is the one its stream runs. -/
theorem Kept.usecaseOf_eq {adev : AudioDevice} (h : Kept adev) {uc : AudioUsecase}
    (huc : uc ∈ adev.usecaseList) (hid : uc.id ≠ .voiceCall) :
    adev.usecaseOf uc.stream = some uc.id := by
  have hlive := (h.listed uc.key).mp (List.mem_map_of_mem huc)
  have hstream : uc.stream = uc.key.stream := rfl
  have hkeyid : uc.id = uc.key.id := rfl
  rw [hkeyid] at hid ⊢
  rw [hstream]
  generalize uc.key = key at hlive hid
  rcases hlive with hplays | hcaptures | -
  · exact hplays
  · exact hcaptures
  · exact absurd rfl hid

/-- A stream that runs has a use case in the list. -/
theorem Kept.exists_usecase {adev : AudioDevice} (h : Kept adev) {ref : StreamRef}
    {id : UsecaseId} (hruns : adev.usecaseOf ref = some id) :
    ∃ uc ∈ adev.usecaseList, uc.id = id ∧ uc.stream = ref ∧ id ≠ .voiceCall := by
  cases ref with
  | out i =>
      obtain ⟨uc, huc, hkey⟩ := List.mem_map.mp ((h.listed _).mpr (.playing hruns))
      refine ⟨uc, huc, congrArg UsecaseKey.id hkey, congrArg UsecaseKey.stream hkey, ?_⟩
      obtain ⟨out, hout, hplays⟩ := Option.bind_eq_some_iff.mp hruns
      have hkind := (h.streams.outKinds i out hout).1
      unfold StreamOut.plays at hplays
      split at hplays
      · cases hplays
      · cases hplays
        rcases hkind with hkind | hkind <;> rw [hkind] <;> decide
  | inp i =>
      obtain ⟨uc, huc, hkey⟩ := List.mem_map.mp ((h.listed _).mpr (.capturing hruns))
      refine ⟨uc, huc, congrArg UsecaseKey.id hkey, congrArg UsecaseKey.stream hkey, ?_⟩
      obtain ⟨inp, hinp, hcaptures⟩ := Option.bind_eq_some_iff.mp hruns
      have hkind := h.streams.inKinds i inp hinp
      unfold StreamIn.captures at hcaptures
      split at hcaptures
      · cases hcaptures
      · cases hcaptures
        rcases hkind with hkind | hkind <;> rw [hkind] <;> decide

/-- The one use case of a list that a test accepts. -/
theorem countP_eq_one {l : List AudioUsecase} (hnodup : l.Nodup) {p : AudioUsecase → Bool}
    {uc : AudioUsecase} (huc : uc ∈ l) (hp : ∀ x ∈ l, p x = true ↔ x = uc) :
    l.countP p = 1 := by
  have hcount : l.countP p = l.count uc := by
    refine List.countP_congr fun x hx => ?_
    rw [hp x hx, beq_iff_eq]
  rw [hcount]
  exact List.nodup_iff_count_eq_one.mp hnodup uc huc

theorem totalRefs_held (l : List AudioUsecase) (d : SndDevice) :
    totalRefs AudioUsecase.held l d = l.countP fun uc => uc.uses d := by
  induction l with
  | nil => rfl
  | cons uc l ih =>
      rw [List.countP_cons, ← ih]
      show uc.held d + _ = _
      have hheld : uc.held d = if uc.uses d then 1 else 0 := by
        cases d with
        | out d => cases hout : uc.outSndDevice <;> cases hinp : uc.inSndDevice <;>
            simp [AudioUsecase.held, AudioUsecase.uses, refs, hout, hinp]
        | inp d => cases hout : uc.outSndDevice <;> cases hinp : uc.inSndDevice <;>
            simp [AudioUsecase.held, AudioUsecase.uses, refs, hout, hinp]
      rw [hheld, Nat.add_comm]

theorem Kept.booked {adev : AudioDevice} (h : Kept adev) : Booked adev := by
  have hnodup := h.ledger.nodup
  refine ⟨fun id => ?_, fun ref => ?_, ?_, fun d => ?_, fun x hx hr _ => ?_, fun i hi => ?_,
    h.streams.primary⟩
  · have hcount := List.nodup_iff_count_le_one.mp hnodup id
    rw [List.count, List.countP_map] at hcount
    refine Nat.le_trans (Nat.le_of_eq ?_) hcount
    exact List.countP_congr fun x _ => by simp
  · rw [runs_eq]
    cases hruns : adev.usecaseOf ref with
    | none =>
        rw [Option.isSome_none, if_neg Bool.false_ne_true, List.countP_eq_zero]
        intro uc huc hp
        simp only [Bool.and_eq_true, decide_eq_true_eq] at hp
        have hof := h.usecaseOf_eq huc hp.1
        rw [hp.2, hruns] at hof
        cases hof
    | some id =>
        obtain ⟨uc, huc, hid, hstream, hne⟩ := h.exists_usecase hruns
        rw [Option.isSome_some, if_pos rfl]
        refine countP_eq_one hnodup.of_map huc fun x hx => ?_
        simp only [Bool.and_eq_true, decide_eq_true_eq]
        refine ⟨fun hp => ?_, fun hx => ?_⟩
        · have hof := h.usecaseOf_eq hx hp.1
          rw [hp.2, hruns, Option.some.injEq] at hof
          exact List.inj_on_of_nodup_map hnodup hx huc (hof.symm.trans hid.symm)
        · rw [hx, hid]
          exact ⟨hne, hstream⟩
  · cases hcall : adev.inCall with
    | false =>
        rw [if_neg Bool.false_ne_true, List.countP_eq_zero]
        intro uc huc hp
        exact h.no_call hcall uc huc (of_decide_eq_true hp)
    | true =>
        obtain ⟨i, hi⟩ := Option.isSome_iff_exists.mp (h.callOn hcall)
        have hlive : adev.call = some i := by
          rw [AudioDevice.call, if_pos hcall, hi]
        obtain ⟨uc, huc, hkey⟩ := List.mem_map.mp ((h.listed _).mpr (.call hlive))
        have hid : uc.id = .voiceCall := congrArg UsecaseKey.id hkey
        rw [if_pos rfl]
        refine countP_eq_one hnodup.of_map huc fun x hx => ?_
        rw [decide_eq_true_eq]
        refine ⟨fun hp => List.inj_on_of_nodup_map hnodup hx huc (hp.trans hid.symm), ?_⟩
        rintro rfl
        exact hid
  · rw [h.ledger.counts d, totalRefs_held]
  · exact openPcms_subset adev _ (h.handles x hx hr)
  · rw [runs_eq]
    exact h.active i hi

/-- The HAL as a system: it is opened, with or without the sound trigger, and called. -/
def audioSystem (asInput : AsInput) (depth : Nat) : System AudioDevice Call where
  start adev := ∃ soundTrigger, adev = adevOpen soundTrigger
  next adev call := call.run asInput depth adev

theorem reachable_kept {asInput : AsInput} {depth : Nat} {adev : AudioDevice}
    (h : (audioSystem asInput depth).Reachable Careful adev) : Kept adev := by
  refine h.invariant ?_ fun _ _ _ hI hok hnext => hI.run hok hnext
  rintro _ ⟨soundTrigger, rfl⟩
  exact adevOpen_kept soundTrigger

/-- In every run of careful calls, the books are in order after each of them. -/
theorem bookkeeping_contract {asInput : AsInput} {depth : Nat} {adev : AudioDevice}
    (h : (audioSystem asInput depth).Reachable Careful adev) : Booked adev :=
  (reachable_kept h).booked

/-- Memory that reads as an input for nothing in particular. -/
def readsAsDefault : AsInput := fun _ => (⟨sourceDefault, deviceNone, 0, false⟩, .audioCapture)

/-- The libraries all succeed. -/
def allSucceed : StartAnswers := ⟨fun _ => .ready, fun _ => 0, 1⟩

/-- An input from the built-in microphone. -/
def micRequest : InputRequest :=
  ⟨deviceInBuiltinMic, sourceMic, 0, captureDefaultSamplingRate, true, channelInFrontBack⟩

/-- A primary output plays and an input records. -/
theorem bookkeeping_contract_playing :
    ∃ adev, (audioSystem readsAsDefault 2).Reachable Careful adev ∧
      adev.usecaseList.length = 2 ∧ Booked adev := by
  have h₀ : (audioSystem readsAsDefault 2).Reachable Careful (adevOpen false) :=
    .start ⟨false, rfl⟩
  have h₁ := h₀.step (show Careful _ (.openOutputStream deviceOutSpeaker outputFlagPrimary) from
    fun _ _ _ => rfl) rfl
  have h₂ := h₁.step (show Careful _ (.openInputStream micRequest) from trivial) rfl
  have h₃ := h₂.step (show Careful _ (.outWrite 0 allSucceed fun _ => 0) from
    fun _ _ _ => rfl) rfl
  have h₄ := h₃.step (show Careful _ (.inRead 1 allSucceed true) from
    fun inp hinp _ p _ => ⟨by cases hinp; rfl, fun _ => .inl rfl⟩) rfl
  exact ⟨_, h₄, by decide, bookkeeping_contract h₄⟩

/-- Two outputs of one use case, opened while both are in standby. -/
def twoPlaybacks : List Call :=
  [.openOutputStream deviceOutSpeaker 0, .openOutputStream deviceOutSpeaker 0,
    .outWrite 0 allSucceed fun _ => 0, .outWrite 1 allSucceed fun _ => 0]

/-- After both outputs are written to, the use case is listed twice. -/
theorem bookkeeping_broken :
    ¬ ∀ adev, (audioSystem readsAsDefault 2).Reachable (fun _ _ => True) adev → Booked adev := by
  intro h
  have htwice : ((audioSystem readsAsDefault 2).run (fun _ _ => True) twoPlaybacks
      (adevOpen false)).map (fun adev => adev.usecaseList.countP fun uc =>
        uc.id = .audioPlayback) = some 2 := by
    decide
  obtain ⟨adev, hrun, hcount⟩ := Option.map_eq_some_iff.mp htwice
  have hstart : (audioSystem readsAsDefault 2).Reachable (fun _ _ => True) (adevOpen false) :=
    .start ⟨false, rfl⟩
  have hone := (h adev (hstart.run hrun)).onePerId .audioPlayback
  omega

end DragonDevice.Audio
