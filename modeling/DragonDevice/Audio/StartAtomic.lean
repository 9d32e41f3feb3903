/-
  Audio/StartAtomic.lean --- when a stream that fails to start leaves no trace.

  The functions undo what they did by looking the use case up by its id, so it is undone
  where the entry they added is the first one with it.  A failed resampler of an input is
  only passed on as the return value.  An output drops the handle of a PCM that is not ready,
  and does not close the PCM when the resampler fails.
-/
import Mathlib.Data.List.TakeWhile
import DragonDevice.Audio.BookkeepingContract

set_option autoImplicit false

namespace DragonDevice.Audio

open DragonDevice.Lib

/-- Use cases, counts and handles are as before. -/
structure Restored (adev adev' : AudioDevice) : Prop where
  usecases : adev'.usecaseList = adev.usecaseList
  counts : adev'.sndDevRefCnt = adev.sndDevRefCnt
  handles : ∀ h, h ∈ adev'.handles ↔ h ∈ adev.handles

/-- From the first use case with the id of `uc` on, the list holds nothing but `uc`. -/
def OnlyCopies (l : List AudioUsecase) (uc : AudioUsecase) : Prop :=
  ∀ x ∈ l.dropWhile fun x => x.id ≠ uc.id, x = uc

/-! ## A list, and the entry added to it -/

/-- A list that is the same when its head goes and an entry joins at the end. -/
theorem forall_eq_of_cons_eq_concat {α : Type} {x y : α} {l : List α} (h : x :: l = l ++ [y]) :
    ∀ z ∈ x :: l, z = y := by
  induction l generalizing x with
  | nil =>
      intro z hz
      rw [List.mem_singleton.mp hz]
      exact List.head_eq_of_cons_eq h
  | cons a l ih =>
      rw [List.cons_append, List.cons.injEq] at h
      intro z hz
      rcases List.mem_cons.mp hz with rfl | hz
      · rw [h.1]
        exact ih h.2 a List.mem_cons_self
      · exact ih h.2 z hz

theorem concat_eq_cons_of_forall_eq {α : Type} {y : α} {l : List α} (h : ∀ z ∈ l, z = y) :
    l ++ [y] = y :: l := by
  rw [List.eq_replicate_of_mem h]
  induction l.length with
  | zero => rfl
  | succ n ih => rw [List.replicate_succ, List.cons_append, ih]

/-- The entry that was added is the first with its id, in front of its copies. -/
theorem OnlyCopies.split {l : List AudioUsecase} {uc : AudioUsecase} (h : OnlyCopies l uc) :
    ∃ before after, l = before ++ after ∧ l ++ [uc] = before ++ uc :: after ∧
      (∀ x ∈ before, x.id ≠ uc.id) ∧ ∀ x ∈ after, x.id = uc.id := by
  refine ⟨l.takeWhile fun x => x.id ≠ uc.id, l.dropWhile fun x => x.id ≠ uc.id, ?_, ?_, ?_, ?_⟩
  · exact List.takeWhile_append_dropWhile.symm
  · rw [← concat_eq_cons_of_forall_eq h, ← List.append_assoc,
      List.takeWhile_append_dropWhile]
  · intro x hx
    simpa using List.mem_takeWhile_imp hx
  · intro x hx
    rw [h x hx]

/-- The list without the first use case with an id, by keys. -/
theorem map_key_removeUsecase (id : UsecaseId) (l : List AudioUsecase) :
    (removeUsecase id l).map AudioUsecase.key =
      (l.map AudioUsecase.key).eraseP fun key => key.id = id := by
  unfold removeUsecase
  rw [List.eraseP_map]
  rfl

/-- If the list with an entry added and the first with its id removed is the same by keys,
the entries from there on all have its key. -/
theorem keys_eq_of_erase {l : List UsecaseKey} {k : UsecaseKey}
    (h : (l ++ [k]).eraseP (fun key => key.id = k.id) = l) :
    ∀ x ∈ l.dropWhile fun key => key.id ≠ k.id, x = k := by
  induction l with
  | nil => simp
  | cons x l ih =>
      by_cases hx : x.id = k.id
      · rw [List.cons_append, List.eraseP_cons_of_pos (by simpa using hx)] at h
        rw [List.dropWhile_cons_of_neg (by simpa using hx)]
        exact forall_eq_of_cons_eq_concat h.symm
      · rw [List.cons_append, List.eraseP_cons_of_neg (by simpa using hx), List.cons.injEq] at h
        rw [List.dropWhile_cons_of_pos (by simpa using hx)]
        exact ih h.2

/-! ## Selecting devices for an entry without sound devices -/

section First

variable {asInput : AsInput} {depth : Nat} {adev adev' : AudioDevice}
  {before after : List AudioUsecase} {uc : AudioUsecase}

theorem getUsecaseFromId_of_split (hl : adev.usecaseList = before ++ uc :: after)
    (hbefore : ∀ x ∈ before, x.id ≠ uc.id) : adev.getUsecaseFromId uc.id = some uc := by
  unfold AudioDevice.getUsecaseFromId
  rw [hl, List.find?_append, List.find?_eq_none.mpr (by simpa using hbefore)]
  simp

theorem setUsecaseDevices_self (hl : adev.usecaseList = before ++ uc :: after)
    (hbefore : ∀ x ∈ before, x.id ≠ uc.id) :
    setUsecaseDevices adev uc.id uc.devices = adev := by
  unfold setUsecaseDevices
  rw [hl, modifyUsecase_split _ hbefore rfl, ← hl]

/-- The first use case with its id, which has no sound devices, changes over to some. -/
theorem setAndSwitch_fresh (hl : adev.usecaseList = before ++ uc :: after)
    (hbefore : ∀ x ∈ before, x.id ≠ uc.id) (hout : uc.outSndDevice = none)
    (hinp : uc.inSndDevice = none) (out : Option OutSndDevice) (inp : Option InSndDevice) :
    switchSndDevices (setUsecaseDevices adev uc.id uc.devices) uc out inp =
      { adev with
        usecaseList := before ++ { uc with outSndDevice := out, inSndDevice := inp } :: after
        sndDevRefCnt :=
          acquire (acquire adev.sndDevRefCnt (out.map .out)) (inp.map .inp) } := by
  rw [setUsecaseDevices_self hl hbefore]
  unfold switchSndDevices
  split
  · rename_i hsame
    rw [hout, hinp] at hsame
    obtain ⟨rfl, rfl⟩ := hsame
    rw [← hout, ← hinp, ← hl]
    simp [hout, hinp]
  · simp only [disableSndDevice, enableSndDevice, hout, hinp, Option.map_none, release_none]
    rw [hl, modifyUsecase_split _ hbefore rfl]

/-- Selecting devices for a capture that has none. -/
theorem selectDevices_capture (hl : adev.usecaseList = before ++ uc :: after)
    (hbefore : ∀ x ∈ before, x.id ≠ uc.id) (hout : uc.outSndDevice = none)
    (hinp : uc.inSndDevice = none) (htype : uc.type = .pcmCapture)
    (hdevices : inDevices adev uc.stream = some uc.devices)
    (hrun : selectDevices asInput depth adev uc.id = some adev') :
    ∃ inp : Option InSndDevice, adev' =
      { adev with
        usecaseList := before ++ { uc with inSndDevice := inp } :: after
        sndDevRefCnt := acquire adev.sndDevRefCnt (inp.map .inp) } := by
  have hfind := getUsecaseFromId_of_split hl hbefore
  cases depth with
  | zero => cases hrun
  | succ depth =>
      unfold selectDevices at hrun
      split at hrun
      · cases hrun
        refine ⟨none, ?_⟩
        rw [← hinp, ← hl, hinp]
        rfl
      · simp only [hfind, htype, hdevices, Option.bind_eq_bind, Option.bind_some] at hrun
        obtain ⟨call, -, hrun⟩ := Option.bind_eq_some_iff.mp hrun
        split at hrun
        · rename_i inp _
          rw [setAndSwitch_fresh hl hbefore hout hinp] at hrun
          cases hrun
          exact ⟨some inp, by simp [hout]⟩
        · obtain ⟨inp, -, hrun⟩ := Option.bind_eq_some_iff.mp hrun
          rw [setAndSwitch_fresh hl hbefore hout hinp] at hrun
          cases hrun
          exact ⟨inp, by simp [hout]⟩

/-- The change of the first use case with its id, as it stands. -/
theorem switchSndDevices_fresh (hl : adev.usecaseList = before ++ uc :: after)
    (hbefore : ∀ x ∈ before, x.id ≠ uc.id) (hout : uc.outSndDevice = none)
    (hinp : uc.inSndDevice = none) (out : Option OutSndDevice) :
    switchSndDevices adev uc out none =
      { adev with
        usecaseList := before ++ { uc with outSndDevice := out } :: after
        sndDevRefCnt := acquire adev.sndDevRefCnt (out.map .out) } := by
  have hswitch := setAndSwitch_fresh hl hbefore hout hinp out none
  rw [setUsecaseDevices_self hl hbefore] at hswitch
  rw [hswitch]
  simp [hinp]

/-- Selecting devices for a playback that has none, where an input that follows has its
devices selected already. -/
theorem selectDevices_playback (hl : adev.usecaseList = before ++ uc :: after)
    (hbefore : ∀ x ∈ before, x.id ≠ uc.id) (hout : uc.outSndDevice = none)
    (hinp : uc.inSndDevice = none) (htype : uc.type = .pcmPlayback)
    (hdevices : outDevices adev uc.stream = some uc.devices)
    (hsettled : uc.id ≠ .audioCaptureHotword → ∀ call f settled,
      callSndDevices adev = some call → call.1 = none →
      followingInput asInput adev uc.stream = some (some f) →
      selectDevices asInput (depth - 1) adev f = some settled →
      settled.usecaseList = adev.usecaseList ∧ settled.sndDevRefCnt = adev.sndDevRefCnt)
    (hrun : selectDevices asInput depth adev uc.id = some adev') :
    ∃ out : Option OutSndDevice, adev' =
      { adev with
        usecaseList := before ++ { uc with outSndDevice := out } :: after
        sndDevRefCnt := acquire adev.sndDevRefCnt (out.map .out) } := by
  have hfind := getUsecaseFromId_of_split hl hbefore
  cases depth with
  | zero => cases hrun
  | succ depth =>
      unfold selectDevices at hrun
      split at hrun
      · cases hrun
        refine ⟨none, ?_⟩
        rw [← hout, ← hl, hout]
        rfl
      · rename_i hhotword
        simp only [hfind, htype, hdevices, Option.bind_eq_bind, Option.bind_some,
          setUsecaseDevices_self hl hbefore] at hrun
        obtain ⟨call, hcall, hrun⟩ := Option.bind_eq_some_iff.mp hrun
        split at hrun
        · cases hrun
          exact ⟨_, switchSndDevices_fresh hl hbefore hout hinp _⟩
        · rename_i hnone
          obtain ⟨following, hfollowing, hrun⟩ := Option.bind_eq_some_iff.mp hrun
          cases following with
          | none =>
              cases hrun
              exact ⟨_, switchSndDevices_fresh hl hbefore hout hinp _⟩
          | some f =>
              obtain ⟨mid, hmid, hrun⟩ := Option.bind_eq_some_iff.mp hrun
              obtain ⟨hlist, hcounts⟩ := hsettled hhotword call f mid hcall hnone hfollowing hmid
              have hframe := (selectDevices_reselected hmid).frame
              rw [hlist, hcounts] at hframe
              have hsame : mid = adev := hframe
              rw [hsame, hfind, Option.bind_some] at hrun
              cases hrun
              exact ⟨_, switchSndDevices_fresh hl hbefore hout hinp _⟩

/-- A playback that an input follows: that one first, then the playback as it is then. -/
theorem selectDevices_follows (hl : adev.usecaseList = before ++ uc :: after)
    (hbefore : ∀ x ∈ before, x.id ≠ uc.id) (htype : uc.type = .pcmPlayback)
    (hdevices : outDevices adev uc.stream = some uc.devices)
    (hhotword : uc.id ≠ .audioCaptureHotword)
    (hnone : ∀ call, callSndDevices adev = some call → call.1 = none) {f : UsecaseId}
    (hfollowing : followingInput asInput adev uc.stream = some (some f))
    (hrun : selectDevices asInput depth adev uc.id = some adev') :
    ∃ settled uc' out, selectDevices asInput (depth - 1) adev f = some settled ∧
      settled.getUsecaseFromId uc.id = some uc' ∧
      adev' = switchSndDevices settled uc' out none := by
  cases depth with
  | zero => cases hrun
  | succ depth =>
      unfold selectDevices at hrun
      rw [if_neg hhotword] at hrun
      simp only [getUsecaseFromId_of_split hl hbefore, htype, hdevices, hfollowing,
        Option.bind_eq_bind, Option.bind_some, setUsecaseDevices_self hl hbefore] at hrun
      obtain ⟨call, hcall, hrun⟩ := Option.bind_eq_some_iff.mp hrun
      rw [hnone call hcall] at hrun
      obtain ⟨settled, hsettled, hrun⟩ := Option.bind_eq_some_iff.mp hrun
      obtain ⟨uc', huc', hrun⟩ := Option.bind_eq_some_iff.mp hrun
      cases hrun
      exact ⟨settled, uc', _, hsettled, huc', rfl⟩

end First

/-! ## Selecting devices changes one use case -/

/-- Nothing of the list changes but the first use case with an id, which keeps it. -/
def OnlyFirst (f : UsecaseId) (l l' : List AudioUsecase) : Prop :=
  l' = l ∨ ∃ before uc uc' after, l = before ++ uc :: after ∧ l' = before ++ uc' :: after ∧
    uc.id = f ∧ uc'.id = f ∧ ∀ x ∈ before, x.id ≠ f

theorem append_cons_first {f : UsecaseId} {before before' after after' : List AudioUsecase}
    {uc uc' : AudioUsecase} (h : before ++ uc :: after = before' ++ uc' :: after')
    (huc : uc.id = f) (huc' : uc'.id = f) (hbefore : ∀ x ∈ before, x.id ≠ f)
    (hbefore' : ∀ x ∈ before', x.id ≠ f) : before = before' ∧ uc = uc' ∧ after = after' := by
  induction before generalizing before' with
  | nil =>
      cases before' with
      | nil =>
          rw [List.nil_append, List.nil_append, List.cons.injEq] at h
          exact ⟨rfl, h⟩
      | cons x before' =>
          rw [List.nil_append, List.cons_append, List.cons.injEq] at h
          exact absurd (h.1 ▸ huc) (hbefore' x List.mem_cons_self)
  | cons x before ih =>
      cases before' with
      | nil =>
          rw [List.nil_append, List.cons_append, List.cons.injEq] at h
          exact absurd (h.1.symm ▸ huc') (hbefore x List.mem_cons_self)
      | cons x' before' =>
          rw [List.cons_append, List.cons_append, List.cons.injEq] at h
          obtain ⟨hb, hu, ha⟩ := ih h.2 (fun y hy => hbefore y (List.mem_cons_of_mem _ hy))
            fun y hy => hbefore' y (List.mem_cons_of_mem _ hy)
          exact ⟨by rw [h.1, hb], hu, ha⟩

theorem OnlyFirst.trans {f : UsecaseId} {l₁ l₂ l₃ : List AudioUsecase} (h₁ : OnlyFirst f l₁ l₂)
    (h₂ : OnlyFirst f l₂ l₃) : OnlyFirst f l₁ l₃ := by
  rcases h₁ with rfl | ⟨before, uc, uc', after, rfl, rfl, huc, huc', hbefore⟩
  · exact h₂
  · rcases h₂ with rfl | ⟨before₂, uc₂, uc₃, after₂, hl, rfl, huc₂, huc₃, hbefore₂⟩
    · exact .inr ⟨before, uc, uc', after, rfl, rfl, huc, huc', hbefore⟩
    · obtain ⟨rfl, rfl, rfl⟩ := append_cons_first hl huc' huc₂ hbefore hbefore₂
      exact .inr ⟨before, uc, uc₃, after, rfl, rfl, huc, huc₃, hbefore⟩

theorem modifyUsecase_onlyFirst (f : UsecaseId) {g : AudioUsecase → AudioUsecase}
    (hg : ∀ uc, (g uc).id = uc.id) (l : List AudioUsecase) :
    OnlyFirst f l (modifyUsecase f g l) := by
  induction l with
  | nil => exact .inl rfl
  | cons uc l ih =>
      by_cases huc : uc.id = f
      · rw [modifyUsecase, if_pos huc]
        exact .inr ⟨[], uc, g uc, l, rfl, rfl, huc, (hg uc).trans huc,
          fun _ h => absurd h List.not_mem_nil⟩
      · rw [modifyUsecase, if_neg huc]
        rcases ih with hsame | ⟨before, x, x', after, hl, hl', hx, hx', hbefore⟩
        · exact .inl (by rw [hsame])
        · refine .inr ⟨uc :: before, x, x', after, by rw [hl]; rfl, by rw [hl']; rfl, hx, hx', ?_⟩
          intro y hy
          rcases List.mem_cons.mp hy with rfl | hy
          · exact huc
          · exact hbefore y hy

theorem setUsecaseDevices_onlyFirst (adev : AudioDevice) (f : UsecaseId)
    (devices : AudioDevices) :
    OnlyFirst f adev.usecaseList (setUsecaseDevices adev f devices).usecaseList := by
  refine modifyUsecase_onlyFirst f ?_ _
  exact fun _ => rfl

theorem switchSndDevices_onlyFirst (adev : AudioDevice) (uc : AudioUsecase)
    (out : Option OutSndDevice) (inp : Option InSndDevice) :
    OnlyFirst uc.id adev.usecaseList (switchSndDevices adev uc out inp).usecaseList := by
  unfold switchSndDevices
  split
  · exact .inl rfl
  · refine modifyUsecase_onlyFirst uc.id ?_ _
    exact fun _ => rfl

/-- The capture or call that is found first is on the same stream. -/
theorem getCaptureOrCall_reselected {adev adev' : AudioDevice} (h : Reselected adev adev') :
    adev'.getCaptureOrCall.map AudioUsecase.stream =
      adev.getCaptureOrCall.map AudioUsecase.stream := by
  have hstream : ∀ a : AudioDevice, a.getCaptureOrCall.map AudioUsecase.stream =
      ((a.usecaseList.map AudioUsecase.key).find? fun key =>
        key.type = .pcmCapture || key.type = .voiceCall).map UsecaseKey.stream := by
    intro a
    rw [List.find?_map, Option.map_map]
    rfl
  rw [hstream, hstream, h.keys]

theorem viewInput_reselected {asInput : AsInput} {adev adev' : AudioDevice}
    (h : Reselected adev adev') (ref : StreamRef) :
    viewInput asInput adev' ref = viewInput asInput adev ref := by
  rw [h.frame]
  cases ref <;> rfl

/-- The input that follows does not depend on sound devices. -/
theorem followingInput_reselected {asInput : AsInput} {adev adev' : AudioDevice}
    (h : Reselected adev adev') (stream : StreamRef) :
    followingInput asInput adev' stream = followingInput asInput adev stream := by
  have hstream := getCaptureOrCall_reselected h
  have hprimary : adev'.primaryOutput = adev.primaryOutput := by rw [h.frame]
  unfold followingInput
  rw [hprimary]
  split
  · cases hold : adev.getCaptureOrCall with
    | none =>
        rw [hold, Option.map_none, Option.map_eq_none_iff] at hstream
        rw [hstream]
    | some uc =>
        rw [hold, Option.map_some, Option.map_eq_some_iff] at hstream
        obtain ⟨uc', huc', hsame⟩ := hstream
        rw [huc']
        dsimp only
        rw [viewInput_reselected h, hsame]
  · rfl

/-- Selecting the devices of the only use case that can follow changes no other one. -/
theorem selectDevices_onlyFirst {asInput : AsInput} {depth : Nat} {adev adev' : AudioDevice}
    {f : UsecaseId}
    (hfollow : ∀ stream g, followingInput asInput adev stream = some (some g) → g = f)
    (hrun : selectDevices asInput depth adev f = some adev') :
    OnlyFirst f adev.usecaseList adev'.usecaseList := by
  induction depth generalizing adev adev' with
  | zero => cases hrun
  | succ depth ih =>
      unfold selectDevices at hrun
      split at hrun
      · cases hrun
        exact .inl rfl
      split at hrun
      · cases hrun
        exact .inl rfl
      rename_i uc hfind
      have hid := (getUsecaseFromId_mem hfind).2
      have hswitch : ∀ (devices : AudioDevices) (out : Option OutSndDevice)
          (inp : Option InSndDevice), OnlyFirst f adev.usecaseList
            (switchSndDevices (setUsecaseDevices adev f devices) uc out inp).usecaseList := by
        intro devices out inp
        refine (setUsecaseDevices_onlyFirst adev f devices).trans ?_
        have hfirst := switchSndDevices_onlyFirst (setUsecaseDevices adev f devices) uc out inp
        rwa [hid] at hfirst
      split at hrun
      · obtain ⟨devices, -, hrun⟩ := Option.bind_eq_some_iff.mp hrun
        obtain ⟨inp, -, hrun⟩ := Option.bind_eq_some_iff.mp hrun
        cases hrun
        exact hswitch _ _ _
      · obtain ⟨call, -, hrun⟩ := Option.bind_eq_some_iff.mp hrun
        obtain ⟨devices, -, hrun⟩ := Option.bind_eq_some_iff.mp hrun
        dsimp only at hrun
        split at hrun
        · cases hrun
          exact hswitch _ _ _
        · obtain ⟨following, hfollowing, hrun⟩ := Option.bind_eq_some_iff.mp hrun
          split at hrun
          · cases hrun
            exact hswitch _ _ _
          · -- the recursion is about the same use case again
            obtain ⟨mid, hmid, hrun⟩ := Option.bind_eq_some_iff.mp hrun
            obtain ⟨uc', huc', hrun⟩ := Option.bind_eq_some_iff.mp hrun
            cases hrun
            have hset := setUsecaseDevices_reselected adev f devices
            rw [followingInput_reselected hset] at hfollowing
            rw [hfollow _ _ hfollowing] at hmid
            have hrec := ih (fun stream g hg => by
              rw [followingInput_reselected hset] at hg
              exact hfollow stream g hg) hmid
            refine (setUsecaseDevices_onlyFirst adev f devices).trans (hrec.trans ?_)
            have hfirst := switchSndDevices_onlyFirst mid uc' (getOutputSndDevice
              (setUsecaseDevices adev f devices).mode (setUsecaseDevices adev f devices).tty
              devices) none
            rwa [(getUsecaseFromId_mem huc').2] at hfirst
      · obtain ⟨call, -, hrun⟩ := Option.bind_eq_some_iff.mp hrun
        obtain ⟨devices, -, hrun⟩ := Option.bind_eq_some_iff.mp hrun
        dsimp only at hrun
        split at hrun
        · cases hrun
          exact hswitch _ _ _
        · obtain ⟨inp, -, hrun⟩ := Option.bind_eq_some_iff.mp hrun
          cases hrun
          exact hswitch _ _ _
      · obtain ⟨call, -, hrun⟩ := Option.bind_eq_some_iff.mp hrun
        cases hrun
        have hfirst := switchSndDevices_onlyFirst adev uc call.1 call.2
        rwa [hid] at hfirst

/-- A change of the first use case with some id, seen from the tail of a list whose entries
all have another: the entry at its head may change, the rest does not. -/
theorem OnlyFirst.tail {f u : UsecaseId} {before after l' : List AudioUsecase}
    {uc : AudioUsecase} (h : OnlyFirst f (before ++ uc :: after) l') (huc : uc.id = u)
    (hbefore : ∀ x ∈ before, x.id ≠ u) (hafter : ∀ x ∈ after, x.id = u) :
    ∃ before' uc', l' = before' ++ uc' :: after ∧ uc'.id = u ∧
      before'.length = before.length ∧ (∀ x ∈ before', x.id ≠ u) ∧ (f ≠ u → uc' = uc) := by
  rcases h with rfl | ⟨b, x, x', a, hl, rfl, hx, hx', hb⟩
  · exact ⟨before, uc, rfl, huc, rfl, hbefore, fun _ => rfl⟩
  · by_cases hfu : f = u
    · subst hfu
      obtain ⟨rfl, rfl, rfl⟩ := append_cons_first hl huc hx hbefore hb
      exact ⟨before, x', rfl, hx', rfl, hbefore, fun hne => absurd rfl hne⟩
    · have hnot : x.id ≠ u := fun heq => hfu (hx.symm.trans heq)
      rcases List.append_eq_append_iff.mp hl with ⟨c, hbc, hrest⟩ | ⟨c, hbc, hrest⟩
      · -- the changed entry would lie in the tail
        have hmem : x ∈ uc :: after := by
          rw [hrest]
          exact List.mem_append_right _ List.mem_cons_self
        rcases List.mem_cons.mp hmem with rfl | hmem
        · exact absurd huc hnot
        · exact absurd (hafter x hmem) hnot
      · cases c with
        | nil =>
            rw [List.nil_append, List.cons.injEq] at hrest
            rw [hrest.1] at hnot
            exact absurd huc hnot
        | cons y c =>
            rw [List.cons_append, List.cons.injEq] at hrest
            obtain ⟨rfl, rfl⟩ := hrest
            refine ⟨b ++ x' :: c, uc, by simp, huc, by simp [hbc], fun y hy => ?_, fun _ => rfl⟩
            rw [hbc] at hbefore
            rcases List.mem_append.mp hy with hy | hy
            · exact hbefore y (List.mem_append_left _ hy)
            · rcases List.mem_cons.mp hy with rfl | hy
              · exact fun heq => hfu (hx'.symm.trans heq)
              · exact hbefore y (List.mem_append_right _ (List.mem_cons_of_mem _ hy))

/-- The value that any stream makes follow is the same. -/
theorem followingInput_unique {asInput : AsInput} {adev : AudioDevice} {stream stream' : StreamRef}
    {f g : UsecaseId} (hf : followingInput asInput adev stream = some (some f))
    (hg : followingInput asInput adev stream' = some (some g)) : g = f := by
  unfold followingInput at hf hg
  split at hf
  · split at hg
    · rw [hf] at hg
      cases hg
      rfl
    · cases hg
  · cases hf

/-- Selecting devices, where the use cases behind the first with an id all have it too: those
stay as they are. -/
theorem selectDevices_list {asInput : AsInput} {depth : Nat} {adev adev' : AudioDevice}
    {before after : List AudioUsecase} {uc : AudioUsecase}
    (hl : adev.usecaseList = before ++ uc :: after) (hbefore : ∀ x ∈ before, x.id ≠ uc.id)
    (hafter : ∀ x ∈ after, x.id = uc.id)
    (hrun : selectDevices asInput depth adev uc.id = some adev') :
    ∃ before' uc', adev'.usecaseList = before' ++ uc' :: after ∧ uc'.id = uc.id ∧
      before'.length = before.length ∧ ∀ x ∈ before', x.id ≠ uc.id := by
  have hfind := getUsecaseFromId_of_split hl hbefore
  have hweaken : ∀ {l' : List AudioUsecase}, OnlyFirst uc.id adev.usecaseList l' →
      ∃ before' uc', l' = before' ++ uc' :: after ∧ uc'.id = uc.id ∧
        before'.length = before.length ∧ ∀ x ∈ before', x.id ≠ uc.id := by
    intro l' h
    rw [hl] at h
    obtain ⟨before', uc', hl', hid, hlen, hbefore', -⟩ := h.tail rfl hbefore hafter
    exact ⟨before', uc', hl', hid, hlen, hbefore'⟩
  have hswitch : ∀ devices out inp, OnlyFirst uc.id adev.usecaseList
      (switchSndDevices (setUsecaseDevices adev uc.id devices) uc out inp).usecaseList :=
    fun devices out inp => (setUsecaseDevices_onlyFirst adev uc.id devices).trans
      (switchSndDevices_onlyFirst _ uc out inp)
  cases depth with
  | zero => cases hrun
  | succ depth =>
      unfold selectDevices at hrun
      split at hrun
      · cases hrun
        exact hweaken (.inl rfl)
      simp only [hfind] at hrun
      split at hrun
      · obtain ⟨devices, -, hrun⟩ := Option.bind_eq_some_iff.mp hrun
        obtain ⟨inp, -, hrun⟩ := Option.bind_eq_some_iff.mp hrun
        cases hrun
        exact hweaken (hswitch _ _ _)
      · obtain ⟨call, -, hrun⟩ := Option.bind_eq_some_iff.mp hrun
        obtain ⟨devices, -, hrun⟩ := Option.bind_eq_some_iff.mp hrun
        split at hrun
        · cases hrun
          exact hweaken (hswitch _ _ _)
        · obtain ⟨following, hfollowing, hrun⟩ := Option.bind_eq_some_iff.mp hrun
          cases following with
          | none =>
              cases hrun
              exact hweaken (hswitch _ _ _)
          | some f =>
              obtain ⟨mid, hmid, hrun⟩ := Option.bind_eq_some_iff.mp hrun
              obtain ⟨uc', huc', hrun⟩ := Option.bind_eq_some_iff.mp hrun
              cases hrun
              -- first the entry itself, then the one that follows, then the entry again
              obtain ⟨before₁, uc₁, hl₁, hid₁, hlen₁, hbefore₁⟩ :=
                hweaken (setUsecaseDevices_onlyFirst adev uc.id devices)
              have hfollowed := selectDevices_onlyFirst
                (fun stream g hg => followingInput_unique hfollowing hg) hmid
              rw [hl₁] at hfollowed
              obtain ⟨before₂, uc₂, hl₂, hid₂, hlen₂, hbefore₂, -⟩ :=
                hfollowed.tail hid₁ hbefore₁ hafter
              have hswitched := switchSndDevices_onlyFirst mid uc' (getOutputSndDevice
                (setUsecaseDevices adev uc.id devices).mode
                (setUsecaseDevices adev uc.id devices).tty devices) none
              rw [hl₂, (getUsecaseFromId_mem huc').2] at hswitched
              obtain ⟨before₃, uc₃, hl₃, hid₃, hlen₃, hbefore₃, -⟩ :=
                hswitched.tail hid₂ hbefore₂ hafter
              exact ⟨before₃, uc₃, hl₃, hid₃, hlen₃.trans (hlen₂.trans hlen₁), hbefore₃⟩
      · obtain ⟨call, -, hrun⟩ := Option.bind_eq_some_iff.mp hrun
        obtain ⟨devices, -, hrun⟩ := Option.bind_eq_some_iff.mp hrun
        split at hrun
        · cases hrun
          exact hweaken (hswitch _ _ _)
        · obtain ⟨inp, -, hrun⟩ := Option.bind_eq_some_iff.mp hrun
          cases hrun
          exact hweaken (hswitch _ _ _)
      · obtain ⟨call, -, hrun⟩ := Option.bind_eq_some_iff.mp hrun
        cases hrun
        exact hweaken (switchSndDevices_onlyFirst adev uc _ _)

/-- Where a use case was added and its devices selected, and the list is the same again
without the first use case with its id, that one was a copy of it. -/
theorem onlyCopies_of_restored {asInput : AsInput} {depth : Nat} {adev adev' : AudioDevice}
    {l : List AudioUsecase} {uc : AudioUsecase} (hl : adev.usecaseList = l ++ [uc])
    (hrun : selectDevices asInput depth adev uc.id = some adev')
    (hsame : removeUsecase uc.id adev'.usecaseList = l) : OnlyCopies l uc := by
  have hkeys := (selectDevices_reselected hrun).keys
  rw [hl, List.map_append] at hkeys
  have hkeys' := congrArg (List.map AudioUsecase.key) hsame
  rw [map_key_removeUsecase, hkeys] at hkeys'
  have hcopies := @keys_eq_of_erase _ uc.key hkeys'
  rw [List.dropWhile_map] at hcopies
  have hcopies : ∀ x ∈ l.dropWhile (fun x => x.id ≠ uc.id), x.key = uc.key :=
    fun x hx => hcopies _ (List.mem_map_of_mem hx)
  have hbefore : ∀ x ∈ l.takeWhile (fun x => x.id ≠ uc.id), x.id ≠ uc.id := by
    intro x hx
    simpa using List.mem_takeWhile_imp hx
  have hsplit : l.takeWhile (fun x => x.id ≠ uc.id) ++ l.dropWhile (fun x => x.id ≠ uc.id) = l :=
    List.takeWhile_append_dropWhile
  unfold OnlyCopies
  generalize l.takeWhile (fun x => x.id ≠ uc.id) = before at hbefore hsplit
  generalize l.dropWhile (fun x => x.id ≠ uc.id) = rest at hcopies hsplit ⊢
  cases rest with
  | nil => exact fun x hx => absurd hx List.not_mem_nil
  | cons first after =>
      have hid : first.id = uc.id := congrArg UsecaseKey.id (hcopies _ List.mem_cons_self)
      rw [← hsplit, List.append_assoc, List.cons_append] at hl
      rw [← hid] at hrun hbefore
      obtain ⟨before', first', hl', hid', hlen, hbefore'⟩ := selectDevices_list hl hbefore
        (fun x hx => by
          rcases List.mem_append.mp hx with hx | hx
          · rw [hid]
            exact congrArg UsecaseKey.id (hcopies x (List.mem_cons_of_mem _ hx))
          · rw [List.mem_singleton.mp hx, hid]) hrun
      rw [hl', removeUsecase_split (by rwa [hid] at hbefore') (hid'.trans hid), ← hsplit] at hsame
      exact forall_eq_of_cons_eq_concat (List.append_inj hsame hlen).2.symm

/-! ## Inputs -/

/-- An input starts or leaves no trace: where its device does not open, no other use case
with its id may be listed before the one it adds; and where it opens, the resampler must be
created. -/
def InputWhole (answers : StartAnswers) (adev : AudioDevice) (i : Nat) (inp : StreamIn) : Prop :=
  ∀ p, getPcmDevice adev.profiles inp.usecaseType inp.devices = some p →
    if CaptureFails answers adev p then OnlyCopies adev.usecaseList (captureUsecase i inp)
    else inResampler answers inp (adev.profiles p).config p = 0

/-- The use cases of an input that failed to start without a trace. -/
theorem failedInput_onlyCopies {asInput : AsInput} {depth : Nat} {adev mid : AudioDevice}
    {i : Nat} {inp : StreamIn} {p : ProfileId}
    (hrun : enableInputPath asInput depth adev i inp p = some mid)
    (hsame : removeUsecase inp.usecase mid.usecaseList = adev.usecaseList) :
    OnlyCopies adev.usecaseList (captureUsecase i inp) := by
  have hfast := (applyFastPeriod_frame { adev with activeInput := some i } inp.inputFlags p).1
  rw [enableInputPath, hfast] at hrun
  exact @onlyCopies_of_restored _ _ _ _ _ (captureUsecase i inp) rfl hrun hsame

/-- The selection of devices when the entry that was added is the first with its id. -/
theorem enableInputPath_first {asInput : AsInput} {depth : Nat} {adev mid : AudioDevice}
    {i : Nat} {inp : StreamIn} {p : ProfileId} {before after : List AudioUsecase}
    (hadded : adev.usecaseList ++ [captureUsecase i inp] =
      before ++ captureUsecase i inp :: after)
    (hbefore : ∀ x ∈ before, x.id ≠ inp.usecase)
    (hrun : enableInputPath asInput depth adev i inp p = some mid) :
    ∃ device : Option InSndDevice,
      mid.usecaseList = before ++ { captureUsecase i inp with inSndDevice := device } :: after ∧
      mid.sndDevRefCnt = acquire adev.sndDevRefCnt (device.map .inp) := by
  have hfast := (applyFastPeriod_frame { adev with activeInput := some i } inp.inputFlags p).1
  rw [enableInputPath, hfast] at hrun
  obtain ⟨device, rfl⟩ := @selectDevices_capture _ _ _ _ _ _ (captureUsecase i inp) hadded
    hbefore rfl rfl rfl (by simp [inDevices, captureUsecase, AudioDevice.setIn]) hrun
  exact ⟨device, rfl, rfl⟩

/-- A use case that was added is found, or another one with its id. -/
theorem getUsecaseFromId_of_keys {adev : AudioDevice} {l : List UsecaseKey} {key : UsecaseKey}
    (hkeys : adev.usecaseList.map AudioUsecase.key = l ++ [key]) :
    ∃ uc, adev.getUsecaseFromId key.id = some uc := by
  cases hfind : adev.getUsecaseFromId key.id with
  | some uc => exact ⟨uc, rfl⟩
  | none =>
      have hmem : key ∈ adev.usecaseList.map AudioUsecase.key := by
        rw [hkeys]
        exact List.mem_append_right _ List.mem_cons_self
      obtain ⟨uc, huc, rfl⟩ := List.mem_map.mp hmem
      exact absurd rfl (getUsecaseFromId_eq_none.mp hfind uc huc)

theorem inResampler_eq {answers : StartAnswers} {inp : StreamIn} {config config' : PcmConfig}
    (h : config'.rate = config.rate) (p : ProfileId) :
    inResampler answers inp config' p = inResampler answers inp config p := by
  unfold inResampler recreateResampler
  rw [h]

/-- `start_input_stream`, for every state and every answer: if it fails, nothing is left of
it exactly when the condition is met. -/
theorem startInputStream_whole_iff {asInput : AsInput} {depth : Nat} {answers : StartAnswers}
    {adev adev' : AudioDevice} {i : Nat} {inp : StreamIn} {ret : Int}
    (hinp : adev.ins i = some inp)
    (hrun : startInputStream asInput depth answers adev i = some (ret, adev')) :
    (ret ≠ 0 → Restored adev adev' ∧ adev'.activeInput ≠ some i) ↔
      InputWhole answers adev i inp := by
  rw [Audio.startInputStream, hinp, Option.bind_eq_bind, Option.bind_some] at hrun
  unfold InputWhole
  cases hprofile : getPcmDevice adev.profiles inp.usecaseType inp.devices with
  | none =>
      rw [hprofile] at hrun
      cases hrun
      exact ⟨fun _ => (by simp), fun _ _ => ⟨⟨rfl, rfl, fun _ => Iff.rfl⟩, (by simp)⟩⟩
  | some p =>
      rw [hprofile] at hrun
      dsimp only at hrun
      obtain ⟨mid, hmid, hrun⟩ := Option.bind_eq_some_iff.mp hrun
      obtain ⟨hframe, hprofiles, hkeys, -⟩ := enableInputPath_spec hmid
      have hsame := (applyFastPeriod_frame adev inp.inputFlags p).2 p
      rw [← hprofiles] at hsame
      have hfails : CaptureFails answers mid p ↔ CaptureFails answers adev p := by
        unfold CaptureFails
        rw [hsame.1, hframe]
      simp only [Option.some.injEq, forall_eq']
      by_cases hopens : CaptureFails answers mid p
      · rw [if_pos (hfails.mp hopens)]
        rw [openCapture_fails hopens] at hrun
        obtain ⟨stopped, hstopped, hrun⟩ := Option.bind_eq_some_iff.mp hrun
        cases hrun
        have hmidhandles : mid.handles = adev.handles := by rw [hframe]
        obtain ⟨uc, hfind⟩ := getUsecaseFromId_of_keys hkeys
        rw [stopInputStream_setIn (by rfl) hfind] at hstopped
        cases hstopped
        refine ⟨fun h => failedInput_onlyCopies hmid (h (by decide)).1.usecases,
          fun h _ => ⟨?_, (by simp)⟩⟩
        obtain ⟨before, after, hl, hadded, hbefore, -⟩ := h.split
        obtain ⟨device, hlist, hcounts⟩ := enableInputPath_first hadded hbefore hmid
        have hfirst : mid.getUsecaseFromId inp.usecase = some
            { captureUsecase i inp with inSndDevice := device } :=
          getUsecaseFromId_of_split hlist hbefore
        rw [hfind] at hfirst
        cases hfirst
        refine ⟨?_, ?_, fun x => ?_⟩
        · show removeUsecase inp.usecase mid.usecaseList = _
          rw [hlist, hl]
          exact removeUsecase_split hbefore rfl
        · show release mid.sndDevRefCnt (device.map .inp) = _
          rw [hcounts, release_acquire]
        · show x ∈ mid.handles ↔ _
          rw [hmidhandles]
      · rw [if_neg fun hf => hopens (hfails.mpr hf)]
        obtain ⟨device, handles, hopen, -, -⟩ := openCapture_opens hopens i
        rw [hopen] at hrun
        cases hrun
        rw [inResampler_eq hsame.2.1]
        refine ⟨fun h => ?_, fun h hne => absurd h hne⟩
        by_contra hne
        have hlist : mid.usecaseList = adev.usecaseList := (h hne).1.usecases
        rw [hlist] at hkeys
        have hlen := congrArg List.length hkeys
        rw [List.length_append, List.length_singleton] at hlen
        omega

/-! ## The input that follows an output -/

/-- The output sound device of a voice call, which the playbacks follow. -/
def callOutSndDevice (adev : AudioDevice) : Option OutSndDevice :=
  if adev.inCall then (adev.getUsecaseFromId .voiceCall).bind AudioUsecase.outSndDevice else none

/-- The microphone of a voice call, which the captures follow. -/
def callInSndDevice (adev : AudioDevice) : Option InSndDevice :=
  if adev.inCall then (adev.getUsecaseFromId .voiceCall).bind AudioUsecase.inSndDevice else none

theorem callSndDevices_eq {adev : AudioDevice} {call : Option OutSndDevice × Option InSndDevice}
    (h : callSndDevices adev = some call) :
    call = (callOutSndDevice adev, callInSndDevice adev) := by
  unfold callSndDevices at h
  unfold callOutSndDevice callInSndDevice
  split at h
  · rename_i hcall
    obtain ⟨vc, hvc, rfl⟩ := Option.map_eq_some_iff.mp h
    rw [if_pos hcall, if_pos hcall, hvc]
    rfl
  · rename_i hcall
    cases h
    rw [if_neg hcall, if_neg hcall]

/-- What is read of the first use case with an id, and what a change of use cases leaves. -/
theorem find_modifyUsecase_bind {α : Type} {g : AudioUsecase → AudioUsecase}
    {read : AudioUsecase → Option α} (f id : UsecaseId) (hg : ∀ uc, (g uc).id = uc.id)
    (hread : ∀ uc, read (g uc) = read uc) (l : List AudioUsecase) :
    ((modifyUsecase f g l).find? fun uc => uc.id = id).bind read =
      (l.find? fun uc => uc.id = id).bind read := by
  induction l with
  | nil => rfl
  | cons uc l ih =>
      unfold modifyUsecase
      split
      · by_cases hid : uc.id = id
        · simp [hg, hid, hread]
        · simp [hg, hid]
      · by_cases hid : uc.id = id
        · simp [hid]
        · simpa [hid] using ih

theorem callOutSndDevice_setUsecaseDevices (adev : AudioDevice) (f : UsecaseId)
    (devices : AudioDevices) :
    callOutSndDevice (setUsecaseDevices adev f devices) = callOutSndDevice adev := by
  have hfind := @find_modifyUsecase_bind _ (fun uc => { uc with devices := devices })
    AudioUsecase.outSndDevice f .voiceCall (fun _ => rfl) (fun _ => rfl) adev.usecaseList
  unfold callOutSndDevice
  rw [show (setUsecaseDevices adev f devices).inCall = adev.inCall from rfl,
    AudioDevice.getUsecaseFromId, show (setUsecaseDevices adev f devices).usecaseList =
      modifyUsecase f (fun uc => { uc with devices := devices }) adev.usecaseList from rfl, hfind]
  rfl

/-- The devices and sound devices of a use case. -/
structure Route where
  devices : AudioDevices
  outSndDevice : Option OutSndDevice
  inSndDevice : Option InSndDevice

def AudioUsecase.route (uc : AudioUsecase) : Route :=
  ⟨uc.devices, uc.outSndDevice, uc.inSndDevice⟩

/-- The route that a use case is to have by its type, where no voice call has an output sound
device and no input follows it. -/
def chosenRoute (asInput : AsInput) (adev : AudioDevice) (uc : AudioUsecase) : Option Route :=
  match uc.type with
  | .voiceCall => do
      let devices ← outDevices adev uc.stream
      let inp ← chooseInputSndDevice asInput adev devices
      some ⟨devices, getOutputSndDevice adev.mode adev.tty devices, inp⟩
  | .pcmPlayback => do
      let devices ← outDevices adev uc.stream
      some ⟨devices, getOutputSndDevice adev.mode adev.tty devices, none⟩
  | .pcmCapture => do
      let devices ← inDevices adev uc.stream
      match callInSndDevice adev with
      | some inp => some ⟨devices, none, some inp⟩
      | none => do
          let inp ← captureSndDevice asInput adev
          some ⟨devices, none, inp⟩
  | .pcmHotwordStreaming => some ⟨uc.devices, none, callInSndDevice adev⟩

section Route

variable {asInput : AsInput} {depth : Nat} {adev adev' : AudioDevice} {f : UsecaseId}
  {uc : AudioUsecase}

/-- The choice of a microphone reads the stream of the first capture or call. -/
theorem chooseInputSndDevice_congr
    (hview : ∀ ref, viewInput asInput adev' ref = viewInput asInput adev ref)
    (hsettings : adev'.mode = adev.mode ∧ adev'.tty = adev.tty)
    (hstream : adev'.getCaptureOrCall.map AudioUsecase.stream =
      adev.getCaptureOrCall.map AudioUsecase.stream) (devices : AudioDevices) :
    chooseInputSndDevice asInput adev' devices = chooseInputSndDevice asInput adev devices := by
  unfold chooseInputSndDevice
  rw [hsettings.1, hsettings.2]
  cases hold : adev.getCaptureOrCall with
  | none =>
      rw [hold, Option.map_none, Option.map_eq_none_iff] at hstream
      rw [hstream]
  | some x =>
      rw [hold, Option.map_some, Option.map_eq_some_iff] at hstream
      obtain ⟨x', hx', hsame⟩ := hstream
      rw [hx']
      dsimp only
      rw [hview, hsame]

theorem captureSndDevice_congr
    (hview : ∀ ref, viewInput asInput adev' ref = viewInput asInput adev ref)
    (hsettings : adev'.mode = adev.mode ∧ adev'.tty = adev.tty)
    (houts : adev'.primaryOutput = adev.primaryOutput ∧ adev'.outs = adev.outs)
    (hstream : adev'.getCaptureOrCall.map AudioUsecase.stream =
      adev.getCaptureOrCall.map AudioUsecase.stream) :
    captureSndDevice asInput adev' = captureSndDevice asInput adev := by
  have hchoose := chooseInputSndDevice_congr hview hsettings hstream
  unfold captureSndDevice
  rw [houts.1, houts.2]
  simp only [hchoose]
  cases hold : adev.getCaptureOrCall with
  | none =>
      rw [hold, Option.map_none, Option.map_eq_none_iff] at hstream
      rw [hstream]
      rfl
  | some x =>
      rw [hold, Option.map_some, Option.map_eq_some_iff] at hstream
      obtain ⟨x', hx', hsame⟩ := hstream
      rw [hx']
      simp only [Option.bind_eq_bind, Option.bind_some]
      rw [hview, hsame]

/-- The route reads the streams, the settings and the voice call. -/
theorem chosenRoute_congr
    (hview : ∀ ref, viewInput asInput adev' ref = viewInput asInput adev ref)
    (hsettings : adev'.mode = adev.mode ∧ adev'.tty = adev.tty)
    (houts : adev'.primaryOutput = adev.primaryOutput ∧ adev'.outs = adev.outs)
    (hins : adev'.ins = adev.ins) (hcall : callInSndDevice adev' = callInSndDevice adev)
    (hstream : adev'.getCaptureOrCall.map AudioUsecase.stream =
      adev.getCaptureOrCall.map AudioUsecase.stream) (uc : AudioUsecase) :
    chosenRoute asInput adev' uc = chosenRoute asInput adev uc := by
  have hout : ∀ ref, outDevices adev' ref = outDevices adev ref := by
    intro ref
    cases ref with
    | out j => rw [outDevices, outDevices, houts.2]
    | inp j => rfl
  have hinp : ∀ ref, inDevices adev' ref = inDevices adev ref := by
    intro ref
    cases ref with
    | out j => rfl
    | inp j => rw [inDevices, inDevices, hins]
  unfold chosenRoute
  simp only [chooseInputSndDevice_congr hview hsettings hstream,
    captureSndDevice_congr hview hsettings houts hstream, hout, hinp, hcall, hsettings.1,
    hsettings.2]

/-- Selecting devices gives the use case the route that it is to have. -/
theorem selectDevices_routed (hfind : adev.getUsecaseFromId f = some uc)
    (hhotword : f ≠ .audioCaptureHotword) (hcall : callOutSndDevice adev = none)
    (hstream : uc.type = .pcmPlayback → adev.primaryOutput.map StreamRef.out ≠ some uc.stream)
    (hrun : selectDevices asInput depth adev f = some adev') :
    ∃ route, chosenRoute asInput adev uc = some route ∧
      adev' = switchSndDevices (setUsecaseDevices adev f route.devices) uc route.outSndDevice
        route.inSndDevice := by
  have hset := fun devices => setUsecaseDevices_reselected adev f devices
  have hsettings : ∀ devices, (setUsecaseDevices adev f devices).mode = adev.mode ∧
      (setUsecaseDevices adev f devices).tty = adev.tty := fun _ => ⟨rfl, rfl⟩
  cases depth with
  | zero => cases hrun
  | succ depth =>
      unfold selectDevices at hrun
      rw [if_neg hhotword] at hrun
      simp only [hfind] at hrun
      split at hrun
      · rename_i htype
        obtain ⟨devices, hdevices, hrun⟩ := Option.bind_eq_some_iff.mp hrun
        obtain ⟨inp, hinp, hrun⟩ := Option.bind_eq_some_iff.mp hrun
        cases hrun
        exact ⟨⟨devices, getOutputSndDevice adev.mode adev.tty devices, inp⟩,
          by simp only [chosenRoute, htype, hdevices, hinp, Option.bind_eq_bind, Option.bind_some],
          rfl⟩
      · rename_i htype
        obtain ⟨call, hcall', hrun⟩ := Option.bind_eq_some_iff.mp hrun
        obtain ⟨devices, hdevices, hrun⟩ := Option.bind_eq_some_iff.mp hrun
        rw [callSndDevices_eq hcall', hcall] at hrun
        dsimp only at hrun
        rw [followingInput_reselected (hset devices), followingInput,
          if_neg (hstream htype)] at hrun
        cases hrun
        exact ⟨⟨devices, getOutputSndDevice adev.mode adev.tty devices, none⟩,
          by simp only [chosenRoute, htype, hdevices, Option.bind_eq_bind, Option.bind_some],
          rfl⟩
      · rename_i htype
        obtain ⟨call, hcall', hrun⟩ := Option.bind_eq_some_iff.mp hrun
        obtain ⟨devices, hdevices, hrun⟩ := Option.bind_eq_some_iff.mp hrun
        rw [callSndDevices_eq hcall'] at hrun
        dsimp only at hrun
        cases hin : callInSndDevice adev with
        | some inp =>
            rw [hin] at hrun
            cases hrun
            exact ⟨⟨devices, none, some inp⟩, by simp [chosenRoute, htype, hdevices, hin], rfl⟩
        | none =>
            rw [hin] at hrun
            obtain ⟨inp, hinp, hrun⟩ := Option.bind_eq_some_iff.mp hrun
            cases hrun
            rw [captureSndDevice_congr (viewInput_reselected (hset devices)) (hsettings devices)
              ⟨rfl, rfl⟩ (getCaptureOrCall_reselected (hset devices))] at hinp
            exact ⟨⟨devices, none, inp⟩, by simp [chosenRoute, htype, hdevices, hin, hinp], rfl⟩
      · rename_i htype
        obtain ⟨call, hcall', hrun⟩ := Option.bind_eq_some_iff.mp hrun
        rw [callSndDevices_eq hcall', hcall] at hrun
        cases hrun
        obtain ⟨rfl, before, after, hl, hbefore⟩ := getUsecaseFromId_split hfind
        refine ⟨⟨uc.devices, none, callInSndDevice adev⟩, by rw [chosenRoute, htype], ?_⟩
        rw [setUsecaseDevices_self hl hbefore]

/-- A use case that is given the route it has is left as it is. -/
theorem switch_same_route (hfind : adev.getUsecaseFromId f = some uc) :
    switchSndDevices (setUsecaseDevices adev f uc.route.devices) uc uc.route.outSndDevice
      uc.route.inSndDevice = adev := by
  obtain ⟨rfl, before, after, hl, hbefore⟩ := getUsecaseFromId_split hfind
  rw [show uc.route.devices = uc.devices from rfl, setUsecaseDevices_self hl hbefore,
    switchSndDevices, if_pos ⟨rfl, rfl⟩]

/-- Where the list is the same after a use case was given a route, it had that route. -/
theorem route_of_switch_same (hfind : adev.getUsecaseFromId f = some uc) {route : Route}
    (hsame : (switchSndDevices (setUsecaseDevices adev f route.devices) uc route.outSndDevice
      route.inSndDevice).usecaseList = adev.usecaseList) : uc.route = route := by
  obtain ⟨rfl, before, after, hl, hbefore⟩ := getUsecaseFromId_split hfind
  have hset : (setUsecaseDevices adev uc.id route.devices).usecaseList =
      before ++ { uc with devices := route.devices } :: after := by
    rw [setUsecaseDevices, hl, modifyUsecase_split _ hbefore rfl]
  have hswitched : (switchSndDevices (setUsecaseDevices adev uc.id route.devices) uc
      route.outSndDevice route.inSndDevice).usecaseList =
        before ++ ⟨uc.id, uc.type, route.devices, route.outSndDevice, route.inSndDevice,
          uc.stream⟩ :: after := by
    unfold switchSndDevices
    split
    · rename_i heq
      rw [hset, heq.1, heq.2]
    · simp only [disableSndDevice, enableSndDevice]
      rw [hset]
      exact modifyUsecase_split _ hbefore rfl
  rw [hswitched, hl] at hsame
  have huc := List.head_eq_of_cons_eq (List.append_cancel_left hsame)
  rw [← huc]
  rfl

/-- A playback on the stream that its own use case follows is selected without end. -/
theorem selectDevices_endless (hfind : adev.getUsecaseFromId f = some uc)
    (htype : uc.type = .pcmPlayback) (hhotword : f ≠ .audioCaptureHotword)
    (hcall : callOutSndDevice adev = none)
    (hfollowing : followingInput asInput adev uc.stream = some (some f)) :
    selectDevices asInput depth adev f = none := by
  induction depth generalizing adev uc with
  | zero => rfl
  | succ depth ih =>
      by_contra hne
      obtain ⟨adev', hrun⟩ := Option.ne_none_iff_exists'.mp hne
      unfold selectDevices at hrun
      rw [if_neg hhotword] at hrun
      simp only [hfind, htype] at hrun
      obtain ⟨call, hcall', hrun⟩ := Option.bind_eq_some_iff.mp hrun
      obtain ⟨devices, -, hrun⟩ := Option.bind_eq_some_iff.mp hrun
      have hset := setUsecaseDevices_reselected adev f devices
      rw [callSndDevices_eq hcall', hcall] at hrun
      dsimp only at hrun
      rw [followingInput_reselected hset, hfollowing] at hrun
      obtain ⟨following, hsame, hrun⟩ := Option.bind_eq_some_iff.mp hrun
      cases hsame
      obtain ⟨mid, hmid, -⟩ := Option.bind_eq_some_iff.mp hrun
      have hnone := @ih (setUsecaseDevices adev f devices) _
        (getUsecaseFromId_setUsecaseDevices hfind devices) htype
        ((callOutSndDevice_setUsecaseDevices adev f devices).trans hcall)
        ((followingInput_reselected hset uc.stream).trans hfollowing)
      rw [hnone] at hmid
      cases hmid

theorem primary_of_following {stream : StreamRef}
    (h : followingInput asInput adev stream = some (some f)) :
    adev.primaryOutput.map StreamRef.out = some stream := by
  unfold followingInput at h
  split at h
  · assumption
  · cases h

/-- So an input that follows, and whose selection ends, is no playback on that stream. -/
theorem not_primary_of_selected (hfind : adev.getUsecaseFromId f = some uc)
    (hhotword : f ≠ .audioCaptureHotword) (hcall : callOutSndDevice adev = none)
    {stream : StreamRef} (hfollowing : followingInput asInput adev stream = some (some f))
    (hrun : selectDevices asInput depth adev f = some adev') :
    uc.type = .pcmPlayback → adev.primaryOutput.map StreamRef.out ≠ some uc.stream := by
  intro htype hprimary
  have hsame := (primary_of_following hfollowing).symm.trans hprimary
  rw [Option.some.inj hsame] at hfollowing
  rw [selectDevices_endless hfind htype hhotword hcall hfollowing] at hrun
  cases hrun

/-- Without a use case to select for, nothing changes. -/
theorem selectDevices_nothing (h : f = .audioCaptureHotword ∨ adev.getUsecaseFromId f = none)
    (hrun : selectDevices asInput depth adev f = some adev') : adev' = adev := by
  cases depth with
  | zero => cases hrun
  | succ depth =>
      unfold selectDevices at hrun
      split at hrun
      · cases hrun
        rfl
      · rename_i hhotword
        rw [h.resolve_left hhotword] at hrun
        cases hrun
        rfl

end Route

/-! ## Outputs -/

/-- The state with the output listing the device of its profile, if it has one. -/
def deviceListed (adev : AudioDevice) (i : Nat) (out : StreamOut) : AudioDevice :=
  adev.setOut i { out with pcmDevList := selectedPcmDevices adev out }

/-- An input that follows the output has the sound devices already that it is to have. -/
def InputSettled (asInput : AsInput) (adev : AudioDevice) (i : Nat) (out : StreamOut) : Prop :=
  out.usecase ≠ .audioCaptureHotword → callOutSndDevice adev = none → ∀ f uc route,
    followingInput asInput (deviceListed adev i out) (.out i) = some (some f) →
    f ≠ .audioCaptureHotword → adev.getUsecaseFromId f = some uc →
    chosenRoute asInput (deviceListed adev i out) uc = some route → uc.route = route

section Listed

variable (asInput : AsInput) (adev : AudioDevice) (i : Nat) (out : StreamOut)

/-- The use case of a playback is neither a capture nor a call. -/
theorem getCaptureOrCall_listedOutput :
    (listedOutput adev i out).getCaptureOrCall = adev.getCaptureOrCall := by
  simp [AudioDevice.getCaptureOrCall, listedOutput, playbackUsecase]

/-- Nor does it give a sound device to a read of the voice call. -/
theorem find_listedOutput_bind {α : Type} {read : AudioUsecase → Option α} (id : UsecaseId)
    (hread : read (playbackUsecase i out) = none) :
    ((listedOutput adev i out).getUsecaseFromId id).bind read =
      (adev.getUsecaseFromId id).bind read := by
  unfold AudioDevice.getUsecaseFromId
  rw [show (listedOutput adev i out).usecaseList =
    adev.usecaseList ++ [playbackUsecase i out] from rfl, List.find?_append]
  cases adev.usecaseList.find? (fun uc => uc.id = id) with
  | some uc => rfl
  | none =>
      rw [Option.none_or, List.find?_singleton]
      split
      · exact hread
      · rfl

/-- What is found before the output is listed is found behind it. -/
theorem getUsecaseFromId_listedOutput {f : UsecaseId} {uc : AudioUsecase}
    (h : adev.getUsecaseFromId f = some uc) :
    (listedOutput adev i out).getUsecaseFromId f = some uc := by
  unfold AudioDevice.getUsecaseFromId at h ⊢
  rw [show (listedOutput adev i out).usecaseList =
    adev.usecaseList ++ [playbackUsecase i out] from rfl, List.find?_append, h]
  rfl

/-- What is found behind it was there, or is the output's own entry. -/
theorem getUsecaseFromId_of_listedOutput {f : UsecaseId} {uc : AudioUsecase}
    (h : (listedOutput adev i out).getUsecaseFromId f = some uc) :
    adev.getUsecaseFromId f = some uc ∨ uc = playbackUsecase i out := by
  unfold AudioDevice.getUsecaseFromId at h ⊢
  rw [show (listedOutput adev i out).usecaseList =
    adev.usecaseList ++ [playbackUsecase i out] from rfl, List.find?_append] at h
  cases hfirst : adev.usecaseList.find? (fun uc => uc.id = f) with
  | some other =>
      rw [hfirst] at h
      exact Or.inl h
  | none =>
      rw [hfirst, Option.none_or, List.find?_singleton] at h
      split at h
      · exact Or.inr (Option.some.inj h).symm
      · cases h

theorem callOutSndDevice_listedOutput :
    callOutSndDevice (listedOutput adev i out) = callOutSndDevice adev := by
  unfold callOutSndDevice
  rw [find_listedOutput_bind adev i out .voiceCall rfl]
  rfl

theorem followingInput_listedOutput (stream : StreamRef) :
    followingInput asInput (listedOutput adev i out) stream =
      followingInput asInput (deviceListed adev i out) stream := by
  unfold followingInput
  rw [getCaptureOrCall_listedOutput]
  rfl

theorem chosenRoute_listedOutput (uc : AudioUsecase) :
    chosenRoute asInput (listedOutput adev i out) uc =
      chosenRoute asInput (deviceListed adev i out) uc := by
  have hview : ∀ ref, viewInput asInput (listedOutput adev i out) ref =
      viewInput asInput (deviceListed adev i out) ref := by
    intro ref
    cases ref <;> rfl
  have hcall : callInSndDevice (listedOutput adev i out) =
      callInSndDevice (deviceListed adev i out) := by
    unfold callInSndDevice
    rw [find_listedOutput_bind adev i out .voiceCall rfl]
    rfl
  have hstream : (listedOutput adev i out).getCaptureOrCall.map AudioUsecase.stream =
      (deviceListed adev i out).getCaptureOrCall.map AudioUsecase.stream := by
    rw [getCaptureOrCall_listedOutput]
    rfl
  exact chosenRoute_congr hview ⟨rfl, rfl⟩ ⟨rfl, rfl⟩ rfl hcall hstream uc

end Listed

/-- An output starts or leaves no trace: its PCM is ready or there is none, and its resampler
fails only where there is no PCM, no other use case with its id is listed before the one it
adds, and no input is rerouted meanwhile. -/
def OutputWhole (asInput : AsInput) (answers : StartAnswers) (adev : AudioDevice)
    (i : Nat) (out : StreamOut) : Prop :=
  ∀ p, getPcmDevice adev.profiles .pcmPlayback out.devices = some p →
    answers.pcmOpen p ≠ .notReady ∧
      (outResampler answers out.sampleRate adev.profiles p ≠ 0 →
        answers.pcmOpen p = .null ∧ OnlyCopies adev.usecaseList (playbackUsecase i out) ∧
          InputSettled asInput adev i out)

/-- `stop_output_stream`, wherever it returns. -/
theorem stopOutputStream_spec {adev adev' : AudioDevice} {i : Nat} {out : StreamOut}
    {uc : AudioUsecase} (hout : adev.outs i = some out)
    (hfind : adev.getUsecaseFromId out.usecase = some uc)
    (hrun : stopOutputStream adev i = some adev') :
    adev'.usecaseList = removeUsecase out.usecase adev.usecaseList ∧
      adev'.sndDevRefCnt = release adev.sndDevRefCnt (uc.outSndDevice.map .out) ∧
      adev'.handles = adev.handles := by
  simp only [stopOutputStream, hout, hfind, Option.bind_eq_bind, Option.bind_some] at hrun
  obtain ⟨released, hreleased, hrun⟩ := Option.bind_eq_some_iff.mp hrun
  cases hrun
  cases hstream : uc.stream with
  | inp j =>
      rw [hstream] at hreleased
      cases hreleased
  | out j =>
      rw [hstream] at hreleased
      obtain ⟨o, -, rfl⟩ := Option.map_eq_some_iff.mp hreleased
      exact ⟨rfl, rfl, rfl⟩

theorem stopOutputStream_handles {adev adev' : AudioDevice} {i : Nat}
    (hrun : stopOutputStream adev i = some adev') : adev'.handles = adev.handles := by
  obtain ⟨out, hout, -⟩ := Option.bind_eq_some_iff.mp hrun
  cases hfind : adev.getUsecaseFromId out.usecase with
  | none =>
      simp only [stopOutputStream, hout, hfind, Option.bind_eq_bind, Option.bind_some] at hrun
      cases hrun
      rfl
  | some uc => exact (stopOutputStream_spec hout hfind hrun).2.2

section FailedOutput

variable {asInput : AsInput} {depth : Nat} {adev mid : AudioDevice} {i : Nat} {out : StreamOut}

theorem outDevices_listedOutput (adev : AudioDevice) (i : Nat) (out : StreamOut) :
    outDevices (listedOutput adev i out) (.out i) = some out.devices := by
  simp [outDevices, listedOutput]

/-- What is left of the output's entry, which was the first with its id. -/
theorem removed_playback {uc : AudioUsecase} (hfind : mid.getUsecaseFromId out.usecase = some uc)
    {before after : List AudioUsecase} {cnt : SndDevice → Nat} {device : Option OutSndDevice}
    (hbefore : ∀ x ∈ before, x.id ≠ out.usecase)
    (hlist : mid.usecaseList =
      before ++ { playbackUsecase i out with outSndDevice := device } :: after)
    (hcnt : mid.sndDevRefCnt = acquire cnt (device.map .out)) :
    removeUsecase out.usecase mid.usecaseList = before ++ after ∧
      release mid.sndDevRefCnt (uc.outSndDevice.map .out) = cnt := by
  have hfirst : mid.getUsecaseFromId out.usecase = some
      { playbackUsecase i out with outSndDevice := device } :=
    getUsecaseFromId_of_split hlist hbefore
  rw [hfind] at hfirst
  cases hfirst
  rw [hlist, hcnt]
  exact ⟨removeUsecase_split hbefore rfl, release_acquire _ _⟩

/-- The selection of an input that is settled changes nothing. -/
theorem InputSettled.keeps (h : InputSettled asInput adev i out)
    (hhotword : out.usecase ≠ .audioCaptureHotword) (hcall : callOutSndDevice adev = none)
    {f : UsecaseId} {settled : AudioDevice}
    (hfollowing : followingInput asInput (listedOutput adev i out) (.out i) = some (some f))
    (hrun : selectDevices asInput depth (listedOutput adev i out) f = some settled) :
    settled = listedOutput adev i out := by
  have hcalled := (callOutSndDevice_listedOutput adev i out).trans hcall
  by_cases hf : f = .audioCaptureHotword
  · exact selectDevices_nothing (.inl hf) hrun
  cases hx : (listedOutput adev i out).getUsecaseFromId f with
  | none => exact selectDevices_nothing (.inr hx) hrun
  | some x =>
      have hstream := not_primary_of_selected hx hf hcalled hfollowing hrun
      obtain ⟨route, hroute, rfl⟩ := selectDevices_routed hx hf hcalled hstream hrun
      cases getUsecaseFromId_of_listedOutput adev i out hx with
      | inl hold =>
          rw [followingInput_listedOutput] at hfollowing
          rw [chosenRoute_listedOutput] at hroute
          rw [← h hhotword hcall f x route hfollowing hf hold hroute]
          exact switch_same_route hx
      | inr hself =>
          -- the output itself would follow
          rw [hself] at hstream
          exact absurd (primary_of_following hfollowing) (hstream rfl)

/-- Where the list is as it was but for the output's entry, the input that follows was settled. -/
theorem inputSettled_of_restored {uc : AudioUsecase}
    (hrun : selectDevices asInput depth (listedOutput adev i out) out.usecase = some mid)
    (hfind : mid.getUsecaseFromId out.usecase = some uc)
    (hlist : removeUsecase out.usecase mid.usecaseList = adev.usecaseList)
    (hcopies : OnlyCopies adev.usecaseList (playbackUsecase i out)) :
    InputSettled asInput adev i out := by
  intro hhotword hcall f x route hfollowing hf hx hroute
  obtain ⟨before, after, hl, hadded, hbefore, hafter⟩ := hcopies.split
  have hlisted : (listedOutput adev i out).usecaseList =
      before ++ playbackUsecase i out :: after := hadded
  have hfollowing : followingInput asInput (listedOutput adev i out) (.out i) = some (some f) :=
    (followingInput_listedOutput asInput adev i out _).trans hfollowing
  have hcalled := (callOutSndDevice_listedOutput adev i out).trans hcall
  obtain ⟨settled, uc', device, hsettled, huc', rfl⟩ := selectDevices_follows hlisted hbefore
    rfl (outDevices_listedOutput adev i out) hhotword
    (fun call h => by rw [callSndDevices_eq h, hcalled]) hfollowing hrun
  have hother : f ≠ out.usecase := by
    rintro rfl
    have hendless := @selectDevices_endless asInput (depth - 1) _ _ _
      (getUsecaseFromId_of_split hlisted hbefore) rfl hhotword hcalled hfollowing
    rw [show (playbackUsecase i out).id = out.usecase from rfl, hsettled] at hendless
    cases hendless
  -- the selection for the input leaves the entries beside its own
  have hfollowed := selectDevices_onlyFirst
    (fun stream g hg => followingInput_unique hfollowing hg) hsettled
  rw [hlisted] at hfollowed
  obtain ⟨before', e, hl', -, -, hbefore', he⟩ := hfollowed.tail rfl hbefore hafter
  rw [he hother] at hl'
  rw [getUsecaseFromId_of_split hl' hbefore'] at huc'
  cases huc'
  have hswitched := switchSndDevices_fresh hl' hbefore' rfl rfl device
  obtain ⟨hlist', -⟩ := removed_playback hfind hbefore'
    (congrArg AudioDevice.usecaseList hswitched) (congrArg AudioDevice.sndDevRefCnt hswitched)
  rw [hlist, hl] at hlist'
  have hsame : settled.usecaseList = (listedOutput adev i out).usecaseList := by
    rw [hl', ← List.append_cancel_right hlist', hlisted]
  have hx := getUsecaseFromId_listedOutput adev i out hx
  obtain ⟨route', hroute', rfl⟩ := selectDevices_routed hx hf hcalled
    (not_primary_of_selected hx hf hcalled hfollowing hsettled) hsettled
  rw [chosenRoute_listedOutput, hroute] at hroute'
  cases hroute'
  exact route_of_switch_same hx hsame

/-- The failed start of an output without a handle of its own leaves no trace exactly when the
entry it added is found first and no input was rerouted. -/
theorem failedOutput_iff {uc : AudioUsecase}
    (hrun : selectDevices asInput depth (listedOutput adev i out) out.usecase = some mid)
    (hfind : mid.getUsecaseFromId out.usecase = some uc) :
    (removeUsecase out.usecase mid.usecaseList = adev.usecaseList ∧
      release mid.sndDevRefCnt (uc.outSndDevice.map .out) = adev.sndDevRefCnt) ↔
      OnlyCopies adev.usecaseList (playbackUsecase i out) ∧
        InputSettled asInput adev i out := by
  constructor
  · rintro ⟨hlist, -⟩
    have hcopies := @onlyCopies_of_restored _ _ _ _ _ (playbackUsecase i out) rfl hrun hlist
    exact ⟨hcopies, inputSettled_of_restored hrun hfind hlist hcopies⟩
  · rintro ⟨hcopies, hsettled⟩
    obtain ⟨before, after, hl, hadded, hbefore, -⟩ := hcopies.split
    obtain ⟨device, hmid⟩ := @selectDevices_playback _ _ _ _ _ _ (playbackUsecase i out) hadded
      hbefore rfl rfl rfl (outDevices_listedOutput adev i out)
      (fun hhotword call f settled hcall hnone hfollowing hrun' => by
        have hcall : callOutSndDevice adev = none := by
          rw [← callOutSndDevice_listedOutput adev i out]
          rw [callSndDevices_eq hcall] at hnone
          exact hnone
        rw [hsettled.keeps hhotword hcall hfollowing hrun']
        exact ⟨rfl, rfl⟩) hrun
    rw [hl]
    exact removed_playback hfind hbefore (congrArg AudioDevice.usecaseList hmid)
      (congrArg AudioDevice.sndDevRefCnt hmid)

end FailedOutput

/-- A handle that was opened and not closed is left. -/
theorem not_restored_of_handle {adev adev' : AudioDevice} {x : PcmHandle}
    (hx : x ∈ adev'.handles) (hid : x.id = adev.freshHandle) : ¬ Restored adev adev' := by
  intro h
  have hlt := lt_freshHandle ((h.handles x).mp hx)
  omega

/-- `start_output_stream`, for every state and every answer: if it fails, nothing is left of
it exactly when the condition is met. -/
theorem startOutputStream_whole_iff {asInput : AsInput} {depth : Nat} {answers : StartAnswers}
    {adev adev' : AudioDevice} {i : Nat} {out : StreamOut} {ret : Int}
    (hout : adev.outs i = some out)
    (hrun : startOutputStream asInput depth answers adev i = some (ret, adev')) :
    (ret ≠ 0 → Restored adev adev') ↔ OutputWhole asInput answers adev i out := by
  obtain ⟨mid, hmid, hrun⟩ := Option.bind_eq_some_iff.mp hrun
  obtain ⟨hframe, hkeys, -⟩ := enableOutputPath_spec hout hmid
  rw [enableOutputPath_eq hout] at hmid
  obtain ⟨⟨ret', opened⟩, hopened, hrun⟩ := Option.bind_eq_some_iff.mp hrun
  unfold OutputWhole
  cases hprofile : getPcmDevice adev.profiles .pcmPlayback out.devices with
  | none =>
      have hmidout : mid.outs i = some { out with pcmDevList := [] } := by
        rw [hframe, selectedPcmDevices, hprofile]
        exact Function.update_self _ _ _
      rw [outOpenPcmDevices_nil hmidout rfl] at hopened
      cases hopened
      cases hrun
      exact ⟨fun _ => (by simp), fun _ hne => absurd rfl hne⟩
  | some p =>
      simp only [Option.some.injEq, forall_eq']
      have hmidout : mid.outs i = some { out with pcmDevList := [newPcmDevice p] } := by
        rw [hframe, selectedPcmDevices, hprofile]
        exact Function.update_self _ _ _
      have hmidprofiles : mid.profiles = adev.profiles := by rw [hframe]
      have hmidhandles : mid.handles = adev.handles := by rw [hframe]
      have hfresh : mid.freshHandle = adev.freshHandle := by
        unfold AudioDevice.freshHandle
        rw [hmidhandles]
      cases hopen : answers.pcmOpen p with
      | notReady =>
          rw [outOpenPcmDevices_notReady hmidout rfl hopen] at hopened
          cases hopened
          dsimp only at hrun
          rw [if_pos (by decide)] at hrun
          obtain ⟨stopped, hstopped, hrun⟩ := Option.bind_eq_some_iff.mp hrun
          cases hrun
          refine ⟨fun h => absurd (h (by decide)) ?_, fun h => absurd rfl h.1⟩
          refine @not_restored_of_handle _ _ ⟨mid.freshHandle, .out i, false⟩ ?_ hfresh
          rw [stopOutputStream_handles hstopped]
          exact List.mem_cons_self
      | ready =>
          obtain ⟨device, -, heq⟩ := outOpenPcmDevices_ready hmidout rfl hopen
          rw [heq, hmidprofiles] at hopened
          cases hopened
          dsimp only at hrun
          by_cases hres : outResampler answers out.sampleRate adev.profiles p = 0
          · rw [if_neg (not_not_intro hres)] at hrun
            cases hrun
            exact ⟨fun _ => ⟨(by simp), fun hne => absurd hres hne⟩, fun _ hne => absurd rfl hne⟩
          · rw [if_pos hres] at hrun
            obtain ⟨stopped, hstopped, hrun⟩ := Option.bind_eq_some_iff.mp hrun
            cases hrun
            refine ⟨fun h => absurd (h hres) ?_, fun h => absurd (h.2 hres).1 (by simp)⟩
            refine @not_restored_of_handle _ _ ⟨mid.freshHandle, .out i, true⟩ ?_ hfresh
            rw [stopOutputStream_handles hstopped]
            exact List.mem_cons_self
      | null =>
          obtain ⟨device, -, heq⟩ := outOpenPcmDevices_null hmidout rfl hopen
          rw [heq, hmidprofiles] at hopened
          cases hopened
          dsimp only at hrun
          by_cases hres : outResampler answers out.sampleRate adev.profiles p = 0
          · rw [if_neg (not_not_intro hres)] at hrun
            cases hrun
            exact ⟨fun _ => ⟨(by simp), fun hne => absurd hres hne⟩, fun _ hne => absurd rfl hne⟩
          · rw [if_pos hres] at hrun
            obtain ⟨stopped, hstopped, hrun⟩ := Option.bind_eq_some_iff.mp hrun
            cases hrun
            obtain ⟨uc, hfind⟩ := getUsecaseFromId_of_keys hkeys
            have hopenedout := Function.update_self i
              (some { out with pcmDevList := [device] }) mid.outs
            obtain ⟨hlist, hcounts, hhandles⟩ := @stopOutputStream_spec
              (mid.setOut i { out with pcmDevList := [device] }) _ _ _ uc hopenedout hfind hstopped
            have hiff := failedOutput_iff hmid hfind
            refine ⟨fun h => ⟨(by simp), fun _ => ⟨rfl, ?_⟩⟩, fun h _ => ?_⟩
            · exact hiff.mp ⟨hlist.symm.trans (h hres).usecases, hcounts.symm.trans (h hres).counts⟩
            · obtain ⟨hl, hc⟩ := hiff.mpr (h.2 hres).2
              refine ⟨hlist.trans hl, hcounts.trans hc, fun x => ?_⟩
              rw [hhandles]
              show x ∈ mid.handles ↔ _
              rw [hmidhandles]

/-- Both kinds of stream, for every state and every answer: a start that fails leaves no trace
exactly when the condition of its kind is met. -/
theorem startStream_whole_iff (asInput : AsInput) (depth : Nat) (answers : StartAnswers)
    (adev adev' : AudioDevice) (i : Nat) (ret : Int) :
    (∀ inp, adev.ins i = some inp →
      startInputStream asInput depth answers adev i = some (ret, adev') →
      ((ret ≠ 0 → Restored adev adev' ∧ adev'.activeInput ≠ some i) ↔
        InputWhole answers adev i inp)) ∧
    ∀ out, adev.outs i = some out →
      startOutputStream asInput depth answers adev i = some (ret, adev') →
      ((ret ≠ 0 → Restored adev adev') ↔ OutputWhole asInput answers adev i out) :=
  ⟨fun _ hinp hrun => startInputStream_whole_iff hinp hrun,
    fun _ hout hrun => startOutputStream_whole_iff hout hrun⟩

/-- No PCM gets ready. -/
def noneReady : StartAnswers := ⟨fun _ => .notReady, fun _ => 0, 1⟩

/-- The HAL with an output to the speaker and an input from the microphone, in standby. -/
def bothInStandby : Option AudioDevice :=
  (audioSystem readsAsDefault 2).run (fun _ _ => True)
    [.openOutputStream deviceOutSpeaker outputFlagPrimary, .openInputStream micRequest]
    (adevOpen false)

/-- The input whose PCM is not ready fails without a trace. -/
theorem startStream_whole_input : ∃ adev adev', bothInStandby = some adev ∧
    startInputStream readsAsDefault 2 noneReady adev 1 = some (-eio, adev') ∧
    Restored adev adev' ∧ adev'.activeInput ≠ some 1 := by
  refine ⟨_, _, rfl, rfl, ?_⟩
  refine (((startStream_whole_iff readsAsDefault 2 noneReady _ _ 1 (-eio)).1 _ rfl rfl).mpr
    fun p hp => ?_) (by decide)
  cases hp
  rw [if_pos (by decide)]
  exact fun x hx => absurd hx List.not_mem_nil

/-- The output whose PCM is not ready leaves its handle open. -/
theorem startStream_leaves_handle : ¬ ∀ asInput depth answers adev adev' i ret,
    (startInputStream asInput depth answers adev i = some (ret, adev') → ret ≠ 0 →
      Restored adev adev' ∧ adev'.activeInput ≠ some i) ∧
    (startOutputStream asInput depth answers adev i = some (ret, adev') → ret ≠ 0 →
      Restored adev adev') := by
  intro h
  have hhandles : bothInStandby.map AudioDevice.handles = some [] := by decide
  obtain ⟨adev, hadev, hclosed⟩ := Option.map_eq_some_iff.mp hhandles
  have hleft : (bothInStandby.bind fun adev =>
      startOutputStream readsAsDefault 2 noneReady adev 0).map (fun r => (r.1, r.2.handles)) =
        some (-eio, [⟨1, .out 0, false⟩]) := by
    decide
  obtain ⟨⟨ret, adev'⟩, hrun, hopen⟩ := Option.map_eq_some_iff.mp hleft
  rw [hadev, Option.bind_some] at hrun
  obtain ⟨rfl, hopen⟩ := Prod.mk.inj hopen
  have hrestored := (h _ _ _ _ _ _ _).2 hrun (by decide)
  have hmem := (hrestored.handles ⟨1, .out 0, false⟩).mp (by rw [hopen]; exact List.mem_cons_self)
  rw [hclosed] at hmem
  cases hmem

end DragonDevice.Audio
