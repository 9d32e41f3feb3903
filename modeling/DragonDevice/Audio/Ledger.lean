/-
  Audio/Ledger.lean --- the list of use cases beside the reference counts of the sound
  devices, and what routing does to the two.

  Selecting devices changes nothing else, keeps which use cases are listed, and keeps the
  counts in step with the list.
-/
import Mathlib.Data.List.Nodup
import DragonDevice.Audio.Hal

set_option autoImplicit false

namespace DragonDevice.Audio

open DragonDevice.Lib

/-! ## The list of use cases -/

/-- What routing leaves of a use case: its id, its type and its stream. -/
structure UsecaseKey where
  id : UsecaseId
  type : UsecaseType
  stream : StreamRef
  deriving DecidableEq, Repr

def AudioUsecase.key (uc : AudioUsecase) : UsecaseKey := ⟨uc.id, uc.type, uc.stream⟩

/-- The references of a use case to sound devices. -/
def AudioUsecase.held (uc : AudioUsecase) (d : SndDevice) : Nat :=
  refs (uc.outSndDevice.map .out) d + refs (uc.inSndDevice.map .inp) d

/-- A playback has no microphone and a capture no speaker. -/
def AudioUsecase.OneSided (uc : AudioUsecase) : Prop :=
  (uc.type = .pcmPlayback → uc.inSndDevice = none) ∧
    (uc.type = .pcmCapture → uc.outSndDevice = none)

/-- The list of use cases and the counts in order. -/
structure Ledger (l : List AudioUsecase) (cnt : SndDevice → Nat) : Prop where
  nodup : (l.map AudioUsecase.id).Nodup
  counts : Counts AudioUsecase.held cnt l
  oneSided : ∀ uc ∈ l, uc.OneSided

theorem modifyUsecase_split {id : UsecaseId} (f : AudioUsecase → AudioUsecase)
    {before after : List AudioUsecase} {uc : AudioUsecase}
    (hbefore : ∀ x ∈ before, x.id ≠ id) (huc : uc.id = id) :
    modifyUsecase id f (before ++ uc :: after) = before ++ f uc :: after := by
  induction before with
  | nil => simp [modifyUsecase, huc]
  | cons x before ih =>
      have hx := hbefore x List.mem_cons_self
      have hrest := ih fun y hy => hbefore y (List.mem_cons_of_mem _ hy)
      simp only [List.cons_append, modifyUsecase, if_neg hx, hrest]

theorem removeUsecase_split {id : UsecaseId} {before after : List AudioUsecase}
    {uc : AudioUsecase} (hbefore : ∀ x ∈ before, x.id ≠ id) (huc : uc.id = id) :
    removeUsecase id (before ++ uc :: after) = before ++ after := by
  unfold removeUsecase
  rw [List.eraseP_append_right _ (by simpa using hbefore),
    List.eraseP_cons_of_pos (by simpa using huc)]

/-- The use case with an id, and the list around it. -/
theorem getUsecaseFromId_split {adev : AudioDevice} {id : UsecaseId} {uc : AudioUsecase}
    (h : adev.getUsecaseFromId id = some uc) :
    uc.id = id ∧ ∃ before after, adev.usecaseList = before ++ uc :: after ∧
      ∀ x ∈ before, x.id ≠ id := by
  obtain ⟨huc, before, after, hl, hbefore⟩ := List.find?_eq_some_iff_append.mp h
  refine ⟨by simpa using huc, before, after, hl, fun x hx => ?_⟩
  simpa using hbefore x hx

theorem getUsecaseFromId_mem {adev : AudioDevice} {id : UsecaseId} {uc : AudioUsecase}
    (h : adev.getUsecaseFromId id = some uc) : uc ∈ adev.usecaseList ∧ uc.id = id :=
  ⟨List.mem_of_find?_eq_some h, (getUsecaseFromId_split h).1⟩

theorem getUsecaseFromId_eq_none {adev : AudioDevice} {id : UsecaseId} :
    adev.getUsecaseFromId id = none ↔ ∀ uc ∈ adev.usecaseList, uc.id ≠ id := by
  unfold AudioDevice.getUsecaseFromId
  rw [List.find?_eq_none]
  simp

/-- With ids that are distinct, a use case is found by its id. -/
theorem getUsecaseFromId_of_mem {adev : AudioDevice} {uc : AudioUsecase}
    (hnodup : (adev.usecaseList.map AudioUsecase.id).Nodup) (huc : uc ∈ adev.usecaseList) :
    adev.getUsecaseFromId uc.id = some uc := by
  cases hfind : adev.getUsecaseFromId uc.id with
  | none => exact absurd rfl (getUsecaseFromId_eq_none.mp hfind uc huc)
  | some uc' =>
      obtain ⟨hmem, hid⟩ := getUsecaseFromId_mem hfind
      rw [List.inj_on_of_nodup_map hnodup hmem huc hid]

theorem map_key_modifyUsecase (id : UsecaseId) {f : AudioUsecase → AudioUsecase}
    (hf : ∀ uc, (f uc).key = uc.key) (l : List AudioUsecase) :
    (modifyUsecase id f l).map AudioUsecase.key = l.map AudioUsecase.key := by
  induction l with
  | nil => rfl
  | cons uc l ih =>
      unfold modifyUsecase
      split
      · rw [List.map_cons, List.map_cons, hf]
      · rw [List.map_cons, List.map_cons, ih]

/-! ## Changes of the ledger -/

section Changes

variable {l : List AudioUsecase} {cnt : SndDevice → Nat}

/-- A use case without sound devices joins under an id of its own. -/
theorem Ledger.add (h : Ledger l cnt) {uc : AudioUsecase} (hid : ∀ x ∈ l, x.id ≠ uc.id)
    (hout : uc.outSndDevice = none) (hinp : uc.inSndDevice = none) :
    Ledger (l ++ [uc]) cnt where
  nodup := by
    rw [List.map_append, List.nodup_append]
    refine ⟨h.nodup, List.nodup_singleton _, ?_⟩
    intro a ha b hb
    obtain ⟨x, hx, rfl⟩ := List.mem_map.mp ha
    rw [List.mem_singleton.mp hb]
    exact hid x hx
  counts := h.counts.add fun d => by simp [AudioUsecase.held, hout, hinp]
  oneSided := by
    intro x hx
    rcases List.mem_append.mp hx with hx | hx
    · exact h.oneSided x hx
    · rw [List.mem_singleton.mp hx]
      exact ⟨fun _ => hinp, fun _ => hout⟩

/-- A use case leaves, and its sound devices are released. -/
theorem Ledger.remove {before after : List AudioUsecase} {uc : AudioUsecase}
    {cnt' : SndDevice → Nat} (h : Ledger (before ++ uc :: after) cnt)
    (hcnt : ∀ d, cnt' d = cnt d - uc.held d) : Ledger (before ++ after) cnt' where
  nodup := by
    refine h.nodup.sublist (List.Sublist.map _ ?_)
    exact (List.Sublist.refl before).append (List.sublist_cons_self uc after)
  counts := h.counts.remove hcnt
  oneSided := by
    intro x hx
    refine h.oneSided x ?_
    rcases List.mem_append.mp hx with hx | hx
    · exact List.mem_append_left _ hx
    · exact List.mem_append_right _ (List.mem_cons_of_mem _ hx)

/-- A use case changes over to other sound devices. -/
theorem Ledger.replace {before after : List AudioUsecase} {uc uc' : AudioUsecase}
    {cnt' : SndDevice → Nat} (h : Ledger (before ++ uc :: after) cnt) (hid : uc'.id = uc.id)
    (hside : uc'.OneSided) (hcnt : ∀ d, cnt' d = cnt d - uc.held d + uc'.held d) :
    Ledger (before ++ uc' :: after) cnt' where
  nodup := by
    have hnodup := h.nodup
    rw [List.map_append, List.map_cons] at hnodup ⊢
    rwa [hid]
  counts := h.counts.replace hcnt
  oneSided := by
    intro x hx
    rcases List.mem_append.mp hx with hx | hx
    · exact h.oneSided x (List.mem_append_left _ hx)
    · rcases List.mem_cons.mp hx with rfl | hx
      · exact hside
      · exact h.oneSided x (List.mem_append_right _ (List.mem_cons_of_mem _ hx))

end Changes

/-! ## Routing -/

/-- What selecting devices does to the device: the use cases stay listed, the ledger stays in
order, and nothing else changes. -/
structure Reselected (adev adev' : AudioDevice) : Prop where
  frame : adev' =
    { adev with usecaseList := adev'.usecaseList, sndDevRefCnt := adev'.sndDevRefCnt }
  keys : adev'.usecaseList.map AudioUsecase.key = adev.usecaseList.map AudioUsecase.key
  ledger : Ledger adev.usecaseList adev.sndDevRefCnt →
    Ledger adev'.usecaseList adev'.sndDevRefCnt

theorem Reselected.refl (adev : AudioDevice) : Reselected adev adev := ⟨rfl, rfl, id⟩

theorem Reselected.trans {a b c : AudioDevice} (h₁ : Reselected a b) (h₂ : Reselected b c) :
    Reselected a c where
  frame := by
    have hb := h₁.frame
    have hc := h₂.frame
    rw [hb] at hc
    exact hc
  keys := h₂.keys.trans h₁.keys
  ledger := fun h => h₂.ledger (h₁.ledger h)

/-- A use case is found under the same key. -/
theorem Reselected.key_eq {adev adev' : AudioDevice} (h : Reselected adev adev')
    {id : UsecaseId} {uc uc' : AudioUsecase} (huc : adev.getUsecaseFromId id = some uc)
    (huc' : adev'.getUsecaseFromId id = some uc') : uc'.key = uc.key := by
  have hkey : ∀ a : AudioDevice, (a.getUsecaseFromId id).map AudioUsecase.key =
      (a.usecaseList.map AudioUsecase.key).find? fun key => key.id = id := by
    intro a
    rw [List.find?_map]
    rfl
  have heq := (hkey adev').trans ((congrArg _ h.keys).trans (hkey adev).symm)
  rw [huc, huc'] at heq
  exact Option.some.inj heq

theorem setUsecaseDevices_reselected (adev : AudioDevice) (id : UsecaseId)
    (devices : AudioDevices) : Reselected adev (setUsecaseDevices adev id devices) where
  frame := rfl
  keys := by
    refine map_key_modifyUsecase id ?_ _
    exact fun _ => rfl
  ledger := by
    intro h
    cases hfind : adev.getUsecaseFromId id with
    | none =>
        have hall := getUsecaseFromId_eq_none.mp hfind
        have hsame : ∀ l : List AudioUsecase, (∀ uc ∈ l, uc.id ≠ id) →
            modifyUsecase id (fun uc => { uc with devices := devices }) l = l := by
          intro l
          induction l with
          | nil => exact fun _ => rfl
          | cons uc l ih =>
              intro hl
              unfold modifyUsecase
              rw [if_neg (hl uc List.mem_cons_self),
                ih fun x hx => hl x (List.mem_cons_of_mem _ hx)]
        unfold setUsecaseDevices
        rwa [hsame _ hall]
    | some uc =>
        obtain ⟨hid, before, after, hl, hbefore⟩ := getUsecaseFromId_split hfind
        unfold setUsecaseDevices
        dsimp only
        rw [hl, modifyUsecase_split _ hbefore hid]
        rw [hl] at h
        refine h.replace rfl (h.oneSided uc (by simp)) fun d => ?_
        have hd := h.counts d
        rw [totalRefs_middle] at hd
        show adev.sndDevRefCnt d = adev.sndDevRefCnt d - uc.held d + uc.held d
        omega

/-- The change to the sound devices of a use case that is listed with the ones it had. -/
theorem switchSndDevices_reselected {adev : AudioDevice} {uc found : AudioUsecase}
    (hfind : adev.getUsecaseFromId uc.id = some found)
    (hsame : found.outSndDevice = uc.outSndDevice ∧ found.inSndDevice = uc.inSndDevice)
    {out : Option OutSndDevice} {inp : Option InSndDevice}
    (hplay : found.type = .pcmPlayback → inp = none)
    (hcapture : found.type = .pcmCapture → out = none) :
    Reselected adev (switchSndDevices adev uc out inp) := by
  unfold switchSndDevices
  split
  · exact .refl adev
  · simp only [enableSndDevice, disableSndDevice]
    refine ⟨rfl, ?_, fun h => ?_⟩
    · refine map_key_modifyUsecase uc.id ?_ _
      exact fun _ => rfl
    obtain ⟨hid, before, after, hl, hbefore⟩ := getUsecaseFromId_split hfind
    obtain ⟨hout, hinp⟩ := hsame
    rw [hl, modifyUsecase_split _ hbefore hid]
    rw [hl] at h
    refine h.replace rfl ⟨hplay, hcapture⟩ fun d => ?_
    have hd := h.counts d
    rw [totalRefs_middle] at hd
    simp only [acquire_apply, release_apply, AudioUsecase.held, hout, hinp] at hd ⊢
    omega

/-- The use case found by its id after its devices were set. -/
theorem getUsecaseFromId_setUsecaseDevices {adev : AudioDevice} {id : UsecaseId}
    {uc : AudioUsecase} (h : adev.getUsecaseFromId id = some uc) (devices : AudioDevices) :
    (setUsecaseDevices adev id devices).getUsecaseFromId id =
      some { uc with devices := devices } := by
  obtain ⟨hid, before, after, hl, hbefore⟩ := getUsecaseFromId_split h
  unfold AudioDevice.getUsecaseFromId setUsecaseDevices
  dsimp only
  rw [hl, modifyUsecase_split _ hbefore hid, List.find?_append,
    List.find?_eq_none.mpr (by simpa using hbefore)]
  simp [hid]

/-- The devices of a use case are set, and it changes over to sound devices for its side. -/
theorem setAndSwitch_reselected {adev : AudioDevice} {id : UsecaseId} {uc : AudioUsecase}
    (hfind : adev.getUsecaseFromId id = some uc) (devices : AudioDevices)
    {out : Option OutSndDevice} {inp : Option InSndDevice}
    (hplay : uc.type = .pcmPlayback → inp = none)
    (hcapture : uc.type = .pcmCapture → out = none) :
    Reselected adev (switchSndDevices (setUsecaseDevices adev id devices) uc out inp) := by
  have hid := (getUsecaseFromId_mem hfind).2
  have hset := getUsecaseFromId_setUsecaseDevices hfind devices
  rw [← hid] at hset ⊢
  exact (setUsecaseDevices_reselected adev uc.id devices).trans
    (switchSndDevices_reselected hset ⟨rfl, rfl⟩ hplay hcapture)

/-- Selecting devices, however deep. -/
theorem selectDevices_reselected {asInput : AsInput} {depth : Nat} {adev adev' : AudioDevice}
    {id : UsecaseId} (h : selectDevices asInput depth adev id = some adev') :
    Reselected adev adev' := by
  induction depth generalizing adev adev' id with
  | zero => cases h
  | succ depth ih =>
      unfold selectDevices at h
      split at h
      · cases h
        exact .refl adev
      split at h
      · cases h
        exact .refl adev
      rename_i uc hfind
      split at h
      · -- the voice call has both sides
        rename_i htype
        obtain ⟨devices, -, h⟩ := Option.bind_eq_some_iff.mp h
        obtain ⟨inp, -, h⟩ := Option.bind_eq_some_iff.mp h
        cases h
        exact setAndSwitch_reselected hfind _ (by simp [htype]) (by simp [htype])
      · rename_i htype
        obtain ⟨call, -, h⟩ := Option.bind_eq_some_iff.mp h
        obtain ⟨devices, -, h⟩ := Option.bind_eq_some_iff.mp h
        dsimp only at h
        split at h
        · cases h
          exact setAndSwitch_reselected hfind _ (by simp) (by simp [htype])
        · obtain ⟨following, -, h⟩ := Option.bind_eq_some_iff.mp h
          split at h
          · cases h
            exact setAndSwitch_reselected hfind _ (by simp) (by simp [htype])
          · -- the input is selected again in between, which leaves the types alone
            obtain ⟨mid, hmid, h⟩ := Option.bind_eq_some_iff.mp h
            obtain ⟨uc', huc', h⟩ := Option.bind_eq_some_iff.mp h
            cases h
            have hmid := (setUsecaseDevices_reselected adev id devices).trans (ih hmid)
            have htype' := congrArg UsecaseKey.type (hmid.key_eq hfind huc')
            rw [← (getUsecaseFromId_mem huc').2] at huc'
            refine hmid.trans (switchSndDevices_reselected huc' ⟨rfl, rfl⟩ (fun _ => rfl) ?_)
            intro hcapture
            rw [show uc'.type = uc.type from htype', htype] at hcapture
            cases hcapture
      · rename_i htype
        obtain ⟨call, -, h⟩ := Option.bind_eq_some_iff.mp h
        obtain ⟨devices, -, h⟩ := Option.bind_eq_some_iff.mp h
        dsimp only at h
        split at h
        · cases h
          exact setAndSwitch_reselected hfind _ (by simp [htype]) (by simp)
        · obtain ⟨inp, -, h⟩ := Option.bind_eq_some_iff.mp h
          cases h
          exact setAndSwitch_reselected hfind _ (by simp [htype]) (by simp)
      · rename_i htype
        obtain ⟨call, -, h⟩ := Option.bind_eq_some_iff.mp h
        cases h
        rw [← (getUsecaseFromId_mem hfind).2] at hfind
        exact switchSndDevices_reselected hfind ⟨rfl, rfl⟩ (by simp [htype]) (by simp [htype])

end DragonDevice.Audio
