/-
  Hwc/ModeBlobs.lean --- who owns the property blobs of the modes.

  A modeset creates a blob for its mode, and the frame that carries it out destroys
  the blob of the mode before.  The ids live in `mode_.blob_id` and
  `mode_.old_blob_id`; a call that fails between two assignments can leave an id of a
  blob that is gone, or a blob without an id.  The modeset is handled by `worker_` and
  the frame committed by `frame_worker_`, and no lock keeps the two apart, so the
  accesses of one come between those of the other.
-/
import Mathlib.Data.List.Nodup
import DragonDevice.Hwc.CommitHonest
import DragonDevice.Lib.Transition

set_option autoImplicit false

namespace DragonDevice.Hwc

open DragonDevice.Lib

variable {F M : Type}

/-! ## The kernel's blobs -/

/-- The blobs that have been created and not destroyed, and the calls that tried to
destroy one that was gone. -/
structure KernelBlobs where
  live : List (BitVec 32)
  deadDestroys : List (BitVec 32)
  deriving DecidableEq, Repr

def KernelBlobs.call (k : KernelBlobs) : BlobCall → KernelBlobs
  | .create id => { k with live := k.live ++ [id] }
  | .destroy id done =>
      if id ∈ k.live then { k with live := if done then k.live.erase id else k.live }
      else { k with deadDestroys := k.deadDestroys ++ [id] }

def KernelBlobs.calls (k : KernelBlobs) (l : List BlobCall) : KernelBlobs := l.foldl call k

/-! ## The code -/

/-- `CreateModeBlob`, for the result and the id of the kernel's call. -/
def createModeBlob (createBlob : Int × BitVec 32) : Int × BitVec 32 × List BlobCall :=
  if createBlob.1 ≠ 0 then (createBlob.1, 0#32, []) else (0, createBlob.2, [.create createBlob.2])

/-- `Composite` of a `DRM_COMPOSITION_TYPE_MODESET`; the result of the destroy is not
looked at. -/
def compositeModeset (mode : ModeState M) (displayMode : M) (destroyBlob : Int)
    (createBlob : Int × BitVec 32) : Int × ModeState M × List BlobCall :=
  let destroyed :=
    if mode.blobId ≠ 0#32 then (destroyPropertyBlob mode.blobId destroyBlob).2 else []
  let (ret, blobId, created) := createModeBlob createBlob
  let mode := { mode with mode := displayMode, blobId }
  if ret ≠ 0 then (ret, mode, destroyed ++ created)
  else (0, { mode with needsModeset := true }, destroyed ++ created)

/-- The destructor of `DrmDisplayCompositor`, with the results of its two calls. -/
def destructCompositor (mode : ModeState M) (destroyBlob destroyOldBlob : Int) : List BlobCall :=
  (if mode.blobId ≠ 0#32 then (destroyPropertyBlob mode.blobId destroyBlob).2 else []) ++
  (if mode.oldBlobId ≠ 0#32 then (destroyPropertyBlob mode.oldBlobId destroyOldBlob).2 else [])

/-! ## The two threads -/

/-- Where `worker_` is in the handling of a modeset. -/
inductive ModesetPc where
  | idle
  /-- `mode_.mode` is set -/
  | destroy
  | create
  /-- `CreateModeBlob` has returned -/
  | store (ret : Int) (blobId : BitVec 32)
  | setPending
  deriving DecidableEq, Repr

/-- Where `frame_worker_` is in `CommitFrame` behind the commit. -/
inductive FramePc where
  | idle
  | checkPending
  | destroyOld
  | applyDpms
  | activate
  | takeBlob
  | clearBlob
  | clearPending
  deriving DecidableEq, Repr

/-- A compositor and the kernel. -/
structure ModeSystemState (M : Type) where
  mode : ModeState M
  activeMode : M
  kernel : KernelBlobs
  worker : ModesetPc
  frame : FramePc
  deriving DecidableEq, Repr

/-- One access to `mode_` or call of the kernel, with what it answers.  `test` is a commit of
`worker_` that is a test, and `commit` what `CommitFrame` does up to the commit; both only read
`mode_`. -/
inductive ModeEvent (F M : Type) where
  | modeset (displayMode : M)
  | destroyPending (result : Int)
  | createBlob (createBlob : Int × BitVec 32)
  | storeBlob
  | setPending
  | test (input : CommitInput F)
  | commit (input : CommitInput F)
  | checkPending
  | destroyOld (result : Int)
  | applyDpms (result : Int)
  | activate
  | takeBlob
  | clearBlob
  | clearPending

/-- The two threads on a compositor, their steps in any order. -/
def modeSystem (F M : Type) [Sub F] : System (ModeSystemState M) (ModeEvent F M) where
  start := fun s => s.mode.needsModeset = false ∧ s.mode.blobId = 0#32 ∧
    s.mode.oldBlobId = 0#32 ∧ s.kernel = ⟨[], []⟩ ∧ s.worker = .idle ∧ s.frame = .idle
  next := fun s e =>
    match e with
    | .modeset displayMode =>
        if s.worker = .idle then
          some { s with mode := { s.mode with mode := displayMode }, worker := .destroy }
        else none
    | .destroyPending result =>
        if s.worker = .destroy then
          some { s with
            kernel := s.kernel.calls
              (if s.mode.blobId ≠ 0#32 then (destroyPropertyBlob s.mode.blobId result).2 else [])
            worker := .create }
        else none
    | .createBlob result =>
        if s.worker = .create then
          some { s with
            kernel := s.kernel.calls (createModeBlob result).2.2
            worker := .store (createModeBlob result).1 (createModeBlob result).2.1 }
        else none
    | .storeBlob =>
        match s.worker with
        | .store ret blobId =>
            some { s with
              mode := { s.mode with blobId }
              worker := if ret ≠ 0 then .idle else .setPending }
        | _ => none
    | .setPending =>
        if s.worker = .setPending then
          some { s with mode := { s.mode with needsModeset := true }, worker := .idle }
        else none
    | .test input =>
        if s.worker = .idle then (commitSet input true s.mode).map fun _ => s else none
    | .commit input =>
        if s.frame = .idle then
          (commitSet input false s.mode).map fun
            | .returned _ => s
            | .goesOn _ _ => { s with frame := .checkPending }
        else none
    | .checkPending =>
        if s.frame = .checkPending then
          some { s with frame := if s.mode.needsModeset then .destroyOld else .idle }
        else none
    | .destroyOld result =>
        if s.frame = .destroyOld then
          some { s with
            kernel := s.kernel.calls (destroyPropertyBlob s.mode.oldBlobId result).2
            frame := if (destroyPropertyBlob s.mode.oldBlobId result).1 ≠ 0 then .idle
              else .applyDpms }
        else none
    | .applyDpms result =>
        if s.frame = .applyDpms then
          some { s with frame := if result ≠ 0 then .idle else .activate }
        else none
    | .activate =>
        if s.frame = .activate then
          some { s with activeMode := s.mode.mode, frame := .takeBlob }
        else none
    | .takeBlob =>
        if s.frame = .takeBlob then
          some { s with
            mode := { s.mode with oldBlobId := s.mode.blobId }
            frame := .clearBlob }
        else none
    | .clearBlob =>
        if s.frame = .clearBlob then
          some { s with mode := { s.mode with blobId := 0#32 }, frame := .clearPending }
        else none
    | .clearPending =>
        if s.frame = .clearPending then
          some { s with mode := { s.mode with needsModeset := false }, frame := .idle }
        else none

/-- Neither a modeset is handled nor a frame committed. -/
def ModeSystemState.Quiet (s : ModeSystemState M) : Prop := s.worker = .idle ∧ s.frame = .idle

/-- The kernel gives a new blob an id that is not 0 and not in use. -/
def KernelOk (s : ModeSystemState M) : ModeEvent F M → Prop
  | .createBlob result => result.1 = 0 → result.2 ≠ 0#32 ∧ result.2 ∉ s.kernel.live
  | _ => True

/-- The calls that must not fail, and the steps that must not come while the other thread is at
work. -/
def ModeStepOk (s : ModeSystemState M) : ModeEvent F M → Prop
  | .modeset _ => s.frame = .idle
  | .commit _ => s.worker = .idle
  | .destroyPending result => s.mode.blobId ≠ 0#32 → result = 0
  | .createBlob result => s.mode.needsModeset = true → result.1 = 0
  | .applyDpms result => s.mode.oldBlobId ≠ 0#32 → result = 0
  | _ => True

instance (s : ModeSystemState M) (e : ModeEvent F M) : Decidable (KernelOk s e) :=
  match e with
  | .createBlob result =>
      inferInstanceAs (Decidable (result.1 = 0 → result.2 ≠ 0#32 ∧ result.2 ∉ s.kernel.live))
  | .modeset _ | .destroyPending _ | .storeBlob | .setPending | .test _ | .commit _
  | .checkPending | .destroyOld _ | .applyDpms _ | .activate | .takeBlob | .clearBlob
  | .clearPending => .isTrue trivial

instance (s : ModeSystemState M) (e : ModeEvent F M) : Decidable (ModeStepOk s e) :=
  match e with
  | .modeset _ => inferInstanceAs (Decidable (s.frame = .idle))
  | .commit _ => inferInstanceAs (Decidable (s.worker = .idle))
  | .destroyPending result => inferInstanceAs (Decidable (s.mode.blobId ≠ 0#32 → result = 0))
  | .createBlob result => inferInstanceAs (Decidable (s.mode.needsModeset = true → result.1 = 0))
  | .applyDpms result => inferInstanceAs (Decidable (s.mode.oldBlobId ≠ 0#32 → result = 0))
  | .storeBlob | .setPending | .test _ | .checkPending | .destroyOld _ | .activate | .takeBlob
  | .clearBlob | .clearPending => .isTrue trivial

/-! ## The threads on their own -/

section Alone

variable [Sub F] {s : ModeSystemState M}

/-- The steps of a modeset. -/
def modesetEvents (displayMode : M) (destroyBlob : Int) (createBlob : Int × BitVec 32) :
    List (ModeEvent F M) :=
  [.modeset displayMode, .destroyPending destroyBlob, .createBlob createBlob, .storeBlob] ++
    if createBlob.1 ≠ 0 then [] else [.setPending]

/-- A modeset that nothing comes between. -/
theorem modeset_alone (hworker : s.worker = .idle) (displayMode : M) (destroyBlob : Int)
    (createBlob : Int × BitVec 32) :
    (modesetEvents displayMode destroyBlob createBlob).foldlM (modeSystem F M).next s =
      some { s with
        mode := (compositeModeset s.mode displayMode destroyBlob createBlob).2.1
        kernel := s.kernel.calls
          (compositeModeset s.mode displayMode destroyBlob createBlob).2.2 } := by
  obtain ⟨mode, activeMode, kernel, worker, frame⟩ := s
  cases hworker
  unfold modesetEvents compositeModeset createModeBlob
  by_cases hret : createBlob.1 = 0
  · simp [modeSystem, createModeBlob, hret, KernelBlobs.calls]
  · simp [modeSystem, createModeBlob, hret, KernelBlobs.calls]

/-- The steps of a frame behind its commit, in a mode. -/
def finishEvents (outcomes : CommitOutcomes) (mode : ModeState M) : List (ModeEvent F M) :=
  if mode.needsModeset then
    .checkPending :: .destroyOld outcomes.destroyBlob ::
      if (destroyPropertyBlob mode.oldBlobId outcomes.destroyBlob).1 ≠ 0 then []
      else .applyDpms outcomes.setDpms ::
        if outcomes.setDpms ≠ 0 then [] else [.activate, .takeBlob, .clearBlob, .clearPending]
  else [.checkPending]

/-- The end of a frame that nothing comes between. -/
theorem finish_alone (hframe : s.frame = .checkPending) (outcomes : CommitOutcomes) (ret : Int)
    (committed : Option (List Property)) :
    (finishEvents outcomes s.mode).foldlM (modeSystem F M).next s =
      some { s with
        mode := (finishModeset outcomes false s.mode s.activeMode ret committed).mode
        activeMode := (finishModeset outcomes false s.mode s.activeMode ret committed).activeMode
        kernel := s.kernel.calls
          (finishModeset outcomes false s.mode s.activeMode ret committed).blobCalls
        frame := .idle } := by
  obtain ⟨mode, activeMode, kernel, worker, frame⟩ := s
  cases hframe
  unfold finishEvents finishModeset
  cases hneeds : mode.needsModeset with
  | false => simp [modeSystem, hneeds, KernelBlobs.calls]
  | true =>
      by_cases hdestroy : (destroyPropertyBlob mode.oldBlobId outcomes.destroyBlob).1 = 0
      · by_cases hdpms : outcomes.setDpms = 0
        · simp [modeSystem, hneeds, hdestroy, hdpms, KernelBlobs.calls]
        · simp [modeSystem, hneeds, hdestroy, hdpms, KernelBlobs.calls]
      · simp [modeSystem, hneeds, hdestroy, KernelBlobs.calls]

/-- A frame that nothing comes between. -/
theorem frame_alone (hframe : s.frame = .idle) {input : CommitInput F} {result : CommitResult M}
    (hrun : commitFrame input false s.mode s.activeMode = some result) :
    ∃ events : List (ModeEvent F M), events.foldlM (modeSystem F M).next s =
      some { s with
        mode := result.mode
        activeMode := result.activeMode
        kernel := s.kernel.calls result.blobCalls } := by
  obtain ⟨c, hset, rfl⟩ := Option.map_eq_some_iff.mp hrun
  have hcommit : (modeSystem F M).next s (.commit input) =
      some (match c with
        | .returned _ => s
        | .goesOn _ _ => { s with frame := .checkPending }) := by
    simp only [modeSystem, hframe, if_true, hset, Option.map_some]
    cases c <;> rfl
  cases c with
  | returned ret =>
      refine ⟨[.commit input], ?_⟩
      rw [List.foldlM_cons, hcommit]
      rfl
  | goesOn ret committed =>
      refine ⟨.commit input :: finishEvents input.outcomes s.mode, ?_⟩
      rw [List.foldlM_cons, hcommit]
      refine (@finish_alone F M _ { s with frame := .checkPending } rfl input.outcomes ret
        committed).trans ?_
      rw [← hframe]
      rfl

end Alone

/-! ## The property -/

/-- The blob of a pending mode is live, no call destroys a blob that is gone, and the
compositor has the id of every live blob. -/
structure BlobsOwned (s : ModeSystemState M) : Prop where
  pending : s.mode.needsModeset = true → s.mode.blobId ∈ s.kernel.live
  once : s.kernel.deadDestroys = []
  owned : ∀ id ∈ s.kernel.live, id = s.mode.blobId ∨ id = s.mode.oldBlobId

/-! ## The invariant -/

/-- Both ids are 0 or those of live blobs, and there are no others. -/
structure BlobInv (mode : ModeState M) (kernel : KernelBlobs) : Prop where
  needs : mode.needsModeset = true ↔ mode.blobId ≠ 0#32
  blob : mode.blobId ≠ 0#32 → mode.blobId ∈ kernel.live
  oldBlob : mode.oldBlobId ≠ 0#32 → mode.oldBlobId ∈ kernel.live
  apart : mode.blobId ≠ 0#32 → mode.blobId ≠ mode.oldBlobId
  owned : ∀ id ∈ kernel.live, id = mode.blobId ∨ id = mode.oldBlobId
  nonzero : 0#32 ∉ kernel.live
  nodup : kernel.live.Nodup
  once : kernel.deadDestroys = []

/-- The mode without a modeset pending. -/
def ModeState.withoutPending (mode : ModeState M) : ModeState M :=
  { mode with blobId := 0#32, needsModeset := false }

/-- What becomes of the mode with the kernel's calls of a modeset so far. -/
def ModesetPc.ahead (mode : ModeState M) : ModesetPc → ModeState M
  | .idle | .destroy => mode
  | .create => mode.withoutPending
  | .store ret blobId =>
      if ret ≠ 0 then mode.withoutPending else { mode with blobId, needsModeset := true }
  | .setPending => { mode with needsModeset := true }

/-- What becomes of the mode with the kernel's calls and the assignments of a frame so far. -/
def FramePc.ahead (mode : ModeState M) : FramePc → ModeState M
  | .idle | .checkPending | .destroyOld => mode
  | .applyDpms | .activate | .takeBlob => { mode with oldBlobId := 0#32 }
  | .clearBlob => mode.withoutPending
  | .clearPending => { mode with needsModeset := false }

/-- Behind the check for a pending mode, and before the ids rotate. -/
def FramePc.Rotating (pc : FramePc) : Prop :=
  pc = .destroyOld ∨ pc = .applyDpms ∨ pc = .activate ∨ pc = .takeBlob

theorem FramePc.Rotating.ne {pc : FramePc} (h : pc.Rotating) :
    pc ≠ .idle ∧ pc ≠ .checkPending ∧ pc ≠ .clearBlob ∧ pc ≠ .clearPending := by
  rcases h with rfl | rfl | rfl | rfl <;> decide

/-- One thread at most is at work, and the ids are in order with what it has done. -/
structure StepInv (s : ModeSystemState M) : Prop where
  alone : s.worker = .idle ∨ s.frame = .idle
  blobs : BlobInv (s.frame.ahead (s.worker.ahead s.mode)) s.kernel
  failed : ∀ ret blobId, s.worker = .store ret blobId → ret ≠ 0 →
    blobId = 0#32 ∧ s.mode.needsModeset = false
  rotating : s.frame.Rotating → s.mode.needsModeset = true

theorem calls_append (k : KernelBlobs) (l l' : List BlobCall) :
    k.calls (l ++ l') = (k.calls l).calls l' := List.foldl_append

/-- A test for the id 0 in front of `DestroyPropertyBlob` changes nothing. -/
theorem destroyPropertyBlob_guarded (id : BitVec 32) (result : Int) :
    (if id ≠ 0#32 then (destroyPropertyBlob id result).2 else []) =
      (destroyPropertyBlob id result).2 := by
  unfold destroyPropertyBlob
  by_cases hzero : id = 0#32
  · simp [hzero]
  · simp [hzero]

/-- Destroying a live blob, or nothing. -/
theorem calls_destroy {k : KernelBlobs} {id : BitVec 32} {result : Int}
    (h : id ≠ 0#32 → id ∈ k.live) :
    k.calls (destroyPropertyBlob id result).2 =
      if id ≠ 0#32 ∧ result = 0 then { k with live := k.live.erase id } else k := by
  unfold destroyPropertyBlob KernelBlobs.calls
  by_cases hzero : id = 0#32
  · rw [if_pos hzero, if_neg fun h => h.1 hzero]
    rfl
  · rw [if_neg hzero]
    have hlive := h hzero
    by_cases hresult : result = 0
    · rw [if_pos ⟨hzero, hresult⟩]
      simp [KernelBlobs.call, hlive, hresult]
    · rw [if_neg fun h => hresult h.2]
      simp [KernelBlobs.call, hlive, hresult]

theorem deadDestroys_destroy {k : KernelBlobs} {id : BitVec 32} {result : Int}
    (h : id ≠ 0#32 → id ∈ k.live) :
    (k.calls (destroyPropertyBlob id result).2).deadDestroys = k.deadDestroys := by
  rw [calls_destroy h]
  split <;> rfl

/-! ## What the calls and assignments do -/

section Kept

variable {mode : ModeState M} {kernel : KernelBlobs}

theorem BlobInv.start (hneeds : mode.needsModeset = false) (hblob : mode.blobId = 0#32)
    (hold : mode.oldBlobId = 0#32) (hkernel : kernel = ⟨[], []⟩) : BlobInv mode kernel := by
  refine ⟨?_, fun h => absurd hblob h, fun h => absurd hold h, fun h => absurd hblob h, ?_, ?_, ?_,
    ?_⟩
  · rw [hneeds, hblob]
    simp
  all_goals rw [hkernel]
  · exact fun id hid => absurd hid List.not_mem_nil
  · exact List.not_mem_nil
  · exact List.nodup_nil

/-- The mode itself does not matter. -/
theorem BlobInv.setMode (h : BlobInv mode kernel) (displayMode : M) :
    BlobInv { mode with mode := displayMode } kernel :=
  ⟨h.needs, h.blob, h.oldBlob, h.apart, h.owned, h.nonzero, h.nodup, h.once⟩

/-- The blob that was pending is destroyed. -/
theorem BlobInv.destroyPending (h : BlobInv mode kernel) {result : Int}
    (hok : mode.blobId ≠ 0#32 → result = 0) :
    BlobInv mode.withoutPending (kernel.calls (destroyPropertyBlob mode.blobId result).2) := by
  rw [calls_destroy h.blob]
  unfold ModeState.withoutPending
  by_cases hblob : mode.blobId = 0#32
  · rw [if_neg fun hand => hand.1 hblob]
    refine ⟨by simp, fun hne => absurd rfl hne, h.oldBlob, fun hne => absurd rfl hne, ?_, h.nonzero,
      h.nodup, h.once⟩
    intro id hid
    cases h.owned id hid with
    | inl hid' => exact Or.inl (hid'.trans hblob)
    | inr hid' => exact Or.inr hid'
  · rw [if_pos ⟨hblob, hok hblob⟩]
    refine ⟨by simp, fun hne => absurd rfl hne, fun hne => ?_, fun hne => absurd rfl hne, ?_, ?_,
      h.nodup.erase _, h.once⟩
    · exact (List.mem_erase_of_ne (h.apart hblob).symm).mpr (h.oldBlob hne)
    · intro id hid
      obtain ⟨hne, hlive⟩ := (h.nodup.mem_erase_iff).mp hid
      exact Or.inr ((h.owned id hlive).resolve_left hne)
    · exact fun hzero => h.nonzero (List.mem_of_mem_erase hzero)

/-- A new blob is the pending one to be. -/
theorem BlobInv.createPending (h : BlobInv mode.withoutPending kernel) {id : BitVec 32}
    (hid : id ≠ 0#32) (hfresh : id ∉ kernel.live) :
    BlobInv { mode with blobId := id, needsModeset := true } (kernel.calls [.create id]) := by
  have hmem : ∀ {id'}, id' ∈ kernel.live ++ [id] ↔ id' ∈ kernel.live ∨ id' = id := by
    intro id'
    rw [List.mem_append, List.mem_singleton]
  refine ⟨by simp [hid], fun _ => hmem.mpr (Or.inr rfl),
    fun hold => hmem.mpr (Or.inl (h.oldBlob hold)),
    fun _ heq => ?_, fun id' hid' => ?_, fun h0 => ?_, ?_, h.once⟩
  · dsimp only at heq
    by_cases hold : mode.oldBlobId = 0#32
    · exact hid (heq.trans hold)
    · exact hfresh (heq ▸ h.oldBlob hold)
  · cases hmem.mp hid' with
    | inl hlive =>
        refine Or.inr ((h.owned id' hlive).resolve_left fun h0 => h.nonzero ?_)
        rw [show (0#32 : BitVec 32) = id' from h0.symm]
        exact hlive
    | inr hnew => exact Or.inl hnew
  · cases hmem.mp h0 with
    | inl hlive => exact h.nonzero hlive
    | inr hnew => exact hid hnew.symm
  · exact h.nodup.append (List.nodup_singleton id) (List.disjoint_singleton.mpr hfresh)

/-- The old blob is destroyed, if there is one. -/
theorem BlobInv.destroyOld (h : BlobInv mode kernel) {result : Int}
    (hok : (destroyPropertyBlob mode.oldBlobId result).1 = 0) :
    BlobInv { mode with oldBlobId := 0#32 }
      (kernel.calls (destroyPropertyBlob mode.oldBlobId result).2) := by
  rw [calls_destroy h.oldBlob]
  by_cases hold : mode.oldBlobId = 0#32
  · rw [if_neg fun hand => hand.1 hold]
    refine ⟨h.needs, h.blob, fun hne => absurd rfl hne, fun hne => hne, fun id hid => ?_, h.nonzero,
      h.nodup, h.once⟩
    rcases h.owned id hid with hid' | hid'
    · exact Or.inl hid'
    · exact Or.inr (hid'.trans hold)
  · rw [destroyPropertyBlob, if_neg hold] at hok
    rw [if_pos ⟨hold, hok⟩]
    refine ⟨h.needs, fun hne => ?_, fun hne => absurd rfl hne, fun hne => hne, fun id hid => ?_,
      fun hzero => h.nonzero (List.mem_of_mem_erase hzero), h.nodup.erase _, h.once⟩
    · exact (List.mem_erase_of_ne (h.apart hne)).mpr (h.blob hne)
    · obtain ⟨hne, hlive⟩ := (h.nodup.mem_erase_iff).mp hid
      exact Or.inl ((h.owned id hlive).resolve_right hne)

/-- A destroy that fails leaves the blob. -/
theorem calls_destroy_failed {id : BitVec 32} {result : Int} (hlive : id ≠ 0#32 → id ∈ kernel.live)
    (hfails : (destroyPropertyBlob id result).1 ≠ 0) :
    kernel.calls (destroyPropertyBlob id result).2 = kernel := by
  rw [calls_destroy hlive, if_neg]
  rintro ⟨hne, hzero⟩
  rw [destroyPropertyBlob, if_neg hne] at hfails
  exact hfails hzero

/-- The pending blob becomes the old one. -/
theorem BlobInv.rotate (h : BlobInv { mode with oldBlobId := 0#32 } kernel)
    (hneeds : mode.needsModeset = true) :
    BlobInv ({ mode with oldBlobId := mode.blobId }).withoutPending kernel := by
  unfold ModeState.withoutPending
  refine ⟨by simp, fun hne => absurd rfl hne, fun _ => h.blob (h.needs.mp hneeds),
    fun hne => absurd rfl hne, fun id hid => ?_, h.nonzero, h.nodup, h.once⟩
  refine Or.inr ((h.owned id hid).resolve_right fun h0 => h.nonzero ?_)
  rw [show (0#32 : BitVec 32) = id from h0.symm]
  exact hid

end Kept

/-! ## One step -/

section Steps

variable {s : ModeSystemState M}

theorem StepInv.of_worker (h : StepInv s) (hworker : s.worker ≠ .idle) : s.frame = .idle :=
  h.alone.resolve_left hworker

theorem StepInv.of_frame (h : StepInv s) (hframe : s.frame ≠ .idle) : s.worker = .idle :=
  h.alone.resolve_right hframe

/-- The invariant while a modeset is handled. -/
theorem StepInv.handling {s : ModeSystemState M} (hframe : s.frame = .idle)
    (hblobs : BlobInv (s.worker.ahead s.mode) s.kernel)
    (hfailed : ∀ ret blobId, s.worker = .store ret blobId → ret ≠ 0 →
      blobId = 0#32 ∧ s.mode.needsModeset = false) : StepInv s := by
  exact ⟨Or.inr hframe, by rw [hframe]; exact hblobs, hfailed,
    fun hrotating => absurd hframe hrotating.ne.1⟩

/-- The invariant while a frame is committed. -/
theorem StepInv.committing {s : ModeSystemState M} (hworker : s.worker = .idle)
    (hblobs : BlobInv (s.frame.ahead s.mode) s.kernel)
    (hrotating : s.frame.Rotating → s.mode.needsModeset = true) : StepInv s := by
  refine ⟨Or.inl hworker, by rw [hworker]; exact hblobs, fun ret blobId hstore => ?_, hrotating⟩
  rw [hworker] at hstore
  cases hstore

variable [Sub F] {s' : ModeSystemState M}

theorem StepInv.modeset (h : StepInv s) {displayMode : M} (hframe : s.frame = .idle)
    (hnext : (modeSystem F M).next s (.modeset displayMode) = some s') : StepInv s' := by
  obtain ⟨hworker, rfl⟩ := guarded_eq_some hnext
  have hblobs := h.blobs
  rw [hframe, hworker] at hblobs
  exact .handling hframe (hblobs.setMode displayMode) fun _ _ hstore => nomatch hstore

theorem StepInv.destroyPending (h : StepInv s) {result : Int}
    (hok : s.mode.blobId ≠ 0#32 → result = 0)
    (hnext : (modeSystem F M).next s (.destroyPending result) = some s') : StepInv s' := by
  obtain ⟨hworker, rfl⟩ := guarded_eq_some hnext
  have hframe := h.of_worker (by rw [hworker]; exact nofun)
  have hblobs := h.blobs
  rw [hframe, hworker] at hblobs
  rw [destroyPropertyBlob_guarded]
  exact .handling hframe (hblobs.destroyPending hok) fun _ _ hstore => nomatch hstore

theorem StepInv.createBlob (h : StepInv s) {result : Int × BitVec 32}
    (hkernel : result.1 = 0 → result.2 ≠ 0#32 ∧ result.2 ∉ s.kernel.live)
    (hok : s.mode.needsModeset = true → result.1 = 0)
    (hnext : (modeSystem F M).next s (.createBlob result) = some s') : StepInv s' := by
  obtain ⟨hworker, rfl⟩ := guarded_eq_some hnext
  have hframe := h.of_worker (by rw [hworker]; exact nofun)
  have hblobs := h.blobs
  rw [hframe, hworker] at hblobs
  have hblobs : BlobInv s.mode.withoutPending s.kernel := hblobs
  by_cases hret : result.1 = 0
  · obtain ⟨hid, hfresh⟩ := hkernel hret
    refine .handling hframe ?_ fun ret blobId hstore hne => ?_
    · simpa [createModeBlob, hret, ModesetPc.ahead] using hblobs.createPending hid hfresh
    · simp [createModeBlob, hret] at hstore
      exact absurd hstore.1.symm hne
  · refine .handling hframe ?_ fun ret blobId hstore hne => ?_
    · simpa [createModeBlob, hret, ModesetPc.ahead, KernelBlobs.calls] using hblobs
    · simp [createModeBlob, hret] at hstore
      exact ⟨hstore.2.symm, Bool.eq_false_iff.mpr fun hneeds => hret (hok hneeds)⟩

theorem StepInv.storeBlob (h : StepInv s)
    (hnext : (modeSystem F M).next s .storeBlob = some s') : StepInv s' := by
  cases hworker : s.worker with
  | store ret blobId =>
      have hframe := h.of_worker (by rw [hworker]; exact nofun)
      have hblobs := h.blobs
      rw [hframe, hworker] at hblobs
      simp only [modeSystem, hworker, Option.some.injEq] at hnext
      subst hnext
      by_cases hret : ret = 0
      · refine .handling hframe ?_ fun ret' blobId' hstore => ?_
        · simpa [ModesetPc.ahead, FramePc.ahead, hret] using hblobs
        · simp [hret] at hstore
      · -- nothing was created, and no mode was pending
        obtain ⟨hzero, hneeds⟩ := h.failed ret blobId hworker hret
        refine .handling hframe ?_ fun ret' blobId' hstore => ?_
        · simpa [ModesetPc.ahead, FramePc.ahead, ModeState.withoutPending, hret, hzero, hneeds]
            using hblobs
        · simp [hret] at hstore
  | idle => simp [modeSystem, hworker] at hnext
  | destroy => simp [modeSystem, hworker] at hnext
  | create => simp [modeSystem, hworker] at hnext
  | setPending => simp [modeSystem, hworker] at hnext

theorem StepInv.setPending (h : StepInv s)
    (hnext : (modeSystem F M).next s .setPending = some s') : StepInv s' := by
  obtain ⟨hworker, rfl⟩ := guarded_eq_some hnext
  have hframe := h.of_worker (by rw [hworker]; exact nofun)
  have hblobs := h.blobs
  rw [hframe, hworker] at hblobs
  exact .handling hframe hblobs fun _ _ hstore => nomatch hstore

/-- A test reads only. -/
theorem StepInv.test (h : StepInv s) {input : CommitInput F}
    (hnext : (modeSystem F M).next s (.test input) = some s') : StepInv s' := by
  simp only [modeSystem] at hnext
  split at hnext
  · obtain ⟨_, -, rfl⟩ := Option.map_eq_some_iff.mp hnext
    exact h
  · cases hnext

theorem StepInv.commit (h : StepInv s) {input : CommitInput F} (hworker : s.worker = .idle)
    (hnext : (modeSystem F M).next s (.commit input) = some s') : StepInv s' := by
  simp only [modeSystem] at hnext
  split at hnext
  · rename_i hframe
    obtain ⟨c, -, rfl⟩ := Option.map_eq_some_iff.mp hnext
    cases c with
    | returned ret => exact h
    | goesOn ret committed =>
        have hblobs := h.blobs
        rw [hframe, hworker] at hblobs
        exact .committing hworker hblobs fun hrotating => absurd rfl hrotating.ne.2.1
  · cases hnext

theorem StepInv.checkPending (h : StepInv s)
    (hnext : (modeSystem F M).next s .checkPending = some s') : StepInv s' := by
  obtain ⟨hframe, rfl⟩ := guarded_eq_some hnext
  have hworker := h.of_frame (by rw [hframe]; exact nofun)
  have hblobs := h.blobs
  rw [hframe, hworker] at hblobs
  cases hneeds : s.mode.needsModeset with
  | true => exact .committing hworker hblobs fun _ => hneeds
  | false => exact .committing hworker hblobs fun hrotating => absurd rfl hrotating.ne.1

theorem StepInv.destroyOld (h : StepInv s) {result : Int}
    (hnext : (modeSystem F M).next s (.destroyOld result) = some s') : StepInv s' := by
  obtain ⟨hframe, rfl⟩ := guarded_eq_some hnext
  have hworker := h.of_frame (by rw [hframe]; exact nofun)
  have hneeds := h.rotating (by rw [hframe]; exact Or.inl rfl)
  have hblobs := h.blobs
  rw [hframe, hworker] at hblobs
  have hblobs : BlobInv s.mode s.kernel := hblobs
  by_cases hret : (destroyPropertyBlob s.mode.oldBlobId result).1 = 0
  · refine .committing hworker ?_ fun _ => hneeds
    simpa [hret, FramePc.ahead] using hblobs.destroyOld hret
  · refine .committing hworker ?_ fun _ => hneeds
    rw [calls_destroy_failed hblobs.oldBlob hret]
    simpa [hret, FramePc.ahead] using hblobs

theorem StepInv.applyDpms (h : StepInv s) {result : Int}
    (hok : s.mode.oldBlobId ≠ 0#32 → result = 0)
    (hnext : (modeSystem F M).next s (.applyDpms result) = some s') : StepInv s' := by
  obtain ⟨hframe, rfl⟩ := guarded_eq_some hnext
  have hworker := h.of_frame (by rw [hframe]; exact nofun)
  have hneeds := h.rotating (by rw [hframe]; exact Or.inr (Or.inl rfl))
  have hblobs := h.blobs
  rw [hframe, hworker] at hblobs
  have hblobs : BlobInv { s.mode with oldBlobId := 0#32 } s.kernel := hblobs
  refine .committing hworker ?_ fun _ => hneeds
  by_cases hret : result = 0
  · simpa [hret, FramePc.ahead] using hblobs
  · -- the old id was 0 before it was destroyed, and stays
    have hold : s.mode.oldBlobId = 0#32 := by
      by_contra hne
      exact hret (hok hne)
    have hsame : { s.mode with oldBlobId := 0#32 } = s.mode := by rw [← hold]
    rw [hsame] at hblobs
    simpa [hret, FramePc.ahead] using hblobs

theorem StepInv.activate (h : StepInv s)
    (hnext : (modeSystem F M).next s .activate = some s') : StepInv s' := by
  obtain ⟨hframe, rfl⟩ := guarded_eq_some hnext
  have hworker := h.of_frame (by rw [hframe]; exact nofun)
  have hneeds := h.rotating (by rw [hframe]; exact Or.inr (Or.inr (Or.inl rfl)))
  have hblobs := h.blobs
  rw [hframe, hworker] at hblobs
  exact .committing hworker hblobs fun _ => hneeds

theorem StepInv.takeBlob (h : StepInv s)
    (hnext : (modeSystem F M).next s .takeBlob = some s') : StepInv s' := by
  obtain ⟨hframe, rfl⟩ := guarded_eq_some hnext
  have hworker := h.of_frame (by rw [hframe]; exact nofun)
  have hneeds := h.rotating (by rw [hframe]; exact Or.inr (Or.inr (Or.inr rfl)))
  have hblobs := h.blobs
  rw [hframe, hworker] at hblobs
  exact .committing hworker (BlobInv.rotate hblobs hneeds) fun _ => hneeds

theorem StepInv.clearBlob (h : StepInv s)
    (hnext : (modeSystem F M).next s .clearBlob = some s') : StepInv s' := by
  obtain ⟨hframe, rfl⟩ := guarded_eq_some hnext
  have hworker := h.of_frame (by rw [hframe]; exact nofun)
  have hblobs := h.blobs
  rw [hframe, hworker] at hblobs
  exact .committing hworker hblobs fun hrotating => absurd rfl hrotating.ne.2.2.2

theorem StepInv.clearPending (h : StepInv s)
    (hnext : (modeSystem F M).next s .clearPending = some s') : StepInv s' := by
  obtain ⟨hframe, rfl⟩ := guarded_eq_some hnext
  have hworker := h.of_frame (by rw [hframe]; exact nofun)
  have hblobs := h.blobs
  rw [hframe, hworker] at hblobs
  exact .committing hworker hblobs fun hrotating => absurd rfl hrotating.ne.1

/-- One step of either thread. -/
theorem StepInv.next (h : StepInv s) {e : ModeEvent F M} (hok : KernelOk s e ∧ ModeStepOk s e)
    (hnext : (modeSystem F M).next s e = some s') : StepInv s' := by
  obtain ⟨hkernel, hok⟩ := hok
  cases e with
  | modeset displayMode => exact h.modeset hok hnext
  | destroyPending result => exact h.destroyPending hok hnext
  | createBlob result => exact h.createBlob hkernel hok hnext
  | storeBlob => exact h.storeBlob hnext
  | setPending => exact h.setPending hnext
  | test input => exact h.test hnext
  | commit input => exact h.commit hok hnext
  | checkPending => exact h.checkPending hnext
  | destroyOld result => exact h.destroyOld hnext
  | applyDpms result => exact h.applyDpms hok hnext
  | activate => exact h.activate hnext
  | takeBlob => exact h.takeBlob hnext
  | clearBlob => exact h.clearBlob hnext
  | clearPending => exact h.clearPending hnext

end Steps

/-! ## Runs -/

section Runs

variable {s : ModeSystemState M}

theorem StepInv.start [Sub F] (h : (modeSystem F M).start s) : StepInv s := by
  obtain ⟨hneeds, hblob, hold, hkernel, hworker, hframe⟩ := h
  refine .committing hworker ?_ fun hrotating => absurd hframe hrotating.ne.1
  rw [hframe]
  exact BlobInv.start hneeds hblob hold hkernel

theorem StepInv.blobInv (h : StepInv s) (hquiet : s.Quiet) : BlobInv s.mode s.kernel := by
  have hblobs := h.blobs
  rw [hquiet.1, hquiet.2] at hblobs
  exact hblobs

theorem BlobInv.blobsOwned (h : BlobInv s.mode s.kernel) : BlobsOwned s :=
  ⟨fun hneeds => h.blob (h.needs.mp hneeds), h.once, h.owned⟩

/-- The destructor only destroys blobs that are live, each one once. -/
theorem BlobInv.destruct (h : BlobInv s.mode s.kernel) (destroyBlob destroyOldBlob : Int) :
    (s.kernel.calls (destructCompositor s.mode destroyBlob destroyOldBlob)).deadDestroys = [] := by
  have hold : s.mode.oldBlobId ≠ 0#32 →
      s.mode.oldBlobId ∈
        (s.kernel.calls (destroyPropertyBlob s.mode.blobId destroyBlob).2).live := by
    intro hne
    rw [calls_destroy h.blob]
    by_cases hdone : s.mode.blobId ≠ 0#32 ∧ destroyBlob = 0
    · rw [if_pos hdone]
      exact (List.mem_erase_of_ne (h.apart hdone.1).symm).mpr (h.oldBlob hne)
    · rw [if_neg hdone]
      exact h.oldBlob hne
  unfold destructCompositor
  rw [destroyPropertyBlob_guarded, destroyPropertyBlob_guarded, calls_append,
    deadDestroys_destroy hold, deadDestroys_destroy h.blob]
  exact h.once

end Runs

/-! ## Two modesets -/

/-- A new compositor. -/
def initialModeSystem : ModeSystemState Nat :=
  ⟨⟨false, 0, 0#32, 0#32⟩, 0, ⟨[], []⟩, .idle, .idle⟩

theorem modeSystem_start_initial : (modeSystem Int Nat).start initialModeSystem :=
  ⟨rfl, rfl, rfl, rfl, rfl, rfl⟩

/-- A frame whose calls all succeed. -/
def shownFrame : List (ModeEvent Int Nat) :=
  [.commit (panelCommit fun _ _ => 0), .checkPending, .destroyOld 0, .applyDpms 0, .activate,
    .takeBlob, .clearBlob, .clearPending]

/-- Two modesets, with a frame after each. -/
def twoModesets : List (ModeEvent Int Nat) :=
  modesetEvents 1 0 (0, 5#32) ++ shownFrame ++ modesetEvents 2 0 (0, 6#32) ++ shownFrame

/-- A modeset that comes while a frame is being committed, where every call succeeds: the id of
its blob is cleared with that of the mode before, whose blob it has destroyed and whose id
becomes the old one, to be destroyed again. -/
theorem modeSystem_interleaved :
    ∃ s, (modeSystem Int Nat).Reachable KernelOk s ∧ s.kernel.deadDestroys = [5#32] := by
  have hreach : (modeSystem Int Nat).Reachable KernelOk
      ⟨⟨true, 3, 7#32, 5#32⟩, 1, ⟨[6#32, 7#32], [5#32]⟩, .idle, .applyDpms⟩ :=
    System.Reachable.run (.start modeSystem_start_initial)
      (show _ = _ from by decide : (modeSystem Int Nat).run _
        (modesetEvents 1 0 (0, 5#32) ++ shownFrame.take 6 ++ modesetEvents 2 0 (0, 6#32) ++
          [.clearBlob, .clearPending] ++ modesetEvents 3 0 (0, 7#32) ++ shownFrame.take 3)
        initialModeSystem = _)
  exact ⟨_, hreach, rfl⟩

end DragonDevice.Hwc
