/-
  Hwc/NvImporter.lean --- the buffers of `NvImporter` in `platformnv.cpp`.

  The threads of the composer and of gralloc share the buffers.  What is under way is a pool
  of tasks: calls of `ImportBuffer` and `ReleaseBuffer`, each at one of its accesses to
  shared data, imports whose `ReleaseBuffer` is still to come, and buffers registered with
  gralloc.  A step of the system is the next access of one task.  An access to a buffer that
  has been deleted has no result.
-/
import DragonDevice.Lib.TaskPool
import DragonDevice.Lib.Transition

set_option autoImplicit false

namespace DragonDevice.Hwc

open DragonDevice.Lib

/-! ## Buffers and tasks -/

/-- `hwc_drm_bo_t`; the members that only describe the pixels are left out.  `priv` is the
number of an `NvBuffer`. -/
structure HwcDrmBo where
  priv : Option Nat
  fbId : Nat
  gemHandles : List Nat
  deriving DecidableEq, Repr

/-- `NvBuffer`. -/
structure NvBuffer where
  bo : HwcDrmBo
  ref : Int
  deriving DecidableEq, Repr

/-- What is under way. -/
inductive NvTask where
  /-- an import whose `ReleaseBuffer` is still to come -/
  | imported (bo : HwcDrmBo)
  /-- a buffer whose `NvGrallocRelease` is still to come -/
  | registered (handle buf : Nat)
  /-- `ImportBuffer`, before `GrallocGetNvBuffer` -/
  | getNvBuffer (handle : Nat)
  /-- before `atomic_fetch_add` -/
  | fetchAdd (handle buf : Nat)
  /-- before `GRALLOC_MODULE_PERFORM_DRM_IMPORT` -/
  | drmImport (handle buf : Nat)
  /-- before `drmModeAddFB2` -/
  | addFb (handle buf : Nat)
  /-- before `GrallocSetNvBuffer` -/
  | setNvBuffer (handle buf : Nat)
  /-- before `*bo = buf->bo` -/
  | copyBo (handle buf : Nat)
  /-- `ReleaseBuffer`, before `atomic_fetch_sub` -/
  | fetchSub (bo : HwcDrmBo)
  /-- `ReleaseBufferImpl`, before `drmModeRmFB` -/
  | rmFb (buf : Nat) (bo : HwcDrmBo)
  /-- `ReleaseBufferImpl`, in the loop over the gem handles; then `delete` -/
  | closeGem (buf : Nat) (gemHandles : List Nat)
  deriving DecidableEq, Repr

/-- The handle of an `ImportBuffer` call. -/
def NvTask.importing : NvTask → Option Nat
  | .getNvBuffer handle | .fetchAdd handle _ | .drmImport handle _ | .addFb handle _
  | .setNvBuffer handle _ | .copyBo handle _ => some handle
  | _ => none

/-- The memory of the process, and of the kernel: which buffer a framebuffer and a gem handle
was opened for, if it is open.  `misused` records a release of one that the buffer does not
have, the lists the releases that failed. -/
structure NvMemory where
  bufs : Nat → Option NvBuffer
  nextBuf : Nat
  gemOwner : Nat → Option Nat
  fbOwner : Nat → Option Nat
  misused : Bool
  closeFailed : List (Nat × Nat)
  rmFailed : List (Nat × Nat)

namespace NvMemory

def setBuf (m : NvMemory) (b : Nat) (buf : Option NvBuffer) : NvMemory :=
  { m with bufs := fun b' => if b' = b then buf else m.bufs b' }

/-- Gem handles that gralloc opens for a buffer. -/
def openGems (m : NvMemory) (b : Nat) (gemHandles : List Nat) : NvMemory :=
  { m with gemOwner := fun h => if h ≠ 0 ∧ h ∈ gemHandles then some b else m.gemOwner h }

/-- `DRM_IOCTL_GEM_CLOSE`. -/
def closeGem (m : NvMemory) (b h : Nat) (ok : Bool) : NvMemory :=
  if m.gemOwner h = some b then
    if ok then { m with gemOwner := fun h' => if h' = h then none else m.gemOwner h' }
    else { m with closeFailed := m.closeFailed ++ [(h, b)] }
  else { m with misused := true }

/-- `drmModeAddFB2`. -/
def addFb (m : NvMemory) (b fb : Nat) : NvMemory :=
  { m with fbOwner := fun f => if f = fb then some b else m.fbOwner f }

/-- `drmModeRmFB`. -/
def rmFb (m : NvMemory) (b fb : Nat) (ok : Bool) : NvMemory :=
  if m.fbOwner fb = some b then
    if ok then { m with fbOwner := fun f => if f = fb then none else m.fbOwner f }
    else { m with rmFailed := m.rmFailed ++ [(fb, b)] }
  else { m with misused := true }

end NvMemory

/-- What gralloc and the kernel answer; a task reads the part that is for it. -/
structure NvAnswer where
  /-- the importer private of a handle -/
  nvBuffer : Option Nat
  /-- the gem handles of the DRM import, if it succeeds -/
  gemHandles : Option (List Nat)
  /-- the framebuffer, if it is added -/
  fb : Option Nat
  /-- whether another call succeeds -/
  ok : Bool
  deriving DecidableEq, Repr

/-! ## Steps -/

/-- The next access of a task: the tasks that follow it, and the memory. -/
def NvTask.run (m : NvMemory) (answer : NvAnswer) : NvTask → Option (List NvTask × NvMemory)
  | .imported bo => some ([.fetchSub bo], m)
  | .registered _ b =>
      match m.bufs b with
      | none => none
      | some buf => some ([.fetchSub buf.bo], m)
  | .getNvBuffer handle =>
      match answer.nvBuffer with
      | some b => some ([.fetchAdd handle b], m)
      | none =>
          let b := m.nextBuf
          some ([.drmImport handle b],
            { m.setBuf b (some ⟨⟨some b, 0, []⟩, 2⟩) with nextBuf := b + 1 })
  | .fetchAdd handle b =>
      match m.bufs b with
      | none => none
      | some buf => some ([.copyBo handle b], m.setBuf b (some { buf with ref := buf.ref + 1 }))
  | .drmImport handle b =>
      match m.bufs b, answer.gemHandles with
      | none, _ => none
      | some _, none => some ([], m.setBuf b none)
      | some buf, some gemHandles =>
          some ([.addFb handle b],
            (m.setBuf b (some { buf with bo := { buf.bo with gemHandles } })).openGems b gemHandles)
  | .addFb handle b =>
      match m.bufs b, answer.fb with
      | none, _ => none
      | some buf, none => some ([.rmFb b buf.bo], m)
      | some buf, some fbId =>
          some ([.setNvBuffer handle b],
            (m.setBuf b (some { buf with bo := { buf.bo with fbId } })).addFb b fbId)
  | .setNvBuffer handle b =>
      match m.bufs b with
      | none => none
      | some buf =>
          if answer.ok then some ([.registered handle b, .copyBo handle b], m)
          else some ([.rmFb b buf.bo], m)
  | .copyBo _ b =>
      match m.bufs b with
      | none => none
      | some buf => some ([.imported buf.bo], m)
  | .fetchSub bo =>
      match bo.priv with
      | none => some ([], m)
      | some b =>
          match m.bufs b with
          | none => none
          | some buf =>
              some (if 1 < buf.ref then [] else [.rmFb b bo],
                m.setBuf b (some { buf with ref := buf.ref - 1 }))
  | .rmFb b bo =>
      some ([.closeGem b bo.gemHandles], if bo.fbId = 0 then m else m.rmFb b bo.fbId answer.ok)
  | .closeGem b [] =>
      match m.bufs b with
      | none => none
      | some _ => some ([], m.setBuf b none)
  | .closeGem b (h :: rest) =>
      if h = 0 then some ([.closeGem b rest], m)
      else
        some ([.closeGem b
          (if answer.ok then rest.map fun h' => if h' = h then 0 else h' else rest)],
          m.closeGem b h answer.ok)

structure NvState where
  tasks : List NvTask
  memory : NvMemory

/-- A new call of `ImportBuffer`, or the next access of a task. -/
inductive NvEvent where
  | importBuffer (handle : Nat)
  | run (task : NvTask) (answer : NvAnswer)
  deriving DecidableEq, Repr

/-- Any interleaving of the tasks. -/
def nvSystem : System NvState NvEvent where
  start := fun s => s.tasks = [] ∧ (∀ b, s.memory.bufs b = none) ∧
    (∀ h, s.memory.gemOwner h = none) ∧ (∀ f, s.memory.fbOwner f = none) ∧
    s.memory.misused = false
  next := fun s e =>
    match e with
    | .importBuffer handle => some { s with tasks := s.tasks ++ [.getNvBuffer handle] }
    | .run task answer =>
        if task ∈ s.tasks then
          (task.run s.memory answer).map fun r => ⟨s.tasks.erase task ++ r.1, r.2⟩
        else none

/-- What gralloc and the kernel are relied on for: the importer private is one that was set
for the handle, `NvGrallocRelease` does not come while the handle is being imported, and gem
handles and framebuffers that are given out are not open. -/
def NvOk (s : NvState) : NvEvent → Prop
  | .importBuffer _ => True
  | .run (.getNvBuffer handle) answer => ∀ b ∈ answer.nvBuffer, NvTask.registered handle b ∈ s.tasks
  | .run (.registered handle _) _ => ∀ t ∈ s.tasks, t.importing ≠ some handle
  | .run (.drmImport _ _) answer => ∀ gemHandles ∈ answer.gemHandles,
      ∀ h ∈ gemHandles, h ≠ 0 → s.memory.gemOwner h = none
  | .run (.addFb _ _) answer => ∀ fb ∈ answer.fb, fb ≠ 0 ∧ s.memory.fbOwner fb = none
  | .run _ _ => True

/-! ## The property -/

/-- The buffer of a task. -/
def NvTask.buf : NvTask → Option Nat
  | .imported bo | .fetchSub bo => bo.priv
  | .getNvBuffer _ => none
  | .registered _ b | .fetchAdd _ b | .drmImport _ b | .addFb _ b | .setNvBuffer _ b | .copyBo _ b
  | .rmFb b _ | .closeGem b _ => some b

/-- The tasks in `ReleaseBufferImpl`. -/
def NvTask.releases : NvTask → Bool
  | .rmFb _ _ | .closeGem _ _ => true
  | _ => false

/-- Whether a task is releasing a buffer, as a number. -/
def NvTask.releaseOf (b : Nat) (t : NvTask) : Nat := if t.buf = some b ∧ t.releases then 1 else 0

/-- How many tasks are releasing a buffer. -/
def NvState.releasing (s : NvState) (b : Nat) : Nat := total (NvTask.releaseOf b) s.tasks

/-- A buffer is imported, registered, being imported, or about to lose a reference. -/
def NvState.InUse (s : NvState) (b : Nat) : Prop :=
  ∃ t ∈ s.tasks, t.buf = some b ∧ t.releases = false

/-- The framebuffer and the gem handles of a buffer are open. -/
structure Intact (m : NvMemory) (b : Nat) (buf : NvBuffer) : Prop where
  alloc : m.bufs b = some buf
  priv : buf.bo.priv = some b
  gems : ∀ h, m.gemOwner h = some b ↔ h ≠ 0 ∧ h ∈ buf.bo.gemHandles
  fb : ∀ f, m.fbOwner f = some b ↔ f ≠ 0 ∧ f = buf.bo.fbId

/-- The buffer is deleted, and all that was opened for it has been released, unless the
kernel refused. -/
structure Closed (m : NvMemory) (b : Nat) : Prop where
  deleted : m.bufs b = none
  gems : ∀ h, m.gemOwner h = some b → (h, b) ∈ m.closeFailed
  fb : ∀ f, m.fbOwner f = some b → (f, b) ∈ m.rmFailed

/-- What becomes of a buffer: while it is in use it has all that was opened for it, and no
task releases it; then one task does; then it is closed. -/
structure Accounted (s : NvState) (b : Nat) : Prop where
  inUse : s.InUse b → s.releasing b = 0 ∧ ∃ buf, Intact s.memory b buf
  unused : ¬ s.InUse b → s.releasing b = 1 ∨ s.releasing b = 0 ∧ Closed s.memory b

end DragonDevice.Hwc
