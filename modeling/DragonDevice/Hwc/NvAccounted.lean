/-
  Hwc/NvAccounted.lean --- the buffers of `NvImporter` are released once.

  The reference count of a buffer is the number of references that the tasks hold.  A
  buffer that is being built or released has a single task.
-/
import DragonDevice.Hwc.NvImporter

set_option autoImplicit false

namespace DragonDevice.Hwc

open DragonDevice.Lib

/-! ## What the tasks hold -/

namespace NvTask

/-- The references that a task holds: a call that builds a buffer has that of gralloc too. -/
def refs : NvTask → Nat
  | .imported _ | .registered _ _ | .copyBo _ _ | .fetchSub _ => 1
  | .drmImport _ _ | .addFb _ _ | .setNvBuffer _ _ => 2
  | _ => 0

/-- The tasks that are alone with their buffer. -/
def exclusive : NvTask → Bool
  | .drmImport _ _ | .addFb _ _ | .setNvBuffer _ _ | .rmFb _ _ | .closeGem _ _ => true
  | _ => false

def userOf (b : Nat) (t : NvTask) : Nat := if t.buf = some b then 1 else 0

def refsOf (b : Nat) (t : NvTask) : Nat := if t.buf = some b then t.refs else 0

theorem userOf_self {b : Nat} {t : NvTask} (h : t.buf = some b) : t.userOf b = 1 := if_pos h

theorem refsOf_self {b : Nat} {t : NvTask} (h : t.buf = some b) : t.refsOf b = t.refs := if_pos h

theorem userOf_other {b : Nat} {t : NvTask} (h : t.buf ≠ some b) : t.userOf b = 0 := if_neg h

theorem refsOf_other {b : Nat} {t : NvTask} (h : t.buf ≠ some b) : t.refsOf b = 0 := if_neg h

theorem releaseOf_other {b : Nat} {t : NvTask} (h : t.buf ≠ some b) : t.releaseOf b = 0 :=
  if_neg fun hboth => h hboth.1

theorem releaseOf_of_not {b : Nat} {t : NvTask} (h : t.releases = false) : t.releaseOf b = 0 := by
  apply if_neg
  intro hboth
  rw [h] at hboth
  exact Bool.false_ne_true hboth.2

theorem releaseOf_self {b : Nat} {t : NvTask} (h : t.buf = some b) (hrel : t.releases = true) :
    t.releaseOf b = 1 :=
  if_pos ⟨h, hrel⟩

/-- A task that shares its buffer holds a reference, but for a call that is about to get
one. -/
theorem refs_of_shared {t : NvTask} (h : t.exclusive = false) {b : Nat} (hb : t.buf = some b) :
    t.refs = 1 ∨ ∃ handle, t = .fetchAdd handle b := by
  cases t with
  | getNvBuffer handle => cases hb
  | fetchAdd handle b' =>
      cases hb
      exact Or.inr ⟨handle, rfl⟩
  | imported bo => exact Or.inl rfl
  | registered handle b' => exact Or.inl rfl
  | copyBo handle b' => exact Or.inl rfl
  | fetchSub bo => exact Or.inl rfl
  | drmImport handle b' => cases h
  | addFb handle b' => cases h
  | setNvBuffer handle b' => cases h
  | rmFb b' bo => cases h
  | closeGem b' gemHandles => cases h

end NvTask

/-! ## What the tasks rely on -/

/-- A buffer of which the framebuffer has been removed and some gem handles are still to be
closed. -/
structure Closing (m : NvMemory) (b : Nat) (gemHandles : List Nat) : Prop where
  alloc : ∃ buf, m.bufs b = some buf
  todo : ∀ h ∈ gemHandles, h ≠ 0 → m.gemOwner h = some b
  gems : ∀ h, m.gemOwner h = some b → h ∈ gemHandles ∧ h ≠ 0 ∨ (h, b) ∈ m.closeFailed
  fb : ∀ f, m.fbOwner f = some b → (f, b) ∈ m.rmFailed

/-- What a task relies on in the record of its buffer: a copy is still right, and what a
call of `ImportBuffer` fills in is not filled in yet. -/
def NvTask.Wants (bo : HwcDrmBo) : NvTask → Prop
  | .imported bo' | .fetchSub bo' | .rmFb _ bo' => bo = bo'
  | .drmImport _ _ => bo.fbId = 0 ∧ bo.gemHandles = []
  | .addFb _ _ => bo.fbId = 0
  | _ => True

/-- The buffer of a task is as the task needs it. -/
def TaskOk (m : NvMemory) (t : NvTask) : Prop :=
  match t with
  | .getNvBuffer _ => True
  | .closeGem b gemHandles => Closing m b gemHandles
  | t => ∃ b buf, t.buf = some b ∧ t.Wants buf.bo ∧ Intact m b buf

theorem TaskOk.alloc {m : NvMemory} {t : NvTask} {b : Nat} (h : TaskOk m t) (hb : t.buf = some b) :
    ∃ buf, m.bufs b = some buf := by
  unfold TaskOk at h
  split at h
  · cases hb
  · cases hb
    exact Closing.alloc h
  · obtain ⟨b', buf, hb', _, hintact⟩ := h
    cases hb'.symm.trans hb
    exact ⟨buf, hintact.alloc⟩

/-- The buffer of a task that does not release it is intact. -/
theorem TaskOk.intact {m : NvMemory} {t : NvTask} {b : Nat} (h : TaskOk m t)
    (hb : t.buf = some b) (hrel : t.releases = false) : ∃ buf, Intact m b buf := by
  unfold TaskOk at h
  split at h
  · cases hb
  · cases hrel
  · obtain ⟨b', buf, hb', _, hintact⟩ := h
    cases hb'.symm.trans hb
    exact ⟨buf, hintact⟩

/-- Only a call that looks a handle up has no buffer. -/
theorem TaskOk.eq_getNvBuffer {m : NvMemory} {t : NvTask} (h : TaskOk m t) (hb : t.buf = none) :
    ∃ handle, t = .getNvBuffer handle := by
  unfold TaskOk at h
  split at h
  · exact ⟨_, rfl⟩
  · cases hb
  · obtain ⟨b', buf, hb', _⟩ := h
    cases hb'.symm.trans hb

/-- Two memories in which a buffer is the same, its reference count apart. -/
structure AgreeAt (b : Nat) (m m' : NvMemory) : Prop where
  bufs : (m'.bufs b).map NvBuffer.bo = (m.bufs b).map NvBuffer.bo
  gems : ∀ h, m'.gemOwner h = some b ↔ m.gemOwner h = some b
  fb : ∀ f, m'.fbOwner f = some b ↔ m.fbOwner f = some b
  closeFailed : ∀ e ∈ m.closeFailed, e ∈ m'.closeFailed
  rmFailed : ∀ e ∈ m.rmFailed, e ∈ m'.rmFailed

theorem Intact.frame {m m' : NvMemory} {b : Nat} {buf : NvBuffer} (h : Intact m b buf)
    (hagree : AgreeAt b m m') : ∃ buf', buf'.bo = buf.bo ∧ Intact m' b buf' := by
  have hbufs := hagree.bufs
  rw [h.alloc, Option.map_some] at hbufs
  obtain ⟨buf', hbuf', hbo⟩ := Option.map_eq_some_iff.mp hbufs
  refine ⟨buf', hbo, hbuf', ?_, fun h' => ?_, fun f => ?_⟩
  · rw [hbo]
    exact h.priv
  · rw [hbo]
    exact (hagree.gems h').trans (h.gems h')
  · rw [hbo]
    exact (hagree.fb f).trans (h.fb f)

theorem Closing.frame {m m' : NvMemory} {b : Nat} {gemHandles : List Nat}
    (h : Closing m b gemHandles) (hagree : AgreeAt b m m') : Closing m' b gemHandles := by
  obtain ⟨buf, hbuf⟩ := h.alloc
  have hbufs := hagree.bufs
  rw [hbuf, Option.map_some] at hbufs
  obtain ⟨buf', hbuf', _⟩ := Option.map_eq_some_iff.mp hbufs
  refine ⟨⟨buf', hbuf'⟩, fun h' hmem hne => ?_, fun h' howner => ?_, fun f howner => ?_⟩
  · exact (hagree.gems h').mpr (h.todo h' hmem hne)
  · exact (h.gems h' ((hagree.gems h').mp howner)).imp_right (hagree.closeFailed _)
  · exact hagree.rmFailed _ (h.fb f ((hagree.fb f).mp howner))

theorem TaskOk.frame {m m' : NvMemory} {t : NvTask} (h : TaskOk m t)
    (hagree : ∀ b, t.buf = some b → AgreeAt b m m') : TaskOk m' t := by
  unfold TaskOk at h ⊢
  split at h
  · trivial
  · exact Closing.frame h (hagree _ rfl)
  · obtain ⟨b, buf, hb, hwants, hintact⟩ := h
    obtain ⟨buf', hbo, hintact'⟩ := hintact.frame (hagree b hb)
    exact ⟨b, buf', hb, hbo ▸ hwants, hintact'⟩

/-! ## The invariant -/

/-- The reference count of a buffer, by the tasks: either they hold references, or one of
them releases the buffer. -/
def Counted (tasks : List NvTask) (b : Nat) (buf : NvBuffer) : Prop :=
  total (NvTask.releaseOf b) tasks = 0 ∧ 0 < total (NvTask.refsOf b) tasks ∧
      buf.ref = total (NvTask.refsOf b) tasks ∨
    total (NvTask.releaseOf b) tasks = 1 ∧ total (NvTask.refsOf b) tasks = 0

structure NvInv (s : NvState) : Prop where
  ok : ∀ t ∈ s.tasks, TaskOk s.memory t
  alone : ∀ t ∈ s.tasks, t.exclusive = true → ∀ b, t.buf = some b →
    total (NvTask.userOf b) s.tasks = 1
  counted : ∀ b buf, s.memory.bufs b = some buf → Counted s.tasks b buf
  cached : ∀ handle b, .fetchAdd handle b ∈ s.tasks → .registered handle b ∈ s.tasks
  closed : ∀ b, s.memory.bufs b = none → Closed s.memory b
  fresh : ∀ b, s.memory.nextBuf ≤ b → s.memory.bufs b = none ∧
    (∀ h, s.memory.gemOwner h ≠ some b) ∧ ∀ f, s.memory.fbOwner f ≠ some b
  sound : s.memory.misused = false

/-- A memory that differs only in one buffer. -/
def SameBut (b₀ : Nat) (m m' : NvMemory) : Prop :=
  ∀ b, b ≠ b₀ → m'.bufs b = m.bufs b ∧ AgreeAt b m m'

/-- Weights of a buffer that a step does not concern. -/
theorem total_replace_other {w : NvTask → Nat} {tasks new : List NvTask} {t : NvTask}
    (ht : t ∈ tasks) (hw : w t = 0) (hnew : ∀ t' ∈ new, w t' = 0) :
    total w (tasks.erase t ++ new) = total w tasks := by
  have hreplace := total_replace (w := w) ht new
  rw [hw, total_eq_zero hnew] at hreplace
  exact hreplace

namespace NvInv

variable {s : NvState}

/-- A step about one buffer: what has to be shown is about that buffer. -/
theorem replace (h : NvInv s) {t : NvTask} (ht : t ∈ s.tasks) {new : List NvTask} {m' : NvMemory}
    {c : Nat} (htbuf : ∀ b, t.buf = some b → b = c) (hnew : ∀ t' ∈ new, t'.buf = some c)
    (hsame : SameBut c s.memory m')
    (hothers : ∀ t' ∈ s.tasks.erase t, t'.buf = some c → TaskOk m' t')
    (hok : ∀ t' ∈ new, TaskOk m' t')
    (halone : ∀ t' ∈ s.tasks.erase t ++ new, t'.exclusive = true → t'.buf = some c →
      total (NvTask.userOf c) (s.tasks.erase t ++ new) = 1)
    (hcounted : ∀ buf, m'.bufs c = some buf → Counted (s.tasks.erase t ++ new) c buf)
    (hcached : ∀ handle, .fetchAdd handle c ∈ s.tasks.erase t ++ new →
      .registered handle c ∈ s.tasks.erase t ++ new)
    (hclosed : m'.bufs c = none → Closed m' c)
    (hnext : s.memory.nextBuf ≤ m'.nextBuf) (hlt : c < m'.nextBuf)
    (hsound : m'.misused = false) : NvInv ⟨s.tasks.erase t ++ new, m'⟩ := by
  have hother : ∀ b, b ≠ c → t.buf ≠ some b ∧ ∀ t' ∈ new, t'.buf ≠ some b := by
    refine fun b hb => ⟨fun htb => hb (htbuf b htb), fun t' ht' htb => ?_⟩
    rw [hnew t' ht'] at htb
    exact hb (Option.some.inj htb).symm
  refine ⟨fun t' ht' => ?_, fun t' ht' hexcl b hb => ?_, fun b buf hbuf => ?_,
    fun handle b hmem => ?_, fun b hnone => ?_, fun b hb => ?_, hsound⟩
  · cases List.mem_append.mp ht' with
    | inr ht' => exact hok t' ht'
    | inl ht' =>
        by_cases hb : t'.buf = some c
        · exact hothers t' ht' hb
        · apply (h.ok t' (List.mem_of_mem_erase ht')).frame
          exact fun b hb' => (hsame b fun heq : b = c => hb (heq ▸ hb')).2
  · by_cases hc : b = c
    · rw [hc] at hb ⊢
      exact halone t' ht' hexcl hb
    · obtain ⟨htb, hnewb⟩ := hother b hc
      rw [total_replace_other ht (NvTask.userOf_other htb)
        fun t' ht' => NvTask.userOf_other (hnewb t' ht')]
      cases List.mem_append.mp ht' with
      | inr ht' => exact absurd hb (hnewb t' ht')
      | inl ht' => exact h.alone t' (List.mem_of_mem_erase ht') hexcl b hb
  · by_cases hc : b = c
    · rw [hc] at hbuf ⊢
      exact hcounted buf hbuf
    · obtain ⟨htb, hnewb⟩ := hother b hc
      unfold Counted
      rw [total_replace_other ht (NvTask.releaseOf_other htb)
          fun t' ht' => NvTask.releaseOf_other (hnewb t' ht'),
        total_replace_other ht (NvTask.refsOf_other htb)
          fun t' ht' => NvTask.refsOf_other (hnewb t' ht')]
      exact h.counted b buf ((hsame b hc).1 ▸ hbuf)
  · by_cases hc : b = c
    · rw [hc] at hmem ⊢
      exact hcached handle hmem
    · obtain ⟨htb, hnewb⟩ := hother b hc
      cases List.mem_append.mp hmem with
      | inr hmem => exact absurd rfl (hnewb _ hmem)
      | inl hmem =>
          have hreg := h.cached handle b (List.mem_of_mem_erase hmem)
          apply List.mem_append_left
          apply (List.mem_erase_of_ne _).mpr hreg
          intro heq
          rw [← heq] at htb
          exact htb rfl
  · by_cases hc : b = c
    · rw [hc] at hnone ⊢
      exact hclosed hnone
    · obtain ⟨hbufs, hagree⟩ := hsame b hc
      have hold := h.closed b (hbufs ▸ hnone)
      exact ⟨hnone,
        fun h' howner => hagree.closeFailed _ (hold.gems h' ((hagree.gems h').mp howner)),
        fun f howner => hagree.rmFailed _ (hold.fb f ((hagree.fb f).mp howner))⟩
  · have hne : b ≠ c := fun heq => by
      rw [heq] at hb
      exact Nat.lt_irrefl _ (Nat.lt_of_lt_of_le hlt hb)
    obtain ⟨hbufs, hagree⟩ := hsame b hne
    obtain ⟨hnone, hgems, hfbs⟩ := h.fresh b (Nat.le_trans hnext hb)
    exact ⟨hbufs.trans hnone, fun h' howner => hgems h' ((hagree.gems h').mp howner),
      fun f howner => hfbs f ((hagree.fb f).mp howner)⟩

theorem lt_nextBuf (h : NvInv s) {b : Nat} {buf : NvBuffer} (hbuf : s.memory.bufs b = some buf) :
    b < s.memory.nextBuf := by
  apply Nat.lt_of_not_le
  intro hle
  rw [(h.fresh b hle).1] at hbuf
  cases hbuf

/-- A task that is alone with its buffer. -/
theorem others (h : NvInv s) {t : NvTask} (ht : t ∈ s.tasks) (hexcl : t.exclusive = true) {b : Nat}
    (hb : t.buf = some b) : ∀ t' ∈ s.tasks.erase t, t'.buf ≠ some b := by
  intro t' ht' hb'
  have hzero := weight_eq_zero (w := NvTask.userOf b) ht
    (Nat.le_of_eq ((h.alone t ht hexcl b hb).trans (NvTask.userOf_self hb).symm)) t' ht'
  rw [NvTask.userOf_self hb'] at hzero
  cases hzero

/-- Where a task shares its buffer, no task is alone with it. -/
theorem not_exclusive (h : NvInv s) {t : NvTask} (ht : t ∈ s.tasks) (hexcl : t.exclusive = false)
    {b : Nat} (hb : t.buf = some b) {t' : NvTask} (ht' : t' ∈ s.tasks) (hb' : t'.buf = some b) :
    t'.exclusive = false := by
  apply Bool.eq_false_iff.mpr
  intro htrue
  have hne : t ≠ t' := fun heq => by
    rw [heq, htrue] at hexcl
    cases hexcl
  exact h.others ht' htrue hb' t ((List.mem_erase_of_ne hne).mpr ht) hb

/-- A task that shares its buffer holds a reference, or gralloc does. -/
theorem refs_pos (h : NvInv s) {t : NvTask} (ht : t ∈ s.tasks) (hexcl : t.exclusive = false)
    {b : Nat} (hb : t.buf = some b) : 0 < total (NvTask.refsOf b) s.tasks := by
  have hone : ∀ t' ∈ s.tasks, t'.buf = some b → t'.refs = 1 →
      0 < total (NvTask.refsOf b) s.tasks := by
    intro t' ht' hb' hrefs
    have hle := le_total (w := NvTask.refsOf b) ht'
    rw [NvTask.refsOf_self hb', hrefs] at hle
    exact hle
  cases NvTask.refs_of_shared hexcl hb with
  | inl hrefs => exact hone t ht hb hrefs
  | inr hadd =>
      obtain ⟨handle, rfl⟩ := hadd
      exact hone _ (h.cached handle b ht) rfl rfl

/-- The count of a shared buffer. -/
theorem shared_counted (h : NvInv s) {t : NvTask} (ht : t ∈ s.tasks) (hexcl : t.exclusive = false)
    {b : Nat} (hb : t.buf = some b) {buf : NvBuffer} (hbuf : s.memory.bufs b = some buf) :
    total (NvTask.releaseOf b) s.tasks = 0 ∧ buf.ref = total (NvTask.refsOf b) s.tasks := by
  have hpos := h.refs_pos ht hexcl hb
  cases h.counted b buf hbuf with
  | inl hin => exact ⟨hin.1, hin.2.2⟩
  | inr hout => omega

theorem not_releases {t : NvTask} (h : t.exclusive = false) : t.releases = false := by
  cases t with
  | rmFb b bo => cases h
  | closeGem b gemHandles => cases h
  | imported bo => rfl
  | registered handle b => rfl
  | getNvBuffer handle => rfl
  | fetchAdd handle b => rfl
  | drmImport handle b => rfl
  | addFb handle b => rfl
  | setNvBuffer handle b => rfl
  | copyBo handle b => rfl
  | fetchSub bo => rfl

/-- A step of a task that shares its buffer, to tasks that share it too. -/
theorem shared (h : NvInv s) {t : NvTask} (ht : t ∈ s.tasks) (hexcl : t.exclusive = false)
    {b : Nat} (hb : t.buf = some b) {new : List NvTask} {m' : NvMemory} {buf buf' : NvBuffer}
    (hbuf : s.memory.bufs b = some buf) (hbuf' : m'.bufs b = some buf')
    (hnew : ∀ t' ∈ new, t'.buf = some b ∧ t'.exclusive = false) (hok : ∀ t' ∈ new, TaskOk m' t')
    (hsame : SameBut b s.memory m') (hagree : AgreeAt b s.memory m')
    (href : buf'.ref + t.refs = buf.ref + total (NvTask.refsOf b) new) (hpos : 0 < buf'.ref)
    (hcached : ∀ handle, .fetchAdd handle b ∈ s.tasks.erase t ++ new →
      .registered handle b ∈ s.tasks.erase t ++ new)
    (hnext : m'.nextBuf = s.memory.nextBuf) (hsound : m'.misused = false) :
    NvInv ⟨s.tasks.erase t ++ new, m'⟩ := by
  have hlt := h.lt_nextBuf hbuf
  apply h.replace ht (c := b) _ (fun t' ht' => (hnew t' ht').1) hsame _ hok _ _ hcached _
    (Nat.le_of_eq hnext.symm) (hnext ▸ hlt) hsound
  · exact fun b' hb' => Option.some.inj (hb'.symm.trans hb)
  · intro t' ht' hb'
    apply (h.ok t' (List.mem_of_mem_erase ht')).frame
    intro b' hb''
    cases hb'.symm.trans hb''
    exact hagree
  · intro t' ht' hexcl' hb'
    cases List.mem_append.mp ht' with
    | inl ht' =>
        rw [h.not_exclusive ht hexcl hb (List.mem_of_mem_erase ht') hb'] at hexcl'
        cases hexcl'
    | inr ht' =>
        rw [(hnew t' ht').2] at hexcl'
        cases hexcl'
  · intro buf'' hbuf''
    cases hbuf'.symm.trans hbuf''
    obtain ⟨hrel, hcount⟩ := h.shared_counted ht hexcl hb hbuf
    have hrefs := total_replace (w := NvTask.refsOf b) ht new
    have hrels := total_replace (w := NvTask.releaseOf b) ht new
    rw [NvTask.refsOf_self hb] at hrefs
    rw [NvTask.releaseOf_of_not (not_releases hexcl),
      total_eq_zero fun t' ht' => NvTask.releaseOf_of_not (not_releases (hnew t' ht').2)] at hrels
    left
    omega
  · intro hnone
    rw [hbuf'] at hnone
    cases hnone

/-- A step of a task that is alone with its buffer. -/
theorem step_alone (h : NvInv s) {t : NvTask} (ht : t ∈ s.tasks) (hexcl : t.exclusive = true)
    {b : Nat} (hb : t.buf = some b) {new : List NvTask} {m' : NvMemory}
    (hnew : ∀ t' ∈ new, t'.buf = some b ∧ ∀ handle, t' ≠ .fetchAdd handle b)
    (hok : ∀ t' ∈ new, TaskOk m' t') (hsame : SameBut b s.memory m')
    (halone : ∀ t' ∈ new, t'.exclusive = true → new.length = 1)
    (hcounted : ∀ buf, m'.bufs b = some buf → Counted new b buf)
    (hclosed : m'.bufs b = none → Closed m' b)
    (hnext : m'.nextBuf = s.memory.nextBuf) (hsound : m'.misused = false) :
    NvInv ⟨s.tasks.erase t ++ new, m'⟩ := by
  have hothers := h.others ht hexcl hb
  obtain ⟨buf, hbuf⟩ := (h.ok t ht).alloc hb
  have hlt := h.lt_nextBuf hbuf
  have hzero : ∀ w : NvTask → Nat, (∀ t', t'.buf ≠ some b → w t' = 0) →
      total w (s.tasks.erase t ++ new) = total w new := by
    intro w hw
    rw [total_append, total_eq_zero fun t' ht' => hw t' (hothers t' ht'), Nat.zero_add]
  apply h.replace ht (c := b) _ (fun t' ht' => (hnew t' ht').1) hsame _ hok _ _ _ hclosed
    (Nat.le_of_eq hnext.symm) (hnext ▸ hlt) hsound
  · exact fun b' hb' => Option.some.inj (hb'.symm.trans hb)
  · exact fun t' ht' hb' => absurd hb' (hothers t' ht')
  · intro t' ht' hexcl' hb'
    rw [hzero _ fun t' => NvTask.userOf_other]
    cases List.mem_append.mp ht' with
    | inl ht' => exact absurd hb' (hothers t' ht')
    | inr ht' =>
        obtain ⟨t₁, ht₁⟩ := List.length_eq_one_iff.mp (halone t' ht' hexcl')
        have hb₁ := (hnew t₁ (ht₁ ▸ List.mem_cons_self)).1
        rw [ht₁, total_cons, total_nil, NvTask.userOf_self hb₁]
  · intro buf' hbuf'
    unfold Counted
    rw [hzero _ fun t' => NvTask.releaseOf_other, hzero _ fun t' => NvTask.refsOf_other]
    exact hcounted buf' hbuf'
  · intro handle hmem
    cases List.mem_append.mp hmem with
    | inl hmem => exact absurd rfl (hothers _ hmem)
    | inr hmem => exact absurd rfl ((hnew _ hmem).2 handle)

end NvInv

/-! ## Changes of the memory -/

theorem AgreeAt.refl (b : Nat) (m : NvMemory) : AgreeAt b m m :=
  ⟨rfl, fun _ => Iff.rfl, fun _ => Iff.rfl, fun _ he => he, fun _ he => he⟩

theorem SameBut.refl (b : Nat) (m : NvMemory) : SameBut b m m :=
  fun b' _ => ⟨rfl, AgreeAt.refl b' m⟩

theorem SameBut.trans {b : Nat} {m m' m'' : NvMemory} (h : SameBut b m m')
    (h' : SameBut b m' m'') : SameBut b m m'' := by
  intro b' hb'
  obtain ⟨hbufs, hagree⟩ := h b' hb'
  obtain ⟨hbufs', hagree'⟩ := h' b' hb'
  exact ⟨hbufs'.trans hbufs, hagree'.bufs.trans hagree.bufs,
    fun h => (hagree'.gems h).trans (hagree.gems h), fun f => (hagree'.fb f).trans (hagree.fb f),
    fun e he => hagree'.closeFailed e (hagree.closeFailed e he),
    fun e he => hagree'.rmFailed e (hagree.rmFailed e he)⟩

theorem bufs_setBuf (m : NvMemory) (b : Nat) (buf : Option NvBuffer) :
    (m.setBuf b buf).bufs b = buf :=
  if_pos rfl

theorem sameBut_setBuf (m : NvMemory) (b : Nat) (buf : Option NvBuffer) :
    SameBut b m (m.setBuf b buf) := by
  intro b' hb'
  have hbufs : (m.setBuf b buf).bufs b' = m.bufs b' := if_neg hb'
  exact ⟨hbufs, congrArg _ hbufs, fun _ => Iff.rfl, fun _ => Iff.rfl, fun _ he => he,
    fun _ he => he⟩

/-- A new reference count. -/
theorem agreeAt_setRef {m : NvMemory} {b : Nat} {buf : NvBuffer} (hbuf : m.bufs b = some buf)
    (ref : Int) : AgreeAt b m (m.setBuf b (some { buf with ref })) := by
  refine ⟨?_, fun _ => Iff.rfl, fun _ => Iff.rfl, fun _ he => he, fun _ he => he⟩
  rw [bufs_setBuf, hbuf]
  rfl

theorem sameBut_openGems {m : NvMemory} {b : Nat} {gemHandles : List Nat}
    (hfree : ∀ h ∈ gemHandles, h ≠ 0 → m.gemOwner h = none) :
    SameBut b m (m.openGems b gemHandles) := by
  intro b' hb'
  refine ⟨rfl, rfl, fun h => ?_, fun _ => Iff.rfl, fun _ he => he, fun _ he => he⟩
  change (if h ≠ 0 ∧ h ∈ gemHandles then some b else m.gemOwner h) = some b' ↔ _
  by_cases hmem : h ≠ 0 ∧ h ∈ gemHandles
  · rw [if_pos hmem, hfree h hmem.2 hmem.1]
    exact iff_of_false (fun heq => hb' (Option.some.inj heq).symm) fun heq => by cases heq
  · rw [if_neg hmem]

theorem sameBut_addFb {m : NvMemory} {b fb : Nat} (hfree : m.fbOwner fb = none) :
    SameBut b m (m.addFb b fb) := by
  intro b' hb'
  refine ⟨rfl, rfl, fun _ => Iff.rfl, fun f => ?_, fun _ he => he, fun _ he => he⟩
  change (if f = fb then some b else m.fbOwner f) = some b' ↔ _
  by_cases heq : f = fb
  · rw [if_pos heq, heq, hfree]
    exact iff_of_false (fun heq => hb' (Option.some.inj heq).symm) fun heq => by cases heq
  · rw [if_neg heq]

theorem sameBut_rmFb {m : NvMemory} {b fb : Nat} (howner : m.fbOwner fb = some b) (ok : Bool) :
    SameBut b m (m.rmFb b fb ok) := by
  intro b' hb'
  unfold NvMemory.rmFb
  rw [if_pos howner]
  cases ok with
  | false =>
      exact ⟨rfl, rfl, fun _ => Iff.rfl, fun _ => Iff.rfl, fun _ he => he,
        fun e he => List.mem_append_left _ he⟩
  | true =>
      refine ⟨rfl, rfl, fun _ => Iff.rfl, fun f => ?_, fun _ he => he, fun _ he => he⟩
      change (if f = fb then none else m.fbOwner f) = some b' ↔ _
      by_cases heq : f = fb
      · rw [if_pos heq, heq, howner]
        exact iff_of_false (fun heq => by cases heq) fun heq => hb' (Option.some.inj heq).symm
      · rw [if_neg heq]

theorem sameBut_closeGem {m : NvMemory} {b h : Nat} (howner : m.gemOwner h = some b) (ok : Bool) :
    SameBut b m (m.closeGem b h ok) := by
  intro b' hb'
  unfold NvMemory.closeGem
  rw [if_pos howner]
  cases ok with
  | false =>
      exact ⟨rfl, rfl, fun _ => Iff.rfl, fun _ => Iff.rfl, fun e he => List.mem_append_left _ he,
        fun _ he => he⟩
  | true =>
      refine ⟨rfl, rfl, fun h' => ?_, fun _ => Iff.rfl, fun _ he => he, fun _ he => he⟩
      change (if h' = h then none else m.gemOwner h') = some b' ↔ _
      by_cases heq : h' = h
      · rw [if_pos heq, heq, howner]
        exact iff_of_false (fun heq => by cases heq) fun heq => hb' (Option.some.inj heq).symm
      · rw [if_neg heq]

/-! ## One step -/

theorem counted_building {t : NvTask} {b : Nat} {buf : NvBuffer} (hb : t.buf = some b)
    (hrefs : t.refs = 2) (hrel : t.releases = false) (href : buf.ref = 2) : Counted [t] b buf := by
  left
  rw [total_cons, total_nil, total_cons, total_nil, NvTask.releaseOf_of_not hrel,
    NvTask.refsOf_self hb, hrefs, href]
  exact ⟨rfl, Nat.zero_lt_succ 1, rfl⟩

theorem counted_releasing {t : NvTask} {b : Nat} (buf : NvBuffer) (hb : t.buf = some b)
    (hrefs : t.refs = 0) (hrel : t.releases = true) : Counted [t] b buf := by
  right
  rw [total_cons, total_nil, total_cons, total_nil, NvTask.releaseOf_self hb hrel,
    NvTask.refsOf_self hb, hrefs]
  exact ⟨rfl, rfl⟩

namespace NvInv

variable {s : NvState} {answer : NvAnswer}

/-- A buffer that is being built has the references it was made with. -/
theorem ref_of_building (h : NvInv s) {t : NvTask} (ht : t ∈ s.tasks) (hexcl : t.exclusive = true)
    {b : Nat} (hb : t.buf = some b) (hrefs : t.refs = 2) {buf : NvBuffer}
    (hbuf : s.memory.bufs b = some buf) : buf.ref = 2 := by
  have htotal := total_erase (w := NvTask.refsOf b) ht
  rw [total_eq_zero fun t' ht' => NvTask.refsOf_other (h.others ht hexcl hb t' ht'),
    NvTask.refsOf_self hb, hrefs] at htotal
  cases h.counted b buf hbuf with
  | inl hin => omega
  | inr hout => omega

/-- Registrations stay while other tasks make their steps. -/
theorem cached_erase (h : NvInv s) {t : NvTask} {b : Nat} {new : List NvTask}
    (hne : ∀ handle, t ≠ .registered handle b) (hnew : ∀ handle, .fetchAdd handle b ∉ new)
    (handle : Nat) (hmem : .fetchAdd handle b ∈ s.tasks.erase t ++ new) :
    .registered handle b ∈ s.tasks.erase t ++ new := by
  cases List.mem_append.mp hmem with
  | inr hmem => exact absurd hmem (hnew handle)
  | inl hmem =>
      apply List.mem_append_left
      exact (List.mem_erase_of_ne (hne handle).symm).mpr
        (h.cached handle b (List.mem_of_mem_erase hmem))

/-- A step that only turns one shared task into another with as many references. -/
theorem pass_on (h : NvInv s) {t : NvTask} (t' : NvTask) (ht : t ∈ s.tasks)
    (hexcl : t.exclusive = false) {b : Nat} (hb : t.buf = some b) (hrefs : t.refs = 1)
    (hb' : t'.buf = some b)
    (hexcl' : t'.exclusive = false) (hrefs' : t'.refs = 1) (hok : TaskOk s.memory t')
    (hcached : ∀ handle, .fetchAdd handle b ∈ s.tasks.erase t ++ [t'] →
      .registered handle b ∈ s.tasks.erase t ++ [t']) :
    NvInv ⟨s.tasks.erase t ++ [t'], s.memory⟩ := by
  obtain ⟨buf, hbuf⟩ := (h.ok t ht).alloc hb
  have hpos := h.refs_pos ht hexcl hb
  have hcount := (h.shared_counted ht hexcl hb hbuf).2
  apply h.shared ht hexcl hb hbuf hbuf _ _ (SameBut.refl b s.memory) (AgreeAt.refl b s.memory) _ _
    hcached rfl h.sound
  · intro t₁ ht₁
    rw [List.mem_singleton.mp ht₁]
    exact ⟨hb', hexcl'⟩
  · intro t₁ ht₁
    rw [List.mem_singleton.mp ht₁]
    exact hok
  · rw [total_cons, total_nil, NvTask.refsOf_self hb', hrefs, hrefs', Nat.add_zero]
  · omega

theorem run_imported (h : NvInv s) {bo : HwcDrmBo} (ht : .imported bo ∈ s.tasks) :
    NvInv ⟨s.tasks.erase (.imported bo) ++ [.fetchSub bo], s.memory⟩ := by
  obtain ⟨b, buf, hb, hwants, hintact⟩ := h.ok _ ht
  apply h.pass_on (.fetchSub bo) ht rfl hb rfl hb rfl rfl ⟨b, buf, hb, hwants, hintact⟩
  apply h.cached_erase
  · exact fun handle heq => by cases heq
  · exact fun handle hmem => by cases List.mem_singleton.mp hmem

theorem run_registered (h : NvInv s) {handle b : Nat} (ht : .registered handle b ∈ s.tasks)
    (hok : NvOk s (.run (.registered handle b) answer)) :
    ∃ buf, s.memory.bufs b = some buf ∧
      NvInv ⟨s.tasks.erase (.registered handle b) ++ [.fetchSub buf.bo], s.memory⟩ := by
  obtain ⟨b', buf, hb, _, hintact⟩ := h.ok _ ht
  cases hb
  refine ⟨buf, hintact.alloc, ?_⟩
  apply h.pass_on (.fetchSub buf.bo) ht rfl rfl rfl hintact.priv rfl rfl
    ⟨b, buf, hintact.priv, rfl, hintact⟩
  intro handle' hmem
  cases List.mem_append.mp hmem with
  | inr hmem => cases List.mem_singleton.mp hmem
  | inl hmem =>
      -- no import of this handle is under way
      have hcall := List.mem_of_mem_erase hmem
      have hne : handle' ≠ handle := fun heq => hok _ hcall (congrArg some heq)
      apply List.mem_append_left
      apply (List.mem_erase_of_ne _).mpr (h.cached handle' b hcall)
      intro heq
      cases heq
      exact hne rfl

/-- `ImportBuffer` finds a buffer, which gralloc holds. -/
theorem run_getNvBuffer_found (h : NvInv s) {handle b : Nat} (ht : .getNvBuffer handle ∈ s.tasks)
    (hreg : .registered handle b ∈ s.tasks) :
    NvInv ⟨s.tasks.erase (.getNvBuffer handle) ++ [.fetchAdd handle b], s.memory⟩ := by
  obtain ⟨b', buf, hb, _, hintact⟩ := h.ok _ hreg
  cases hb
  have hreg' : .registered handle b ∈ s.tasks.erase (.getNvBuffer handle) :=
    (List.mem_erase_of_ne fun heq => by cases heq).mpr hreg
  have hnew : ∀ t' ∈ [NvTask.fetchAdd handle b], t' = .fetchAdd handle b :=
    fun t' ht' => List.mem_singleton.mp ht'
  apply h.replace ht (c := b) (fun b' hb' => by cases hb') _ (SameBut.refl b s.memory) _ _ _ _ _ _
    (Nat.le_refl _) (h.lt_nextBuf hintact.alloc) h.sound
  · exact fun t' ht' => hnew t' ht' ▸ rfl
  · exact fun t' ht' _ => h.ok t' (List.mem_of_mem_erase ht')
  · exact fun t' ht' => hnew t' ht' ▸ ⟨b, buf, rfl, trivial, hintact⟩
  · intro t' ht' hexcl hb'
    cases List.mem_append.mp ht' with
    | inl ht' =>
        rw [h.not_exclusive hreg rfl rfl (List.mem_of_mem_erase ht') hb'] at hexcl
        cases hexcl
    | inr ht' =>
        rw [hnew t' ht'] at hexcl
        cases hexcl
  · intro buf' hbuf'
    cases hintact.alloc.symm.trans hbuf'
    unfold Counted
    rw [total_replace_other ht rfl fun t' ht' => hnew t' ht' ▸ NvTask.releaseOf_of_not rfl,
      total_replace_other ht rfl fun t' ht' => hnew t' ht' ▸ ite_self 0]
    exact h.counted b buf hintact.alloc
  · intro handle' hmem
    apply List.mem_append_left
    cases List.mem_append.mp hmem with
    | inl hmem =>
        exact (List.mem_erase_of_ne fun heq => by cases heq).mpr
          (h.cached handle' b (List.mem_of_mem_erase hmem))
    | inr hmem =>
        cases hnew _ hmem
        exact hreg'
  · intro hnone
    rw [hintact.alloc] at hnone
    cases hnone

/-- `ImportBuffer` makes a buffer. -/
theorem run_getNvBuffer_new (h : NvInv s) {handle : Nat} (ht : .getNvBuffer handle ∈ s.tasks) :
    NvInv ⟨s.tasks.erase (.getNvBuffer handle) ++ [.drmImport handle s.memory.nextBuf],
      { s.memory.setBuf s.memory.nextBuf (some ⟨⟨some s.memory.nextBuf, 0, []⟩, 2⟩) with
        nextBuf := s.memory.nextBuf + 1 }⟩ := by
  obtain ⟨hnone, hgems, hfbs⟩ := h.fresh s.memory.nextBuf (Nat.le_refl _)
  have hunused : ∀ t ∈ s.tasks, t.buf ≠ some s.memory.nextBuf := by
    intro t ht hb
    obtain ⟨buf, hbuf⟩ := (h.ok t ht).alloc hb
    rw [hnone] at hbuf
    cases hbuf
  have hothers : ∀ t' ∈ s.tasks.erase (.getNvBuffer handle), t'.buf ≠ some s.memory.nextBuf :=
    fun t' ht' => hunused t' (List.mem_of_mem_erase ht')
  have hnew : ∀ t' ∈ [NvTask.drmImport handle s.memory.nextBuf],
      t' = .drmImport handle s.memory.nextBuf := fun t' ht' => List.mem_singleton.mp ht'
  have hzero : ∀ w : NvTask → Nat, (∀ t', t'.buf ≠ some s.memory.nextBuf → w t' = 0) →
      total w (s.tasks.erase (.getNvBuffer handle) ++ [.drmImport handle s.memory.nextBuf]) =
        total w [.drmImport handle s.memory.nextBuf] := by
    intro w hw
    rw [total_append, total_eq_zero fun t' ht' => hw t' (hothers t' ht'), Nat.zero_add]
  have hbufs := bufs_setBuf s.memory s.memory.nextBuf (some ⟨⟨some s.memory.nextBuf, 0, []⟩, 2⟩)
  apply h.replace ht (c := s.memory.nextBuf) (fun b' hb' => by cases hb')
    (fun t' ht' => hnew t' ht' ▸ rfl) _ (fun t' ht' hb' => absurd hb' (hothers t' ht')) _ _ _ _ _
    (Nat.le_succ _) (Nat.lt_succ_self _) _
  · intro b hb
    obtain ⟨hbufs', hagree⟩ := sameBut_setBuf s.memory s.memory.nextBuf
      (some ⟨⟨some s.memory.nextBuf, 0, []⟩, 2⟩) b hb
    exact ⟨hbufs', hagree.bufs, hagree.gems, hagree.fb, hagree.closeFailed, hagree.rmFailed⟩
  · intro t' ht'
    rw [hnew t' ht']
    refine ⟨_, _, rfl, ⟨rfl, rfl⟩, hbufs, rfl, fun h' => ?_, fun f => ?_⟩
    · exact iff_of_false (hgems h') fun hboth => absurd hboth.2 List.not_mem_nil
    · exact iff_of_false (hfbs f) fun hboth => hboth.1 hboth.2
  · intro t' _ _ _
    rw [hzero _ fun t' => NvTask.userOf_other, total_cons, total_nil, NvTask.userOf_self rfl]
  · intro buf hbuf
    cases hbufs.symm.trans hbuf
    unfold Counted
    rw [hzero _ fun t' => NvTask.releaseOf_other, hzero _ fun t' => NvTask.refsOf_other]
    exact counted_building rfl rfl rfl rfl
  · intro handle' hmem
    cases List.mem_append.mp hmem with
    | inl hmem => exact absurd rfl (hothers _ hmem)
    | inr hmem => cases hnew _ hmem
  · intro hnone'
    rw [hbufs] at hnone'
    cases hnone'
  · exact h.sound

theorem run_fetchAdd (h : NvInv s) {handle b : Nat} (ht : .fetchAdd handle b ∈ s.tasks) :
    ∃ buf, s.memory.bufs b = some buf ∧
      NvInv ⟨s.tasks.erase (.fetchAdd handle b) ++ [.copyBo handle b],
        s.memory.setBuf b (some { buf with ref := buf.ref + 1 })⟩ := by
  obtain ⟨b', buf, hb, _, hintact⟩ := h.ok _ ht
  cases hb
  have hagree := agreeAt_setRef hintact.alloc (buf.ref + 1)
  have hpos := h.refs_pos ht rfl rfl
  have hcount := (h.shared_counted ht rfl rfl hintact.alloc).2
  refine ⟨buf, hintact.alloc, ?_⟩
  apply h.shared ht rfl rfl hintact.alloc (bufs_setBuf _ _ _) _ _
    (sameBut_setBuf _ _ _) hagree _ _ _
    rfl h.sound
  · intro t' ht'
    rw [List.mem_singleton.mp ht']
    exact ⟨rfl, rfl⟩
  · intro t' ht'
    rw [List.mem_singleton.mp ht']
    obtain ⟨buf', _, hintact'⟩ := hintact.frame hagree
    exact ⟨b, buf', rfl, trivial, hintact'⟩
  · rw [total_cons, total_nil, NvTask.refsOf_self rfl]
    change buf.ref + 1 + 0 = buf.ref + 1
    omega
  · change 0 < buf.ref + 1
    omega
  · apply h.cached_erase
    · exact fun handle heq => by cases heq
    · exact fun handle hmem => by cases List.mem_singleton.mp hmem

theorem run_copyBo (h : NvInv s) {handle b : Nat} (ht : .copyBo handle b ∈ s.tasks) :
    ∃ buf, s.memory.bufs b = some buf ∧
      NvInv ⟨s.tasks.erase (.copyBo handle b) ++ [.imported buf.bo], s.memory⟩ := by
  obtain ⟨b', buf, hb, _, hintact⟩ := h.ok _ ht
  cases hb
  refine ⟨buf, hintact.alloc, ?_⟩
  apply h.pass_on (.imported buf.bo) ht rfl rfl rfl hintact.priv rfl rfl
    ⟨b, buf, hintact.priv, rfl, hintact⟩
  apply h.cached_erase
  · exact fun handle heq => by cases heq
  · exact fun handle hmem => by cases List.mem_singleton.mp hmem

/-- A step of a task that is alone with its buffer, to another such task. -/
theorem step_alone_to (h : NvInv s) {t : NvTask} (ht : t ∈ s.tasks) (hexcl : t.exclusive = true)
    {b : Nat} (hb : t.buf = some b) (t' : NvTask) {m' : NvMemory} {buf' : NvBuffer}
    (hb' : t'.buf = some b) (hexcl' : t'.exclusive = true) (hok : TaskOk m' t')
    (hsame : SameBut b s.memory m') (hbuf' : m'.bufs b = some buf')
    (hcounted : Counted [t'] b buf') (hnext : m'.nextBuf = s.memory.nextBuf)
    (hsound : m'.misused = false) : NvInv ⟨s.tasks.erase t ++ [t'], m'⟩ := by
  have hnew : ∀ t₁ ∈ [t'], t₁ = t' := fun t₁ ht₁ => List.mem_singleton.mp ht₁
  apply h.step_alone ht hexcl hb _ (fun t₁ ht₁ => hnew t₁ ht₁ ▸ hok) hsame (fun _ _ _ => rfl) _ _
    hnext hsound
  · intro t₁ ht₁
    rw [hnew t₁ ht₁]
    refine ⟨hb', fun handle heq => ?_⟩
    rw [heq] at hexcl'
    cases hexcl'
  · intro buf hbuf
    cases hbuf'.symm.trans hbuf
    exact hcounted
  · intro hnone
    rw [hbuf'] at hnone
    cases hnone

/-- `delete`, when nothing of the buffer is left open. -/
theorem step_delete (h : NvInv s) {t : NvTask} (ht : t ∈ s.tasks) (hexcl : t.exclusive = true)
    {b : Nat} (hb : t.buf = some b)
    (hgems : ∀ h', s.memory.gemOwner h' = some b → (h', b) ∈ s.memory.closeFailed)
    (hfb : ∀ f, s.memory.fbOwner f = some b → (f, b) ∈ s.memory.rmFailed) :
    NvInv ⟨s.tasks.erase t ++ [], s.memory.setBuf b none⟩ := by
  have hnil : ∀ t' ∈ ([] : List NvTask), False := fun t' ht' => List.not_mem_nil ht'
  apply h.step_alone ht hexcl hb (fun t' ht' => (hnil t' ht').elim)
    (fun t' ht' => (hnil t' ht').elim) (sameBut_setBuf _ _ _) (fun t' ht' => (hnil t' ht').elim)
    _ _ rfl h.sound
  · intro buf hbuf
    rw [bufs_setBuf] at hbuf
    cases hbuf
  · exact fun hnone => ⟨hnone, hgems, hfb⟩

theorem run_drmImport (h : NvInv s) {handle b : Nat} (ht : .drmImport handle b ∈ s.tasks)
    (hok : NvOk s (.run (.drmImport handle b) answer)) :
    ∃ r, NvTask.run s.memory answer (.drmImport handle b) = some r ∧
      NvInv ⟨s.tasks.erase (.drmImport handle b) ++ r.1, r.2⟩ := by
  obtain ⟨b', buf, hb, hwants, hintact⟩ := h.ok _ ht
  cases hb
  have href := h.ref_of_building ht rfl rfl rfl hintact.alloc
  simp only [NvTask.run, hintact.alloc]
  cases hgems : answer.gemHandles with
  | none =>
      refine ⟨_, rfl, h.step_delete ht rfl rfl (fun h' howner => ?_) fun f howner => ?_⟩
      · have hmem := ((hintact.gems h').mp howner).2
        rw [hwants.2] at hmem
        exact absurd hmem List.not_mem_nil
      · obtain ⟨hne, heq⟩ := (hintact.fb f).mp howner
        exact absurd (heq.trans hwants.1) hne
  | some gemHandles =>
      have hfree := hok gemHandles hgems
      have hbuf : ((s.memory.setBuf b
          (some { buf with bo := { buf.bo with gemHandles } })).openGems b gemHandles).bufs b =
            some { buf with bo := { buf.bo with gemHandles } } :=
        bufs_setBuf _ _ _
      refine ⟨_, rfl,
        h.step_alone_to ht rfl rfl (.addFb handle b) rfl rfl ?_ ?_ hbuf ?_ rfl h.sound⟩
      · refine ⟨b, { buf with bo := { buf.bo with gemHandles } }, rfl, hwants.1, hbuf, hintact.priv,
          fun h' => ?_, hintact.fb⟩
        change (if h' ≠ 0 ∧ h' ∈ gemHandles then some b else s.memory.gemOwner h') = some b ↔ _
        by_cases hmem : h' ≠ 0 ∧ h' ∈ gemHandles
        · rw [if_pos hmem]
          exact iff_of_true rfl hmem
        · rw [if_neg hmem]
          refine iff_of_false (fun howner => ?_) hmem
          have hold := ((hintact.gems h').mp howner).2
          rw [hwants.2] at hold
          exact absurd hold List.not_mem_nil
      · apply (sameBut_setBuf s.memory b _).trans
        exact sameBut_openGems hfree
      · exact counted_building rfl rfl rfl href

theorem run_addFb (h : NvInv s) {handle b : Nat} (ht : .addFb handle b ∈ s.tasks)
    (hok : NvOk s (.run (.addFb handle b) answer)) :
    ∃ r, NvTask.run s.memory answer (.addFb handle b) = some r ∧
      NvInv ⟨s.tasks.erase (.addFb handle b) ++ r.1, r.2⟩ := by
  obtain ⟨b', buf, hb, hwants, hintact⟩ := h.ok _ ht
  cases hb
  have hwants : buf.bo.fbId = 0 := hwants
  have href := h.ref_of_building ht rfl rfl rfl hintact.alloc
  simp only [NvTask.run, hintact.alloc]
  cases hfb : answer.fb with
  | none =>
      exact ⟨_, rfl, h.step_alone_to ht rfl rfl (.rmFb b buf.bo) rfl rfl
        ⟨b, buf, rfl, rfl, hintact⟩ (SameBut.refl b s.memory) hintact.alloc
        (counted_releasing buf rfl rfl rfl) rfl h.sound⟩
  | some fbId =>
      obtain ⟨hne, hfree⟩ := hok fbId hfb
      have hbuf : ((s.memory.setBuf b (some { buf with bo := { buf.bo with fbId } })).addFb b
          fbId).bufs b = some { buf with bo := { buf.bo with fbId } } := bufs_setBuf _ _ _
      refine ⟨_, rfl, h.step_alone_to ht rfl rfl (.setNvBuffer handle b) rfl rfl ?_ ?_ hbuf ?_ rfl
        h.sound⟩
      · refine ⟨b, _, rfl, trivial, hbuf, hintact.priv, hintact.gems, fun f => ?_⟩
        change (if f = fbId then some b else s.memory.fbOwner f) = some b ↔ f ≠ 0 ∧ f = fbId
        by_cases heq : f = fbId
        · rw [if_pos heq]
          exact iff_of_true rfl ⟨fun hzero => hne (heq ▸ hzero), heq⟩
        · rw [if_neg heq]
          refine iff_of_false (fun howner => ?_) fun hboth => heq hboth.2
          obtain ⟨hf, hfeq⟩ := (hintact.fb f).mp howner
          exact hf (hfeq.trans hwants)
      · apply (sameBut_setBuf s.memory b _).trans
        exact sameBut_addFb hfree
      · exact counted_building rfl rfl rfl href

/-- A buffer that has been built is registered and imported, or released again. -/
theorem run_setNvBuffer (h : NvInv s) {handle b : Nat} (ht : .setNvBuffer handle b ∈ s.tasks) :
    ∃ r, NvTask.run s.memory answer (.setNvBuffer handle b) = some r ∧
      NvInv ⟨s.tasks.erase (.setNvBuffer handle b) ++ r.1, r.2⟩ := by
  obtain ⟨b', buf, hb, _, hintact⟩ := h.ok _ ht
  cases hb
  have href := h.ref_of_building ht rfl rfl rfl hintact.alloc
  simp only [NvTask.run, hintact.alloc]
  cases hset : answer.ok with
  | false =>
      exact ⟨_, rfl, h.step_alone_to ht rfl rfl (.rmFb b buf.bo) rfl rfl
        ⟨b, buf, rfl, rfl, hintact⟩ (SameBut.refl b s.memory) hintact.alloc
        (counted_releasing buf rfl rfl rfl) rfl h.sound⟩
  | true =>
      refine ⟨_, rfl, ?_⟩
      have hnew : ∀ t' ∈ [NvTask.registered handle b, .copyBo handle b],
          t' = .registered handle b ∨ t' = .copyBo handle b := by
        intro t' ht'
        rw [List.mem_cons, List.mem_singleton] at ht'
        exact ht'
      apply h.step_alone ht rfl rfl _ _ (SameBut.refl b s.memory) _ _ _ rfl h.sound
      · intro t' ht'
        cases hnew t' ht' with
        | inl heq => rw [heq]; exact ⟨rfl, fun handle' heq => by cases heq⟩
        | inr heq => rw [heq]; exact ⟨rfl, fun handle' heq => by cases heq⟩
      · intro t' ht'
        cases hnew t' ht' with
        | inl heq => rw [heq]; exact ⟨b, buf, rfl, trivial, hintact⟩
        | inr heq => rw [heq]; exact ⟨b, buf, rfl, trivial, hintact⟩
      · intro t' ht' hexcl
        cases hnew t' ht' with
        | inl heq => rw [heq] at hexcl; cases hexcl
        | inr heq => rw [heq] at hexcl; cases hexcl
      · intro buf' hbuf'
        cases hintact.alloc.symm.trans hbuf'
        have hrefs : total (NvTask.refsOf b) [.registered handle b, .copyBo handle b] = 2 := by
          rw [total_cons, total_cons, total_nil, NvTask.refsOf_self rfl, NvTask.refsOf_self rfl]
          rfl
        left
        rw [hrefs, href]
        refine ⟨total_eq_zero fun t' ht' => ?_, Nat.zero_lt_succ 1, rfl⟩
        cases hnew t' ht' with
        | inl heq => rw [heq]; exact NvTask.releaseOf_of_not rfl
        | inr heq => rw [heq]; exact NvTask.releaseOf_of_not rfl
      · intro hnone
        rw [hintact.alloc] at hnone
        cases hnone

/-- `ReleaseBuffer`: a reference less, or the start of `ReleaseBufferImpl`. -/
theorem run_fetchSub (h : NvInv s) {bo : HwcDrmBo} (ht : .fetchSub bo ∈ s.tasks) :
    ∃ r, NvTask.run s.memory answer (.fetchSub bo) = some r ∧
      NvInv ⟨s.tasks.erase (.fetchSub bo) ++ r.1, r.2⟩ := by
  obtain ⟨b, buf, hb, hwants, hintact⟩ := h.ok _ ht
  have hpriv : bo.priv = some b := hb
  have hagree := agreeAt_setRef hintact.alloc (buf.ref - 1)
  obtain ⟨hrel, hcount⟩ := h.shared_counted ht rfl hb hintact.alloc
  have hrefs := total_replace (w := NvTask.refsOf b) ht []
  have hrels := total_replace (w := NvTask.releaseOf b) ht [.rmFb b bo]
  have hrefs' := total_replace (w := NvTask.refsOf b) ht [.rmFb b bo]
  rw [NvTask.refsOf_self hb, total_nil] at hrefs
  rw [NvTask.releaseOf_of_not rfl, total_cons, total_nil, NvTask.releaseOf_self rfl rfl] at hrels
  rw [NvTask.refsOf_self hb, total_cons, total_nil, NvTask.refsOf_self rfl] at hrefs'
  change _ + 1 = _ at hrefs
  change _ + 1 = _ + 0 at hrefs'
  simp only [NvTask.run, hpriv, hintact.alloc]
  refine ⟨_, rfl, ?_⟩
  by_cases hmore : 1 < buf.ref
  · rw [if_pos hmore]
    apply h.shared ht rfl hb hintact.alloc (bufs_setBuf _ _ _) _ _ (sameBut_setBuf _ _ _) hagree _ _
      _ rfl h.sound
    · exact fun t' ht' => absurd ht' List.not_mem_nil
    · exact fun t' ht' => absurd ht' List.not_mem_nil
    · change buf.ref - 1 + 1 = buf.ref + 0
      omega
    · change 0 < buf.ref - 1
      omega
    · apply h.cached_erase
      · exact fun handle heq => by cases heq
      · exact fun handle hmem => absurd hmem List.not_mem_nil
  · rw [if_neg hmore]
    -- the last reference: no other task has the buffer
    have hothers : ∀ t' ∈ s.tasks.erase (.fetchSub bo), t'.buf ≠ some b := by
      intro t' ht' hb'
      have hexcl' := h.not_exclusive ht rfl hb (List.mem_of_mem_erase ht') hb'
      have hzero := weight_eq_zero (w := NvTask.refsOf b) ht
        (by rw [NvTask.refsOf_self hb]; change _ ≤ 1; omega)
      cases NvTask.refs_of_shared hexcl' hb' with
      | inl hrefs' =>
          have hz := hzero _ ht'
          rw [NvTask.refsOf_self hb', hrefs'] at hz
          cases hz
      | inr hadd =>
          obtain ⟨handle, rfl⟩ := hadd
          have hreg := h.cached handle b (List.mem_of_mem_erase ht')
          have hz := hzero _ ((List.mem_erase_of_ne fun heq => by cases heq).mpr hreg)
          rw [NvTask.refsOf_self rfl] at hz
          cases hz
    have hnew : ∀ t' ∈ [NvTask.rmFb b bo], t' = .rmFb b bo :=
      fun t' ht' => List.mem_singleton.mp ht'
    apply h.replace ht (c := b) (fun b' hb' => Option.some.inj (hb'.symm.trans hb))
      (fun t' ht' => hnew t' ht' ▸ rfl) (sameBut_setBuf _ _ _)
      (fun t' ht' hb' => absurd hb' (hothers t' ht')) _ _ _ _ _ (Nat.le_refl _)
      (h.lt_nextBuf hintact.alloc) h.sound
    · intro t' ht'
      rw [hnew t' ht']
      obtain ⟨buf', hbo', hintact'⟩ := hintact.frame hagree
      exact ⟨b, buf', rfl, hbo'.trans hwants, hintact'⟩
    · intro t' _ _ _
      rw [total_append, total_eq_zero fun t' ht' => NvTask.userOf_other (hothers t' ht'),
        total_cons, total_nil, NvTask.userOf_self rfl]
    · intro buf' hbuf'
      right
      omega
    · apply h.cached_erase
      · exact fun handle heq => by cases heq
      · exact fun handle hmem => by cases hnew _ hmem
    · intro hnone
      rw [bufs_setBuf] at hnone
      cases hnone

theorem run_rmFb (h : NvInv s) {b : Nat} {bo : HwcDrmBo} (ht : .rmFb b bo ∈ s.tasks) :
    NvInv ⟨s.tasks.erase (.rmFb b bo) ++ [.closeGem b bo.gemHandles],
      if bo.fbId = 0 then s.memory else s.memory.rmFb b bo.fbId answer.ok⟩ := by
  obtain ⟨b', buf, hb, hwants, hintact⟩ := h.ok _ ht
  cases hb
  have hbo : buf.bo = bo := hwants
  have htodo : ∀ h' ∈ bo.gemHandles, h' ≠ 0 → s.memory.gemOwner h' = some b := fun h' hmem hne =>
    (hintact.gems h').mpr ⟨hne, hbo ▸ hmem⟩
  have hgems : ∀ h', s.memory.gemOwner h' = some b → h' ∈ bo.gemHandles ∧ h' ≠ 0 := fun h' howner =>
    ⟨hbo ▸ ((hintact.gems h').mp howner).2, ((hintact.gems h').mp howner).1⟩
  by_cases hzero : bo.fbId = 0
  · rw [if_pos hzero]
    apply h.step_alone_to ht rfl rfl (.closeGem b bo.gemHandles) rfl rfl _ (SameBut.refl b s.memory)
      hintact.alloc (counted_releasing buf rfl rfl rfl) rfl h.sound
    refine ⟨⟨buf, hintact.alloc⟩, htodo, fun h' howner => Or.inl (hgems h' howner),
      fun f howner => ?_⟩
    obtain ⟨hne, heq⟩ := (hintact.fb f).mp howner
    rw [hbo] at heq
    exact absurd (heq.trans hzero) hne
  · rw [if_neg hzero]
    have howner : s.memory.fbOwner bo.fbId = some b := (hintact.fb bo.fbId).mpr ⟨hzero, by rw [hbo]⟩
    have hsame := sameBut_rmFb howner answer.ok
    unfold NvMemory.rmFb at hsame ⊢
    rw [if_pos howner] at hsame ⊢
    cases hanswer : answer.ok with
    | false =>
        rw [hanswer] at hsame
        apply h.step_alone_to ht rfl rfl (.closeGem b bo.gemHandles) rfl rfl _ hsame
          hintact.alloc (counted_releasing buf rfl rfl rfl) rfl h.sound
        refine ⟨⟨buf, hintact.alloc⟩, htodo, fun h' howner => Or.inl (hgems h' howner),
          fun f howner => ?_⟩
        obtain ⟨_, heq⟩ := (hintact.fb f).mp howner
        rw [heq, hbo]
        exact List.mem_append_right _ List.mem_cons_self
    | true =>
        rw [hanswer] at hsame
        apply h.step_alone_to ht rfl rfl (.closeGem b bo.gemHandles) rfl rfl _ hsame
          hintact.alloc (counted_releasing buf rfl rfl rfl) rfl h.sound
        refine ⟨⟨buf, hintact.alloc⟩, htodo, fun h' howner => Or.inl (hgems h' howner),
          fun f howner => ?_⟩
        change (if f = bo.fbId then none else s.memory.fbOwner f) = some b at howner
        by_cases heq : f = bo.fbId
        · rw [if_pos heq] at howner
          cases howner
        · rw [if_neg heq] at howner
          exact absurd (hbo ▸ ((hintact.fb f).mp howner).2) heq

/-- One turn of the loop over the gem handles, or its end. -/
theorem run_closeGem (h : NvInv s) {b : Nat} {gemHandles : List Nat}
    (ht : .closeGem b gemHandles ∈ s.tasks) :
    ∃ r, NvTask.run s.memory answer (.closeGem b gemHandles) = some r ∧
      NvInv ⟨s.tasks.erase (.closeGem b gemHandles) ++ r.1, r.2⟩ := by
  have hclosing : Closing s.memory b gemHandles := h.ok _ ht
  obtain ⟨buf, hbuf⟩ := hclosing.alloc
  have hcounted : ∀ rest, Counted [.closeGem b rest] b buf :=
    fun rest => counted_releasing buf rfl rfl rfl
  cases gemHandles with
  | nil =>
      simp only [NvTask.run, hbuf]
      refine ⟨_, rfl, h.step_delete ht rfl rfl (fun h' howner => ?_) hclosing.fb⟩
      cases hclosing.gems h' howner with
      | inl hmem => exact absurd hmem.1 List.not_mem_nil
      | inr hfailed => exact hfailed
  | cons handle rest =>
      simp only [NvTask.run]
      by_cases hzero : handle = 0
      · rw [if_pos hzero]
        refine ⟨_, rfl, h.step_alone_to ht rfl rfl (.closeGem b rest) rfl rfl ?_
          (SameBut.refl b s.memory) hbuf (hcounted rest) rfl h.sound⟩
        refine ⟨⟨buf, hbuf⟩, fun h' hmem => hclosing.todo h' (List.mem_cons_of_mem handle hmem),
          fun h' howner => ?_, hclosing.fb⟩
        refine (hclosing.gems h' howner).imp_left fun hmem => ⟨?_, hmem.2⟩
        exact (List.mem_cons.mp hmem.1).resolve_left fun heq => hmem.2 (heq.trans hzero)
      · have howner := hclosing.todo handle List.mem_cons_self hzero
        have hsame := sameBut_closeGem howner answer.ok
        rw [if_neg hzero]
        refine ⟨_, rfl, ?_⟩
        unfold NvMemory.closeGem at hsame ⊢
        rw [if_pos howner] at hsame ⊢
        cases hanswer : answer.ok with
        | false =>
            rw [hanswer] at hsame
            apply h.step_alone_to ht rfl rfl (.closeGem b rest) rfl rfl _ hsame hbuf
              (hcounted rest) rfl h.sound
            refine ⟨⟨buf, hbuf⟩, fun h' hmem => hclosing.todo h' (List.mem_cons_of_mem handle hmem),
              fun h' howner' => ?_, hclosing.fb⟩
            cases hclosing.gems h' howner' with
            | inr hfailed => exact Or.inr (List.mem_append_left _ hfailed)
            | inl hmem =>
                cases List.mem_cons.mp hmem.1 with
                | inl heq => exact Or.inr (List.mem_append_right _ (heq ▸ List.mem_cons_self))
                | inr hrest => exact Or.inl ⟨hrest, hmem.2⟩
        | true =>
            -- the duplicates are cleared, so the handle is not closed again
            rw [hanswer] at hsame
            apply h.step_alone_to ht rfl rfl
              (.closeGem b (rest.map fun h' => if h' = handle then 0 else h')) rfl rfl _ hsame hbuf
              (hcounted _) rfl h.sound
            refine ⟨⟨buf, hbuf⟩, fun h' hmem hne => ?_, fun h' howner' => ?_, hclosing.fb⟩
            · obtain ⟨h₁, hh₁, heq⟩ := List.mem_map.mp hmem
              by_cases hdup : h₁ = handle
              · rw [if_pos hdup] at heq
                exact absurd heq.symm hne
              · rw [if_neg hdup] at heq
                change (if h' = handle then none else s.memory.gemOwner h') = some b
                rw [← heq, if_neg hdup]
                exact hclosing.todo h₁ (List.mem_cons_of_mem handle hh₁) (heq ▸ hne)
            · change (if h' = handle then none else s.memory.gemOwner h') = some b at howner'
              by_cases hdup : h' = handle
              · rw [if_pos hdup] at howner'
                cases howner'
              · rw [if_neg hdup] at howner'
                refine (hclosing.gems h' howner').imp_left fun hmem => ⟨?_, hmem.2⟩
                apply List.mem_map.mpr
                exact ⟨h', (List.mem_cons.mp hmem.1).resolve_left hdup, if_neg hdup⟩

/-- Every access has a result, and keeps the invariant. -/
theorem run (h : NvInv s) {t : NvTask} (ht : t ∈ s.tasks) (hok : NvOk s (.run t answer)) :
    ∃ r, t.run s.memory answer = some r ∧ NvInv ⟨s.tasks.erase t ++ r.1, r.2⟩ := by
  cases t with
  | imported bo => exact ⟨_, rfl, h.run_imported ht⟩
  | registered handle b =>
      obtain ⟨buf, hbuf, hinv⟩ := h.run_registered ht hok
      simp only [NvTask.run, hbuf]
      exact ⟨_, rfl, hinv⟩
  | getNvBuffer handle =>
      simp only [NvTask.run]
      cases hfound : answer.nvBuffer with
      | some b => exact ⟨_, rfl, h.run_getNvBuffer_found ht (hok b hfound)⟩
      | none => exact ⟨_, rfl, h.run_getNvBuffer_new ht⟩
  | fetchAdd handle b =>
      obtain ⟨buf, hbuf, hinv⟩ := h.run_fetchAdd ht
      simp only [NvTask.run, hbuf]
      exact ⟨_, rfl, hinv⟩
  | drmImport handle b => exact h.run_drmImport ht hok
  | addFb handle b => exact h.run_addFb ht hok
  | setNvBuffer handle b => exact h.run_setNvBuffer ht
  | copyBo handle b =>
      obtain ⟨buf, hbuf, hinv⟩ := h.run_copyBo ht
      simp only [NvTask.run, hbuf]
      exact ⟨_, rfl, hinv⟩
  | fetchSub bo => exact h.run_fetchSub ht
  | rmFb b bo => exact ⟨_, rfl, h.run_rmFb ht⟩
  | closeGem b gemHandles => exact h.run_closeGem ht

/-- A new call of `ImportBuffer`. -/
theorem importBuffer (h : NvInv s) (handle : Nat) :
    NvInv { s with tasks := s.tasks ++ [.getNvBuffer handle] } := by
  have htotal : ∀ w : NvTask → Nat, w (.getNvBuffer handle) = 0 →
      total w (s.tasks ++ [.getNvBuffer handle]) = total w s.tasks := by
    intro w hw
    rw [total_append, total_cons, total_nil, hw, Nat.add_zero]
  refine ⟨fun t ht => ?_, fun t ht hexcl b hb => ?_, fun b buf hbuf => ?_, fun handle' b hmem => ?_,
    h.closed, h.fresh, h.sound⟩
  · cases List.mem_append.mp ht with
    | inl ht => exact h.ok t ht
    | inr ht =>
        rw [List.mem_singleton.mp ht]
        trivial
  · rw [htotal _ (NvTask.userOf_other fun hnone => by cases hnone)]
    cases List.mem_append.mp ht with
    | inl ht => exact h.alone t ht hexcl b hb
    | inr ht =>
        rw [List.mem_singleton.mp ht] at hexcl
        cases hexcl
  · unfold Counted
    rw [htotal _ (NvTask.releaseOf_of_not rfl),
      htotal _ (NvTask.refsOf_other fun hnone => by cases hnone)]
    exact h.counted b buf hbuf
  · cases List.mem_append.mp hmem with
    | inl hmem => exact List.mem_append_left _ (h.cached handle' b hmem)
    | inr hmem => cases List.mem_singleton.mp hmem

theorem step {s' : NvState} {e : NvEvent} (h : NvInv s) (hok : NvOk s e)
    (hnext : nvSystem.next s e = some s') : NvInv s' := by
  cases e with
  | importBuffer handle =>
      cases hnext
      exact h.importBuffer handle
  | run t answer =>
      simp only [nvSystem] at hnext
      by_cases ht : t ∈ s.tasks
      · rw [if_pos ht] at hnext
        obtain ⟨r, hr, hinv⟩ := h.run ht hok
        rw [hr] at hnext
        cases hnext
        exact hinv
      · rw [if_neg ht] at hnext
        cases hnext

theorem start (h : nvSystem.start s) : NvInv s := by
  obtain ⟨htasks, hbufs, hgems, hfbs, hsound⟩ := h
  have hnil : ∀ t, t ∉ s.tasks := fun t ht => List.not_mem_nil (htasks ▸ ht)
  refine ⟨fun t ht => absurd ht (hnil t), fun t ht => absurd ht (hnil t), fun b buf hbuf => ?_,
    fun handle b ht => absurd ht (hnil _), fun b _ => ?_, fun b _ => ?_, hsound⟩
  · rw [hbufs b] at hbuf
    cases hbuf
  · refine ⟨hbufs b, fun h howner => ?_, fun f howner => ?_⟩
    · rw [hgems h] at howner
      cases howner
    · rw [hfbs f] at howner
      cases howner
  · refine ⟨hbufs b, fun h howner => ?_, fun f howner => ?_⟩
    · rw [hgems h] at howner
      cases howner
    · rw [hfbs f] at howner
      cases howner

/-! ## Every run -/

theorem accounted (h : NvInv s) (b : Nat) : Accounted s b := by
  refine ⟨fun huse => ?_, fun hunused => ?_⟩
  · obtain ⟨t, ht, hb, hrel⟩ := huse
    obtain ⟨buf, hintact⟩ := (h.ok t ht).intact hb hrel
    refine ⟨?_, buf, hintact⟩
    cases hexcl : t.exclusive with
    | false => exact (h.shared_counted ht hexcl hb hintact.alloc).1
    | true =>
        -- a task that builds the buffer is its only task
        have htotal := total_erase (w := NvTask.releaseOf b) ht
        rw [total_eq_zero fun t' ht' => NvTask.releaseOf_other (h.others ht hexcl hb t' ht'),
          NvTask.releaseOf_of_not hrel] at htotal
        exact htotal.symm
  · cases hbuf : s.memory.bufs b with
    | none =>
        right
        refine ⟨total_eq_zero fun t ht => NvTask.releaseOf_other fun hb => ?_, h.closed b hbuf⟩
        obtain ⟨buf, hsome⟩ := (h.ok t ht).alloc hb
        rw [hbuf] at hsome
        cases hsome
    | some buf =>
        left
        cases h.counted b buf hbuf with
        | inr hout => exact hout.1
        | inl hin =>
            have hzero : total (NvTask.refsOf b) s.tasks = 0 := by
              apply total_eq_zero
              intro t ht
              by_cases hb : t.buf = some b
              · cases hrel : t.releases with
                | false => exact absurd ⟨t, ht, hb, hrel⟩ hunused
                | true =>
                    rw [NvTask.refsOf_self hb]
                    cases t with
                    | rmFb b' bo => rfl
                    | closeGem b' gemHandles => rfl
                    | imported bo => cases hrel
                    | registered handle b' => cases hrel
                    | getNvBuffer handle => cases hrel
                    | fetchAdd handle b' => cases hrel
                    | drmImport handle b' => cases hrel
                    | addFb handle b' => cases hrel
                    | setNvBuffer handle b' => cases hrel
                    | copyBo handle b' => cases hrel
                    | fetchSub bo => cases hrel
              · exact NvTask.refsOf_other hb
            omega

/-- What follows a call that looks a handle up: a buffer in use, or a new one. -/
theorem run_getNvBuffer {handle : Nat} (hok : NvOk s (.run (.getNvBuffer handle) answer))
    {r : List NvTask × NvMemory}
    (hr : (NvTask.getNvBuffer handle).run s.memory answer = some r) {t' : NvTask}
    (ht' : t' ∈ r.1) {b : Nat} (hb' : t'.buf = some b) : s.InUse b ∨ s.memory.nextBuf ≤ b := by
  simp only [NvTask.run] at hr
  cases hfound : answer.nvBuffer with
  | some b' =>
      rw [hfound] at hr
      cases hr
      rw [List.mem_singleton.mp ht'] at hb'
      cases hb'
      exact Or.inl ⟨_, hok b hfound, rfl, rfl⟩
  | none =>
      rw [hfound] at hr
      cases hr
      rw [List.mem_singleton.mp ht'] at hb'
      cases hb'
      exact Or.inr (Nat.le_refl _)

/-- A task that releases a buffer goes on releasing it, or is done. -/
theorem run_releasing (h : NvInv s) {t : NvTask} (ht : t ∈ s.tasks) (hrel : t.releases = true)
    {r : List NvTask × NvMemory} (hr : t.run s.memory answer = some r) {t' : NvTask}
    (ht' : t' ∈ r.1) : t'.buf = t.buf ∧ t'.releases = true ∧ r.1 = [t'] := by
  cases t with
  | rmFb b₀ bo =>
      cases hr
      have heq := List.mem_singleton.mp ht'
      rw [heq]
      exact ⟨rfl, rfl, rfl⟩
  | closeGem b₀ gemHandles =>
      have hclosing : Closing s.memory b₀ gemHandles := h.ok _ ht
      obtain ⟨buf, hbuf⟩ := hclosing.alloc
      cases gemHandles with
      | nil =>
          simp only [NvTask.run, hbuf] at hr
          cases hr
          exact absurd ht' List.not_mem_nil
      | cons handle rest =>
          simp only [NvTask.run] at hr
          split at hr
          · cases hr
            have heq := List.mem_singleton.mp ht'
            rw [heq]
            exact ⟨rfl, rfl, rfl⟩
          · cases hr
            have heq := List.mem_singleton.mp ht'
            rw [heq]
            exact ⟨rfl, rfl, rfl⟩
  | imported bo => cases hrel
  | registered handle b => cases hrel
  | getNvBuffer handle => cases hrel
  | fetchAdd handle b => cases hrel
  | drmImport handle b => cases hrel
  | addFb handle b => cases hrel
  | setNvBuffer handle b => cases hrel
  | copyBo handle b => cases hrel
  | fetchSub bo => cases hrel

/-- A task that uses a buffer is followed by tasks of that buffer. -/
theorem run_using (h : NvInv s) {t : NvTask} (ht : t ∈ s.tasks) (hrel : t.releases = false)
    {b₀ : Nat} (hb : t.buf = some b₀) {r : List NvTask × NvMemory}
    (hr : t.run s.memory answer = some r) {t' : NvTask} (ht' : t' ∈ r.1) :
    t'.buf = some b₀ := by
  obtain ⟨buf, hintact⟩ := (h.ok t ht).intact hb hrel
  cases t with
  | getNvBuffer handle => cases hb
  | rmFb b bo => cases hrel
  | closeGem b gemHandles => cases hrel
  | imported bo =>
      cases hr
      rw [List.mem_singleton.mp ht']
      exact hb
  | registered handle b =>
      cases hb
      simp only [NvTask.run, hintact.alloc] at hr
      cases hr
      rw [List.mem_singleton.mp ht']
      exact hintact.priv
  | fetchAdd handle b =>
      cases hb
      simp only [NvTask.run, hintact.alloc] at hr
      cases hr
      rw [List.mem_singleton.mp ht']
      rfl
  | copyBo handle b =>
      cases hb
      simp only [NvTask.run, hintact.alloc] at hr
      cases hr
      rw [List.mem_singleton.mp ht']
      exact hintact.priv
  | drmImport handle b =>
      cases hb
      simp only [NvTask.run, hintact.alloc] at hr
      cases hgems : answer.gemHandles with
      | none =>
          rw [hgems] at hr
          cases hr
          exact absurd ht' List.not_mem_nil
      | some gemHandles =>
          rw [hgems] at hr
          cases hr
          rw [List.mem_singleton.mp ht']
          rfl
  | addFb handle b =>
      cases hb
      simp only [NvTask.run, hintact.alloc] at hr
      cases hfb : answer.fb with
      | none =>
          rw [hfb] at hr
          cases hr
          rw [List.mem_singleton.mp ht']
          rfl
      | some fbId =>
          rw [hfb] at hr
          cases hr
          rw [List.mem_singleton.mp ht']
          rfl
  | setNvBuffer handle b =>
      cases hb
      simp only [NvTask.run, hintact.alloc] at hr
      split at hr
      · cases hr
        rw [List.mem_cons, List.mem_singleton] at ht'
        cases ht' with
        | inl heq => rw [heq]; rfl
        | inr heq => rw [heq]; rfl
      · cases hr
        rw [List.mem_singleton.mp ht']
        rfl
  | fetchSub bo =>
      have hpriv : bo.priv = some b₀ := hb
      simp only [NvTask.run, hpriv, hintact.alloc] at hr
      cases hr
      dsimp only at ht'
      split at ht'
      · exact absurd ht' List.not_mem_nil
      · rw [List.mem_singleton.mp ht']
        rfl

/-- What follows a task: it has the same buffer, which stays released, or one that is in
use, or a new one. -/
theorem run_follows (h : NvInv s) {t : NvTask} (ht : t ∈ s.tasks)
    (hok : NvOk s (.run t answer)) {r : List NvTask × NvMemory}
    (hr : t.run s.memory answer = some r) {t' : NvTask} (ht' : t' ∈ r.1) {b : Nat}
    (hb' : t'.buf = some b) :
    t.buf = some b ∧ (t.releases = true → t'.releases = true ∧ r.1 = [t']) ∨ s.InUse b ∨
      s.memory.nextBuf ≤ b := by
  cases hbuf : t.buf with
  | none =>
      obtain ⟨handle, rfl⟩ := (h.ok t ht).eq_getNvBuffer hbuf
      exact Or.inr (run_getNvBuffer hok hr ht' hb')
  | some b₀ =>
      cases hrel : t.releases with
      | true =>
          obtain ⟨hsame, hstays, halone⟩ := h.run_releasing ht hrel hr ht'
          exact Or.inl ⟨hbuf.symm.trans (hsame.symm.trans hb'), fun _ => ⟨hstays, halone⟩⟩
      | false =>
          have hsame := h.run_using ht hrel hbuf hr ht'
          exact Or.inl ⟨hsame.symm.trans hb', fun h => by cases h⟩

/-- A buffer that has lost its last reference is not used again, and no further task comes
to release it. -/
theorem stays_unused {s' : NvState} {e : NvEvent} (h : NvInv s) (hok : NvOk s e)
    (hnext : nvSystem.next s e = some s') {b : Nat} (hold : b < s.memory.nextBuf)
    (hunused : ¬ s.InUse b) : ¬ s'.InUse b ∧ s'.releasing b ≤ s.releasing b := by
  cases e with
  | importBuffer handle =>
      cases hnext
      refine ⟨fun huse => ?_, ?_⟩
      · obtain ⟨t, ht, hb, hrel⟩ := huse
        cases List.mem_append.mp ht with
        | inl ht => exact hunused ⟨t, ht, hb, hrel⟩
        | inr ht =>
            rw [List.mem_singleton.mp ht] at hb
            cases hb
      · unfold NvState.releasing
        rw [total_append, total_cons, total_nil, NvTask.releaseOf_of_not rfl]
        exact Nat.le_refl _
  | run t answer =>
      simp only [nvSystem] at hnext
      by_cases ht : t ∈ s.tasks
      · rw [if_pos ht] at hnext
        obtain ⟨r, hr, hs'⟩ := Option.map_eq_some_iff.mp hnext
        have hfollows : ∀ t' ∈ r.1, t'.buf = some b →
            t.buf = some b ∧ (t.releases = true → t'.releases = true ∧ r.1 = [t']) := by
          intro t' ht' hb'
          cases h.run_follows ht hok hr ht' hb' with
          | inl hsame => exact hsame
          | inr hother =>
              cases hother with
              | inl huse => exact absurd huse hunused
              | inr hnew => exact absurd hold (Nat.not_lt.mpr hnew)
        have hreleases : t.buf = some b → t.releases = true := by
          intro hb
          cases hrel : t.releases with
          | true => rfl
          | false => exact absurd ⟨t, ht, hb, hrel⟩ hunused
        rw [← hs']
        refine ⟨fun huse => ?_, ?_⟩
        · obtain ⟨t', ht', hb', hrel⟩ := huse
          cases List.mem_append.mp ht' with
          | inl ht' => exact hunused ⟨t', List.mem_of_mem_erase ht', hb', hrel⟩
          | inr ht' =>
              obtain ⟨hb, hkeeps⟩ := hfollows t' ht' hb'
              rw [(hkeeps (hreleases hb)).1] at hrel
              cases hrel
        · have htotal := total_replace (w := NvTask.releaseOf b) ht r.1
          have hle : total (NvTask.releaseOf b) r.1 ≤ t.releaseOf b := by
            by_cases hany : ∃ t' ∈ r.1, t'.buf = some b
            · obtain ⟨t', ht', hb'⟩ := hany
              obtain ⟨hb, hkeeps⟩ := hfollows t' ht' hb'
              obtain ⟨hrel', hone⟩ := hkeeps (hreleases hb)
              apply Nat.le_of_eq
              rw [hone, total_cons, total_nil, NvTask.releaseOf_self hb' hrel',
                NvTask.releaseOf_self hb (hreleases hb)]
            · rw [total_eq_zero fun t' ht' => NvTask.releaseOf_other fun hb' => hany ⟨t', ht', hb'⟩]
              exact Nat.zero_le _
          change total (NvTask.releaseOf b) (s.tasks.erase t ++ r.1) ≤
            total (NvTask.releaseOf b) s.tasks
          omega
      · rw [if_neg ht] at hnext
        cases hnext

end NvInv

/-- In every interleaving, a buffer has its framebuffer and its gem handles while it is
imported or registered, then one task releases it, and then it is gone with all that was
opened for it, and never comes back.  Nothing is released that the buffer does not have, so
nothing twice; and no task comes to a buffer that is gone. -/
theorem nvImporter_accounted (s : NvState) (hreach : nvSystem.Reachable NvOk s) :
    (∀ b, Accounted s b) ∧ s.memory.misused = false ∧
      (∀ t ∈ s.tasks, ∀ answer, NvOk s (.run t answer) → (t.run s.memory answer).isSome = true) ∧
      ∀ e s', NvOk s e → nvSystem.next s e = some s' → ∀ b < s.memory.nextBuf, ¬ s.InUse b →
        ¬ s'.InUse b ∧ s'.releasing b ≤ s.releasing b := by
  have hinv : NvInv s := hreach.invariant (fun _ h => NvInv.start h)
    fun _ _ _ h hok hnext => h.step hok hnext
  refine ⟨hinv.accounted, hinv.sound, fun t ht answer hok => ?_,
    fun e s' hok hnext b hold hunused => hinv.stays_unused hok hnext hold hunused⟩
  obtain ⟨r, hr, _⟩ := hinv.run ht hok
  rw [hr]
  rfl

/-- Nothing has been imported yet. -/
def emptyImporter : NvState :=
  ⟨[], ⟨fun _ => none, 0, fun _ => none, fun _ => none, false, [], []⟩⟩

/-- When nothing is under way, a buffer is closed. -/
theorem NvState.idle {s : NvState} (htasks : s.tasks = []) {b : Nat} (h : Accounted s b) :
    ¬ s.InUse b ∧ Closed s.memory b := by
  have hunused : ¬ s.InUse b := by
    rintro ⟨t, ht, _⟩
    rw [htasks] at ht
    cases ht
  have hnone : s.releasing b = 0 := by
    unfold NvState.releasing
    rw [htasks]
    rfl
  obtain hreleasing | ⟨_, hclosed⟩ := h.unused hunused
  · rw [hnone] at hreleasing
    cases hreleasing
  · exact ⟨hunused, hclosed⟩

/-- A buffer with two planes in one gem object. -/
def importedBo : HwcDrmBo := ⟨some 0, 9, [3, 3, 0, 0]⟩

/-- The buffer is imported twice, the second time from gralloc's cache; then both imports are
released, gralloc releases the handle, and the buffer is closed. -/
theorem nvImporter_accounted_cached :
    (∃ s, nvSystem.Reachable NvOk s ∧ (s.memory.bufs 0).map NvBuffer.ref = some 3 ∧
      s.InUse 0 ∧ Accounted s 0) ∧
    ∃ s, nvSystem.Reachable NvOk s ∧ ¬ s.InUse 0 ∧ Closed s.memory 0 := by
  have h : nvSystem.Reachable NvOk emptyImporter :=
    .start ⟨rfl, fun _ => rfl, fun _ => rfl, fun _ => rfl, rfl⟩
  replace h := h.step (e := NvEvent.importBuffer 7) trivial rfl
  replace h := h.step (e := NvEvent.run (.getNvBuffer 7) ⟨none, none, none, true⟩)
    (fun b hb => by cases hb) rfl
  replace h := h.step (e := NvEvent.run (.drmImport 7 0) ⟨none, some [3, 3, 0, 0], none, true⟩)
    (fun _ _ _ _ _ => rfl) rfl
  replace h := h.step (e := NvEvent.run (.addFb 7 0) ⟨none, none, some 9, true⟩)
    (fun fb hfb => by cases hfb; exact ⟨by decide, rfl⟩) rfl
  replace h := h.step (e := NvEvent.run (.setNvBuffer 7 0) ⟨none, none, none, true⟩) trivial rfl
  replace h := h.step (e := NvEvent.run (.copyBo 7 0) ⟨none, none, none, true⟩) trivial rfl
  -- the second import
  replace h := h.step (e := NvEvent.importBuffer 7) trivial rfl
  replace h := h.step (e := NvEvent.run (.getNvBuffer 7) ⟨some 0, none, none, true⟩)
    (fun b hb => by cases hb; decide) rfl
  replace h := h.step (e := NvEvent.run (.fetchAdd 7 0) ⟨none, none, none, true⟩) trivial rfl
  replace h := h.step (e := NvEvent.run (.copyBo 7 0) ⟨none, none, none, true⟩) trivial rfl
  refine ⟨⟨_, h, by decide, ⟨.registered 7 0, by decide, rfl, rfl⟩,
    (nvImporter_accounted _ h).1 0⟩, ?_⟩
  -- the imports are released
  replace h := h.step (e := NvEvent.run (.imported importedBo) ⟨none, none, none, true⟩) trivial rfl
  replace h := h.step (e := NvEvent.run (.fetchSub importedBo) ⟨none, none, none, true⟩) trivial rfl
  replace h := h.step (e := NvEvent.run (.imported importedBo) ⟨none, none, none, true⟩) trivial rfl
  replace h := h.step (e := NvEvent.run (.fetchSub importedBo) ⟨none, none, none, true⟩) trivial rfl
  -- the handle is released, and with it the last reference
  replace h := h.step (e := NvEvent.run (.registered 7 0) ⟨none, none, none, true⟩)
    (fun t ht => by cases List.mem_singleton.mp ht; decide) rfl
  replace h := h.step (e := NvEvent.run (.fetchSub importedBo) ⟨none, none, none, true⟩) trivial rfl
  replace h := h.step (e := NvEvent.run (.rmFb 0 importedBo) ⟨none, none, none, true⟩) trivial rfl
  replace h := h.step (e := NvEvent.run (.closeGem 0 [3, 3, 0, 0]) ⟨none, none, none, true⟩)
    trivial rfl
  replace h := h.step (e := NvEvent.run (.closeGem 0 [0, 0, 0]) ⟨none, none, none, true⟩)
    trivial rfl
  replace h := h.step (e := NvEvent.run (.closeGem 0 [0, 0]) ⟨none, none, none, true⟩) trivial rfl
  replace h := h.step (e := NvEvent.run (.closeGem 0 [0]) ⟨none, none, none, true⟩) trivial rfl
  replace h := h.step (e := NvEvent.run (.closeGem 0 []) ⟨none, none, none, true⟩) trivial rfl
  exact ⟨_, h, NvState.idle rfl ((nvImporter_accounted _ h).1 0)⟩

end DragonDevice.Hwc
