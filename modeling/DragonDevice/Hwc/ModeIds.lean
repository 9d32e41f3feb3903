/-
  Hwc/ModeIds.lean --- the ids of the modes over the calls of `DrmConnector::UpdateModes`.

  A mode that the kernel reports again keeps its entry, and any other one gets the next id of
  one 32-bit counter that all connectors share.  `given` records what the counter returned;
  the code does not keep it.
-/
import Mathlib.Algebra.Ring.Nat
import Mathlib.Data.List.Range
import DragonDevice.Lib.PartialMap
import DragonDevice.Hwc.Hotplug

set_option autoImplicit false

namespace DragonDevice.Hwc

open DragonDevice.Lib

/-! ## The counter and the modes -/

/-- `mode_id_`, and the ids it has been returned as. -/
structure ModeCounter where
  modeId : Nat
  given : List Nat
  deriving DecidableEq, Repr

/-- `next_mode_id`. -/
def ModeCounter.nextModeId (c : ModeCounter) : Nat × ModeCounter :=
  let modeId := (c.modeId + 1) % 2 ^ 32
  (modeId, ⟨modeId, c.given ++ [modeId]⟩)

/-- The loop of `UpdateModes` with the counter as it is. -/
def countModes (modes : List DrmMode) :
    List DrmModeModeInfo → ModeCounter → List DrmMode × ModeCounter
  | [], c => ([], c)
  | m :: rest, c =>
      match modes.find? fun mode => mode.sameAs m with
      | some mode =>
          let r := countModes modes rest c
          (mode :: r.1, r.2)
      | none =>
          let (id, c) := c.nextModeId
          let r := countModes modes rest c
          (⟨id, m⟩ :: r.1, r.2)

/-- The connectors of `DrmResources` and its counter. -/
structure ModesState where
  connectors : List HotplugConnector
  counter : ModeCounter
  deriving DecidableEq, Repr

/-- A call on one connector, with what `drmModeGetConnector` returns. -/
structure UpdateCall where
  index : Nat
  answer : Option (DrmModeConnection × List DrmModeModeInfo)

/-- `DrmConnector::UpdateModes`. -/
def ModesState.updateModes (s : ModesState) (call : UpdateCall) : Option (Int × ModesState) :=
  match s.connectors[call.index]? with
  | none => none
  | some conn =>
      match call.answer with
      | none => some (-enodev, s)
      | some (connection, modes) =>
          let r := countModes conn.modes modes s.counter
          some (0, ⟨s.connectors.set call.index { conn with state := connection, modes := r.1 },
            r.2⟩)

/-- Calls on all connectors, in any order. -/
def modesSystem : System ModesState UpdateCall where
  start := fun s => s.counter = ⟨0, []⟩ ∧ ∀ conn ∈ s.connectors, conn.modes = []
  next := fun s call => (s.updateModes call).map (·.2)

/-! ## The property and what it needs -/

/-- No two modes are equal under `operator==`. -/
def NoTwoEqual (kernel : List DrmModeModeInfo) : Prop :=
  kernel.Pairwise fun m m' => (DrmMode.mk 0 m).sameAs m' = false

instance (kernel : List DrmModeModeInfo) : Decidable (NoTwoEqual kernel) :=
  inferInstanceAs (Decidable (kernel.Pairwise _))

/-- The kernel's list has no two equal modes, and there are fewer than `2 ^ 32` ids. -/
def UpdateOk (s : ModesState) (call : UpdateCall) : Prop :=
  (∀ reported ∈ call.answer, NoTwoEqual reported.2) ∧
    ∀ s' ∈ modesSystem.next s call, s'.counter.given.length < 2 ^ 32

/-- The entry of a mode of the kernel: that of an equal mode before the call, or a new one
under an id that was never given. -/
structure Updated (given : List Nat) (old : List DrmMode) (mode : DrmMode)
    (m : DrmModeModeInfo) : Prop where
  same : mode.sameAs m = true
  kept : ∀ o ∈ old, o.sameAs m = true → mode = o
  fresh : (∀ o ∈ old, o.sameAs m = false) → mode.info = m ∧ mode.id ∉ given

structure ModesUpdated (s : ModesState) (call : UpdateCall) (s' : ModesState) : Prop where
  ids : ∀ conn ∈ s'.connectors, (conn.modes.map (·.id)).Nodup
  given : ∀ conn ∈ s'.connectors, ∀ mode ∈ conn.modes, mode.id ∈ s'.counter.given
  others : ∀ i, i ≠ call.index → s'.connectors[i]? = s.connectors[i]?
  failed : call.answer = none → s' = s
  modes : ∀ connection kernel old new, call.answer = some (connection, kernel) →
    s.connectors[call.index]? = some old → s'.connectors[call.index]? = some new →
    List.Forall₂ (Updated s.counter.given old.modes) new.modes kernel

/-! ## Equal modes -/

/-- The fields that `operator==` compares. -/
def DrmModeModeInfo.compared (m : DrmModeModeInfo) : DrmModeModeInfo :=
  { m with vrefresh := 0, name := "" }

theorem sameAs_iff {mode : DrmMode} {m : DrmModeModeInfo} :
    mode.sameAs m = true ↔ mode.info.compared = m.compared := by
  rw [DrmMode.sameAs, beq_iff_eq]
  obtain ⟨id, info⟩ := mode
  obtain ⟨⟩ := info
  obtain ⟨⟩ := m
  simp [DrmModeModeInfo.compared]

theorem noTwoEqual_iff {kernel : List DrmModeModeInfo} :
    NoTwoEqual kernel ↔ (kernel.map (·.compared)).Nodup := by
  rw [NoTwoEqual, List.Nodup, List.pairwise_map]
  refine List.Pairwise.iff fun m m' => ?_
  rw [← Bool.not_eq_true, sameAs_iff]

/-- A list of entries compares like the modes they are for. -/
theorem map_compared_of_forall₂ {new : List DrmMode} {kernel : List DrmModeModeInfo}
    (h : List.Forall₂ (fun mode m => mode.sameAs m = true) new kernel) :
    new.map (·.info.compared) = kernel.map (·.compared) := by
  have hcompared : List.Forall₂ (fun mode m => m.compared = mode.info.compared) new kernel :=
    h.imp fun _ _ hsame => (sameAs_iff.mp hsame).symm
  exact (map_eq_map_of_forall₂ hcompared).symm

/-! ## The counter -/

/-- The counter has returned exactly the ids from one to its value. -/
def ModeCounter.Counted (c : ModeCounter) : Prop := c.given = List.range' 1 c.modeId

namespace ModeCounter.Counted

variable {c : ModeCounter}

theorem length (h : c.Counted) : c.given.length = c.modeId := by
  rw [h, List.length_range']

theorem mem_given (h : c.Counted) {id : Nat} : id ∈ c.given ↔ 1 ≤ id ∧ id ≤ c.modeId := by
  rw [h, List.mem_range'_1]
  omega

/-- Below its limit the counter does not wrap. -/
theorem nextModeId (h : c.Counted) (hlt : c.nextModeId.2.given.length < 2 ^ 32) :
    c.nextModeId.1 = c.modeId + 1 ∧ c.nextModeId.2.modeId = c.modeId + 1 ∧
      c.nextModeId.2.Counted := by
  have hlen : c.nextModeId.2.given.length = c.modeId + 1 := by
    rw [ModeCounter.nextModeId, List.length_append, h.length]
    rfl
  have hid : (c.modeId + 1) % 2 ^ 32 = c.modeId + 1 := Nat.mod_eq_of_lt (hlen ▸ hlt)
  refine ⟨hid, hid, ?_⟩
  rw [ModeCounter.nextModeId, Counted]
  dsimp only
  rw [hid, h, List.range'_1_concat, Nat.add_comm 1]

end ModeCounter.Counted

/-! ## The loop -/

/-- The entry of a mode: one that was there, or a new one with an id from `lo` to `hi`. -/
def Entry (old : List DrmMode) (lo hi : Nat) (mode : DrmMode) (m : DrmModeModeInfo) : Prop :=
  (mode ∈ old ∧ mode.sameAs m = true) ∨
    ((∀ o ∈ old, o.sameAs m = false) ∧ mode.info = m ∧ lo < mode.id ∧ mode.id ≤ hi)

theorem Entry.mono {old : List DrmMode} {lo lo' hi hi' : Nat} {mode : DrmMode}
    {m : DrmModeModeInfo} (h : Entry old lo hi mode m) (hlo : lo' ≤ lo) (hhi : hi ≤ hi') :
    Entry old lo' hi' mode m := by
  cases h with
  | inl hold => exact Or.inl hold
  | inr hnew => exact Or.inr ⟨hnew.1, hnew.2.1, by omega, by omega⟩

theorem Entry.sameAs {old : List DrmMode} {lo hi : Nat} {mode : DrmMode} {m : DrmModeModeInfo}
    (h : Entry old lo hi mode m) : mode.sameAs m = true := by
  cases h with
  | inl hold => exact hold.2
  | inr hnew => rw [sameAs_iff, hnew.2.1]

/-- What the loop leaves. -/
structure Counts (old : List DrmMode) (kernel : List DrmModeModeInfo) (c : ModeCounter)
    (r : List DrmMode × ModeCounter) : Prop where
  counted : r.2.Counted
  grows : c.modeId ≤ r.2.modeId
  entries : List.Forall₂ (Entry old c.modeId r.2.modeId) r.1 kernel
  ids : (r.1.map (·.id)).Nodup

/-- Every entry is for some mode of the list. -/
theorem Counts.entry {old : List DrmMode} {kernel : List DrmModeModeInfo} {c : ModeCounter}
    {r : List DrmMode × ModeCounter} (h : Counts old kernel c r) {mode : DrmMode}
    (hmode : mode ∈ r.1) : ∃ m ∈ kernel, Entry old c.modeId r.2.modeId mode m :=
  (exists_of_forall₂ h.entries).1 mode hmode

theorem given_length_le (old : List DrmMode) (kernel : List DrmModeModeInfo) :
    ∀ c, c.given.length ≤ (countModes old kernel c).2.given.length := by
  induction kernel with
  | nil => exact fun c => Nat.le_refl _
  | cons m rest ih =>
      intro c
      rw [countModes]
      split
      · exact ih c
      · have hstep : c.given.length ≤ c.nextModeId.2.given.length := by
          rw [ModeCounter.nextModeId, List.length_append]
          exact Nat.le_add_right _ _
        exact Nat.le_trans hstep (ih c.nextModeId.2)

theorem countModes_counts {old : List DrmMode} (hold : (old.map (·.id)).Nodup) :
    ∀ (kernel : List DrmModeModeInfo) (c : ModeCounter), NoTwoEqual kernel → c.Counted →
      (∀ o ∈ old, o.id ≤ c.modeId) → (countModes old kernel c).2.given.length < 2 ^ 32 →
      Counts old kernel c (countModes old kernel c) := by
  intro kernel
  induction kernel with
  | nil => exact fun c _ hcounted _ _ => ⟨hcounted, Nat.le_refl _, .nil, List.nodup_nil⟩
  | cons m rest ih =>
      intro c hdistinct hcounted hbound hlt
      rw [NoTwoEqual, List.pairwise_cons] at hdistinct
      rw [countModes] at hlt ⊢
      cases hfind : old.find? fun mode => mode.sameAs m with
      | some mode =>
          rw [hfind] at hlt
          have hmem := List.mem_of_find?_eq_some hfind
          have hsame : mode.sameAs m = true :=
            List.find?_some (p := fun mode : DrmMode => mode.sameAs m) hfind
          have hrest := ih c hdistinct.2 hcounted hbound hlt
          refine ⟨hrest.counted, hrest.grows, .cons (Or.inl ⟨hmem, hsame⟩) hrest.entries, ?_⟩
          rw [List.map_cons, List.nodup_cons]
          refine ⟨fun hid => ?_, hrest.ids⟩
          obtain ⟨other, hother, hid⟩ := List.mem_map.mp hid
          obtain ⟨m', hm', hentry⟩ := hrest.entry hother
          cases hentry with
          | inl hkept =>
              have heq : other = mode := List.inj_on_of_nodup_map hold hkept.1 hmem hid
              have hne := hdistinct.1 m' hm'
              rw [← Bool.not_eq_true, sameAs_iff] at hne
              exact hne ((sameAs_iff.mp hsame).symm.trans (heq ▸ sameAs_iff.mp hkept.2))
          | inr hnew =>
              have hle := hbound mode hmem
              omega
      | none =>
          rw [hfind] at hlt
          dsimp only at hlt ⊢
          have hnone : ∀ o ∈ old, o.sameAs m = false := fun o ho => by
            simpa using List.find?_eq_none.mp hfind o ho
          obtain ⟨hid, hmodeId, hcounted'⟩ := hcounted.nextModeId
            (Nat.lt_of_le_of_lt (given_length_le old rest _) hlt)
          have hrest := ih c.nextModeId.2 hdistinct.2 hcounted'
            (fun o ho => by have := hbound o ho; omega) hlt
          have hgrows := hrest.grows
          refine ⟨hrest.counted, Nat.le_trans (by omega) hgrows,
            .cons (Or.inr ⟨hnone, rfl, ?_, ?_⟩)
              (hrest.entries.imp fun _ _ hentry => hentry.mono (by omega) (Nat.le_refl _)), ?_⟩
          · dsimp only
            omega
          · dsimp only
            omega
          · rw [List.map_cons, List.nodup_cons]
            refine ⟨fun hid' => ?_, hrest.ids⟩
            obtain ⟨other, hother, hid'⟩ := List.mem_map.mp hid'
            dsimp only at hid'
            obtain ⟨m', hm', hentry⟩ := hrest.entry hother
            cases hentry with
            | inl hkept =>
                have hle := hbound other hkept.1
                omega
            | inr hnew => omega

/-- As long as the counter does not wrap, the loop is the one with an unbounded counter. -/
theorem refreshModes_eq_countModes (old : List DrmMode) :
    ∀ (kernel : List DrmModeModeInfo) (c : ModeCounter), c.Counted →
      (countModes old kernel c).2.given.length < 2 ^ 32 →
      HotplugConnector.refreshModes old kernel c.modeId =
        ((countModes old kernel c).1, (countModes old kernel c).2.modeId) := by
  intro kernel
  induction kernel with
  | nil => exact fun c _ _ => rfl
  | cons m rest ih =>
      intro c hcounted hlt
      rw [countModes] at hlt ⊢
      rw [HotplugConnector.refreshModes]
      cases hfind : old.find? fun mode => mode.sameAs m with
      | some mode =>
          rw [hfind] at hlt
          dsimp only at hlt ⊢
          rw [ih c hcounted hlt]
      | none =>
          rw [hfind] at hlt
          dsimp only at hlt ⊢
          obtain ⟨hid, hmodeId, hcounted'⟩ := hcounted.nextModeId
            (Nat.lt_of_le_of_lt (given_length_le old rest _) hlt)
          have hrest := ih c.nextModeId.2 hcounted' hlt
          rw [hmodeId] at hrest
          rw [hrest, hid]

/-! ## Every run -/

/-- What holds between calls. -/
structure ModesInv (s : ModesState) : Prop where
  counted : s.counter.Counted
  ids : ∀ conn ∈ s.connectors, (conn.modes.map (·.id)).Nodup
  distinct : ∀ conn ∈ s.connectors, (conn.modes.map (·.info.compared)).Nodup
  given : ∀ conn ∈ s.connectors, ∀ mode ∈ conn.modes, mode.id ∈ s.counter.given

theorem modesInv_start {s : ModesState} (h : modesSystem.start s) : ModesInv s := by
  obtain ⟨hcounter, hmodes⟩ := h
  refine ⟨by rw [hcounter]; rfl, fun conn hconn => ?_, fun conn hconn => ?_,
    fun conn hconn mode hmode => ?_⟩
  · rw [hmodes conn hconn]
    exact List.nodup_nil
  · rw [hmodes conn hconn]
    exact List.nodup_nil
  · rw [hmodes conn hconn] at hmode
    cases hmode

/-- The entries that the loop leaves, as the callers see them. -/
theorem Counts.updated {old : List DrmMode} {kernel : List DrmModeModeInfo} {c : ModeCounter}
    {r : List DrmMode × ModeCounter} (h : Counts old kernel c r) (hcounted : c.Counted)
    (hdistinct : (old.map (·.info.compared)).Nodup) :
    List.Forall₂ (Updated c.given old) r.1 kernel := by
  refine h.entries.imp fun mode m hentry => ⟨hentry.sameAs, fun o ho hsame => ?_, fun hnone => ?_⟩
  · cases hentry with
    | inl hkept =>
        exact List.inj_on_of_nodup_map hdistinct hkept.1 ho
          ((sameAs_iff.mp hkept.2).trans (sameAs_iff.mp hsame).symm)
    | inr hnew =>
        rw [hnew.1 o ho] at hsame
        cases hsame
  · cases hentry with
    | inl hkept =>
        rw [hnone mode hkept.1] at hkept
        cases hkept.2
    | inr hnew =>
        refine ⟨hnew.2.1, fun hgiven => ?_⟩
        have hle := (hcounted.mem_given.mp hgiven).2
        omega

/-- A call that the kernel answers. -/
theorem updateModes_answered {s s' : ModesState} {call : UpdateCall} {conn : HotplugConnector}
    {connection : DrmModeConnection} {kernel : List DrmModeModeInfo} (hinv : ModesInv s)
    (hok : UpdateOk s call) (hconn : s.connectors[call.index]? = some conn)
    (hanswer : call.answer = some (connection, kernel))
    (hnext : modesSystem.next s call = some s') :
    Counts conn.modes kernel s.counter (countModes conn.modes kernel s.counter) ∧
      s' = ⟨s.connectors.set call.index { conn with
          state := connection, modes := (countModes conn.modes kernel s.counter).1 },
        (countModes conn.modes kernel s.counter).2⟩ := by
  have hs' : s' = ⟨s.connectors.set call.index { conn with
        state := connection, modes := (countModes conn.modes kernel s.counter).1 },
      (countModes conn.modes kernel s.counter).2⟩ := by
    simp only [modesSystem, ModesState.updateModes, hconn, hanswer, Option.map_some,
      Option.some.injEq] at hnext
    exact hnext.symm
  have hmem := List.mem_of_getElem? hconn
  have hlt := hok.2 s' hnext
  rw [hs'] at hlt
  refine ⟨countModes_counts (hinv.ids conn hmem) kernel s.counter (hok.1 _ hanswer)
    hinv.counted (fun o ho => ?_) hlt, hs'⟩
  exact (hinv.counted.mem_given.mp (hinv.given conn hmem o ho)).2

/-- What holds of the connectors, and of the one that was updated, holds of all after it. -/
theorem forall_mem_set {conns : List HotplugConnector} {P : HotplugConnector → Prop}
    (hall : ∀ c ∈ conns, P c) (i : Nat) (conn : HotplugConnector) (hconn : P conn) :
    ∀ c ∈ conns.set i conn, P c := by
  intro c hc
  cases List.mem_or_eq_of_mem_set hc with
  | inl hold => exact hall c hold
  | inr hnew => exact hnew ▸ hconn

theorem ModesInv.step {s s' : ModesState} {call : UpdateCall} (hinv : ModesInv s)
    (hok : UpdateOk s call) (hnext : modesSystem.next s call = some s') :
    ModesInv s' ∧ ModesUpdated s call s' := by
  cases hconn : s.connectors[call.index]? with
  | none =>
      simp only [modesSystem, ModesState.updateModes, hconn] at hnext
      cases hnext
  | some conn =>
      cases hanswer : call.answer with
      | none =>
          simp only [modesSystem, ModesState.updateModes, hconn, hanswer, Option.map_some,
            Option.some.injEq] at hnext
          subst hnext
          refine ⟨hinv, hinv.ids, hinv.given, fun _ _ => rfl, fun _ => rfl, ?_⟩
          intro connection kernel old new hsome
          rw [hanswer] at hsome
          cases hsome
      | some reported =>
          obtain ⟨connection, kernel⟩ := reported
          obtain ⟨hcounts, hs'⟩ := updateModes_answered hinv hok hconn hanswer hnext
          have hmem := List.mem_of_getElem? hconn
          generalize countModes conn.modes kernel s.counter = r at hcounts hs'
          subst hs'
          have hupdated := hcounts.updated hinv.counted (hinv.distinct conn hmem)
          have hgiven : ∀ id, id ∈ s.counter.given → id ∈ r.2.given := by
            intro id hid
            have hle := hinv.counted.mem_given.mp hid
            exact hcounts.counted.mem_given.mpr ⟨hle.1, Nat.le_trans hle.2 hcounts.grows⟩
          have hall : ∀ mode ∈ r.1, mode.id ∈ r.2.given := by
            intro mode hmode
            obtain ⟨m, _, hentry⟩ := hcounts.entry hmode
            cases hentry with
            | inl hkept => exact hgiven _ (hinv.given conn hmem mode hkept.1)
            | inr hnew => exact hcounts.counted.mem_given.mpr ⟨by omega, hnew.2.2.2⟩
          have hids := forall_mem_set hinv.ids call.index
            { conn with state := connection, modes := r.1 } hcounts.ids
          have hgivens := forall_mem_set
            (fun c hc mode hmode => hgiven _ (hinv.given c hc mode hmode)) call.index
            { conn with state := connection, modes := r.1 } hall
          have hnodup : (r.1.map (·.info.compared)).Nodup := by
            rw [map_compared_of_forall₂ (hupdated.imp fun _ _ h => h.same)]
            exact noTwoEqual_iff.mp (hok.1 _ hanswer)
          refine ⟨⟨hcounts.counted, hids, forall_mem_set hinv.distinct _ _ hnodup, hgivens⟩,
            hids, hgivens, fun i hi => ?_, fun hnone => ?_, ?_⟩
          · exact List.getElem?_set_ne hi.symm
          · rw [hanswer] at hnone
            cases hnone
          · intro connection' kernel' old new hsome hold hnew
            rw [hanswer] at hsome
            cases hsome
            rw [hconn] at hold
            cases hold
            obtain ⟨hlt, _⟩ := List.getElem?_eq_some_iff.mp hconn
            rw [List.getElem?_set_self hlt] at hnew
            cases hnew
            exact hupdated

/-- In every run each call leaves distinct ids, keeps those of the modes that stay, lists the
modes as the kernel does, and gives new ones an id that no mode ever had. -/
theorem updateModes_ids {s s' : ModesState} {call : UpdateCall}
    (hreach : modesSystem.Reachable UpdateOk s) (hok : UpdateOk s call)
    (hnext : modesSystem.next s call = some s') : ModesUpdated s call s' := by
  have hinv : ModesInv s := hreach.invariant (fun _ h => modesInv_start h)
    fun _ _ _ h hok hnext => (h.step hok hnext).1
  exact (hinv.step hok hnext).2

/-- Two connectors without modes. -/
def freshConnectors : ModesState where
  connectors := [⟨1, 0, .disconnected, []⟩, ⟨2, 1, .disconnected, []⟩]
  counter := ⟨0, []⟩

/-- A mode of the first connector, and then the same mode behind another one. -/
theorem updateModes_ids_replugged :
    ∃ s s', modesSystem.Reachable UpdateOk s ∧
      ModesUpdated s ⟨0, some (.connected, [{ externalMode with clock := 1 }, externalMode])⟩ s' ∧
      s'.connectors.map (·.modes.map (·.id)) = [[2, 1], []] := by
  have hreach : modesSystem.Reachable UpdateOk freshConnectors := .start ⟨rfl, by decide⟩
  have hfirst : modesSystem.Reachable UpdateOk
      ⟨[⟨1, 0, .connected, [⟨1, externalMode⟩]⟩, ⟨2, 1, .disconnected, []⟩], ⟨1, [1]⟩⟩ :=
    hreach.step (e := ⟨0, some (.connected, [externalMode])⟩) ⟨by decide, by decide⟩ (by decide)
  exact ⟨_, ⟨[⟨1, 0, .connected, [⟨2, { externalMode with clock := 1 }⟩, ⟨1, externalMode⟩]⟩,
    ⟨2, 1, .disconnected, []⟩], ⟨2, [1, 2]⟩⟩, hfirst,
    updateModes_ids hfirst ⟨by decide, by decide⟩ (by decide), by decide⟩

end DragonDevice.Hwc
