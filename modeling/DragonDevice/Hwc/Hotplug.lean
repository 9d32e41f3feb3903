/-
  Hwc/Hotplug.lean --- hotplug events of `hwcomposer.cpp`.

  `HandleEvent` refreshes each connector and tells the framework about those whose cached
  state has changed.  `hwc_get_display_configs` refreshes a connector too, and tells nobody.
  What the kernel answers comes with the event; a mode taken from an empty list has no result.
-/
import Mathlib.Data.List.Nodup
import DragonDevice.Lib.Transition
import DragonDevice.Hwc.Planner

set_option autoImplicit false

namespace DragonDevice.Hwc

open DragonDevice.Lib

/-! ## Connectors and their modes -/

/-- `drmModeConnection`. -/
inductive DrmModeConnection where
  | connected | disconnected | unknownConnection
  deriving DecidableEq, Repr

/-- `drmModeModeInfo`. -/
structure DrmModeModeInfo where
  clock : Nat
  hdisplay : Nat
  hsyncStart : Nat
  hsyncEnd : Nat
  htotal : Nat
  hskew : Nat
  vdisplay : Nat
  vsyncStart : Nat
  vsyncEnd : Nat
  vtotal : Nat
  vscan : Nat
  vrefresh : Nat
  flags : BitVec 32
  type : BitVec 32
  name : String
  deriving DecidableEq, Repr

/-- `DrmMode`: what the kernel said, and a number. -/
structure DrmMode where
  id : Nat
  info : DrmModeModeInfo
  deriving DecidableEq, Repr

/-- `DrmMode::operator==`; the refresh rate and the name are not compared. -/
def DrmMode.sameAs (mode : DrmMode) (m : DrmModeModeInfo) : Bool :=
  { mode.info with vrefresh := m.vrefresh, name := m.name } == m

/-- `DRM_MODE_TYPE_PREFERRED`. -/
def drmModeTypePreferred : BitVec 32 := 0x8#32

/-- "Take the first one, then look for the preferred". -/
def chooseMode : List DrmMode → Option DrmMode
  | [] => none
  | first :: rest =>
      some
        (((first :: rest).find? fun m => m.info.type &&& drmModeTypePreferred != 0#32).getD first)

/-- `DrmConnector`, as far as hotplug events read it. -/
structure HotplugConnector where
  id : Nat
  display : Int
  state : DrmModeConnection
  modes : List DrmMode
  deriving DecidableEq, Repr

namespace HotplugConnector

def connected (conn : HotplugConnector) : Bool := conn.state == .connected

/-- The loop of `UpdateModes` over the modes that the kernel reports. -/
def refreshModes (modes : List DrmMode) : List DrmModeModeInfo → Nat → List DrmMode × Nat
  | [], nextModeId => ([], nextModeId)
  | m :: rest, nextModeId =>
      match modes.find? fun mode => mode.sameAs m with
      | some mode =>
          let r := refreshModes modes rest nextModeId
          (mode :: r.1, r.2)
      | none =>
          let r := refreshModes modes rest (nextModeId + 1)
          (⟨nextModeId + 1, m⟩ :: r.1, r.2)

/-- `UpdateModes`, with what `drmModeGetConnector` returns. -/
def updateModes (conn : HotplugConnector) (nextModeId : Nat)
    (c : Option (DrmModeConnection × List DrmModeModeInfo)) : Int × HotplugConnector × Nat :=
  match c with
  | none => (-enodev, conn, nextModeId)
  | some (connection, modes) =>
      let r := refreshModes conn.modes modes nextModeId
      (0, { conn with state := connection, modes := r.1 }, r.2)

end HotplugConnector

/-! ## The two callers -/

/-- What the kernel and the compositor answer for one connector. -/
structure ConnectorAnswer where
  connector : Option (DrmModeConnection × List DrmModeModeInfo)
  setDisplayActiveMode : DrmMode → Int
  setDpmsMode : Int

/-- The rest of what is read and written: the last mode number, and what the framework was
last told about each display. -/
structure HotplugDevice where
  nextModeId : Nat
  notified : Int → Bool

/-- `procs_->hotplug`. -/
def HotplugDevice.hotplug (d : HotplugDevice) (display : Int) (plugged : Bool) : HotplugDevice :=
  { d with notified := fun other => if other = display then plugged else d.notified other }

/-- `SetDisplayActiveMode` for a connector that is connected now, else `SetDpmsMode`. -/
def HotplugConnector.applyState (cur : HotplugConnector) (answer : ConnectorAnswer) : Option Int :=
  if cur.state = .connected then (chooseMode cur.modes).map answer.setDisplayActiveMode
  else some answer.setDpmsMode

/-- One turn of the loop of `HandleEvent`: the connector, whether an operation failed, and
whether `HandleEvent` returns. -/
structure ConnectorTurn where
  conn : HotplugConnector
  device : HotplugDevice
  failed : Bool
  returns : Bool

def handleConnector (answer : ConnectorAnswer) (conn : HotplugConnector) (d : HotplugDevice) :
    Option ConnectorTurn :=
  let (ret, cur, nextModeId) := conn.updateModes d.nextModeId answer.connector
  let d := { d with nextModeId }
  if cur.state = conn.state then some ⟨cur, d, ret != 0, false⟩
  else
    match cur.applyState answer with
    | none => none
    | some ret =>
        if ret ≠ 0 then some ⟨cur, d, true, true⟩
        else some ⟨cur, d.hotplug cur.display cur.connected, false, false⟩

/-- The connectors and the rest; `completed` is false when an operation failed. -/
structure HotplugState where
  connectors : List HotplugConnector
  device : HotplugDevice
  completed : Bool

/-- The loop of `HandleEvent`; the answers are found by the connectors' ids. -/
def handleConnectors (answers : Nat → ConnectorAnswer) :
    List HotplugConnector → HotplugDevice → Option HotplugState
  | [], d => some ⟨[], d, true⟩
  | conn :: rest, d =>
      match handleConnector (answers conn.id) conn d with
      | none => none
      | some turn =>
          if turn.returns then some ⟨turn.conn :: rest, turn.device, false⟩
          else (handleConnectors answers rest turn.device).map fun s =>
            ⟨turn.conn :: s.connectors, s.device, s.completed && !turn.failed⟩

/-- `HandleEvent`. -/
def HotplugState.handleEvent (s : HotplugState) (answers : Nat → ConnectorAnswer) :
    Option HotplugState :=
  handleConnectors answers s.connectors s.device

/-- Refresh the first connector of a display, as `hwc_get_display_configs` does. -/
def refreshDisplay (display : Int) (c : Option (DrmModeConnection × List DrmModeModeInfo)) :
    List HotplugConnector → HotplugDevice → List HotplugConnector × HotplugDevice
  | [], d => ([], d)
  | conn :: rest, d =>
      if conn.display = display then
        let (_, cur, nextModeId) := conn.updateModes d.nextModeId c
        (cur :: rest, { d with nextModeId })
      else
        let r := refreshDisplay display c rest d
        (conn :: r.1, r.2)

/-- `hwc_get_display_configs`, as far as it changes the connectors. -/
def HotplugState.getDisplayConfigs (s : HotplugState) (display : Int) (numConfigs : Nat)
    (c : Option (DrmModeConnection × List DrmModeModeInfo)) : HotplugState :=
  if numConfigs = 0 then s
  else
    let r := refreshDisplay display c s.connectors s.device
    { s with connectors := r.1, device := r.2 }

/-! ## Runs -/

inductive HotplugEvent where
  | hotplug (answers : Nat → ConnectorAnswer)
  | getDisplayConfigs (display : Int) (numConfigs : Nat)
      (c : Option (DrmModeConnection × List DrmModeModeInfo))

/-- What the framework was told last is whether the connector is connected. -/
def HotplugConnector.Agrees (d : HotplugDevice) (conn : HotplugConnector) : Prop :=
  d.notified conn.display = conn.connected

/-- Hotplug events and calls of `hwc_get_display_configs`, in any order.  The framework
starts with the states at start-up, and the displays have been numbered. -/
def hotplugSystem : System HotplugState HotplugEvent where
  start := fun s => (s.connectors.map (·.display)).Nodup ∧
    ∀ conn ∈ s.connectors, conn.Agrees s.device
  next := fun s e =>
    match e with
    | .hotplug answers => s.handleEvent answers
    | .getDisplayConfigs display numConfigs c => some (s.getDisplayConfigs display numConfigs c)

/-- The cached state of each connector is what the kernel has just reported, and the
framework has been told so. -/
def UpToDate (answers : Nat → ConnectorAnswer) (s : HotplugState) : Prop :=
  ∀ conn ∈ s.connectors, (∃ modes, (answers conn.id).connector = some (conn.state, modes)) ∧
    conn.Agrees s.device

/-! ## The condition on the steps -/

/-- A connector that has been plugged or unplugged has a mode, and it is set. -/
def TurnOk (answer : ConnectorAnswer) (conn : HotplugConnector) (nextModeId : Nat) : Prop :=
  let cur := (conn.updateModes nextModeId answer.connector).2.1
  cur.connected ≠ conn.connected → cur.applyState answer = some 0

/-- It is so for one connector after the other, as far as `HandleEvent` gets. -/
def TurnsOk (answers : Nat → ConnectorAnswer) :
    List HotplugConnector → HotplugDevice → Prop
  | [], _ => True
  | conn :: rest, d => TurnOk (answers conn.id) conn d.nextModeId ∧
      ∀ turn ∈ handleConnector (answers conn.id) conn d, turn.returns = false →
        TurnsOk answers rest turn.device

/-- `hwc_get_display_configs` finds no connector plugged or unplugged. -/
def RefreshOk (display : Int) (c : Option (DrmModeConnection × List DrmModeModeInfo))
    (s : HotplugState) : Prop :=
  ∀ conn ∈ s.connectors, conn.display = display →
    (conn.updateModes s.device.nextModeId c).2.1.connected = conn.connected

def HotplugOk (s : HotplugState) : HotplugEvent → Prop
  | .hotplug answers => TurnsOk answers s.connectors s.device
  | .getDisplayConfigs display numConfigs c => numConfigs = 0 ∨ RefreshOk display c s

/-! ## One turn -/

theorem updateModes_id (conn : HotplugConnector) (nextModeId : Nat)
    (c : Option (DrmModeConnection × List DrmModeModeInfo)) :
    (conn.updateModes nextModeId c).2.1.id = conn.id := by
  cases c with
  | none => rfl
  | some c => rfl

theorem updateModes_display (conn : HotplugConnector) (nextModeId : Nat)
    (c : Option (DrmModeConnection × List DrmModeModeInfo)) :
    (conn.updateModes nextModeId c).2.1.display = conn.display := by
  cases c with
  | none => rfl
  | some c => rfl

/-- Without an error the cached state is the reported one. -/
theorem updateModes_reported {conn : HotplugConnector} {nextModeId : Nat}
    {c : Option (DrmModeConnection × List DrmModeModeInfo)}
    (h : (conn.updateModes nextModeId c).1 = 0 ∨
      (conn.updateModes nextModeId c).2.1.state ≠ conn.state) :
    ∃ modes, c = some ((conn.updateModes nextModeId c).2.1.state, modes) := by
  cases c with
  | none =>
      cases h with
      | inl hzero => cases hzero
      | inr hne => exact absurd rfl hne
  | some c => exact ⟨c.2, rfl⟩

/-- What a turn does where a plugged or unplugged connector can be set. -/
structure TurnKeeps (answer : ConnectorAnswer) (conn : HotplugConnector) (d : HotplugDevice)
    (turn : ConnectorTurn) : Prop where
  id : turn.conn.id = conn.id
  display : turn.conn.display = conn.display
  agrees : turn.conn.Agrees turn.device
  others : ∀ display, display ≠ conn.display → turn.device.notified display = d.notified display
  reported : turn.failed = false →
    ∃ modes, answer.connector = some (turn.conn.state, modes)

theorem applyState_isSome {cur : HotplugConnector} (answer : ConnectorAnswer)
    (h : cur.connected = false) : cur.applyState answer = some answer.setDpmsMode := by
  unfold HotplugConnector.applyState
  rw [if_neg fun heq : cur.state = .connected => by
    unfold HotplugConnector.connected at h
    rw [heq] at h
    cases h]

theorem handleConnector_keeps {answer : ConnectorAnswer} {conn : HotplugConnector}
    {d : HotplugDevice} (hagrees : conn.Agrees d) (hok : TurnOk answer conn d.nextModeId) :
    ∃ turn, handleConnector answer conn d = some turn ∧ TurnKeeps answer conn d turn := by
  have hid := updateModes_id conn d.nextModeId answer.connector
  have hdisplay := updateModes_display conn d.nextModeId answer.connector
  have hreported := @updateModes_reported conn d.nextModeId answer.connector
  unfold TurnOk at hok
  unfold handleConnector
  generalize conn.updateModes d.nextModeId answer.connector = u at hid hdisplay hreported hok ⊢
  obtain ⟨ret, cur, nextModeId⟩ := u
  dsimp only at hid hdisplay hreported hok ⊢
  unfold HotplugConnector.Agrees at hagrees
  by_cases hstate : cur.state = conn.state
  · rw [if_pos hstate]
    refine ⟨_, rfl, hid, hdisplay, ?_, fun _ _ => rfl, fun hfailed => ?_⟩
    · change d.notified cur.display = cur.connected
      rw [hdisplay, hagrees]
      unfold HotplugConnector.connected
      rw [hstate]
    · exact hreported (Or.inl (by simpa using hfailed))
  · rw [if_neg hstate]
    by_cases hconnected : cur.connected = conn.connected
    · -- from disconnected to unknown or back: whether the display can be switched off does
      -- not matter
      have hfalse : cur.connected = false := by
        unfold HotplugConnector.connected at hconnected ⊢
        cases hcur : cur.state with
        | connected =>
            rw [hcur] at hconnected hstate
            exact absurd (beq_iff_eq.mp hconnected.symm).symm hstate
        | disconnected => rfl
        | unknownConnection => rfl
      rw [applyState_isSome answer hfalse]
      dsimp only
      by_cases hret : answer.setDpmsMode ≠ 0
      · rw [if_pos hret]
        refine ⟨_, rfl, hid, hdisplay, ?_, fun _ _ => rfl, fun hfailed => ?_⟩
        · change d.notified cur.display = cur.connected
          rw [hdisplay, hagrees, hconnected]
        · cases hfailed
      · rw [if_neg hret]
        refine ⟨_, rfl, hid, hdisplay, ?_, fun other hother => ?_, fun _ => ?_⟩
        · exact if_pos rfl
        · exact if_neg fun heq : other = cur.display => hother (heq.trans hdisplay)
        · exact hreported (Or.inr hstate)
    · rw [hok hconnected]
      dsimp only
      rw [if_neg (not_not_intro rfl)]
      refine ⟨_, rfl, hid, hdisplay, ?_, fun other hother => ?_, fun _ => ?_⟩
      · exact if_pos rfl
      · exact if_neg fun heq : other = cur.display => hother (heq.trans hdisplay)
      · exact hreported (Or.inr hstate)

/-! ## One event -/

/-- What `HandleEvent` keeps. -/
structure EventKeeps (answers : Nat → ConnectorAnswer) (connectors : List HotplugConnector)
    (d : HotplugDevice) (s : HotplugState) : Prop where
  displays : s.connectors.map (·.display) = connectors.map (·.display)
  agrees : ∀ conn ∈ s.connectors, conn.Agrees s.device
  others : ∀ display, display ∉ connectors.map (·.display) →
    s.device.notified display = d.notified display
  reported : s.completed = true → ∀ conn ∈ s.connectors,
    ∃ modes, (answers conn.id).connector = some (conn.state, modes)

theorem handleConnectors_keeps (answers : Nat → ConnectorAnswer) :
    ∀ (connectors : List HotplugConnector) (d : HotplugDevice),
      (connectors.map (·.display)).Nodup → (∀ conn ∈ connectors, conn.Agrees d) →
      TurnsOk answers connectors d →
      ∃ s, handleConnectors answers connectors d = some s ∧ EventKeeps answers connectors d s := by
  intro connectors
  induction connectors with
  | nil =>
      intro d _ hagrees _
      exact ⟨_, rfl, rfl, hagrees, fun _ _ => rfl,
        fun _ conn hconn => absurd hconn List.not_mem_nil⟩
  | cons conn rest ih =>
      intro d hnodup hagrees hok
      rw [List.map_cons, List.nodup_cons] at hnodup
      obtain ⟨turn, hturn, hkeeps⟩ := handleConnector_keeps (hagrees conn List.mem_cons_self) hok.1
      unfold handleConnectors
      rw [hturn]
      dsimp only
      -- the turn leaves what was told about the connectors behind it
      have hrest : ∀ c ∈ rest, c.Agrees turn.device := by
        intro c hc
        have hne : c.display ≠ conn.display := fun heq =>
          hnodup.1 (List.mem_map.mpr ⟨c, hc, heq⟩)
        unfold HotplugConnector.Agrees
        rw [hkeeps.others c.display hne]
        exact hagrees c (List.mem_cons_of_mem conn hc)
      by_cases hreturns : turn.returns = true
      · rw [if_pos hreturns]
        refine ⟨_, rfl, ?_, ?_, ?_, fun hcompleted => by cases hcompleted⟩
        · rw [List.map_cons, List.map_cons, hkeeps.display]
        · exact List.forall_mem_cons.mpr ⟨hkeeps.agrees, hrest⟩
        · intro display hnot
          apply hkeeps.others
          exact fun heq => hnot (List.mem_map.mpr ⟨conn, List.mem_cons_self, heq.symm⟩)
      · rw [if_neg hreturns]
        obtain ⟨s, hs, hrec⟩ := ih turn.device hnodup.2 hrest
          (hok.2 turn hturn (Bool.eq_false_iff.mpr hreturns))
        rw [hs]
        refine ⟨_, rfl, ?_, ?_, ?_, fun hcompleted => ?_⟩
        · rw [List.map_cons, List.map_cons, hkeeps.display, hrec.displays]
        · refine List.forall_mem_cons.mpr ⟨?_, hrec.agrees⟩
          unfold HotplugConnector.Agrees
          rw [hkeeps.display, hrec.others conn.display hnodup.1, ← hkeeps.display]
          exact hkeeps.agrees
        · intro display hnot
          rw [List.map_cons, List.mem_cons, not_or] at hnot
          rw [hrec.others display hnot.2, hkeeps.others display hnot.1]
        · rw [Bool.and_eq_true_iff, Bool.not_eq_true'] at hcompleted
          refine List.forall_mem_cons.mpr ⟨?_, hrec.reported hcompleted.1⟩
          rw [hkeeps.id]
          exact hkeeps.reported hcompleted.2

theorem refreshDisplay_keeps (display : Int)
    (c : Option (DrmModeConnection × List DrmModeModeInfo)) :
    ∀ (connectors : List HotplugConnector) (d : HotplugDevice),
      (∀ conn ∈ connectors, conn.Agrees d) →
      (∀ conn ∈ connectors, conn.display = display →
        (conn.updateModes d.nextModeId c).2.1.connected = conn.connected) →
      (refreshDisplay display c connectors d).1.map (·.display) = connectors.map (·.display) ∧
        (refreshDisplay display c connectors d).2.notified = d.notified ∧
        ∀ conn ∈ (refreshDisplay display c connectors d).1,
          d.notified conn.display = conn.connected := by
  intro connectors
  induction connectors with
  | nil => intro d hagrees _; exact ⟨rfl, rfl, hagrees⟩
  | cons conn rest ih =>
      intro d hagrees hok
      rw [List.forall_mem_cons] at hagrees
      unfold refreshDisplay
      by_cases hdisplay : conn.display = display
      · have hsame := updateModes_display conn d.nextModeId c
        have hconnected := hok conn List.mem_cons_self hdisplay
        rw [if_pos hdisplay]
        refine ⟨?_, rfl, List.forall_mem_cons.mpr ⟨?_, hagrees.2⟩⟩
        · rw [List.map_cons, List.map_cons, hsame]
        · rw [hsame, hconnected]
          exact hagrees.1
      · obtain ⟨hdisplays, hnotified, hrest⟩ := ih d hagrees.2
          fun c hc => hok c (List.mem_cons_of_mem conn hc)
        rw [if_neg hdisplay]
        refine ⟨?_, hnotified, List.forall_mem_cons.mpr ⟨hagrees.1, hrest⟩⟩
        rw [List.map_cons, List.map_cons, hdisplays]

/-! ## Every run -/

/-- The displays are numbered apart, and the framework knows the cached states. -/
structure HotplugInv (s : HotplugState) : Prop where
  nodup : (s.connectors.map (·.display)).Nodup
  agrees : ∀ conn ∈ s.connectors, conn.Agrees s.device

theorem HotplugInv.step {s s' : HotplugState} {e : HotplugEvent} (h : HotplugInv s)
    (hok : HotplugOk s e) (hnext : hotplugSystem.next s e = some s') : HotplugInv s' := by
  cases e with
  | hotplug answers =>
      obtain ⟨r, hr, hkeeps⟩ := handleConnectors_keeps answers s.connectors s.device h.nodup
        h.agrees hok
      have heq : s' = r := Option.some.inj (hnext.symm.trans hr)
      rw [heq]
      exact ⟨hkeeps.displays ▸ h.nodup, hkeeps.agrees⟩
  | getDisplayConfigs display numConfigs c =>
      cases hnext
      unfold HotplugState.getDisplayConfigs
      by_cases hnum : numConfigs = 0
      · rw [if_pos hnum]
        exact h
      · obtain ⟨hdisplays, hnotified, hagrees⟩ := refreshDisplay_keeps display c s.connectors
          s.device h.agrees (hok.resolve_left hnum)
        rw [if_neg hnum]
        refine ⟨hdisplays ▸ h.nodup, fun conn hconn => ?_⟩
        unfold HotplugConnector.Agrees
        rw [hnotified]
        exact hagrees conn hconn

/-- 640x480, preferred. -/
def externalMode : DrmModeModeInfo where
  clock := 25175
  hdisplay := 640
  hsyncStart := 656
  hsyncEnd := 752
  htotal := 800
  hskew := 0
  vdisplay := 480
  vsyncStart := 490
  vsyncEnd := 492
  vtotal := 525
  vscan := 0
  vrefresh := 60
  flags := 0xa#32
  type := 0x48#32
  name := "640x480"

/-- At start-up nothing is plugged in. -/
def externalUnplugged : HotplugState :=
  ⟨[⟨31, 1, .disconnected, []⟩], ⟨0, fun _ => false⟩, true⟩

/-- The kernel reports the display, and it can be set. -/
def externalPlugged : Nat → ConnectorAnswer :=
  fun _ => ⟨some (.connected, [externalMode]), fun _ => 0, 0⟩

theorem externalUnplugged_start : hotplugSystem.start externalUnplugged := by
  refine ⟨List.nodup_singleton _, fun conn hconn => ?_⟩
  rw [List.mem_singleton.mp hconn]
  rfl

end DragonDevice.Hwc
