/-
  Hwc/EventListener.lean --- `drmeventlistener.cpp`: waiting for events of the display and
  for messages about devices, and telling which messages are about hotplugging.

  A message is a sequence of strings, each with a NUL at its end; characters stand for its
  bytes.  What lies in the buffer behind the bytes that were read is not known, so that a
  scan that goes there has no result.  `select` leaves in its set the descriptors that are
  ready; if it fails, it leaves the set as it is.
-/
import DragonDevice.Lib.Terminated
import Mathlib.Data.Finset.Insert

set_option autoImplicit false

namespace DragonDevice.Hwc

open DragonDevice.Lib

/-! ## Messages -/

def nul : Char := Char.ofNat 0

def devtypeDrmMinor : List Char := "DEVTYPE=drm_minor".toList

def hotplugOne : List Char := "HOTPLUG=1".toList

/-- The size of the buffer of `UEventHandler`. -/
def ueventBufferSize : Nat := 1024

/-- What `read` puts in the buffer if it succeeds. -/
structure UEvent where
  bytes : List Char
  nonempty : bytes ≠ []
  fits : bytes.length ≤ ueventBufferSize

/-- The strings of a message; the last one may be cut off. -/
def UEvent.strings (message : UEvent) : List (List Char) := pieces nul message.bytes

/-- `drm_event` and `hotplug_event`. -/
structure EventFlags where
  drmEvent : Bool
  hotplugEvent : Bool
  deriving DecidableEq, Repr

/-- The flags after a string: `strcmp` is not 0 for strings that differ. -/
def EventFlags.note (flags : EventFlags) (event : List Char) : EventFlags :=
  if event ≠ devtypeDrmMinor then { flags with drmEvent := true }
  else if event ≠ hotplugOne then { flags with hotplugEvent := true }
  else flags

/-- The loop over the strings in the bytes that are left, in a number of turns. -/
def scanEvents : Nat → List Char → EventFlags → Option EventFlags
  | _, [], flags => some flags
  | 0, _ :: _, _ => none
  | turns + 1, c :: rest, flags =>
      (upTo nul (c :: rest)).bind fun event =>
        scanEvents turns ((c :: rest).drop (event.length + 1)) (flags.note event)

/-- How a `read` ends. -/
inductive UEventRead where
  | message (event : UEvent)
  | endOfFile
  | error

/-- `UEventHandler`: the times with which the hotplug handler is called, if one is registered.
After the reads that are given it waits for the next one. -/
def uEventHandler (registered : Bool) (timestamp : Nat) : List UEventRead → Option (List Nat)
  | .message event :: rest =>
      if registered then
        (scanEvents event.bytes.length event.bytes ⟨false, false⟩).bind fun flags =>
          (uEventHandler registered timestamp rest).map fun calls =>
            if flags.drmEvent && flags.hotplugEvent then timestamp :: calls else calls
      else uEventHandler registered timestamp rest
  | _ => some []

/-- Only the bytes of the message are examined, and the handler is called when it contains both
strings. -/
def RecognisesHotplug (message : UEvent) : Prop :=
  ∀ timestamp, uEventHandler true timestamp [.message message] =
    some (if message.strings.contains devtypeDrmMinor && message.strings.contains hotplugOne then
      [timestamp] else [])

/-! ## The scan -/

theorem scanEvents_terminate (ps : List (List Char)) (rest : List Char) :
    ∀ (turns : Nat) (flags : EventFlags), (∀ piece ∈ ps, nul ∉ piece) →
      (terminate nul ps ++ rest).length ≤ turns →
      ∃ turns', rest.length ≤ turns' ∧ scanEvents turns (terminate nul ps ++ rest) flags =
        scanEvents turns' rest (ps.foldl EventFlags.note flags) := by
  induction ps with
  | nil =>
      intro turns flags _ hturns
      exact ⟨turns, hturns, rfl⟩
  | cons piece ps ih =>
      intro turns flags hps hturns
      obtain ⟨hpiece, hps⟩ := List.forall_mem_cons.mp hps
      rw [terminate_cons, List.append_assoc, List.cons_append] at hturns ⊢
      obtain ⟨turns, rfl⟩ : ∃ n, turns = n + 1 := by
        refine ⟨turns - 1, ?_⟩
        rw [List.length_append, List.length_cons] at hturns
        omega
      obtain ⟨turns', hle, hrest⟩ := ih turns (flags.note piece) hps (by
        rw [List.length_append, List.length_cons] at hturns
        omega)
      refine ⟨turns', hle, ?_⟩
      have hdrop : (piece ++ nul :: (terminate nul ps ++ rest)).drop (piece.length + 1) =
          terminate nul ps ++ rest := by
        rw [List.drop_append, List.drop_eq_nil_of_le (Nat.le_succ _), Nat.add_sub_cancel_left]
        rfl
      have hturn : ∀ l, l ≠ [] → scanEvents (turns + 1) l flags =
          (upTo nul l).bind fun event =>
            scanEvents turns (l.drop (event.length + 1)) (flags.note event) := by
        intro l hl
        cases l with
        | nil => exact absurd rfl hl
        | cons c l => rw [scanEvents]
      rw [hturn _ (by simp), upTo_append hpiece, Option.bind_some, hdrop, hrest, List.foldl_cons]

/-- The flags after all strings: some string is not the device type, and some is. -/
theorem foldl_note (ps : List (List Char)) (flags : EventFlags) :
    ps.foldl EventFlags.note flags =
      ⟨flags.drmEvent || ps.any (· != devtypeDrmMinor),
        flags.hotplugEvent || ps.any (· == devtypeDrmMinor)⟩ := by
  induction ps generalizing flags with
  | nil => simp
  | cons piece ps ih =>
      rw [List.foldl_cons, ih, EventFlags.note]
      by_cases hpiece : piece = devtypeDrmMinor
      · have hother : devtypeDrmMinor ≠ hotplugOne := by decide
        simp [hpiece, hother]
      · have hbeq : (piece == devtypeDrmMinor) = false := beq_eq_false_iff_ne.mpr hpiece
        simp [hpiece, hbeq]

/-- The scan of a message whose last string is cut off goes on behind it; else it finds whether
there are the device type and another string. -/
theorem scanEvents_message (message : UEvent) :
    scanEvents message.bytes.length message.bytes ⟨false, false⟩ =
      if message.bytes.getLast? = some nul then
        some ⟨message.strings.any (· != devtypeDrmMinor),
          message.strings.any (· == devtypeDrmMinor)⟩
      else none := by
  obtain ⟨ps, rest, hbytes, hps, hrest, hpieces⟩ := exists_pieces nul message.bytes
  obtain ⟨turns, hturns, hscan⟩ := scanEvents_terminate ps rest message.bytes.length
    ⟨false, false⟩ hps (by rw [← hbytes])
  have hlast := getLast?_pieces ps hrest (by rw [← hbytes]; exact message.nonempty)
  rw [← hbytes] at hscan hlast
  rw [hscan, UEvent.strings, hpieces]
  cases rest with
  | nil => simp [hlast, scanEvents, foldl_note]
  | cons c rest =>
      rw [if_neg (by simp [hlast])]
      cases turns with
      | zero => rfl
      | succ turns => rw [scanEvents, upTo_eq_none hrest, Option.bind_none]

/-- A message is recognised exactly when its last string is complete and, if it contains the
device type among other strings, one of these is the hotplug mark. -/
theorem recognisesHotplug_iff (message : UEvent) :
    RecognisesHotplug message ↔ message.bytes.getLast? = some nul ∧
      (devtypeDrmMinor ∈ message.strings → (∃ s ∈ message.strings, s ≠ devtypeDrmMinor) →
        hotplugOne ∈ message.strings) := by
  have hother : hotplugOne ≠ devtypeDrmMinor := by decide
  unfold RecognisesHotplug
  simp only [uEventHandler, scanEvents_message, if_pos]
  by_cases hlast : message.bytes.getLast? = some nul
  · simp only [hlast, if_pos, Option.bind_some, Option.map_some, true_and]
    have hmarks : (message.strings.any (· != devtypeDrmMinor) &&
        message.strings.any (· == devtypeDrmMinor)) = true ↔
        devtypeDrmMinor ∈ message.strings ∧ ∃ s ∈ message.strings, s ≠ devtypeDrmMinor := by
      simp [and_comm]
    have hspec : (message.strings.contains devtypeDrmMinor &&
        message.strings.contains hotplugOne) = true ↔
        devtypeDrmMinor ∈ message.strings ∧ hotplugOne ∈ message.strings := by
      simp
    simp only [hmarks, hspec]
    constructor
    · intro h hdevtype hsome
      by_contra hnot
      have hcall := h 0
      rw [if_pos ⟨hdevtype, hsome⟩, if_neg (fun hboth => hnot hboth.2)] at hcall
      cases hcall
    · intro h timestamp
      by_cases hboth : devtypeDrmMinor ∈ message.strings ∧ hotplugOne ∈ message.strings
      · rw [if_pos hboth, if_pos ⟨hboth.1, hotplugOne, hboth.2, hother⟩]
      · rw [if_neg hboth, if_neg]
        rintro ⟨hdevtype, hsome⟩
        exact hboth ⟨hdevtype, h hdevtype hsome⟩
  · simp [hlast]

/-- A display was added; nothing was plugged in. -/
def displayAdded : UEvent where
  bytes := terminate nul ["ACTION=add".toList, devtypeDrmMinor]
  nonempty := by decide
  fits := by decide

theorem not_recognisesHotplug_added : ¬ RecognisesHotplug displayAdded := by
  intro h
  have hspec : ¬ (displayAdded.strings.contains devtypeDrmMinor &&
      displayAdded.strings.contains hotplugOne) = true := by
    decide
  have hcalled : uEventHandler true 7 [.message displayAdded] = some [7] := by decide
  have hcall := h 7
  rw [if_neg hspec, hcalled] at hcall
  cases hcall

/-! ## Waiting -/

/-- How a call of `select` ends: with the descriptors that are ready, by a signal, or with
another error. -/
inductive SelectResult where
  | ready (fds : Finset Nat)
  | interrupted
  | failed

/-- What `Routine` calls for descriptors that are set. -/
inductive EventSource where
  | drmHandleEvent
  | uEventHandler
  deriving DecidableEq, Repr

/-- The descriptors of a listener. -/
structure Descriptors where
  drm : Nat
  uevent : Nat
  apart : drm ≠ uevent

namespace Descriptors

variable (d : Descriptors)

/-- `fds_` as `Init` leaves it. -/
def init : Finset Nat := {d.drm, d.uevent}

/-- The end of `Routine`: `FD_ISSET` of both. -/
def dispatch (fds : Finset Nat) : List EventSource :=
  (if d.drm ∈ fds then [.drmHandleEvent] else []) ++
    if d.uevent ∈ fds then [.uEventHandler] else []

/-- A call of `select`: the set that is passed, and what is called after it. -/
structure Wait where
  passed : Finset Nat
  called : List EventSource

/-- `Routine` again and again, from a value of `fds_`.  After the results that are given it
waits in a last call. -/
def listen : Finset Nat → List SelectResult → List Wait
  | fds, [] => [⟨fds, []⟩]
  | fds, .interrupted :: rest => ⟨fds, []⟩ :: listen fds rest
  | fds, .failed :: rest => ⟨fds, d.dispatch fds⟩ :: listen fds rest
  | fds, .ready set :: rest => ⟨fds, d.dispatch set⟩ :: listen set rest

/-- Both descriptors are in the set. -/
def Both (fds : Finset Nat) : Prop := d.drm ∈ fds ∧ d.uevent ∈ fds

/-- Every call of `select` watches both descriptors. -/
def KeepsListening (results : List SelectResult) : Prop :=
  ∀ wait ∈ d.listen d.init results, d.Both wait.passed

/-- Results that `select` can have: some of the descriptors that it was passed are ready. -/
def Possible : Finset Nat → List SelectResult → Prop
  | _, [] => True
  | fds, .ready set :: rest => set.Nonempty ∧ set ⊆ fds ∧ Possible set rest
  | fds, _ :: rest => Possible fds rest

/-- Every call watches both when the first does and when no call leaves one of them out. -/
theorem listen_both_iff (results : List SelectResult) :
    ∀ fds, (∀ wait ∈ d.listen fds results, d.Both wait.passed) ↔
      d.Both fds ∧ ∀ set, .ready set ∈ results → d.Both set := by
  induction results with
  | nil => simp [listen]
  | cons result rest ih =>
      intro fds
      cases result with
      | interrupted => simp [listen, ih]
      | failed => simp [listen, ih]
      | ready set => simp [listen, ih]

/-- Both sources are watched in a run exactly when they are ready together in every call that
has returned with descriptors. -/
theorem keepsListening_iff (results : List SelectResult) :
    d.KeepsListening results ↔ ∀ set, .ready set ∈ results → d.Both set := by
  have hinit : d.Both d.init := by simp [Both, init]
  rw [KeepsListening, listen_both_iff]
  exact and_iff_right hinit

/-- A descriptor that is left out once is never watched again. -/
theorem not_watched_again {fd : Nat} (results : List SelectResult) :
    ∀ fds, Possible fds results → fd ∉ fds → ∀ wait ∈ d.listen fds results, fd ∉ wait.passed := by
  induction results with
  | nil =>
      intro fds _ hfd wait hwait
      rw [List.mem_singleton.mp hwait]
      exact hfd
  | cons result rest ih =>
      intro fds hpossible hfd
      cases result with
      | interrupted => exact List.forall_mem_cons.mpr ⟨hfd, ih fds hpossible hfd⟩
      | failed => exact List.forall_mem_cons.mpr ⟨hfd, ih fds hpossible hfd⟩
      | ready set =>
          obtain ⟨_, hsub, hrest⟩ := hpossible
          exact List.forall_mem_cons.mpr ⟨hfd, ih set hrest fun hmem => hfd (hsub hmem)⟩

/-- After a page flip alone, `select` is not passed the descriptor of the messages. -/
theorem not_keepsListening_flip :
    Possible (init ⟨3, 4, by decide⟩) [.ready {3}] ∧
      ¬ KeepsListening ⟨3, 4, by decide⟩ [.ready {3}] := by
  refine ⟨⟨by decide, by decide, trivial⟩, fun h => ?_⟩
  have hsecond := h ⟨{3}, []⟩ (by simp [listen])
  exact absurd hsecond.2 (by decide)

end Descriptors

end DragonDevice.Hwc
