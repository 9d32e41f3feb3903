/-
  Sensors/PollEvents.lean --- `pollEvents` of `sensors.cpp`: the loop that fills the
  caller's buffer from the ring, as a machine that is in a system call until the system
  answers.

  `readEvents` may give a negative result, and the loop adds it like a number of events.
  A call whose reads of the ring all give whole events keeps to the buffer and reports
  exactly what was accepted.  A call that returns a number after any other read does not.
-/
import Mathlib.Data.List.Induction
import DragonDevice.Lib.Transition
import DragonDevice.Sensors.RingEvents

set_option autoImplicit false

namespace DragonDevice.Sensors

open DragonDevice.Lib

/-! ## The machine -/

def eintr : Nat := 4

/-- What `poll` gives: it was interrupted, it failed with another error, or it counts the
descriptors that are ready and says which of the two have input. -/
inductive PollResult where
  | interrupted
  | failed (errno : Nat)
  | ready (n : Nat) (ring wake : Bool)
  deriving DecidableEq, Repr

/-- An answer of the system. -/
inductive Answer where
  | read (result : RingRead)
  | poll (result : PollResult)

/-- Where a call is: in `read` on the ring, in `poll`, or back at its caller. -/
inductive Phase where
  | reading
  | polling
  | returned (result : Int)
  deriving DecidableEq, Repr

/-- The variables of a call of `pollEvents`, with `data` relative to the caller's pointer
and `pollin` the flag in the ring's `revents`. -/
structure Call where
  count : Int
  nbEvents : Int
  data : Int
  pollin : Bool
  mem : Memory
  phase : Phase

/-- The part of the loop before `poll`, or the end of the loop when there is no room. -/
def afterRead (c : Call) : Call :=
  if c.count ≠ 0 then
    { c with phase := .polling }
  else
    { c with phase := .returned c.nbEvents }

/-- The top of the loop. -/
def loopTop (c : Call) : Call :=
  if c.pollin then
    { c with phase := .reading }
  else
    afterRead c

/-- A call with what the last one left in `revents`. -/
def pollEvents (hub : Hub) (data : Int → SensorsEvent) (leftover : Bool) (count : Int) :
    Call :=
  loopTop
    { count := count, nbEvents := 0, data := 0, pollin := leftover,
      mem := { hub := hub, data := data, writes := [] }, phase := .reading }

/-- The rest of the branch that reads the ring. -/
def advance (c : Call) (nb : Int) (mem : Memory) : Call :=
  afterRead
    { count := c.count - nb
      nbEvents := c.nbEvents + nb
      data := c.data + nb
      pollin := if nb < c.count then false else c.pollin
      mem := mem
      phase := c.phase }

/-- The call goes on with an answer.  A message on the wake pipe is taken out and has no
other effect. -/
def deliver (fl : Floats) (c : Call) : Answer → Option Call
  | .read result =>
      if c.phase = .reading ∧ result.fits c.count = true then
        let r := readEvents fl c.mem c.data c.count result
        some (advance c r.1 r.2)
      else
        none
  | .poll result =>
      if c.phase = .polling then
        match result with
        | .interrupted => some c
        | .failed errno =>
            if 0 < errno ∧ errno ≠ eintr then
              some { c with phase := .returned (-errno) }
            else
              none
        | .ready n ring _ =>
            if n ≠ 0 ∧ c.count ≠ 0 then
              some (loopTop { c with pollin := ring })
            else
              some { c with pollin := ring, phase := .returned c.nbEvents }
      else
        none

/-- The call after a list of answers, if each is to the system call it is in. -/
def answered (fl : Floats) (c : Call) (answers : List Answer) : Option Call :=
  answers.foldlM (deliver fl) c

/-! ## What the answers brought -/

namespace Answer

/-- The events read. -/
def arrivals : Answer → List Arrival
  | read result => result.arrivals
  | poll _ => []

/-- What the result of a read falls short of the number of events it brought. -/
def shortfall : Answer → Nat
  | read .failed => 1
  | read (.incomplete _) => 22
  | read (.events _) => 0
  | poll _ => 0

/-- A read of the ring did not fail, brought whole events and no more than `mEvents` has
room for. -/
def Clean : Answer → Prop
  | read .failed => False
  | read (.incomplete _) => False
  | read (.events arrivals) => arrivals.length ≤ iioMaxBuffSize
  | poll _ => True

end Answer

def arrivalsOf (answers : List Answer) : List Arrival := answers.flatMap Answer.arrivals

def shortfallOf (answers : List Answer) : Nat :=
  answers.foldl (fun n answer => n + answer.shortfall) 0

theorem arrivalsOf_concat (past : List Answer) (answer : Answer) :
    arrivalsOf (past ++ [answer]) = arrivalsOf past ++ answer.arrivals := by
  simp [arrivalsOf]

theorem shortfallOf_concat (past : List Answer) (answer : Answer) :
    shortfallOf (past ++ [answer]) = shortfallOf past + answer.shortfall := by
  simp [shortfallOf]

/-! ## One answer -/

/-- `c'` has the variables of `c` except for its phase and the flag, and is not back with
anything but an error or the number of events. -/
structure Resumes (c c' : Call) : Prop where
  count : c'.count = c.count
  nbEvents : c'.nbEvents = c.nbEvents
  data : c'.data = c.data
  mem : c'.mem = c.mem
  result : ∀ r, c'.phase = .returned r → r < 0 ∨ r = c.nbEvents
  room : c'.phase = .reading ∨ c'.phase = .polling → c.count ≠ 0

theorem Resumes.of_polling {c : Call} (h : c.phase = .polling) (hcount : c.count ≠ 0) :
    Resumes c c := by
  refine ⟨rfl, rfl, rfl, rfl, fun r hr => ?_, fun _ => hcount⟩
  rw [h] at hr
  cases hr

theorem afterRead_resumes (c : Call) : Resumes c (afterRead c) := by
  unfold afterRead
  by_cases hcount : c.count ≠ 0
  · rw [if_pos hcount]
    exact ⟨rfl, rfl, rfl, rfl, fun r hr => (by cases hr), fun _ => hcount⟩
  · rw [if_neg hcount]
    refine ⟨rfl, rfl, rfl, rfl, fun r hr => ?_, fun h => ?_⟩
    · cases hr
      exact .inr rfl
    · rcases h with h | h <;> cases h

theorem loopTop_resumes {c : Call} (hcount : c.count ≠ 0) : Resumes c (loopTop c) := by
  unfold loopTop
  split
  · exact ⟨rfl, rfl, rfl, rfl, fun r hr => (by cases hr), fun _ => hcount⟩
  · exact afterRead_resumes c

/-- Everything an answer can do. -/
theorem deliver_cases {fl : Floats} {c c' : Call} {answer : Answer}
    (h : deliver fl c answer = some c') :
    (∃ result, answer = .read result ∧ c.phase = .reading ∧ result.fits c.count = true ∧
        c' = advance c (readEvents fl c.mem c.data c.count result).1
          (readEvents fl c.mem c.data c.count result).2) ∨
      (∃ result, answer = .poll result ∧ c.phase = .polling ∧
        (c.count ≠ 0 → Resumes c c')) := by
  cases answer with
  | read result =>
      unfold deliver at h
      dsimp only at h
      split at h
      · rename_i hphase
        cases h
        exact .inl ⟨result, rfl, hphase.1, hphase.2, rfl⟩
      · cases h
  | poll result =>
      unfold deliver at h
      dsimp only at h
      split at h
      · rename_i hphase
        refine .inr ⟨result, rfl, hphase, fun hcount => ?_⟩
        cases result with
        | interrupted =>
            cases h
            exact Resumes.of_polling hphase hcount
        | failed errno =>
            dsimp only at h
            split at h
            · rename_i herrno
              cases h
              refine ⟨rfl, rfl, rfl, rfl, fun r hr => ?_, fun h => ?_⟩
              · cases hr
                exact .inl (by omega)
              · rcases h with h | h <;> cases h
            · cases h
        | ready n ring wake =>
            dsimp only at h
            split at h
            · cases h
              obtain ⟨h₁, h₂, h₃, h₄, h₅, h₆⟩ :=
                loopTop_resumes (c := { c with pollin := ring }) hcount
              exact ⟨h₁, h₂, h₃, h₄, h₅, h₆⟩
            · cases h
              refine ⟨rfl, rfl, rfl, rfl, fun r hr => ?_, fun h => ?_⟩
              · cases hr
                exact .inr rfl
              · rcases h with h | h <;> cases h
      · cases h

/-- What a read of the ring gives and leaves. -/
structure ReadsEvents (fl : Floats) (mem : Memory) (data : Int) (result : RingRead)
    (r : Int × Memory) : Prop where
  count : r.1 =
    (accepted fl mem.hub result.arrivals).length - ((Answer.read result).shortfall : Int)
  hub : r.2.hub = hubAfter fl mem.hub result.arrivals
  below : ∀ i, i < data → r.2.data i = mem.data i
  holds : ∀ (i : Nat) (entry : Hub × Arrival),
    (accepted fl mem.hub result.arrivals)[i]? = some entry →
      Holds fl entry (r.2.data (data + i))
  keeps : ∀ w ∈ mem.writes, w ∈ r.2.writes
  fills : ∀ arrivals, result = .events arrivals → Write.ring arrivals.length ∈ r.2.writes
  confined : (Answer.read result).Clean → ∀ w ∈ r.2.writes, w ∈ mem.writes ∨
    (∃ n, w = .ring n ∧ n ≤ iioMaxBuffSize) ∨
    ∃ offset, w = .slot offset ∧ data ≤ offset ∧ offset < data + result.arrivals.length

theorem readEvents_spec (fl : Floats) (mem : Memory) (data : Int) {count : Int}
    (hcount : 1 ≤ count) (result : RingRead) :
    ReadsEvents fl mem data result (readEvents fl mem data count result) := by
  unfold readEvents
  rw [if_neg (by omega)]
  cases result with
  | failed =>
      exact ⟨rfl, rfl, fun _ _ => rfl, fun i entry h => (by cases h), fun w hw => hw,
        fun arrivals h => (by cases h), fun h => h.elim⟩
  | incomplete bytes =>
      exact ⟨rfl, rfl, fun _ _ => rfl, fun i entry h => (by cases h),
        fun w hw => List.mem_append_left _ hw, fun arrivals h => (by cases h),
        fun h => h.elim⟩
  | events arrivals =>
      have hall := processAll_spec fl arrivals data
        { mem with writes := mem.writes ++ [.ring arrivals.length] }
      refine ⟨?_, hall.hub, hall.below, hall.holds, ?_, ?_, ?_⟩
      · rw [show (Answer.read (RingRead.events arrivals)).shortfall = 0 from rfl,
          Int.natCast_zero, Int.sub_zero]
        exact hall.count
      · intro w hw
        exact hall.keeps w (List.mem_append_left _ hw)
      · intro l hl
        cases hl
        exact hall.keeps _ (List.mem_append_right _ (List.mem_singleton.mpr rfl))
      · intro hclean w hw
        rcases hall.confined w hw with hold | hslot
        · rcases List.mem_append.mp hold with hold | hnew
          · exact .inl hold
          · exact .inr (.inl ⟨arrivals.length, List.mem_singleton.mp hnew, hclean⟩)
        · exact .inr (.inr hslot)

/-! ## Every run -/

/-- The counters of a call: what was accepted less the shortfall of the reads. -/
structure Tallied (fl : Floats) (hub : Hub) (count : Nat) (answers : List Answer)
    (c : Call) : Prop where
  data : c.data = c.nbEvents
  room : c.count = count - c.nbEvents
  nbEvents : c.nbEvents =
    (accepted fl hub (arrivalsOf answers)).length - (shortfallOf answers : Int)
  nonneg : 0 ≤ c.count
  active : c.phase = .reading ∨ c.phase = .polling → 1 ≤ c.count
  hub : c.mem.hub = hubAfter fl hub (arrivalsOf answers)
  result : ∀ r, c.phase = .returned r → r < 0 ∨ r = c.nbEvents
  fills : ∀ arrivals, Answer.read (.events arrivals) ∈ answers →
    Write.ring arrivals.length ∈ c.mem.writes

theorem pollEvents_tallied (fl : Floats) (hub : Hub) (data : Int → SensorsEvent)
    (leftover : Bool) {count : Nat} (hcount : 1 ≤ count) :
    Tallied fl hub count [] (pollEvents hub data leftover count) := by
  have h : Resumes _ (pollEvents hub data leftover count) :=
    loopTop_resumes (c := ⟨count, 0, 0, leftover, ⟨hub, data, []⟩, .reading⟩)
      (by dsimp only; omega)
  refine ⟨?_, ?_, ?_, ?_, ?_, ?_, ?_, ?_⟩
  · rw [h.data, h.nbEvents]
  · rw [h.count, h.nbEvents, Int.sub_zero]
  · rw [h.nbEvents]
    rfl
  · rw [h.count]
    dsimp only
    omega
  · intro _
    rw [h.count]
    dsimp only
    omega
  · rw [h.mem]
    rfl
  · intro r hr
    rw [h.nbEvents]
    exact h.result r hr
  · intro arrivals hmem
    cases hmem

/-- A read leaves no more accepted events than there was room. -/
theorem accepted_le_of_fits (fl : Floats) (hub : Hub) {result : RingRead} {count : Int}
    (hcount : 0 ≤ count) (hfits : result.fits count = true) :
    ((accepted fl hub result.arrivals).length : Int) ≤ count := by
  have hle := accepted_length_le fl hub result.arrivals
  cases result with
  | failed => exact hcount
  | incomplete bytes => exact hcount
  | events arrivals =>
      have hfit := of_decide_eq_true hfits
      dsimp only [RingRead.arrivals] at hle ⊢
      omega

/-- A read: the counters move by its result. -/
theorem Tallied.read {fl : Floats} {hub : Hub} {count : Nat} {past : List Answer} {c : Call}
    {result : RingRead} (hc : Tallied fl hub count past c) (hphase : c.phase = .reading)
    (hfits : result.fits c.count = true) :
    Tallied fl hub count (past ++ [.read result])
      (advance c (readEvents fl c.mem c.data c.count result).1
        (readEvents fl c.mem c.data c.count result).2) := by
  have hpos := hc.active (.inl hphase)
  have hread := readEvents_spec fl c.mem c.data hpos result
  have hfit := accepted_le_of_fits fl c.mem.hub hc.nonneg hfits
  have hres := afterRead_resumes
    { count := c.count - (readEvents fl c.mem c.data c.count result).1
      nbEvents := c.nbEvents + (readEvents fl c.mem c.data c.count result).1
      data := c.data + (readEvents fl c.mem c.data c.count result).1
      pollin :=
        if (readEvents fl c.mem c.data c.count result).1 < c.count then false else c.pollin
      mem := (readEvents fl c.mem c.data c.count result).2
      phase := c.phase }
  have hnb := hread.count
  have hroom := hc.room
  have htally := hc.nbEvents
  have hleft : 0 ≤ c.count - (readEvents fl c.mem c.data c.count result).1 := by
    rw [hnb]
    omega
  unfold advance
  refine ⟨?_, ?_, ?_, ?_, ?_, ?_, ?_, ?_⟩
  · rw [hres.data, hres.nbEvents]
    dsimp only
    rw [hc.data]
  · rw [hres.count, hres.nbEvents]
    dsimp only
    omega
  · rw [hres.nbEvents, arrivalsOf_concat, shortfallOf_concat, accepted_append, ← hc.hub,
      List.length_append]
    dsimp only [Answer.arrivals]
    push_cast
    omega
  · rw [hres.count]
    exact hleft
  · intro hactive
    have hne := hres.room hactive
    rw [hres.count]
    dsimp only at hne ⊢
    omega
  · rw [hres.mem, arrivalsOf_concat, hubAfter_append, ← hc.hub]
    exact hread.hub
  · intro r hr
    rw [hres.nbEvents]
    exact hres.result r hr
  · intro arrivals hmem
    rw [hres.mem]
    rcases List.mem_append.mp hmem with hold | hnew
    · exact hread.keeps _ (hc.fills arrivals hold)
    · have heq := List.mem_singleton.mp hnew
      cases heq
      exact hread.fills arrivals rfl

/-- A poll: only the phase and the flag change. -/
theorem Tallied.poll {fl : Floats} {hub : Hub} {count : Nat} {past : List Answer} {c c' : Call}
    {result : PollResult} (hc : Tallied fl hub count past c) (hphase : c.phase = .polling)
    (hres : c.count ≠ 0 → Resumes c c') : Tallied fl hub count (past ++ [.poll result]) c' := by
  have hpos := hc.active (.inr hphase)
  have hres := hres (by omega)
  refine ⟨?_, ?_, ?_, ?_, ?_, ?_, ?_, ?_⟩
  · rw [hres.data, hres.nbEvents]
    exact hc.data
  · rw [hres.count, hres.nbEvents]
    exact hc.room
  · rw [hres.nbEvents, arrivalsOf_concat, shortfallOf_concat]
    dsimp only [Answer.arrivals, Answer.shortfall]
    rw [List.append_nil, Nat.add_zero]
    exact hc.nbEvents
  · rw [hres.count]
    exact hc.nonneg
  · intro _
    rw [hres.count]
    exact hpos
  · rw [hres.mem, arrivalsOf_concat]
    dsimp only [Answer.arrivals]
    rw [List.append_nil]
    exact hc.hub
  · intro r hr
    rw [hres.nbEvents]
    exact hres.result r hr
  · intro arrivals hmem
    rw [hres.mem]
    rcases List.mem_append.mp hmem with hold | hnew
    · exact hc.fills arrivals hold
    · cases List.mem_singleton.mp hnew

theorem Tallied.deliver {fl : Floats} {hub : Hub} {count : Nat} {past : List Answer}
    {c c' : Call} {answer : Answer} (hc : Tallied fl hub count past c)
    (h : deliver fl c answer = some c') : Tallied fl hub count (past ++ [answer]) c' := by
  rcases deliver_cases h with ⟨result, rfl, hphase, hfits, rfl⟩ | ⟨result, rfl, hphase, hres⟩
  · exact hc.read hphase hfits
  · exact hc.poll hphase hres

theorem answered_tallied {fl : Floats} {hub : Hub} {data : Int → SensorsEvent}
    {leftover : Bool} {count : Nat} (hcount : 1 ≤ count) {answers : List Answer} {c : Call}
    (h : answered fl (pollEvents hub data leftover count) answers = some c) :
    Tallied fl hub count answers c :=
  foldlM_history (I := Tallied fl hub count) (fun _ _ _ _ hc hd => hc.deliver hd)
    (pollEvents_tallied fl hub data leftover hcount) h

/-! ## Runs with clean reads -/

/-- A write into the caller's buffer or into `mEvents`. -/
def Write.Within (count : Nat) : Write → Prop
  | slot offset => 0 ≤ offset ∧ offset < count
  | ring entries => entries ≤ iioMaxBuffSize

/-- The buffer holds the reports so far, and nothing else was written. -/
structure Filled (fl : Floats) (hub : Hub) (count : Nat) (answers : List Answer)
    (c : Call) : Prop where
  holds : ∀ (i : Nat) (entry : Hub × Arrival),
    (accepted fl hub (arrivalsOf answers))[i]? = some entry →
      Holds fl entry (c.mem.data i)
  within : ∀ w ∈ c.mem.writes, w.Within count

theorem shortfallOf_eq_zero {answers : List Answer} (h : ∀ a ∈ answers, a.Clean) :
    shortfallOf answers = 0 := by
  induction answers using List.reverseRecOn with
  | nil => rfl
  | append_singleton past answer ih =>
      rw [shortfallOf_concat, ih fun a ha => h a (List.mem_append_left _ ha), Nat.zero_add]
      have hclean := h answer (List.mem_append_right _ (List.mem_singleton.mpr rfl))
      rcases answer with (_ | _ | _) | _
      · exact hclean.elim
      · exact hclean.elim
      · rfl
      · rfl

theorem shortfallOf_pos {answers : List Answer} {answer : Answer} (h : answer ∈ answers)
    (hpos : 0 < answer.shortfall) : 0 < shortfallOf answers := by
  induction answers using List.reverseRecOn with
  | nil => cases h
  | append_singleton past last ih =>
      rw [shortfallOf_concat]
      rcases List.mem_append.mp h with hold | hnew
      · exact Nat.lt_of_lt_of_le (ih hold) (Nat.le_add_right _ _)
      · rw [← List.mem_singleton.mp hnew]
        omega

theorem Filled.deliver {fl : Floats} {hub : Hub} {count : Nat} {past : List Answer}
    {c c' : Call} {answer : Answer} (ht : Tallied fl hub count past c)
    (hpast : ∀ a ∈ past, a.Clean) (hclean : answer.Clean) (hc : Filled fl hub count past c)
    (h : Sensors.deliver fl c answer = some c') :
    Filled fl hub count (past ++ [answer]) c' := by
  have hnb := ht.nbEvents
  rw [shortfallOf_eq_zero hpast, Int.natCast_zero, Int.sub_zero] at hnb
  rcases deliver_cases h with ⟨result, rfl, hphase, hfits, rfl⟩ | ⟨result, rfl, hphase, hres⟩
  · have hpos := ht.active (.inl hphase)
    have hread := readEvents_spec fl c.mem c.data hpos result
    have hmem : (advance c (readEvents fl c.mem c.data c.count result).1
        (readEvents fl c.mem c.data c.count result).2).mem =
          (readEvents fl c.mem c.data c.count result).2 := by
      unfold advance
      rw [(afterRead_resumes _).mem]
    have hdata : c.data = (accepted fl hub (arrivalsOf past)).length := by
      rw [ht.data, hnb]
    refine ⟨?_, ?_⟩
    · intro i entry hentry
      rw [hmem]
      rw [arrivalsOf_concat, accepted_append, ← ht.hub] at hentry
      by_cases hi : i < (accepted fl hub (arrivalsOf past)).length
      · -- reported before this read, which writes from `data` on
        rw [List.getElem?_append_left hi] at hentry
        rw [hread.below i (by omega)]
        exact hc.holds i entry hentry
      · rw [List.getElem?_append_right (Nat.le_of_not_lt hi)] at hentry
        have hhold := hread.holds _ entry hentry
        rw [show c.data + ((i - (accepted fl hub (arrivalsOf past)).length : Nat) : Int) = i
          by omega] at hhold
        exact hhold
    · intro w hw
      rw [hmem] at hw
      rcases hread.confined hclean w hw with hold | ⟨n, rfl, hn⟩ | ⟨offset, rfl, hlo, hhi⟩
      · exact hc.within w hold
      · exact hn
      · have hroom := ht.room
        have hdata' := ht.data
        have hlen : (result.arrivals.length : Int) ≤ c.count := by
          cases result with
          | failed => exact ht.nonneg
          | incomplete bytes => exact ht.nonneg
          | events arrivals => exact of_decide_eq_true hfits
        refine ⟨by omega, by omega⟩
  · have hres := hres (by have := ht.active (.inr hphase); omega)
    refine ⟨?_, ?_⟩
    · intro i entry hentry
      rw [arrivalsOf_concat] at hentry
      dsimp only [Answer.arrivals] at hentry
      rw [List.append_nil] at hentry
      rw [hres.mem]
      exact hc.holds i entry hentry
    · rw [hres.mem]
      exact hc.within

theorem answered_filled {fl : Floats} {hub : Hub} {data : Int → SensorsEvent}
    {leftover : Bool} {count : Nat} (hcount : 1 ≤ count) {answers : List Answer} {c : Call}
    (h : answered fl (pollEvents hub data leftover count) answers = some c)
    (hclean : ∀ a ∈ answers, a.Clean) : Filled fl hub count answers c := by
  have hstart : Filled fl hub count [] (pollEvents hub data leftover count) := by
    have hres : Resumes _ (pollEvents hub data leftover count) :=
      loopTop_resumes (c := ⟨count, 0, 0, leftover, ⟨hub, data, []⟩, .reading⟩)
        (by dsimp only; omega)
    refine ⟨fun i entry hentry => (by cases hentry), ?_⟩
    rw [hres.mem]
    exact fun w hw => (by cases hw)
  exact (foldlM_history
    (I := fun past c => Tallied fl hub count past c ∧
      ((∀ a ∈ past, a.Clean) → Filled fl hub count past c))
    (fun past c a c' hc hd => ⟨hc.1.deliver hd, fun hall =>
      Filled.deliver hc.1 (fun a ha => hall a (List.mem_append_left _ ha))
        (hall a (List.mem_append_right _ (List.mem_singleton.mpr rfl)))
        (hc.2 fun a ha => hall a (List.mem_append_left _ ha)) hd⟩)
    ⟨pollEvents_tallied fl hub data leftover hcount, fun _ => hstart⟩ h).2 hclean

/-! ## The contract -/

/-- What a caller is promised at any moment of a call: every write is inside the buffer it
passed (or the HAL's own `mEvents`), and once the call is back with a number, that many
slots hold the accepted events, in the order of the ring. -/
structure MeetsContract (fl : Floats) (hub : Hub) (count : Nat) (answers : List Answer)
    (c : Call) : Prop where
  within : ∀ w ∈ c.mem.writes, w.Within count
  reports : ∀ r, c.phase = .returned r → r < 0 ∨
    ∃ k : Nat, r = k ∧ k ≤ count ∧
      (accepted fl hub (arrivalsOf answers)).length = k ∧
      ∀ (i : Nat) (entry : Hub × Arrival),
        (accepted fl hub (arrivalsOf answers))[i]? = some entry →
          Holds fl entry (c.mem.data i)

/-- A call whose reads of the ring are clean meets the contract at every moment.  A call
that is back with a number meets it only then. -/
theorem pollEvents_contract (fl : Floats) (hub : Hub) (data : Int → SensorsEvent)
    (leftover : Bool) {count : Nat} (hcount : 1 ≤ count) {answers : List Answer} {c : Call}
    (h : answered fl (pollEvents hub data leftover count) answers = some c) :
    ((∀ a ∈ answers, a.Clean) → MeetsContract fl hub count answers c) ∧
      ((∃ k : Nat, c.phase = .returned k) → MeetsContract fl hub count answers c →
        ∀ a ∈ answers, a.Clean) := by
  have ht := answered_tallied hcount h
  refine ⟨fun hclean => ?_, ?_⟩
  · have hf := answered_filled hcount h hclean
    refine ⟨hf.within, fun r hr => ?_⟩
    rcases ht.result r hr with hneg | rfl
    · exact .inl hneg
    · have hnb := ht.nbEvents
      rw [shortfallOf_eq_zero hclean, Int.natCast_zero, Int.sub_zero] at hnb
      have hroom := ht.room
      have hnonneg := ht.nonneg
      exact .inr ⟨_, hnb, by omega, rfl, hf.holds⟩
  · rintro ⟨k, hk⟩ hmeets a ha
    -- a number that is not short of the accepted events leaves no shortfall
    have hnone : shortfallOf answers = 0 := by
      have hnb := ht.nbEvents
      rcases ht.result k hk with hneg | hres
      · omega
      · rcases hmeets.reports k hk with hneg | ⟨k', hk', -, hlen, -⟩
        · omega
        · omega
    have hzero : a.shortfall = 0 := by
      rcases Nat.eq_zero_or_pos a.shortfall with hz | hpos
      · exact hz
      · have := shortfallOf_pos ha hpos
        omega
    rcases a with (_ | _ | arrivals) | _
    · cases hzero
    · cases hzero
    · exact hmeets.within _ (ht.fills arrivals ha)
    · exact trivial

/-- The hardware's single precision. -/
def singlePrecision : Floats where
  ofInt i := (Float32.ofInt i).toBits.toBitVec
  mul a b := (Float32.ofBits ⟨a⟩ * Float32.ofBits ⟨b⟩).toBits.toBitVec

/-- The hub reports that the flush of sensor 0 is done. -/
def flushDone : Arrival := ⟨⟨0, 1, fun _ => 0, 0⟩, 0⟩

/-- An event of a sensor that the HAL does not know. -/
def unknownSensor : Arrival := ⟨⟨9, 0, fun _ => 0, 0⟩, 0⟩

/-- The first read goes on the flag of an earlier call and brings two events that count; then the
wake pipe wakes the call, and only after that the ring. -/
def threeRounds : List Answer :=
  [.read (.events [flushDone, unknownSensor, flushDone]), .poll .interrupted,
    .poll (.ready 1 false true), .poll (.ready 1 true false), .read (.events [flushDone])]

/-- A call with room for three events that finds them in two reads. -/
theorem pollEvents_three_rounds :
    ∃ c, answered singlePrecision (pollEvents ⟨[], []⟩ (fun _ => default) true (3 : Nat))
        threeRounds = some c ∧
      c.phase = .returned 3 ∧ MeetsContract singlePrecision ⟨[], []⟩ 3 threeRounds c := by
  refine ⟨_, rfl, rfl, ?_⟩
  refine (pollEvents_contract singlePrecision ⟨[], []⟩ (fun _ => default) true
    (by decide) rfl).1 ?_
  exact List.forall_mem_cons.mpr ⟨(by decide : 3 ≤ iioMaxBuffSize), List.forall_mem_cons.mpr
    ⟨trivial, List.forall_mem_cons.mpr ⟨trivial, List.forall_mem_cons.mpr
      ⟨trivial, List.forall_mem_singleton.mpr (by decide : 1 ≤ iioMaxBuffSize)⟩⟩⟩⟩

/-- A read of the ring fails, `poll` finds input, and the next event goes to the slot in
front of the caller's buffer. -/
theorem pollEvents_writes_below :
    ∃ c, answered singlePrecision (pollEvents ⟨[], []⟩ (fun _ => default) true (1 : Nat))
        [.read .failed, .poll (.ready 1 true false), .read (.events [flushDone])] = some c ∧
      Write.slot (-1) ∈ c.mem.writes ∧
      ¬ MeetsContract singlePrecision ⟨[], []⟩ 1
        [.read .failed, .poll (.ready 1 true false), .read (.events [flushDone])] c := by
  have hwritten : ∃ c, answered singlePrecision
      (pollEvents ⟨[], []⟩ (fun _ => default) true (1 : Nat))
        [.read .failed, .poll (.ready 1 true false), .read (.events [flushDone])] = some c ∧
      c.mem.writes = [.ring 1, .slot (-1)] := ⟨_, rfl, rfl⟩
  obtain ⟨c, hrun, hwrites⟩ := hwritten
  have hmem : Write.slot (-1) ∈ c.mem.writes := by
    rw [hwrites]
    decide
  refine ⟨c, hrun, hmem, fun hmeets => ?_⟩
  have hlow : (0 : Int) ≤ -1 := (hmeets.within _ hmem).1
  omega

end DragonDevice.Sensors
