/-
  Dsp/ParsePorts.lean --- reading the ports of a plugin from its section of the ini file.

  The keys `input_i` and `output_i` are looked up under the name of the section, in a buffer
  that cuts off what is longer.  The dictionary is a map, and characters stand for bytes;
  what `strtof` makes of a text is arbitrary.
-/
import DragonDevice.Dsp.Ini
import Mathlib.Algebra.Ring.Int.Defs
import Mathlib.Data.List.Forall2

set_option autoImplicit false

namespace DragonDevice.Dsp

variable {F : Type}

/-! ## Keys -/

/-- `MAX_INI_KEY_LENGTH` -/
def maxIniKeyLength : Nat := 64

/-- `MAX_NR_PORT` -/
def maxNrPort : Nat := 128

/-- `MAX_PORT_NAME_LENGTH` -/
def maxPortNameLength : Nat := 20

/-- What `snprintf` leaves of a text in a buffer. -/
def snprintf (size : Nat) (text : List Char) : List Char := text.take (size - 1)

/-- A map from keys to values. -/
abbrev Dictionary : Type := List Char → Option (List Char)

/-- The whole key of an entry of a section. -/
def fullKey (secName key : List Char) : List Char := secName ++ ':' :: key

def getstring (dict : Dictionary) (secName key : List Char) : Option (List Char) :=
  dict (snprintf maxIniKeyLength (fullKey secName key))

/-- `input_i` and `output_i` -/
def portKey (direction : PortDirection) (i : Nat) : List Char :=
  snprintf maxPortNameLength
    ((match direction with
      | .input => "input_".toList
      | .output => "output_".toList) ++ Nat.toDigits 10 i)

/-! ## Values -/

/-- What a value says about a port. -/
inductive PortValue (F : Type) where
  | flow (type : PortType) (name : List Char)
  | number (init : F)

/-- What is found for an index. -/
inductive PortEntry (F : Type) where
  | missing
  | empty
  | port (direction : PortDirection) (value : PortValue F)

section Read

variable (strtof : List Char → F)

/-- The entry with a value. -/
def portEntry (direction : PortDirection) : List Char → PortEntry F
  | [] => .empty
  | c :: rest =>
      if c = '<' then .port direction (.flow .control (c :: rest))
      else if c = '{' then .port direction (.flow .audio (c :: rest))
      else .port direction (.number (strtof (c :: rest)))

/-- The entry of an index, where `get` looks keys up: an input takes precedence. -/
def readPort (get : List Char → Option (List Char)) (i : Nat) : PortEntry F :=
  match get (portKey .input i) with
  | some str => portEntry strtof .input str
  | none =>
      match get (portKey .output i) with
      | some str => portEntry strtof .output str
      | none => .missing

end Read

/-- `lookup_or_add_flow` -/
def lookupOrAddFlow (flows : List (List Char)) (name : List Char) : Nat × List (List Char) :=
  match flows.findIdx? (· == name) with
  | some i => (i, flows)
  | none => (flows.length, flows ++ [name])

/-- The port with a value, and the names of the flows. -/
def parsePort [Zero F] (direction : PortDirection) (flows : List (List Char)) :
    PortValue F → Port F × List (List Char)
  | .flow type name =>
      (⟨direction, type, some (lookupOrAddFlow flows name).1, 0⟩, (lookupOrAddFlow flows name).2)
  | .number init => (⟨direction, .control, none, init⟩, flows)

/-- What `parse_ports` leaves, whether it succeeds or not. -/
structure ParsedPorts (F : Type) where
  succeeds : Bool
  ports : List (Port F)
  flows : List (List Char)

/-- The loop of `parse_ports`, for so many more indices. -/
def parsePortsFrom [Zero F] (read : Nat → PortEntry F) :
    Nat → Nat → List (List Char) → ParsedPorts F
  | 0, _, flows => ⟨true, [], flows⟩
  | left + 1, i, flows =>
      match read i with
      | .missing => ⟨true, [], flows⟩
      | .empty => ⟨false, [], flows⟩
      | .port direction value =>
          let parsed := parsePort direction flows value
          let rest := parsePortsFrom read left (i + 1) parsed.2
          { rest with ports := parsed.1 :: rest.ports }

/-- `parse_ports`, with the flows that other sections have added. -/
def parsePorts [Zero F] (strtof : List Char → F) (dict : Dictionary) (secName : List Char)
    (flows : List (List Char)) : ParsedPorts F :=
  parsePortsFrom (readPort strtof (getstring dict secName)) maxNrPort 0 flows

/-! ## What the dictionary says -/

/-- The ports from an index on up to the first one that is missing or empty, and whether it is
not empty. -/
def portPrefix (read : Nat → PortEntry F) :
    Nat → Nat → List (PortDirection × PortValue F) × Bool
  | 0, _ => ([], true)
  | left + 1, i =>
      match read i with
      | .missing => ([], true)
      | .empty => ([], false)
      | .port direction value =>
          ((direction, value) :: (portPrefix read left (i + 1)).1, (portPrefix read left (i + 1)).2)

/-- A port has the direction and the value. -/
def PortOf [Zero F] (flows : List (List Char)) (v : PortDirection × PortValue F) (port : Port F) :
    Prop :=
  port.direction = v.1 ∧
    match v.2 with
    | .flow type name => port.type = type ∧ port.initValue = 0 ∧
        ∃ id, port.flowId = some id ∧ flows[id]? = some name
    | .number init => port.type = .control ∧ port.initValue = init ∧ port.flowId = none

/-- The entry that the dictionary has for an index under the whole keys. -/
def wholeEntry (strtof : List Char → F) (dict : Dictionary) (secName : List Char) :
    Nat → PortEntry F :=
  readPort strtof fun key => dict (fullKey secName key)

/-- The ports are those that the dictionary has under the whole keys, up to the first index
that is missing; an empty value is an error. -/
def PortsFaithful [Zero F] (strtof : List Char → F) (dict : Dictionary) (secName : List Char) :
    Prop :=
  ∀ flows,
    List.Forall₂ (PortOf (parsePorts strtof dict secName flows).flows)
      (portPrefix (wholeEntry strtof dict secName) maxNrPort 0).1
      (parsePorts strtof dict secName flows).ports ∧
    (parsePorts strtof dict secName flows).succeeds =
      (portPrefix (wholeEntry strtof dict secName) maxNrPort 0).2

def PortEntry.IsPort : PortEntry F → Prop
  | .port _ _ => True
  | _ => False

/-- Up to the first index that has no port under the whole keys, the keys as they are cut off
say the same as the whole ones. -/
def CutKeysAgree (strtof : List Char → F) (dict : Dictionary) (secName : List Char) : Prop :=
  ∀ i < maxNrPort, (∀ j < i, (wholeEntry strtof dict secName j).IsPort) →
    readPort strtof (getstring dict secName) i = wholeEntry strtof dict secName i

/-! ## The loop -/

section Loop

variable [Zero F]

theorem lookupOrAddFlow_spec (flows : List (List Char)) (name : List Char) :
    (lookupOrAddFlow flows name).2[(lookupOrAddFlow flows name).1]? = some name ∧
      flows <+: (lookupOrAddFlow flows name).2 := by
  unfold lookupOrAddFlow
  split
  · rename_i i hfind
    obtain ⟨hlt, hname, _⟩ := List.findIdx?_eq_some_iff_getElem.mp hfind
    rw [List.getElem?_eq_getElem hlt, beq_iff_eq.mp hname]
    exact ⟨rfl, List.prefix_rfl⟩
  · exact ⟨by simp, List.prefix_append _ _⟩

theorem parsePort_spec (direction : PortDirection) (flows : List (List Char))
    (value : PortValue F) :
    PortOf (parsePort direction flows value).2 (direction, value)
        (parsePort direction flows value).1 ∧
      flows <+: (parsePort direction flows value).2 := by
  cases value with
  | flow type name =>
      obtain ⟨hname, hgrown⟩ := lookupOrAddFlow_spec flows name
      exact ⟨⟨rfl, rfl, rfl, _, rfl, hname⟩, hgrown⟩
  | number init => exact ⟨⟨rfl, rfl, rfl, rfl⟩, List.prefix_rfl⟩

/-- Flows are only added. -/
theorem PortOf.mono {flows flows' : List (List Char)} {v : PortDirection × PortValue F}
    {port : Port F} (h : PortOf flows v port) (hgrown : flows <+: flows') :
    PortOf flows' v port := by
  obtain ⟨hdirection, hvalue⟩ := h
  refine ⟨hdirection, ?_⟩
  cases hv : v.2 with
  | flow type name =>
      rw [hv] at hvalue
      obtain ⟨htype, hinit, id, hid, hname⟩ := hvalue
      obtain ⟨added, rfl⟩ := hgrown
      refine ⟨htype, hinit, id, hid, ?_⟩
      rw [List.getElem?_append_left (List.getElem?_eq_some_iff.mp hname).1]
      exact hname
  | number init =>
      rw [hv] at hvalue
      exact hvalue

/-- A port has one direction and value. -/
theorem PortOf.unique {flows : List (List Char)} {v v' : PortDirection × PortValue F}
    {port : Port F} (h : PortOf flows v port) (h' : PortOf flows v' port) : v = v' := by
  obtain ⟨direction, value⟩ := v
  obtain ⟨direction', value'⟩ := v'
  obtain ⟨hdirection, hvalue⟩ := h
  obtain ⟨hdirection', hvalue'⟩ := h'
  have hsame : direction = direction' := hdirection.symm.trans hdirection'
  subst hsame
  cases value with
  | flow type name =>
      obtain ⟨htype, -, id, hid, hname⟩ := hvalue
      cases value' with
      | flow type' name' =>
          obtain ⟨htype', -, id', hid', hname'⟩ := hvalue'
          rw [hid] at hid'
          cases hid'
          rw [hname] at hname'
          cases hname'
          rw [← htype, ← htype']
      | number init' =>
          rw [hid] at hvalue'
          exact absurd hvalue'.2.2 (by simp)
  | number init =>
      obtain ⟨-, hinit, hnone⟩ := hvalue
      cases value' with
      | flow type' name' =>
          obtain ⟨-, -, id', hid', -⟩ := hvalue'
          rw [hnone] at hid'
          cases hid'
      | number init' =>
          rw [← hinit, ← hvalue'.2.1]

/-- The loop gives the ports that are there under the keys it looks up. -/
theorem parsePortsFrom_spec (read : Nat → PortEntry F) (left : Nat) :
    ∀ (i : Nat) (flows : List (List Char)),
      List.Forall₂ (PortOf (parsePortsFrom read left i flows).flows) (portPrefix read left i).1
        (parsePortsFrom read left i flows).ports ∧
      (parsePortsFrom read left i flows).succeeds = (portPrefix read left i).2 ∧
      flows <+: (parsePortsFrom read left i flows).flows := by
  induction left with
  | zero =>
      intro i flows
      exact ⟨List.Forall₂.nil, rfl, List.prefix_rfl⟩
  | succ left ih =>
      intro i flows
      rw [parsePortsFrom, portPrefix]
      cases hread : read i with
      | missing => exact ⟨List.Forall₂.nil, rfl, List.prefix_rfl⟩
      | empty => exact ⟨List.Forall₂.nil, rfl, List.prefix_rfl⟩
      | port direction value =>
          obtain ⟨hport, hgrown⟩ := parsePort_spec direction flows value
          obtain ⟨hports, hsucceeds, hgrown'⟩ := ih (i + 1) (parsePort direction flows value).2
          exact ⟨List.Forall₂.cons (hport.mono hgrown') hports, hsucceeds,
            hgrown.trans hgrown'⟩

theorem forall₂_unique {flows : List (List Char)} {vs : List (PortDirection × PortValue F)} :
    ∀ {vs' : List (PortDirection × PortValue F)} {ports : List (Port F)},
      List.Forall₂ (PortOf flows) vs ports → List.Forall₂ (PortOf flows) vs' ports → vs = vs' := by
  induction vs with
  | nil =>
      intro vs' ports h h'
      cases h
      cases h'
      rfl
  | cons v vs ih =>
      intro vs' ports h h'
      cases h with
      | cons hv hvs =>
          cases h' with
          | cons hv' hvs' => rw [hv.unique hv', ih hvs hvs']

/-- The ports are faithful when the cut off keys have the ports of the whole keys. -/
theorem portsFaithful_iff_portPrefix_eq (strtof : List Char → F) (dict : Dictionary)
    (secName : List Char) :
    PortsFaithful strtof dict secName ↔
      portPrefix (readPort strtof (getstring dict secName)) maxNrPort 0 =
        portPrefix (wholeEntry strtof dict secName) maxNrPort 0 := by
  have hspec := parsePortsFrom_spec (readPort strtof (getstring dict secName)) maxNrPort 0
  constructor
  · intro h
    obtain ⟨hports, hsucceeds, _⟩ := hspec []
    obtain ⟨hports', hsucceeds'⟩ := h []
    exact Prod.ext (forall₂_unique hports hports') (hsucceeds.symm.trans hsucceeds')
  · intro h flows
    obtain ⟨hports, hsucceeds, _⟩ := hspec flows
    rw [← h]
    exact ⟨hports, hsucceeds⟩

end Loop

/-- Two readings have the same ports from an index on when they agree on it and, if it has a port,
from the next one on. -/
theorem portPrefix_succ_eq_iff (read read' : Nat → PortEntry F) (left i : Nat) :
    portPrefix read (left + 1) i = portPrefix read' (left + 1) i ↔ read i = read' i ∧
      ((read' i).IsPort → portPrefix read left (i + 1) = portPrefix read' left (i + 1)) := by
  rw [portPrefix, portPrefix]
  cases read i with
  | missing => cases read' i <;> simp [PortEntry.IsPort]
  | empty => cases read' i <;> simp [PortEntry.IsPort]
  | port direction value =>
      cases read' i with
      | missing => simp
      | empty => simp
      | port direction' value' => simp [PortEntry.IsPort, Prod.ext_iff, and_assoc]

/-- Two readings have the same ports when they agree up to the first index without a port. -/
theorem portPrefix_eq_iff (read read' : Nat → PortEntry F) (left : Nat) :
    ∀ i, portPrefix read left i = portPrefix read' left i ↔
      ∀ k < left, (∀ j < k, (read' (i + j)).IsPort) → read (i + k) = read' (i + k) := by
  induction left with
  | zero =>
      intro i
      exact ⟨fun _ k hk => absurd hk (Nat.not_lt_zero k), fun _ => rfl⟩
  | succ left ih =>
      intro i
      have hshift : ∀ k, i + 1 + k = i + (k + 1) := fun k => by omega
      rw [portPrefix_succ_eq_iff, ih (i + 1)]
      simp only [hshift]
      constructor
      · rintro ⟨hfirst, hrest⟩ k hk hports
        cases k with
        | zero => exact hfirst
        | succ k =>
            exact hrest (hports 0 (Nat.succ_pos k)) k (Nat.lt_of_succ_lt_succ hk) fun j hj =>
              hports (j + 1) (Nat.succ_lt_succ hj)
      · intro h
        refine ⟨h 0 (Nat.succ_pos left) fun j hj => absurd hj (Nat.not_lt_zero j), ?_⟩
        intro hport k hk hports
        refine h (k + 1) (Nat.succ_lt_succ hk) fun j hj => ?_
        cases j with
        | zero => exact hport
        | succ j => exact hports j (Nat.lt_of_succ_lt_succ hj)

/-! ## Sections with long names -/

/-- The longest key of a port has as many characters. -/
theorem length_portKey_le (direction : PortDirection) {i : Nat} (hi : i < maxNrPort) :
    (portKey direction i).length ≤ 10 := by
  have hdigits : (Nat.toDigits 10 i).length ≤ 3 := by
    rw [Nat.length_toDigits_le_iff (by decide) (by decide)]
    simp only [maxNrPort] at hi
    omega
  unfold portKey snprintf
  refine Nat.le_trans (List.length_take_le' _ _) ?_
  rw [List.length_append]
  cases direction with
  | input =>
      have hname : "input_".toList.length = 6 := by decide
      dsimp only
      omega
  | output =>
      have hname : "output_".toList.length = 7 := by decide
      dsimp only
      omega

/-- In a short section no key is cut off. -/
theorem getstring_of_short {secName key : List Char} (dict : Dictionary)
    (h : secName.length + key.length ≤ 62) :
    getstring dict secName key = dict (fullKey secName key) := by
  unfold getstring snprintf
  rw [List.take_of_length_le]
  simp only [fullKey, List.length_append, List.length_cons, maxIniKeyLength]
  omega

/-- Inputs up to an index, and an output there. -/
def lateOutput (secName : List Char) : Dictionary := fun key =>
  if key = fullKey secName (portKey .output 100) ∨
      key ∈ (List.range 100).map fun i => fullKey secName (portKey .input i) then
    some ['1']
  else none

/-- In a long section the key of the output is cut off, and is not another key. -/
theorem lateOutput_cut {secName : List Char} (h : 52 < secName.length) :
    lateOutput secName (snprintf maxIniKeyLength (fullKey secName (portKey .output 100))) =
      none := by
  have hkey : portKey .output 100 = "output_100".toList := by decide
  have hlong : 63 < (fullKey secName (portKey .output 100)).length := by
    have hlen : "output_100".toList.length = 10 := by decide
    rw [hkey, fullKey, List.length_append, List.length_cons, hlen]
    omega
  rw [lateOutput, if_neg]
  rintro (heq | hmem)
  · have hlen := congrArg List.length heq
    rw [snprintf, List.length_take] at hlen
    simp only [maxIniKeyLength] at hlen
    omega
  · obtain ⟨i, _, heq⟩ := List.mem_map.mp hmem
    obtain ⟨rest, hinput⟩ : ∃ rest, portKey .input i = 'i' :: rest := ⟨_, rfl⟩
    have hlen := congrArg List.length heq
    rw [snprintf, List.length_take_of_le (by simp only [maxIniKeyLength]; omega), hinput, fullKey,
      List.length_append, List.length_cons, List.length_cons] at hlen
    simp only [maxIniKeyLength] at hlen
    rw [hkey, hinput, snprintf, fullKey, fullKey, List.take_append,
      List.take_of_length_le (by simp only [maxIniKeyLength]; omega)] at heq
    obtain ⟨n, hn⟩ : ∃ n, maxIniKeyLength - 1 - secName.length = n + 2 :=
      ⟨63 - secName.length - 2, by simp only [maxIniKeyLength]; omega⟩
    rw [hn] at heq
    have htail := List.append_cancel_left heq
    have hoi := congrArg (fun l => l[1]?) htail
    simp at hoi

/-- Under the whole keys there are inputs up to the index, and the output. -/
theorem wholeEntry_lateOutput (strtof : List Char → F) (secName : List Char) :
    (∀ i < 100, (wholeEntry strtof (lateOutput secName) secName i).IsPort) ∧
      wholeEntry strtof (lateOutput secName) secName 100 =
        .port .output (.number (strtof ['1'])) := by
  have hinj : ∀ {key key' : List Char}, fullKey secName key = fullKey secName key' → key = key' :=
    fun h => List.cons_injective (List.append_cancel_left h)
  constructor
  · intro i hi
    have hfound : lateOutput secName (fullKey secName (portKey .input i)) = some ['1'] := by
      rw [lateOutput, if_pos]
      exact Or.inr (List.mem_map.mpr ⟨i, List.mem_range.mpr hi, rfl⟩)
    rw [wholeEntry, readPort, hfound]
    trivial
  · have hinput : lateOutput secName (fullKey secName (portKey .input 100)) = none := by
      rw [lateOutput, if_neg]
      rintro (heq | hmem)
      · exact absurd (hinj heq) (by decide)
      · obtain ⟨i, hi, heq⟩ := List.mem_map.mp hmem
        have hother : ∀ i < 100, portKey .input i ≠ portKey .input 100 := by decide
        exact hother i (List.mem_range.mp hi) (hinj heq)
    have houtput : lateOutput secName (fullKey secName (portKey .output 100)) = some ['1'] := by
      rw [lateOutput, if_pos (Or.inl rfl)]
    rw [wholeEntry, readPort, hinput, houtput]
    rfl

/-- The ports of a section are those of the dictionary exactly when the keys as they are cut
off say what the whole keys say; for every dictionary, exactly when the name of the section
has at most 52 characters. -/
theorem portsFaithful_iff [Zero F] (strtof : List Char → F) (secName : List Char) :
    (∀ dict, PortsFaithful strtof dict secName ↔ CutKeysAgree strtof dict secName) ∧
      ((∀ dict, PortsFaithful strtof dict secName) ↔ secName.length ≤ 52) := by
  have hagree : ∀ dict, PortsFaithful strtof dict secName ↔ CutKeysAgree strtof dict secName := by
    intro dict
    rw [portsFaithful_iff_portPrefix_eq, portPrefix_eq_iff]
    simp only [Nat.zero_add]
    rfl
  refine ⟨hagree, ?_⟩
  constructor
  · intro h
    by_contra hlong
    obtain ⟨hinputs, houtput⟩ := wholeEntry_lateOutput strtof secName
    have hcut := (hagree (lateOutput secName)).mp (h _) 100 (by decide) hinputs
    rw [houtput, readPort, getstring, getstring, lateOutput_cut (Nat.lt_of_not_le hlong)] at hcut
    split at hcut
    · rename_i str hstr
      unfold portEntry at hcut
      split at hcut
      · cases hcut
      · split at hcut
        · cases hcut
        · split at hcut <;> cases hcut
    · cases hcut
  · intro hshort dict
    rw [hagree]
    intro i hi _
    have hget : ∀ direction, getstring dict secName (portKey direction i) =
        dict (fullKey secName (portKey direction i)) := by
      intro direction
      have hlen := length_portKey_le direction hi
      exact getstring_of_short dict (by omega)
    rw [readPort, hget, hget]
    rfl

/-- A section with a name of 56 characters and one input. -/
def longSection : List Char := List.replicate 56 'x'

def longDictionary : Dictionary := fun key =>
  if key = fullKey longSection (portKey .input 0) then some ['1'] else none

/-- The input is not found. -/
theorem not_portsFaithful_long :
    ¬ PortsFaithful (fun _ => (1 : Int)) longDictionary longSection := by
  intro h
  have hnone :
      (parsePorts (fun _ => (1 : Int)) longDictionary longSection []).ports.length = 0 := by
    decide
  have hone : (portPrefix (wholeEntry (fun _ => (1 : Int)) longDictionary longSection)
      maxNrPort 0).1.length = 1 := by
    decide
  have hlength := (h []).1.length_eq
  rw [hnone, hone] at hlength
  cases hlength

end DragonDevice.Dsp
