/-
  Dsp/Modules.lean --- the builtin modules, and a run of a pipeline.

  A module works on the buffers that its ports are connected to, and reads and writes them
  in the order of its code, whether they are different or not.  Samples are of any type, and
  what the filters of `eq`, `eq2` and `drc` compute from a block is arbitrary.  Buffers go by
  names of any type: by the index that `allocate_buffers` chose, or by the output port that
  writes them, so that every connection has its own.
-/
import DragonDevice.Dsp.Buffers
import Mathlib.Data.List.FinRange

set_option autoImplicit false

namespace DragonDevice.Dsp

open DragonDevice.Lib

variable {F E : Type}

/-! ## Loading -/

inductive Module where
  | empty
  | mixStereo
  | invertLr
  | eq
  | eq2
  | drc
  deriving DecidableEq, Repr

/-- `cras_dsp_module_load_builtin` -/
def loadBuiltin (plugin : Plugin F E) : Option Module :=
  if plugin.library != "builtin" then none
  else if plugin.label == "mix_stereo" then some .mixStereo
  else if plugin.label == "invert_lr" then some .invertLr
  else if plugin.label == "eq" then some .eq
  else if plugin.label == "eq2" then some .eq2
  else if plugin.label == "drc" then some .drc
  else some .empty

/-- All modules have `empty_get_properties`. -/
def Module.getProperties (_ : Module) : Nat := 0

/-- The module of an instance of a plugin. -/
def Ini.module? (ini : Ini F E) (p : Nat) : Option Module := (ini.plugins[p]?).bind loadBuiltin

def loadModule (ini : Ini F E) (inst : Instance F) : Option (Instance F) :=
  (ini.module? inst.plugin).map fun m => { inst with properties := m.getProperties }

/-- `cras_dsp_pipeline_load`: a failure is -1, and a fault an access outside of the flags, for
which there is no check. -/
def pipelineLoad (ini : Ini F E) (pipeline : Pipeline F) : Outcome (Allocation F) :=
  match pipeline.instances.mapM (loadModule ini) with
  | none => .failed
  | some loaded =>
      match allocateBuffers loaded with
      | none => .fault
      | some alloc => .done alloc

/-! ## Running -/

/-- A block of `sample_count` samples. -/
abbrev Block (S : Type) (n : Nat) : Type := Fin n → S

/-- What the filters of each plugin compute. -/
structure Filters (S : Type) (n : Nat) where
  eqProcess : Nat → Block S n → Block S n
  eq2Process : Nat → Block S n × Block S n → Block S n × Block S n
  drcProcess : Nat → Block S n × Block S n → Block S n × Block S n

section Run

variable {B S : Type} [DecidableEq B] {n : Nat}

/-- A loop over the samples, where the body works on the samples of one index. -/
def sampleLoop (body : (B → S) → B → S) (buffers : B → Block S n) : B → Block S n :=
  (List.finRange n).foldl
    (fun buffers i b => Function.update (buffers b) i (body (fun b => buffers b i) b)) buffers

/-- The body of the loop of `invert_lr_run`. -/
def invertLrBody [Neg S] (p₀ p₁ p₂ p₃ : B) (samples : B → S) : B → S :=
  let samples := Function.update samples p₂ (-samples p₀)
  Function.update samples p₃ (samples p₁)

/-- The body of the loop of `mix_stereo_run`. -/
def mixStereoBody [Add S] (p₀ p₁ p₂ p₃ : B) (samples : B → S) : B → S :=
  let tmp := samples p₀ + samples p₁
  let samples := Function.update samples p₂ tmp
  Function.update samples p₃ tmp

def eqRun (process : Block S n → Block S n) (p₀ p₁ : B) (buffers : B → Block S n) :
    B → Block S n :=
  let buffers := if p₀ ≠ p₁ then Function.update buffers p₁ (buffers p₀) else buffers
  Function.update buffers p₁ (process (buffers p₁))

/-- `eq2_run` and `drc_run`: two copies, unless they are in place, and the filter. -/
def stereoRun (process : Block S n × Block S n → Block S n × Block S n) (p₀ p₁ p₂ p₃ : B)
    (buffers : B → Block S n) : B → Block S n :=
  let buffers := if p₀ ≠ p₂ then Function.update buffers p₂ (buffers p₀) else buffers
  let buffers := if p₁ ≠ p₃ then Function.update buffers p₃ (buffers p₁) else buffers
  let out := process (buffers p₂, buffers p₃)
  Function.update (Function.update buffers p₂ out.1) p₃ out.2

/-- Run with the ports of a module with two channels; `none` if one is not connected. -/
def withStereoPorts (port : Nat → Option B) (run : B → B → B → B → B → Block S n) :
    Option (B → Block S n) :=
  (port 0).bind fun p₀ => (port 1).bind fun p₁ => (port 2).bind fun p₂ => (port 3).bind fun p₃ =>
    some (run p₀ p₁ p₂ p₃)

/-- `module->run` -/
def runModule [Neg S] [Add S] (filters : Filters S n) (plugin : Nat) (module : Module)
    (port : Nat → Option B) (buffers : B → Block S n) : Option (B → Block S n) :=
  match module with
  | .empty => some buffers
  | .mixStereo => withStereoPorts port fun p₀ p₁ p₂ p₃ =>
      sampleLoop (mixStereoBody p₀ p₁ p₂ p₃) buffers
  | .invertLr => withStereoPorts port fun p₀ p₁ p₂ p₃ =>
      sampleLoop (invertLrBody p₀ p₁ p₂ p₃) buffers
  | .eq => (port 0).bind fun p₀ => (port 1).bind fun p₁ =>
      some (eqRun (filters.eqProcess plugin) p₀ p₁ buffers)
  | .eq2 => withStereoPorts port fun p₀ p₁ p₂ p₃ =>
      stereoRun (filters.eq2Process plugin) p₀ p₁ p₂ p₃ buffers
  | .drc => withStereoPorts port fun p₀ p₁ p₂ p₃ =>
      stereoRun (filters.drcProcess plugin) p₀ p₁ p₂ p₃ buffers

/-- `cras_dsp_pipeline_run`, with the buffers that the ports are connected to. -/
def runInstances [Neg S] [Add S] (filters : Filters S n) (ini : Ini F E)
    (names : Instance F → Nat → Option B) :
    List (Instance F) → (B → Block S n) → Option (B → Block S n)
  | [], buffers => some buffers
  | inst :: rest, buffers =>
      (ini.module? inst.plugin).bind fun module =>
        (runModule filters inst.plugin module (names inst) buffers).bind
          (runInstances filters ini names rest)

end Run

/-- The buffers that were assigned. -/
def sharedNames (inst : Instance F) (k : Nat) : Option Nat :=
  ((inst.inputAudioPorts ++ inst.outputAudioPorts).find? fun port => port.originalIndex == k).map
    (·.bufIndex)

/-- A buffer for each connection, named by its output. -/
def ownNames (inst : Instance F) (k : Nat) : Option PortRef :=
  match inst.inputAudioPorts.find? fun port => port.originalIndex == k with
  | some port => port.peer
  | none =>
      (inst.outputAudioPorts.find? fun port => port.originalIndex == k).map fun port =>
        ⟨inst.plugin, port.originalIndex⟩

/-- A run on the assigned buffers gives the sink what a run gives it in which every
connection has a buffer of its own, whatever is in the source's buffers. -/
def SharesTransparently (ini : Ini F E) (pipeline : Pipeline F) (alloc : Allocation F) : Prop :=
  ∀ (S : Type) [Neg S] [Add S] (n : Nat) (filters : Filters S n) (shared : Nat → Block S n)
    (own : PortRef → Block S n),
    (∀ inst ∈ alloc.instances, inst.plugin = pipeline.source →
      ∀ v ∈ inst.values, shared v.2 = own v.1) →
    ∃ shared' own', runInstances filters ini sharedNames alloc.instances shared = some shared' ∧
      runInstances filters ini ownNames alloc.instances own = some own' ∧
      ∀ inst ∈ alloc.instances, inst.plugin = pipeline.sink → ∀ port ∈ inst.inputAudioPorts,
        ∃ ref, port.peer = some ref ∧ shared' port.bufIndex = own' ref

/-! ## What a module computes -/

section Effect

variable {B S : Type} {n : Nat}

theorem foldl_samples (body : (B → S) → B → S) :
    ∀ (l : List (Fin n)) (buffers : B → Block S n), l.Nodup → ∀ b i,
      l.foldl (fun buffers i b => Function.update (buffers b) i (body (fun b => buffers b i) b))
        buffers b i = if i ∈ l then body (fun b => buffers b i) b else buffers b i := by
  intro l
  induction l with
  | nil =>
      intro buffers _ b i
      simp
  | cons j l ih =>
      intro buffers hnodup b i
      obtain ⟨hj, hl⟩ := List.nodup_cons.mp hnodup
      rw [List.foldl_cons, ih _ hl b i]
      by_cases hij : i = j
      · subst hij
        simp [hj]
      · simp [hij]

/-- The loop does its body for each index. -/
theorem sampleLoop_apply (body : (B → S) → B → S) (buffers : B → Block S n) (b : B) (i : Fin n) :
    sampleLoop body buffers b i = body (fun b => buffers b i) b := by
  unfold sampleLoop
  rw [foldl_samples body _ buffers (List.nodup_finRange n), if_pos (List.mem_finRange i)]

variable [DecidableEq B]

/-- The buffers after a module with two channels has run. -/
structure StereoEffect (p₀ p₁ p₂ p₃ : B) (effect : Block S n → Block S n → Block S n × Block S n)
    (buffers buffers' : B → Block S n) : Prop where
  first : buffers' p₂ = (effect (buffers p₀) (buffers p₁)).1
  second : buffers' p₃ = (effect (buffers p₀) (buffers p₁)).2
  other : ∀ b, b ≠ p₂ → b ≠ p₃ → buffers' b = buffers b

def mixStereoEffect [Add S] (left right : Block S n) : Block S n × Block S n :=
  (fun i => left i + right i, fun i => left i + right i)

def invertLrEffect [Neg S] (left right : Block S n) : Block S n × Block S n :=
  (fun i => -left i, right)

/-- `mix_stereo` reads both samples first. -/
theorem mixStereo_effect [Add S] {p₀ p₁ p₂ p₃ : B} (buffers : B → Block S n) :
    StereoEffect p₀ p₁ p₂ p₃ mixStereoEffect buffers
      (sampleLoop (mixStereoBody p₀ p₁ p₂ p₃) buffers) := by
  refine ⟨?_, ?_, fun b h₂ h₃ => ?_⟩
  · funext i
    rw [sampleLoop_apply, mixStereoBody, mixStereoEffect]
    by_cases h : p₂ = p₃
    · rw [h, Function.update_self]
    · rw [Function.update_of_ne h, Function.update_self]
  · funext i
    rw [sampleLoop_apply, mixStereoBody, mixStereoEffect, Function.update_self]
  · funext i
    rw [sampleLoop_apply, mixStereoBody, Function.update_of_ne h₃, Function.update_of_ne h₂]

/-- `invert_lr` writes its first output before it reads its second input. -/
theorem invertLr_effect [Neg S] {p₀ p₁ p₂ p₃ : B} (h₂₃ : p₂ ≠ p₃) (h₁₂ : p₁ ≠ p₂)
    (buffers : B → Block S n) :
    StereoEffect p₀ p₁ p₂ p₃ invertLrEffect buffers
      (sampleLoop (invertLrBody p₀ p₁ p₂ p₃) buffers) := by
  refine ⟨?_, ?_, fun b h₂ h₃ => ?_⟩
  · funext i
    rw [sampleLoop_apply, invertLrBody, invertLrEffect, Function.update_of_ne h₂₃,
      Function.update_self]
  · funext i
    rw [sampleLoop_apply, invertLrBody, invertLrEffect, Function.update_self,
      Function.update_of_ne h₁₂]
  · funext i
    rw [sampleLoop_apply, invertLrBody, Function.update_of_ne h₃, Function.update_of_ne h₂]

theorem ite_update_self {α : Type} (p q : B) (buffers : B → α) :
    (if p ≠ q then Function.update buffers q (buffers p) else buffers) =
      Function.update buffers q (buffers p) := by
  split
  · rfl
  · rename_i h
    rw [not_not.mp h, Function.update_eq_self]

/-- So do the copies of `eq2` and `drc`. -/
theorem stereoRun_effect {process : Block S n × Block S n → Block S n × Block S n}
    {p₀ p₁ p₂ p₃ : B} (h₂₃ : p₂ ≠ p₃) (h₁₂ : p₁ ≠ p₂) (buffers : B → Block S n) :
    StereoEffect p₀ p₁ p₂ p₃ (fun left right => process (left, right)) buffers
      (stereoRun process p₀ p₁ p₂ p₃ buffers) := by
  unfold stereoRun
  simp only [ite_update_self]
  refine ⟨?_, ?_, fun b h₂ h₃ => ?_⟩
  · simp [h₂₃, h₁₂]
  · simp [h₂₃, h₁₂]
  · simp [h₂, h₃]

theorem eqRun_effect (process : Block S n → Block S n) (p₀ p₁ : B) (buffers : B → Block S n) :
    eqRun process p₀ p₁ buffers p₁ = process (buffers p₀) ∧
      ∀ b, b ≠ p₁ → eqRun process p₀ p₁ buffers b = buffers b := by
  unfold eqRun
  simp only [ite_update_self]
  constructor
  · simp
  · intro b hb
    simp [hb]

end Effect

end DragonDevice.Dsp
