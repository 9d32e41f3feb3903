/-
  Dsp/Contexts.lean --- the dsp contexts of the audio device, from `cras_dsp.c`.

  A context keeps what its pipeline is made of, so that the pipeline can be made anew when the
  ini is read again.  Pipelines and inis are allocated, and held by pointers: a pipeline points
  to the ini it was made from.  A pipeline that `topological_sort` fails for is not freed.
  Beside this stands what the calls mean for the values behind the pointers.
-/
import DragonDevice.Dsp.IniCreate
import DragonDevice.Dsp.Instantiate
import DragonDevice.Lib.Heap

set_option autoImplicit false

namespace DragonDevice.Dsp

open DragonDevice.Lib

variable {F : Type}

/-! ## Preparing a pipeline -/

/-- A pipeline that is ready to run. -/
structure LoadedPipeline (F : Type) where
  source : Nat
  sink : Nat
  inputChannels : Nat
  outputChannels : Nat
  peakBuf : Nat
  modules : List (Module × ModuleData)
  instances : List (Instance F × Int)
  sampleRate : Int

/-- How `prepare_pipeline` ends.  It returns `NULL` unless the pipeline is ready, and memory
may be left over. -/
inductive Prepared (F : Type) where
  | ready (pipeline : LoadedPipeline F)
  | freed
  | leaked

/-- `cras_dsp_pipeline_create` has allocated a pipeline, and `topological_sort` fails. -/
def failsInSort (ini : Ini F Expression) (eval : Expression → Option Bool) (purpose : String)
    (fuel : Nat) : Bool :=
  match findEnabledBuiltinPlugin ini eval "source" purpose,
      findEnabledBuiltinPlugin ini eval "sink" purpose with
  | some _, some sink =>
      match topologicalSort ini eval fuel sink ([], []) with
      | .failed => true
      | _ => false
  | _, _ => false

/-- `module->get_delay`; `preDelay` is the delay of a compressor for a sample rate. -/
def moduleDelay (preDelay : Int → Int) (ini : Ini F Expression) (sampleRate : Int) (p : Nat) :
    Int :=
  match ini.module? p with
  | some .drc => preDelay sampleRate
  | _ => 0

/-- `cras_dsp_pipeline_load` and what follows it. -/
def loadAndInstantiate (preDelay : Int → Int) (ini : Ini F Expression) (sampleRate : Int)
    (pipeline : Pipeline F) : Outcome (Prepared F) :=
  match pipeline.instances.mapM (loadModule ini) with
  | none => .done .freed
  | some instances =>
      match allocateBuffers instances with
      | none => .fault
      | some alloc =>
          match pipelineInstantiate (connectModule ini) (moduleDelay preDelay ini sampleRate)
              (alloc.instances.map fun inst => (inst, 0)) with
          | none => .fault
          | some (modules, instances) => .done (.ready
              { source := pipeline.source
                sink := pipeline.sink
                inputChannels := pipeline.inputChannels
                outputChannels := pipeline.outputChannels
                peakBuf := alloc.peakBuf
                modules := modules
                instances := instances
                sampleRate := sampleRate })

/-- `prepare_pipeline` for an ini that is there. -/
def preparePipeline (preDelay : Int → Int) (fuel : Nat) (ini : Ini F Expression) (env : Env)
    (sampleRate : Int) (purpose : String) : Outcome (Prepared F) :=
  match pipelineCreate ini (Expression.evalBoolean env) purpose fuel with
  | .done pipeline => loadAndInstantiate preDelay ini sampleRate pipeline
  | .failed =>
      .done (if failsInSort ini (Expression.evalBoolean env) purpose fuel then .leaked else .freed)
  | .fault => .fault
  | .running => .running

/-! ## Contexts -/

/-- `struct cras_dsp_context`, with what it holds its pipeline by. -/
structure Context (π : Type) where
  id : Nat
  pipeline : Option π
  env : Env
  sampleRate : Int
  purpose : String

/-- `initialize_environment` -/
def initializeEnvironment : Env :=
  (((Env.init.installBuiltins.setVariable "disable_eq".toList (.boolean false)).setVariable
    "disable_drc".toList (.boolean false)).setVariable "dsp_name".toList (.string []))

/-- What `ini_filename` points to. -/
inductive Filename where
  | null
  | held
  | freed
  deriving DecidableEq, Repr

/-- The calls of `cras_dsp.h`.  Reading the ini file gives a text, unless it cannot be opened.
Contexts are numbered as they are made. -/
inductive Call where
  | init (file : Option (List Char))
  | reloadIni (file : Option (List Char))
  | stop
  | contextNew (sampleRate : Int) (purpose : String)
  | setVariable (ctx : Nat) (key value : List Char)
  | loadPipeline (ctx : Nat)
  | apply (ctx : Nat)
  | contextFree (ctx : Nat)

section Contexts

variable {π : Type}

def findContext (contexts : List (Context π)) (ctx : Nat) : Option (Context π) :=
  contexts.find? fun c => c.id == ctx

def updateContext (contexts : List (Context π)) (ctx : Nat) (f : Context π → Context π) :
    List (Context π) :=
  contexts.map fun c => if c.id = ctx then f c else c

end Contexts

/-! ## The calls, with memory -/

/-- The variables of `cras_dsp.c` and the objects they lead to.  A pipeline is together with the
pointer to its ini, and has no contents when it is left over. -/
structure DspState (F : Type) where
  filename : Filename
  ini : Option Nat
  contexts : List (Context Nat)
  created : Nat
  inis : Heap (Ini F Expression)
  pipelines : Heap (Nat × Option (LoadedPipeline F))

def DspState.start : DspState F := ⟨.null, none, [], 0, .empty, .empty⟩

section Memory

variable [Zero F] (strtof : List Char → F) (preDelay : Int → Int) (fuel : Nat)

/-- `prepare_pipeline` -/
def DspState.prepare (dsp : DspState F) (c : Context Nat) :
    Outcome (Option Nat × Heap (Nat × Option (LoadedPipeline F))) :=
  match dsp.ini with
  | none => .done (none, dsp.pipelines)
  | some p =>
      match dsp.inis.read p with
      | none => .fault
      | some ini =>
          (preparePipeline preDelay fuel ini c.env c.sampleRate c.purpose).bind fun prepared =>
            match prepared with
            | .ready pipeline =>
                .done (some dsp.pipelines.next, dsp.pipelines.alloc (p, some pipeline))
            | .freed => .done (none, dsp.pipelines)
            | .leaked => .done (none, dsp.pipelines.alloc (p, none))

/-- `cras_dsp_pipeline_free`, unless the pointer is `NULL`. -/
def freePipeline (pipelines : Heap (Nat × Option (LoadedPipeline F))) (old : Option Nat) :
    Outcome (Heap (Nat × Option (LoadedPipeline F))) :=
  match old with
  | none => .done pipelines
  | some p =>
      match pipelines.free p with
      | none => .fault
      | some pipelines => .done pipelines

/-- A context holds another pipeline. -/
def DspState.withPipeline (dsp : DspState F) (ctx : Nat) (pipeline : Option Nat)
    (pipelines : Heap (Nat × Option (LoadedPipeline F))) : DspState F :=
  { dsp with
    contexts := updateContext dsp.contexts ctx fun c => { c with pipeline := pipeline }
    pipelines := pipelines }

/-- `cras_dsp_load_pipeline` -/
def DspState.loadPipeline (ctx : Nat) (dsp : DspState F) : Outcome (DspState F) :=
  match findContext dsp.contexts ctx with
  | none => .fault
  | some c =>
      (dsp.prepare preDelay fuel c).bind fun r =>
        (freePipeline r.2 c.pipeline).bind fun pipelines =>
          .done (dsp.withPipeline ctx r.1 pipelines)

/-- `cras_dsp_ini_create` for a file. -/
def createIni (file : Option (List Char)) : Outcome (Ini F Expression) :=
  match file with
  | none => .failed
  | some text => crasDspIniCreate strtof text

/-- `cras_dsp_ini_free`, unless the pointer is `NULL`. -/
def freeIni (inis : Heap (Ini F Expression)) (old : Option Nat) :
    Outcome (Heap (Ini F Expression)) :=
  match old with
  | none => .done inis
  | some p =>
      match inis.free p with
      | none => .fault
      | some inis => .done inis

/-- The first part of `cras_dsp_reload_ini`. -/
def DspState.readIni (file : Option (List Char)) (dsp : DspState F) : Outcome (DspState F) :=
  match createIni strtof file with
  | .done ini => .done { dsp with ini := some dsp.inis.next, inis := dsp.inis.alloc ini }
  | .failed => .done { dsp with ini := none }
  | .fault => .fault
  | .running => .running

/-- `cras_dsp_reload_ini`, whose file is read by its name. -/
def DspState.reloadIni (file : Option (List Char)) (dsp : DspState F) : Outcome (DspState F) :=
  if dsp.filename = .held then
    (dsp.readIni strtof file).bind fun read =>
      (foldOutcome (DspState.loadPipeline preDelay fuel) (read.contexts.map (·.id)) read).bind
        fun loaded =>
          (freeIni loaded.inis dsp.ini).bind fun inis => .done { loaded with inis := inis }
  else .fault

/-- `cras_dsp_stop` -/
def DspState.stop (dsp : DspState F) : Outcome (DspState F) :=
  (freeIni dsp.inis dsp.ini).bind fun inis =>
    match dsp.filename with
    | .null => .done { dsp with ini := none, inis := inis }
    | .held => .done { dsp with ini := none, inis := inis, filename := .freed }
    | .freed => .fault

/-- `cras_dsp_get_pipeline`, and the pipeline is applied unless it is `NULL`. -/
def DspState.apply (ctx : Nat) (dsp : DspState F) : Outcome (DspState F) :=
  match findContext dsp.contexts ctx with
  | none => .fault
  | some c =>
      match c.pipeline with
      | none => .done dsp
      | some p =>
          match dsp.pipelines.read p with
          | some (_, some _) => .done dsp
          | _ => .fault

/-- `cras_dsp_context_free` -/
def DspState.contextFree (ctx : Nat) (dsp : DspState F) : Outcome (DspState F) :=
  match findContext dsp.contexts ctx with
  | none => .fault
  | some c =>
      (freePipeline dsp.pipelines c.pipeline).bind fun pipelines =>
        .done { dsp with
          contexts := dsp.contexts.filter fun c => c.id != ctx
          pipelines := pipelines }

/-- `cras_dsp_set_variable` -/
def DspState.setVariable (ctx : Nat) (key value : List Char) (dsp : DspState F) :
    Outcome (DspState F) :=
  match findContext dsp.contexts ctx with
  | none => .fault
  | some _ => .done { dsp with
      contexts := updateContext dsp.contexts ctx fun c =>
        { c with env := c.env.setVariable key (.string value) } }

/-- `cras_dsp_context_new` -/
def DspState.contextNew (sampleRate : Int) (purpose : String) (dsp : DspState F) : DspState F :=
  { dsp with
    contexts := dsp.contexts ++ [⟨dsp.created, none, initializeEnvironment, sampleRate, purpose⟩]
    created := dsp.created + 1 }

/-- A call.  Contexts that are used must not be freed. -/
def DspState.call (dsp : DspState F) : Call → Outcome (DspState F)
  | .init file => DspState.reloadIni strtof preDelay fuel file { dsp with filename := .held }
  | .reloadIni file => dsp.reloadIni strtof preDelay fuel file
  | .stop => dsp.stop
  | .contextNew sampleRate purpose => .done (dsp.contextNew sampleRate purpose)
  | .setVariable ctx key value => dsp.setVariable ctx key value
  | .loadPipeline ctx => dsp.loadPipeline preDelay fuel ctx
  | .apply ctx => dsp.apply ctx
  | .contextFree ctx => dsp.contextFree ctx

end Memory

/-! ## The calls, with values -/

/-- What the variables of `cras_dsp.c` lead to, and how many pipelines are left over. -/
structure DspValues (F : Type) where
  filename : Filename
  ini : Option (Ini F Expression)
  contexts : List (Context (LoadedPipeline F))
  created : Nat
  leaked : Nat

namespace DspValues

def start : DspValues F := ⟨.null, none, [], 0, 0⟩

section Calls

variable [Zero F] (strtof : List Char → F) (preDelay : Int → Int) (fuel : Nat)

/-- The pipeline that is prepared, and the memory that is left over. -/
def prepare (values : DspValues F) (c : Context (LoadedPipeline F)) :
    Outcome (Option (LoadedPipeline F) × Nat) :=
  match values.ini with
  | none => .done (none, values.leaked)
  | some ini =>
      (preparePipeline preDelay fuel ini c.env c.sampleRate c.purpose).bind fun prepared =>
        match prepared with
        | .ready pipeline => .done (some pipeline, values.leaked)
        | .freed => .done (none, values.leaked)
        | .leaked => .done (none, values.leaked + 1)

def withPipeline (values : DspValues F) (ctx : Nat) (pipeline : Option (LoadedPipeline F))
    (leaked : Nat) : DspValues F :=
  { values with
    contexts := updateContext values.contexts ctx fun c => { c with pipeline := pipeline }
    leaked := leaked }

def loadPipeline (ctx : Nat) (values : DspValues F) : Outcome (DspValues F) :=
  match findContext values.contexts ctx with
  | none => .fault
  | some c =>
      (values.prepare preDelay fuel c).bind fun r => .done (values.withPipeline ctx r.1 r.2)

def readIni (file : Option (List Char)) (values : DspValues F) : Outcome (DspValues F) :=
  match createIni strtof file with
  | .done ini => .done { values with ini := some ini }
  | .failed => .done { values with ini := none }
  | .fault => .fault
  | .running => .running

def reloadIni (file : Option (List Char)) (values : DspValues F) : Outcome (DspValues F) :=
  if values.filename = .held then
    (values.readIni strtof file).bind fun read =>
      foldOutcome (loadPipeline preDelay fuel) (read.contexts.map (·.id)) read
  else .fault

def stop (values : DspValues F) : Outcome (DspValues F) :=
  match values.filename with
  | .null => .done { values with ini := none }
  | .held => .done { values with ini := none, filename := .freed }
  | .freed => .fault

def contextNew (sampleRate : Int) (purpose : String) (values : DspValues F) : DspValues F :=
  { values with
    contexts := values.contexts ++
      [⟨values.created, none, initializeEnvironment, sampleRate, purpose⟩]
    created := values.created + 1 }

def setVariable (ctx : Nat) (key value : List Char) (values : DspValues F) :
    Outcome (DspValues F) :=
  match findContext values.contexts ctx with
  | none => .fault
  | some _ => .done { values with
      contexts := updateContext values.contexts ctx fun c =>
        { c with env := c.env.setVariable key (.string value) } }

def apply (ctx : Nat) (values : DspValues F) : Outcome (DspValues F) :=
  match findContext values.contexts ctx with
  | none => .fault
  | some _ => .done values

def contextFree (ctx : Nat) (values : DspValues F) : Outcome (DspValues F) :=
  match findContext values.contexts ctx with
  | none => .fault
  | some _ => .done { values with contexts := values.contexts.filter fun c => c.id != ctx }

def call (values : DspValues F) : Call → Outcome (DspValues F)
  | .init file => reloadIni strtof preDelay fuel file { values with filename := .held }
  | .reloadIni file => values.reloadIni strtof preDelay fuel file
  | .stop => values.stop
  | .contextNew sampleRate purpose => .done (values.contextNew sampleRate purpose)
  | .setVariable ctx key value => values.setVariable ctx key value
  | .loadPipeline ctx => values.loadPipeline preDelay fuel ctx
  | .apply ctx => values.apply ctx
  | .contextFree ctx => values.contextFree ctx

end Calls

end DspValues

/-! ## What the pointers lead to -/

def Context.mapPipeline {π ρ : Type} (f : π → Option ρ) (c : Context π) : Context ρ :=
  ⟨c.id, c.pipeline.bind f, c.env, c.sampleRate, c.purpose⟩

section Lookup

variable {π ρ : Type}

theorem Context.mapPipeline_id (f : π → Option ρ) (c : Context π) : (c.mapPipeline f).id = c.id :=
  rfl

theorem findContext_map (f : Context π → Context ρ) (hid : ∀ c, (f c).id = c.id)
    (contexts : List (Context π)) (ctx : Nat) :
    findContext (contexts.map f) ctx = (findContext contexts ctx).map f := by
  unfold findContext
  rw [List.find?_map]
  congr 2
  funext c
  exact congrArg (· == ctx) (hid c)

theorem mem_of_findContext {contexts : List (Context π)} {ctx : Nat} {c : Context π}
    (h : findContext contexts ctx = some c) : c ∈ contexts ∧ c.id = ctx :=
  ⟨List.mem_of_find?_eq_some h, beq_iff_eq.mp (List.find?_some h :)⟩

theorem mem_updateContext {contexts : List (Context π)} {ctx : Nat} {f : Context π → Context π}
    {c : Context π} : c ∈ updateContext contexts ctx f ↔
      ∃ c₀ ∈ contexts, (if c₀.id = ctx then f c₀ else c₀) = c :=
  List.mem_map

theorem updateContext_ids (contexts : List (Context π)) (ctx : Nat) {f : Context π → Context π}
    (hid : ∀ c, (f c).id = c.id) :
    (updateContext contexts ctx f).map (·.id) = contexts.map (·.id) := by
  unfold updateContext
  rw [List.map_map]
  apply List.map_congr_left
  intro c _
  dsimp only [Function.comp_apply]
  split
  · exact hid c
  · rfl

end Lookup

namespace DspState

/-- The pipeline behind a pointer. -/
def contents (dsp : DspState F) (p : Nat) : Option (LoadedPipeline F) :=
  (dsp.pipelines.read p).bind (·.2)

/-- A pipeline that is left over. -/
def isLeaked (x : Nat × Option (LoadedPipeline F)) : Bool := x.2.isNone

def values (dsp : DspState F) : DspValues F :=
  { filename := dsp.filename
    ini := dsp.ini.bind dsp.inis.read
    contexts := dsp.contexts.map (Context.mapPipeline dsp.contents)
    created := dsp.created
    leaked := dsp.pipelines.count isLeaked }

theorem values_filename (dsp : DspState F) : dsp.values.filename = dsp.filename := rfl

/-- Each pipeline that is not left over is held by one context. -/
structure Held (dsp : DspState F) : Prop where
  ini_live : ∀ p, dsp.ini = some p → ∃ ini, dsp.inis.read p = some ini
  ids : (dsp.contexts.map (·.id)).Nodup
  ids_lt : ∀ c ∈ dsp.contexts, c.id < dsp.created
  live : ∀ c ∈ dsp.contexts, ∀ p, c.pipeline = some p →
    ∃ q pipeline, dsp.pipelines.read p = some (q, some pipeline)
  owned : ∀ p q pipeline, dsp.pipelines.read p = some (q, some pipeline) →
    ∃ c ∈ dsp.contexts, c.pipeline = some p
  once : ∀ c ∈ dsp.contexts, ∀ c' ∈ dsp.contexts, ∀ p, c.pipeline = some p →
    c'.pipeline = some p → c.id = c'.id

/-- The pipeline of a context was made from the present ini. -/
def Current (dsp : DspState F) (c : Context Nat) : Prop :=
  ∀ p, c.pipeline = some p → ∃ q pipeline, dsp.pipelines.read p = some (q, some pipeline) ∧
    dsp.ini = some q

/-- Between calls the present ini is the only one, and pipelines point to it unless
`cras_dsp_stop` has freed it. -/
structure Tidy (dsp : DspState F) : Prop where
  held : dsp.Held
  only : ∀ p ini, dsp.inis.read p = some ini → dsp.ini = some p
  unread : dsp.filename = .null → dsp.ini = none
  current : dsp.filename ≠ .freed → ∀ c ∈ dsp.contexts, dsp.Current c

end DspState

/-! ## Loading a pipeline -/

section Load

variable {dsp : DspState F} {preDelay : Int → Int} {fuel : Nat}

/-- A prepared pipeline is a new one, and the old ones are still there. -/
structure Added (dsp : DspState F) (r : Option Nat × Heap (Nat × Option (LoadedPipeline F)))
    (v : Option (LoadedPipeline F) × Nat) : Prop where
  kept : ∀ p x, dsp.pipelines.read p = some x → r.2.read p = some x
  new : ∀ p, r.1 = some p → dsp.pipelines.read p = none ∧
    ∃ q pipeline, r.2.read p = some (q, some pipeline) ∧ dsp.ini = some q ∧ v.1 = some pipeline
  noOther : ∀ p q pipeline, r.2.read p = some (q, some pipeline) →
    dsp.pipelines.read p = some (q, some pipeline) ∨ r.1 = some p
  absent : r.1 = none → v.1 = none
  leaked : r.2.count DspState.isLeaked = v.2

theorem DspState.Held.prepare (h : dsp.Held) (c : Context Nat)
    (c' : Context (LoadedPipeline F)) (henv : c'.env = c.env)
    (hrate : c'.sampleRate = c.sampleRate) (hpurpose : c'.purpose = c.purpose) :
    (dsp.prepare preDelay fuel c).Agree (Added dsp) (dsp.values.prepare preDelay fuel c') := by
  have hnothing : Added dsp (none, dsp.pipelines) (none, dsp.pipelines.count DspState.isLeaked) :=
    { kept := fun p x hp => hp
      new := fun p hp => by cases hp
      noOther := fun p q pipeline hp => Or.inl hp
      absent := fun _ => rfl
      leaked := rfl }
  unfold DspState.prepare DspValues.prepare
  cases hini : dsp.ini with
  | none =>
      rw [show dsp.values.ini = none by rw [DspState.values, hini]; rfl]
      exact .done hnothing
  | some p =>
      obtain ⟨ini, hread⟩ := h.ini_live p hini
      rw [show dsp.values.ini = some ini by rw [DspState.values, hini]; exact hread, henv, hrate,
        hpurpose]
      dsimp only
      rw [hread]
      dsimp only
      apply Outcome.Agree.bind (R := Eq) (Outcome.Agree.refl_of fun _ _ => rfl)
      rintro prepared _ rfl
      cases prepared with
      | ready pipeline =>
          refine .done ⟨fun q x hq => Heap.read_alloc_of_some _ hq, ?_, ?_, fun hnone => ?_, ?_⟩
          · intro q hq
            cases hq
            exact ⟨Heap.read_next _, p, pipeline, Heap.read_alloc_self _ _, hini, rfl⟩
          · intro q i pipeline' hq
            rw [Heap.read_alloc] at hq
            split at hq
            · rename_i hnext
              exact Or.inr (congrArg some hnext.symm)
            · exact Or.inl hq
          · cases hnone
          · rw [Heap.count_alloc]
            rfl
      | freed => exact .done hnothing
      | leaked =>
          refine .done
            ⟨fun q x hq => Heap.read_alloc_of_some _ hq, fun q hq => ?_, ?_, fun _ => rfl, ?_⟩
          · cases hq
          · intro q i pipeline' hq
            rw [Heap.read_alloc] at hq
            split at hq
            · cases hq
            · exact Or.inl hq
          · rw [Heap.count_alloc]
            rfl

/-- Freeing a pipeline that is held. -/
theorem freePipeline_held {pipelines : Heap (Nat × Option (LoadedPipeline F))} {old : Option Nat}
    (h : ∀ p, old = some p → ∃ q pipeline, pipelines.read p = some (q, some pipeline)) :
    ∃ rest, freePipeline pipelines old = .done rest ∧
      (∀ p, rest.read p = if old = some p then none else pipelines.read p) ∧
      rest.count DspState.isLeaked = pipelines.count DspState.isLeaked := by
  cases old with
  | none => exact ⟨pipelines, rfl, fun p => rfl, rfl⟩
  | some p =>
      obtain ⟨q, pipeline, hread⟩ := h p rfl
      obtain ⟨rest, hfree, -, hrest⟩ := Heap.free_of_read hread
      refine ⟨rest, by rw [freePipeline, hfree], fun p' => ?_, ?_⟩
      · rw [hrest p']
        by_cases hp : p' = p
        · rw [if_pos hp, if_pos (congrArg some hp.symm)]
        · rw [if_neg hp, if_neg fun heq => hp (Option.some.inj heq).symm]
      · apply Heap.count_free hfree
        intro x hx
        rw [hread] at hx
        cases hx
        rfl

/-- What a context held is freed, when another pipeline has been added for it. -/
structure Swapped (dsp : DspState F) (c : Context Nat)
    (r : Option Nat × Heap (Nat × Option (LoadedPipeline F)))
    (rest : Heap (Nat × Option (LoadedPipeline F))) : Prop where
  new : ∀ p, r.1 = some p → rest.read p = r.2.read p
  unheld : ∀ p, r.1 = some p → ∀ c' ∈ dsp.contexts, c'.pipeline ≠ some p
  kept : ∀ c' ∈ dsp.contexts, c'.id ≠ c.id → ∀ p, c'.pipeline = some p →
    rest.read p = dsp.pipelines.read p
  same : ∀ c' ∈ dsp.contexts, c'.id = c.id → c' = c

section Swap

variable {c : Context Nat} {r : Option Nat × Heap (Nat × Option (LoadedPipeline F))}
  {v : Option (LoadedPipeline F) × Nat} {rest : Heap (Nat × Option (LoadedPipeline F))}

theorem DspState.Held.swapped (h : dsp.Held) (hc : c ∈ dsp.contexts) (hadded : Added dsp r v)
    (hrest : ∀ p, rest.read p = if c.pipeline = some p then none else r.2.read p) :
    Swapped dsp c r rest := by
  have hunheld : ∀ p, r.1 = some p → ∀ c' ∈ dsp.contexts, c'.pipeline ≠ some p := by
    intro p hp c' hc' hold
    obtain ⟨q, pipeline, hread⟩ := h.live c' hc' p hold
    rw [(hadded.new p hp).1] at hread
    cases hread
  refine ⟨fun p hp => ?_, hunheld, fun c' hc' hne p hp => ?_, fun c' hc' hid => ?_⟩
  · rw [hrest, if_neg (hunheld p hp c hc)]
  · obtain ⟨q, pipeline, hread⟩ := h.live c' hc' p hp
    rw [hrest, if_neg fun hold => hne (h.once c' hc' c hc p hp hold), hread,
      hadded.kept p _ hread]
  · exact List.inj_on_of_nodup_map h.ids hc' hc hid

theorem DspState.Held.withPipeline (h : dsp.Held) (hc : c ∈ dsp.contexts)
    (hadded : Added dsp r v)
    (hrest : ∀ p, rest.read p = if c.pipeline = some p then none else r.2.read p) :
    (dsp.withPipeline c.id r.1 rest).Held := by
  have hswap := h.swapped hc hadded hrest
  refine ⟨h.ini_live, ?_, ?_, ?_, ?_, ?_⟩
  · unfold DspState.withPipeline
    rw [updateContext_ids (f := fun c => { c with pipeline := r.1 }) _ _ fun _ => rfl]
    exact h.ids
  · intro c' hc'
    obtain ⟨c₀, hc₀, rfl⟩ := mem_updateContext.mp hc'
    split
    · exact h.ids_lt c₀ hc₀
    · exact h.ids_lt c₀ hc₀
  · intro c' hc' p hp
    obtain ⟨c₀, hc₀, rfl⟩ := mem_updateContext.mp hc'
    split at hp
    · obtain ⟨q, pipeline, hread, -⟩ := (hadded.new p hp).2
      exact ⟨q, pipeline, (hswap.new p hp).trans hread⟩
    · rename_i hne
      obtain ⟨q, pipeline, hread⟩ := h.live c₀ hc₀ p hp
      exact ⟨q, pipeline, (hswap.kept c₀ hc₀ hne p hp).trans hread⟩
  · intro p q pipeline hp
    rw [DspState.withPipeline, hrest] at hp
    split at hp
    · cases hp
    · rename_i hold
      cases hadded.noOther p q pipeline hp with
      | inl hread =>
          obtain ⟨c₀, hc₀, hheld⟩ := h.owned p q pipeline hread
          have hne : c₀.id ≠ c.id := fun hid => by
            rw [hswap.same c₀ hc₀ hid] at hheld
            exact hold hheld
          exact ⟨c₀, mem_updateContext.mpr ⟨c₀, hc₀, if_neg hne⟩, hheld⟩
      | inr hfirst => exact ⟨_, mem_updateContext.mpr ⟨c, hc, if_pos rfl⟩, hfirst⟩
  · intro c' hc' c'' hc'' p hp hp'
    obtain ⟨c₀, hc₀, rfl⟩ := mem_updateContext.mp hc'
    obtain ⟨c₁, hc₁, rfl⟩ := mem_updateContext.mp hc''
    split at hp
    · rename_i hid
      split at hp'
      · rename_i hid'
        rw [if_pos hid, if_pos hid']
        exact hid.trans hid'.symm
      · exact absurd hp' (hswap.unheld p hp c₁ hc₁)
    · rename_i hid
      split at hp'
      · exact absurd hp (hswap.unheld p hp' c₀ hc₀)
      · rename_i hid'
        rw [if_neg hid, if_neg hid']
        exact h.once c₀ hc₀ c₁ hc₁ p hp hp'

theorem DspState.Held.withPipeline_values (h : dsp.Held) (hc : c ∈ dsp.contexts)
    (hadded : Added dsp r v)
    (hrest : ∀ p, rest.read p = if c.pipeline = some p then none else r.2.read p)
    (hcount : rest.count DspState.isLeaked = r.2.count DspState.isLeaked) :
    (dsp.withPipeline c.id r.1 rest).values = dsp.values.withPipeline c.id v.1 v.2 := by
  have hswap := h.swapped hc hadded hrest
  have hcontexts : (updateContext dsp.contexts c.id fun c => { c with pipeline := r.1 }).map
        (Context.mapPipeline (dsp.withPipeline c.id r.1 rest).contents) =
      updateContext (dsp.contexts.map (Context.mapPipeline dsp.contents)) c.id fun c =>
        { c with pipeline := v.1 } := by
    unfold updateContext
    rw [List.map_map, List.map_map]
    apply List.map_congr_left
    intro c₀ hc₀
    rw [Function.comp_apply, Function.comp_apply, Context.mapPipeline_id]
    by_cases hid : c₀.id = c.id
    · rw [if_pos hid, if_pos hid]
      have hnew : r.1.bind (dsp.withPipeline c.id r.1 rest).contents = v.1 := by
        cases hr : r.1 with
        | none => exact (hadded.absent hr).symm
        | some p =>
            obtain ⟨q, pipeline, hread, -, hv⟩ := (hadded.new p hr).2
            rw [Option.bind_some, DspState.contents, DspState.withPipeline, hswap.new p hr, hread,
              hv]
            rfl
      unfold Context.mapPipeline
      rw [← hnew]
    · rw [if_neg hid, if_neg hid]
      unfold Context.mapPipeline
      congr 1
      cases hold : c₀.pipeline with
      | none => rfl
      | some p =>
          rw [Option.bind_some, Option.bind_some, DspState.contents, DspState.contents,
            DspState.withPipeline, hswap.kept c₀ hc₀ hid p hold]
  unfold DspState.values DspValues.withPipeline
  congr 1
  rw [← hadded.leaked, ← hcount]
  rfl

end Swap

/-- A context has been given a new pipeline, and the others are as they were. -/
structure Replaced (dsp : DspState F) (ctx : Nat) (dsp' : DspState F) (v : DspValues F) :
    Prop where
  values : dsp'.values = v
  held : dsp'.Held
  filename : dsp'.filename = dsp.filename
  ini : dsp'.ini = dsp.ini
  inis : dsp'.inis = dsp.inis
  ids : dsp'.contexts.map (·.id) = dsp.contexts.map (·.id)
  current : ∀ c ∈ dsp'.contexts, (c.id ≠ ctx → c ∈ dsp.contexts → dsp.Current c) →
    dsp'.Current c

theorem DspState.Held.loadPipeline (h : dsp.Held) (ctx : Nat) :
    (dsp.loadPipeline preDelay fuel ctx).Agree (Replaced dsp ctx)
      (dsp.values.loadPipeline preDelay fuel ctx) := by
  unfold DspState.loadPipeline DspValues.loadPipeline
  unfold DspState.values
  rw [findContext_map _ (Context.mapPipeline_id dsp.contents)]
  cases hfind : findContext dsp.contexts ctx with
  | none => exact .fault
  | some c =>
      obtain ⟨hc, rfl⟩ := mem_of_findContext hfind
      refine (h.prepare c _ rfl rfl rfl).bind fun r v hadded => ?_
      have hlive : ∀ p, c.pipeline = some p →
          ∃ q pipeline, r.2.read p = some (q, some pipeline) := fun p hp => by
        obtain ⟨q, pipeline, hread⟩ := h.live c hc p hp
        exact ⟨q, pipeline, hadded.kept p _ hread⟩
      obtain ⟨rest, hfree, hrest, hcount⟩ := freePipeline_held hlive
      have hswap := h.swapped hc hadded hrest
      rw [hfree, Outcome.done_bind]
      refine .done ⟨h.withPipeline_values hc hadded hrest hcount, h.withPipeline hc hadded hrest,
        rfl, rfl, rfl, updateContext_ids _ _ fun c => rfl, ?_⟩
      intro c' hc' hcurrent p hp
      obtain ⟨c₀, hc₀, rfl⟩ := mem_updateContext.mp hc'
      split at hp
      · obtain ⟨q, pipeline, hread, hini, -⟩ := (hadded.new p hp).2
        exact ⟨q, pipeline, (hswap.new p hp).trans hread, hini⟩
      · rename_i hid
        rw [if_neg hid] at hcurrent
        obtain ⟨q, pipeline, hread, hini⟩ := hcurrent hid hc₀ p hp
        exact ⟨q, pipeline, (hswap.kept c₀ hc₀ hid p hp).trans hread, hini⟩

end Load

/-! ## Reading the ini again -/

section Reload

variable {dsp : DspState F}

/-- Freeing an ini that is live. -/
theorem freeIni_live {inis : Heap (Ini F Expression)} {old : Option Nat}
    (h : ∀ p, old = some p → ∃ ini, inis.read p = some ini) :
    ∃ rest, freeIni inis old = .done rest ∧
      ∀ p, rest.read p = if old = some p then none else inis.read p := by
  cases old with
  | none => exact ⟨inis, rfl, fun p => rfl⟩
  | some p =>
      obtain ⟨ini, hread⟩ := h p rfl
      obtain ⟨rest, hfree, -, hrest⟩ := Heap.free_of_read hread
      refine ⟨rest, by rw [freeIni, hfree], fun p' => ?_⟩
      rw [hrest p']
      by_cases hp : p' = p
      · rw [if_pos hp, if_pos (congrArg some hp.symm)]
      · rw [if_neg hp, if_neg fun heq => hp (Option.some.inj heq).symm]

variable [Zero F] {strtof : List Char → F} {preDelay : Int → Int} {fuel : Nat}

/-- The ini that has been read is a new one. -/
structure HasRead (dsp dsp' : DspState F) (v : DspValues F) : Prop where
  values : dsp'.values = v
  held : dsp'.Held
  filename : dsp'.filename = dsp.filename
  kept : ∀ p ini, dsp.inis.read p = some ini → dsp'.inis.read p = some ini
  noOther : ∀ p ini, dsp'.inis.read p = some ini → dsp.inis.read p = some ini ∨ dsp'.ini = some p
  new : ∀ p, dsp'.ini = some p → dsp.inis.read p = none

theorem DspState.Held.readIni (h : dsp.Held) (file : Option (List Char)) :
    (dsp.readIni strtof file).Agree (HasRead dsp) (dsp.values.readIni strtof file) := by
  unfold DspState.readIni DspValues.readIni
  cases createIni strtof file with
  | fault => exact .fault
  | running => exact .running
  | failed =>
      refine .done ⟨rfl, ⟨fun p hp => ?_, h.ids, h.ids_lt, h.live, h.owned, h.once⟩, rfl,
        fun p ini hp => hp, fun p ini hp => Or.inl hp, fun p hp => ?_⟩
      · cases hp
      · cases hp
  | done ini =>
      refine .done ⟨?_, ⟨fun p hp => ?_, h.ids, h.ids_lt, h.live, h.owned, h.once⟩, rfl,
        fun p old hp => Heap.read_alloc_of_some ini hp, fun p old hp => ?_, fun p hp => ?_⟩
      · unfold DspState.values
        rw [Option.bind_some, Heap.read_alloc_self]
        rfl
      · cases hp
        exact ⟨ini, Heap.read_alloc_self _ _⟩
      · rw [Heap.read_alloc] at hp
        split at hp
        · rename_i hnext
          exact Or.inr (congrArg some hnext.symm)
        · exact Or.inl hp
      · cases hp
        exact Heap.read_next _

/-- In the loop over the contexts those that it has been at are current. -/
structure Loading (start : DspState F) (seen : List Nat) (dsp : DspState F) (v : DspValues F) :
    Prop where
  values : dsp.values = v
  held : dsp.Held
  filename : dsp.filename = start.filename
  ini : dsp.ini = start.ini
  inis : dsp.inis = start.inis
  ids : dsp.contexts.map (·.id) = start.contexts.map (·.id)
  current : ∀ c ∈ dsp.contexts, c.id ∈ seen → dsp.Current c

omit [Zero F] in
theorem Loading.step {start : DspState F} {seen : List Nat} {v : DspValues F}
    (h : Loading start seen dsp v) (ctx : Nat) :
    (dsp.loadPipeline preDelay fuel ctx).Agree (Loading start (seen ++ [ctx]))
      (v.loadPipeline preDelay fuel ctx) := by
  rw [← h.values]
  refine (h.held.loadPipeline ctx).mono fun dsp' v' hreplaced => ?_
  refine ⟨hreplaced.values, hreplaced.held, hreplaced.filename.trans h.filename,
    hreplaced.ini.trans h.ini, hreplaced.inis.trans h.inis, hreplaced.ids.trans h.ids,
    fun c hc hmem => ?_⟩
  refine hreplaced.current c hc fun hne hold => h.current c hold ?_
  rw [List.mem_append, List.mem_singleton] at hmem
  exact hmem.resolve_right hne

omit [Zero F] in
/-- When all contexts have been gone through, the old ini is freed. -/
theorem HasRead.finish {read loaded : DspState F} {v v' : DspValues F} (hold : dsp.Held)
    (honly : ∀ p ini, dsp.inis.read p = some ini → dsp.ini = some p)
    (hfilename : dsp.filename = .held) (hread : HasRead dsp read v)
    (hloading : Loading read (read.contexts.map (·.id)) loaded v') :
    ∃ loaded', ((freeIni loaded.inis dsp.ini).bind fun inis =>
        .done { loaded with inis := inis }) = .done loaded' ∧
      loaded'.Tidy ∧ loaded'.values = v' := by
  have hlive : ∀ p, dsp.ini = some p → ∃ ini, loaded.inis.read p = some ini := fun p hp => by
    obtain ⟨ini, hini⟩ := hold.ini_live p hp
    exact ⟨ini, by rw [hloading.inis]; exact hread.kept p ini hini⟩
  obtain ⟨rest, hfree, hrest⟩ := freeIni_live hlive
  have hnew : ∀ p, loaded.ini = some p → rest.read p = loaded.inis.read p := by
    intro p hp
    rw [hloading.ini] at hp
    rw [hrest, if_neg]
    intro heq
    obtain ⟨ini, hlive⟩ := hold.ini_live p heq
    rw [hread.new p hp] at hlive
    cases hlive
  rw [hfree]
  refine ⟨_, rfl, ⟨⟨fun p hp => ?_, hloading.held.ids, hloading.held.ids_lt, hloading.held.live,
    hloading.held.owned, hloading.held.once⟩, fun p ini hp => ?_, fun hnull => ?_,
      fun _ c hc => ?_⟩, ?_⟩
  · obtain ⟨ini, hlive⟩ := hloading.held.ini_live p hp
    exact ⟨ini, (hnew p hp).trans hlive⟩
  · dsimp only at hp
    rw [hrest] at hp
    split at hp
    · cases hp
    · rename_i hne
      rw [hloading.inis] at hp
      cases hread.noOther p ini hp with
      | inl hlive => exact absurd (honly p ini hlive) hne
      | inr hini => exact hloading.ini.trans hini
  · dsimp only at hnull
    rw [hloading.filename, hread.filename, hfilename] at hnull
    cases hnull
  · refine hloading.current c hc ?_
    rw [← hloading.ids]
    exact List.mem_map_of_mem hc
  · rw [← hloading.values]
    unfold DspState.values
    congr 1
    cases hini : loaded.ini with
    | none => rfl
    | some p => exact hnew p hini

theorem DspState.Held.reloadIni (h : dsp.Held)
    (honly : ∀ p ini, dsp.inis.read p = some ini → dsp.ini = some p)
    (file : Option (List Char)) :
    (dsp.reloadIni strtof preDelay fuel file).Agree (fun dsp' v => dsp'.Tidy ∧ dsp'.values = v)
      (dsp.values.reloadIni strtof preDelay fuel file) := by
  unfold DspState.reloadIni DspValues.reloadIni
  rw [DspState.values_filename]
  by_cases hfilename : dsp.filename = .held
  · rw [if_pos hfilename, if_pos hfilename]
    refine (h.readIni file).bind fun read v hread => ?_
    have hids : v.contexts.map (·.id) = read.contexts.map (·.id) := by
      rw [← hread.values, DspState.values, List.map_map]
      exact List.map_congr_left fun c _ => Context.mapPipeline_id _ c
    rw [hids]
    have hstart : Loading read [] read v := ⟨hread.values, hread.held, rfl, rfl, rfl, rfl,
      fun c _ hmem => absurd hmem List.not_mem_nil⟩
    refine (Outcome.Agree.fold (fun seen ctx _ _ hloading => hloading.step ctx)
      (read.contexts.map (·.id)) [] read v hstart).bind_left fun loaded v' hloading => ?_
    exact hread.finish h honly hfilename hloading
  · rw [if_neg hfilename, if_neg hfilename]
    exact .fault

end Reload

/-! ## Runs -/

section Runs

variable {dsp : DspState F}

theorem DspState.tidy_start : (DspState.start : DspState F).Tidy :=
  { held :=
      { ini_live := fun p hp => by cases hp
        ids := List.nodup_nil
        ids_lt := fun c hc => absurd hc List.not_mem_nil
        live := fun c hc => absurd hc List.not_mem_nil
        owned := fun p q pipeline hp => by cases hp
        once := fun c hc => absurd hc List.not_mem_nil }
    only := fun p ini hp => by cases hp
    unread := fun _ => rfl
    current := fun _ c hc => absurd hc List.not_mem_nil }

/-- `cras_dsp_stop` frees the ini and leaves the pipelines. -/
theorem DspState.Tidy.stop (h : dsp.Tidy) :
    dsp.stop.Agree (fun dsp' v => dsp'.Tidy ∧ dsp'.values = v) dsp.values.stop := by
  obtain ⟨rest, hfree, hrest⟩ := freeIni_live h.held.ini_live
  unfold DspState.stop DspValues.stop
  rw [DspState.values_filename, hfree, Outcome.done_bind]
  have hheld : ∀ filename, ({ dsp with ini := none, inis := rest, filename := filename } :
      DspState F).Held := fun filename =>
    ⟨(fun p hp => by cases hp), h.held.ids, h.held.ids_lt, h.held.live, h.held.owned, h.held.once⟩
  have honly : ∀ p ini, rest.read p ≠ some ini := by
    intro p ini hp
    rw [hrest] at hp
    split at hp
    · cases hp
    · rename_i hne
      exact hne (h.only p ini hp)
  cases hfilename : dsp.filename with
  | freed => exact .fault
  | null =>
      have hne : dsp.filename ≠ .freed := by
        rw [hfilename]
        exact Filename.noConfusion
      refine .done ⟨⟨hheld .null, fun p ini hp => absurd hp (honly p ini), fun _ => rfl,
        fun _ c hc p hp => ?_⟩, rfl⟩
      obtain ⟨q, pipeline, -, hini⟩ := h.current hne c hc p hp
      rw [h.unread hfilename] at hini
      cases hini
  | held =>
      exact .done ⟨⟨hheld .freed, fun p ini hp => absurd hp (honly p ini), fun _ => rfl,
        fun hne => absurd rfl hne⟩, rfl⟩

/-- A new context has no pipeline. -/
theorem DspState.Tidy.contextNew (h : dsp.Tidy) (sampleRate : Int) (purpose : String) :
    (dsp.contextNew sampleRate purpose).Tidy ∧
      (dsp.contextNew sampleRate purpose).values = dsp.values.contextNew sampleRate purpose := by
  have hold : ∀ c ∈ (dsp.contextNew sampleRate purpose).contexts, ∀ p,
      c.pipeline = some p → c ∈ dsp.contexts := by
    intro c hc p hp
    unfold DspState.contextNew at hc
    rw [List.mem_append, List.mem_singleton] at hc
    cases hc with
    | inl hc => exact hc
    | inr hc =>
        rw [hc] at hp
        cases hp
  refine ⟨⟨⟨h.held.ini_live, ?_, ?_, fun c hc p hp => h.held.live c (hold c hc p hp) p hp,
    fun p q pipeline hp => ?_, fun c hc c' hc' p hp hp' =>
      h.held.once c (hold c hc p hp) c' (hold c' hc' p hp') p hp hp'⟩, h.only, h.unread,
    fun hne c hc p hp => h.current hne c (hold c hc p hp) p hp⟩, ?_⟩
  · unfold DspState.contextNew
    rw [List.map_append]
    apply List.Nodup.append h.held.ids (List.nodup_singleton _)
    intro i hi hi'
    obtain ⟨c, hc, rfl⟩ := List.mem_map.mp hi
    exact Nat.ne_of_lt (h.held.ids_lt c hc) (List.mem_singleton.mp hi')
  · intro c hc
    unfold DspState.contextNew at hc
    rw [List.mem_append, List.mem_singleton] at hc
    cases hc with
    | inl hc => exact Nat.lt_succ_of_lt (h.held.ids_lt c hc)
    | inr hc =>
        rw [hc]
        exact Nat.lt_succ_self _
  · obtain ⟨c, hc, hheld⟩ := h.held.owned p q pipeline hp
    exact ⟨c, List.mem_append_left _ hc, hheld⟩
  · unfold DspState.values DspState.contextNew
    rw [List.map_append]
    rfl

/-- Variables are not pointers. -/
theorem DspState.Tidy.withEnv (h : dsp.Tidy) (ctx : Nat) (f : Env → Env) :
    DspState.Tidy { dsp with
      contexts := updateContext dsp.contexts ctx fun c => { c with env := f c.env } } := by
  have hsame : ∀ c ∈ updateContext dsp.contexts ctx (fun c => { c with env := f c.env }),
      ∃ c₀ ∈ dsp.contexts, c.id = c₀.id ∧ c.pipeline = c₀.pipeline := by
    intro c hc
    obtain ⟨c₀, hc₀, rfl⟩ := mem_updateContext.mp hc
    refine ⟨c₀, hc₀, ?_⟩
    split
    · exact ⟨rfl, rfl⟩
    · exact ⟨rfl, rfl⟩
  refine ⟨⟨h.held.ini_live, ?_, fun c hc => ?_, fun c hc p hp => ?_, fun p q pipeline hp => ?_,
    fun c hc c' hc' p hp hp' => ?_⟩, h.only, h.unread, fun hne c hc p hp => ?_⟩
  · dsimp only
    rw [updateContext_ids (f := fun c => { c with env := f c.env }) _ _ fun _ => rfl]
    exact h.held.ids
  · obtain ⟨c₀, hc₀, hid, -⟩ := hsame c hc
    rw [hid]
    exact h.held.ids_lt c₀ hc₀
  · obtain ⟨c₀, hc₀, -, hpipeline⟩ := hsame c hc
    exact h.held.live c₀ hc₀ p (hpipeline.symm.trans hp)
  · obtain ⟨c, hc, hheld⟩ := h.held.owned p q pipeline hp
    refine ⟨_, mem_updateContext.mpr ⟨c, hc, rfl⟩, ?_⟩
    split
    · exact hheld
    · exact hheld
  · obtain ⟨c₀, hc₀, hid, hpipeline⟩ := hsame c hc
    obtain ⟨c₁, hc₁, hid', hpipeline'⟩ := hsame c' hc'
    rw [hid, hid']
    exact h.held.once c₀ hc₀ c₁ hc₁ p (hpipeline.symm.trans hp) (hpipeline'.symm.trans hp')
  · obtain ⟨c₀, hc₀, -, hpipeline⟩ := hsame c hc
    exact h.current hne c₀ hc₀ p (hpipeline.symm.trans hp)

theorem DspState.Tidy.setVariable (h : dsp.Tidy) (ctx : Nat) (key value : List Char) :
    (dsp.setVariable ctx key value).Agree (fun dsp' v => dsp'.Tidy ∧ dsp'.values = v)
      (dsp.values.setVariable ctx key value) := by
  unfold DspState.setVariable DspValues.setVariable
  rw [show dsp.values.contexts = dsp.contexts.map (Context.mapPipeline dsp.contents) from rfl,
    findContext_map _ (Context.mapPipeline_id dsp.contents)]
  cases hfind : findContext dsp.contexts ctx with
  | none => exact .fault
  | some c =>
      refine .done ⟨h.withEnv ctx fun env => env.setVariable key (.string value), ?_⟩
      unfold DspState.values updateContext
      congr 1
      dsimp only
      rw [List.map_map, List.map_map]
      apply List.map_congr_left
      intro c' _
      rw [Function.comp_apply, Function.comp_apply, Context.mapPipeline_id]
      split
      · rfl
      · rfl

/-- The pipeline of a context is freed with it. -/
theorem DspState.Tidy.contextFree (h : dsp.Tidy) (ctx : Nat) :
    (dsp.contextFree ctx).Agree (fun dsp' v => dsp'.Tidy ∧ dsp'.values = v)
      (dsp.values.contextFree ctx) := by
  unfold DspState.contextFree DspValues.contextFree
  rw [show dsp.values.contexts = dsp.contexts.map (Context.mapPipeline dsp.contents) from rfl,
    findContext_map _ (Context.mapPipeline_id dsp.contents)]
  cases hfind : findContext dsp.contexts ctx with
  | none => exact .fault
  | some c =>
      obtain ⟨hc, rfl⟩ := mem_of_findContext hfind
      obtain ⟨rest, hfree, hrest, hcount⟩ := freePipeline_held (h.held.live c hc)
      dsimp only [Option.map_some]
      rw [hfree, Outcome.done_bind]
      have hmem : ∀ c', c' ∈ dsp.contexts.filter (fun c' => c'.id != c.id) ↔
          c' ∈ dsp.contexts ∧ c'.id ≠ c.id := fun c' => by
        rw [List.mem_filter, bne_iff_ne]
      have hkept : ∀ c' ∈ dsp.contexts, c'.id ≠ c.id → ∀ p, c'.pipeline = some p →
          rest.read p = dsp.pipelines.read p := fun c' hc' hne p hp => by
        rw [hrest, if_neg fun hold => hne (h.held.once c' hc' c hc p hp hold)]
      refine .done ⟨⟨⟨h.held.ini_live, ?_, fun c' hc' => ?_, fun c' hc' p hp => ?_,
        fun p q pipeline hp => ?_, fun c' hc' c'' hc'' => ?_⟩, h.only, h.unread,
        fun hne c' hc' p hp => ?_⟩, ?_⟩
      · exact h.held.ids.sublist (List.filter_sublist.map _)
      · exact h.held.ids_lt c' ((hmem c').mp hc').1
      · obtain ⟨hold, hne⟩ := (hmem c').mp hc'
        obtain ⟨q, pipeline, hread⟩ := h.held.live c' hold p hp
        exact ⟨q, pipeline, (hkept c' hold hne p hp).trans hread⟩
      · dsimp only at hp
        rw [hrest] at hp
        split at hp
        · cases hp
        · rename_i hother
          obtain ⟨c', hc', hheld⟩ := h.held.owned p q pipeline hp
          refine ⟨c', (hmem c').mpr ⟨hc', fun hid => hother ?_⟩, hheld⟩
          rw [← List.inj_on_of_nodup_map h.held.ids hc' hc hid]
          exact hheld
      · exact h.held.once c' ((hmem c').mp hc').1 c'' ((hmem c'').mp hc'').1
      · obtain ⟨hold, hid⟩ := (hmem c').mp hc'
        obtain ⟨q, pipeline, hread, hini⟩ := h.current hne c' hold p hp
        exact ⟨q, pipeline, (hkept c' hold hid p hp).trans hread, hini⟩
      · unfold DspState.values
        rw [hcount]
        congr 1
        dsimp only
        rw [List.filter_map]
        apply List.map_congr_left
        intro c' hc'
        obtain ⟨hold, hid⟩ := (hmem c').mp hc'
        unfold Context.mapPipeline
        congr 1
        cases hp : c'.pipeline with
        | none => rfl
        | some p =>
            rw [Option.bind_some, Option.bind_some, DspState.contents, DspState.contents,
              hkept c' hold hid p hp]

/-- A context's pipeline can be applied. -/
theorem DspState.Tidy.apply (h : dsp.Tidy) (ctx : Nat) :
    (dsp.apply ctx).Agree (fun dsp' v => dsp'.Tidy ∧ dsp'.values = v)
      (dsp.values.apply ctx) := by
  unfold DspState.apply DspValues.apply
  rw [show dsp.values.contexts = dsp.contexts.map (Context.mapPipeline dsp.contents) from rfl,
    findContext_map _ (Context.mapPipeline_id dsp.contents)]
  cases hfind : findContext dsp.contexts ctx with
  | none => exact .fault
  | some c =>
      have hc := (mem_of_findContext hfind).1
      dsimp only [Option.map_some]
      cases hp : c.pipeline with
      | none => exact .done ⟨h, rfl⟩
      | some p =>
          obtain ⟨q, pipeline, hread⟩ := h.held.live c hc p hp
          dsimp only
          rw [hread]
          exact .done ⟨h, rfl⟩

theorem DspState.Tidy.loadPipeline {preDelay : Int → Int} {fuel : Nat} (h : dsp.Tidy) (ctx : Nat) :
    (dsp.loadPipeline preDelay fuel ctx).Agree (fun dsp' v => dsp'.Tidy ∧ dsp'.values = v)
      (dsp.values.loadPipeline preDelay fuel ctx) := by
  refine (h.held.loadPipeline ctx).mono fun dsp' v hreplaced => ⟨⟨hreplaced.held, ?_, ?_, ?_⟩,
    hreplaced.values⟩
  · intro p ini hp
    rw [hreplaced.inis] at hp
    rw [hreplaced.ini]
    exact h.only p ini hp
  · intro hnull
    rw [hreplaced.ini]
    exact h.unread (hreplaced.filename.symm.trans hnull)
  · intro hne c hc
    rw [hreplaced.filename] at hne
    exact hreplaced.current c hc fun _ hold => h.current hne c hold

section Calls

variable [Zero F] (strtof : List Char → F) (preDelay : Int → Int) (fuel : Nat)

theorem DspState.Tidy.call (h : dsp.Tidy) (call : Call) :
    (dsp.call strtof preDelay fuel call).Agree (fun dsp' v => dsp'.Tidy ∧ dsp'.values = v)
      (dsp.values.call strtof preDelay fuel call) := by
  cases call with
  | init file =>
      have hheld : DspState.Held { dsp with filename := .held } :=
        ⟨h.held.ini_live, h.held.ids, h.held.ids_lt, h.held.live, h.held.owned, h.held.once⟩
      exact hheld.reloadIni h.only file
  | reloadIni file => exact h.held.reloadIni h.only file
  | stop => exact h.stop
  | contextNew sampleRate purpose => exact .done (h.contextNew sampleRate purpose)
  | setVariable ctx key value => exact h.setVariable ctx key value
  | loadPipeline ctx => exact h.loadPipeline ctx
  | apply ctx => exact h.apply ctx
  | contextFree ctx => exact h.contextFree ctx

/-- Calls one after the other. -/
def DspState.run (calls : List Call) : Outcome (DspState F) :=
  foldOutcome (fun call dsp => DspState.call strtof preDelay fuel dsp call) calls .start

def DspValues.run (calls : List Call) : Outcome (DspValues F) :=
  foldOutcome (fun call values => DspValues.call strtof preDelay fuel values call) calls .start

/-- In every run pointers lead to what the calls mean.  Memory adds no fault: no pipeline or ini
is used after it is freed or freed twice.  After each call the present ini is the only one, each
pipeline that is not left over by a failing sort is held by one context, and was made from the
present ini unless that has been freed by `cras_dsp_stop`. -/
theorem contexts_refine_values (calls : List Call) :
    (DspState.run strtof preDelay fuel calls).Agree (fun dsp v => dsp.Tidy ∧ dsp.values = v)
      (DspValues.run strtof preDelay fuel calls : Outcome (DspValues F)) := by
  apply Outcome.Agree.run
  · rintro call dsp _ ⟨h, rfl⟩
    exact h.call strtof preDelay fuel call
  · exact ⟨DspState.tidy_start, rfl⟩

end Calls

end Runs

end DragonDevice.Dsp
