/-
  Dsp/DisableVariables.lean --- which variables a pipeline depends on.

  A pipeline depends on the variables of its context only through the disable expressions of
  the ini, and these only through the variables that occur in them.  So calls that set another
  variable can be left out of a run.
-/
import DragonDevice.Dsp.Contexts

set_option autoImplicit false

namespace DragonDevice.Dsp

open DragonDevice.Lib

variable {F : Type}

/-! ## The variables of an expression -/

mutual

def Expression.variables : Expression → List (List Char)
  | .boolean _ => []
  | .integer _ => []
  | .string _ => []
  | .variable name => [name]
  | .compound children => allVariables children

def allVariables : List Expression → List (List Char)
  | [] => []
  | expr :: children => expr.variables ++ allVariables children

end

mutual

/-- An expression has one value where its variables have. -/
theorem Expression.eval_congr {env env' : Env} : ∀ expr : Expression,
    (∀ name ∈ expr.variables, env.findValue name = env'.findValue name) →
      expr.eval env = expr.eval env'
  | .boolean _, _ => rfl
  | .integer _, _ => rfl
  | .string _, _ => rfl
  | .variable name, h => by
      rw [Expression.eval, Expression.eval]
      rw [h name (by rw [Expression.variables]; exact List.mem_singleton.mpr rfl)]
  | .compound children, h => by
      rw [Expression.eval, Expression.eval]
      rw [evalAll_congr children (by rw [Expression.variables] at h; exact h)]

theorem evalAll_congr {env env' : Env} : ∀ children : List Expression,
    (∀ name ∈ allVariables children, env.findValue name = env'.findValue name) →
      evalAll env children = evalAll env' children
  | [], _ => rfl
  | expr :: children, h => by
      rw [allVariables] at h
      rw [evalAll, evalAll, Expression.eval_congr expr fun name hname =>
          h name (List.mem_append_left _ hname),
        evalAll_congr children fun name hname => h name (List.mem_append_right _ hname)]

end

/-! ## What a pipeline depends on -/

/-- A variable occurs in a disable expression. -/
def Ini.Mentions (ini : Ini F Expression) (name : List Char) : Prop :=
  ∃ plugin ∈ ini.plugins, ∃ expr, plugin.disableExpr = some expr ∧ name ∈ expr.variables

instance (ini : Ini F Expression) (name : List Char) : Decidable (ini.Mentions name) :=
  decidable_of_iff (ini.plugins.any fun plugin =>
      plugin.disableExpr.any fun expr => expr.variables.contains name) (by
    simp only [Ini.Mentions, List.any_eq_true, Option.any_eq_true, List.contains_iff_mem])

section Create

variable {ini : Ini F Expression} {eval eval' : Expression → Option Bool}

/-- The same plugins are disabled. -/
def DisabledAlike (ini : Ini F Expression) (eval eval' : Expression → Option Bool) : Prop :=
  ∀ plugin ∈ ini.plugins, isDisabled eval plugin = isDisabled eval' plugin

theorem disabledAlike_of_variables {env env' : Env}
    (h : ∀ name, ini.Mentions name → env.findValue name = env'.findValue name) :
    DisabledAlike ini (Expression.evalBoolean env) (Expression.evalBoolean env') := by
  intro plugin hplugin
  unfold isDisabled
  cases hexpr : plugin.disableExpr with
  | none => rfl
  | some expr =>
      dsimp only
      unfold Expression.evalBoolean
      rw [Expression.eval_congr expr fun name hname => h name ⟨plugin, hplugin, expr, hexpr, hname⟩]

theorem findEnabledBuiltinPlugin_congr (h : DisabledAlike ini eval eval')
    (label purpose : String) :
    findEnabledBuiltinPlugin ini eval label purpose =
      findEnabledBuiltinPlugin ini eval' label purpose := by
  have hfilter : (ini.plugins.zipIdx.filter fun p => p.1.library == "builtin" &&
      p.1.label == label && p.1.purpose == some purpose && !isDisabled eval p.1) =
      ini.plugins.zipIdx.filter fun p => p.1.library == "builtin" && p.1.label == label &&
        p.1.purpose == some purpose && !isDisabled eval' p.1 := by
    apply List.filter_congr
    intro p hp
    rw [h p.1 (List.fst_mem_of_mem_zipIdx hp)]
  unfold findEnabledBuiltinPlugin
  rw [hfilter]

theorem constructInstance_congr (h : DisabledAlike ini eval eval') (fuel : Nat) :
    constructInstance ini eval fuel = constructInstance ini eval' fuel := by
  funext p instances
  unfold constructInstance
  cases hplugin : ini.plugins[p]? with
  | none => rfl
  | some plugin =>
      dsimp only
      rw [h plugin (List.mem_of_getElem? hplugin)]

theorem pipelineCreate_congr (h : DisabledAlike ini eval eval') (purpose : String) (fuel : Nat) :
    pipelineCreate ini eval purpose fuel = pipelineCreate ini eval' purpose fuel := by
  unfold pipelineCreate topologicalSort
  rw [findEnabledBuiltinPlugin_congr h, findEnabledBuiltinPlugin_congr h,
    constructInstance_congr h]

theorem failsInSort_congr (h : DisabledAlike ini eval eval') (purpose : String) (fuel : Nat) :
    failsInSort ini eval purpose fuel = failsInSort ini eval' purpose fuel := by
  unfold failsInSort topologicalSort
  rw [findEnabledBuiltinPlugin_congr h, findEnabledBuiltinPlugin_congr h,
    constructInstance_congr h]

theorem preparePipeline_congr {env env' : Env}
    (h : ∀ name, ini.Mentions name → env.findValue name = env'.findValue name)
    (preDelay : Int → Int) (fuel : Nat) (sampleRate : Int) (purpose : String) :
    preparePipeline preDelay fuel ini env sampleRate purpose =
      preparePipeline preDelay fuel ini env' sampleRate purpose := by
  unfold preparePipeline
  rw [pipelineCreate_congr (disabledAlike_of_variables h),
    failsInSort_congr (disabledAlike_of_variables h)]

end Create

/-! ## Calls that set another variable -/

/-- Contexts that differ at most in the value of a variable. -/
structure Context.SameBut {π : Type} (x : List Char) (c c' : Context π) : Prop where
  id : c.id = c'.id
  pipeline : c.pipeline = c'.pipeline
  sampleRate : c.sampleRate = c'.sampleRate
  purpose : c.purpose = c'.purpose
  env : ∀ name, name ≠ x → c.env.findValue name = c'.env.findValue name

/-- The state differs at most in the values of a variable that the ini does not mention. -/
structure DspValues.SameBut (x : List Char) (v v' : DspValues F) : Prop where
  filename : v.filename = v'.filename
  ini : v.ini = v'.ini
  created : v.created = v'.created
  leaked : v.leaked = v'.leaked
  unmentioned : ∀ ini, v.ini = some ini → ¬ ini.Mentions x
  contexts : List.Forall₂ (Context.SameBut x) v.contexts v'.contexts

section Lookup

variable {π : Type} {x : List Char} {l l' : List (Context π)}

theorem findContext_cons (c : Context π) (l : List (Context π)) (ctx : Nat) :
    findContext (c :: l) ctx = if c.id = ctx then some c else findContext l ctx := by
  unfold findContext
  rw [List.find?_cons]
  by_cases hid : c.id = ctx
  · rw [if_pos hid, beq_iff_eq.mpr hid]
  · rw [if_neg hid, beq_eq_false_iff_ne.mpr hid]

/-- Both find a context, or neither does. -/
theorem findContext_sameBut (h : List.Forall₂ (Context.SameBut x) l l') (ctx : Nat) :
    (findContext l ctx = none ∧ findContext l' ctx = none) ∨
      ∃ c c', findContext l ctx = some c ∧ findContext l' ctx = some c' ∧ c.SameBut x c' := by
  induction h with
  | nil => exact Or.inl ⟨rfl, rfl⟩
  | @cons c c' l l' hc _ ih =>
      rw [findContext_cons, findContext_cons, ← hc.id]
      split
      · exact Or.inr ⟨c, c', rfl, rfl, hc⟩
      · exact ih

theorem updateContext_sameBut (h : List.Forall₂ (Context.SameBut x) l l') (ctx : Nat)
    {f g : Context π → Context π}
    (hupdate : ∀ c c', c.SameBut x c' → (f c).SameBut x (g c')) :
    List.Forall₂ (Context.SameBut x) (updateContext l ctx f) (updateContext l' ctx g) := by
  induction h with
  | nil => exact .nil
  | @cons c c' l l' hc _ ih =>
      refine .cons ?_ ih
      dsimp only
      rw [← hc.id]
      split
      · exact hupdate c c' hc
      · exact hc

theorem filter_sameBut (h : List.Forall₂ (Context.SameBut x) l l') (ctx : Nat) :
    List.Forall₂ (Context.SameBut x) (l.filter fun c => c.id != ctx)
      (l'.filter fun c => c.id != ctx) := by
  induction h with
  | nil => exact .nil
  | @cons c c' l l' hc _ ih =>
      by_cases hid : c.id = ctx
      · rw [List.filter_cons_of_neg (by simp [hid]),
          List.filter_cons_of_neg (by simp [← hc.id, hid])]
        exact ih
      · rw [List.filter_cons_of_pos (by simp [hid]),
          List.filter_cons_of_pos (by simp [← hc.id, hid])]
        exact .cons hc ih

theorem loaded_sameBut (h : List.Forall₂ (Context.SameBut x) l l') :
    l.map (fun c => (c.id, c.pipeline)) = l'.map fun c => (c.id, c.pipeline) := by
  induction h with
  | nil => rfl
  | cons hc _ ih => rw [List.map_cons, List.map_cons, hc.id, hc.pipeline, ih]

end Lookup

section Runs

variable {x : List Char} {v v' : DspValues F}

theorem not_mentions_of_none : ∀ ini : Ini F Expression, none = some ini → ¬ ini.Mentions x := by
  intro ini hnone
  cases hnone

theorem DspValues.SameBut.stop (h : v.SameBut x v') :
    v.stop.Agree (DspValues.SameBut x) v'.stop := by
  unfold DspValues.stop
  rw [← h.filename]
  cases v.filename with
  | freed => exact .fault
  | null => exact .done ⟨rfl, rfl, h.created, h.leaked, not_mentions_of_none, h.contexts⟩
  | held => exact .done ⟨rfl, rfl, h.created, h.leaked, not_mentions_of_none, h.contexts⟩

theorem DspValues.SameBut.setVariable (h : v.SameBut x v') (ctx : Nat) (key value : List Char) :
    (v.setVariable ctx key value).Agree (DspValues.SameBut x) (v'.setVariable ctx key value) := by
  unfold DspValues.setVariable
  rcases findContext_sameBut h.contexts ctx with ⟨hfind, hfind'⟩ | ⟨c, c', hfind, hfind', -⟩
  · rw [hfind, hfind']
    exact .fault
  · rw [hfind, hfind']
    refine .done ⟨h.filename, h.ini, h.created, h.leaked, h.unmentioned,
      updateContext_sameBut h.contexts ctx fun c c' hc =>
        ⟨hc.id, hc.pipeline, hc.sampleRate, hc.purpose, fun name hname => ?_⟩⟩
    rw [Env.findValue_setVariable, Env.findValue_setVariable, hc.env name hname]

theorem DspValues.SameBut.apply (h : v.SameBut x v') (ctx : Nat) :
    (v.apply ctx).Agree (DspValues.SameBut x) (v'.apply ctx) := by
  unfold DspValues.apply
  rcases findContext_sameBut h.contexts ctx with ⟨hfind, hfind'⟩ | ⟨c, c', hfind, hfind', -⟩
  · rw [hfind, hfind']
    exact .fault
  · rw [hfind, hfind']
    exact .done h

theorem DspValues.SameBut.contextFree (h : v.SameBut x v') (ctx : Nat) :
    (v.contextFree ctx).Agree (DspValues.SameBut x) (v'.contextFree ctx) := by
  unfold DspValues.contextFree
  rcases findContext_sameBut h.contexts ctx with ⟨hfind, hfind'⟩ | ⟨c, c', hfind, hfind', -⟩
  · rw [hfind, hfind']
    exact .fault
  · rw [hfind, hfind']
    exact .done ⟨h.filename, h.ini, h.created, h.leaked, h.unmentioned,
      filter_sameBut h.contexts ctx⟩

theorem DspValues.SameBut.prepare (h : v.SameBut x v') {c c' : Context (LoadedPipeline F)}
    (hc : c.SameBut x c') (preDelay : Int → Int) (fuel : Nat) :
    v.prepare preDelay fuel c = v'.prepare preDelay fuel c' := by
  unfold DspValues.prepare
  rw [← h.ini, ← h.leaked, ← hc.sampleRate, ← hc.purpose]
  cases hini : v.ini with
  | none => rfl
  | some ini =>
      dsimp only
      rw [preparePipeline_congr fun name hname => hc.env name ?_]
      intro heq
      rw [heq] at hname
      exact h.unmentioned ini hini hname

theorem DspValues.SameBut.loadPipeline (h : v.SameBut x v') (preDelay : Int → Int)
    (fuel ctx : Nat) : (v.loadPipeline preDelay fuel ctx).Agree (DspValues.SameBut x)
      (v'.loadPipeline preDelay fuel ctx) := by
  unfold DspValues.loadPipeline
  rcases findContext_sameBut h.contexts ctx with ⟨hfind, hfind'⟩ | ⟨c, c', hfind, hfind', hc⟩
  · rw [hfind, hfind']
    exact .fault
  · rw [hfind, hfind']
    dsimp only
    rw [h.prepare hc]
    apply Outcome.Agree.bind (R := Eq) (Outcome.Agree.refl_of fun _ _ => rfl)
    rintro r _ rfl
    exact .done ⟨h.filename, h.ini, h.created, rfl, h.unmentioned,
      updateContext_sameBut h.contexts ctx fun c c' hc =>
        ⟨hc.id, rfl, hc.sampleRate, hc.purpose, hc.env⟩⟩

variable [Zero F] {strtof : List Char → F} {preDelay : Int → Int} {fuel : Nat}

theorem DspValues.SameBut.reloadIni (h : v.SameBut x v') {file : Option (List Char)}
    (hfile : ∀ ini : Ini F Expression, createIni strtof file = .done ini → ¬ ini.Mentions x) :
    (v.reloadIni strtof preDelay fuel file).Agree (DspValues.SameBut x)
      (v'.reloadIni strtof preDelay fuel file) := by
  unfold DspValues.reloadIni
  rw [← h.filename]
  by_cases hheld : v.filename = .held
  · rw [if_pos hheld, if_pos hheld]
    have hread : (v.readIni strtof file).Agree (DspValues.SameBut x) (v'.readIni strtof file) := by
      unfold DspValues.readIni
      cases hini : createIni strtof file with
      | fault => exact .fault
      | running => exact .running
      | failed =>
          exact .done ⟨h.filename, rfl, h.created, h.leaked, not_mentions_of_none, h.contexts⟩
      | done ini =>
          refine .done ⟨h.filename, rfl, h.created, h.leaked, fun ini' hsome => ?_, h.contexts⟩
          cases hsome
          exact hfile ini hini
    refine hread.bind fun read read' hsame => ?_
    have hids : read.contexts.map (·.id) = read'.contexts.map (·.id) := by
      have hloaded := congrArg (List.map Prod.fst) (loaded_sameBut hsame.contexts)
      rw [List.map_map, List.map_map] at hloaded
      exact hloaded
    rw [hids]
    exact Outcome.Agree.run (fun ctx _ _ hloaded => hloaded.loadPipeline preDelay fuel ctx) _ hsame
  · rw [if_neg hheld, if_neg hheld]
    exact .fault

/-- The call sets the variable. -/
def Call.sets (x : List Char) : Call → Bool
  | .setVariable _ key _ => key == x
  | _ => false

/-- The ini of a file that the call reads does not mention the variable. -/
def Call.ReadsUnmentioned (strtof : List Char → F) (x : List Char) : Call → Prop
  | .init file | .reloadIni file =>
      ∀ ini : Ini F Expression, createIni strtof file = .done ini → ¬ ini.Mentions x
  | _ => True

/-- A call that both make. -/
theorem DspValues.SameBut.call (h : v.SameBut x v') {call : Call}
    (hreads : call.ReadsUnmentioned strtof x) :
    (v.call strtof preDelay fuel call).Agree (DspValues.SameBut x)
      (v'.call strtof preDelay fuel call) := by
  cases call with
  | init file =>
      have hheld : DspValues.SameBut x { v with filename := .held } { v' with filename := .held } :=
        ⟨rfl, h.ini, h.created, h.leaked, h.unmentioned, h.contexts⟩
      exact hheld.reloadIni hreads
  | reloadIni file => exact h.reloadIni hreads
  | stop => exact h.stop
  | contextNew sampleRate purpose =>
      refine .done ⟨h.filename, h.ini, congrArg (· + 1) h.created, h.leaked, h.unmentioned, ?_⟩
      exact List.rel_append h.contexts (.cons ⟨h.created, rfl, rfl, rfl, fun _ _ => rfl⟩ .nil)
  | setVariable ctx key value => exact h.setVariable ctx key value
  | loadPipeline ctx => exact h.loadPipeline preDelay fuel ctx
  | apply ctx => exact h.apply ctx
  | contextFree ctx => exact h.contextFree ctx

/-- A call that is left out. -/
theorem DspValues.SameBut.skip (h : v.SameBut x v') {call : Call} (hsets : call.sets x = true)
    {next : DspValues F} (hnext : v.call strtof preDelay fuel call = .done next) :
    next.SameBut x v' := by
  cases call with
  | setVariable ctx key value =>
      change v.setVariable ctx key value = .done next at hnext
      unfold DspValues.setVariable at hnext
      cases hfind : findContext v.contexts ctx with
      | none =>
          rw [hfind] at hnext
          cases hnext
      | some c =>
          rw [hfind] at hnext
          cases hnext
          refine ⟨h.filename, h.ini, h.created, h.leaked, h.unmentioned, ?_⟩
          have hkept := updateContext_sameBut h.contexts ctx
            (f := fun c => { c with env := c.env.setVariable key (.string value) }) (g := id)
            fun c c' hc => ⟨hc.id, hc.pipeline, hc.sampleRate, hc.purpose, fun name hname => by
              rw [Env.findValue_setVariable, if_neg, hc.env name hname]
              · rfl
              · rw [beq_iff_eq.mp hsets]
                exact hname⟩
          rw [show updateContext v'.contexts ctx id = v'.contexts from ?_] at hkept
          · exact hkept
          · exact (List.map_congr_left fun c _ => ite_self _).trans (List.map_id _)
  | init file => cases hsets
  | reloadIni file => cases hsets
  | stop => cases hsets
  | contextNew sampleRate purpose => cases hsets
  | loadPipeline ctx => cases hsets
  | apply ctx => cases hsets
  | contextFree ctx => cases hsets

theorem DspValues.SameBut.run {calls : List Call}
    (hreads : ∀ call ∈ calls, call.ReadsUnmentioned strtof x) {last : DspValues F} :
    ∀ {v v' : DspValues F}, v.SameBut x v' →
      foldOutcome (fun call v => DspValues.call strtof preDelay fuel v call) calls v = .done last →
      ∃ last', foldOutcome (fun call v => DspValues.call strtof preDelay fuel v call)
        (calls.filter fun call => !call.sets x) v' = .done last' ∧ last.SameBut x last' := by
  induction calls with
  | nil =>
      intro v v' h hrun
      cases hrun
      exact ⟨v', rfl, h⟩
  | cons call calls ih =>
      intro v v' h hrun
      obtain ⟨hcall, hcalls⟩ := List.forall_mem_cons.mp hreads
      obtain ⟨next, hnext, hrest⟩ := Outcome.bind_eq_done hrun
      cases hsets : call.sets x with
      | true =>
          rw [List.filter_cons_of_neg (by simp [hsets])]
          exact ih hcalls (h.skip hsets hnext) hrest
      | false =>
          rw [List.filter_cons_of_pos (by simp [hsets]), foldOutcome]
          have hstep := @DspValues.SameBut.call F x v v' _ strtof preDelay fuel h call hcall
          rw [show v.call strtof preDelay fuel call = .done next from hnext] at hstep
          obtain ⟨next', hnext', hsame⟩ := hstep.of_done
          rw [hnext']
          exact ih hcalls hsame hrest

/-- The contexts, each with its pipeline. -/
def DspState.loaded (dsp : DspState F) : List (Nat × Option (LoadedPipeline F)) :=
  dsp.values.contexts.map fun c => (c.id, c.pipeline)

/-- Calls that set a variable that no file mentions can be left out of a run: it ends as well,
and its contexts hold the same pipelines. -/
theorem unmentioned_variable {calls : List Call}
    (hreads : ∀ call ∈ calls, call.ReadsUnmentioned strtof x) {dsp : DspState F}
    (hrun : DspState.run strtof preDelay fuel calls = .done dsp) :
    ∃ dsp', DspState.run strtof preDelay fuel (calls.filter fun call => !call.sets x) =
        .done dsp' ∧ dsp'.loaded = dsp.loaded := by
  have hrefines : ∀ calls : List Call, (DspState.run strtof preDelay fuel calls).Agree
      (fun dsp v => dsp.Tidy ∧ dsp.values = v) (DspValues.run strtof preDelay fuel calls) := by
    refine fun calls => Outcome.Agree.run ?_ calls ⟨DspState.tidy_start, rfl⟩
    rintro call dsp _ ⟨h, rfl⟩
    exact h.call strtof preDelay fuel call
  have hfull := hrefines calls
  rw [hrun] at hfull
  obtain ⟨v, hv, -, rfl⟩ := hfull.of_done
  have hstart : (DspValues.start : DspValues F).SameBut x .start :=
    ⟨rfl, rfl, rfl, rfl, not_mentions_of_none, .nil⟩
  obtain ⟨v', hv', hsame⟩ := hstart.run hreads hv
  have hless := hrefines (calls.filter fun call => !call.sets x)
  rw [DspValues.run, hv'] at hless
  obtain ⟨dsp', hdsp', -, rfl⟩ := hless.of_done_right
  exact ⟨dsp', hdsp', (loaded_sameBut hsame.contexts).symm⟩

end Runs

/-- A pipeline from a source to a sink, unless the dsp is switched off. -/
def switchedFile : List Char :=
  terminate '\n' ["[in]".toList, "library=builtin".toList, "label=source".toList,
    "purpose=playback".toList, "disable=(equal? dsp_name \"off\")".toList,
    "output_0=\x7bx\x7d".toList, "[out]".toList, "library=builtin".toList, "label=sink".toList,
    "purpose=playback".toList, "input_0=\x7bx\x7d".toList]

def volumeCalls : List Call :=
  [.init (some switchedFile), .contextNew 48000 "playback", .setVariable 0 "volume".toList ['1'],
    .loadPipeline 0]

theorem volumeCalls_readsUnmentioned :
    ∀ call ∈ volumeCalls, call.ReadsUnmentioned (fun _ => (0 : Int)) "volume".toList := by
  obtain ⟨ini, hini, hnot⟩ : ∃ ini : Ini Int Expression,
      createIni (fun _ => 0) (some switchedFile) = .done ini ∧
        decide (¬ ini.Mentions "volume".toList) = true :=
    Outcome.exists_of_check (by decide +kernel)
  refine List.forall_mem_cons.mpr ⟨fun ini' hini' => ?_, ?_⟩
  · rw [hini] at hini'
    cases hini'
    exact of_decide_eq_true hnot
  · exact List.forall_mem_cons.mpr ⟨trivial, List.forall_mem_cons.mpr ⟨trivial,
      List.forall_mem_cons.mpr ⟨trivial, List.forall_mem_nil _⟩⟩⟩

/-- The volume makes no difference to the pipeline that is loaded. -/
theorem unmentioned_variable_volume :
    ∃ dsp dsp' : DspState Int, DspState.run (fun _ => 0) id 10 volumeCalls = .done dsp ∧
      DspState.run (fun _ => 0) id 10 (volumeCalls.filter fun call =>
        !call.sets "volume".toList) = .done dsp' ∧ dsp'.loaded = dsp.loaded ∧
      dsp.loaded.map (fun c => (c.1, c.2.isSome)) = [(0, true)] := by
  obtain ⟨dsp, hrun, hloaded⟩ : ∃ dsp : DspState Int,
      DspState.run (fun _ => 0) id 10 volumeCalls = .done dsp ∧
        (dsp.loaded.map (fun c => (c.1, c.2.isSome)) == [(0, true)]) = true :=
    Outcome.exists_of_check (by decide +kernel)
  obtain ⟨dsp', hrun', hsame⟩ := unmentioned_variable volumeCalls_readsUnmentioned hrun
  exact ⟨dsp, dsp', hrun, hrun', hsame, beq_iff_eq.mp hloaded⟩

end DragonDevice.Dsp
