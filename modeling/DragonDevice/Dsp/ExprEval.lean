/-
  Dsp/ExprEval.lean --- the evaluator of `cras_expr.c`, and what disable expressions say.

  A compound expression evaluates all of its parts in order and calls the first of them, with
  all the values as operands, itself among them.  A name stands once in an environment.  Copies
  of values are the values.  The formulas below are what the expressions of an ini file are meant
  to be: the text of a formula is read, and evaluated to its truth.
-/
import DragonDevice.Dsp.ExprGrammar
import DragonDevice.Lib.SlotTable

set_option autoImplicit false

namespace DragonDevice.Dsp

open DragonDevice.Lib

/-! ## Values and environments -/

/-- A pointer to one of the builtin functions. -/
inductive Builtin where
  | not
  | and
  | or
  | equal
  deriving DecidableEq, Repr

/-- `struct cras_expr_value` -/
inductive Value where
  | none
  | boolean (b : Bool)
  | integer (n : Int)
  | string (str : List Char)
  | function (f : Builtin)
  deriving DecidableEq, Repr

/-- `struct cras_expr_env`, with its two arrays beside each other. -/
structure Env where
  entries : List (List Char × Value)
  distinct : (entries.map Prod.fst).Nodup

namespace Env

/-- `CRAS_EXPR_ENV_INIT` -/
def init : Env := ⟨[], List.nodup_nil⟩

/-- `find_value` -/
def findValue (env : Env) (name : List Char) : Option Value := List.lookup name env.entries

/-- `find_or_insert_value`, and the value that is put there. -/
def setVariable (env : Env) (name : List Char) (value : Value) : Env :=
  ⟨SlotTable.upsert env.entries name value, SlotTable.nodup_upsert env.distinct name value⟩

def nameNot : List Char := "not".toList

def nameAnd : List Char := "and".toList

def nameOr : List Char := "or".toList

def nameEqual : List Char := "equal?".toList

/-- `cras_expr_env_install_builtins` -/
def installBuiltins (env : Env) : Env :=
  (((env.setVariable nameNot (.function .not)).setVariable nameAnd (.function .and)).setVariable
    nameOr (.function .or)).setVariable nameEqual (.function .equal)

end Env

/-! ## Functions -/

/-- `function_not` -/
def functionNot (operands : List Value) : Value :=
  match operands with
  | [_, value] => .boolean (value = .boolean false)
  | _ => .none

/-- `function_and` -/
def functionAnd (operands : List Value) : Value :=
  if operands.length ≤ 1 then .boolean true
  else if operands.tail.any fun value => value = .boolean false then .boolean false
  else operands.getLastD .none

/-- `function_or` -/
def functionOr (operands : List Value) : Value :=
  (operands.tail.find? fun value => !decide (value = .boolean false)).getD (.boolean false)

/-- The loop of `function_equal_real`: each operand is compared with the one before. -/
def allEqual : List Value → Bool
  | prev :: value :: rest => decide (prev = value) && allEqual (value :: rest)
  | _ => true

/-- `function_equal` -/
def functionEqual (operands : List Value) : Value := .boolean (allEqual operands.tail)

def Builtin.call : Builtin → List Value → Value
  | .not => functionNot
  | .and => functionAnd
  | .or => functionOr
  | .equal => functionEqual

/-- The call of the first value. -/
def callFirst (values : List Value) : Value :=
  match values with
  | .function f :: _ => f.call values
  | _ => .none

/-! ## Evaluation -/

mutual

/-- `cras_expr_expression_eval` -/
def Expression.eval (env : Env) : Expression → Value
  | .boolean value => .boolean value
  | .integer n => .integer n
  | .string str => .string str
  | .variable name => (env.findValue name).getD .none
  | .compound children => callFirst (evalAll env children)

/-- Its loop over the parts of a compound expression. -/
def evalAll (env : Env) : List Expression → List Value
  | [] => []
  | expr :: children => expr.eval env :: evalAll env children

end

/-- `cras_expr_expression_eval_boolean` -/
def Expression.evalBoolean (env : Env) (expr : Expression) : Option Bool :=
  match expr.eval env with
  | .boolean b => some b
  | _ => none

/-- `cras_expr_expression_eval_int` -/
def Expression.evalInt (env : Env) (expr : Expression) : Option Int :=
  match expr.eval env with
  | .integer n => some n
  | _ => none

/-! ## What an environment says -/

namespace Env

theorem findValue_setVariable (env : Env) (name : List Char) (value : Value) (k : List Char) :
    (env.setVariable name value).findValue k = if k = name then some value else env.findValue k :=
  SlotTable.lookup_upsert env.entries name value k

end Env

/-! ## Formulas -/

/-- What `equal?` compares. -/
inductive Term where
  | integer (n : Int)
  | string (str : List Char)
  | variable (name : List Char)

/-- What a disable expression says of the variables. -/
inductive Formula where
  | constant (b : Bool)
  | variable (name : List Char)
  | not (f : Formula)
  | all (fs : List Formula)
  | any (fs : List Formula)
  | same (ts : List Term)

/-- The values of variables. -/
abbrev Valuation : Type := List Char → Option Value

def Term.value (ρ : Valuation) : Term → Value
  | .integer n => .integer n
  | .string str => .string str
  | .variable name => (ρ name).getD .none

mutual

/-- The truth of a formula. -/
def Formula.holds (ρ : Valuation) : Formula → Bool
  | .constant b => b
  | .variable name => decide (ρ name = some (.boolean true))
  | .not f => !f.holds ρ
  | .all fs => (truths ρ fs).all id
  | .any fs => (truths ρ fs).any id
  | .same ts => ts.all fun t => ts.all fun t' => decide (t.value ρ = t'.value ρ)

def truths (ρ : Valuation) : List Formula → List Bool
  | [] => []
  | f :: fs => f.holds ρ :: truths ρ fs

end

mutual

/-- Variables that stand for a truth have one. -/
def Formula.WellTyped (ρ : Valuation) : Formula → Prop
  | .variable name => ∃ b, ρ name = some (.boolean b)
  | .not f => f.WellTyped ρ
  | .all fs => AllWellTyped ρ fs
  | .any fs => AllWellTyped ρ fs
  | _ => True

def AllWellTyped (ρ : Valuation) : List Formula → Prop
  | [] => True
  | f :: fs => f.WellTyped ρ ∧ AllWellTyped ρ fs

end

def Term.expression : Term → Expression
  | .integer n => .integer n
  | .string str => .string str
  | .variable name => .variable name

mutual

/-- The expression for a formula. -/
def Formula.expression : Formula → Expression
  | .constant b => .boolean b
  | .variable name => .variable name
  | .not f => .compound [.variable Env.nameNot, f.expression]
  | .all fs => .compound (.variable Env.nameAnd :: expressions fs)
  | .any fs => .compound (.variable Env.nameOr :: expressions fs)
  | .same ts => .compound (.variable Env.nameEqual :: ts.map Term.expression)

def expressions : List Formula → List Expression
  | [] => []
  | f :: fs => f.expression :: expressions fs

end

/-! ## Functions on truths -/

theorem functionAnd_truths (f : Value) (bs : List Bool) :
    functionAnd (f :: bs.map .boolean) = .boolean (bs.all id) := by
  unfold functionAnd
  cases hbs : bs.all id with
  | true =>
      have htrue : ∀ b ∈ bs, b = true := List.all_eq_true.mp hbs
      have hany : ((bs.map Value.boolean).any fun value => value = .boolean false) = false := by
        rw [List.any_map, List.any_eq_false]
        intro b hb
        rw [htrue b hb]
        decide
      cases hlast : bs.getLast? with
      | none =>
          rw [List.getLast?_eq_none_iff.mp hlast]
          rfl
      | some b =>
          have hb := htrue b (List.mem_of_getLast? hlast)
          have hlen : ¬ (f :: bs.map Value.boolean).length ≤ 1 := by
            have hpos := List.length_pos_of_mem (List.mem_of_getLast? hlast)
            rw [List.length_cons, List.length_map]
            omega
          rw [if_neg hlen, List.tail_cons, hany]
          obtain ⟨front, rfl⟩ := List.getLast?_eq_some_iff.mp hlast
          rw [List.map_append, List.map_singleton, ← List.cons_append, List.getLastD_concat, hb]
          rfl
  | false =>
      obtain ⟨b, hb, hfalse⟩ := List.all_eq_false.mp hbs
      have hb' : b = false := by simpa using hfalse
      subst hb'
      have hlen : ¬ (f :: bs.map Value.boolean).length ≤ 1 := by
        have hpos := List.length_pos_of_mem hb
        rw [List.length_cons, List.length_map]
        omega
      have hany : ((bs.map Value.boolean).any fun value => value = .boolean false) = true :=
        List.any_eq_true.mpr ⟨_, List.mem_map_of_mem hb, rfl⟩
      rw [if_neg hlen, List.tail_cons, hany]
      rfl

theorem functionOr_truths (f : Value) (bs : List Bool) :
    functionOr (f :: bs.map .boolean) = .boolean (bs.any id) := by
  unfold functionOr
  rw [List.tail_cons]
  induction bs with
  | nil => rfl
  | cons b bs ih =>
      rw [List.map_cons, List.find?_cons, List.any_cons]
      cases b with
      | true => rfl
      | false => exact ih

/-- Neighbours are equal when all are. -/
theorem allEqual_iff (values : List Value) :
    allEqual values = true ↔ ∀ a ∈ values, ∀ b ∈ values, a = b := by
  induction values with
  | nil => simp [allEqual]
  | cons a values ih =>
      cases values with
      | nil => simp [allEqual]
      | cons b rest =>
          rw [allEqual, Bool.and_eq_true, decide_eq_true_iff, ih]
          constructor
          · rintro ⟨rfl, hrest⟩
            exact List.forall_mem_cons.mpr
              ⟨List.forall_mem_cons.mpr ⟨rfl, hrest a List.mem_cons_self⟩, fun c hc =>
                List.forall_mem_cons.mpr ⟨hrest c hc a List.mem_cons_self, hrest c hc⟩⟩
          · intro hall
            exact ⟨hall a List.mem_cons_self b (List.mem_cons_of_mem a List.mem_cons_self),
              fun c hc d hd => hall c (List.mem_cons_of_mem a hc) d (List.mem_cons_of_mem a hd)⟩

/-! ## Formulas are evaluated to their truth -/

namespace Env

/-- The names of the builtin functions have their functions. -/
structure HasBuiltins (env : Env) : Prop where
  not : env.findValue nameNot = some (.function .not)
  and : env.findValue nameAnd = some (.function .and)
  or : env.findValue nameOr = some (.function .or)
  equal : env.findValue nameEqual = some (.function .equal)

theorem hasBuiltins_install (env : Env) : env.installBuiltins.HasBuiltins := by
  unfold installBuiltins
  constructor <;> simp only [findValue_setVariable] <;> rfl

/-- The names of the builtin functions. -/
def builtinNames : List (List Char) := [nameNot, nameAnd, nameOr, nameEqual]

theorem HasBuiltins.setVariable {env : Env} (h : env.HasBuiltins) {name : List Char}
    (hname : name ∉ builtinNames) (value : Value) : (env.setVariable name value).HasBuiltins := by
  unfold builtinNames at hname
  simp only [List.mem_cons, List.not_mem_nil, or_false, not_or] at hname
  obtain ⟨hnot, hand, hor, hequal⟩ := hname
  constructor
  · rw [findValue_setVariable, if_neg (Ne.symm hnot), h.not]
  · rw [findValue_setVariable, if_neg (Ne.symm hand), h.and]
  · rw [findValue_setVariable, if_neg (Ne.symm hor), h.or]
  · rw [findValue_setVariable, if_neg (Ne.symm hequal), h.equal]

end Env

section Eval

variable {env : Env}

theorem eval_compound {name : List Char} {f : Builtin}
    (hname : env.findValue name = some (.function f)) (children : List Expression) :
    (Expression.compound (.variable name :: children)).eval env =
      f.call (.function f :: evalAll env children) := by
  rw [Expression.eval, evalAll, Expression.eval, hname]
  rfl

theorem evalAll_terms (ts : List Term) :
    evalAll env (ts.map Term.expression) = ts.map (Term.value env.findValue) := by
  induction ts with
  | nil => rfl
  | cons t ts ih =>
      rw [List.map_cons, evalAll, ih, List.map_cons]
      congr 1
      cases t <;> rfl

theorem functionEqual_terms (ρ : Valuation) (f : Value) (ts : List Term) :
    functionEqual (f :: ts.map (Term.value ρ)) = .boolean ((Formula.same ts).holds ρ) := by
  unfold functionEqual
  congr 1
  rw [List.tail_cons, Bool.eq_iff_iff, allEqual_iff, Formula.holds]
  simp

mutual

/-- The expression for a formula is evaluated to its truth. -/
theorem eval_expression (hbuiltins : env.HasBuiltins) : ∀ f : Formula, f.WellTyped env.findValue →
    f.expression.eval env = .boolean (f.holds env.findValue)
  | .constant b, _ => rfl
  | .variable name, h => by
      obtain ⟨b, hb⟩ := h
      rw [Formula.expression, Expression.eval, Formula.holds, hb]
      cases b <;> rfl
  | .not f, h => by
      rw [Formula.expression, eval_compound hbuiltins.not, evalAll, evalAll,
        eval_expression hbuiltins f h, Formula.holds]
      cases f.holds env.findValue <;> rfl
  | .all fs, h => by
      rw [Formula.expression, eval_compound hbuiltins.and, evalAll_expressions hbuiltins fs h,
        Formula.holds]
      exact functionAnd_truths _ _
  | .any fs, h => by
      rw [Formula.expression, eval_compound hbuiltins.or, evalAll_expressions hbuiltins fs h,
        Formula.holds]
      exact functionOr_truths _ _
  | .same ts, _ => by
      rw [Formula.expression, eval_compound hbuiltins.equal, evalAll_terms]
      exact functionEqual_terms _ _ ts

theorem evalAll_expressions (hbuiltins : env.HasBuiltins) : ∀ fs : List Formula,
    AllWellTyped env.findValue fs →
    evalAll env (expressions fs) = (truths env.findValue fs).map .boolean
  | [], _ => rfl
  | f :: fs, h => by
      rw [expressions, evalAll, eval_expression hbuiltins f h.1,
        evalAll_expressions hbuiltins fs h.2, truths, List.map_cons]

end

end Eval

/-! ## Runs of settings -/

namespace Env

/-- Variables that are set one after the other. -/
def setAll (env : Env) (sets : List (List Char × Value)) : Env :=
  sets.foldl (fun env s => env.setVariable s.1 s.2) env

theorem findValue_setAll (env : Env) (sets : List (List Char × Value)) (name : List Char) :
    (env.setAll sets).findValue name = (List.lookup name sets.reverse).or (env.findValue name) := by
  induction sets generalizing env with
  | nil => rfl
  | cons s sets ih =>
      have hstep : env.setAll (s :: sets) = (env.setVariable s.1 s.2).setAll sets := rfl
      rw [hstep, ih, findValue_setVariable, List.reverse_cons, List.lookup_append, Option.or_assoc]
      congr 1
      by_cases hname : name = s.1
      · rw [if_pos hname, hname, List.lookup_cons_self]
        rfl
      · rw [if_neg hname, SlotTable.lookup_cons_of_ne hname, List.lookup_nil, Option.none_or]

theorem HasBuiltins.setAll {env : Env} (h : env.HasBuiltins) {sets : List (List Char × Value)}
    (hnames : ∀ s ∈ sets, s.1 ∉ builtinNames) : (env.setAll sets).HasBuiltins := by
  induction sets generalizing env with
  | nil => exact h
  | cons s sets ih =>
      obtain ⟨hs, hsets⟩ := List.forall_mem_cons.mp hnames
      exact ih (h.setVariable hs s.2) hsets

end Env

/-! ## From the text to the truth -/

/-- An expression in print is read as it is. -/
theorem parse_print {expr : Expression} (h : expr.Printable) :
    crasExprExpressionParse expr.print = some (some expr) := by
  have hclosed : expr.continuedBy [] = false := by
    cases expr <;> simp [Expression.continuedBy, startsWithDigit, startsWithIdentifierChar]
  have hparses : Parses (enoughDepth expr.print) (expr.print ++ []) (.one expr) [] :=
    ((printed_print expr).reads h [] hclosed).parses _
      (by rw [List.append_nil]; exact Nat.le_refl _)
  rw [List.append_nil] at hparses
  unfold crasExprExpressionParse
  rw [show parseOneExpr (enoughDepth expr.print) expr.print = some (some expr, []) from hparses]
  rfl

/-- In every environment with the builtin functions and any run of settings that spares their
names, the text of a formula is read, and evaluated to the formula's truth for the last value of
each variable. -/
theorem formula_text_evaluates (f : Formula) (sets : List (List Char × Value))
    (hnames : ∀ s ∈ sets, s.1 ∉ Env.builtinNames)
    (htyped : f.WellTyped fun name => (List.lookup name sets.reverse).or
      (Env.init.installBuiltins.findValue name))
    (hprint : f.expression.Printable) :
    ∃ expr, crasExprExpressionParse f.expression.print = some (some expr) ∧
      expr.evalBoolean (Env.init.installBuiltins.setAll sets) =
        some (f.holds fun name => (List.lookup name sets.reverse).or
          (Env.init.installBuiltins.findValue name)) := by
  have hbuiltins := (Env.hasBuiltins_install Env.init).setAll hnames
  have hvalues : (Env.init.installBuiltins.setAll sets).findValue = fun name =>
      (List.lookup name sets.reverse).or (Env.init.installBuiltins.findValue name) :=
    funext fun name => Env.findValue_setAll _ sets name
  rw [← hvalues] at htyped ⊢
  refine ⟨f.expression, parse_print hprint, ?_⟩
  unfold Expression.evalBoolean
  rw [eval_expression hbuiltins f htyped]

/-- `(and (not (equal? dsp_name "speaker_eq" ) ) swap )`, where the name is set twice. -/
theorem formula_text_evaluates_speaker :
    ∃ expr, crasExprExpressionParse
        "(and (not (equal? dsp_name \"speaker_eq\" ) ) swap )".toList = some (some expr) ∧
      expr.evalBoolean (Env.init.installBuiltins.setAll
        [("dsp_name".toList, .string "speaker_eq".toList), ("swap".toList, .boolean true),
          ("dsp_name".toList, .string "hp_eq".toList)]) = some true := by
  have hname : Expression.Printable (.variable "dsp_name".toList) := by
    exact ⟨by decide, List.all_eq_true.mp rfl⟩
  have hswap : Expression.Printable (.variable "swap".toList) := by
    exact ⟨by decide, List.all_eq_true.mp rfl⟩
  have hand : Expression.Printable (.variable Env.nameAnd) := ⟨by decide, List.all_eq_true.mp rfl⟩
  have hnot : Expression.Printable (.variable Env.nameNot) := ⟨by decide, List.all_eq_true.mp rfl⟩
  have hequal : Expression.Printable (.variable Env.nameEqual) :=
    ⟨by decide, List.all_eq_true.mp rfl⟩
  have hstring : Expression.Printable (.string "speaker_eq".toList) := ⟨by decide, by decide⟩
  exact formula_text_evaluates
    (.all [.not (.same [.variable "dsp_name".toList, .string "speaker_eq".toList]),
      .variable "swap".toList])
    [("dsp_name".toList, .string "speaker_eq".toList), ("swap".toList, .boolean true),
      ("dsp_name".toList, .string "hp_eq".toList)]
    (by decide) ⟨trivial, ⟨true, by decide⟩, trivial⟩
    ⟨hand, ⟨hnot, ⟨hequal, hname, hstring, trivial⟩, trivial⟩, hswap, trivial⟩

end DragonDevice.Dsp
