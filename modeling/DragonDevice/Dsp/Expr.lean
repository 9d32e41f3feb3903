/-
  Dsp/Expr.lean --- the parser of `cras_expr.c`, which reads the disable expressions of
  plugins.

  `parse_one_expr` moves a position through the text; here it returns what is left, also
  when it returns `NULL`.  A text is a list of characters, with the NUL behind its end.
  The recursion has a bound on its depth, and no result beyond it.
-/
import DragonDevice.Lib.Terminated
import Mathlib.Algebra.Ring.Int.Defs
import Mathlib.Algebra.Ring.Nat

set_option autoImplicit false

namespace DragonDevice.Dsp

open DragonDevice.Lib

/-! ## Expressions -/

/-- `struct cras_expr_expression`, as far as the parser builds it. -/
inductive Expression where
  | boolean (value : Bool)
  | integer (value : Int)
  | string (value : List Char)
  | variable (name : List Char)
  | compound (children : List Expression)

/-! ## Characters and numbers -/

/-- `isspace` -/
def isSpace (c : Char) : Bool := c.toNat == 32 || (9 ≤ c.toNat && c.toNat ≤ 13)

/-- `is_identifier_char` -/
def isIdentifierChar (c : Char) : Bool := c.isAlpha || c == '_' || c == '-' || c == '?'

/-- A value as `long`, clamped. -/
def clampLong (n : Int) : Int := max (-2 ^ 63) (min n (2 ^ 63 - 1))

/-- A `long` as `int`. -/
def toInt (n : Int) : Int := n.bmod (2 ^ 32)

/-- `strtol` with base 10, where a number begins. -/
def strtol (str : List Char) : Int × List Char :=
  match str with
  | '-' :: rest =>
      (clampLong (-(Nat.ofDigitChars 10 (rest.takeWhile Char.isDigit) 0 : Int)),
        rest.dropWhile Char.isDigit)
  | _ =>
      (clampLong (Nat.ofDigitChars 10 (str.takeWhile Char.isDigit) 0 : Int),
        str.dropWhile Char.isDigit)

def startsWithDigit (str : List Char) : Bool := str.head?.any Char.isDigit

/-! ## The parser -/

/-- A boolean literal, after its `#`. -/
def parseBoolean : List Char → Option Expression × List Char
  | 't' :: rest => (some (.boolean true), rest)
  | 'f' :: rest => (some (.boolean false), rest)
  | rest => (none, rest)

/-- A string literal, after its first quote. -/
def parseString (after : List Char) : Option Expression × List Char :=
  match upTo '"' after with
  | none => (some (.string []), after)
  | some str => (some (.string str), after.drop (str.length + 1))

/-- An expression without parts, from its first character on. -/
def parseAtom (c : Char) (rest : List Char) : Option Expression × List Char :=
  if c = '#' then parseBoolean rest
  else if c.isDigit || (c = '-' && startsWithDigit rest) then
    (some (.integer (toInt (strtol (c :: rest)).1)), (strtol (c :: rest)).2)
  else if c = '"' then parseString rest
  else if isIdentifierChar c then
    (some (.variable ((c :: rest).takeWhile isIdentifierChar)),
      (c :: rest).dropWhile isIdentifierChar)
  else
    (none, c :: rest)

/-- The end of a compound expression. -/
def closeCompound (children : List Expression) : List Char → Option Expression × List Char
  | ')' :: rest => (some (.compound children), rest)
  | rest => (none, rest)

mutual

/-- `parse_one_expr` -/
def parseOneExpr : Nat → List Char → Option (Option Expression × List Char)
  | 0, _ => none
  | depth + 1, str =>
      match str.dropWhile isSpace with
      | [] => some (none, [])
      | c :: rest =>
          if c = '(' then
            (parseExprs depth rest).map fun r => closeCompound r.1 r.2
          else
            some (parseAtom c rest)

/-- Its loop over the parts of a compound expression. -/
def parseExprs : Nat → List Char → Option (List Expression × List Char)
  | 0, _ => none
  | depth + 1, str =>
      (parseOneExpr depth str).bind fun r =>
        match r.1 with
        | none => some ([], r.2)
        | some next => (parseExprs depth r.2).map fun s => (next :: s.1, s.2)

end

/-- A depth that is enough for a text. -/
def enoughDepth (str : List Char) : Nat := 2 * str.length + 1

/-- `cras_expr_expression_parse` -/
def crasExprExpressionParse (str : List Char) : Option (Option Expression) :=
  (parseOneExpr (enoughDepth str) str).map Prod.fst

end DragonDevice.Dsp
