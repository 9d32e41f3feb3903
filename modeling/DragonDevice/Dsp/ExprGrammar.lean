/-
  Dsp/ExprGrammar.lean --- what `parse_one_expr` accepts, against the grammar in its comments.

  The parser accepts every sentence of the grammar, and some texts that are none: a quote
  that is never closed stands for the empty string, a `#` right before the end of a compound
  expression is passed over, and a number that does not fit is cut.  Readings say which text
  is taken for which expression in front of which rest, and whether such a lapse occurs.
-/
import DragonDevice.Dsp.Expr

set_option autoImplicit false

namespace DragonDevice.Dsp

open DragonDevice.Lib

/-! ## Readings -/

/-- The number that digits stand for. -/
def signedValue (negative : Bool) (digits : List Char) : Int :=
  if negative then -(Nat.ofDigitChars 10 digits 0 : Int) else (Nat.ofDigitChars 10 digits 0 : Int)

def signText (negative : Bool) : List Char := if negative then ['-'] else []

/-- The numbers of type `int`. -/
def FitsInt (n : Int) : Prop := -2 ^ 31 ≤ n ∧ n < 2 ^ 31

def startsWithIdentifierChar (str : List Char) : Bool := str.head?.any isIdentifierChar

/-- A text that stands for an expression without parts, in front of a rest that does not
continue it; and whether it does only by a lapse. -/
inductive Atom : Bool → List Char → Expression → List Char → Prop
  | boolean (value : Bool) (rest : List Char) :
      Atom false ['#', if value then 't' else 'f'] (.boolean value) rest
  | integer (negative : Bool) {digits rest : List Char} (hne : digits ≠ [])
      (hdigits : ∀ c ∈ digits, c.isDigit = true) (hrest : startsWithDigit rest = false)
      (hfits : FitsInt (signedValue negative digits)) :
      Atom false (signText negative ++ digits) (.integer (signedValue negative digits)) rest
  | overflow (negative : Bool) {digits rest : List Char} (hne : digits ≠ [])
      (hdigits : ∀ c ∈ digits, c.isDigit = true) (hrest : startsWithDigit rest = false)
      (hfits : ¬ FitsInt (signedValue negative digits)) :
      Atom true (signText negative ++ digits)
        (.integer (toInt (clampLong (signedValue negative digits)))) rest
  | string {str : List Char} (hstr : '"' ∉ str) (rest : List Char) :
      Atom false ('"' :: (str ++ ['"'])) (.string str) rest
  | openQuote {rest : List Char} (hrest : '"' ∉ rest) : Atom true ['"'] (.string []) rest
  | identifier {name rest : List Char} (hne : name ≠ [])
      (hname : ∀ c ∈ name, isIdentifierChar c = true)
      (hrest : startsWithIdentifierChar rest = false)
      (hminus : name = ['-'] → startsWithDigit rest = false) :
      Atom false name (.variable name) rest

/-- One expression, or the parts of a compound one. -/
inductive Tree where
  | one (expr : Expression)
  | many (children : List Expression)

/-- A text that stands for an expression, or for the parts of one, in front of a rest. -/
inductive Reads : Bool → List Char → Tree → List Char → Prop
  | space {lapse : Bool} {c : Char} {text rest : List Char} {expr : Expression}
      (hc : isSpace c = true) (h : Reads lapse text (.one expr) rest) :
      Reads lapse (c :: text) (.one expr) rest
  | atom {lapse : Bool} {text rest : List Char} {expr : Expression}
      (h : Atom lapse text expr rest) : Reads lapse text (.one expr) rest
  | compound {lapse : Bool} {text rest : List Char} {children : List Expression}
      (h : Reads lapse text (.many children) (')' :: rest)) :
      Reads lapse ('(' :: (text ++ [')'])) (.one (.compound children)) rest
  | nil {spaces : List Char} (hspaces : ∀ c ∈ spaces, isSpace c = true) (rest : List Char) :
      Reads false spaces (.many []) (')' :: rest)
  | hash {spaces : List Char} (hspaces : ∀ c ∈ spaces, isSpace c = true) (rest : List Char) :
      Reads true (spaces ++ ['#']) (.many []) (')' :: rest)
  | cons {lapse lapse' : Bool} {text text' rest : List Char} {expr : Expression}
      {children : List Expression} (h : Reads lapse text (.one expr) (text' ++ rest))
      (h' : Reads lapse' text' (.many children) rest) :
      Reads (lapse || lapse') (text ++ text') (.many (expr :: children)) rest

/-- A sentence of the grammar: `#t | #f | -?[0-9]+ | "..." | (expr*) | identifier`, with white
space in front of expressions and of a closing parenthesis.  The rest does not continue its
last token. -/
def Sentence (text : List Char) (expr : Expression) (rest : List Char) : Prop :=
  Reads false text (.one expr) rest

/-- A text that is taken for an expression by some lapse. -/
def Lapsed (text : List Char) (expr : Expression) (rest : List Char) : Prop :=
  Reads true text (.one expr) rest

/-! ## Characters -/

theorem isDigit_iff {c : Char} : c.isDigit = true ↔ 48 ≤ c.toNat ∧ c.toNat ≤ 57 := by
  simp only [Char.isDigit, Bool.and_eq_true, decide_eq_true_eq, ge_iff_le, UInt32.le_iff_toNat_le]
  rfl

theorem isSpace_iff {c : Char} :
    isSpace c = true ↔ c.toNat = 32 ∨ 9 ≤ c.toNat ∧ c.toNat ≤ 13 := by
  simp [isSpace]

theorem isIdentifierChar_iff {c : Char} : isIdentifierChar c = true ↔
    65 ≤ c.toNat ∧ c.toNat ≤ 90 ∨ 97 ≤ c.toNat ∧ c.toNat ≤ 122 ∨ c = '_' ∨ c = '-' ∨ c = '?' := by
  delta isIdentifierChar Char.isAlpha Char.isUpper Char.isLower
  simp only [Bool.or_eq_true, Bool.and_eq_true, decide_eq_true_eq, ge_iff_le,
    UInt32.le_iff_toNat_le, beq_iff_eq, or_assoc]
  rfl

/-- Characters of a kind are not the marks that begin other expressions. -/
theorem not_mark_of_digit {c : Char} (h : c.isDigit = true) :
    isSpace c = false ∧ c ≠ '(' ∧ c ≠ '#' ∧ c ≠ '"' := by
  have hc := isDigit_iff.mp h
  refine ⟨?_, ?_, ?_, ?_⟩
  · rw [← Bool.not_eq_true, isSpace_iff]
    omega
  all_goals
    rintro rfl
    exact absurd h (by decide)

theorem not_mark_of_identifierChar {c : Char} (h : isIdentifierChar c = true) :
    isSpace c = false ∧ c ≠ '(' ∧ c ≠ '#' ∧ c ≠ '"' ∧ c.isDigit = false := by
  have hc := isIdentifierChar_iff.mp h
  have hmarks : '_'.toNat = 95 ∧ '-'.toNat = 45 ∧ '?'.toNat = 63 := by decide
  refine ⟨?_, ?_, ?_, ?_, ?_⟩
  · rw [← Bool.not_eq_true, isSpace_iff]
    rcases hc with hc | hc | rfl | rfl | rfl <;> omega
  · rintro rfl
    exact absurd h (by decide)
  · rintro rfl
    exact absurd h (by decide)
  · rintro rfl
    exact absurd h (by decide)
  · rw [← Bool.not_eq_true, isDigit_iff]
    rcases hc with hc | hc | rfl | rfl | rfl <;> omega

/-- A run of characters of a kind ends where the next one is of another. -/
theorem takeWhile_run {p : Char → Bool} {run rest : List Char} (hrun : ∀ c ∈ run, p c = true)
    (hrest : rest.head?.any p = false) :
    (run ++ rest).takeWhile p = run ∧ (run ++ rest).dropWhile p = rest := by
  rw [List.takeWhile_append_of_pos hrun, List.dropWhile_append_of_pos hrun]
  cases rest with
  | nil => simp
  | cons c rest =>
      have hc : p c = false := hrest
      simp [hc]

/-! ## Completeness -/

theorem toInt_of_fits {n : Int} (h : FitsInt n) : toInt (clampLong n) = n := by
  obtain ⟨hlow, hhigh⟩ := h
  have hclamp : clampLong n = n := by
    unfold clampLong
    omega
  rw [hclamp, toInt, Int.bmod_eq_of_le (by omega) (by omega)]

/-- `strtol` reads a number up to the rest. -/
theorem strtol_number (negative : Bool) {digits rest : List Char} (hne : digits ≠ [])
    (hdigits : ∀ c ∈ digits, c.isDigit = true) (hrest : startsWithDigit rest = false) :
    strtol (signText negative ++ digits ++ rest) =
      (clampLong (signedValue negative digits), rest) := by
  obtain ⟨htake, hdrop⟩ := takeWhile_run hdigits hrest
  cases negative with
  | true =>
      show strtol ('-' :: (digits ++ rest)) = _
      rw [strtol, htake, hdrop]
      rfl
  | false =>
      show strtol (digits ++ rest) = _
      rw [strtol, htake, hdrop]
      · rfl
      · intro tail htail
        obtain ⟨d, ds, rfl⟩ := List.exists_cons_of_ne_nil hne
        rw [List.cons_append, List.cons.injEq] at htail
        exact absurd (hdigits d List.mem_cons_self) (by rw [htail.1]; decide)

/-- The first characters of a number. -/
theorem number_head (negative : Bool) {digits : List Char} (hne : digits ≠ [])
    (hdigits : ∀ c ∈ digits, c.isDigit = true) (rest : List Char) :
    ∃ c tail, signText negative ++ digits = c :: tail ∧ isSpace c = false ∧ c ≠ '(' ∧ c ≠ '#' ∧
      (c.isDigit || (c = '-' && startsWithDigit (tail ++ rest))) = true := by
  obtain ⟨d, ds, rfl⟩ := List.exists_cons_of_ne_nil hne
  have hd := hdigits d List.mem_cons_self
  cases negative with
  | true =>
      refine ⟨'-', d :: ds, rfl, by decide, by decide, by decide, ?_⟩
      have hhead : startsWithDigit (d :: ds ++ rest) = true := hd
      rw [hhead]
      decide
  | false =>
      obtain ⟨hspace, hparen, hhash, _⟩ := not_mark_of_digit hd
      exact ⟨d, ds, rfl, hspace, hparen, hhash, by rw [hd]; rfl⟩

/-- An atom is parsed. -/
theorem Atom.parseAtom {lapse : Bool} {text rest : List Char} {expr : Expression}
    (h : Atom lapse text expr rest) :
    ∃ c tail, text = c :: tail ∧ isSpace c = false ∧ c ≠ '(' ∧
      Dsp.parseAtom c (tail ++ rest) = (some expr, rest) := by
  cases h with
  | boolean value =>
      refine ⟨'#', _, rfl, by decide, by decide, ?_⟩
      cases value <;> rfl
  | @integer negative digits _ hne hdigits hrest hfits =>
      obtain ⟨c, tail, htext, hspace, hparen, hhash, hnumber⟩ :=
        number_head negative hne hdigits rest
      refine ⟨c, tail, htext, hspace, hparen, ?_⟩
      rw [Dsp.parseAtom, if_neg hhash, if_pos hnumber, ← List.cons_append, ← htext,
        strtol_number negative hne hdigits hrest, toInt_of_fits hfits]
  | @overflow negative digits _ hne hdigits hrest hfits =>
      obtain ⟨c, tail, htext, hspace, hparen, hhash, hnumber⟩ :=
        number_head negative hne hdigits rest
      refine ⟨c, tail, htext, hspace, hparen, ?_⟩
      rw [Dsp.parseAtom, if_neg hhash, if_pos hnumber, ← List.cons_append, ← htext,
        strtol_number negative hne hdigits hrest]
  | @string str hstr =>
      refine ⟨'"', _, rfl, by decide, by decide, ?_⟩
      have hupTo : upTo '"' (str ++ ['"'] ++ rest) = some str := by
        rw [List.append_assoc]
        exact upTo_append hstr rest
      have hdrop : (str ++ ['"'] ++ rest).drop (str.length + 1) = rest := by
        rw [List.drop_append_of_le_length (by simp)]
        simp
      rw [Dsp.parseAtom, if_neg (by decide), if_neg (by simp), if_pos rfl, parseString, hupTo]
      dsimp only
      rw [hdrop]
  | openQuote hrest =>
      refine ⟨'"', [], rfl, by decide, by decide, ?_⟩
      rw [Dsp.parseAtom, if_neg (by decide), if_neg (by simp), if_pos rfl, List.nil_append,
        parseString, upTo_eq_none hrest]
  | identifier hne hname hrest hminus =>
      obtain ⟨c, tail, rfl⟩ := List.exists_cons_of_ne_nil hne
      have hc := hname c List.mem_cons_self
      obtain ⟨hspace, hparen, hhash, hquote, hdigit⟩ := not_mark_of_identifierChar hc
      refine ⟨c, tail, rfl, hspace, hparen, ?_⟩
      have hnumber : ¬ (c.isDigit || (c = '-' && startsWithDigit (tail ++ rest))) = true := by
        rw [hdigit, Bool.false_or, Bool.and_eq_true, decide_eq_true_eq]
        rintro ⟨rfl, hstarts⟩
        cases tail with
        | nil =>
            rw [List.nil_append, hminus rfl] at hstarts
            cases hstarts
        | cons d tail =>
            have hd : d.isDigit = true := hstarts
            have hnot := (not_mark_of_identifierChar (hname d (by simp))).2.2.2.2
            rw [hd] at hnot
            cases hnot
      obtain ⟨htake, hdrop⟩ := takeWhile_run hname hrest
      rw [Dsp.parseAtom, if_neg hhash, if_neg hnumber, if_neg hquote, if_pos hc,
        ← List.cons_append, htake, hdrop]

/-- The parser takes a text for an expression or for parts, in a depth. -/
def Parses (depth : Nat) (str : List Char) : Tree → List Char → Prop
  | .one expr, rest => parseOneExpr depth str = some (some expr, rest)
  | .many children, rest => parseExprs depth str = some (children, rest)

/-- A depth that is enough for a text. -/
def Tree.depth (str : List Char) : Tree → Nat
  | .one _ => 2 * str.length + 1
  | .many _ => 2 * str.length + 2

theorem Reads.ne_nil {lapse : Bool} {text rest : List Char} {expr : Expression}
    (h : Reads lapse text (.one expr) rest) : text ≠ [] := by
  cases h with
  | space hc h => exact List.cons_ne_nil _ _
  | atom h =>
      obtain ⟨c, tail, rfl, _⟩ := h.parseAtom
      exact List.cons_ne_nil _ _
  | compound h => exact List.cons_ne_nil _ _

theorem parseOneExpr_space {c : Char} (hc : isSpace c = true) (depth : Nat) (str : List Char) :
    parseOneExpr depth (c :: str) = parseOneExpr depth str := by
  cases depth with
  | zero => rfl
  | succ depth => rw [parseOneExpr, parseOneExpr, List.dropWhile_cons_of_pos hc]

theorem parseOneExpr_spaces {spaces : List Char} (hspaces : ∀ c ∈ spaces, isSpace c = true)
    (depth : Nat) (str : List Char) :
    parseOneExpr depth (spaces ++ str) = parseOneExpr depth str := by
  induction spaces with
  | nil => rfl
  | cons c spaces ih =>
      obtain ⟨hc, hspaces⟩ := List.forall_mem_cons.mp hspaces
      rw [List.cons_append, parseOneExpr_space hc, ih hspaces]

/-- What has a reading is parsed as it says. -/
theorem Reads.parses {lapse : Bool} {text rest : List Char} {tree : Tree}
    (h : Reads lapse text tree rest) :
    ∀ depth, tree.depth (text ++ rest) ≤ depth → Parses depth (text ++ rest) tree rest := by
  induction h with
  | space hc _ ih =>
      intro depth hdepth
      have hparse := ih depth (by
        simp only [Tree.depth, List.cons_append, List.length_cons] at hdepth ⊢
        omega)
      exact (parseOneExpr_space hc depth _).trans hparse
  | atom h =>
      intro depth hdepth
      obtain ⟨c, tail, rfl, hspace, hparen, hatom⟩ := h.parseAtom
      obtain ⟨depth, rfl⟩ : ∃ n, depth = n + 1 := ⟨depth - 1, by
        simp only [Tree.depth] at hdepth
        omega⟩
      show parseOneExpr (depth + 1) (c :: (tail ++ _)) = _
      rw [parseOneExpr, List.dropWhile_cons_of_neg (by rw [hspace]; exact Bool.false_ne_true)]
      dsimp only
      rw [if_neg hparen, hatom]
  | @compound _ text rest children _ ih =>
      intro depth hdepth
      simp only [Tree.depth, List.cons_append, List.length_cons, List.append_assoc,
        List.length_append, List.length_nil] at hdepth
      obtain ⟨depth, rfl⟩ : ∃ n, depth = n + 1 := ⟨depth - 1, by omega⟩
      have hparts : parseExprs depth (text ++ ')' :: rest) = some (children, ')' :: rest) := by
        refine ih depth ?_
        simp only [Tree.depth, List.length_append, List.length_cons]
        omega
      show parseOneExpr (depth + 1) ('(' :: (text ++ [')'] ++ rest)) = _
      rw [parseOneExpr, List.dropWhile_cons_of_neg (by decide), List.append_assoc]
      dsimp only
      rw [if_pos rfl, List.singleton_append, hparts]
      rfl
  | @nil spaces hspaces rest =>
      intro depth hdepth
      obtain ⟨depth, rfl⟩ : ∃ n, depth = n + 2 := ⟨depth - 2, by
        simp only [Tree.depth] at hdepth
        omega⟩
      show parseExprs (depth + 2) (spaces ++ ')' :: rest) = _
      rw [parseExprs, parseOneExpr_spaces hspaces]
      rfl
  | @hash spaces hspaces rest =>
      intro depth hdepth
      obtain ⟨depth, rfl⟩ : ∃ n, depth = n + 2 := ⟨depth - 2, by
        simp only [Tree.depth] at hdepth
        omega⟩
      show parseExprs (depth + 2) (spaces ++ ['#'] ++ ')' :: rest) = _
      rw [List.append_assoc, parseExprs, parseOneExpr_spaces hspaces]
      rfl
  | @cons _ _ text text' rest expr children h _ ih ih' =>
      intro depth hdepth
      have hpos := List.length_pos_of_ne_nil h.ne_nil
      simp only [Tree.depth, List.length_append] at hdepth
      obtain ⟨depth, rfl⟩ : ∃ n, depth = n + 1 := ⟨depth - 1, by omega⟩
      have hfirst : parseOneExpr depth (text ++ (text' ++ rest)) =
          some (some expr, text' ++ rest) := by
        refine ih depth ?_
        simp only [Tree.depth, List.length_append]
        omega
      have hrest : parseExprs depth (text' ++ rest) = some (children, rest) := by
        refine ih' depth ?_
        simp only [Tree.depth, List.length_append]
        omega
      show parseExprs (depth + 1) (text ++ text' ++ rest) = _
      rw [List.append_assoc, parseExprs, hfirst, Option.bind_some]
      dsimp only
      rw [hrest]
      rfl

/-! ## Printing -/

/-- The decimal digits of a number, with its sign. -/
def decimal (n : Int) : List Char := signText (decide (n < 0)) ++ Nat.toDigits 10 n.natAbs

/-- A text is an expression, or parts of one, in print: parts have white space between them. -/
inductive Printed : Tree → List Char → Prop
  | boolean (value : Bool) : Printed (.one (.boolean value)) ['#', if value then 't' else 'f']
  | integer (n : Int) : Printed (.one (.integer n)) (decimal n)
  | string (str : List Char) : Printed (.one (.string str)) ('"' :: (str ++ ['"']))
  | identifier (name : List Char) : Printed (.one (.variable name)) name
  | compound {children : List Expression} {text : List Char} (h : Printed (.many children) text) :
      Printed (.one (.compound children)) ('(' :: (text ++ [')']))
  | nil : Printed (.many []) []
  | cons {expr : Expression} {children : List Expression} {text spaces text' : List Char}
      (h : Printed (.one expr) text) (hspaces : ∀ c ∈ spaces, isSpace c = true)
      (hne : children ≠ [] → spaces ≠ []) (h' : Printed (.many children) text') :
      Printed (.many (expr :: children)) (text ++ (spaces ++ text'))

mutual

/-- An expression in print, with single spaces. -/
def Expression.print : Expression → List Char
  | .boolean value => ['#', if value then 't' else 'f']
  | .integer n => decimal n
  | .string str => '"' :: (str ++ ['"'])
  | .variable name => name
  | .compound children => '(' :: (printAll children ++ [')'])

def printAll : List Expression → List Char
  | [] => []
  | expr :: children => expr.print ++ ([' '] ++ printAll children)

end

mutual

/-- Numbers fit, strings can be quoted, and names are names. -/
def Expression.Printable : Expression → Prop
  | .boolean _ => True
  | .integer n => FitsInt n
  | .string str => '"' ∉ str ∧ Char.ofNat 0 ∉ str
  | .variable name => name ≠ [] ∧ ∀ c ∈ name, isIdentifierChar c = true
  | .compound children => AllPrintable children

def AllPrintable : List Expression → Prop
  | [] => True
  | expr :: children => expr.Printable ∧ AllPrintable children

end

def Tree.Printable : Tree → Prop
  | .one expr => expr.Printable
  | .many children => AllPrintable children

/-- A rest that goes on with the last token of an expression. -/
def Expression.continuedBy (rest : List Char) : Expression → Bool
  | .integer _ => startsWithDigit rest
  | .variable name =>
      startsWithIdentifierChar rest || (name == ['-'] && startsWithDigit rest)
  | _ => false

theorem isSpace_blank : ∀ c ∈ [' '], isSpace c = true := List.all_eq_true.mp rfl

mutual

theorem printed_print : ∀ expr : Expression, Printed (.one expr) expr.print
  | .boolean value => Printed.boolean value
  | .integer n => Printed.integer n
  | .string str => Printed.string str
  | .variable name => Printed.identifier name
  | .compound children => Printed.compound (printed_printAll children)

theorem printed_printAll : ∀ children : List Expression,
    Printed (.many children) (printAll children)
  | [] => Printed.nil
  | expr :: children =>
      Printed.cons (printed_print expr) isSpace_blank (fun _ => List.cons_ne_nil _ _)
        (printed_printAll children)

end

theorem signedValue_decimal (n : Int) :
    signedValue (decide (n < 0)) (Nat.toDigits 10 n.natAbs) = n := by
  unfold signedValue
  rw [Nat.ofDigitChars_ten_toDigits]
  by_cases hn : n < 0
  · rw [if_pos (decide_eq_true hn)]
    omega
  · rw [if_neg (by simpa using hn)]
    omega

/-- White space and a closing parenthesis continue no token. -/
theorem continuedBy_separator (expr : Expression) {c : Char} (hc : isSpace c = true ∨ c = ')')
    (rest : List Char) : expr.continuedBy (c :: rest) = false := by
  have hdigit : c.isDigit = false := by
    rcases hc with hc | rfl
    · rw [← Bool.not_eq_true]
      intro hdigit
      rw [(not_mark_of_digit hdigit).1] at hc
      cases hc
    · decide
  have hname : isIdentifierChar c = false := by
    rcases hc with hc | rfl
    · rw [← Bool.not_eq_true]
      intro hname
      rw [(not_mark_of_identifierChar hname).1] at hc
      cases hc
    · decide
  cases expr <;> simp [Expression.continuedBy, startsWithDigit, startsWithIdentifierChar, hdigit,
    hname]

/-- Expressions may have white space in front of them. -/
theorem Reads.spaces_one {lapse : Bool} {text rest : List Char} {expr : Expression}
    (h : Reads lapse text (.one expr) rest) {spaces : List Char}
    (hspaces : ∀ c ∈ spaces, isSpace c = true) :
    Reads lapse (spaces ++ text) (.one expr) rest := by
  induction spaces with
  | nil => exact h
  | cons c spaces ih =>
      obtain ⟨hc, hspaces⟩ := List.forall_mem_cons.mp hspaces
      exact Reads.space hc (ih hspaces)

/-- Parts may have white space in front of them. -/
theorem Reads.spaces {lapse : Bool} {text rest : List Char} {children : List Expression}
    (h : Reads lapse text (.many children) rest) {spaces : List Char}
    (hspaces : ∀ c ∈ spaces, isSpace c = true) :
    Reads lapse (spaces ++ text) (.many children) rest := by
  cases h with
  | nil hspaces' rest => exact Reads.nil (List.forall_mem_append.mpr ⟨hspaces, hspaces'⟩) rest
  | hash hspaces' rest =>
      rw [← List.append_assoc]
      exact Reads.hash (List.forall_mem_append.mpr ⟨hspaces, hspaces'⟩) rest
  | cons h h' =>
      rw [← List.append_assoc]
      exact Reads.cons (h.spaces_one hspaces) h'

/-- What the print of a tree has to be followed by. -/
def Tree.Closed (rest : List Char) : Tree → Prop
  | .one expr => expr.continuedBy rest = false
  | .many _ => ∃ rest', rest = ')' :: rest'

/-- What is in print is a sentence. -/
theorem Printed.reads {tree : Tree} {text : List Char} (h : Printed tree text) :
    tree.Printable → ∀ rest, tree.Closed rest → Reads false text tree rest := by
  induction h with
  | boolean value =>
      intro _ rest _
      exact Reads.atom (Atom.boolean value rest)
  | integer n =>
      intro hfits rest hrest
      refine Reads.atom ?_
      have hdigits : ∀ c ∈ Nat.toDigits 10 n.natAbs, c.isDigit = true :=
        fun c hc => Nat.isDigit_of_mem_toDigits (by decide) (Nat.le_refl 10) hc
      have hatom := @Atom.integer (decide (n < 0)) _ rest Nat.toDigits_ne_nil hdigits hrest
        (by rw [signedValue_decimal]; exact hfits)
      rwa [signedValue_decimal] at hatom
  | string str =>
      intro hstr rest _
      exact Reads.atom (Atom.string hstr.1 rest)
  | identifier name =>
      intro hname rest hrest
      obtain ⟨hidentifier, hminus⟩ := Bool.or_eq_false_iff.mp hrest
      refine Reads.atom (Atom.identifier hname.1 hname.2 hidentifier fun heq => ?_)
      simpa [heq] using hminus
  | compound _ ih =>
      intro hchildren rest _
      exact Reads.compound (ih hchildren (')' :: rest) ⟨rest, rfl⟩)
  | nil =>
      intro _ rest hrest
      obtain ⟨rest', rfl⟩ := hrest
      exact Reads.nil (by simp) rest'
  | @cons expr children text spaces text' _ hspaces hne h' ih ih' =>
      intro hprintable rest hrest
      have hparts := (ih' hprintable.2 rest hrest).spaces hspaces
      refine Reads.cons (ih hprintable.1 _ ?_) hparts
      cases spaces with
      | cons c spaces =>
          exact continuedBy_separator expr (Or.inl (hspaces c List.mem_cons_self)) _
      | nil =>
          cases h' with
          | nil =>
              obtain ⟨rest', rfl⟩ := hrest
              exact continuedBy_separator expr (Or.inr rfl) _
          | cons => exact absurd rfl (hne (List.cons_ne_nil _ _))

/-- Every expression can be printed, and whatever it is in print, and in front of whatever does
not continue it, it is parsed to the expression and the position is behind it. -/
theorem parseOneExpr_printed (expr : Expression) (hexpr : expr.Printable) :
    (∃ text, Printed (.one expr) text) ∧
      ∀ text suffix, Printed (.one expr) text → expr.continuedBy suffix = false →
        parseOneExpr (enoughDepth (text ++ suffix)) (text ++ suffix) =
          some (some expr, suffix) := by
  refine ⟨⟨expr.print, printed_print expr⟩, fun text suffix htext hsuffix => ?_⟩
  exact (htext.reads hexpr suffix hsuffix).parses _ (Nat.le_refl _)

/-- `(and -5 "a b" ())` in front of a parenthesis. -/
theorem parseOneExpr_printed_and :
    parseOneExpr (enoughDepth "(and -5 \"a b\" ())) x".toList) "(and -5 \"a b\" ())) x".toList =
      some (some (.compound [.variable "and".toList, .integer (-5), .string "a b".toList,
        .compound []]), ") x".toList) := by
  have hand : Expression.Printable (.variable "and".toList) :=
    ⟨List.cons_ne_nil _ _, List.all_eq_true.mp rfl⟩
  have hfive : Expression.Printable (.integer (-5)) := ⟨by decide, by decide⟩
  have hstring : Expression.Printable (.string "a b".toList) := ⟨by decide, by decide⟩
  have hprintable : Expression.Printable (.compound [.variable "and".toList, .integer (-5),
      .string "a b".toList, .compound []]) := ⟨hand, hfive, hstring, trivial, trivial⟩
  refine (parseOneExpr_printed _ hprintable).2 "(and -5 \"a b\" ())".toList ") x".toList ?_ rfl
  have hempty : Printed (.many [.compound []]) "()".toList :=
    Printed.cons (Printed.compound Printed.nil) (List.forall_mem_nil _) (absurd rfl) Printed.nil
  have hquoted := Printed.cons (Printed.string "a b".toList) isSpace_blank (by simp) hempty
  have hnumber := Printed.cons (Printed.integer (-5)) isSpace_blank (by simp) hquoted
  have hparts := Printed.cons (Printed.identifier "and".toList) isSpace_blank (by simp) hnumber
  exact Printed.compound hparts

end DragonDevice.Dsp
