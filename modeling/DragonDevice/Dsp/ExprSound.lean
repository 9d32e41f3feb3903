/-
  Dsp/ExprSound.lean --- what `parse_one_expr` returns has a reading, and when it is a sentence.

  Every expression that is returned has a reading, perhaps with a lapse.  A text has one
  reading at most, so that the parser is sound on exactly the texts that begin with no
  lapsed expression.
-/
import Mathlib.Data.List.TakeWhile
import DragonDevice.Dsp.ExprGrammar

set_option autoImplicit false

namespace DragonDevice.Dsp

open DragonDevice.Lib

/-! ## Atoms -/

theorem head?_dropWhile {p : Char → Bool} (l : List Char) :
    (l.dropWhile p).head?.any p = false := by
  induction l with
  | nil => rfl
  | cons c l ih =>
      rw [List.dropWhile_cons]
      split
      · exact ih
      · rename_i hc
        simpa using hc

/-- A number at the beginning of a text. -/
theorem exists_number {c : Char} {rest : List Char}
    (h : (c.isDigit || (c = '-' && startsWithDigit rest)) = true) :
    ∃ negative digits rest', c :: rest = signText negative ++ digits ++ rest' ∧ digits ≠ [] ∧
      (∀ d ∈ digits, d.isDigit = true) ∧ startsWithDigit rest' = false := by
  rw [Bool.or_eq_true, Bool.and_eq_true, decide_eq_true_eq] at h
  rcases h with hdigit | ⟨rfl, hdigit⟩
  · refine ⟨false, (c :: rest).takeWhile Char.isDigit, (c :: rest).dropWhile Char.isDigit,
      (List.takeWhile_append_dropWhile).symm, ?_, fun d hd => List.mem_takeWhile_imp hd,
      head?_dropWhile _⟩
    rw [List.takeWhile_cons_of_pos hdigit]
    exact List.cons_ne_nil _ _
  · refine ⟨true, rest.takeWhile Char.isDigit, rest.dropWhile Char.isDigit, ?_, ?_,
      fun d hd => List.mem_takeWhile_imp hd, head?_dropWhile _⟩
    · rw [List.append_assoc, List.takeWhile_append_dropWhile]
      rfl
    · cases rest with
      | nil => cases hdigit
      | cons d rest =>
          have hd : d.isDigit = true := hdigit
          rw [List.takeWhile_cons_of_pos hd]
          exact List.cons_ne_nil _ _

/-- What is parsed as an atom is one. -/
theorem parseAtom_sound {c : Char} {str rest : List Char} {expr : Expression}
    (h : parseAtom c str = (some expr, rest)) :
    ∃ lapse text, c :: str = text ++ rest ∧ Atom lapse text expr rest := by
  unfold parseAtom at h
  split at h
  · rename_i hc
    subst hc
    unfold parseBoolean at h
    split at h
    · cases h
      exact ⟨false, _, rfl, Atom.boolean true rest⟩
    · cases h
      exact ⟨false, _, rfl, Atom.boolean false rest⟩
    · cases h
  · split at h
    · rename_i hnumber
      obtain ⟨negative, digits, rest', hstr, hne, hdigits, hrest⟩ := exists_number hnumber
      rw [hstr, strtol_number negative hne hdigits hrest] at h
      cases h
      by_cases hfits : FitsInt (signedValue negative digits)
      · rw [toInt_of_fits hfits]
        exact ⟨false, _, hstr, Atom.integer negative hne hdigits hrest hfits⟩
      · exact ⟨true, _, hstr, Atom.overflow negative hne hdigits hrest hfits⟩
    · rename_i hnumber
      split at h
      · rename_i hc
        subst hc
        rw [parseString] at h
        rcases upTo_spec '"' str with ⟨hnone, hstr⟩ | ⟨s, rest', hsome, hstr, hs⟩
        · rw [hnone] at h
          cases h
          exact ⟨true, _, rfl, Atom.openQuote hstr⟩
        · rw [hsome] at h
          dsimp only at h
          have hdrop : str.drop (s.length + 1) = rest' := by
            rw [hstr, List.drop_append, List.drop_eq_nil_of_le (Nat.le_succ _),
              Nat.add_sub_cancel_left]
            rfl
          rw [hdrop] at h
          cases h
          refine ⟨false, _, ?_, Atom.string hs rest⟩
          rw [hstr, List.cons_append, List.append_assoc]
          rfl
      · split at h
        · rename_i hc
          cases h
          refine ⟨false, _, (List.takeWhile_append_dropWhile).symm,
            Atom.identifier ?_ (fun d hd => List.mem_takeWhile_imp hd) (head?_dropWhile _) ?_⟩
          · rw [List.takeWhile_cons_of_pos hc]
            exact List.cons_ne_nil _ _
          · intro hminus
            -- nothing but the sign was taken, so that the rest is what follows it
            rw [List.takeWhile_cons_of_pos hc, List.cons.injEq] at hminus
            have hrest : str.dropWhile isIdentifierChar = str := by
              have happend := List.takeWhile_append_dropWhile (p := isIdentifierChar) (l := str)
              rwa [hminus.2] at happend
            rw [List.dropWhile_cons_of_pos hc, hrest]
            simpa [hminus.1] using hnumber
        · cases h

/-- After a failure right before a closing parenthesis, there was only a `#` at most. -/
theorem parseAtom_none {c : Char} {str rest : List Char}
    (h : parseAtom c str = (none, ')' :: rest)) :
    c :: str = ')' :: rest ∨ c :: str = '#' :: ')' :: rest := by
  unfold parseAtom at h
  split at h
  · rename_i hc
    subst hc
    unfold parseBoolean at h
    split at h
    · cases h
    · cases h
    · cases h
      exact Or.inr rfl
  · split at h
    · cases h
    · split at h
      · rw [parseString] at h
        split at h <;> cases h
      · split at h
        · cases h
        · exact Or.inl (congrArg Prod.snd h)

/-! ## Soundness -/

theorem forall_mem_takeWhile (p : Char → Bool) (l : List Char) :
    ∀ c ∈ l.takeWhile p, p c = true :=
  fun _ hc => List.mem_takeWhile_imp hc

/-- A compound expression is returned behind its closing parenthesis. -/
theorem closeCompound_eq_some {children : List Expression} {str rest : List Char}
    {expr : Expression} (h : closeCompound children str = (some expr, rest)) :
    str = ')' :: rest ∧ expr = .compound children := by
  unfold closeCompound at h
  split at h
  · cases h
    exact ⟨rfl, rfl⟩
  · cases h

theorem closeCompound_ne_none {children : List Expression} {str rest : List Char} :
    closeCompound children str ≠ (none, ')' :: rest) := by
  unfold closeCompound
  split
  · rintro ⟨⟩
  · rename_i hne
    intro h
    exact hne rest (congrArg Prod.snd h)

/-- Where the parser returns `NULL` right before a closing parenthesis. -/
theorem parseOneExpr_none {depth : Nat} {str rest : List Char}
    (h : parseOneExpr depth str = some (none, ')' :: rest)) :
    ∃ spaces, (∀ c ∈ spaces, isSpace c = true) ∧
      (str = spaces ++ ')' :: rest ∨ str = spaces ++ '#' :: ')' :: rest) := by
  cases depth with
  | zero => cases h
  | succ depth =>
      refine ⟨str.takeWhile isSpace, forall_mem_takeWhile _ _, ?_⟩
      have hsplit := List.takeWhile_append_dropWhile (p := isSpace) (l := str)
      rw [parseOneExpr] at h
      cases hdrop : str.dropWhile isSpace with
      | nil =>
          rw [hdrop] at h
          cases h
      | cons c tail =>
          rw [hdrop] at h hsplit
          dsimp only at h
          split at h
          · obtain ⟨r, _, hclose⟩ := Option.map_eq_some_iff.mp h
            exact absurd hclose closeCompound_ne_none
          · rcases parseAtom_none (Option.some.inj h) with hatom | hatom
            · exact Or.inl (by rw [← hatom, hsplit])
            · exact Or.inr (by rw [← hatom, hsplit])

/-- What is returned has a reading.  The parts of a compound expression have one only where
its closing parenthesis follows. -/
theorem parse_reads (depth : Nat) :
    (∀ str expr rest, parseOneExpr depth str = some (some expr, rest) →
      ∃ lapse text, str = text ++ rest ∧ Reads lapse text (.one expr) rest) ∧
    ∀ str children rest, parseExprs depth str = some (children, ')' :: rest) →
      ∃ lapse text, str = text ++ ')' :: rest ∧
        Reads lapse text (.many children) (')' :: rest) := by
  induction depth with
  | zero => exact ⟨fun _ _ _ h => (by cases h), fun _ _ _ h => (by cases h)⟩
  | succ depth ih =>
      obtain ⟨ihOne, ihMany⟩ := ih
      refine ⟨fun str expr rest h => ?_, fun str children rest h => ?_⟩
      · have hspaces := forall_mem_takeWhile isSpace str
        have hsplit := List.takeWhile_append_dropWhile (p := isSpace) (l := str)
        rw [parseOneExpr] at h
        cases hdrop : str.dropWhile isSpace with
        | nil =>
            rw [hdrop] at h
            cases h
        | cons c tail =>
            rw [hdrop] at h hsplit
            dsimp only at h
            split at h
            · rename_i hc
              obtain ⟨⟨children, tail'⟩, hparts, hclose⟩ := Option.map_eq_some_iff.mp h
              obtain ⟨rfl, rfl⟩ := closeCompound_eq_some hclose
              obtain ⟨lapse, text, htail, hreads⟩ := ihMany tail children rest hparts
              refine ⟨lapse, _, ?_, (Reads.compound hreads).spaces_one hspaces⟩
              refine hsplit.symm.trans ?_
              rw [hc, htail]
              simp
            · obtain ⟨lapse, text, htail, hatom⟩ := parseAtom_sound (Option.some.inj h)
              refine ⟨lapse, _, ?_, (Reads.atom hatom).spaces_one hspaces⟩
              rw [List.append_assoc, ← htail, hsplit]
      · rw [parseExprs] at h
        obtain ⟨⟨result, tail⟩, hone, h⟩ := Option.bind_eq_some_iff.mp h
        cases result with
        | none =>
            cases h
            obtain ⟨spaces, hspaces, rfl | rfl⟩ := parseOneExpr_none hone
            · exact ⟨false, spaces, rfl, Reads.nil hspaces rest⟩
            · exact ⟨true, spaces ++ ['#'], by simp, Reads.hash hspaces rest⟩
        | some next =>
            obtain ⟨⟨others, tail'⟩, hmany, h⟩ := Option.map_eq_some_iff.mp h
            cases h
            obtain ⟨lapse, text, rfl, hreads⟩ := ihOne str next tail hone
            obtain ⟨lapse', text', rfl, hreads'⟩ := ihMany tail others rest hmany
            exact ⟨lapse || lapse', text ++ text', (List.append_assoc ..).symm,
              Reads.cons hreads hreads'⟩

/-! ## Termination -/

/-- The recursion ends within the depth that is enough for a text. -/
theorem parse_total (depth : Nat) :
    (∀ str, 2 * str.length + 1 ≤ depth → ∃ r, parseOneExpr depth str = some r) ∧
    ∀ str, 2 * str.length + 2 ≤ depth → ∃ r, parseExprs depth str = some r := by
  induction depth with
  | zero => exact ⟨fun str h => absurd h (by omega), fun str h => absurd h (by omega)⟩
  | succ depth ih =>
      obtain ⟨ihOne, ihMany⟩ := ih
      refine ⟨fun str hdepth => ?_, fun str hdepth => ?_⟩
      · rw [parseOneExpr]
        have hlength := (List.dropWhile_sublist isSpace (l := str)).length_le
        cases hdrop : str.dropWhile isSpace with
        | nil => exact ⟨_, rfl⟩
        | cons c tail =>
            rw [hdrop, List.length_cons] at hlength
            dsimp only
            split
            · obtain ⟨r, hr⟩ := ihMany tail (by omega)
              exact ⟨_, by rw [hr]; rfl⟩
            · exact ⟨_, rfl⟩
      · obtain ⟨⟨result, tail⟩, hone⟩ := ihOne str (by omega)
        rw [parseExprs, hone, Option.bind_some]
        cases result with
        | none => exact ⟨_, rfl⟩
        | some next =>
            -- an expression takes a character at least
            obtain ⟨lapse, text, rfl, hreads⟩ := (parse_reads depth).1 str next tail hone
            have hpos := List.length_pos_of_ne_nil hreads.ne_nil
            rw [List.length_append] at hdepth
            obtain ⟨r, hr⟩ := ihMany tail (by omega)
            exact ⟨_, by dsimp only; rw [hr]; rfl⟩

/-! ## One reading at most -/

theorem fitsInt_clampLong (n : Int) : FitsInt (clampLong n) ↔ FitsInt n := by
  unfold FitsInt clampLong
  omega

/-- Numbers do not begin with a quote. -/
theorem number_ne_quote (negative : Bool) {digits : List Char} (hne : digits ≠ [])
    (hdigits : ∀ c ∈ digits, c.isDigit = true) : signText negative ++ digits ≠ ['"'] := by
  intro h
  obtain ⟨c, tail, htext, _, _, _, hnumber⟩ := number_head negative hne hdigits []
  rw [h] at htext
  cases htext
  exact absurd hnumber (by decide)

/-- Which atoms are lapses. -/
theorem Atom.lapse_iff {lapse : Bool} {text rest : List Char} {expr : Expression}
    (h : Atom lapse text expr rest) : lapse = true ↔
      text = ['"'] ∨ (∃ n, expr = .integer n) ∧ ¬ FitsInt (strtol (text ++ rest)).1 := by
  cases h with
  | boolean value => cases value <;> simp
  | integer negative hne hdigits hrest hfits =>
      rw [strtol_number negative hne hdigits hrest]
      simp [number_ne_quote negative hne hdigits, fitsInt_clampLong, hfits]
  | overflow negative hne hdigits hrest hfits =>
      rw [strtol_number negative hne hdigits hrest]
      simp [number_ne_quote negative hne hdigits, fitsInt_clampLong, hfits]
  | string hstr rest => simp
  | openQuote hrest => simp
  | identifier hne hname hrest hminus =>
      have hquote : text ≠ ['"'] := by
        rintro rfl
        exact absurd (hname '"' List.mem_cons_self) (by decide)
      simp [hquote]

/-- A text begins with one expression at most. -/
theorem Reads.deterministic {lapse lapse' : Bool} {text text' rest rest' : List Char}
    {expr expr' : Expression} (h : Reads lapse text (.one expr) rest)
    (h' : Reads lapse' text' (.one expr') rest') (htext : text ++ rest = text' ++ rest') :
    expr = expr' ∧ text = text' ∧ rest = rest' := by
  have hparses : parseOneExpr _ (text ++ rest) = some (some expr, rest) :=
    h.parses _ (Nat.le_refl _)
  have hparses' : parseOneExpr _ (text' ++ rest') = some (some expr', rest') :=
    h'.parses _ (Nat.le_refl _)
  rw [htext] at hparses
  cases hparses.symm.trans hparses'
  exact ⟨rfl, List.append_cancel_right htext, rfl⟩

/-- White space, an atom and a compound expression begin differently. -/
theorem Atom.head_ne {lapse : Bool} {c : Char} {text rest : List Char} {expr : Expression}
    (h : Atom lapse (c :: text) expr rest) : isSpace c = false ∧ c ≠ '(' := by
  obtain ⟨d, tail, htext, hspace, hparen, _⟩ := h.parseAtom
  cases htext
  exact ⟨hspace, hparen⟩

/-- Whether a reading has a lapse is up to the text. -/
theorem Reads.lapse_unique {lapse : Bool} {text rest : List Char} {tree : Tree}
    (h : Reads lapse text tree rest) :
    ∀ {lapse' : Bool} {text' : List Char}, Reads lapse' text' tree rest → text = text' →
      lapse = lapse' := by
  induction h with
  | @space _ c _ _ _ hc _ ih =>
      intro lapse' text' h' htext
      cases h' with
      | space _ h' =>
          obtain ⟨_, htext⟩ := List.cons.inj htext
          exact ih h' htext
      | atom h' =>
          subst htext
          rw [h'.head_ne.1] at hc
          cases hc
      | compound h' =>
          obtain ⟨rfl, _⟩ := List.cons.inj htext
          exact absurd hc (by decide)
  | atom h =>
      intro lapse' text' h' htext
      cases h' with
      | space hc _ =>
          subst htext
          rw [h.head_ne.1] at hc
          cases hc
      | atom h' =>
          subst htext
          exact Bool.eq_iff_iff.mpr (h.lapse_iff.trans h'.lapse_iff.symm)
      | compound h' =>
          subst htext
          exact absurd rfl h.head_ne.2
  | compound _ ih =>
      intro lapse' text' h' htext
      cases h' with
      | space hc _ =>
          obtain ⟨rfl, _⟩ := List.cons.inj htext
          exact absurd hc (by decide)
      | atom h' =>
          subst htext
          exact absurd rfl h'.head_ne.2
      | compound h' =>
          obtain ⟨_, htext⟩ := List.cons.inj htext
          exact ih h' (List.append_cancel_right htext)
  | nil hspaces rest =>
      intro lapse' text' h' htext
      cases h' with
      | nil => rfl
      | hash =>
          subst htext
          exact absurd (hspaces '#' (by simp)) (by decide)
  | hash _ rest =>
      intro lapse' text' h' htext
      cases h' with
      | nil hspaced =>
          subst htext
          exact absurd (hspaced '#' (by simp)) (by decide)
      | hash => rfl
  | @cons _ _ _ _ rest _ _ h _ ih ih' =>
      intro lapse' text' h' htext
      cases h' with
      | cons hone hmany =>
          have hsplit := h.deterministic hone (by
            rw [← List.append_assoc, ← List.append_assoc, htext])
          have hrest := List.append_cancel_right hsplit.2.2
          subst hrest
          rw [ih hone hsplit.2.1, ih' hmany rfl]

/-! ## The texts the parser is sound on -/

/-- A run of the parser ends, and an expression that it returns is the one that the text it took
stands for. -/
def ParsesSoundly (str : List Char) : Prop :=
  ∃ result rest, parseOneExpr (enoughDepth str) str = some (result, rest) ∧
    ∀ expr, result = some expr → ∃ text, str = text ++ rest ∧ Sentence text expr rest

/-- A lapse is parsed, and the text has no other reading. -/
theorem ParsesSoundly.not_lapsed {text rest : List Char} (h : ParsesSoundly (text ++ rest))
    (expr : Expression) : ¬ Lapsed text expr rest := by
  intro hlapsed
  obtain ⟨result, rest', hparse, hsound⟩ := h
  have hparse' : parseOneExpr (enoughDepth (text ++ rest)) (text ++ rest) =
      some (some expr, rest) := hlapsed.parses _ (Nat.le_refl _)
  cases hparse.symm.trans hparse'
  obtain ⟨text', htext, hsentence⟩ := hsound expr rfl
  have hlapse := hlapsed.lapse_unique hsentence (List.append_cancel_right htext)
  cases hlapse

/-- The parser is sound on a text exactly when it begins with no expression that has a `#` right
before a closing parenthesis, a quote without its end, or a number that does not fit. -/
theorem parsesSoundly_iff (str : List Char) : ParsesSoundly str ↔
    ∀ text expr rest, str = text ++ rest → ¬ Lapsed text expr rest := by
  constructor
  · rintro h text expr rest rfl
    exact h.not_lapsed expr
  · intro hlapses
    obtain ⟨⟨result, rest⟩, hparse⟩ :=
      (parse_total (enoughDepth str)).1 str (Nat.le_refl _)
    refine ⟨result, rest, hparse, ?_⟩
    rintro expr rfl
    obtain ⟨lapse, text, hstr, hreads⟩ := (parse_reads _).1 str expr rest hparse
    cases lapse with
    | true => exact absurd hreads (hlapses text expr rest hstr)
    | false => exact ⟨text, hstr, hreads⟩

/-- `(a #)` is taken for `(a)`. -/
theorem not_parsesSoundly_hash : ¬ ParsesSoundly "(a #)".toList := by
  intro h
  have hname : Atom false ['a'] (.variable ['a']) " #)".toList :=
    Atom.identifier (List.cons_ne_nil _ _) (List.all_eq_true.mp rfl) rfl (by simp)
  have hhash : Reads true " #".toList (.many []) ")".toList :=
    @Reads.hash [' '] isSpace_blank []
  have hparts : Reads true "a #".toList (.many [.variable ['a']]) ")".toList :=
    @Reads.cons false true ['a'] " #".toList ")".toList _ _ (Reads.atom hname) hhash
  have hlapsed : Lapsed "(a #)".toList (.compound [.variable ['a']]) [] := Reads.compound hparts
  exact ParsesSoundly.not_lapsed h _ hlapsed

end DragonDevice.Dsp
