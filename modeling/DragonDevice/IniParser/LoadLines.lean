/-
  IniParser/LoadLines.lean --- what `iniparser_load` makes of the lines of a file.

  A line that ends with a backslash goes on in the next one.  The logical lines are
  assignments to sections and to keys of the section so far, and the dictionary holds them
  in the order in which their keys first came.  Only syntax errors behind the last
  assignment make the file fail.
-/
import DragonDevice.IniParser.Load
import DragonDevice.Lib.Terminated

set_option autoImplicit false

namespace DragonDevice.IniParser

open DragonDevice.Lib
open DragonDevice.Dsp (isSpace)

/-! ## Logical lines -/

/-- The lines as they go to `iniparser_line`, behind what an earlier one has left. -/
def logicalLines : List Char → List (List Char) → List (List Char)
  | _, [] => []
  | pending, l :: rest =>
      if pending ++ l = [] then logicalLines [] rest
      else
        let line := (pending ++ l).rdropWhile isSpace
        if line.getLast? = some '\\' then logicalLines line.dropLast rest
        else line :: logicalLines [] rest

/-- The lines fit into the buffer, and none is of blanks alone. -/
def LinesFit : List Char → List (List Char) → Prop
  | _, [] => True
  | pending, l :: rest =>
      if pending ++ l = [] then LinesFit [] rest
      else
        let line := (pending ++ l).rdropWhile isSpace
        (pending ++ l).length + 1 < asciiLineSz ∧ line ≠ [] ∧
          if line.getLast? = some '\\' then LinesFit line.dropLast rest else LinesFit [] rest

instance decidableLinesFit :
    (pending : List Char) → (lines : List (List Char)) → Decidable (LinesFit pending lines)
  | _, [] => .isTrue trivial
  | pending, l :: rest =>
      have := decidableLinesFit [] rest
      have := decidableLinesFit ((pending ++ l).rdropWhile isSpace).dropLast rest
      inferInstanceAs (Decidable (if pending ++ l = [] then LinesFit [] rest
        else (pending ++ l).length + 1 < asciiLineSz ∧ (pending ++ l).rdropWhile isSpace ≠ [] ∧
          if ((pending ++ l).rdropWhile isSpace).getLast? = some '\\' then
            LinesFit ((pending ++ l).rdropWhile isSpace).dropLast rest
          else LinesFit [] rest))

/-- A line without newline and NUL. -/
def IsLine (l : List Char) : Prop := '\n' ∉ l ∧ '\x00' ∉ l

instance (l : List Char) : Decidable (IsLine l) :=
  inferInstanceAs (Decidable ('\n' ∉ l ∧ '\x00' ∉ l))

/-! ## Assignments -/

/-- An entry that is assigned. -/
abbrev Assignment : Type := List Char × Option (List Char)

namespace LineStatus

def assignment (sectionName : List Char) : LineStatus → Option Assignment
  | .sectionName name => some (name, none)
  | .value key val => some (valueKey sectionName key, some val)
  | _ => none

/-- The section behind a line. -/
def nextSection (sectionName : List Char) : LineStatus → List Char
  | .sectionName name => name
  | _ => sectionName

/-- The count of errors behind a line. -/
def nextErrs (errs : Nat) : LineStatus → Nat
  | .sectionName _ => 0
  | .value _ _ => 0
  | .error => errs + 1
  | _ => errs

end LineStatus

/-- The assignments of logical lines. -/
def assignments : List Char → List (List Char) → List Assignment
  | _, [] => []
  | sectionName, line :: rest =>
      let status := iniparserLine sectionName line
      (status.assignment sectionName).toList ++ assignments (status.nextSection sectionName) rest

/-- The syntax errors behind the last assignment. -/
def trailingErrs : List Char → Nat → List (List Char) → Nat
  | _, errs, [] => errs
  | sectionName, errs, line :: rest =>
      let status := iniparserLine sectionName line
      trailingErrs (status.nextSection sectionName) (status.nextErrs errs) rest

/-- The entries that assignments leave. -/
def assignAll (entries : List Assignment) (l : List Assignment) : List Assignment :=
  l.foldl (fun entries a => SlotTable.upsert entries a.1 a.2) entries

/-! ## One line -/

section Line

variable {st : LoadState}

/-- What holds of the dictionary while a file is read. -/
def LoadState.Dense (st : LoadState) : Prop := st.dict.Valid ∧ st.dict.table.Dense

theorem LoadState.Dense.store (h : st.Dense) (key : List Char) (val : Option (List Char)) :
    ∃ dict, st.store key val = .done { st with dict := dict, errs := 0 } ∧
      dict.Valid ∧ dict.table.Dense ∧
      dict.entries = SlotTable.upsert st.dict.entries key val := by
  obtain ⟨dict, hset, hvalid, -⟩ := h.1.set key val
  obtain ⟨hdense, hentries⟩ := h.1.set_dense h.2 hset
  refine ⟨dict, ?_, hvalid, hdense, hentries⟩
  unfold LoadState.store
  rw [hset]

/-- `iniparser_line` and the `switch` over its result. -/
theorem LoadState.Dense.loadLine (h : st.Dense) {line : List Char}
    (hfits : ∀ a, (iniparserLine st.sectionName line).assignment st.sectionName = some a →
      a.1.length ≤ asciiLineSz) :
    ∃ dict, loadLine st line = .done
        { dict := dict, pending := st.pending
          sectionName := (iniparserLine st.sectionName line).nextSection st.sectionName
          errs := (iniparserLine st.sectionName line).nextErrs st.errs } ∧
      dict.Valid ∧ dict.table.Dense ∧
      dict.entries = assignAll st.dict.entries
        ((iniparserLine st.sectionName line).assignment st.sectionName).toList := by
  unfold IniParser.loadLine
  cases hstatus : iniparserLine st.sectionName line with
  | error => exact ⟨st.dict, rfl, h.1, h.2, rfl⟩
  | empty => exact ⟨st.dict, rfl, h.1, h.2, rfl⟩
  | comment => exact ⟨st.dict, rfl, h.1, h.2, rfl⟩
  | sectionName name =>
      have h' : LoadState.Dense { st with sectionName := name } := h
      obtain ⟨dict, hstore, hvalid, hdense, hentries⟩ := h'.store name none
      exact ⟨dict, hstore, hvalid, hdense, hentries⟩
  | value key val =>
      rw [hstatus] at hfits
      obtain ⟨dict, hstore, hvalid, hdense, hentries⟩ :=
        h.store (valueKey st.sectionName key) (some val)
      refine ⟨dict, ?_, hvalid, hdense, hentries⟩
      dsimp only
      rw [if_pos (hfits _ rfl), hstore]
      rfl

end Line

/-! ## The loop -/

theorem fgets_line {l : List Char} (hline : '\n' ∉ l) {room : Nat} (hroom : l.length < room)
    (rest : List Char) : fgets room (l ++ '\n' :: rest) = (l ++ ['\n'], rest) := by
  induction l generalizing room with
  | nil =>
      obtain ⟨room, rfl⟩ := Nat.exists_eq_succ_of_ne_zero (Nat.ne_of_gt hroom)
      rw [List.nil_append, fgets, if_pos rfl]
      rfl
  | cons c l ih =>
      obtain ⟨room, rfl⟩ := Nat.exists_eq_succ_of_ne_zero (Nat.ne_of_gt (Nat.zero_lt_of_lt hroom))
      rw [List.mem_cons, not_or] at hline
      rw [List.length_cons] at hroom
      rw [List.cons_append, fgets, if_neg (Ne.symm hline.1),
        ih hline.2 (Nat.lt_of_succ_lt_succ hroom)]
      rfl

theorem cString_eq {l : List Char} (h : '\x00' ∉ l) : cString l = l := by
  unfold cString
  rw [List.takeWhile_eq_self_iff]
  intro c hc
  rw [bne_iff_ne]
  intro heq
  exact h (heq ▸ hc)

theorem isSpace_newline : isSpace '\n' = true := by decide

/-- A line that is not left out, with its newline. -/
theorem loadChunk_line {st : LoadState} {l : List Char} (hpending : '\x00' ∉ st.pending)
    (hl : '\x00' ∉ l) (hne : st.pending ++ l ≠ []) :
    loadChunk st (l ++ ['\n']) =
      match ((st.pending ++ l).rdropWhile isSpace).getLast? with
      | none => .fault
      | some last =>
          if last = '\\' then
            .done { st with pending := ((st.pending ++ l).rdropWhile isSpace).dropLast }
          else loadLine { st with pending := [] } ((st.pending ++ l).rdropWhile isSpace) := by
  have hbuffer : cString (st.pending ++ (l ++ ['\n'])) = (st.pending ++ l) ++ ['\n'] := by
    rw [cString_eq, List.append_assoc]
    simp [hpending, hl]
  obtain ⟨c, rest, hcons⟩ := List.exists_cons_of_ne_nil hne
  obtain ⟨c', rest', hrest⟩ := List.exists_cons_of_ne_nil
    (List.append_ne_nil_of_right_ne_nil rest (List.cons_ne_nil '\n' []))
  have hlong : (st.pending ++ l) ++ ['\n'] = c :: c' :: rest' := by
    rw [hcons, List.cons_append, hrest]
  unfold loadChunk
  rw [hbuffer, hlong]
  dsimp only
  have htrim : ((st.pending ++ l) ++ ['\n']).rdropWhile isSpace =
      (st.pending ++ l).rdropWhile isSpace :=
    List.rdropWhile_concat_pos isSpace _ _ isSpace_newline
  rw [← hlong, if_pos List.getLast?_concat]
  cases hlast : ((st.pending ++ l).rdropWhile isSpace).getLast? with
  | none => simp only [htrim, hlast]
  | some last => simp only [htrim, hlast]

theorem loadChunk_empty {st : LoadState} (h : st.pending = []) :
    loadChunk st ['\n'] = .done st := by
  unfold loadChunk
  rw [h]
  rfl

theorem text_cons (l : List Char) (rest : List (List Char)) :
    terminate '\n' (l :: rest) = l ++ '\n' :: terminate '\n' rest := terminate_cons l rest

/-- What the loop leaves. -/
theorem loadLoop_lines (lines : List (List Char)) :
    ∀ {st : LoadState} {fuel : Nat}, st.Dense → (∀ l ∈ lines, IsLine l) → '\x00' ∉ st.pending →
      LinesFit st.pending lines →
      (∀ a ∈ assignments st.sectionName (logicalLines st.pending lines),
        a.1.length ≤ asciiLineSz) →
      (terminate '\n' lines).length < fuel →
      ∃ st', loadLoop fuel (terminate '\n' lines) st = .done st' ∧ st'.Dense ∧
        st'.errs = trailingErrs st.sectionName st.errs (logicalLines st.pending lines) ∧
        st'.dict.entries = assignAll st.dict.entries
          (assignments st.sectionName (logicalLines st.pending lines)) := by
  induction lines with
  | nil =>
      intro st fuel hdense _ _ _ _ hfuel
      obtain ⟨fuel, rfl⟩ := Nat.exists_eq_succ_of_ne_zero (Nat.ne_of_gt (Nat.zero_lt_of_lt hfuel))
      exact ⟨st, rfl, hdense, rfl, rfl⟩
  | cons l rest ih =>
      intro st fuel hdense hall hpending hfit hkeys hfuel
      obtain ⟨⟨hnewline, hnul⟩, hlines⟩ := List.forall_mem_cons.mp hall
      obtain ⟨fuel, rfl⟩ := Nat.exists_eq_succ_of_ne_zero (Nat.ne_of_gt (Nat.zero_lt_of_lt hfuel))
      rw [text_cons] at hfuel ⊢
      rw [List.length_append, List.length_cons] at hfuel
      have hmore : l ++ '\n' :: terminate '\n' rest ≠ [] := by simp
      have hfuel' : (terminate '\n' rest).length < fuel := by omega
      rw [loadLoop, if_neg hmore]
      dsimp only
      unfold LinesFit at hfit
      unfold logicalLines at hkeys ⊢
      by_cases hempty : st.pending ++ l = []
      · -- an empty line is left out
        rw [if_pos hempty] at hfit hkeys ⊢
        obtain ⟨hp, hl⟩ := List.append_eq_nil_iff.mp hempty
        subst hl
        rw [fgets_line List.not_mem_nil (by rw [hp]; decide)]
        dsimp only
        rw [List.nil_append, loadChunk_empty hp, Outcome.done_bind]
        have hrest := ih hdense hlines (by rw [hp]; exact List.not_mem_nil)
          (by rw [hp]; exact hfit) (by rw [hp]; exact hkeys) hfuel'
        rw [hp] at hrest
        exact hrest
      · rw [if_neg hempty] at hfit hkeys ⊢
        dsimp only at hfit hkeys ⊢
        obtain ⟨hlong, hblank, hfit⟩ := hfit
        rw [List.length_append] at hlong
        rw [fgets_line hnewline (by omega), loadChunk_line hpending hnul hempty]
        dsimp only
        cases hlast : ((st.pending ++ l).rdropWhile isSpace).getLast? with
        | none => exact absurd (List.getLast?_eq_none_iff.mp hlast) hblank
        | some last =>
            rw [hlast] at hfit hkeys
            dsimp only
            have hclean : '\x00' ∉ (st.pending ++ l).rdropWhile isSpace := by
              intro hmem
              have hmem := (List.rdropWhile_prefix isSpace _).subset hmem
              rw [List.mem_append] at hmem
              exact hmem.elim hpending hnul
            by_cases hslash : last = '\\'
            · -- the line goes on in the next one
              subst hslash
              rw [if_pos rfl, Outcome.done_bind]
              rw [if_pos rfl] at hfit hkeys ⊢
              have hdense' : LoadState.Dense { st with
                  pending := ((st.pending ++ l).rdropWhile isSpace).dropLast } := hdense
              exact ih hdense' hlines (fun hmem => hclean (List.dropLast_subset _ hmem)) hfit hkeys
                hfuel'
            · have hsome : ¬ some last = some '\\' := fun heq => hslash (Option.some.inj heq)
              rw [if_neg hslash]
              rw [if_neg hsome] at hfit hkeys ⊢
              have hdense' : LoadState.Dense { st with pending := [] } := hdense
              have hkey : ∀ a, (iniparserLine st.sectionName
                  ((st.pending ++ l).rdropWhile isSpace)).assignment st.sectionName = some a →
                  a.1.length ≤ asciiLineSz := fun a ha =>
                hkeys a (List.mem_append_left _ (Option.mem_toList.mpr ha))
              obtain ⟨dict, hline, hvalid, htable, hentries⟩ := hdense'.loadLine hkey
              dsimp only at hline hentries
              rw [hline, Outcome.done_bind]
              obtain ⟨st', hloop, hdense'', herrs, hentries'⟩ := ih
                (show LoadState.Dense ⟨dict, _, [], _⟩ from ⟨hvalid, htable⟩) hlines
                List.not_mem_nil hfit (fun a ha => hkeys a (List.mem_append_right _ ha)) hfuel'
              refine ⟨st', hloop, hdense'', herrs, ?_⟩
              rw [hentries']
              dsimp only
              rw [hentries]
              unfold assignAll
              rw [← List.foldl_append]
              rfl

end DragonDevice.IniParser
