/-
  IniParser/Sections.lean --- the sections of a dictionary, and writing it as an ini file.

  A section is a key without a colon.  `iniparser_dump_ini` writes section by section, and
  within each the entries whose keys begin with its name and a colon.
-/
import DragonDevice.IniParser.LoadLines

set_option autoImplicit false

namespace DragonDevice.IniParser

open DragonDevice.Lib
open DragonDevice.Dsp (isSpace)

/-! ## Reading -/

/-- A key that `strchr` finds no colon in. -/
def isSection (key : List Char) : Bool := !key.contains ':'

/-- `iniparser_getnsec` -/
def iniparserGetnsec (d : Dictionary) : Nat :=
  d.slots.countP fun slot => slot.key.any isSection

/-- The loop of `iniparser_getsecname`, with the sections still to pass. -/
def secnameFrom : List Slot → Nat → Option (List Char)
  | [], _ => none
  | slot :: rest, n =>
      match slot.key with
      | none => secnameFrom rest n
      | some key =>
          if isSection key then
            match n with
            | 0 => some key
            | n + 1 => secnameFrom rest n
          else secnameFrom rest n

/-- `iniparser_getsecname` -/
def iniparserGetsecname (d : Dictionary) (n : Nat) : Option (List Char) := secnameFrom d.slots n

/-- `iniparser_getstring` -/
def iniparserGetstring (d : Dictionary) (key : List Char) (default : Option (List Char)) :
    Option (List Char) :=
  dictionaryGet d (strlwc key) default

/-- `iniparser_find_entry`, for which a `NULL` value is there. -/
def iniparserFindEntry (d : Dictionary) (entry : List Char) : Bool :=
  (d.find (strlwc entry)).isSome

/-! ## Writing -/

/-- `%-30s` -/
def padRight (width : Nat) (s : List Char) : List Char :=
  s ++ List.replicate (width - s.length) ' '

/-- `%s`, for a pointer that may be `NULL`. -/
def printString (s : Option (List Char)) : List Char := s.getD "(null)".toList

/-- `iniparser_dumpsection_ini` -/
def iniparserDumpsectionIni (d : Dictionary) (s : List Char) : List Char :=
  if iniparserFindEntry d s then
    "\n[".toList ++ s ++ "]\n".toList ++
      (d.slots.flatMap fun slot =>
        match slot.key with
        | none => []
        | some key =>
            if (s ++ [':']).isPrefixOf key then
              padRight 30 (key.drop (s.length + 1)) ++ " = ".toList ++ slot.val.getD [] ++ ['\n']
            else []) ++
      ['\n']
  else []

/-- `iniparser_dump_ini` -/
def iniparserDumpIni (d : Dictionary) : List Char :=
  if iniparserGetnsec d < 1 then
    d.slots.flatMap fun slot =>
      match slot.key with
      | none => []
      | some key => key ++ " = ".toList ++ printString slot.val ++ ['\n']
  else
    ((List.range (iniparserGetnsec d)).flatMap fun i =>
      match iniparserGetsecname d i with
      | none => []
      | some secname => iniparserDumpsectionIni d secname) ++ ['\n']

/-! ## Sections and entries -/

namespace Dictionary

/-- The names of the sections in the order of their slots. -/
def sections (d : Dictionary) : List (List Char) := (d.entries.map Prod.fst).filter isSection

variable {d : Dictionary}

/-- A loop over the slots that leaves out the free ones is one over the entries. -/
theorem flatMap_slots {β : Type} (f : List Char → Option (List Char) → List β) :
    (d.slots.flatMap fun slot =>
      match slot.key with
      | none => []
      | some key => f key slot.val) = d.entries.flatMap fun e => f e.1 e.2 := by
  unfold entries table
  induction d.slots with
  | nil => rfl
  | cons slot slots ih =>
      rw [List.flatMap_cons, ih, List.map_cons]
      unfold SlotTable.entries Slot.entry
      cases hkey : slot.key with
      | none => rw [Option.map_none, List.filterMap_cons_none rfl]; rfl
      | some key => rw [Option.map_some, List.filterMap_cons_some (f := id) rfl, List.flatMap_cons]

theorem getsecname_eq (n : Nat) : iniparserGetsecname d n = d.sections[n]? := by
  unfold iniparserGetsecname sections entries table
  induction d.slots generalizing n with
  | nil => rfl
  | cons slot slots ih =>
      rw [secnameFrom, List.map_cons]
      unfold SlotTable.entries Slot.entry at *
      cases hkey : slot.key with
      | none =>
          rw [Option.map_none, List.filterMap_cons_none rfl]
          exact ih n
      | some key =>
          rw [Option.map_some, List.filterMap_cons_some (f := id) rfl, List.map_cons,
            List.filter_cons]
          dsimp only
          cases isSection key with
          | false => exact ih n
          | true =>
              rw [if_pos rfl, if_pos rfl]
              cases n with
              | zero => rfl
              | succ n => exact ih n

theorem getnsec_eq : iniparserGetnsec d = d.sections.length := by
  unfold iniparserGetnsec sections entries table
  induction d.slots with
  | nil => rfl
  | cons slot slots ih =>
      rw [List.countP_cons, ih, List.map_cons]
      unfold SlotTable.entries Slot.entry
      cases hkey : slot.key with
      | none => rw [Option.map_none, List.filterMap_cons_none rfl]; rfl
      | some key =>
          rw [Option.map_some, List.filterMap_cons_some (f := id) rfl, List.map_cons,
            List.filter_cons, Option.any_some]
          cases isSection key with
          | false => rfl
          | true => rfl

end Dictionary

/-! ## What a file means -/

theorem lookup_assignAll (l entries : List Assignment) (key : List Char) :
    List.lookup key (assignAll entries l) =
      (List.lookup key l.reverse).or (List.lookup key entries) := by
  induction l generalizing entries with
  | nil => rfl
  | cons a l ih =>
      have hstep : assignAll entries (a :: l) =
          assignAll (SlotTable.upsert entries a.1 a.2) l := rfl
      rw [hstep, ih, SlotTable.lookup_upsert, List.reverse_cons, List.lookup_append,
        Option.or_assoc]
      congr 1
      rw [List.lookup_cons, List.lookup_nil]
      by_cases hk : key = a.1
      · rw [if_pos hk, hk, beq_self_eq_true]
        rfl
      · rw [if_neg hk, beq_eq_false_iff_ne.mpr hk]
        rfl

/-- The lines of a file that `iniparser_load` reads without going outside its buffers. -/
structure Readable (lines : List (List Char)) : Prop where
  clean : ∀ l ∈ lines, IsLine l
  fit : LinesFit [] lines
  keys : ∀ a ∈ assignments [] (logicalLines [] lines), a.1.length ≤ asciiLineSz

/-- What `iniparser_load` returns for such lines. -/
theorem Readable.load {lines : List (List Char)} (h : Readable lines) :
    ∃ d : Dictionary, d.Valid ∧ d.entries = assignAll [] (assignments [] (logicalLines [] lines)) ∧
      iniparserLoad (terminate '\n' lines) =
        if trailingErrs [] 0 (logicalLines [] lines) = 0 then .done d else .failed := by
  obtain ⟨hvalid, hentries⟩ := Dictionary.valid_new 0
  have hdense : loadStart.Dense := by
    refine ⟨hvalid, (dictionaryNew 0).slots.length, ?_⟩
    unfold Dictionary.entries at hentries
    rw [show loadStart.dict = dictionaryNew 0 from rfl, hentries]
    unfold Dictionary.table dictionaryNew
    rw [List.map_replicate, List.length_replicate]
    rfl
  obtain ⟨st, hloop, hdense', herrs, hall⟩ := loadLoop_lines lines hdense h.clean
    List.not_mem_nil h.fit h.keys (Nat.lt_succ_self (terminate '\n' lines).length)
  refine ⟨st.dict, hdense'.1, ?_, ?_⟩
  · rw [hall]
    exact congrArg (fun entries => assignAll entries _) hentries
  · unfold iniparserLoad
    rw [hloop, Outcome.done_bind, herrs]
    rfl

/-- For lines that fit, `iniparser_load` fails exactly when a syntax error comes behind the last
assignment.  Otherwise it returns a dictionary: the last assignment to a key counts, keys are
looked up in any case, and the sections are numbered as they first come. -/
theorem load_means {lines : List (List Char)} (h : Readable lines) :
    (iniparserLoad (terminate '\n' lines) = .failed ↔
      trailingErrs [] 0 (logicalLines [] lines) ≠ 0) ∧
    (trailingErrs [] 0 (logicalLines [] lines) = 0 →
      ∃ d, iniparserLoad (terminate '\n' lines) = .done d ∧
        (∀ key default, iniparserGetstring d key default =
          (List.lookup (strlwc key)
            (assignments [] (logicalLines [] lines)).reverse).getD default) ∧
        iniparserGetnsec d = (((assignAll [] (assignments [] (logicalLines [] lines))).map
          Prod.fst).filter isSection).length ∧
        ∀ n, iniparserGetsecname d n = (((assignAll [] (assignments [] (logicalLines [] lines))).map
          Prod.fst).filter isSection)[n]?) := by
  obtain ⟨d, hvalid, hentries, hload⟩ := h.load
  rw [hload]
  by_cases herrs : trailingErrs [] 0 (logicalLines [] lines) = 0
  · rw [if_pos herrs]
    refine ⟨⟨fun hfail => ?_, fun hne => absurd herrs hne⟩, fun _ => ?_⟩
    · cases hfail
    refine ⟨d, rfl, fun key default => ?_, ?_, fun n => ?_⟩
    · rw [iniparserGetstring, dictionaryGet, hvalid.find_eq, Dictionary.map, SlotTable.lookup]
      unfold Dictionary.entries at hentries
      rw [hentries, lookup_assignAll, List.lookup_nil, Option.or_none]
    · rw [Dictionary.getnsec_eq, Dictionary.sections, hentries]
    · rw [Dictionary.getsecname_eq, Dictionary.sections, hentries]
  · rw [if_neg herrs]
    exact ⟨⟨fun _ => herrs, fun _ => rfl⟩, fun hzero => absurd hzero herrs⟩

/-- A syntax error in front of an assignment, a value over two lines, and a key that is assigned
again. -/
def forgivenLines : List (List Char) :=
  ["[EQ]".toList, "gain = 0".toList, "oops".toList, "Gain = -3\\".toList, ".5 ; dB".toList]

theorem readable_forgivenLines : Readable forgivenLines := ⟨by decide, by decide, by decide⟩

/-- The error is forgiven. -/
theorem load_means_forgiven :
    ∃ d, iniparserLoad (terminate '\n' forgivenLines) = .done d ∧
      iniparserGetstring d "EQ:gain".toList none = some "-3.5".toList ∧
      iniparserGetnsec d = 1 := by
  obtain ⟨d, hload, hget, hcount, _⟩ := (load_means readable_forgivenLines).2 (by decide)
  refine ⟨d, hload, ?_, ?_⟩
  · rw [hget]
    decide
  · rw [hcount]
    decide

end DragonDevice.IniParser
