/-
  IniParser/RoundTrip.lean --- a dictionary that is written as an ini file and read again.

  Sections and values come back when their texts have nothing in them that a line gives a
  meaning to, when they are in lower case, and when each value belongs to a section that is
  there.  The entries are then read in the order of the sections.
-/
import DragonDevice.IniParser.Sections
import DragonDevice.Lib.Transition

set_option autoImplicit false

namespace DragonDevice.IniParser

open DragonDevice.Lib
open DragonDevice.Dsp (isSpace)

/-! ## Texts that can be written -/

structure SectionText (s : List Char) : Prop where
  nonempty : s ≠ []
  clean : IsLine s
  plain : ']' ∉ s
  lower : s.map Char.toLower = s
  head : HeadNot isSpace s
  last : LastNot isSpace s
  short : s.length + 3 < asciiLineSz

structure KeyText (key : List Char) : Prop where
  nonempty : key ≠ []
  clean : IsLine key
  plain : '=' ∉ key
  lower : key.map Char.toLower = key
  head : HeadNot isSpace key
  last : LastNot isSpace key
  first : HeadNot (fun c => c == '#' || c == ';' || c == '[') key

structure ValueText (v : List Char) : Prop where
  clean : IsLine v
  plain : ∀ c ∈ v, (c != ';' && c != '#') = true
  head : HeadNot isSpace v
  last : LastNot isSpace v
  first : HeadNot (fun c => c == '"' || c == '\'') v
  ending : LastNot (· == '\\') v

/-- A dictionary that can be written and read again. -/
structure Dumpable (d : Dictionary) : Prop where
  valid : d.Valid
  sections : ∀ e ∈ d.entries, isSection e.1 = true → e.2 = none ∧ SectionText e.1
  values : ∀ e ∈ d.entries, isSection e.1 = false → ∃ s key v, e = (valueKey s key, some v) ∧
    (s, none) ∈ d.entries ∧ isSection s = true ∧ KeyText key ∧ ValueText v ∧
    max 30 key.length + v.length + 4 < asciiLineSz ∧ (valueKey s key).length ≤ asciiLineSz

/-! ## Lines -/

/-- The line of a section. -/
def sectionLine (s : List Char) : List Char := '[' :: s ++ [']']

/-- The line of a value, as it is written. -/
def valueLine (key v : List Char) : List Char := padRight 30 key ++ " = ".toList ++ v

/-- The line of a value without the blanks at its end. -/
def valueText (key v : List Char) : List Char :=
  (key ++ List.replicate (30 - key.length + 1) ' ') ++ '=' :: (if v = [] then [] else ' ' :: v)

theorem isSpace_blank : isSpace ' ' = true := by decide

theorem forall_replicate_blank (m : Nat) : ∀ c ∈ List.replicate m ' ', isSpace c = true := by
  intro c hc
  rw [List.eq_of_mem_replicate hc]
  exact isSpace_blank

theorem valueLine_eq (key v : List Char) :
    valueLine key v = valueText key v ++ if v = [] then [' '] else [] := by
  unfold valueLine valueText padRight
  rw [List.replicate_succ']
  split
  · rename_i hv
    subst hv
    simp
  · simp

/-- `strlwc` of a text that is in lower case. -/
theorem strlwc_eq {s : List Char} (hlower : s.map Char.toLower = s)
    (hlen : s.length ≤ asciiLineSz) : strlwc s = s := by
  unfold strlwc
  rw [List.take_of_length_le hlen, hlower]

theorem strstrip_eq {s : List Char} (hhead : HeadNot isSpace s) (hlast : LastNot isSpace s) :
    strstrip s = s := strip_self hhead hlast

/-- A section is read from its line. -/
theorem iniparserLine_section {s : List Char} (h : SectionText s) (sectionName : List Char) :
    iniparserLine sectionName (sectionLine s) = .sectionName s := by
  have hstrip : strstrip (sectionLine s) = sectionLine s :=
    strstrip_eq (headNot_cons.mpr (by decide)) (lastNot_concat.mpr (by decide))
  have hscan : sscanf isSpace sectionFormat (sectionLine s) = [s] := by
    unfold sectionFormat sectionLine
    rw [List.cons_append, sscanf_lit, sscanf_scan h.nonempty]
    · rfl
    · intro c hc
      rw [bne_iff_ne]
      intro heq
      exact h.plain (heq ▸ hc)
    · exact headNot_cons.mpr (by decide)
  have hlen : ¬ (sectionLine s).length < 1 := by
    rw [sectionLine, List.cons_append, List.length_cons]
    omega
  have hlast : (sectionLine s).getLast? = some ']' := by
    rw [sectionLine]
    exact List.getLast?_concat
  have hshort := h.short
  unfold iniparserLine
  rw [hstrip]
  dsimp only
  have hhead : (sectionLine s).head? = some '[' := rfl
  rw [if_neg hlen, hhead, hlast, if_neg (by decide), if_pos ⟨rfl, rfl⟩, hscan, List.headD_cons,
    strstrip_eq h.head h.last, strlwc_eq h.lower (by omega)]

section Value

variable {key v : List Char}

/-- The key is read from the line of a value, up to what follows the `=`. -/
theorem sscanf_key (hkey : KeyText key) (hv : ValueText v) (format : List (Directive Char)) :
    sscanf isSpace (keyFormat format) (valueText key v) =
      (key ++ List.replicate (30 - key.length + 1) ' ') :: sscanf isSpace format v := by
  unfold keyFormat valueText
  simp only [List.cons_append, List.nil_append]
  rw [sscanf_scan]
  · congr 1
    have hequals : HeadNot isSpace ('=' :: (if v = [] then [] else ' ' :: v)) :=
      headNot_cons.mpr (by decide)
    have hstart : sscanf isSpace (.space :: .lit '=' :: .space :: format)
        ('=' :: (if v = [] then [] else ' ' :: v)) = sscanf isSpace (.lit '=' :: .space :: format)
          ('=' :: (if v = [] then [] else ' ' :: v)) :=
      sscanf_space (List.forall_mem_nil _) hequals
    rw [hstart, sscanf_lit]
    split
    · rename_i hnil
      subst hnil
      exact sscanf_space (List.forall_mem_nil _) headNot_nil
    · exact sscanf_space (forall_replicate_blank 1) hv.head
  · exact List.append_ne_nil_of_left_ne_nil hkey.nonempty _
  · intro c hc
    rw [bne_iff_ne]
    intro heq
    rw [heq, List.mem_append] at hc
    cases hc with
    | inl hc => exact hkey.plain hc
    | inr hc => exact absurd (List.eq_of_mem_replicate hc) (by decide)
  · exact headNot_cons.mpr (by decide)

/-- The line of a value is stripped. -/
theorem valueText_ends (hkey : KeyText key) (hv : ValueText v) :
    HeadNot isSpace (valueText key v) ∧ LastNot isSpace (valueText key v) ∧
      LastNot (· == '\\') (valueText key v) := by
  have hlast : ∀ p : Char → Bool, p '=' = false → LastNot p v → LastNot p (valueText key v) := by
    intro p hp hpv
    unfold valueText
    split
    · exact lastNot_concat.mpr hp
    · rename_i hne
      have hcut : (key ++ List.replicate (30 - key.length + 1) ' ') ++ '=' :: ' ' :: v =
          ((key ++ List.replicate (30 - key.length + 1) ' ') ++ ['=', ' ']) ++ v := by
        rw [List.append_assoc _ ['=', ' '] v]
        rfl
      rw [hcut]
      exact hpv.append hne
  refine ⟨?_, hlast isSpace (by decide) hv.last, hlast _ (by decide) hv.ending⟩
  unfold valueText
  rw [List.append_assoc]
  exact hkey.head.append hkey.nonempty

theorem bothScanned_pair (key value : List Char) :
    bothScanned [key, value] = some (key, value) := rfl

theorem bothScanned_key (key : List Char) : bothScanned [key] = none := rfl

theorem scanPair_of_eq {line : List Char} {format : List (Directive Char)} {l : List (List Char)}
    (h : sscanf isSpace format line = l) : scanPair line format = bothScanned l := by
  rw [scanPair, h]

/-- A value is read from its line. -/
theorem iniparserLine_value (hkey : KeyText key) (hv : ValueText v)
    (hlen : key.length ≤ asciiLineSz) (sectionName : List Char) :
    iniparserLine sectionName (valueText key v) = .value key v := by
  obtain ⟨hhead, hlast, -⟩ := valueText_ends hkey hv
  obtain ⟨c, rest, hcons⟩ := List.exists_cons_of_ne_nil hkey.nonempty
  have hfirst : (valueText key v).head? = some c := by rw [valueText, hcons]; rfl
  have hc := hkey.first
  rw [hcons, headNot_cons] at hc
  rw [Bool.or_eq_false_iff, Bool.or_eq_false_iff, beq_eq_false_iff_ne, beq_eq_false_iff_ne,
    beq_eq_false_iff_ne] at hc
  obtain ⟨⟨hhash, hsemicolon⟩, hbracket⟩ := hc
  have hcomment : ¬ (some c = some '#' ∨ some c = some ';') := by
    rw [Option.some.injEq, Option.some.injEq, not_or]
    exact ⟨hhash, hsemicolon⟩
  have hsection : ¬ (some c = some '[' ∧ (valueText key v).getLast? = some ']') := by
    rw [Option.some.injEq]
    exact fun h => hbracket h.1
  have hlong : ¬ (valueText key v).length < 1 := by
    unfold valueText
    rw [List.length_append, List.length_cons]
    omega
  have hname : strlwc (strstrip (key ++ List.replicate (30 - key.length + 1) ' ')) = key := by
    have hstrip : strip isSpace (key ++ List.replicate (30 - key.length + 1) ' ') = key :=
      strip_pad (List.forall_mem_nil _) (forall_replicate_blank (30 - key.length + 1)) hkey.head
        hkey.last
    rw [strstrip, hstrip, strlwc_eq hkey.lower hlen]
  have hquote : ∀ q : Char, (q == '"' || q == '\'') = true → HeadNot (· == q) v := by
    intro q hq a ha
    have hfirst := hv.first a ha
    apply beq_eq_false_iff_ne.mpr
    intro heq
    subst heq
    exact Bool.false_ne_true (hfirst.symm.trans hq)
  -- the two formats for quotes fail behind the key
  have hquoted : ∀ q : Char, (q == '"' || q == '\'') = true → ∀ format : List (Directive Char),
      scanPair (valueText key v) (keyFormat (.lit q :: format)) = none := by
    intro q hq format
    rw [scanPair_of_eq (sscanf_key hkey hv _), sscanf_lit_ne (hquote q hq), bothScanned_key]
  unfold iniparserLine
  rw [strstrip_eq hhead hlast]
  dsimp only
  rw [if_neg hlong, hfirst, if_neg hcomment, if_neg hsection]
  unfold valueFormats
  rw [List.findSome?_cons, hquoted '"' (by decide), List.findSome?_cons, hquoted '\'' (by decide),
    List.findSome?_cons, scanPair_of_eq (sscanf_key hkey hv _)]
  by_cases hnil : v = []
  · -- nothing comes behind the `=`
    have hnone : sscanf isSpace [.scan fun c => c != ';' && c != '#'] v = [] := by
      rw [hnil]
      exact sscanf_scan_fails headNot_nil
    have hnone' : sscanf isSpace [.scan fun c => c == ';' || c == '#'] v = [] := by
      rw [hnil]
      exact sscanf_scan_fails headNot_nil
    have hequals : sscanf isSpace [.scan (· != '='), .space, .scan (· == '=')] (valueText key v) =
        [key ++ List.replicate (30 - key.length + 1) ' ', ['=']] := by
      unfold valueText
      rw [if_pos hnil, sscanf_scan (List.append_ne_nil_of_left_ne_nil hkey.nonempty _)]
      · rfl
      · intro c hc
        rw [bne_iff_ne]
        intro heq
        rw [heq, List.mem_append] at hc
        cases hc with
        | inl hc => exact hkey.plain hc
        | inr hc => exact absurd (List.eq_of_mem_replicate hc) (by decide)
      · exact headNot_cons.mpr (by decide)
    rw [hnone, bothScanned_key]
    dsimp only
    rw [List.findSome?_nil]
    unfold emptyFormats
    rw [List.findSome?_cons, scanPair_of_eq (sscanf_key hkey hv _), hnone', bothScanned_key,
      List.findSome?_cons, scanPair_of_eq hequals, bothScanned_pair]
    dsimp only
    rw [hname, hnil]
  · have hall : sscanf isSpace [.scan fun c => c != ';' && c != '#'] v = [v] := by
      have hscan : sscanf isSpace [.scan fun c => c != ';' && c != '#'] (v ++ []) = [v] :=
        sscanf_scan hnil hv.plain headNot_nil
      rw [List.append_nil] at hscan
      exact hscan
    rw [hall, bothScanned_pair]
    dsimp only
    rw [hname, strstrip_eq hv.head hv.last, unquote, if_neg]
    rintro (hpair | hpair)
    · exact absurd (hv.first '"' (by rw [hpair]; rfl)) (by decide)
    · exact absurd (hv.first '\'' (by rw [hpair]; rfl)) (by decide)

end Value

/-! ## The written text -/

namespace Dictionary

/-- The keys and values of a section, in the order of their slots. -/
def sectionValues (d : Dictionary) (s : List Char) : List (List Char × List Char) :=
  d.entries.filterMap fun e =>
    if (s ++ [':']).isPrefixOf e.1 then some (e.1.drop (s.length + 1), e.2.getD []) else none

/-- The lines that are written for a section. -/
def sectionLines (d : Dictionary) (s : List Char) : List (List Char) :=
  [] :: sectionLine s :: ((d.sectionValues s).map fun e => valueLine e.1 e.2) ++ [[]]

def dumpLines (d : Dictionary) : List (List Char) :=
  if d.sections = [] then [] else d.sections.flatMap d.sectionLines ++ [[]]

/-- The lines as they are read again. -/
def dumpTexts (d : Dictionary) : List (List Char) :=
  d.sections.flatMap fun s =>
    sectionLine s :: (d.sectionValues s).map fun e => valueText e.1 e.2

/-- The entries in the order in which they are written. -/
def dumped (d : Dictionary) : List Assignment :=
  d.sections.flatMap fun s =>
    (s, none) :: (d.sectionValues s).map fun e => (valueKey s e.1, some e.2)

variable {d : Dictionary}

theorem terminate_append (ps qs : List (List Char)) :
    terminate '\n' (ps ++ qs) = terminate '\n' ps ++ terminate '\n' qs := List.flatMap_append

theorem terminate_flatMap {α : Type} (l : List α) (f : α → List (List Char)) :
    terminate '\n' (l.flatMap f) = l.flatMap fun a => terminate '\n' (f a) := List.flatMap_assoc

theorem range_flatMap {α β : Type} (l : List α) (f : α → List β) :
    ((List.range l.length).flatMap fun i => (l[i]?).elim [] f) = l.flatMap f := by
  induction l with
  | nil => rfl
  | cons a l ih =>
      rw [List.length_cons, List.range_succ_eq_map, List.flatMap_cons, List.flatMap_map]
      rw [List.flatMap_cons]
      congr 1

theorem dumpsection_eq {s : List Char} (hfound : iniparserFindEntry d s = true) :
    iniparserDumpsectionIni d s = terminate '\n' (d.sectionLines s) := by
  have hvalues : terminate '\n' ((d.sectionValues s).map fun e => valueLine e.1 e.2) =
      d.entries.flatMap fun e =>
        if (s ++ [':']).isPrefixOf e.1 then
          padRight 30 (e.1.drop (s.length + 1)) ++ " = ".toList ++ e.2.getD [] ++ ['\n']
        else [] := by
    unfold sectionValues
    induction d.entries with
    | nil => rfl
    | cons e entries ih =>
        rw [List.filterMap_cons, List.flatMap_cons]
        by_cases hprefixed : (s ++ [':']).isPrefixOf e.1 = true
        · rw [if_pos hprefixed, if_pos hprefixed]
          dsimp only
          rw [List.map_cons, terminate_cons, ih, valueLine]
          simp only [List.append_assoc, List.singleton_append]
        · rw [if_neg hprefixed, if_neg hprefixed]
          exact ih
  unfold iniparserDumpsectionIni sectionLines
  rw [if_pos hfound, flatMap_slots fun key val =>
    if (s ++ [':']).isPrefixOf key then
      padRight 30 (key.drop (s.length + 1)) ++ " = ".toList ++ val.getD [] ++ ['\n']
    else [], ← hvalues, List.cons_append, List.cons_append, terminate_cons, terminate_cons,
    terminate_append]
  simp [sectionLine, terminate]

/-- The text of a dictionary whose values all have sections. -/
theorem dump_eq (hfound : ∀ s ∈ d.sections, iniparserFindEntry d s = true)
    (hempty : d.sections = [] → d.entries = []) :
    iniparserDumpIni d = terminate '\n' d.dumpLines := by
  unfold iniparserDumpIni dumpLines
  rw [getnsec_eq]
  by_cases hnil : d.sections = []
  · rw [if_pos hnil, if_pos (by rw [hnil]; decide), flatMap_slots fun key val =>
      key ++ " = ".toList ++ printString val ++ ['\n'], hempty hnil]
    rfl
  · have hpos := List.length_pos_iff.mpr hnil
    rw [if_neg hnil, if_neg (by omega), terminate_append, terminate_flatMap]
    simp only [getsecname_eq]
    have hall := range_flatMap d.sections (iniparserDumpsectionIni d)
    rw [List.flatMap_def (f := iniparserDumpsectionIni d),
      List.map_congr_left fun s hs => dumpsection_eq (hfound s hs), ← List.flatMap_def] at hall
    rw [← hall]
    congr 2
    funext i
    cases d.sections[i]? with
    | none => rfl
    | some secname => rfl

end Dictionary

/-! ## The lines that are read -/

/-- A line that is read on its own. -/
structure PlainLine (l text : List Char) : Prop where
  clean : IsLine l
  stripped : l.rdropWhile isSpace = text
  nonempty : text ≠ []
  ending : LastNot (· == '\\') text
  short : l.length + 1 < asciiLineSz

/-- Lines that are read on their own, and empty ones. -/
inductive PlainLines : List (List Char) → List (List Char) → Prop where
  | nil : PlainLines [] []
  | empty {ls texts : List (List Char)} (h : PlainLines ls texts) : PlainLines ([] :: ls) texts
  | line {l text : List Char} {ls texts : List (List Char)} (hl : PlainLine l text)
      (h : PlainLines ls texts) : PlainLines (l :: ls) (text :: texts)

theorem PlainLines.append {ls texts ls' texts' : List (List Char)} (h : PlainLines ls texts)
    (h' : PlainLines ls' texts') : PlainLines (ls ++ ls') (texts ++ texts') := by
  induction h with
  | nil => exact h'
  | empty _ ih => exact .empty ih
  | line hl _ ih => exact .line hl ih

theorem PlainLines.flatMap {α : Type} {l : List α} {f g : α → List (List Char)}
    (h : ∀ a ∈ l, PlainLines (f a) (g a)) : PlainLines (l.flatMap f) (l.flatMap g) := by
  induction l with
  | nil => exact .nil
  | cons a l ih =>
      obtain ⟨ha, hl⟩ := List.forall_mem_cons.mp h
      rw [List.flatMap_cons, List.flatMap_cons]
      exact ha.append (ih hl)

theorem PlainLines.map {α : Type} {l : List α} {f g : α → List Char}
    (h : ∀ a ∈ l, PlainLine (f a) (g a)) : PlainLines (l.map f) (l.map g) := by
  induction l with
  | nil => exact .nil
  | cons a l ih =>
      obtain ⟨ha, hl⟩ := List.forall_mem_cons.mp h
      exact .line ha (ih hl)

theorem PlainLines.logical {ls texts : List (List Char)} (h : PlainLines ls texts) :
    (∀ l ∈ ls, IsLine l) ∧ LinesFit [] ls ∧ logicalLines [] ls = texts := by
  induction h with
  | nil => exact ⟨fun l hl => absurd hl List.not_mem_nil, trivial, rfl⟩
  | empty _ ih =>
      obtain ⟨hclean, hfit, hlogical⟩ := ih
      refine ⟨List.forall_mem_cons.mpr ⟨⟨List.not_mem_nil, List.not_mem_nil⟩, hclean⟩, ?_, ?_⟩
      · rw [LinesFit, if_pos (List.append_nil [])]
        exact hfit
      · rw [logicalLines, if_pos (List.append_nil [])]
        exact hlogical
  | @line l text ls texts hl _ ih =>
      obtain ⟨hclean, hfit, hlogical⟩ := ih
      have hne : ¬ ([] : List Char) ++ l = [] := by
        intro hnil
        rw [List.nil_append] at hnil
        have hstripped := hl.stripped
        rw [hnil] at hstripped
        exact hl.nonempty hstripped.symm
      have hslash : ¬ text.getLast? = some '\\' := by
        intro hlast
        exact absurd (hl.ending '\\' hlast) (by decide)
      refine ⟨List.forall_mem_cons.mpr ⟨hl.clean, hclean⟩, ?_, ?_⟩
      · rw [LinesFit, if_neg hne]
        dsimp only
        rw [List.nil_append, hl.stripped, if_neg hslash]
        exact ⟨hl.short, hl.nonempty, hfit⟩
      · rw [logicalLines, if_neg hne]
        dsimp only
        rw [List.nil_append, hl.stripped, if_neg hslash, hlogical]

/-! ## What is read again -/

theorem isPrefixOf_key {s key : List Char} :
    (s ++ [':']).isPrefixOf key = true ↔ ∃ rest, key = valueKey s rest := by
  rw [List.isPrefixOf_iff_prefix]
  constructor
  · rintro ⟨rest, rfl⟩
    exact ⟨rest, by rw [valueKey, List.append_assoc, List.singleton_append]⟩
  · rintro ⟨rest, rfl⟩
    exact ⟨rest, by rw [valueKey, List.append_assoc, List.singleton_append]⟩

theorem drop_valueKey (s rest : List Char) : (valueKey s rest).drop (s.length + 1) = rest := by
  rw [valueKey, ← List.drop_drop, List.drop_left]
  rfl

theorem isSection_valueKey (s rest : List Char) : isSection (valueKey s rest) = false := by
  simp [isSection, valueKey]

/-- A name without a colon is what stands before the first colon. -/
theorem valueKey_inj {s s' rest rest' : List Char} (hs : isSection s = true)
    (hs' : isSection s' = true) (h : valueKey s rest = valueKey s' rest') :
    s = s' ∧ rest = rest' := by
  have hcolon : ∀ t : List Char, isSection t = true →
      ∀ r, (valueKey t r).takeWhile (· != ':') = t := by
    intro t ht r
    apply takeWhile_part
    · intro c hc
      rw [bne_iff_ne]
      intro heq
      unfold isSection at ht
      rw [heq] at hc
      simp [hc] at ht
    · exact headNot_cons.mpr (by decide)
  have hname : s = s' := by rw [← hcolon s hs rest, h, hcolon s' hs' rest']
  subst hname
  exact ⟨rfl, List.cons.inj (List.append_cancel_left h) |>.2⟩

section Dumped

variable {d : Dictionary}

theorem Dictionary.mem_sections {s : List Char} :
    s ∈ d.sections ↔ isSection s = true ∧ ∃ val, (s, val) ∈ d.entries := by
  rw [Dictionary.sections, List.mem_filter, List.mem_map, and_comm]
  simp

theorem Dumpable.mem_sections (h : Dumpable d) {s : List Char} :
    s ∈ d.sections ↔ isSection s = true ∧ (s, none) ∈ d.entries := by
  rw [Dictionary.mem_sections]
  refine and_congr_right fun hs => ⟨fun ⟨val, hval⟩ => ?_, fun hs' => ⟨none, hs'⟩⟩
  have hnone := (h.sections _ hval hs).1
  dsimp only at hnone
  rw [hnone] at hval
  exact hval

theorem Dumpable.mem_sectionValues (h : Dumpable d) {s : List Char} {e : List Char × List Char} :
    e ∈ d.sectionValues s ↔ (valueKey s e.1, some e.2) ∈ d.entries := by
  unfold Dictionary.sectionValues
  rw [List.mem_filterMap]
  constructor
  · rintro ⟨e', he', heq⟩
    obtain ⟨hprefixed, heq⟩ := guarded_eq_some heq
    obtain ⟨rest, hrest⟩ := isPrefixOf_key.mp hprefixed
    obtain ⟨s', key, v, hv, -⟩ := h.values e' he' (by rw [hrest]; exact isSection_valueKey s rest)
    subst heq
    dsimp only
    rw [hrest, drop_valueKey, ← hrest, hv]
    rw [hv] at he'
    exact he'
  · intro he
    refine ⟨_, he, ?_⟩
    rw [if_pos (isPrefixOf_key.mpr ⟨e.1, rfl⟩), drop_valueKey]
    rfl

/-- What is known of a value that is written. -/
theorem Dumpable.value_spec (h : Dumpable d) {s : List Char} (hs : isSection s = true)
    {e : List Char × List Char} (he : e ∈ d.sectionValues s) :
    KeyText e.1 ∧ ValueText e.2 ∧ max 30 e.1.length + e.2.length + 4 < asciiLineSz ∧
      (valueKey s e.1).length ≤ asciiLineSz := by
  obtain ⟨s', key, v, heq, -, hs', hkey, hv, hline, hlen⟩ :=
    h.values _ (h.mem_sectionValues.mp he) (isSection_valueKey s e.1)
  obtain ⟨hname, hval⟩ := Prod.mk.inj heq
  obtain ⟨rfl, hk⟩ := valueKey_inj hs hs' hname
  cases Option.some.inj hval
  subst hk
  exact ⟨hkey, hv, hline, hlen⟩

theorem Dumpable.plainLines (h : Dumpable d) : PlainLines d.dumpLines d.dumpTexts := by
  have hblock : ∀ s ∈ d.sections, PlainLines (d.sectionLines s)
      (sectionLine s :: (d.sectionValues s).map fun e => valueText e.1 e.2) := by
    intro s hs
    obtain ⟨hsection, hentry⟩ := h.mem_sections.mp hs
    have hname : SectionText s := (h.sections _ hentry hsection).2
    have hvalues : PlainLines ((d.sectionValues s).map fun e => valueLine e.1 e.2)
        ((d.sectionValues s).map fun e => valueText e.1 e.2) := by
      refine PlainLines.map fun e he => ?_
      obtain ⟨hkey, hv, hline, -⟩ := h.value_spec hsection he
      obtain ⟨-, hlast, hslash⟩ := valueText_ends hkey hv
      refine ⟨⟨?_, ?_⟩, ?_, ?_, hslash, ?_⟩
      · unfold valueLine padRight
        have hkeyLine := hkey.clean.1
        have hvLine := hv.clean.1
        simp [hkeyLine, hvLine]
      · unfold valueLine padRight
        have hkeyLine := hkey.clean.2
        have hvLine := hv.clean.2
        simp [hkeyLine, hvLine]
      · rw [valueLine_eq]
        apply rdropWhile_part _ hlast
        intro c hc
        split at hc
        · rw [List.mem_singleton.mp hc]
          exact isSpace_blank
        · exact absurd hc List.not_mem_nil
      · exact List.append_ne_nil_of_left_ne_nil
          (List.append_ne_nil_of_left_ne_nil hkey.nonempty _) _
      · unfold valueLine padRight
        have hblanks : " = ".toList.length = 3 := rfl
        rw [List.length_append, List.length_append, List.length_append, List.length_replicate,
          hblanks]
        omega
    have hline : PlainLine (sectionLine s) (sectionLine s) := by
      have hclean := hname.clean
      have hshort := hname.short
      have hlen : (sectionLine s).length = s.length + 2 := by simp [sectionLine]
      refine ⟨⟨?_, ?_⟩, LastNot.rdropWhile (lastNot_concat.mpr (by decide)), by simp [sectionLine],
        lastNot_concat.mpr (by decide), by omega⟩
      · simp [sectionLine, hclean.1]
      · simp [sectionLine, hclean.2]
    unfold Dictionary.sectionLines
    have hall := PlainLines.empty (PlainLines.line hline (hvalues.append (.empty .nil)))
    rw [List.append_nil] at hall
    exact hall
  unfold Dictionary.dumpLines Dictionary.dumpTexts
  split
  · rename_i hnil
    rw [hnil]
    exact .nil
  · have hall := (PlainLines.flatMap hblock).append (.empty .nil)
    rw [List.append_nil] at hall
    exact hall

/-- The lines of the values of a section are assignments. -/
theorem Dumpable.assignments_values (h : Dumpable d) {s : List Char} (hs : isSection s = true) :
    ∀ (l : List (List Char × List Char)), (∀ e ∈ l, e ∈ d.sectionValues s) →
      ∀ (rest : List (List Char)),
      assignments s (l.map (fun e => valueText e.1 e.2) ++ rest) =
        l.map (fun e => (valueKey s e.1, some e.2)) ++ assignments s rest ∧
      trailingErrs s 0 (l.map (fun e => valueText e.1 e.2) ++ rest) = trailingErrs s 0 rest := by
  intro l
  induction l with
  | nil => exact fun _ rest => ⟨rfl, rfl⟩
  | cons e l ih =>
      intro hl rest
      obtain ⟨he, hl⟩ := List.forall_mem_cons.mp hl
      obtain ⟨hkey, hv, hline, -⟩ := h.value_spec hs he
      obtain ⟨hassign, herrs⟩ := ih hl rest
      have hread := iniparserLine_value hkey hv (by omega) s
      constructor
      · rw [List.map_cons, List.cons_append, assignments, hread, List.map_cons, List.cons_append,
          ← hassign]
        rfl
      · rw [List.map_cons, List.cons_append, trailingErrs, hread]
        exact herrs

/-- The lines that are read give the entries in the order in which they are written. -/
theorem Dumpable.assignments_eq (h : Dumpable d) (sectionName : List Char) :
    assignments sectionName d.dumpTexts = d.dumped ∧
      trailingErrs sectionName 0 d.dumpTexts = 0 := by
  have hall : ∀ (l : List (List Char)), (∀ s ∈ l, s ∈ d.sections) → ∀ sectionName,
      assignments sectionName (l.flatMap fun s =>
        sectionLine s :: (d.sectionValues s).map fun e => valueText e.1 e.2) =
      (l.flatMap fun s =>
        (s, none) :: (d.sectionValues s).map fun e => (valueKey s e.1, some e.2)) ∧
      trailingErrs sectionName 0 (l.flatMap fun s =>
        sectionLine s :: (d.sectionValues s).map fun e => valueText e.1 e.2) = 0 := by
    intro l
    induction l with
    | nil => exact fun _ sectionName => ⟨rfl, rfl⟩
    | cons s l ih =>
        intro hl sectionName
        obtain ⟨hs, hl⟩ := List.forall_mem_cons.mp hl
        obtain ⟨hsection, hentry⟩ := h.mem_sections.mp hs
        have hread := iniparserLine_section (h.sections _ hentry hsection).2 sectionName
        obtain ⟨hassign, herrs⟩ := ih hl s
        obtain ⟨hvalues, hvalueErrs⟩ := h.assignments_values hsection (d.sectionValues s)
          (fun e he => he) (l.flatMap fun s =>
            sectionLine s :: (d.sectionValues s).map fun e => valueText e.1 e.2)
        constructor
        · rw [List.flatMap_cons, List.cons_append, assignments, hread]
          dsimp only [LineStatus.assignment, LineStatus.nextSection]
          rw [hvalues, hassign, List.flatMap_cons]
          rfl
        · rw [List.flatMap_cons, List.cons_append, trailingErrs, hread]
          dsimp only [LineStatus.nextErrs, LineStatus.nextSection]
          rw [hvalueErrs, herrs]
  exact hall d.sections (fun s hs => hs) sectionName

theorem Dumpable.mem_dumped (h : Dumpable d) (e : Assignment) : e ∈ d.dumped ↔ e ∈ d.entries := by
  unfold Dictionary.dumped
  rw [List.mem_flatMap]
  constructor
  · rintro ⟨s, hs, he⟩
    cases List.mem_cons.mp he with
    | inl heq =>
        rw [heq]
        exact (h.mem_sections.mp hs).2
    | inr he =>
        obtain ⟨e', he', rfl⟩ := List.mem_map.mp he
        exact h.mem_sectionValues.mp he'
  · intro he
    cases hsection : isSection e.1 with
    | true =>
        have hnone := (h.sections e he hsection).1
        have heq : e = (e.1, none) := by rw [← hnone]
        rw [heq] at he
        exact ⟨e.1, h.mem_sections.mpr ⟨hsection, he⟩, List.mem_cons.mpr (Or.inl heq)⟩
    | false =>
        obtain ⟨s, key, v, heq, hentry, hs, -⟩ := h.values e he hsection
        refine ⟨s, h.mem_sections.mpr ⟨hs, hentry⟩, List.mem_cons_of_mem _ ?_⟩
        rw [List.mem_map]
        refine ⟨(key, v), h.mem_sectionValues.mpr ?_, heq.symm⟩
        rw [← heq]
        exact he

theorem Dictionary.keys_sectionValues (d : Dictionary) (s : List Char) :
    (d.sectionValues s).map (fun e => valueKey s e.1) =
      (d.entries.map Prod.fst).filter fun key => (s ++ [':']).isPrefixOf key := by
  unfold Dictionary.sectionValues
  induction d.entries with
  | nil => rfl
  | cons e l ih =>
      rw [List.filterMap_cons, List.map_cons, List.filter_cons]
      by_cases hprefixed : (s ++ [':']).isPrefixOf e.1 = true
      · obtain ⟨rest, hrest⟩ := isPrefixOf_key.mp hprefixed
        rw [if_pos hprefixed, if_pos hprefixed]
        dsimp only
        rw [List.map_cons, ih]
        congr 1
        rw [hrest, drop_valueKey]
      · rw [if_neg hprefixed, if_neg hprefixed]
        exact ih

theorem Dictionary.Valid.nodup_keys (h : d.Valid) : (d.entries.map Prod.fst).Nodup := h.distinct

/-- What a section and its values are written under. -/
theorem Dictionary.keys_dumped (d : Dictionary) :
    d.dumped.map Prod.fst =
      d.sections.flatMap fun s => s :: (d.sectionValues s).map fun e => valueKey s e.1 := by
  rw [Dictionary.dumped, List.map_flatMap]
  congr 1
  funext s
  rw [List.map_cons, List.map_map]
  rfl

theorem Dumpable.nodup_dumped (h : Dumpable d) : (d.dumped.map Prod.fst).Nodup := by
  have hvalue : ∀ s k, k ∈ (d.sectionValues s).map (fun e => valueKey s e.1) →
      ∃ rest, k = valueKey s rest := by
    intro s k hk
    obtain ⟨e, -, rfl⟩ := List.mem_map.mp hk
    exact ⟨e.1, rfl⟩
  rw [Dictionary.keys_dumped, List.nodup_flatMap]
  constructor
  · intro s hs
    rw [List.nodup_cons]
    constructor
    · intro hmem
      obtain ⟨rest, hrest⟩ := hvalue s s hmem
      have hsection := (Dictionary.mem_sections.mp hs).1
      rw [hrest, isSection_valueKey] at hsection
      cases hsection
    · rw [Dictionary.keys_sectionValues]
      exact h.valid.nodup_keys.filter _
  · apply List.Nodup.pairwise_of_forall_ne (h.valid.nodup_keys.filter _)
    intro s hs s' hs' hne k hk hk'
    have hsection := (Dictionary.mem_sections.mp hs).1
    have hsection' := (Dictionary.mem_sections.mp hs').1
    rw [List.mem_cons] at hk hk'
    rcases hk with rfl | hk
    · rcases hk' with rfl | hk'
      · exact hne rfl
      · obtain ⟨rest, rfl⟩ := hvalue s' _ hk'
        rw [isSection_valueKey] at hsection
        cases hsection
    · obtain ⟨rest, rfl⟩ := hvalue s k hk
      rcases hk' with rfl | hk'
      · rw [isSection_valueKey] at hsection'
        cases hsection'
      · obtain ⟨rest', hrest'⟩ := hvalue s' _ hk'
        exact hne (valueKey_inj hsection hsection' hrest').1

/-- The sections of the written entries are the sections. -/
theorem Dictionary.filter_dumped (d : Dictionary) :
    (d.dumped.map Prod.fst).filter isSection = d.sections := by
  have hall : ∀ l : List (List Char), (∀ s ∈ l, isSection s = true) →
      (l.flatMap fun s => s :: (d.sectionValues s).map fun e => valueKey s e.1).filter isSection =
        l := by
    intro l
    induction l with
    | nil => exact fun _ => rfl
    | cons s l ih =>
        intro hl
        obtain ⟨hs, hl⟩ := List.forall_mem_cons.mp hl
        have hnone : ((d.sectionValues s).map fun e => valueKey s e.1).filter isSection = [] := by
          rw [List.filter_eq_nil_iff]
          intro k hk
          obtain ⟨e, -, rfl⟩ := List.mem_map.mp hk
          rw [isSection_valueKey]
          exact Bool.false_ne_true
        rw [List.flatMap_cons, List.filter_append, List.filter_cons, if_pos hs, hnone, ih hl]
        rfl
  rw [Dictionary.keys_dumped]
  exact hall d.sections fun s hs => (Dictionary.mem_sections.mp hs).1

/-- Without sections there is nothing to write. -/
theorem Dumpable.entries_nil (h : Dumpable d) (hnil : d.sections = []) : d.entries = [] := by
  by_contra hne
  obtain ⟨e, he⟩ := List.exists_mem_of_ne_nil _ hne
  have hdumped := (h.mem_dumped e).mpr he
  unfold Dictionary.dumped at hdumped
  rw [hnil] at hdumped
  exact List.not_mem_nil hdumped

theorem Dumpable.findEntry (h : Dumpable d) {s : List Char} (hs : s ∈ d.sections) :
    iniparserFindEntry d s = true := by
  obtain ⟨hsection, hentry⟩ := h.mem_sections.mp hs
  have htext : SectionText s := (h.sections _ hentry hsection).2
  have hshort := htext.short
  rw [iniparserFindEntry, strlwc_eq htext.lower (by omega), h.valid.find_eq]
  exact SlotTable.lookup_isSome_iff.mpr (List.mem_map.mpr ⟨_, hentry, rfl⟩)

/-- What is read from what was written. -/
theorem Dumpable.load (h : Dumpable d) :
    ∃ d' : Dictionary, iniparserLoad (iniparserDumpIni d) = .done d' ∧ d'.Valid ∧
      d'.entries = d.dumped := by
  obtain ⟨hclean, hfit, hlogical⟩ := h.plainLines.logical
  obtain ⟨hassign, herrs⟩ := h.assignments_eq []
  have hreadable : Readable d.dumpLines := by
    refine ⟨hclean, hfit, ?_⟩
    rw [hlogical, hassign]
    intro a ha
    have hentry := (h.mem_dumped a).mp ha
    cases hsection : isSection a.1 with
    | true =>
        have hshort := (h.sections a hentry hsection).2.short
        omega
    | false =>
        obtain ⟨s, key, v, heq, -, -, -, -, -, hlen⟩ := h.values a hentry hsection
        rw [heq]
        exact hlen
  obtain ⟨d', hvalid, hentries, hload⟩ := hreadable.load
  rw [hlogical, herrs, if_pos rfl] at hload
  rw [hlogical, hassign] at hentries
  refine ⟨d', ?_, hvalid, ?_⟩
  · rw [Dictionary.dump_eq (fun s hs => h.findEntry hs) h.entries_nil]
    exact hload
  · rw [hentries, assignAll, SlotTable.foldl_upsert_fresh h.nodup_dumped, List.nil_append]

/-- A dictionary that is written as an ini file and read again has the same values and the same
sections in the same order. -/
theorem dump_load_roundTrip (h : Dumpable d) :
    ∃ d', iniparserLoad (iniparserDumpIni d) = .done d' ∧
      (∀ key default, dictionaryGet d' key default = dictionaryGet d key default) ∧
      (∀ entry, iniparserFindEntry d' entry = iniparserFindEntry d entry) ∧
      ∀ n, iniparserGetsecname d' n = iniparserGetsecname d n := by
  obtain ⟨d', hload, hvalid, hentries⟩ := h.load
  have hfind : ∀ key, d'.find key = d.find key := by
    intro key
    rw [hvalid.find_eq, h.valid.find_eq]
    have hdistinct := hvalid.nodup_keys
    rw [hentries] at hdistinct
    have hlookup := SlotTable.lookup_congr hdistinct h.valid.nodup_keys h.mem_dumped key
    rw [← hentries] at hlookup
    exact hlookup
  refine ⟨d', hload, fun key default => ?_, fun entry => ?_, fun n => ?_⟩
  · rw [dictionaryGet, dictionaryGet, hfind]
  · rw [iniparserFindEntry, iniparserFindEntry, hfind]
  · rw [Dictionary.getsecname_eq, Dictionary.getsecname_eq, Dictionary.sections, hentries,
      Dictionary.filter_dumped]

end Dumped

/-! ## A dictionary with two sections -/

/-- A dictionary of given entries, without free slots. -/
def ofEntries (l : List Assignment) : Dictionary :=
  ⟨l.length, l.map fun e => ⟨some e.1, e.2, dictionaryHash e.1⟩⟩

theorem entries_ofEntries (l : List Assignment) : (ofEntries l).entries = l := by
  induction l with
  | nil => rfl
  | cons e l ih => exact congrArg (e :: ·) ih

theorem valid_ofEntries {l : List Assignment} (hne : l ≠ []) (hnodup : (l.map Prod.fst).Nodup) :
    (ofEntries l).Valid := by
  refine ⟨?_, ?_, fun slot hslot key hkey => ?_, ?_⟩
  · exact (List.length_map _).symm ▸ List.length_pos_iff.mpr hne
  · rw [entries_ofEntries]
    rfl
  · obtain ⟨e, _, rfl⟩ := List.mem_map.mp hslot
    rw [← Option.some.inj hkey]
  · show ((ofEntries l).entries.map Prod.fst).Nodup
    rw [entries_ofEntries]
    exact hnodup

/-- Two sections, whose values come in turn; one is empty and one has a blank in it. -/
def twoSections : List Assignment :=
  [("eq".toList, none), ("drc".toList, none), ("eq:gain".toList, some "-3.5".toList),
    ("drc:name".toList, some "soft knee".toList), ("eq:note".toList, some [])]

theorem dumpable_twoSections : Dumpable (ofEntries twoSections) := by
  have hvalue : ∀ v ∈ ["-3.5".toList, "soft knee".toList, []], ValueText v := by
    refine List.forall_mem_cons.mpr ⟨?_, List.forall_mem_cons.mpr
      ⟨?_, List.forall_mem_singleton.mpr ?_⟩⟩
    · exact ⟨by decide, List.all_eq_true.mp rfl, by decide, by decide, by decide, by decide⟩
    · exact ⟨by decide, List.all_eq_true.mp rfl, by decide, by decide, by decide, by decide⟩
    · exact ⟨by decide, List.all_eq_true.mp rfl, by decide, by decide, by decide, by decide⟩
  refine ⟨valid_ofEntries (List.cons_ne_nil _ _) (by decide), ?_, ?_⟩
  · rw [entries_ofEntries]
    refine List.forall_mem_cons.mpr ⟨fun _ => ⟨rfl, by constructor <;> decide⟩,
      List.forall_mem_cons.mpr ⟨fun _ => ⟨rfl, by constructor <;> decide⟩, ?_⟩⟩
    exact List.forall_mem_cons.mpr ⟨fun h => absurd h (by decide), List.forall_mem_cons.mpr
      ⟨fun h => absurd h (by decide), List.forall_mem_singleton.mpr fun h => absurd h (by decide)⟩⟩
  · rw [entries_ofEntries]
    refine List.forall_mem_cons.mpr ⟨fun h => absurd h (by decide), List.forall_mem_cons.mpr
      ⟨fun h => absurd h (by decide), List.forall_mem_cons.mpr ⟨fun _ => ?_,
        List.forall_mem_cons.mpr ⟨fun _ => ?_, List.forall_mem_singleton.mpr fun _ => ?_⟩⟩⟩⟩
    · exact ⟨"eq".toList, "gain".toList, "-3.5".toList, rfl, List.mem_cons_self, by decide,
        by constructor <;> decide, hvalue _ List.mem_cons_self, by decide, by decide⟩
    · exact ⟨"drc".toList, "name".toList, "soft knee".toList, rfl,
        List.mem_cons_of_mem _ List.mem_cons_self, by decide, by constructor <;> decide,
        hvalue _ (List.mem_cons_of_mem _ List.mem_cons_self), by decide, by decide⟩
    · exact ⟨"eq".toList, "note".toList, [], rfl, List.mem_cons_self, by decide,
        by constructor <;> decide, hvalue _ (by simp), by decide, by decide⟩

/-- They come back. -/
theorem dump_load_twoSections :
    ∃ d', iniparserLoad (iniparserDumpIni (ofEntries twoSections)) = .done d' ∧
      (∀ key default,
        dictionaryGet d' key default = dictionaryGet (ofEntries twoSections) key default) ∧
      (∀ entry, iniparserFindEntry d' entry = iniparserFindEntry (ofEntries twoSections) entry) ∧
      ∀ n, iniparserGetsecname d' n = iniparserGetsecname (ofEntries twoSections) n :=
  dump_load_roundTrip dumpable_twoSections

end DragonDevice.IniParser
