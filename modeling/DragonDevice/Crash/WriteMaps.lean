/-
  Crash/WriteMaps.lean --- `CoredumpWriter::WriteMaps` of `coredump_writer.cc`.

  Each line goes through a buffer on the stack.  `snprintf` gives the length of the whole
  text and stores what fits, with a NUL behind it; the check of the length lets a text pass
  that is one longer than what was stored.  How the file can be opened and written is given
  from outside.
-/
import Mathlib.Algebra.Ring.Nat
import Mathlib.Data.List.TakeWhile
import DragonDevice.Crash.FileMappings

set_option autoImplicit false

namespace DragonDevice.Crash

open DragonDevice.Lib

/-! ## A line -/

def ascii (c : Char) : Byte := BitVec.ofNat 8 c.toNat

/-- A number in lower-case hexadecimal digits, filled up with zeros. -/
def hex (width n : Nat) : List Byte := ((Nat.toDigits 16 n).leftpad width '0').map ascii

/-- `PF_X`, `PF_W` and `PF_R` are bits 0, 1 and 2 of the flags. -/
def flagChar (flags bit : Nat) (c : Char) : Byte := ascii (if flags.testBit bit then c else '-')

/-- `FileRange(p_vaddr, p_vaddr + p_memsz)`, with its conversions. -/
def Phdr.fileRange (cls : ElfClass) (p : Phdr) : FileRange :=
  (cls.signed (p.addressRange cls).1, cls.signed (p.addressRange cls).2)

/-- The fields before the path. -/
def mapsFields (cls : ElfClass) (p : Phdr) (offset : Int) : List Byte :=
  hex 8 (cls.pattern (p.fileRange cls).1) ++ [ascii '-'] ++
    hex 8 (cls.pattern (p.fileRange cls).2) ++ [ascii ' '] ++
    [flagChar p.flags 2 'r', flagChar p.flags 1 'w', flagChar p.flags 0 'x', ascii 'p'] ++
    [ascii ' '] ++ hex 8 (cls.pattern offset) ++ [ascii ' '] ++
    hex 2 0 ++ [ascii ':'] ++ hex 2 0 ++ [ascii ' '] ++ (Nat.toDigits 10 0).map ascii ++ [ascii ' ']

/-- The format of a line, with the path as it is printed. -/
def formatMapsLine (cls : ElfClass) (p : Phdr) (offset : Int) (path : List Byte) : List Byte :=
  mapsFields cls p offset ++ path ++ [ascii '\n']

/-- The offset and the path of a segment: those of the file that is mapped there. -/
def mappedFile (cls : ElfClass) (m : FileMappings) (p : Phdr) : FileInfo :=
  (m.find? (p.fileRange cls)).getD ⟨0, []⟩

/-- What a string is as a C string. -/
def cStr (s : List Byte) : List Byte := s.takeWhile (· ≠ 0#8)

/-! ## The function -/

/-- `kBufSize` of `WriteMaps`. -/
def kMapsBufSize : Nat := 1024

/-- `INT_MAX`. -/
def intMax : Nat := 2147483647

/-- `snprintf`: its result, and what it stores of the text. -/
def snprintf (size : Nat) (text : List Byte) : Int × List Byte :=
  (if intMax < text.length then -1 else text.length, text.take (size - 1) ++ [0#8])

/-- How each `WriteFully` ends: `none` when all was written, and otherwise how much was. -/
abbrev MapsWrites : Type := Nat → Option Nat

/-- The loop, with the number of writes so far and the file. -/
def writeLines (cls : ElfClass) (m : FileMappings) (writes : MapsWrites) :
    Nat → List Phdr → List Byte → Bool × List Byte
  | _, [], file => (true, file)
  | n, p :: rest, file =>
      if p.type ≠ ptLoad then writeLines cls m writes n rest file
      else
        let info := mappedFile cls m p
        let buf := snprintf kMapsBufSize (formatMapsLine cls p info.offset (cStr info.path))
        let len := buf.1
        if len < 0 ∨ (kMapsBufSize : Int) < len then (false, file)
        else
          match writes n with
          | some k => (false, file ++ (buf.2.take len.toNat).take k)
          | none => writeLines cls m writes (n + 1) rest (file ++ buf.2.take len.toNat)

/-- `WriteMaps`: what it returns, and the file at the path behind it.  The file is created
here or not at all. -/
def writeMaps (cls : ElfClass) (headers : List Phdr) (m : FileMappings)
    (output : Option (List Byte)) (opens : Bool) (writes : MapsWrites) :
    Bool × Option (List Byte) :=
  if output.isSome = true ∨ opens = false then (false, output)
  else
    let result := writeLines cls m writes 0 headers []
    (result.1, some result.2)

/-! ## The lines that belong in the file -/

/-- The segments that get a line. -/
def loads (headers : List Phdr) : List Phdr := headers.filter fun p => p.type = ptLoad

/-- The full text of the line of a segment. -/
def mapsLine (cls : ElfClass) (m : FileMappings) (p : Phdr) : List Byte :=
  formatMapsLine cls p (mappedFile cls m p).offset (mappedFile cls m p).path

/-- The text of which `snprintf` stores the beginning. -/
def printedLine (cls : ElfClass) (m : FileMappings) (p : Phdr) : List Byte :=
  formatMapsLine cls p (mappedFile cls m p).offset (cStr (mappedFile cls m p).path)

/-- What is written of it. -/
def writtenLine (cls : ElfClass) (m : FileMappings) (p : Phdr) : List Byte :=
  (snprintf kMapsBufSize (printedLine cls m p)).2.take (printedLine cls m p).length

variable {cls : ElfClass} {m : FileMappings} {p : Phdr}

/-! ## A run of the loop -/

/-- The check of the length is one of the length of the text. -/
theorem snprintf_rejected_iff (text : List Byte) :
    ((snprintf kMapsBufSize text).1 < 0 ∨ (kMapsBufSize : Int) < (snprintf kMapsBufSize text).1) ↔
      kMapsBufSize < text.length := by
  have hmax : kMapsBufSize < intMax := by decide
  rw [snprintf]
  dsimp only
  split <;> omega

theorem snprintf_len {text : List Byte} (h : ¬ kMapsBufSize < text.length) :
    (snprintf kMapsBufSize text).1.toNat = text.length := by
  have hmax : kMapsBufSize < intMax := by decide
  rw [snprintf, if_neg (by omega)]
  exact Int.toNat_natCast _

theorem writeLines_skip (writes : MapsWrites) (n : Nat) (rest : List Phdr) (file : List Byte)
    (hp : p.type ≠ ptLoad) :
    writeLines cls m writes n (p :: rest) file = writeLines cls m writes n rest file := by
  rw [writeLines, if_pos hp]

/-- One line: it is too long, or it is written as a whole or in part. -/
theorem writeLines_load (writes : MapsWrites) (n : Nat) (rest : List Phdr) (file : List Byte)
    (hp : p.type = ptLoad) :
    writeLines cls m writes n (p :: rest) file =
      if kMapsBufSize < (printedLine cls m p).length then (false, file)
      else
        match writes n with
        | some k => (false, file ++ (writtenLine cls m p).take k)
        | none => writeLines cls m writes (n + 1) rest (file ++ writtenLine cls m p) := by
  have hprinted : formatMapsLine cls p (mappedFile cls m p).offset
      (cStr (mappedFile cls m p).path) = printedLine cls m p := rfl
  rw [writeLines, if_neg (not_not.mpr hp), writtenLine]
  dsimp only
  rw [hprinted, if_congr (snprintf_rejected_iff _) rfl rfl]
  split
  · rfl
  · rename_i hlong
    rw [snprintf_len hlong]

/-- A run that succeeds: no line is too long, and what was written are the lines. -/
theorem writeLines_true {writes : MapsWrites} :
    ∀ {headers : List Phdr} {n : Nat} {file file' : List Byte},
      writeLines cls m writes n headers file = (true, file') →
      (∀ p ∈ loads headers, ¬ kMapsBufSize < (printedLine cls m p).length) ∧
        file' = file ++ (loads headers).flatMap (writtenLine cls m) := by
  intro headers
  induction headers with
  | nil =>
      intro n file file' h
      cases h
      exact ⟨fun p hp => absurd hp List.not_mem_nil, (List.append_nil file).symm⟩
  | cons p rest ih =>
      intro n file file' h
      by_cases hp : p.type = ptLoad
      · rw [writeLines_load writes n rest file hp] at h
        split at h
        · cases h
        · rename_i hshort
          split at h
          · cases h
          · obtain ⟨hrest, rfl⟩ := ih h
            rw [loads, List.filter_cons_of_pos (by simpa using hp), List.flatMap_cons,
              ← List.append_assoc]
            exact ⟨List.forall_mem_cons.mpr ⟨hshort, hrest⟩, rfl⟩
      · rw [writeLines_skip writes n rest file hp] at h
        rw [loads, List.filter_cons_of_neg (by simpa using hp)]
        exact ih h

/-- When every write succeeds and no line is too long, the run does. -/
theorem writeLines_succeeds :
    ∀ (headers : List Phdr) (n : Nat) (file : List Byte),
      (∀ p ∈ loads headers, ¬ kMapsBufSize < (printedLine cls m p).length) →
      writeLines cls m (fun _ => none) n headers file =
        (true, file ++ (loads headers).flatMap (writtenLine cls m)) := by
  intro headers
  induction headers with
  | nil =>
      intro n file _
      rw [writeLines, loads, List.filter_nil, List.flatMap_nil, List.append_nil]
  | cons p rest ih =>
      intro n file hshort
      by_cases hp : p.type = ptLoad
      · rw [loads, List.filter_cons_of_pos (by simpa using hp)] at hshort ⊢
        obtain ⟨hfirst, hrest⟩ := List.forall_mem_cons.mp hshort
        rw [writeLines_load _ n rest file hp, if_neg hfirst, List.flatMap_cons,
          ← List.append_assoc]
        exact ih (n + 1) _ hrest
      · rw [loads, List.filter_cons_of_neg (by simpa using hp)] at hshort ⊢
        rw [writeLines_skip _ n rest file hp]
        exact ih n file hshort

theorem writeMaps_true {headers : List Phdr} {output file : Option (List Byte)} {opens : Bool}
    {writes : MapsWrites}
    (h : writeMaps cls headers m output opens writes = (true, file)) :
    (∀ p ∈ loads headers, ¬ kMapsBufSize < (printedLine cls m p).length) ∧
      file = some ((loads headers).flatMap (writtenLine cls m)) := by
  rw [writeMaps] at h
  split at h
  · cases h
  · obtain ⟨hok, rfl⟩ := Prod.mk.inj h
    obtain ⟨hshort, hfile⟩ := writeLines_true (Prod.ext hok rfl)
    exact ⟨hshort, congrArg some hfile⟩

theorem writeMaps_succeeds {headers : List Phdr}
    (hshort : ∀ p ∈ loads headers, ¬ kMapsBufSize < (printedLine cls m p).length) :
    writeMaps cls headers m none true (fun _ => none) =
      (true, some ((loads headers).flatMap (writtenLine cls m))) := by
  rw [writeMaps, if_neg (by decide), writeLines_succeeds headers 0 [] hshort]
  rfl

/-! ## What is written of a line -/

theorem cStr_eq_self_iff (s : List Byte) : cStr s = s ↔ 0#8 ∉ s := by
  rw [cStr, List.takeWhile_eq_self_iff]
  refine ⟨fun h hmem => by simpa using h _ hmem, fun h c hc => ?_⟩
  rw [decide_eq_true_iff]
  rintro rfl
  exact h hc

theorem length_cStr_le (s : List Byte) : (cStr s).length ≤ s.length :=
  (List.takeWhile_prefix _).length_le

/-- A C string that is as long as the string is the string. -/
theorem cStr_eq_self_of_length {s : List Byte} (h : (cStr s).length = s.length) : cStr s = s :=
  (List.takeWhile_prefix _).eq_of_length h

theorem length_formatMapsLine (cls : ElfClass) (p : Phdr) (offset : Int) (path : List Byte) :
    (formatMapsLine cls p offset path).length =
      (mapsFields cls p offset).length + path.length + 1 := by
  rw [formatMapsLine, List.length_append, List.length_append, List.length_singleton]

theorem length_printedLine_le (cls : ElfClass) (m : FileMappings) (p : Phdr) :
    (printedLine cls m p).length ≤ (mapsLine cls m p).length := by
  have hle := length_cStr_le (mappedFile cls m p).path
  rw [printedLine, mapsLine, length_formatMapsLine, length_formatMapsLine]
  omega

/-- What is written is as long as the text. -/
theorem length_writtenLine (h : ¬ kMapsBufSize < (printedLine cls m p).length) :
    (writtenLine cls m p).length = (printedLine cls m p).length := by
  have hpos : 0 < kMapsBufSize := by decide
  rw [writtenLine, snprintf, List.length_take, List.length_append, List.length_take,
    List.length_singleton]
  omega

/-- A text that leaves room for the NUL is written as it is. -/
theorem writtenLine_of_lt (h : (printedLine cls m p).length < kMapsBufSize) :
    writtenLine cls m p = printedLine cls m p := by
  rw [writtenLine, snprintf, List.take_of_length_le (show _ ≤ kMapsBufSize - 1 by omega),
    List.take_left' rfl]

/-- A text that fills the buffer ends with the NUL in place of its newline. -/
theorem writtenLine_of_eq (h : (printedLine cls m p).length = kMapsBufSize) :
    writtenLine cls m p =
      mapsFields cls p (mappedFile cls m p).offset ++ cStr (mappedFile cls m p).path ++ [0#8] := by
  have hlen := length_formatMapsLine cls p (mappedFile cls m p).offset
    (cStr (mappedFile cls m p).path)
  rw [← printedLine, h] at hlen
  have hstored : (printedLine cls m p).take (kMapsBufSize - 1) =
      mapsFields cls p (mappedFile cls m p).offset ++ cStr (mappedFile cls m p).path := by
    rw [printedLine, formatMapsLine]
    refine List.take_left' ?_
    rw [List.length_append]
    omega
  rw [writtenLine, h, snprintf, hstored]
  refine List.take_of_length_le ?_
  rw [List.length_append, List.length_append, List.length_singleton]
  omega

/-- The line that belongs there is written when it does not fill the buffer and the path has no
NUL in it. -/
theorem writtenLine_eq_iff (h : ¬ kMapsBufSize < (printedLine cls m p).length) :
    writtenLine cls m p = mapsLine cls m p ↔
      (mapsLine cls m p).length ≠ kMapsBufSize ∧ 0#8 ∉ (mappedFile cls m p).path := by
  have hwritten := length_writtenLine h
  constructor
  · intro heq
    have hpath : cStr (mappedFile cls m p).path = (mappedFile cls m p).path := by
      refine cStr_eq_self_of_length ?_
      rw [heq, printedLine, mapsLine, length_formatMapsLine, length_formatMapsLine] at hwritten
      omega
    have hprinted : printedLine cls m p = mapsLine cls m p := by
      rw [printedLine, mapsLine, hpath]
    refine ⟨fun hfull => ?_, (cStr_eq_self_iff _).mp hpath⟩
    rw [writtenLine_of_eq (by rw [hprinted, hfull]), hpath, mapsLine, formatMapsLine] at heq
    exact absurd (List.append_cancel_left heq) (by decide)
  · rintro ⟨hne, hnul⟩
    have hprinted : printedLine cls m p = mapsLine cls m p := by
      rw [printedLine, mapsLine, (cStr_eq_self_iff _).mpr hnul]
    rw [← hprinted] at hne ⊢
    exact writtenLine_of_lt (by omega)

/-! ## The file -/

/-- Pieces that are at most as long as others make the same text only when they are the
same. -/
theorem flatMap_eq_flatMap_iff {α : Type} {f g : α → List Byte} :
    ∀ {l : List α}, (∀ x ∈ l, (f x).length ≤ (g x).length) →
      (l.flatMap f = l.flatMap g ↔ ∀ x ∈ l, f x = g x) := by
  have hle : ∀ l : List α, (∀ x ∈ l, (f x).length ≤ (g x).length) →
      (l.flatMap f).length ≤ (l.flatMap g).length := by
    intro l
    induction l with
    | nil => exact fun _ => Nat.le_refl 0
    | cons x l ih =>
        intro h
        obtain ⟨hx, hl⟩ := List.forall_mem_cons.mp h
        rw [List.flatMap_cons, List.flatMap_cons, List.length_append, List.length_append]
        exact Nat.add_le_add hx (ih hl)
  intro l
  induction l with
  | nil => exact fun _ => ⟨fun _ x hx => absurd hx List.not_mem_nil, fun _ => rfl⟩
  | cons x l ih =>
      intro h
      obtain ⟨hx, hl⟩ := List.forall_mem_cons.mp h
      rw [List.flatMap_cons, List.flatMap_cons, List.forall_mem_cons, ← ih hl]
      constructor
      · intro heq
        have htotal := congrArg List.length heq
        have hrest := hle l hl
        rw [List.length_append, List.length_append] at htotal
        exact List.append_inj heq (by omega)
      · rintro ⟨hfirst, hrest⟩
        rw [hfirst, hrest]

/-- No line fills the buffer, and no path has a NUL in it. -/
theorem writeMaps_lines {headers : List Phdr}
    (hcond : ∀ p ∈ loads headers, (mapsLine cls m p).length ≠ kMapsBufSize ∧
      0#8 ∉ (mappedFile cls m p).path)
    {output file : Option (List Byte)} {opens : Bool} {writes : MapsWrites}
    (h : writeMaps cls headers m output opens writes = (true, file)) :
    file = some ((loads headers).flatMap (mapsLine cls m)) := by
  obtain ⟨hshort, hfile⟩ := writeMaps_true h
  rw [hfile]
  refine congrArg some (List.flatMap_congr fun p hp => ?_)
  exact (writtenLine_eq_iff (hshort p hp)).mpr (hcond p hp)

theorem mappedFile_notMem (cls : ElfClass) (h : m.PathsEnd) (p : Phdr) :
    0#8 ∉ (mappedFile cls m p).path := by
  rw [mappedFile, FileMappings.find?]
  cases hfind : List.find? (fun e => e.1 == p.fileRange cls) m with
  | none => exact List.not_mem_nil
  | some e => exact h e (List.mem_of_find?_eq_some hfind)

/-- With the mappings that the note gives, only the length of the lines matters. -/
theorem writeMaps_of_note {findNote : FindNote} {fuel : Nat} {noteBuf : List Byte}
    {result : Bool × FileMappings} (hnote : getFileMap cls findNote fuel noteBuf = some result)
    {headers : List Phdr}
    (hlen : ∀ p ∈ loads headers, (mapsLine cls result.2 p).length ≠ kMapsBufSize)
    {output file : Option (List Byte)} {opens : Bool} {writes : MapsWrites}
    (h : writeMaps cls headers result.2 output opens writes = (true, file)) :
    file = some ((loads headers).flatMap (mapsLine cls result.2)) :=
  writeMaps_lines
    (fun p hp => ⟨hlen p hp, mappedFile_notMem cls (getFileMap_pathsEnd hnote) p⟩) h

/-- A successful run leaves the full lines of the segments, exactly when no run succeeds
because a line is too long, or no line fills the buffer and no path has a NUL in it. -/
theorem writeMaps_lines_iff (cls : ElfClass) (headers : List Phdr) (m : FileMappings) :
    (∀ (output : Option (List Byte)) (opens : Bool) (writes : MapsWrites)
        (file : Option (List Byte)),
      writeMaps cls headers m output opens writes = (true, file) →
      file = some ((loads headers).flatMap (mapsLine cls m))) ↔
    (∃ p ∈ loads headers, kMapsBufSize < (printedLine cls m p).length) ∨
      ∀ p ∈ loads headers, (mapsLine cls m p).length ≠ kMapsBufSize ∧
        0#8 ∉ (mappedFile cls m p).path := by
  by_cases hlong : ∃ p ∈ loads headers, kMapsBufSize < (printedLine cls m p).length
  · refine iff_of_true ?_ (Or.inl hlong)
    intro output opens writes file h
    obtain ⟨p, hp, hlen⟩ := hlong
    exact absurd hlen ((writeMaps_true h).1 p hp)
  · have hshort : ∀ p ∈ loads headers, ¬ kMapsBufSize < (printedLine cls m p).length :=
      fun p hp hlen => hlong ⟨p, hp, hlen⟩
    have hlines : (loads headers).flatMap (writtenLine cls m) =
        (loads headers).flatMap (mapsLine cls m) ↔
          ∀ p ∈ loads headers, writtenLine cls m p = mapsLine cls m p :=
      flatMap_eq_flatMap_iff fun p hp => by
        rw [length_writtenLine (hshort p hp)]
        exact length_printedLine_le cls m p
    rw [or_iff_right hlong]
    constructor
    · intro hruns p hp
      have hfile := hruns none true (fun _ => none) _ (writeMaps_succeeds hshort)
      exact (writtenLine_eq_iff (hshort p hp)).mp (hlines.mp (Option.some.inj hfile) p hp)
    · intro hcond output opens writes file h
      exact writeMaps_lines hcond h

/-- A library with a path of 983 characters, mapped in a process of 32 bits. -/
def longPathHeader : Phdr := ⟨ptLoad, 5, 0, 0x1000, 0, 0x1000, 0x1000, 0x1000⟩

def longPathMappings : FileMappings := [((0x1000, 0x2000), ⟨0, List.replicate 983 (ascii 'a')⟩)]

/-- Its line has 1024 characters: the NUL takes the place of the newline. -/
theorem writeMaps_cuts_newline :
    ∃ file, writeMaps .elf32 [longPathHeader] longPathMappings none true (fun _ => none) =
        (true, some file) ∧ file.length = 1024 ∧ file.getLast? = some 0#8 ∧
      file ≠ (loads [longPathHeader]).flatMap (mapsLine .elf32 longPathMappings) := by
  have hinfo : mappedFile .elf32 longPathMappings longPathHeader =
      ⟨0, List.replicate 983 (ascii 'a')⟩ := rfl
  have hnul : 0#8 ∉ List.replicate 983 (ascii 'a') := by
    rw [List.mem_replicate]
    decide
  have hfields : (mapsFields .elf32 longPathHeader 0).length = 40 := by decide
  have hprinted : printedLine .elf32 longPathMappings longPathHeader =
      mapsLine .elf32 longPathMappings longPathHeader := by
    rw [printedLine, mapsLine, hinfo, (cStr_eq_self_iff _).mpr hnul]
  have hlen : (mapsLine .elf32 longPathMappings longPathHeader).length = kMapsBufSize := by
    rw [mapsLine, length_formatMapsLine, hinfo, hfields, List.length_replicate]
    rfl
  have hloads : loads [longPathHeader] = [longPathHeader] := rfl
  have hshort : ¬ kMapsBufSize < (printedLine .elf32 longPathMappings longPathHeader).length := by
    rw [hprinted, hlen]
    exact Nat.lt_irrefl _
  refine ⟨writtenLine .elf32 longPathMappings longPathHeader, ?_, ?_, ?_, ?_⟩
  · rw [writeMaps_succeeds (by rw [hloads]; exact List.forall_mem_singleton.mpr hshort), hloads,
      List.flatMap_singleton]
  · rw [length_writtenLine hshort, hprinted, hlen]
    rfl
  · rw [writtenLine_of_eq (by rw [hprinted, hlen]), List.getLast?_concat]
  · rw [hloads, List.flatMap_singleton, ne_eq, writtenLine_eq_iff hshort]
    exact fun h => h.1 hlen

end DragonDevice.Crash
