/-
  Crash/FileMappings.lean --- the files that an NT_FILE note lists: `GetFileMappings` of
  `coredump_writer.cc` with the offsets and the paths.

  The table of numbers and the names behind it are read in step, with a cursor each; what is
  read outside the description is a default.  The loops run on fuel: `none` is a loop that
  has not ended.  A `long` is an integer here, and its bytes are those of its bit pattern.
  `3 * file_count` and `offset * page_size` are signed in the code, which gives an overflow of
  them no meaning; they wrap here.
-/
import DragonDevice.Lib.Terminated
import DragonDevice.Crash.CoredumpContract

set_option autoImplicit false

namespace DragonDevice.Crash

open DragonDevice.Lib

/-! ## Numbers -/

namespace ElfClass

/-- The `long` with a bit pattern. -/
def signed (cls : ElfClass) (word : Nat) : Int :=
  if 2 * word < cls.range then word else word - cls.range

/-- The bit pattern of a `long`. -/
def pattern (cls : ElfClass) (v : Int) : Nat := (v % cls.range).toNat

/-- The integer is a `long`. -/
def IsLong (cls : ElfClass) (v : Int) : Prop := -cls.range ≤ 2 * v ∧ 2 * v < cls.range

instance (cls : ElfClass) (v : Int) : Decidable (cls.IsLong v) :=
  inferInstanceAs (Decidable (_ ∧ _))

end ElfClass

/-- `kInvalidValue`. -/
def kInvalidValue : Int := -1

/-- `GetValueFromNote<long>` with `kInvalidValue`, at `sizeof(long) * index`. -/
def longAt (cls : ElfClass) (desc : List Byte) (index : Nat) : Int :=
  match wordAt cls desc index with
  | none => kInvalidValue
  | some word => cls.signed word

/-- `GetValueFromNote<char>` with zero; `GetData` checks its bounds as it does for a `long`. -/
def charAt (desc : List Byte) (pos : Nat) : Byte := desc[pos]?.getD 0#8

/-! ## The function -/

/-- `FileRange`. -/
abbrev FileRange : Type := Int × Int

/-- `FileInfo`. -/
structure FileInfo where
  offset : Int
  path : List Byte
  deriving DecidableEq, Repr

/-- `FileMappings`, in the order in which the keys came. -/
abbrev FileMappings : Type := List (FileRange × FileInfo)

namespace FileMappings

/-- `file_mappings.find(range)`. -/
def find? (m : FileMappings) (range : FileRange) : Option FileInfo :=
  (List.find? (fun e => e.1 == range) m).map (·.2)

/-- Change `(*file_mappings)[range]`, which is there from then on. -/
def update (m : FileMappings) (range : FileRange) (f : FileInfo → FileInfo) : FileMappings :=
  if range ∈ m.map (·.1) then m.map fun e => if e.1 = range then (e.1, f e.2) else e
  else m ++ [(range, f ⟨0, []⟩)]

end FileMappings

/-- The loop over the characters of a name: the path and the cursor behind it. -/
def readName (cls : ElfClass) (desc : List Byte) :
    Nat → Nat → List Byte → Option (List Byte × Nat)
  | 0, _, _ => none
  | fuel + 1, pos, path =>
      let c := charAt desc pos
      let pos := (pos + 1) % cls.range
      if c = 0#8 then some (path, pos) else readName cls desc fuel pos (path ++ [c])

/-- The loop over the files, from the one with index `i` on: what `GetFileMappings` returns
and the mappings it leaves. -/
def readFiles (cls : ElfClass) (desc : List Byte) (fileCount pageSize : Int) (nameFuel : Nat) :
    Nat → Nat → Nat → FileMappings → Option (Bool × FileMappings)
  | 0, _, _, _ => none
  | fuel + 1, i, filenamePos, m =>
      if (i : Int) < fileCount then
        let start := longAt cls desc (2 + 3 * i)
        let stop := longAt cls desc (2 + 3 * i + 1)
        let offset := longAt cls desc (2 + 3 * i + 2)
        if start = kInvalidValue ∨ stop = kInvalidValue ∨ offset = kInvalidValue then
          some (false, m)
        else
          match readName cls desc nameFuel filenamePos [] with
          | none => none
          | some (path, filenamePos) =>
              let m := m.update (start, stop) fun info =>
                ⟨cls.signed (cls.pattern (offset * pageSize)), info.path ++ path⟩
              readFiles cls desc fileCount pageSize nameFuel fuel (i + 1) filenamePos m
      else some (true, m)

/-- `GetFileMappings` behind the search for the note. -/
def decodeFileNote (cls : ElfClass) (fuel : Nat) (desc : List Byte) :
    Option (Bool × FileMappings) :=
  let fileCount := longAt cls desc 0
  let pageSize := longAt cls desc 1
  if fileCount = kInvalidValue ∨ pageSize = kInvalidValue then some (false, [])
  else
    readFiles cls desc fileCount pageSize fuel fuel 0
      (cls.pattern (cls.wordSize * (2 + 3 * fileCount))) []

/-- `GetFileMappings`. -/
def getFileMap (cls : ElfClass) (findNote : FindNote) (fuel : Nat) (noteBuf : List Byte) :
    Option (Bool × FileMappings) :=
  match findNote ntFile noteBuf with
  | none => some (false, [])
  | some desc => decodeFileNote cls fuel desc

/-! ## Termination -/

variable {cls : ElfClass} {desc : List Byte}

/-- A name ends behind the description at the latest. -/
theorem readName_isSome (hlen : desc.length < cls.range) :
    ∀ fuel pos path, desc.length + 1 ≤ fuel + pos →
      0 < fuel → (readName cls desc fuel pos path).isSome = true := by
  intro fuel
  induction fuel with
  | zero =>
      intro pos path _ hpos
      exact absurd hpos (Nat.lt_irrefl 0)
  | succ fuel ih =>
      intro pos path hfuel _
      rw [readName]
      split
      · rfl
      · rename_i hchar
        have hin : pos < desc.length := by
          by_contra hout
          rw [charAt, List.getElem?_eq_none (Nat.le_of_not_lt hout)] at hchar
          exact hchar rfl
        rw [Nat.mod_eq_of_lt (by omega)]
        exact ih (pos + 1) _ (by omega) (by omega)

/-- A number that is valid lies in the description. -/
theorem longAt_invalid {index : Nat} (h : desc.length < (index + 1) * cls.wordSize) :
    longAt cls desc index = kInvalidValue := by
  rw [longAt, wordAt, if_neg (Nat.not_le_of_lt h)]

theorem wordSize_pos (cls : ElfClass) : 0 < cls.wordSize := by
  cases cls with
  | elf32 => exact Nat.succ_pos 3
  | elf64 => exact Nat.succ_pos 7

/-- The loop over the files stops behind the table at the latest. -/
theorem readFiles_isSome (hlen : desc.length < cls.range) (fileCount pageSize : Int)
    {nameFuel : Nat} (hname : desc.length + 1 ≤ nameFuel) :
    ∀ fuel i pos m, desc.length + 1 ≤ fuel + i → 0 < fuel →
      (readFiles cls desc fileCount pageSize nameFuel fuel i pos m).isSome = true := by
  intro fuel
  induction fuel with
  | zero =>
      intro i pos m _ hpos
      exact absurd hpos (Nat.lt_irrefl 0)
  | succ fuel ih =>
      intro i pos m hfuel _
      rw [readFiles]
      dsimp only
      split
      · split
        · rfl
        · rename_i hvalid
          have hin : i < desc.length := by
            by_contra hout
            have hle : 2 + 3 * i + 1 ≤ (2 + 3 * i + 1) * cls.wordSize :=
              Nat.le_mul_of_pos_right _ (wordSize_pos cls)
            exact hvalid (Or.inl (longAt_invalid (by omega)))
          obtain ⟨r, hr⟩ := Option.isSome_iff_exists.mp
            (@readName_isSome cls desc hlen nameFuel pos [] (by omega) (by omega))
          rw [hr]
          exact ih (i + 1) r.2 _ (by omega) (by omega)
      · rfl

/-- Whatever the note holds, the loops end within its length. -/
theorem decodeFileNote_isSome (hlen : desc.length < cls.range) {fuel : Nat}
    (hfuel : desc.length + 1 ≤ fuel) : (decodeFileNote cls fuel desc).isSome = true := by
  rw [decodeFileNote]
  split
  · rfl
  · exact readFiles_isSome hlen _ _ hfuel fuel 0 _ [] hfuel (by omega)

/-! ## The note of a list of files -/

/-- A file as the kernel lists it: its offset is counted in pages. -/
structure MappedFile where
  start : Int
  stop : Int
  pageOffset : Int
  name : List Byte
  deriving DecidableEq, Repr

namespace MappedFile

def range (f : MappedFile) : FileRange := (f.start, f.stop)

def words (f : MappedFile) : List Int := [f.start, f.stop, f.pageOffset]

/-- The entry that the note gives. -/
def entry (pageSize : Int) (f : MappedFile) : FileRange × FileInfo :=
  (f.range, ⟨f.pageOffset * pageSize, f.name⟩)

end MappedFile

/-- The numbers of the description. -/
def noteWords (pageSize : Int) (files : List MappedFile) : List Int :=
  files.length :: pageSize :: files.flatMap MappedFile.words

/-- The bytes of a list of `long`s. -/
def encodeLongs (cls : ElfClass) (vs : List Int) : List Byte :=
  vs.flatMap fun v => toBytes cls.wordSize (cls.pattern v)

/-- The description of the NT_FILE note: the numbers, and the names with their ends. -/
def encodeFiles (cls : ElfClass) (pageSize : Int) (files : List MappedFile) : List Byte :=
  encodeLongs cls (noteWords pageSize files) ++ terminate 0#8 (files.map (·.name))

/-- A `long` that is not `kInvalidValue`. -/
def ValidLong (cls : ElfClass) (v : Int) : Prop := cls.IsLong v ∧ v ≠ kInvalidValue

instance (cls : ElfClass) (v : Int) : Decidable (ValidLong cls v) :=
  inferInstanceAs (Decidable (_ ∧ _))

/-- The files that a note can list. -/
structure ValidFiles (cls : ElfClass) (pageSize : Int) (files : List MappedFile) : Prop where
  ranges : (files.map (·.range)).Nodup
  page : ValidLong cls pageSize
  words : ∀ f ∈ files, ∀ v ∈ f.words, ValidLong cls v
  names : ∀ f ∈ files, 0#8 ∉ f.name
  offsets : ∀ f ∈ files, cls.IsLong (f.pageOffset * pageSize)

/-! ## The words -/

theorem range_pos (cls : ElfClass) : 0 < cls.range := Nat.pow_pos (by decide)

theorem pattern_lt (cls : ElfClass) (v : Int) : cls.pattern v < cls.range := by
  have hpos := range_pos cls
  have hlow := Int.emod_nonneg v (show (cls.range : Int) ≠ 0 by omega)
  have hhigh := Int.emod_lt_of_pos v (show 0 < (cls.range : Int) by omega)
  rw [ElfClass.pattern]
  omega

theorem signed_pattern {v : Int} (h : cls.IsLong v) : cls.signed (cls.pattern v) = v := by
  have hpos := range_pos cls
  have hrange := h
  rw [ElfClass.IsLong] at hrange
  by_cases hneg : v < 0
  · have hmod : v % cls.range = v + cls.range := by
      rw [← Int.add_emod_right, Int.emod_eq_of_lt (by omega) (by omega)]
    rw [ElfClass.signed, ElfClass.pattern, hmod, if_neg (by omega)]
    omega
  · have hmod : v % cls.range = v := Int.emod_eq_of_lt (by omega) (by omega)
    rw [ElfClass.signed, ElfClass.pattern, hmod, if_pos (by omega)]
    omega

theorem length_encodeLongs (cls : ElfClass) (vs : List Int) :
    (encodeLongs cls vs).length = cls.wordSize * vs.length := by
  induction vs with
  | nil => rfl
  | cons v vs ih =>
      rw [encodeLongs, List.flatMap_cons, List.length_append, length_toBytes, List.length_cons,
        Nat.mul_succ, Nat.add_comm]
      exact congrArg (· + cls.wordSize) ih

/-- A number that was written is read back. -/
theorem wordAt_encodeLongs {vs : List Int} {rest : List Byte} :
    ∀ {index : Nat} {v : Int}, vs[index]? = some v →
      wordAt cls (encodeLongs cls vs ++ rest) index = some (cls.pattern v) := by
  induction vs with
  | nil =>
      intro index v h
      cases h
  | cons w vs ih =>
      intro index v h
      have hcons : encodeLongs cls (w :: vs) ++ rest =
          toBytes cls.wordSize (cls.pattern w) ++ (encodeLongs cls vs ++ rest) := by
        rw [encodeLongs, List.flatMap_cons, List.append_assoc]
        rfl
      have hlen := length_toBytes cls.wordSize (cls.pattern w)
      rw [hcons]
      cases index with
      | zero =>
          cases h
          rw [wordAt, if_pos (by rw [List.length_append]; omega), slice, Nat.zero_mul,
            List.drop_zero, List.take_left' hlen, ofBytes_toBytes,
            Nat.mod_eq_of_lt (show _ < 256 ^ cls.wordSize from pattern_lt cls w)]
      | succ index =>
          have hrest := @ih index v (by simpa using h)
          rw [wordAt] at hrest ⊢
          split at hrest
          · rename_i hfits
            have hmul : (index + 1 + 1) * cls.wordSize =
                (index + 1) * cls.wordSize + cls.wordSize := Nat.succ_mul _ _
            have hoff : (index + 1) * cls.wordSize = cls.wordSize + index * cls.wordSize := by
              rw [Nat.succ_mul, Nat.add_comm]
            rw [if_pos (by rw [List.length_append, hlen]; omega), slice, hoff, ← List.drop_drop,
              List.drop_left' hlen]
            exact hrest
          · cases hrest

theorem longAt_encodeLongs {vs : List Int} {rest : List Byte} {index : Nat} {v : Int}
    (h : vs[index]? = some v) (hv : cls.IsLong v) :
    longAt cls (encodeLongs cls vs ++ rest) index = v := by
  rw [longAt, wordAt_encodeLongs h]
  exact signed_pattern hv

theorem length_flatMap_words (files : List MappedFile) :
    (files.flatMap MappedFile.words).length = 3 * files.length := by
  induction files with
  | nil => rfl
  | cons f files ih =>
      rw [List.flatMap_cons, List.length_append, ih, List.length_cons]
      change 3 + 3 * files.length = _
      omega

theorem length_noteWords (pageSize : Int) (files : List MappedFile) :
    (noteWords pageSize files).length = 2 + 3 * files.length := by
  rw [noteWords, List.length_cons, List.length_cons, length_flatMap_words]
  omega

/-- Behind the two first numbers come three for each file. -/
theorem getElem?_noteWords (pageSize : Int) (done rest : List MappedFile) (f : MappedFile)
    {k : Nat} (hk : k < 3) :
    (noteWords pageSize (done ++ f :: rest))[2 + 3 * done.length + k]? = f.words[k]? := by
  have hlen := length_flatMap_words done
  have hwords : k < f.words.length := hk
  rw [noteWords, show 2 + 3 * done.length + k = 3 * done.length + k + 1 + 1 by omega,
    List.getElem?_cons_succ, List.getElem?_cons_succ, List.flatMap_append, List.flatMap_cons,
    List.getElem?_append_right (by omega), hlen, Nat.add_sub_cancel_left,
    List.getElem?_append_left hwords]

/-! ## The names -/

theorem charAt_of_drop {pos : Nat} {c : Byte} {rest : List Byte}
    (h : desc.drop pos = c :: rest) : charAt desc pos = c := by
  have hget := congrArg (·[0]?) h
  rw [List.getElem?_drop, Nat.add_zero] at hget
  rw [charAt, hget]
  rfl

/-- A name with its end is read as a whole, and the cursor is behind it. -/
theorem readName_terminated (hlen : desc.length < cls.range) {rest : List Byte} :
    ∀ (name : List Byte) (fuel pos : Nat) (path : List Byte), 0#8 ∉ name → name.length < fuel →
      desc.drop pos = name ++ 0#8 :: rest →
      readName cls desc fuel pos path = some (path ++ name, pos + name.length + 1) := by
  intro name
  induction name with
  | nil =>
      intro fuel pos path _ hfuel hdrop
      obtain ⟨fuel, rfl⟩ := Nat.exists_eq_succ_of_ne_zero (Nat.ne_zero_of_lt hfuel)
      have hin := congrArg List.length hdrop
      rw [List.length_drop, List.nil_append, List.length_cons] at hin
      rw [readName, charAt_of_drop hdrop, if_pos rfl, Nat.mod_eq_of_lt (by omega),
        List.append_nil, List.length_nil, Nat.add_zero]
  | cons c name ih =>
      intro fuel pos path hnul hfuel hdrop
      obtain ⟨fuel, rfl⟩ := Nat.exists_eq_succ_of_ne_zero (Nat.ne_zero_of_lt hfuel)
      rw [List.mem_cons, not_or] at hnul
      rw [List.length_cons] at hfuel
      have hin := congrArg List.length hdrop
      rw [List.length_drop, List.length_append, List.length_cons, List.length_cons] at hin
      have hnext : desc.drop (pos + 1) = name ++ 0#8 :: rest := by
        rw [← List.drop_drop, hdrop]
        rfl
      rw [readName, charAt_of_drop hdrop, if_neg (Ne.symm hnul.1), Nat.mod_eq_of_lt (by omega),
        ih fuel (pos + 1) (path ++ [c]) hnul.2 (by omega) hnext, List.append_assoc,
        List.length_cons]
      congr 2
      omega

/-! ## The round trip -/

theorem terminate_append (xs ys : List (List Byte)) :
    terminate 0#8 (xs ++ ys) = terminate 0#8 xs ++ terminate 0#8 ys :=
  List.flatMap_append

/-- Where the name cursor is when the files `done` have been read. -/
def nameCursor (cls : ElfClass) (files done : List MappedFile) : Nat :=
  cls.wordSize * (2 + 3 * files.length) + (terminate 0#8 (done.map (·.name))).length

/-- At the cursor come the names that are left. -/
theorem drop_nameCursor (pageSize : Int) (done rest : List MappedFile) :
    (encodeFiles cls pageSize (done ++ rest)).drop (nameCursor cls (done ++ rest) done) =
      terminate 0#8 (rest.map (·.name)) := by
  have hlen : (encodeLongs cls (noteWords pageSize (done ++ rest))).length =
      cls.wordSize * (2 + 3 * (done ++ rest).length) := by
    rw [length_encodeLongs, length_noteWords]
  rw [encodeFiles, nameCursor, ← List.drop_drop, List.drop_left' hlen, List.map_append,
    terminate_append, List.drop_left' rfl]

theorem nameCursor_concat (files done : List MappedFile) (f : MappedFile) :
    nameCursor cls files (done ++ [f]) = nameCursor cls files done + f.name.length + 1 := by
  rw [nameCursor, nameCursor, List.map_append, terminate_append, List.length_append]
  change _ + (_ + (f.name ++ [0#8] ++ []).length) = _
  rw [List.append_nil, List.length_append, List.length_singleton]
  omega

/-- A range that is not there yet gets an entry of its own. -/
theorem update_of_notMem {m : FileMappings} {range : FileRange} {f : FileInfo → FileInfo}
    (h : range ∉ m.map (·.1)) : m.update range f = m ++ [(range, f ⟨0, []⟩)] := by
  rw [FileMappings.update, if_neg h]

/-- The numbers of a file are read from its place in the table. -/
theorem longAt_file {pageSize : Int} {done rest : List MappedFile} {f : MappedFile}
    (hvalid : ValidFiles cls pageSize (done ++ f :: rest)) {k : Nat} {v : Int} (hk : k < 3)
    (hv : f.words[k]? = some v) :
    longAt cls (encodeFiles cls pageSize (done ++ f :: rest)) (2 + 3 * done.length + k) = v ∧
      v ≠ kInvalidValue := by
  have hmem : f ∈ done ++ f :: rest := List.mem_append_right _ List.mem_cons_self
  have hword := hvalid.words f hmem v (List.mem_of_getElem? hv)
  refine ⟨longAt_encodeLongs ?_ hword.1, hword.2⟩
  rw [getElem?_noteWords pageSize done rest f hk, hv]

/-- The range of a file is not that of one before it. -/
theorem range_notMem_done {pageSize : Int} {done rest : List MappedFile} {f : MappedFile}
    (hvalid : ValidFiles cls pageSize (done ++ f :: rest)) :
    (f.start, f.stop) ∉ (done.map (·.entry pageSize)).map (·.1) := by
  have hnodup := hvalid.ranges
  rw [List.map_append, List.map_cons] at hnodup
  have hkeys : (done.map (·.entry pageSize)).map (·.1) = done.map (·.range) := by
    rw [List.map_map]
    rfl
  rw [hkeys]
  exact fun hin => (List.nodup_append.mp hnodup).2.2 _ hin _ List.mem_cons_self rfl

/-- The loop from any file on; the invariant is where the name cursor is. -/
theorem readFiles_encode {pageSize : Int} {files : List MappedFile}
    (hvalid : ValidFiles cls pageSize files)
    (hlen : (encodeFiles cls pageSize files).length < cls.range) {nameFuel : Nat}
    (hname : (encodeFiles cls pageSize files).length + 1 ≤ nameFuel) :
    ∀ (rest done : List MappedFile) (fuel : Nat), files = done ++ rest → rest.length < fuel →
      readFiles cls (encodeFiles cls pageSize files) files.length pageSize nameFuel fuel
        done.length (nameCursor cls files done) (done.map (·.entry pageSize)) =
        some (true, files.map (·.entry pageSize)) := by
  intro rest
  induction rest with
  | nil =>
      intro done fuel hfiles hfuel
      obtain ⟨fuel, rfl⟩ := Nat.exists_eq_succ_of_ne_zero (Nat.ne_zero_of_lt hfuel)
      rw [List.append_nil] at hfiles
      rw [readFiles, hfiles, if_neg (Int.lt_irrefl _)]
  | cons f rest ih =>
      intro done fuel hfiles hfuel
      obtain ⟨fuel, rfl⟩ := Nat.exists_eq_succ_of_ne_zero (Nat.ne_zero_of_lt hfuel)
      have hlt : (done.length : Int) < files.length := by
        rw [hfiles, List.length_append, List.length_cons]
        omega
      have hmem : f ∈ files := by
        rw [hfiles]
        exact List.mem_append_right _ List.mem_cons_self
      have hword : ∀ {k v}, k < 3 → f.words[k]? = some v →
          longAt cls (encodeFiles cls pageSize files) (2 + 3 * done.length + k) = v ∧
            v ≠ kInvalidValue := by
        rw [hfiles] at hvalid ⊢
        exact fun hk hv => longAt_file hvalid hk hv
      have hstart := hword (show 0 < 3 by decide) rfl
      have hstop := hword (show 1 < 3 by decide) rfl
      have hoffset := hword (show 2 < 3 by decide) rfl
      have hfresh := range_notMem_done (hfiles ▸ hvalid)
      have hdrop := @drop_nameCursor cls pageSize done (f :: rest)
      rw [← hfiles, List.map_cons, terminate_cons] at hdrop
      have hnameLen : f.name.length < nameFuel := by
        have hlength := congrArg List.length hdrop
        rw [List.length_drop, List.length_append] at hlength
        omega
      have hread := @readName_terminated cls _ hlen _ f.name nameFuel
        (nameCursor cls files done) [] (hvalid.names f hmem) hnameLen hdrop
      have hnext := ih (done ++ [f]) fuel (by rw [hfiles, List.append_assoc]; rfl)
        (by rw [List.length_cons] at hfuel; omega)
      rw [Nat.add_zero] at hstart
      rw [readFiles, if_pos hlt, hstart.1, hstop.1, hoffset.1,
        if_neg (not_or.mpr ⟨hstart.2, not_or.mpr ⟨hstop.2, hoffset.2⟩⟩), hread]
      dsimp only
      rw [update_of_notMem hfresh, signed_pattern (hvalid.offsets f hmem)]
      rw [nameCursor_concat, List.length_append, List.map_append] at hnext
      exact hnext

theorem decodeFileNote_encode {pageSize : Int} {files : List MappedFile}
    (hvalid : ValidFiles cls pageSize files)
    (hlen : (encodeFiles cls pageSize files).length < cls.range) {fuel : Nat}
    (hfuel : (encodeFiles cls pageSize files).length + 1 ≤ fuel) :
    decodeFileNote cls fuel (encodeFiles cls pageSize files) =
      some (true, files.map (·.entry pageSize)) := by
  have htotal : cls.wordSize * (2 + 3 * files.length) ≤
      (encodeFiles cls pageSize files).length := by
    rw [encodeFiles, List.length_append, length_encodeLongs, length_noteWords]
    exact Nat.le_add_right _ _
  have hfiles : 4 * (2 + 3 * files.length) ≤ cls.wordSize * (2 + 3 * files.length) :=
    Nat.mul_le_mul_right _ (by cases cls <;> decide)
  have hcount : longAt cls (encodeFiles cls pageSize files) 0 = files.length :=
    longAt_encodeLongs (by rw [noteWords]; rfl) ⟨by omega, by omega⟩
  have hpage : longAt cls (encodeFiles cls pageSize files) 1 = pageSize :=
    longAt_encodeLongs (by rw [noteWords]; rfl) hvalid.page.1
  have hcursor : cls.pattern (cls.wordSize * (2 + 3 * (files.length : Int))) =
      nameCursor cls files [] := by
    have hcast : (cls.wordSize * (2 + 3 * (files.length : Int))) =
        ((cls.wordSize * (2 + 3 * files.length) : Nat) : Int) := by
      rw [Int.natCast_mul, Int.natCast_add, Int.natCast_mul]
      rfl
    rw [ElfClass.pattern, hcast, ← Int.natCast_emod, Int.toNat_natCast,
      Nat.mod_eq_of_lt (by omega), nameCursor]
    rfl
  rw [decodeFileNote, hcount, hpage, if_neg, hcursor]
  · exact readFiles_encode hvalid hlen hfuel files [] fuel rfl (by omega)
  · exact not_or.mpr ⟨by rw [kInvalidValue]; omega, hvalid.page.2⟩

/-! ## The ranges -/

theorem pattern_signed {word : Nat} (h : word < cls.range) :
    cls.pattern (cls.signed word) = word := by
  rw [ElfClass.signed, ElfClass.pattern]
  split
  · rw [Int.emod_eq_of_lt (by omega) (by omega), Int.toNat_natCast]
  · rw [Int.sub_emod_right, Int.emod_eq_of_lt (by omega) (by omega), Int.toNat_natCast]

/-- The value that is not a number of the note is the largest bit pattern. -/
theorem signed_eq_invalid {word : Nat} (h : word < cls.range) :
    cls.signed word = kInvalidValue ↔ word + 1 = cls.range := by
  have htwo : 2 ≤ cls.range := by cases cls <;> decide
  rw [ElfClass.signed, kInvalidValue]
  split <;> omega

theorem wordAt_lt {index word : Nat} (h : wordAt cls desc index = some word) :
    word < cls.range := by
  rw [wordAt] at h
  split at h
  · cases h
    refine Nat.lt_of_lt_of_le (ofBytes_lt _) (Nat.pow_le_pow_right (by decide) ?_)
    rw [slice]
    exact List.length_take_le _ _
  · cases h

/-- The number of files is the same. -/
theorem countOf_longAt {index : Nat} (h : longAt cls desc index ≠ kInvalidValue) :
    countOf cls (cls.pattern (longAt cls desc index)) = (longAt cls desc index).toNat := by
  rw [longAt] at h ⊢
  cases hword : wordAt cls desc index with
  | none =>
      rw [hword] at h
      exact absurd rfl h
  | some word =>
      have hlt := wordAt_lt hword
      dsimp only
      rw [pattern_signed hlt, countOf, ElfClass.signed]
      split <;> omega

/-- The number and its bit pattern are invalid together. -/
theorem validWordAt_eq_longAt (cls : ElfClass) (desc : List Byte) (index : Nat) :
    validWordAt cls desc index =
      if longAt cls desc index = kInvalidValue then none
      else some (cls.pattern (longAt cls desc index)) := by
  cases hword : wordAt cls desc index with
  | none =>
      rw [validWordAt, longAt, hword]
      rfl
  | some word =>
      have hlt := wordAt_lt hword
      rw [validWordAt, longAt, hword]
      dsimp only
      rw [pattern_signed hlt]
      exact if_congr (signed_eq_invalid hlt).symm rfl rfl

/-- The keys, as bit patterns. -/
def FileMappings.ranges (cls : ElfClass) (m : FileMappings) : List (Nat × Nat) :=
  m.map fun e => (cls.pattern e.1.1, cls.pattern e.1.2)

theorem mem_ranges_update (m : FileMappings) (start stop : Int) (f : FileInfo → FileInfo)
    (range : Nat × Nat) :
    range ∈ (m.update (start, stop) f).ranges cls ↔
      range ∈ m.ranges cls ∨ range = (cls.pattern start, cls.pattern stop) := by
  rw [FileMappings.update]
  split
  · rename_i hmem
    have hsame : FileMappings.ranges cls
        (m.map fun e => if e.1 = (start, stop) then (e.1, f e.2) else e) = m.ranges cls := by
      rw [FileMappings.ranges, FileMappings.ranges, List.map_map]
      refine List.map_congr_left fun e _ => ?_
      rw [Function.comp_apply]
      split <;> rfl
    rw [hsame]
    refine ⟨Or.inl, ?_⟩
    rintro (hin | rfl)
    · exact hin
    · obtain ⟨e, he, hkey⟩ := List.mem_map.mp hmem
      exact List.mem_map.mpr ⟨e, he, by rw [hkey]⟩
  · rw [FileMappings.ranges, List.map_append, List.mem_append, List.map_singleton,
      List.mem_singleton]
    rfl

/-- The result with the offsets and the paths fails when the one without them does, and has
its ranges beside those that were there. -/
def SameRanges (cls : ElfClass) (before : FileMappings) (result : Bool × FileMappings) :
    Option (List (Nat × Nat)) → Prop
  | none => result.1 = false
  | some ranges => result.1 = true ∧
      ∀ range, range ∈ result.2.ranges cls ↔ range ∈ before.ranges cls ∨ range ∈ ranges

theorem readFiles_sameRanges (fileCount pageSize : Int) (nameFuel : Nat)
    {result : Bool × FileMappings} :
    ∀ fuel i pos m,
      readFiles cls desc fileCount pageSize nameFuel fuel i pos m = some result →
      SameRanges cls m result (fileRanges cls desc (fileCount.toNat - i) i) := by
  intro fuel
  induction fuel with
  | zero =>
      intro i pos m h
      cases h
  | succ fuel ih =>
      intro i pos m h
      rw [readFiles] at h
      dsimp only at h
      split at h
      · obtain ⟨left, hleft⟩ := Nat.exists_eq_succ_of_ne_zero
          (show fileCount.toNat - i ≠ 0 by omega)
        rw [hleft, fileRanges, validWordAt_eq_longAt, validWordAt_eq_longAt,
          validWordAt_eq_longAt]
        split at h
        · rename_i hinvalid
          cases h
          rcases hinvalid with hstart | hstop | hoffset
          · rw [if_pos hstart]
            rfl
          · rw [if_pos hstop]
            split <;> rfl
          · rw [if_pos hoffset]
            split
            · rfl
            · split <;> rfl
        · rename_i hvalid
          obtain ⟨hstart, hvalid⟩ := not_or.mp hvalid
          obtain ⟨hstop, hoffset⟩ := not_or.mp hvalid
          rw [if_neg hstart, if_neg hstop, if_neg hoffset]
          split at h
          · cases h
          · have hrest := ih _ _ _ h
            rw [show fileCount.toNat - (i + 1) = left by omega] at hrest
            simp only [Option.bind_eq_bind, Option.bind_some]
            cases hranges : fileRanges cls desc left (i + 1) with
            | none =>
                rw [hranges] at hrest
                exact hrest
            | some ranges =>
                rw [hranges] at hrest
                refine ⟨hrest.1, fun range => ?_⟩
                rw [hrest.2, mem_ranges_update, List.mem_cons, or_assoc]
      · rw [show fileCount.toNat - i = 0 by omega]
        cases h
        exact ⟨rfl, fun range => by rw [or_iff_left List.not_mem_nil]⟩

/-- What the writer of the coredump takes from the mappings is what is here: the outcome and
the ranges. -/
theorem getFileMap_sameRanges {findNote : FindNote} {fuel : Nat} {noteBuf : List Byte}
    {result : Bool × FileMappings}
    (h : getFileMap cls findNote fuel noteBuf = some result) :
    SameRanges cls [] result (getFileMappings cls findNote noteBuf) := by
  rw [getFileMap] at h
  rw [getFileMappings]
  split at h
  · rename_i hnote
    cases h
    rw [hnote]
    rfl
  · rename_i desc hnote
    rw [hnote]
    simp only [Option.bind_eq_bind, Option.bind_some]
    rw [validWordAt_eq_longAt, validWordAt_eq_longAt]
    rw [decodeFileNote] at h
    split at h
    · rename_i hinvalid
      cases h
      rcases hinvalid with hcount | hpage
      · rw [if_pos hcount]
        rfl
      · rw [if_pos hpage]
        split <;> rfl
    · rename_i hvalid
      obtain ⟨hcount, hpage⟩ := not_or.mp hvalid
      rw [if_neg hcount, if_neg hpage]
      have hfiles := readFiles_sameRanges _ _ _ _ _ _ _ h
      simp only [Option.bind_some]
      rw [countOf_longAt hcount]
      exact hfiles

/-! ## The paths -/

theorem readName_notMem {r : List Byte × Nat} :
    ∀ {fuel pos : Nat} {path : List Byte}, readName cls desc fuel pos path = some r →
      0#8 ∉ path → 0#8 ∉ r.1 := by
  intro fuel
  induction fuel with
  | zero =>
      intro pos path h _
      cases h
  | succ fuel ih =>
      intro pos path h hpath
      rw [readName] at h
      split at h
      · cases h
        exact hpath
      · rename_i hchar
        refine ih h ?_
        rw [List.mem_append, List.mem_singleton, not_or]
        exact ⟨hpath, Ne.symm hchar⟩

/-- No path has a NUL in it. -/
def FileMappings.PathsEnd (m : FileMappings) : Prop := ∀ e ∈ m, 0#8 ∉ e.2.path

theorem pathsEnd_update {m : FileMappings} (h : m.PathsEnd) (range : FileRange) (offset : Int)
    {path : List Byte} (hpath : 0#8 ∉ path) :
    (m.update range fun info => ⟨offset, info.path ++ path⟩).PathsEnd := by
  intro e he
  rw [FileMappings.update] at he
  split at he
  · obtain ⟨e₀, he₀, rfl⟩ := List.mem_map.mp he
    split
    · rw [List.mem_append, not_or]
      exact ⟨h e₀ he₀, hpath⟩
    · exact h e₀ he₀
  · rcases List.mem_append.mp he with hold | hnew
    · exact h e hold
    · cases List.mem_singleton.mp hnew
      exact hpath

theorem readFiles_pathsEnd (fileCount pageSize : Int) (nameFuel : Nat)
    {result : Bool × FileMappings} :
    ∀ fuel i pos m,
      readFiles cls desc fileCount pageSize nameFuel fuel i pos m = some result →
      m.PathsEnd → result.2.PathsEnd := by
  intro fuel
  induction fuel with
  | zero =>
      intro i pos m h _
      cases h
  | succ fuel ih =>
      intro i pos m h hm
      rw [readFiles] at h
      dsimp only at h
      split at h
      · split at h
        · cases h
          exact hm
        · split at h
          · cases h
          · rename_i hread
            exact ih _ _ _ h (pathsEnd_update hm _ _ (readName_notMem hread List.not_mem_nil))
      · cases h
        exact hm

/-- Names end at their NUL, so that no path has one. -/
theorem getFileMap_pathsEnd {findNote : FindNote} {fuel : Nat} {noteBuf : List Byte}
    {result : Bool × FileMappings}
    (h : getFileMap cls findNote fuel noteBuf = some result) : result.2.PathsEnd := by
  have hnil : FileMappings.PathsEnd [] := fun e he => absurd he List.not_mem_nil
  rw [getFileMap] at h
  split at h
  · cases h
    exact hnil
  · rw [decodeFileNote] at h
    split at h
    · cases h
      exact hnil
    · exact readFiles_pathsEnd _ _ _ _ _ _ _ h hnil

/-! ## The note segment -/

/-- A note of a note segment. -/
structure ElfNote where
  type : Nat
  name : List Byte
  desc : List Byte
  deriving DecidableEq, Repr

/-- The sizes and the type are numbers of 32 bits. -/
def ElfNote.Fits (note : ElfNote) : Prop :=
  note.type < 2 ^ 32 ∧ note.name.length < 2 ^ 32 ∧ note.desc.length < 2 ^ 32

/-- The bytes behind a part of a note up to the next multiple of four. -/
def notePadding (bytes : List Byte) : List Byte :=
  List.replicate ((bytes.length + 3) / 4 * 4 - bytes.length) 0#8

def ElfNote.encode (note : ElfNote) : List Byte :=
  encodeFields [(4, note.name.length), (4, note.desc.length), (4, note.type)] ++
    (note.name ++ notePadding note.name) ++ (note.desc ++ notePadding note.desc)

def encodeNotes (notes : List ElfNote) : List Byte := notes.flatMap ElfNote.encode

/-- The search for a note finds the first one of its type. -/
def FindsNotes (findNote : FindNote) : Prop :=
  ∀ (notes : List ElfNote) (type : Nat), (∀ note ∈ notes, note.Fits) →
    findNote type (encodeNotes notes) = (notes.find? fun note => note.type == type).map (·.desc)

theorem slice_middle {a b rest : List Byte} {off len : Nat} (ha : a.length = off)
    (hb : b.length = len) : slice (a ++ (b ++ rest)) off len = b := by
  rw [slice, List.drop_left' ha, List.take_left' hb]

theorem length_padded (bytes : List Byte) :
    (bytes ++ notePadding bytes).length = (bytes.length + 3) / 4 * 4 := by
  rw [List.length_append, notePadding, List.length_replicate]
  omega

/-- The bytes of the sizes and the type come first. -/
theorem slice_header (note : ElfNote) (rest : List Byte) :
    slice (note.encode ++ rest) 0 4 = toBytes 4 note.name.length ∧
      slice (note.encode ++ rest) 4 4 = toBytes 4 note.desc.length ∧
      slice (note.encode ++ rest) 8 4 = toBytes 4 note.type := by
  have hlen := fun n => length_toBytes 4 n
  rw [ElfNote.encode, encodeFields, encodeFields, encodeFields, encodeFields]
  simp only [List.append_assoc]
  refine ⟨slice_middle (a := []) rfl (hlen _), slice_middle (hlen _) (hlen _), ?_⟩
  rw [← List.append_assoc (toBytes 4 note.name.length)]
  refine slice_middle ?_ (hlen _)
  rw [List.length_append, hlen, hlen]

/-- Behind them and the name comes the description, and then the next note. -/
theorem slice_desc (note : ElfNote) (rest : List Byte) :
    slice (note.encode ++ rest) (12 + (note.name.length + 3) / 4 * 4) note.desc.length =
        note.desc ∧
      (note.encode ++ rest).drop (12 + (note.name.length + 3) / 4 * 4 +
        (note.desc.length + 3) / 4 * 4) = rest := by
  have hhead : (encodeFields [(4, note.name.length), (4, note.desc.length), (4, note.type)] ++
      (note.name ++ notePadding note.name)).length = 12 + (note.name.length + 3) / 4 * 4 := by
    rw [List.length_append, length_padded, encodeFields, encodeFields, encodeFields, encodeFields,
      List.length_append, List.length_append, List.length_append, length_toBytes, length_toBytes,
      length_toBytes]
    rfl
  constructor
  · rw [ElfNote.encode, List.append_assoc, List.append_assoc note.desc]
    exact slice_middle hhead rfl
  · refine List.drop_left' ?_
    rw [ElfNote.encode, List.length_append, hhead, length_padded]

/-- The walk looks at one note, and goes on behind it. -/
theorem walkNotes_cons {note : ElfNote} (hfits : note.Fits) (fuel type : Nat)
    (rest : List Byte) :
    walkNotes (fuel + 1) type (note.encode ++ rest) =
      if note.type = type then some note.desc else walkNotes fuel type rest := by
  obtain ⟨htype, hname, hdesc⟩ := hfits
  obtain ⟨hnslice, hdslice, htslice⟩ := slice_header note rest
  obtain ⟨hdescslice, hrest⟩ := slice_desc note rest
  have hvalue : ∀ n, n < 2 ^ 32 → ofBytes (toBytes 4 n) = n := fun n hn => by
    rw [ofBytes_toBytes, Nat.mod_eq_of_lt (by omega)]
  have hlen : ¬ (note.encode ++ rest).length < 12 := by
    rw [List.length_append, ElfNote.encode, List.length_append, List.length_append, encodeFields,
      encodeFields, encodeFields, List.length_append, List.length_append, List.length_append,
      length_toBytes, length_toBytes, length_toBytes]
    omega
  rw [walkNotes, if_neg hlen, hnslice, hdslice, htslice, hvalue _ hname, hvalue _ hdesc,
    hvalue _ htype]
  dsimp only
  rw [hdescslice, hrest]

/-- The walk over the notes finds the first one of a type. -/
theorem walkNotes_finds : FindsNotes fun type buf => walkNotes buf.length type buf := by
  have hwalk : ∀ (notes : List ElfNote) (type fuel : Nat), (∀ note ∈ notes, note.Fits) →
      notes.length ≤ fuel → walkNotes fuel type (encodeNotes notes) =
        (notes.find? fun note => note.type == type).map (·.desc) := by
    intro notes
    induction notes with
    | nil =>
        intro type fuel _ _
        cases fuel with
        | zero => rfl
        | succ fuel => rfl
    | cons note notes ih =>
        intro type fuel hfits hfuel
        obtain ⟨fuel, rfl⟩ := Nat.exists_eq_succ_of_ne_zero (Nat.ne_zero_of_lt hfuel)
        rw [encodeNotes, List.flatMap_cons,
          walkNotes_cons (hfits note List.mem_cons_self) fuel type]
        by_cases htype : note.type = type
        · rw [if_pos htype, List.find?_cons_of_pos (by simpa using htype), Option.map_some]
        · rw [if_neg htype, List.find?_cons_of_neg (by simpa using htype)]
          exact ih type fuel (fun n hn => hfits n (List.mem_cons_of_mem _ hn))
            (Nat.le_of_succ_le_succ hfuel)
  intro notes type hfits
  refine hwalk notes type _ hfits ?_
  have hpos : ∀ note : ElfNote, 1 ≤ note.encode.length := by
    intro note
    rw [ElfNote.encode, encodeFields, List.length_append, List.length_append, List.length_append,
      length_toBytes]
    omega
  clear hfits
  induction notes with
  | nil => exact Nat.le_refl 0
  | cons note notes ih =>
      have hnote := hpos note
      rw [encodeNotes, List.flatMap_cons, List.length_append, List.length_cons]
      change notes.length + 1 ≤ note.encode.length + (encodeNotes notes).length
      omega

/-- Files that are listed come back as they are, behind whatever other notes; and no content
of the note keeps the loops going. -/
theorem getFileMap_decodes (cls : ElfClass) {findNote : FindNote} (hfind : FindsNotes findNote) :
    (∀ (pageSize : Int) (files : List MappedFile) (others after : List ElfNote)
        (name : List Byte) (fuel : Nat), ValidFiles cls pageSize files →
      (∀ note ∈ others, note.type ≠ ntFile) →
      (∀ note ∈ others ++ ⟨ntFile, name, encodeFiles cls pageSize files⟩ :: after, note.Fits) →
      (encodeFiles cls pageSize files).length + 1 ≤ fuel →
      getFileMap cls findNote fuel
          (encodeNotes (others ++ ⟨ntFile, name, encodeFiles cls pageSize files⟩ :: after)) =
        some (true, files.map (·.entry pageSize))) ∧
    ∀ (desc : List Byte) (fuel : Nat), desc.length < cls.range → desc.length + 1 ≤ fuel →
      (decodeFileNote cls fuel desc).isSome = true := by
  refine ⟨?_, fun desc fuel hlen hfuel => decodeFileNote_isSome hlen hfuel⟩
  intro pageSize files others after name fuel hvalid hothers hfits hfuel
  have hnone : others.find? (fun note => note.type == ntFile) = none :=
    List.find?_eq_none.mpr fun note hnote => by simpa using hothers note hnote
  have hfound := hfind _ ntFile hfits
  rw [List.find?_append, hnone, Option.none_or, List.find?_cons_of_pos (by simp),
    Option.map_some] at hfound
  have hrange : 2 ^ 32 ≤ cls.range := by cases cls <;> decide
  have hlen := (hfits _ (List.mem_append_right others List.mem_cons_self)).2.2
  rw [getFileMap, hfound]
  exact decodeFileNote_encode hvalid (Nat.lt_of_lt_of_le hlen hrange) hfuel

/-- A file of two mappings behind a note of another type. -/
theorem getFileMap_decodes_two :
    getFileMap .elf32 (fun type buf => walkNotes buf.length type buf) 50
        (encodeNotes [⟨ntAuxv, [], []⟩, ⟨ntFile, [], encodeFiles .elf32 4096
          [⟨0x1000, 0x2000, 0, [0x61]⟩, ⟨0x2000, 0x3000, 1, [0x61]⟩]⟩]) =
      some (true, [((0x1000, 0x2000), ⟨0, [0x61]⟩), ((0x2000, 0x3000), ⟨4096, [0x61]⟩)]) :=
  (getFileMap_decodes .elf32 walkNotes_finds).1 4096
    [⟨0x1000, 0x2000, 0, [0x61]⟩, ⟨0x2000, 0x3000, 1, [0x61]⟩] [⟨ntAuxv, [], []⟩] [] [] 50
    ⟨by decide, by decide, by decide, by decide, by decide⟩ (by decide)
    (by unfold ElfNote.Fits; decide) (by decide)

end DragonDevice.Crash
