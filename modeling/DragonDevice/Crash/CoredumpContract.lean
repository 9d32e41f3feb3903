/-
  Crash/CoredumpContract.lean --- the contract of `WriteCoredumpToFD`: when it succeeds on
  a source of the documented shape, the file is the source's coredump without the
  segments that are backed by mapped files.

  The statement reads both files through their own ELF headers and the source's own
  NT_FILE note; it does not mention the writer.
-/
import DragonDevice.Crash.CoredumpCopy

set_option autoImplicit false

namespace DragonDevice.Crash

open DragonDevice.Lib

/-! ## The statement -/

/-- The shape that `WriteCoredumpToFD` documents: the program headers follow the ELF
header, the note is at or behind their end, and no sum of the new layout leaves the type
of `p_offset`. -/
structure DocumentedShape (cls : ElfClass) (findNote : FindNote) (src : List Byte) : Prop where
  phoff : Ehdr.ePhoff cls (src.take cls.ehdrSize) = cls.ehdrSize
  note : ∀ p, (programHeaders cls src)[0]? = some p →
    cls.ehdrSize + (programHeaders cls src).length * cls.phdrSize ≤ p.offset
  inRange : ∀ mappings, getFileMappings cls findNote (noteBytes cls src) = some mappings →
    ∀ q ∈ filterSegments cls id mappings (programHeaders cls src),
      q.offset + q.filesz < cls.range

/-- The NT_FILE note of the source lists the address range of a loadable segment. -/
def Mapped (cls : ElfClass) (findNote : FindNote) (src : List Byte) (p : Phdr) : Prop :=
  p.type = ptLoad ∧ ∃ desc, findNote ntFile (noteBytes cls src) = some desc ∧
    ListsRange cls desc (p.addressRange cls)

/-- The segment has the same size and the same bytes in both files, all of them. -/
structure SameBytes (src : List Byte) (p : Phdr) (out : List Byte) (q : Phdr) : Prop where
  filesz : q.filesz = p.filesz
  bytes : slice out q.offset q.filesz = slice src p.offset p.filesz
  whole : (slice src p.offset p.filesz).length = p.filesz

/-- The ranges of a file that its headers speak of, as starts and lengths: the ELF header,
the program headers and the segments. -/
def writtenRanges (cls : ElfClass) (file : List Byte) : List (Nat × Nat) :=
  (0, cls.ehdrSize) ::
    ((List.range (programHeaders cls file).length).map fun i =>
        (Ehdr.ePhoff cls (file.take cls.ehdrSize) + i * cls.phdrSize, cls.phdrSize)) ++
      (programHeaders cls file).map fun q => (q.offset, q.filesz)

/-- The file is the coredump of the source without the segments of mapped files. -/
structure FilteredCopy (cls : ElfClass) (findNote : FindNote) (src out : List Byte)
    (size : Nat) : Prop where
  fields : List.Forall₂ (fun p q => q = { p with offset := q.offset, filesz := q.filesz })
    (programHeaders cls src) (programHeaders cls out)
  note : ∀ p q, (programHeaders cls src)[0]? = some p →
    (programHeaders cls out)[0]? = some q → SameBytes src p out q
  dropped : ∀ (i : Nat) (p q : Phdr), 0 < i → (programHeaders cls src)[i]? = some p →
    (programHeaders cls out)[i]? = some q → Mapped cls findNote src p → q.filesz = 0
  kept : ∀ (i : Nat) (p q : Phdr), 0 < i → (programHeaders cls src)[i]? = some p →
    (programHeaders cls out)[i]? = some q → ¬ Mapped cls findNote src p →
      SameBytes src p out q
  aligned : ∀ (i : Nat) (p q : Phdr), 0 < i → (programHeaders cls src)[i]? = some p →
    (programHeaders cls out)[i]? = some q → p.align ≠ 0 → p.align ∣ q.offset
  disjoint : (writtenRanges cls out).Pairwise fun r r' => r.1 + r.2 ≤ r'.1
  size : ∀ r ∈ writtenRanges cls out, r.1 + r.2 ≤ size

/-! ## The headers of the file that was written -/

theorem programHeaders_fits {cls : ElfClass} {file : List Byte} {p : Phdr}
    (h : p ∈ programHeaders cls file) : p.Fits cls := by
  obtain ⟨i, -, rfl⟩ := List.mem_map.mp h
  exact Phdr.decode_fits _ _

theorem Relocated.fits {cls : ElfClass} {mappings : List (Nat × Nat)} {p q : Phdr}
    (h : Relocated cls mappings p q) (hp : p.Fits cls) (hq : q.offset + q.filesz < cls.range) :
    q.Fits cls := by
  rw [h.fields]
  exact hp.relocate (by omega) (by omega)

theorem WritesCore.take_eq {cls : ElfClass} {src out : List Byte} {b : Beginning} {w : World}
    {note : Phdr} {rest original : List Phdr} (hb : ReadsBeginning cls src b w)
    (h : WritesCore cls src out b note rest original) :
    out.take cls.ehdrSize = src.take cls.ehdrSize := by
  have hslice := h.elfHeader.slice_eq
  rw [hb.headerLength, hb.elfHeader] at hslice
  exact hslice

/-- Reading the program headers of the file gives the filtered ones. -/
theorem WritesCore.programHeaders_eq {cls : ElfClass} {src out : List Byte} {b : Beginning}
    {w : World} {note : Phdr} {rest original : List Phdr} (hb : ReadsBeginning cls src b w)
    (hphoff : Ehdr.ePhoff cls (src.take cls.ehdrSize) = cls.ehdrSize)
    (hlength : (note :: rest).length = (programHeaders cls src).length)
    (hfits : ∀ p ∈ note :: rest, p.Fits cls)
    (h : WritesCore cls src out b note rest original) :
    programHeaders cls out = note :: rest := by
  have hcount : Ehdr.ePhnum cls (src.take cls.ehdrSize) = (note :: rest).length := by
    rw [hlength]
    unfold programHeaders
    rw [List.length_map, List.length_range]
  unfold programHeaders
  rw [h.take_eq hb, hphoff, hcount]
  apply List.ext_getElem?
  intro i
  rw [List.getElem?_map]
  by_cases hi : i < (note :: rest).length
  · have hget := List.getElem?_eq_getElem hi
    have hplaced := (h.headers i _ hget).slice_eq
    rw [Phdr.length_encode] at hplaced
    rw [List.getElem?_range hi, hget, Option.map_some, hplaced,
      Phdr.decode_encode (hfits _ (List.getElem_mem hi))]
  · rw [List.getElem?_eq_none (by rw [List.length_range]; omega),
      List.getElem?_eq_none (by omega)]
    rfl

/-! ## Ranges -/

theorem Ascending.bounds {frontier : Nat} {l : List Phdr} (h : Ascending frontier l) :
    (l.map fun q => (q.offset, q.filesz)).Pairwise (fun r r' => r.1 + r.2 ≤ r'.1) ∧
      ∀ q ∈ l, frontier ≤ q.offset := by
  induction l generalizing frontier with
  | nil => exact ⟨List.Pairwise.nil, fun q hq => absurd hq List.not_mem_nil⟩
  | cons first rest ih =>
      obtain ⟨hpairs, hbelow⟩ := ih h.2
      have hfirst := h.1
      refine ⟨List.Pairwise.cons ?_ hpairs, fun q hq => ?_⟩
      · intro r hr
        obtain ⟨q, hq, rfl⟩ := List.mem_map.mp hr
        exact hbelow q hq
      · rcases List.mem_cons.mp hq with rfl | hq
        · exact hfirst
        · have := hbelow q hq
          omega

/-- The ELF header, the program headers behind it and segments behind those do not
overlap. -/
theorem ranges_pairwise {start width count : Nat} {l : List Phdr}
    (h : Ascending (start + count * width) l) :
    ((0, start) :: ((List.range count).map fun i => (start + i * width, width)) ++
      l.map fun q => (q.offset, q.filesz)).Pairwise fun r r' => r.1 + r.2 ≤ r'.1 := by
  obtain ⟨hpairs, hbelow⟩ := h.bounds
  have hend : ∀ i, i < count → start + i * width + width ≤ start + count * width := by
    intro i hi
    have hmul : (i + 1) * width ≤ count * width := Nat.mul_le_mul_right width hi
    rw [Nat.succ_mul] at hmul
    omega
  rw [List.cons_append, List.pairwise_cons, List.pairwise_append]
  refine ⟨?_, ?_, hpairs, ?_⟩
  · intro r hr
    rcases List.mem_append.mp hr with hr | hr
    · obtain ⟨i, -, rfl⟩ := List.mem_map.mp hr
      dsimp only
      omega
    · obtain ⟨q, hq, rfl⟩ := List.mem_map.mp hr
      have := hbelow q hq
      dsimp only
      omega
  · rw [List.pairwise_map]
    refine List.pairwise_lt_range.imp ?_
    intro i j hij
    have hmul : (i + 1) * width ≤ j * width := Nat.mul_le_mul_right width hij
    rw [Nat.succ_mul] at hmul
    dsimp only
    omega
  · intro r hr r' hr'
    obtain ⟨i, hi, rfl⟩ := List.mem_map.mp hr
    obtain ⟨q, hq, rfl⟩ := List.mem_map.mp hr'
    have h₁ := hend i (List.mem_range.mp hi)
    have h₂ := hbelow q hq
    dsimp only
    omega

/-- The last of ranges that follow each other ends last. -/
theorem ranges_le_end {start width count : Nat} {note : Phdr} {rest : List Phdr}
    (h : Ascending (start + count * width) (note :: rest)) :
    ∀ r ∈ (0, start) :: ((List.range count).map fun i => (start + i * width, width)) ++
      (note :: rest).map fun q => (q.offset, q.filesz),
      r.1 + r.2 ≤ coredumpEnd (note :: rest) := by
  have hends := h.le_coredumpEnd
  have hnote := hends note List.mem_cons_self
  have hstart := h.1
  intro r hr
  rcases List.mem_append.mp hr with hr | hr
  · rcases List.mem_cons.mp hr with rfl | hr
    · dsimp only
      omega
    · obtain ⟨i, hi, rfl⟩ := List.mem_map.mp hr
      have hmul : (i + 1) * width ≤ count * width :=
        Nat.mul_le_mul_right width (List.mem_range.mp hi)
      rw [Nat.succ_mul] at hmul
      dsimp only
      omega
  · obtain ⟨q, hq, rfl⟩ := List.mem_map.mp hr
    exact hends q hq

/-! ## The contract -/

theorem ReadsBeginning.tick {cls : ElfClass} {sys : Sys} {src : List Byte} {b : Beginning}
    {w w' : World} (h : ReadsBeginning cls src b w) (ht : w.tick sys = some w') :
    ReadsBeginning cls src b w' := by
  obtain ⟨hpos, hfile, hsrc, hread⟩ := tick_spec ht
  refine { h with source := ?_, file := hfile.trans h.file, pos := hpos.trans h.pos }
  unfold World.From
  rw [hsrc, hread]
  exact h.source

theorem Relocated.of_getElem? {cls : ElfClass} {mappings : List (Nat × Nat)}
    {original rest : List Phdr} (h : List.Forall₂ (Relocated cls mappings) original rest)
    {i : Nat} {p q : Phdr} (hp : original[i]? = some p) (hq : rest[i]? = some q) :
    Relocated cls mappings p q := by
  induction h generalizing i with
  | nil => cases hp
  | cons hfirst _ ih =>
      cases i with
      | zero =>
          cases hp
          cases hq
          exact hfirst
      | succ i => exact ih hp hq

/-- A run that succeeds has read the beginning, found the mappings and written everything,
and its result is the end of the layout. -/
theorem writeCoredumpToFD_cases {cls : ElfClass} {findNote : FindNote} {sys : Sys}
    {freeDiskSpace : Int} {src out : List Byte} {size : Nat}
    (h : writeCoredumpToFD cls findNote sys freeDiskSpace src = some (size, out)) :
    ∃ b w w' mappings, ReadsBeginning cls src b w ∧
      getFileMappings cls findNote b.noteBuf = some mappings ∧
      writeAll cls sys b
        (filterSegments cls (wrapOffset cls) mappings b.programHeaders) w = some w' ∧
      size = wrapOffset cls
        (coredumpEnd (filterSegments cls (wrapOffset cls) mappings b.programHeaders)) ∧
      out = w'.file := by
  unfold writeCoredumpToFD at h
  simp only [Option.bind_eq_bind, Option.bind_eq_some_iff, Prod.exists] at h
  obtain ⟨b, w₀, hread, mappings, hmap, h⟩ := h
  have hb := readUntilNote_spec hread
  split at h
  · cases h
  · split at h
    · cases h
    · simp only [Option.bind_eq_some_iff, Option.some.injEq, Prod.mk.injEq] at h
      obtain ⟨_, _, w₁, htick₁, w₂, htick₂, w', hwrite, rfl, rfl⟩ := h
      exact ⟨b, w₂, w', mappings, (hb.tick htick₁).tick htick₂, hmap, hwrite, rfl, rfl⟩

/-- What a run that succeeded has left in the file: behind the note, each header is what
became of the source's, and each segment has its bytes. -/
structure FilteredRun (cls : ElfClass) (mappings : List (Nat × Nat)) (src out : List Byte)
    (note : Phdr) (original rest : List Phdr) : Prop where
  headers : programHeaders cls src = note :: original
  filtered : programHeaders cls out = note :: rest
  phoff : Ehdr.ePhoff cls (out.take cls.ehdrSize) = cls.ehdrSize
  relocated : List.Forall₂ (Relocated cls mappings) original rest
  ascending : Ascending (cls.ehdrSize + (note :: rest).length * cls.phdrSize) (note :: rest)
  note : SameBytes src note out note
  segments : ∀ pair ∈ rest.zip original,
    Placed out pair.1.offset (slice src pair.2.offset pair.1.filesz) ∧
      (slice src pair.2.offset pair.1.filesz).length = pair.1.filesz

namespace FilteredRun

variable {cls : ElfClass} {mappings : List (Nat × Nat)} {src out : List Byte} {note : Phdr}
  {original rest : List Phdr}

/-- A segment behind the note. -/
theorem segment (h : FilteredRun cls mappings src out note original rest) {i : Nat}
    {p q : Phdr} (hi : 0 < i) (hp : (programHeaders cls src)[i]? = some p)
    (hq : (programHeaders cls out)[i]? = some q) :
    Relocated cls mappings p q ∧ (q, p) ∈ rest.zip original := by
  cases i with
  | zero => exact absurd hi (Nat.lt_irrefl 0)
  | succ j =>
      rw [h.headers, List.getElem?_cons_succ] at hp
      rw [h.filtered, List.getElem?_cons_succ] at hq
      exact ⟨Relocated.of_getElem? h.relocated hp hq,
        List.mem_of_getElem? (List.getElem?_zip_eq_some.mpr ⟨hq, hp⟩)⟩

/-- A segment that no mapping backs has its bytes in the file. -/
theorem kept (h : FilteredRun cls mappings src out note original rest) {i : Nat} {p q : Phdr}
    (hi : 0 < i) (hp : (programHeaders cls src)[i]? = some p)
    (hq : (programHeaders cls out)[i]? = some q) (hbacked : ¬ p.Backed cls mappings) :
    SameBytes src p out q := by
  obtain ⟨hpq, hmem⟩ := h.segment hi hp hq
  have hfilesz : q.filesz = p.filesz := by
    rw [hpq.filesz, if_neg hbacked]
  obtain ⟨hplaced, hlen⟩ := h.segments (q, p) hmem
  have hbytes := hplaced.slice_eq
  rw [hlen] at hbytes
  dsimp only at hbytes hlen
  refine ⟨hfilesz, ?_, ?_⟩
  · rw [hbytes, hfilesz]
  · rw [← hfilesz]
    exact hlen

theorem writtenRanges_eq (h : FilteredRun cls mappings src out note original rest) :
    writtenRanges cls out =
      (0, cls.ehdrSize) ::
        ((List.range (note :: rest).length).map fun i =>
            (cls.ehdrSize + i * cls.phdrSize, cls.phdrSize)) ++
          (note :: rest).map fun q => (q.offset, q.filesz) := by
  unfold writtenRanges
  rw [h.filtered, h.phoff]

/-- The file is a filtered copy, up to the end of the layout. -/
theorem filteredCopy {findNote : FindNote}
    (h : FilteredRun cls mappings src out note original rest)
    (hmap : getFileMappings cls findNote (noteBytes cls src) = some mappings) :
    FilteredCopy cls findNote src out (coredumpEnd (note :: rest)) := by
  have hmapped : ∀ p : Phdr, p.Backed cls mappings ↔ Mapped cls findNote src p := by
    intro p
    unfold Phdr.Backed Mapped
    rw [mem_getFileMappings hmap]
  refine ⟨?_, ?_, ?_, ?_, ?_, ?_, ?_⟩
  · rw [h.headers, h.filtered]
    exact .cons rfl (h.relocated.imp fun _ _ hpq => hpq.fields)
  · intro p q hp hq
    rw [h.headers] at hp
    rw [h.filtered] at hq
    cases hp
    cases hq
    exact h.note
  · intro i p q hi hp hq hmap'
    rw [(h.segment hi hp hq).1.filesz, if_pos ((hmapped p).mpr hmap')]
  · intro i p q hi hp hq hmap'
    exact h.kept hi hp hq fun hbacked => hmap' ((hmapped p).mp hbacked)
  · intro i p q hi hp hq halign
    exact (h.segment hi hp hq).1.aligned halign
  · rw [h.writtenRanges_eq]
    exact ranges_pairwise h.ascending
  · rw [h.writtenRanges_eq]
    exact ranges_le_end h.ascending

end FilteredRun

/-- The note of the source is the note of the file. -/
theorem WritesCore.sameBytes_note {cls : ElfClass} {src out : List Byte} {b : Beginning}
    {w : World} {note : Phdr} {rest original : List Phdr} (hb : ReadsBeginning cls src b w)
    (hsrc : programHeaders cls src = note :: original)
    (h : WritesCore cls src out b note rest original) : SameBytes src note out note := by
  have hlen : b.noteBuf.length = note.filesz :=
    hb.noteLength note (by rw [hb.headers, hsrc]; rfl)
  have hbytes : b.noteBuf = slice src note.offset note.filesz := by
    rw [hb.noteBuf, noteBytes, hsrc]
  have hplaced := h.noteBuf.slice_eq
  rw [hlen, hbytes] at hplaced
  exact ⟨rfl, hplaced, by rw [← hbytes, hlen]⟩

/-- Headers that were filtered within the range of the offset type can be stored. -/
theorem fits_of_relocated {cls : ElfClass} {mappings : List (Nat × Nat)} {src : List Byte}
    {note : Phdr} {original rest : List Phdr} (hsrc : programHeaders cls src = note :: original)
    (hrel : List.Forall₂ (Relocated cls mappings) original rest)
    (hrange : ∀ q ∈ note :: rest, q.offset + q.filesz < cls.range) :
    ∀ p ∈ note :: rest, p.Fits cls := by
  have hlength := hrel.length_eq
  intro q hq
  rcases List.mem_cons.mp hq with rfl | hmem
  · exact programHeaders_fits (hsrc ▸ List.mem_cons_self)
  · obtain ⟨i, hi, rfl⟩ := List.getElem_of_mem hmem
    have hp : original[i]? = some original[i] := List.getElem?_eq_getElem (by omega)
    refine (Relocated.of_getElem? hrel hp (List.getElem?_eq_getElem hi)).fits ?_
      (hrange _ (List.mem_cons_of_mem _ hmem))
    exact programHeaders_fits (hsrc ▸ List.mem_cons_of_mem _ (List.getElem_mem _))

theorem writeCoredumpToFD_filteredCopy {cls : ElfClass} {findNote : FindNote} {sys : Sys}
    {freeDiskSpace : Int} {src out : List Byte} {size : Nat}
    (hshape : DocumentedShape cls findNote src)
    (h : writeCoredumpToFD cls findNote sys freeDiskSpace src = some (size, out)) :
    FilteredCopy cls findNote src out size := by
  obtain ⟨b, w, w', mappings, hb, hmap, hwrite, rfl, rfl⟩ := writeCoredumpToFD_cases h
  rw [hb.noteBuf] at hmap
  rw [hb.headers] at hwrite ⊢
  have hrange := hshape.inRange mappings hmap
  rw [filterSegments_wrap hrange] at hwrite ⊢
  obtain ⟨note, original, hsrc⟩ : ∃ note original, programHeaders cls src = note :: original :=
    List.exists_cons_of_ne_nil (hb.headers ▸ hb.nonempty)
  have hfiltered : filterSegments cls id mappings (programHeaders cls src) =
      note :: filterFrom cls id mappings note original := by
    rw [hsrc]
    rfl
  have hasc := filterFrom_ascending cls mappings note original
  have hrel := filterFrom_relocated cls mappings note original
  have hlength : (filterFrom cls id mappings note original).length = original.length :=
    hrel.length_eq.symm
  rw [hfiltered] at hwrite hrange ⊢
  generalize filterFrom cls id mappings note original = rest at *
  have hstart : cls.ehdrSize + (note :: rest).length * cls.phdrSize ≤ note.offset := by
    have hnote := hshape.note note (by rw [hsrc]; rfl)
    rw [hsrc, List.length_cons, ← hlength] at hnote
    exact hnote
  have hcore := writeAll_spec hb (hb.headers.trans hsrc) hlength hstart hasc hwrite
  have hrun : FilteredRun cls mappings src w'.file note original rest :=
    { headers := hsrc
      filtered := hcore.programHeaders_eq hb hshape.phoff
        (by rw [hsrc, List.length_cons, List.length_cons, hlength])
        (fits_of_relocated hsrc hrel hrange)
      phoff := by rw [hcore.take_eq hb, hshape.phoff]
      relocated := hrel
      ascending := ⟨hstart, hasc⟩
      note := hcore.sameBytes_note hb hsrc
      segments := hcore.segments }
  have hsize : wrapOffset cls (coredumpEnd (note :: rest)) = coredumpEnd (note :: rest) := by
    obtain ⟨p, hp, hend⟩ := @coredumpEnd_mem note rest
    rw [hend]
    exact Nat.mod_eq_of_lt (hrange p hp)
  rw [hsize]
  exact hrun.filteredCopy hmap

/-! ## A small coredump -/

/-- The first note of a type: three words, the name and the description, each padded to a
multiple of four. -/
def walkNotes : Nat → FindNote
  | 0, _, _ => none
  | fuel + 1, type, buf =>
      if buf.length < 12 then
        none
      else
        let nameSize := (ofBytes (slice buf 0 4) + 3) / 4 * 4
        let descSize := ofBytes (slice buf 4 4)
        if ofBytes (slice buf 8 4) = type then
          some (slice buf (12 + nameSize) descSize)
        else
          walkNotes fuel type (buf.drop (12 + nameSize + (descSize + 3) / 4 * 4))

/-- A coredump with a note, a segment of the mapped file at 0x1000 and one of memory. -/
def smallCore : List Byte :=
  elfMag ++ [1, 1, 1] ++ List.replicate 9 0 ++
    encodeFields
      [(2, etCore), (2, 40), (4, evCurrent), (4, 0), (4, 52), (4, 0), (4, 0), (2, 52),
        (2, 32), (2, 3), (2, 0), (2, 0), (2, 0)] ++
    Phdr.encode .elf32 ⟨ptNote, 0, 148, 0, 0, 48, 0, 0⟩ ++
    Phdr.encode .elf32 ⟨ptLoad, 5, 196, 0x1000, 0, 4, 0x1000, 4⟩ ++
    Phdr.encode .elf32 ⟨ptLoad, 6, 200, 0x5000, 0, 3, 8, 4⟩ ++
    encodeFields
      [(4, 0), (4, 22), (4, ntFile), (4, 1), (4, 4096), (4, 0x1000), (4, 0x2000), (4, 0),
        (4, 0x61), (4, 0), (4, 0), (4, ntAuxv)] ++
    [1, 2, 3, 4, 5, 6, 7]

/-- The three bytes of the second segment move to the place of the first. -/
theorem smallCore_filteredCopy :
    ∃ out, writeCoredumpToFD .elf32 (walkNotes 4) (fun _ => some 2) 1000000 smallCore =
        some (199, out) ∧
      slice out 196 3 = [5, 6, 7] ∧
      FilteredCopy .elf32 (walkNotes 4) smallCore out 199 := by
  have hrun : ∃ out, writeCoredumpToFD .elf32 (walkNotes 4) (fun _ => some 2) 1000000
      smallCore = some (199, out) ∧ slice out 196 3 = [5, 6, 7] :=
    ⟨((writeCoredumpToFD .elf32 (walkNotes 4) (fun _ => some 2) 1000000 smallCore).getD
      (0, [])).2, by decide +kernel, by decide +kernel⟩
  obtain ⟨out, hout, hbytes⟩ := hrun
  have hheaders : programHeaders .elf32 smallCore =
      [⟨ptNote, 0, 148, 0, 0, 48, 0, 0⟩, ⟨ptLoad, 5, 196, 0x1000, 0, 4, 0x1000, 4⟩,
        ⟨ptLoad, 6, 200, 0x5000, 0, 3, 8, 4⟩] := by
    decide +kernel
  have hmappings : getFileMappings .elf32 (walkNotes 4) (noteBytes .elf32 smallCore) =
      some [(0x1000, 0x2000)] := by
    decide +kernel
  refine ⟨out, hout, hbytes, writeCoredumpToFD_filteredCopy ⟨?_, ?_, ?_⟩ hout⟩
  · decide +kernel
  · intro p hp
    rw [hheaders] at hp ⊢
    cases hp
    decide
  · intro mappings hmap
    rw [hmappings] at hmap
    cases hmap
    rw [hheaders]
    decide

end DragonDevice.Crash
