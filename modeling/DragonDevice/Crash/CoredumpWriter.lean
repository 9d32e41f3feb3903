/-
  Crash/CoredumpWriter.lean --- `WriteCoredumpToFD` of `coredump_writer.cc`.

  The source is a pipe: what was read is gone.  The outcome of every system call is given
  by a function of its number, `none` for a failure and otherwise, for a read, how much it
  would like to bring.  The search for a note in a note segment is not part of the
  collector and is a parameter.  Of the two files for the minidump only the outcome
  matters here.
-/
import DragonDevice.Crash.Elf
import DragonDevice.Lib.SparseFile
import DragonDevice.Lib.TransferLoop

set_option autoImplicit false

namespace DragonDevice.Crash

open DragonDevice.Lib

/-- Outcomes of the system calls, by their number. -/
abbrev Sys : Type := Nat → Option Nat

/-- The description of the first note of a type in a note segment. -/
abbrev FindNote : Type := Nat → List Byte → Option (List Byte)

/-- `NT_FILE`. -/
def ntFile : Nat := 0x46494c45

/-- `NT_AUXV`. -/
def ntAuxv : Nat := 6

def kMaxCoredumpSize : Nat := 256 * 1024 * 1024

/-- The buffer of `CopyTo`. -/
def kBufSize : Nat := 32768

/-- The pipe with what it still has to give, `bytes_read_`, the file that is written with
its position, and the number of system calls so far. -/
structure World where
  src : List Byte
  bytesRead : Nat
  file : List Byte
  pos : Nat
  calls : Nat
  deriving DecidableEq, Repr

namespace World

/-! ## System calls -/

/-- A call that only succeeds or fails. -/
def tick (sys : Sys) (w : World) : Option World :=
  if (sys w.calls).isSome then some { w with calls := w.calls + 1 } else none

/-- `WriteFully` on the destination. -/
def writeFully (sys : Sys) (data : List Byte) (w : World) : Option World :=
  if (sys w.calls).isSome then
    some
      { w with
        file := writeAt 0 w.file w.pos data
        pos := w.pos + data.length
        calls := w.calls + 1 }
  else
    none

/-- `Seek` on the destination. -/
def seekDest (sys : Sys) (offset : Nat) (w : World) : Option World :=
  if (sys w.calls).isSome then some { w with pos := offset, calls := w.calls + 1 } else none

/-! ## FdReader -/

/-- `FdReader::Read`. -/
def read (sys : Sys) (numBytes : Nat) (w : World) : Option (List Byte × World) :=
  if (sys w.calls).isSome ∧ numBytes ≤ w.src.length then
    some
      (w.src.take numBytes,
        { w with
          src := w.src.drop numBytes
          bytesRead := w.bytesRead + numBytes
          calls := w.calls + 1 })
  else
    none

/-- One turn of `CopyTo`, with `numBytes` left.  A read at the end of the source brings
nothing, which ends the loop with some bytes left. -/
def copyTurn (sys : Sys) (toDest : Bool) (_ _ numBytes : Nat) (w : World) : Turn World :=
  match sys w.calls with
  | none => .failed (-1) w
  | some k =>
      let rv := min (max k 1) (min (min kBufSize numBytes) w.src.length)
      if rv = 0 then
        .failed (-1) w
      else
        let w' : World :=
          { w with
            src := w.src.drop rv
            bytesRead := w.bytesRead + rv
            calls := w.calls + 1 }
        if toDest then
          match w'.writeFully sys (w.src.take rv) with
          | none => .failed (-1) w'
          | some w'' => .moved rv w''
        else
          .moved rv w'

/-- `FdReader::CopyTo`, to the destination or to nowhere. -/
def copyTo (sys : Sys) (toDest : Bool) (numBytes : Nat) (w : World) : Option World :=
  match transfer (copyTurn sys toDest) (numBytes + 1) 0 0 numBytes w with
  | .returned res w' => if res = 0 then some w' else none
  | .fault => none
  | .running => none

/-- `FdReader::Seek`. -/
def seek (sys : Sys) (offset : Nat) (w : World) : Option World :=
  if offset < w.bytesRead then none
  else copyTo sys false (offset - w.bytesRead) w

end World

/-! ## Reading -/

/-- What `ReadUntilNote` reads. -/
structure Beginning where
  elfHeader : Ehdr
  programHeaders : List Phdr
  noteBuf : List Byte
  deriving DecidableEq, Repr

/-- The checks of the ELF header. -/
def Ehdr.Accepted (cls : ElfClass) (hdr : Ehdr) : Prop :=
  hdr.take 4 = elfMag ∧ hdr.eiClass = cls.ident ∧ hdr.eVersion = evCurrent ∧
    hdr.eType = etCore ∧ Ehdr.eEhsize cls hdr = cls.ehdrSize ∧
    Ehdr.ePhentsize cls hdr = cls.phdrSize

instance (cls : ElfClass) (hdr : Ehdr) : Decidable (hdr.Accepted cls) :=
  inferInstanceAs (Decidable (_ ∧ _))

/-- The array of program headers in a buffer. -/
def decodeHeaders (cls : ElfClass) (count : Nat) (bytes : List Byte) : List Phdr :=
  (List.range count).map fun i =>
    Phdr.decode cls (slice bytes (i * cls.phdrSize) cls.phdrSize)

/-- `ReadUntilNote`. -/
def readUntilNote (cls : ElfClass) (sys : Sys) (w : World) : Option (Beginning × World) := do
  let (hdr, w) ← w.read sys cls.ehdrSize
  if ¬ Ehdr.Accepted cls hdr then
    none
  else
    let w ← w.seek sys (Ehdr.ePhoff cls hdr)
    let (bytes, w) ← w.read sys (cls.phdrSize * Ehdr.ePhnum cls hdr)
    match decodeHeaders cls (Ehdr.ePhnum cls hdr) bytes with
    | [] => none
    | note :: rest =>
        if note.type ≠ ptNote then
          none
        else
          let w ← w.seek sys note.offset
          let (buf, w) ← w.read sys note.filesz
          some (⟨hdr, note :: rest, buf⟩, w)

/-- `GetValueFromNote<long>`, `none` for `kInvalidValue`. -/
def validWordAt (cls : ElfClass) (desc : List Byte) (index : Nat) : Option Nat :=
  match wordAt cls desc index with
  | none => none
  | some word => if word + 1 = cls.range then none else some word

/-- The loop over the mapped files, with the number of them that are left. -/
def fileRanges (cls : ElfClass) (desc : List Byte) : Nat → Nat → Option (List (Nat × Nat))
  | 0, _ => some []
  | left + 1, i => do
      let start ← validWordAt cls desc (2 + 3 * i)
      let stop ← validWordAt cls desc (2 + 3 * i + 1)
      let _offset ← validWordAt cls desc (2 + 3 * i + 2)
      let ranges ← fileRanges cls desc left (i + 1)
      some ((start, stop) :: ranges)

/-- `GetFileMappings`, the address ranges. -/
def getFileMappings (cls : ElfClass) (findNote : FindNote) (noteBuf : List Byte) :
    Option (List (Nat × Nat)) := do
  let desc ← findNote ntFile noteBuf
  let fileCount ← validWordAt cls desc 0
  let _pageSize ← validWordAt cls desc 1
  fileRanges cls desc (countOf cls fileCount) 0

/-! ## The new layout -/

/-- `FileRange(p_vaddr, p_vaddr + p_memsz)`. -/
def Phdr.addressRange (cls : ElfClass) (p : Phdr) : Nat × Nat :=
  (p.vaddr, (p.vaddr + p.memsz) % cls.range)

/-- The segment is backed by a mapped file. -/
def Phdr.Backed (cls : ElfClass) (mappings : List (Nat × Nat)) (p : Phdr) : Prop :=
  p.type = ptLoad ∧ p.addressRange cls ∈ mappings

instance (cls : ElfClass) (mappings : List (Nat × Nat)) (p : Phdr) :
    Decidable (p.Backed cls mappings) :=
  inferInstanceAs (Decidable (_ ∧ _))

/-- Rounding up to the alignment, where `wrap` is the arithmetic of the offset type. -/
def alignOffset (wrap : Nat → Nat) (align offset : Nat) : Nat :=
  if align ≠ 0 ∧ offset % align ≠ 0 then
    wrap (offset + (align - offset % align))
  else
    offset

/-- One turn of `FilterSegments`. -/
def filterSegment (cls : ElfClass) (wrap : Nat → Nat) (mappings : List (Nat × Nat))
    (prev p : Phdr) : Phdr :=
  { p with
    filesz := if p.Backed cls mappings then 0 else p.filesz
    offset := alignOffset wrap p.align (wrap (prev.offset + prev.filesz)) }

def filterFrom (cls : ElfClass) (wrap : Nat → Nat) (mappings : List (Nat × Nat)) :
    Phdr → List Phdr → List Phdr
  | _, [] => []
  | prev, p :: rest =>
      filterSegment cls wrap mappings prev p ::
        filterFrom cls wrap mappings (filterSegment cls wrap mappings prev p) rest

/-- `FilterSegments`. -/
def filterSegments (cls : ElfClass) (wrap : Nat → Nat) (mappings : List (Nat × Nat)) :
    List Phdr → List Phdr
  | [] => []
  | note :: rest => note :: filterFrom cls wrap mappings note rest

/-- The arithmetic of `p_offset`. -/
def wrapOffset (cls : ElfClass) (n : Nat) : Nat := n % cls.range

/-- The end of the last segment. -/
def coredumpEnd : List Phdr → Nat
  | [] => 0
  | [p] => p.offset + p.filesz
  | _ :: p :: rest => coredumpEnd (p :: rest)

/-! ## Writing -/

/-- The loop that writes the program headers, from the `i`-th on. -/
def writeHeaders (cls : ElfClass) (sys : Sys) (phentsize : Nat) :
    Nat → List Phdr → World → Option World
  | _, [], w => some w
  | i, p :: rest, w => do
      let w ← w.seekDest sys (cls.ehdrSize + i * phentsize)
      let w ← w.writeFully sys (p.encode cls)
      writeHeaders cls sys phentsize (i + 1) rest w

/-- The loop that copies the segments behind the note, over the new headers with the
original ones beside them. -/
def writeSegments (sys : Sys) : List (Phdr × Phdr) → World → Option World
  | [], w => some w
  | (p, original) :: rest, w =>
      if p.filesz > 0 then do
        let w ← w.seek sys original.offset
        let w ← w.seekDest sys p.offset
        let w ← w.copyTo sys true p.filesz
        writeSegments sys rest w
      else
        writeSegments sys rest w

/-- The part of `WriteCoredumpToFD` that writes the coredump. -/
def writeAll (cls : ElfClass) (sys : Sys) (b : Beginning) (filtered : List Phdr) (w : World) :
    Option World := do
  let w ← w.writeFully sys b.elfHeader
  let w ← writeHeaders cls sys (Ehdr.ePhentsize cls b.elfHeader) 0 filtered w
  match filtered with
  | [] => none
  | note :: rest =>
      let w ← w.seekDest sys note.offset
      let w ← w.writeFully sys b.noteBuf
      writeSegments sys (rest.zip b.programHeaders.tail) w

/-- `coredump_size_limit_`. -/
def coredumpSizeLimit (cls : ElfClass) (freeDiskSpace : Int) : Nat :=
  min ((freeDiskSpace / 20).toNat % cls.range) kMaxCoredumpSize

/-- `WriteCoredumpToFD` on an empty file: the result and the file, `none` for -1. -/
def writeCoredumpToFD (cls : ElfClass) (findNote : FindNote) (sys : Sys)
    (freeDiskSpace : Int) (src : List Byte) : Option (Nat × List Byte) := do
  let (b, w) ← readUntilNote cls sys ⟨src, 0, [], 0, 0⟩
  let mappings ← getFileMappings cls findNote b.noteBuf
  let filtered := filterSegments cls (wrapOffset cls) mappings b.programHeaders
  if freeDiskSpace < 0 then
    none
  else
    let expected := wrapOffset cls (coredumpEnd filtered)
    if expected > coredumpSizeLimit cls freeDiskSpace then
      none
    else
      let _auxv ← findNote ntAuxv b.noteBuf
      let w ← w.tick sys
      let w ← w.tick sys
      let w ← writeAll cls sys b filtered w
      some (expected, w.file)

end DragonDevice.Crash
