/-
  Crash/Elf.lean --- the parts of an ELF core file that the coredump writer reads: the ELF
  header, the program headers, and the NT_FILE note.

  The collector is built once for each word size, so everything takes the class of the
  file.  Numbers of the file are naturals below the range of their field.
-/
import DragonDevice.Lib.LittleEndian
import DragonDevice.Lib.Memory

set_option autoImplicit false

namespace DragonDevice.Crash

open DragonDevice.Lib

/-- `ELFCLASS32` or `ELFCLASS64`, by the build of the collector. -/
inductive ElfClass where
  | elf32
  | elf64
  deriving DecidableEq, Repr

namespace ElfClass

/-- `sizeof(long)`, and the size of an address, an offset and a segment's size. -/
def wordSize : ElfClass → Nat
  | elf32 => 4
  | elf64 => 8

/-- One more than the largest value of an offset. -/
def range (cls : ElfClass) : Nat := 256 ^ cls.wordSize

/-- `ElfCoreDump::kClass`. -/
def ident : ElfClass → Nat
  | elf32 => 1
  | elf64 => 2

/-- `sizeof(Ehdr)`. -/
def ehdrSize : ElfClass → Nat
  | elf32 => 52
  | elf64 => 64

/-- `sizeof(Phdr)`. -/
def phdrSize : ElfClass → Nat
  | elf32 => 32
  | elf64 => 56

end ElfClass

/-! ## The ELF header -/

/-- The bytes of an ELF header.  It is copied as it is; only some of its fields are
read. -/
abbrev Ehdr : Type := List Byte

namespace Ehdr

def field (hdr : Ehdr) (off width : Nat) : Nat := ofBytes (slice hdr off width)

/-- `e_ident[EI_CLASS]`. -/
def eiClass (hdr : Ehdr) : Nat := field hdr 4 1

def eType (hdr : Ehdr) : Nat := field hdr 16 2

def eVersion (hdr : Ehdr) : Nat := field hdr 20 4

def ePhoff : ElfClass → Ehdr → Nat
  | .elf32, hdr => field hdr 28 4
  | .elf64, hdr => field hdr 32 8

def eEhsize : ElfClass → Ehdr → Nat
  | .elf32, hdr => field hdr 40 2
  | .elf64, hdr => field hdr 52 2

def ePhentsize : ElfClass → Ehdr → Nat
  | .elf32, hdr => field hdr 42 2
  | .elf64, hdr => field hdr 54 2

def ePhnum : ElfClass → Ehdr → Nat
  | .elf32, hdr => field hdr 44 2
  | .elf64, hdr => field hdr 56 2

end Ehdr

/-- `ELFMAG`. -/
def elfMag : List Byte := [0x7f, 0x45, 0x4c, 0x46]

/-- `EV_CURRENT`. -/
def evCurrent : Nat := 1

/-- `ET_CORE`. -/
def etCore : Nat := 4

/-! ## Program headers -/

/-- `PT_LOAD`. -/
def ptLoad : Nat := 1

/-- `PT_NOTE`. -/
def ptNote : Nat := 4

structure Phdr where
  type : Nat
  flags : Nat
  offset : Nat
  vaddr : Nat
  paddr : Nat
  filesz : Nat
  memsz : Nat
  align : Nat
  deriving DecidableEq, Repr, Inhabited

namespace Phdr

/-- The fields in the order of the file, with their widths.  The two classes differ in
the place of the flags. -/
def layout : ElfClass → Phdr → List (Nat × Nat)
  | .elf32, p =>
      [(4, p.type), (4, p.offset), (4, p.vaddr), (4, p.paddr), (4, p.filesz), (4, p.memsz),
        (4, p.flags), (4, p.align)]
  | .elf64, p =>
      [(4, p.type), (4, p.flags), (8, p.offset), (8, p.vaddr), (8, p.paddr), (8, p.filesz),
        (8, p.memsz), (8, p.align)]

/-- The widths of the fields. -/
def widths : ElfClass → List Nat
  | .elf32 => [4, 4, 4, 4, 4, 4, 4, 4]
  | .elf64 => [4, 4, 8, 8, 8, 8, 8, 8]

def encode (cls : ElfClass) (p : Phdr) : List Byte := encodeFields (p.layout cls)

/-- The program header with the values of the fields in the order of the file. -/
def ofValues : ElfClass → List Nat → Phdr
  | .elf32, [type, offset, vaddr, paddr, filesz, memsz, flags, align] =>
      { type, flags, offset, vaddr, paddr, filesz, memsz, align }
  | .elf64, [type, flags, offset, vaddr, paddr, filesz, memsz, align] =>
      { type, flags, offset, vaddr, paddr, filesz, memsz, align }
  | _, _ => default

def decode (cls : ElfClass) (bytes : List Byte) : Phdr :=
  ofValues cls (decodeFields (widths cls) bytes)

/-- Every value is in the range of its field. -/
def Fits (cls : ElfClass) (p : Phdr) : Prop := FieldsFit (p.layout cls)

theorem length_encode (cls : ElfClass) (p : Phdr) :
    (p.encode cls).length = cls.phdrSize := by
  cases cls <;> simp [encode, layout, encodeFields, ElfClass.phdrSize]

theorem decode_encode {cls : ElfClass} {p : Phdr} (h : p.Fits cls) :
    decode cls (p.encode cls) = p := by
  have hwidths : widths cls = (p.layout cls).map Prod.fst := by
    cases cls <;> rfl
  unfold decode encode
  rw [hwidths, decodeFields_encodeFields h]
  cases cls <;> rfl

theorem decode_fits (cls : ElfClass) (bytes : List Byte) : (decode cls bytes).Fits cls := by
  have hlt := decodeFields_lt (widths cls) bytes
  cases cls <;> exact hlt

/-- The header stays in range when its offset and size do. -/
theorem Fits.relocate {cls : ElfClass} {p : Phdr} (h : p.Fits cls) {offset filesz : Nat}
    (hoffset : offset < cls.range) (hfilesz : filesz < cls.range) :
    ({ p with offset := offset, filesz := filesz } : Phdr).Fits cls := by
  cases cls
  · simp only [Fits, FieldsFit, layout, List.forall_mem_cons] at h ⊢
    exact ⟨h.1, hoffset, h.2.2.1, h.2.2.2.1, hfilesz, h.2.2.2.2.2⟩
  · simp only [Fits, FieldsFit, layout, List.forall_mem_cons] at h ⊢
    exact ⟨h.1, h.2.1, hoffset, h.2.2.2.1, h.2.2.2.2.1, hfilesz, h.2.2.2.2.2.2⟩

end Phdr

/-- The program headers of a file, from its own `e_phoff` and `e_phnum` on. -/
def programHeaders (cls : ElfClass) (file : List Byte) : List Phdr :=
  (List.range (Ehdr.ePhnum cls (file.take cls.ehdrSize))).map fun i =>
    Phdr.decode cls
      (slice file (Ehdr.ePhoff cls (file.take cls.ehdrSize) + i * cls.phdrSize) cls.phdrSize)

/-! ## The NT_FILE note -/

/-- A `long` of a note's description, as its bit pattern.  `MemoryRange::GetData`, which is
breakpad's, gives a pointer if the value lies in the range as a whole, and null if not. -/
def wordAt (cls : ElfClass) (desc : List Byte) (index : Nat) : Option Nat :=
  if (index + 1) * cls.wordSize ≤ desc.length then
    some (ofBytes (slice desc (index * cls.wordSize) cls.wordSize))
  else
    none

/-- A positive `long`, or zero. -/
def countOf (cls : ElfClass) (word : Nat) : Nat :=
  if 2 * word < cls.range then word else 0

/-- The description lists a file mapped at the address range: the number of files and the
page size come first, then three words for each file. -/
def ListsRange (cls : ElfClass) (desc : List Byte) (range : Nat × Nat) : Prop :=
  ∃ count i, wordAt cls desc 0 = some count ∧ i < countOf cls count ∧
    wordAt cls desc (2 + 3 * i) = some range.1 ∧
    wordAt cls desc (2 + 3 * i + 1) = some range.2

end DragonDevice.Crash
