/-
  Crash/CoredumpCopy.lean --- a coredump that was written is a copy of the source without
  the segments that are backed by mapped files.

  The file is written from front to back, so it keeps every piece.  The pipe is read from
  front to back too: a segment that lies behind what was read is refused, and what is
  copied for a segment is what the source holds at its original offset.
-/
import DragonDevice.Crash.CoredumpLayout

set_option autoImplicit false

namespace DragonDevice.Crash

open DragonDevice.Lib

/-! ## System calls and the reader -/

/-- The pipe gives what the source holds from `bytes_read_` on. -/
def World.From (src : List Byte) (w : World) : Prop := w.src = src.drop w.bytesRead

theorem writeFully_spec {sys : Sys} {data : List Byte} {w w' : World}
    (h : w.writeFully sys data = some w') :
    Wrote w.file w'.file w.pos data ∧ w'.pos = w.pos + data.length ∧ w'.src = w.src ∧
      w'.bytesRead = w.bytesRead := by
  unfold World.writeFully at h
  split at h
  · cases h
    exact ⟨writeAt_wrote 0 w.file w.pos data, rfl, rfl, rfl⟩
  · cases h

theorem seekDest_spec {sys : Sys} {offset : Nat} {w w' : World}
    (h : w.seekDest sys offset = some w') :
    w'.pos = offset ∧ w'.file = w.file ∧ w'.src = w.src ∧ w'.bytesRead = w.bytesRead := by
  unfold World.seekDest at h
  split at h
  · cases h
    exact ⟨rfl, rfl, rfl, rfl⟩
  · cases h

theorem tick_spec {sys : Sys} {w w' : World} (h : w.tick sys = some w') :
    w'.pos = w.pos ∧ w'.file = w.file ∧ w'.src = w.src ∧ w'.bytesRead = w.bytesRead := by
  unfold World.tick at h
  split at h
  · cases h
    exact ⟨rfl, rfl, rfl, rfl⟩
  · cases h

theorem read_spec {sys : Sys} {n : Nat} {src data : List Byte} {w w' : World}
    (hw : w.From src) (h : w.read sys n = some (data, w')) :
    data = slice src w.bytesRead n ∧ data.length = n ∧ w'.From src ∧
      w'.bytesRead = w.bytesRead + n ∧ w'.file = w.file ∧ w'.pos = w.pos := by
  unfold World.read at h
  split at h
  · rename_i hok
    cases h
    refine ⟨?_, ?_, ?_, rfl, rfl, rfl⟩
    · rw [hw]
      rfl
    · rw [List.length_take]
      omega
    · unfold World.From
      dsimp only
      rw [hw, List.drop_drop]
  · cases h

/-- What `CopyTo` leaves after `n` bytes. -/
structure Copied (toDest : Bool) (w : World) (n : Nat) (w' : World) : Prop where
  enough : n ≤ w.src.length
  src : w'.src = w.src.drop n
  bytesRead : w'.bytesRead = w.bytesRead + n
  dest : toDest = true → Wrote w.file w'.file w.pos (w.src.take n) ∧ w'.pos = w.pos + n
  nowhere : toDest = false → w'.file = w.file ∧ w'.pos = w.pos

theorem Copied.zero (toDest : Bool) (w : World) : Copied toDest w 0 w :=
  ⟨Nat.zero_le _, rfl, rfl, fun _ => ⟨Wrote.refl _ _, rfl⟩, fun _ => ⟨rfl, rfl⟩⟩

theorem copyTurn_keeps (sys : Sys) (toDest : Bool) (w : World) (total : Nat) :
    TurnKeeps (World.copyTurn sys toDest) (Copied toDest w) (fun res => res ≠ 0) total := by
  intro call done count s hcount _ hI
  unfold World.copyTurn
  cases hsys : sys s.calls with
  | none => exact .inr ⟨-1, s, rfl, by decide⟩
  | some k =>
      dsimp only
      generalize hrv : min (max k 1) (min (min kBufSize count) s.src.length) = rv
      by_cases hzero : rv = 0
      · rw [if_pos hzero]
        exact .inr ⟨-1, s, rfl, by decide⟩
      · rw [if_neg hzero]
        have hle : rv ≤ count ∧ rv ≤ s.src.length := by omega
        have hlen : s.src.length = w.src.length - done := by
          rw [hI.src, List.length_drop]
        have hdrop : s.src.drop rv = w.src.drop (done + rv) := by
          rw [hI.src, List.drop_drop]
        have htake : w.src.take done ++ s.src.take rv = w.src.take (done + rv) := by
          rw [hI.src, List.take_add]
        have henough := hI.enough
        cases toDest with
        | false =>
            refine .inl ⟨rv, _, rfl, Nat.pos_of_ne_zero hzero, hle.1, ?_⟩
            refine ⟨by omega, hdrop, ?_, nofun, fun _ => hI.nowhere rfl⟩
            dsimp only
            rw [hI.bytesRead, Nat.add_assoc]
        | true =>
            rw [if_pos rfl]
            cases hwrite : World.writeFully sys (s.src.take rv)
                ⟨s.src.drop rv, s.bytesRead + rv, s.file, s.pos, s.calls + 1⟩ with
            | none => exact .inr ⟨-1, _, rfl, by decide⟩
            | some s' =>
                obtain ⟨hwrote, hpos, hsrc, hread⟩ := writeFully_spec hwrite
                obtain ⟨hbefore, hposBefore⟩ := hI.dest rfl
                have hdone : (w.src.take done).length = done := by
                  rw [List.length_take]
                  omega
                refine .inl ⟨rv, s', rfl, Nat.pos_of_ne_zero hzero, hle.1, ?_⟩
                refine ⟨by omega, hsrc.trans hdrop, ?_, fun _ => ⟨?_, ?_⟩, nofun⟩
                · rw [hread]
                  dsimp only
                  rw [hI.bytesRead, Nat.add_assoc]
                · rw [← htake]
                  refine hbefore.append ?_
                  rw [hdone, ← hposBefore]
                  exact hwrote
                · rw [hpos, List.length_take]
                  dsimp only
                  omega

/-- `CopyTo` returns, and when it succeeds everything was copied. -/
theorem copyTo_spec {sys : Sys} {toDest : Bool} {n : Nat} {w w' : World}
    (h : w.copyTo sys toDest n = some w') : Copied toDest w n w' := by
  obtain ⟨res, s, hrun, hend⟩ :=
    transfer_spec (copyTurn_keeps sys toDest w n) (Copied.zero toDest w)
  unfold World.copyTo at h
  rw [hrun] at h
  dsimp only at h
  split at h
  · rename_i hres
    cases h
    rcases hend with ⟨-, hI⟩ | hfail
    · exact hI
    · exact absurd hres hfail
  · cases h

theorem seek_spec {sys : Sys} {offset : Nat} {src : List Byte} {w w' : World}
    (hw : w.From src) (h : w.seek sys offset = some w') :
    w'.From src ∧ w'.bytesRead = offset ∧ w'.file = w.file ∧ w'.pos = w.pos := by
  unfold World.seek at h
  split at h
  · cases h
  · have hcopied := copyTo_spec h
    have hread := hcopied.bytesRead
    refine ⟨?_, by omega, hcopied.nowhere rfl⟩
    unfold World.From
    rw [hcopied.src, hw, List.drop_drop, hread]

/-! ## What was read -/

/-- The bytes of the note segment of a file. -/
def noteBytes (cls : ElfClass) (file : List Byte) : List Byte :=
  match programHeaders cls file with
  | [] => []
  | note :: _ => slice file note.offset note.filesz

/-- What `ReadUntilNote` has when it succeeds on a file whose program headers follow its
ELF header. -/
structure ReadsBeginning (cls : ElfClass) (src : List Byte) (b : Beginning) (w : World) :
    Prop where
  elfHeader : b.elfHeader = src.take cls.ehdrSize
  headerLength : b.elfHeader.length = cls.ehdrSize
  phentsize : Ehdr.ePhentsize cls b.elfHeader = cls.phdrSize
  headers : b.programHeaders = programHeaders cls src
  noteBuf : b.noteBuf = noteBytes cls src
  noteLength : ∀ note ∈ b.programHeaders.head?, b.noteBuf.length = note.filesz
  nonempty : b.programHeaders ≠ []
  source : w.From src
  file : w.file = []
  pos : w.pos = 0

theorem decodeHeaders_slice (cls : ElfClass) (src : List Byte) (off count : Nat) :
    decodeHeaders cls count (slice src off (cls.phdrSize * count)) =
      (List.range count).map fun i =>
        Phdr.decode cls (slice src (off + i * cls.phdrSize) cls.phdrSize) := by
  unfold decodeHeaders
  apply List.map_congr_left
  intro i hi
  have hlt : i < count := List.mem_range.mp hi
  have hroom : i * cls.phdrSize + cls.phdrSize ≤ cls.phdrSize * count := by
    calc i * cls.phdrSize + cls.phdrSize = cls.phdrSize * (i + 1) := by
          rw [Nat.mul_add, Nat.mul_one, Nat.mul_comm]
      _ ≤ cls.phdrSize * count := Nat.mul_le_mul_left _ hlt
  rw [slice_slice hroom]

theorem readUntilNote_spec {cls : ElfClass} {sys : Sys} {src : List Byte} {b : Beginning}
    {w : World} (h : readUntilNote cls sys ⟨src, 0, [], 0, 0⟩ = some (b, w)) :
    ReadsBeginning cls src b w := by
  have hstart : World.From src ⟨src, 0, [], 0, 0⟩ := List.drop_zero.symm
  unfold readUntilNote at h
  simp only [Option.bind_eq_bind, Option.bind_eq_some_iff, Prod.exists] at h
  obtain ⟨hdr, w₁, hread, h⟩ := h
  obtain ⟨hhdr, hlen, hfrom₁, -, hfile₁, hpos₁⟩ := read_spec hstart hread
  have hhdr : hdr = src.take cls.ehdrSize := hhdr
  split at h
  · cases h
  · rename_i hacc
    have hacc : Ehdr.Accepted cls hdr := Decidable.not_not.mp hacc
    simp only [Option.bind_eq_some_iff, Prod.exists] at h
    obtain ⟨w₂, hseek₂, bytes, w₃, hread₃, h⟩ := h
    obtain ⟨hfrom₂, hat₂, hfile₂, hpos₂⟩ := seek_spec hfrom₁ hseek₂
    obtain ⟨hbytes, -, hfrom₃, -, hfile₃, hpos₃⟩ := read_spec hfrom₂ hread₃
    have hheaders : decodeHeaders cls (Ehdr.ePhnum cls hdr) bytes = programHeaders cls src := by
      rw [hbytes, hat₂, decodeHeaders_slice, hhdr]
      rfl
    rw [hheaders] at h
    cases hlist : programHeaders cls src with
    | nil =>
        rw [hlist] at h
        cases h
    | cons note rest =>
        rw [hlist] at h
        dsimp only at h
        split at h
        · cases h
        · simp only [Option.bind_eq_some_iff, Prod.exists, Option.some.injEq,
            Prod.mk.injEq] at h
          obtain ⟨w₄, hseek₄, buf, w₅, hread₅, rfl, rfl⟩ := h
          obtain ⟨hfrom₄, hat₄, hfile₄, hpos₄⟩ := seek_spec hfrom₃ hseek₄
          obtain ⟨hbuf, hbuflen, hfrom₅, -, hfile₅, hpos₅⟩ := read_spec hfrom₄ hread₅
          refine ⟨hhdr, hlen, hacc.2.2.2.2.2, hlist.symm, ?_, ?_, nofun, hfrom₅, ?_, ?_⟩
          · dsimp only
            rw [hbuf, hat₄, noteBytes, hlist]
          · intro p hp
            cases hp
            exact hbuflen
          · rw [hfile₅, hfile₄, hfile₃, hfile₂, hfile₁]
          · rw [hpos₅, hpos₄, hpos₃, hpos₂, hpos₁]

/-! ## What was written -/

/-- The program headers as pieces of the file, from the `i`-th on. -/
def headerPieces (cls : ElfClass) : Nat → List Phdr → List (Nat × List Byte)
  | _, [] => []
  | i, p :: rest =>
      (cls.ehdrSize + i * cls.phdrSize, p.encode cls) :: headerPieces cls (i + 1) rest

/-- The segments as pieces of the file: the bytes of the source at the original offset. -/
def segmentPieces (src : List Byte) : List (Phdr × Phdr) → List (Nat × List Byte)
  | [] => []
  | (p, original) :: rest =>
      (p.offset, slice src original.offset p.filesz) :: segmentPieces src rest

theorem writeHeaders_spec {cls : ElfClass} {sys : Sys} {i frontier : Nat} {l : List Phdr}
    {w w' : World} {pieces : List (Nat × List Byte)}
    (h : writeHeaders cls sys cls.phdrSize i l w = some w')
    (hlaid : Laid w.file frontier pieces)
    (hfrontier : frontier ≤ cls.ehdrSize + i * cls.phdrSize) :
    Laid w'.file (cls.ehdrSize + (i + l.length) * cls.phdrSize)
        (pieces ++ headerPieces cls i l) ∧
      w'.src = w.src ∧ w'.bytesRead = w.bytesRead := by
  induction l generalizing i frontier w pieces with
  | nil =>
      cases h
      refine ⟨?_, rfl, rfl⟩
      intro piece hmem
      rw [headerPieces, List.append_nil] at hmem
      obtain ⟨hplaced, hend⟩ := hlaid piece hmem
      exact ⟨hplaced, Nat.le_trans hend hfrontier⟩
  | cons p rest ih =>
      unfold writeHeaders at h
      simp only [Option.bind_eq_bind, Option.bind_eq_some_iff] at h
      obtain ⟨w₁, hseek, w₂, hwrite, h⟩ := h
      obtain ⟨hpos₁, hfile₁, hsrc₁, hread₁⟩ := seekDest_spec hseek
      obtain ⟨hwrote, -, hsrc₂, hread₂⟩ := writeFully_spec hwrite
      rw [hfile₁, hpos₁] at hwrote
      have hnext := hlaid.wrote hwrote hfrontier
      rw [Phdr.length_encode] at hnext
      have hstep : cls.ehdrSize + i * cls.phdrSize + cls.phdrSize =
          cls.ehdrSize + (i + 1) * cls.phdrSize := by
        rw [Nat.succ_mul, Nat.add_assoc]
      obtain ⟨hrest, hsrc, hread⟩ := ih h hnext (Nat.le_of_eq hstep)
      refine ⟨?_, by rw [hsrc, hsrc₂, hsrc₁], by rw [hread, hread₂, hread₁]⟩
      rw [List.length_cons, headerPieces]
      rw [List.append_assoc] at hrest
      rw [show i + (rest.length + 1) = i + 1 + rest.length by omega]
      exact hrest

/-- The end of the last of the segments that follow each other. -/
def endFrom : Nat → List (Phdr × Phdr) → Nat
  | frontier, [] => frontier
  | _, (p, _) :: rest => endFrom (p.offset + p.filesz) rest

theorem writeSegments_spec {sys : Sys} {src : List Byte} {frontier : Nat}
    {l : List (Phdr × Phdr)} {w w' : World} {pieces : List (Nat × List Byte)}
    (h : writeSegments sys l w = some w') (hfrom : w.From src)
    (hlaid : Laid w.file frontier pieces) (hasc : Ascending frontier (l.map Prod.fst)) :
    Laid w'.file (endFrom frontier l) (pieces ++ segmentPieces src l) ∧
      ∀ pair ∈ l, (slice src pair.2.offset pair.1.filesz).length = pair.1.filesz := by
  induction l generalizing frontier w pieces with
  | nil =>
      cases h
      rw [segmentPieces, List.append_nil]
      exact ⟨hlaid, fun pair hmem => absurd hmem List.not_mem_nil⟩
  | cons pair rest ih =>
      obtain ⟨p, original⟩ := pair
      obtain ⟨hfirst, hasc⟩ := hasc
      unfold writeSegments at h
      split at h
      · -- a segment that stays: the source is at its original offset, the file at the new
        simp only [Option.bind_eq_bind, Option.bind_eq_some_iff] at h
        obtain ⟨w₁, hseek, w₂, hdest, w₃, hcopy, h⟩ := h
        obtain ⟨hfrom₁, hat₁, hfile₁, -⟩ := seek_spec hfrom hseek
        obtain ⟨hpos₂, hfile₂, hsrc₂, hread₂⟩ := seekDest_spec hdest
        have hcopied := copyTo_spec hcopy
        have hsrc₂ : w₂.src = src.drop original.offset := by
          rw [hsrc₂, hfrom₁, hat₁]
        have hdata : w₂.src.take p.filesz = slice src original.offset p.filesz := by
          rw [hsrc₂]
          rfl
        have hlen : (slice src original.offset p.filesz).length = p.filesz := by
          rw [← hdata, List.length_take]
          have := hcopied.enough
          omega
        have hwrote := (hcopied.dest rfl).1
        rw [hdata, hpos₂, hfile₂, hfile₁] at hwrote
        have hnext := hlaid.wrote hwrote hfirst
        rw [hlen] at hnext
        have hfrom₃ : w₃.From src := by
          unfold World.From
          rw [hcopied.src, hsrc₂, List.drop_drop, hcopied.bytesRead, hread₂, hat₁]
        obtain ⟨hrest, hlens⟩ := ih h hfrom₃ hnext hasc
        refine ⟨?_, ?_⟩
        · rw [List.append_assoc] at hrest
          exact hrest
        · intro pair hmem
          rcases List.mem_cons.mp hmem with rfl | hmem
          · exact hlen
          · exact hlens pair hmem
      · -- nothing to write: an empty piece
        rename_i hempty
        have hzero : p.filesz = 0 := Nat.eq_zero_of_not_pos hempty
        have hslice : slice src original.offset p.filesz = [] := by
          rw [hzero]
          exact List.take_zero
        have hnext := hlaid.wrote (Wrote.refl w.file p.offset) hfirst
        rw [List.length_nil, ← hzero] at hnext
        obtain ⟨hrest, hlens⟩ := ih h hfrom hnext hasc
        refine ⟨?_, ?_⟩
        · rw [List.append_assoc] at hrest
          rw [segmentPieces, hslice]
          exact hrest
        · intro pair hmem
          rcases List.mem_cons.mp hmem with rfl | hmem
          · rw [hslice, hzero]
            rfl
          · exact hlens pair hmem

theorem mem_headerPieces {cls : ElfClass} {l : List Phdr} {i j : Nat} {p : Phdr}
    (h : l[j]? = some p) :
    (cls.ehdrSize + (i + j) * cls.phdrSize, p.encode cls) ∈ headerPieces cls i l := by
  induction l generalizing i j with
  | nil => cases h
  | cons first rest ih =>
      unfold headerPieces
      cases j with
      | zero =>
          cases h
          exact List.mem_cons_self
      | succ j =>
          have hmem := ih (i := i + 1) h
          rw [show i + 1 + j = i + (j + 1) by omega] at hmem
          exact List.mem_cons_of_mem _ hmem

theorem mem_segmentPieces {src : List Byte} {l : List (Phdr × Phdr)} {pair : Phdr × Phdr}
    (h : pair ∈ l) :
    (pair.1.offset, slice src pair.2.offset pair.1.filesz) ∈ segmentPieces src l := by
  induction l with
  | nil => cases h
  | cons first rest ih =>
      obtain ⟨p, original⟩ := first
      rcases List.mem_cons.mp h with rfl | hrest
      · exact List.mem_cons_self
      · exact List.mem_cons_of_mem _ (ih hrest)

/-- Everything that a successful run has put into the file: the ELF header, the program
headers, the note, and for each segment behind it the bytes of the source. -/
structure WritesCore (cls : ElfClass) (src out : List Byte) (b : Beginning) (note : Phdr)
    (rest original : List Phdr) : Prop where
  elfHeader : Placed out 0 b.elfHeader
  headers : ∀ (i : Nat) (p : Phdr), (note :: rest)[i]? = some p →
    Placed out (cls.ehdrSize + i * cls.phdrSize) (p.encode cls)
  noteBuf : Placed out note.offset b.noteBuf
  segments : ∀ pair ∈ rest.zip original,
    Placed out pair.1.offset (slice src pair.2.offset pair.1.filesz) ∧
      (slice src pair.2.offset pair.1.filesz).length = pair.1.filesz

theorem writeAll_spec {cls : ElfClass} {sys : Sys} {src : List Byte} {b : Beginning}
    {w w' : World} {note : Phdr} {rest original : List Phdr} (hb : ReadsBeginning cls src b w)
    (horiginal : b.programHeaders = note :: original) (hlength : rest.length = original.length)
    (hnote : cls.ehdrSize + (rest.length + 1) * cls.phdrSize ≤ note.offset)
    (hasc : Ascending (note.offset + note.filesz) rest)
    (h : writeAll cls sys b (note :: rest) w = some w') :
    WritesCore cls src w'.file b note rest original := by
  unfold writeAll at h
  simp only [Option.bind_eq_bind, Option.bind_eq_some_iff] at h
  obtain ⟨w₁, hhdr, w₂, hheaders, w₃, hseek, w₄, hbuf, hsegments⟩ := h
  obtain ⟨hwrote₁, -, hsrc₁, hread₁⟩ := writeFully_spec hhdr
  rw [hb.pos] at hwrote₁
  have hlaid₁ := (Laid.nil w.file 0).wrote hwrote₁ (Nat.le_refl 0)
  rw [hb.phentsize] at hheaders
  obtain ⟨hlaid₂, hsrc₂, hread₂⟩ := writeHeaders_spec hheaders hlaid₁ (by
    rw [hb.headerLength]
    omega)
  obtain ⟨hpos₃, hfile₃, hsrc₃, hread₃⟩ := seekDest_spec hseek
  obtain ⟨hwrote₄, -, hsrc₄, hread₄⟩ := writeFully_spec hbuf
  rw [hfile₃, hpos₃] at hwrote₄
  have hlaid₄ := hlaid₂.wrote hwrote₄ (by
    rw [List.length_cons, Nat.zero_add]
    exact hnote)
  have hnoteLength : b.noteBuf.length = note.filesz := by
    apply hb.noteLength
    rw [horiginal]
    rfl
  rw [hnoteLength] at hlaid₄
  have hfrom₄ : w₄.From src := by
    unfold World.From
    rw [hsrc₄, hsrc₃, hsrc₂, hsrc₁, hread₄, hread₃, hread₂, hread₁]
    exact hb.source
  have hfst : (rest.zip original).map Prod.fst = rest :=
    List.map_fst_zip (Nat.le_of_eq hlength)
  rw [horiginal, List.tail_cons] at hsegments
  obtain ⟨hlaid, hlens⟩ := writeSegments_spec hsegments hfrom₄ hlaid₄ (by
    rw [hfst]
    exact hasc)
  refine ⟨?_, ?_, ?_, ?_⟩
  · exact (hlaid (0, b.elfHeader) (by simp)).1
  · intro i p hp
    have hmem := @mem_headerPieces cls _ 0 _ _ hp
    rw [Nat.zero_add] at hmem
    exact (hlaid _ (List.mem_append_left _ (List.mem_append_left _
      (List.mem_append_right _ hmem)))).1
  · exact (hlaid (note.offset, b.noteBuf) (by simp)).1
  · intro pair hmem
    exact ⟨(hlaid _ (List.mem_append_right _ (mem_segmentPieces hmem))).1, hlens pair hmem⟩

end DragonDevice.Crash
