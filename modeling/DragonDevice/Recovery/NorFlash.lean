/-
  Recovery/NorFlash.lean --- a NOR flash part behind the device operations.

  Programming a NOR flash can only clear bits: a write leaves the conjunction of
  the old content and the data.  An erase sets every bit of the range.  The
  outcome of each operation comes from a script, so that a run can meet any
  sequence of failures; a failed operation leaves anything in its range.  Each
  successful write is recorded together with what a read of the range returns
  afterwards.
-/
import DragonDevice.Recovery.Flash

set_option autoImplicit false

namespace DragonDevice.Recovery

open DragonDevice.Lib

/-- How an erase or a write ends. -/
inductive Outcome where
  | succeed
  /-- a non-zero result, with what is left at the start of the range -/
  | fail (code : Int) (nonzero : code ≠ 0) (left : Bytes)

def Outcome.isSuccess : Outcome → Bool
  | .succeed => true
  | .fail _ _ _ => false

/-- A write that took place. -/
structure NorWrite where
  offset : Nat
  data : Bytes
  readBack : Bytes
  deriving DecidableEq, Repr

structure NorFlash where
  mem : Bytes
  /-- outcomes of the operations to come; after its end they all succeed -/
  script : List Outcome
  fmapOffset : Nat
  writes : List NorWrite

namespace NorFlash

/-- The content of an erased byte. -/
def erased : Byte := 0xff#8

def read (p : NorFlash) (off len : Nat) : Except Int Bytes :=
  if off + len ≤ p.mem.length then .ok (slice p.mem off len) else .error einval

theorem length_of_read {p : NorFlash} {off len : Nat} {bytes : Bytes}
    (h : p.read off len = .ok bytes) : bytes.length = len := by
  rw [read] at h
  split at h
  · cases h
    rename_i hfits
    exact length_slice hfits
  · cases h

theorem inside_of_read {p : NorFlash} {off len : Nat} {bytes : Bytes}
    (h : p.read off len = .ok bytes) : off + len ≤ p.mem.length := by
  rw [read] at h
  split at h
  · assumption
  · cases h

/-- The range after an operation that failed part way. -/
def damage (p : NorFlash) (off len : Nat) (left : Bytes) : Bytes :=
  splice p.mem off ((left ++ (slice p.mem off len).drop left.length).take len)

/-- Programming clears bits and never sets one. -/
def program (p : NorFlash) (off : Nat) (data : Bytes) : Bytes :=
  splice p.mem off (List.zipWith (· &&& ·) (slice p.mem off data.length) data)

def write (p : NorFlash) (off : Nat) (data : Bytes) : Int × NorFlash :=
  if p.mem.length < off + data.length then (einval, p)
  else
    match p.script with
    | .fail code _ left :: script =>
        (code, { p with mem := p.damage off data.length left, script })
    | script =>
        let mem := p.program off data
        (0, { p with
          mem
          script := script.tail
          writes := p.writes ++ [⟨off, data, slice mem off data.length⟩] })

def erase (p : NorFlash) (off len : Nat) : Int × NorFlash :=
  if p.mem.length < off + len then (einval, p)
  else
    match p.script with
    | .fail code _ left :: script =>
        (code, { p with mem := p.damage off len left, script })
    | script =>
        (0, { p with
          mem := splice p.mem off (List.replicate len erased), script := script.tail })

/-- The flash part as a device backend. -/
def ops : FlashDeviceOps NorFlash where
  read := read
  read_length := fun _ _ _ _ => length_of_read
  write := write
  erase := erase
  getSize p := p.mem.length
  getFmapOffset p := p.fmapOffset

/-! ## Successful operations -/

theorem and_erased (b : Byte) : erased &&& b = b := by
  have h : erased = BitVec.allOnes 8 := rfl
  rw [h, BitVec.allOnes_and]

theorem zipWith_and_replicate_erased (data : Bytes) :
    List.zipWith (· &&& ·) (List.replicate data.length erased) data = data := by
  induction data with
  | nil => rfl
  | cons b data ih =>
      rw [List.length_cons, List.replicate_succ, List.zipWith_cons_cons, ih, and_erased]

variable {p : NorFlash} {off len : Nat} {data : Bytes}

/-- The next operation is not one that fails. -/
def NextSucceeds (p : NorFlash) : Prop := p.script.head?.all Outcome.isSuccess = true

instance (p : NorFlash) : Decidable p.NextSucceeds :=
  inferInstanceAs (Decidable (p.script.head?.all Outcome.isSuccess = true))

theorem nextSucceeds_of_script_nil (hs : p.script = []) : p.NextSucceeds := by
  rw [NextSucceeds, hs]
  rfl

theorem write_of_nextSucceeds (hs : p.NextSucceeds) (h : off + data.length ≤ p.mem.length) :
    p.write off data =
      (0, { p with
        mem := p.program off data
        script := p.script.tail
        writes := p.writes ++ [⟨off, data, slice (p.program off data) off data.length⟩] }) := by
  rw [NextSucceeds] at hs
  rw [write, if_neg (by omega)]
  cases hscript : p.script with
  | nil => rfl
  | cons outcome script =>
      rw [hscript] at hs
      cases outcome with
      | succeed => rfl
      | fail code nonzero left => cases hs

theorem erase_of_nextSucceeds (hs : p.NextSucceeds) (h : off + len ≤ p.mem.length) :
    p.erase off len =
      (0, { p with
        mem := splice p.mem off (List.replicate len erased), script := p.script.tail }) := by
  rw [NextSucceeds] at hs
  rw [erase, if_neg (by omega)]
  cases hscript : p.script with
  | nil => rfl
  | cons outcome script =>
      rw [hscript] at hs
      cases outcome with
      | succeed => rfl
      | fail code nonzero left => cases hs

theorem next_of_erase (h : (p.erase off len).1 = 0) :
    off + len ≤ p.mem.length ∧ p.NextSucceeds := by
  rw [erase] at h
  split at h
  · cases h
  · rename_i hlt
    refine ⟨Nat.le_of_not_lt hlt, ?_⟩
    rw [NextSucceeds]
    cases hscript : p.script with
    | nil => rfl
    | cons outcome script =>
        rw [hscript] at h
        cases outcome with
        | succeed => rfl
        | fail code nonzero left => exact absurd h nonzero

theorem next_of_write (h : (p.write off data).1 = 0) : p.NextSucceeds := by
  rw [write] at h
  split at h
  · cases h
  · rw [NextSucceeds]
    cases hscript : p.script with
    | nil => rfl
    | cons outcome script =>
        rw [hscript] at h
        cases outcome with
        | succeed => rfl
        | fail code nonzero left => exact absurd h nonzero

/-- A write that only clears bits leaves exactly its data. -/
theorem program_of_and_eq
    (hand : List.zipWith (· &&& ·) (slice p.mem off data.length) data = data) :
    p.program off data = splice p.mem off data := by
  rw [program, hand]

/-! ## What an operation leaves alone -/

/-- From `p` to `p'` nothing outside the range changed. -/
structure OnlyWithin (off len : Nat) (p p' : NorFlash) : Prop where
  length : p'.mem.length = p.mem.length
  frame : ∀ off' len', off' + len' ≤ off ∨ off + len ≤ off' →
    slice p'.mem off' len' = slice p.mem off' len'

theorem OnlyWithin.refl (p : NorFlash) : OnlyWithin off len p p := ⟨rfl, fun _ _ _ => rfl⟩

theorem OnlyWithin.trans {p₁ p₂ p₃ : NorFlash} (h : OnlyWithin off len p₁ p₂)
    (h' : OnlyWithin off len p₂ p₃) : OnlyWithin off len p₁ p₃ := by
  refine ⟨h'.length.trans h.length, ?_⟩
  intro off' len' hdisj
  rw [h'.frame off' len' hdisj, h.frame off' len' hdisj]

theorem onlyWithin_splice {p' : NorFlash} (h : off + data.length ≤ p.mem.length)
    (hmem : p'.mem = splice p.mem off data) : OnlyWithin off data.length p p' := by
  refine ⟨by rw [hmem, length_splice h], ?_⟩
  intro off' len' hdisj
  rw [hmem, slice_splice_disjoint h hdisj]

theorem length_damaged (h : off + len ≤ p.mem.length) (left : Bytes) :
    ((left ++ (slice p.mem off len).drop left.length).take len).length = len := by
  rw [List.length_take, List.length_append, List.length_drop, length_slice h]
  omega

theorem onlyWithin_damage {p' : NorFlash} (h : off + len ≤ p.mem.length) {left : Bytes}
    (hmem : p'.mem = p.damage off len left) : OnlyWithin off len p p' := by
  have hlen := length_damaged h left
  have hwithin := onlyWithin_splice (by rw [hlen]; exact h) hmem
  rw [hlen] at hwithin
  exact hwithin

theorem onlyWithin_write (p : NorFlash) (off : Nat) (data : Bytes) :
    OnlyWithin off data.length p (p.write off data).2 := by
  by_cases h : p.mem.length < off + data.length
  · rw [write, if_pos h]
    exact OnlyWithin.refl p
  · have hfits : off + data.length ≤ p.mem.length := Nat.le_of_not_lt h
    have hand : (List.zipWith (· &&& ·) (slice p.mem off data.length) data).length =
        data.length := by
      rw [List.length_zipWith, length_slice hfits, Nat.min_self]
    have hprogram : ∀ p' : NorFlash, p'.mem = p.program off data →
        OnlyWithin off data.length p p' := by
      intro p' hmem
      have hwithin := onlyWithin_splice (by rw [hand]; exact hfits) hmem
      rw [hand] at hwithin
      exact hwithin
    rw [write, if_neg h]
    cases p.script with
    | nil => exact hprogram _ rfl
    | cons outcome script =>
        cases outcome with
        | succeed => exact hprogram _ rfl
        | fail code nonzero left => exact onlyWithin_damage hfits rfl

theorem onlyWithin_erase (p : NorFlash) (off len : Nat) :
    OnlyWithin off len p (p.erase off len).2 := by
  by_cases h : p.mem.length < off + len
  · rw [erase, if_pos h]
    exact OnlyWithin.refl p
  · have hfits : off + len ≤ p.mem.length := Nat.le_of_not_lt h
    have herased : ∀ p' : NorFlash, p'.mem = splice p.mem off (List.replicate len erased) →
        OnlyWithin off len p p' := by
      intro p' hmem
      have hwithin := onlyWithin_splice (by rw [List.length_replicate]; exact hfits) hmem
      rw [List.length_replicate] at hwithin
      exact hwithin
    rw [erase, if_neg h]
    cases p.script with
    | nil => exact herased _ rfl
    | cons outcome script =>
        cases outcome with
        | succeed => exact herased _ rfl
        | fail code nonzero left => exact onlyWithin_damage hfits rfl

end NorFlash

end DragonDevice.Recovery
