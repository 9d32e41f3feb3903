/-
  IniParser/Dictionary.lean --- the dictionary of `dictionary.c`.

  The arrays `key`, `val` and `hash` of a dictionary have one length, its `size`, and stand
  here as one list of slots; `n` is kept beside them, as in the code.  Both are `int` in the code
  and have no bound here.  Characters stand for bytes, which are unsigned here as on the device,
  and memory allocation succeeds.  A pointer to a value may be `NULL` although its key is there.
-/
import DragonDevice.Lib.SlotTable
import Mathlib.Algebra.Ring.Nat

set_option autoImplicit false

namespace DragonDevice.IniParser

open DragonDevice.Lib

/-! ## The code -/

/-- `DICTMINSZ` -/
def dictMinSz : Nat := 128

/-- The body of the loop of `dictionary_hash`. -/
def hashChar (hash : UInt32) (c : Char) : UInt32 :=
  let hash := hash + UInt32.ofNat c.toNat
  let hash := hash + (hash <<< 10)
  hash ^^^ (hash >>> 6)

def dictionaryHash (key : List Char) : UInt32 :=
  let hash := key.foldl hashChar 0
  let hash := hash + (hash <<< 3)
  let hash := hash ^^^ (hash >>> 11)
  hash + (hash <<< 15)

/-- The elements of the three arrays at one index. -/
structure Slot where
  key : Option (List Char)
  val : Option (List Char)
  hash : UInt32
  deriving DecidableEq

/-- A slot as `calloc` makes it. -/
def Slot.free : Slot := ⟨none, none, 0⟩

/-- `dictionary` -/
structure Dictionary where
  n : Nat
  slots : List Slot
  deriving DecidableEq

/-- `dictionary_new` -/
def dictionaryNew (size : Nat) : Dictionary :=
  ⟨0, List.replicate (max size dictMinSz) Slot.free⟩

namespace Dictionary

/-- The loop that compares hashes and then strings. -/
def slotOf (d : Dictionary) (key : List Char) : Option Nat :=
  d.slots.findIdx? fun slot =>
    slot.key.any fun k => dictionaryHash key == slot.hash && key == k

/-- The pointer that `dictionary_get` finds. -/
def find (d : Dictionary) (key : List Char) : Option (Option (List Char)) :=
  (d.slotOf key).bind fun i => (d.slots[i]?).map (·.val)

/-- The slots with room for one more key. -/
def grown (d : Dictionary) : List Slot :=
  if d.n = d.slots.length then d.slots ++ List.replicate d.slots.length Slot.free else d.slots

end Dictionary

/-- `dictionary_get` -/
def dictionaryGet (d : Dictionary) (key : List Char) (default : Option (List Char)) :
    Option (List Char) :=
  (d.find key).getD default

/-- `dictionary_set`; no result when the search for an empty slot leaves the array or does not
end. -/
def dictionarySet (d : Dictionary) (key : List Char) (val : Option (List Char)) :
    Option Dictionary :=
  match if 0 < d.n then d.slotOf key else none with
  | some i => some { d with slots := d.slots.modify i fun slot => { slot with val := val } }
  | none =>
      (ringFind (fun slot => slot.key.isNone) d.grown d.grown.length d.n).map fun i =>
        ⟨d.n + 1, d.grown.set i ⟨some key, val, dictionaryHash key⟩⟩

def dictionaryUnset (d : Dictionary) (key : List Char) : Dictionary :=
  match d.slotOf key with
  | none => d
  | some i => ⟨d.n - 1, d.slots.set i Slot.free⟩

/-! ## What a dictionary says -/

/-- The entry of a slot. -/
def Slot.entry (slot : Slot) : Option (List Char × Option (List Char)) :=
  slot.key.map fun k => (k, slot.val)

namespace Dictionary

def table (d : Dictionary) : SlotTable (List Char) (Option (List Char)) := d.slots.map Slot.entry

/-- The map from keys to values. -/
def map (d : Dictionary) : List Char → Option (Option (List Char)) := d.table.lookup

/-- The keys and values in the order of their slots. -/
def entries (d : Dictionary) : List (List Char × Option (List Char)) := d.table.entries

/-- What every dictionary meets. -/
structure Valid (d : Dictionary) : Prop where
  room : 0 < d.slots.length
  count : d.n = d.entries.length
  hashed : ∀ slot ∈ d.slots, ∀ key, slot.key = some key → slot.hash = dictionaryHash key
  distinct : d.table.Distinct

variable {d : Dictionary} {key : List Char}

theorem table_getElem? (d : Dictionary) (i : Nat) : d.table[i]? = (d.slots[i]?).map Slot.entry :=
  List.getElem?_map

theorem table_modify (slots : List Slot) (i : Nat) (val : Option (List Char)) {slot : Slot}
    (hslot : slots[i]? = some slot) (hkey : slot.key = some key) :
    (slots.modify i fun s => { s with val := val }).map Slot.entry =
      (slots.map Slot.entry).set i (some (key, val)) := by
  apply List.ext_getElem?
  intro j
  rw [List.getElem?_map, List.getElem?_modify, List.getElem?_set]
  by_cases hij : i = j
  · subst hij
    rw [if_pos rfl, hslot, if_pos (by simpa using (List.getElem?_eq_some_iff.mp hslot).1)]
    simp [Slot.entry, hkey]
  · simp [hij]

/-- The slot that the loop finds holds the key. -/
theorem slotOf_some {i : Nat} (h : d.slotOf key = some i) :
    ∃ slot, d.slots[i]? = some slot ∧ slot.key = some key := by
  obtain ⟨hlt, hfound, -⟩ := List.findIdx?_eq_some_iff_getElem.mp h
  obtain ⟨k, hk, heq⟩ := (Option.any_eq_true _ _).mp hfound
  rw [Bool.and_eq_true, beq_iff_eq, beq_iff_eq] at heq
  exact ⟨_, List.getElem?_eq_getElem hlt, by rw [heq.2]; exact hk⟩

/-- Without such a slot the dictionary says nothing of the key. -/
theorem Valid.slotOf_none (hvalid : d.Valid) (h : d.slotOf key = none) : d.map key = none := by
  apply SlotTable.lookup_eq_none
  intro hmem
  obtain ⟨⟨k, v⟩, he, hk⟩ := List.mem_map.mp hmem
  dsimp only at hk
  subst hk
  obtain ⟨slot, hslot, hentry⟩ := List.mem_map.mp (SlotTable.mem_entries.mp he)
  obtain ⟨k', hk', heq⟩ := Option.map_eq_some_iff.mp hentry
  cases heq
  have hfound := List.findIdx?_eq_none_iff.mp h slot hslot
  rw [hk', Option.any_some, hvalid.hashed slot hslot k hk'] at hfound
  simp at hfound

theorem Valid.slotOf_map (hvalid : d.Valid) {i : Nat} {slot : Slot}
    (hslot : d.slots[i]? = some slot) (hkey : slot.key = some key) : d.map key = some slot.val := by
  have hentry : slot.entry = some (key, slot.val) := by rw [Slot.entry, hkey]; rfl
  have hmem : (key, slot.val) ∈ d.entries := by
    apply SlotTable.mem_entries.mpr
    rw [← hentry]
    exact List.mem_map_of_mem (List.mem_of_getElem? hslot)
  exact SlotTable.lookup_eq_of_mem hvalid.distinct hmem

/-- Comparing hashes first makes no difference. -/
theorem Valid.find_eq (hvalid : d.Valid) (key : List Char) : d.find key = d.map key := by
  unfold find
  cases h : d.slotOf key with
  | none => exact (hvalid.slotOf_none h).symm
  | some i =>
      obtain ⟨slot, hslot, hkey⟩ := slotOf_some h
      rw [Option.bind_some, hslot, hvalid.slotOf_map hslot hkey]
      rfl

/-! ## What the operations do -/

theorem table_grown (d : Dictionary) :
    ∃ free, d.grown.map Slot.entry = d.table ++ List.replicate free none ∧
      d.grown.length = d.table.length + free := by
  unfold grown
  split
  · refine ⟨d.slots.length, ?_, ?_⟩
    · rw [List.map_append, List.map_replicate]
      rfl
    · rw [List.length_append, List.length_replicate, table, List.length_map]
  · exact ⟨0, (List.append_nil _).symm, by rw [table, List.length_map, Nat.add_zero]⟩

theorem Valid.n_le (hvalid : d.Valid) : d.n ≤ d.slots.length := by
  have hle := SlotTable.length_entries_le d.table
  rw [hvalid.count]
  unfold table at hle
  rw [List.length_map] at hle
  exact hle

theorem Valid.n_lt_grown (hvalid : d.Valid) : d.n < d.grown.length := by
  have hle := hvalid.n_le
  have hroom := hvalid.room
  unfold grown
  split
  · rw [List.length_append, List.length_replicate]
    omega
  · omega

theorem mem_grown {slot : Slot} (h : slot ∈ d.grown) : slot ∈ d.slots ∨ slot = Slot.free := by
  unfold grown at h
  split at h
  · rw [List.mem_append] at h
    exact h.imp id List.eq_of_mem_replicate
  · exact Or.inl h

/-- `dictionary_set` for a key that has a slot. -/
theorem Valid.set_held (hvalid : d.Valid) {i : Nat} (h : d.slotOf key = some i)
    (val : Option (List Char)) :
    ∃ old d', dictionarySet d key val = some d' ∧ d.table[i]? = some (some (key, old)) ∧
      d'.table = d.table.set i (some (key, val)) ∧ d'.n = d.n ∧ d'.slots.length = d.slots.length ∧
      ∀ slot ∈ d'.slots, ∀ k, slot.key = some k → slot.hash = dictionaryHash k := by
  obtain ⟨slot, hslot, hkey⟩ := slotOf_some h
  have hentry : d.table[i]? = some (some (key, slot.val)) := by
    rw [table_getElem?, hslot, Option.map_some, Slot.entry, hkey]
    rfl
  have hn : 0 < d.n := by
    rw [hvalid.count]
    exact List.length_pos_of_mem (SlotTable.mem_entries.mpr (List.mem_of_getElem? hentry))
  refine ⟨slot.val, { d with slots := d.slots.modify i fun slot => { slot with val := val } }, ?_,
    hentry, table_modify _ _ _ hslot hkey, rfl, List.length_modify .., ?_⟩
  · unfold dictionarySet
    rw [if_pos hn, h]
  · intro s hs k hk
    obtain ⟨j, hj⟩ := List.getElem?_of_mem hs
    rw [List.getElem?_modify] at hj
    obtain ⟨s', hs', heq⟩ := Option.map_eq_some_iff.mp hj
    have hold := hvalid.hashed s' (List.mem_of_getElem? hs')
    subst heq
    split at hk
    · rename_i hij
      rw [if_pos hij]
      exact hold k hk
    · rename_i hij
      rw [if_neg hij]
      exact hold k hk

/-- `dictionary_set` for a new key: it goes to a free slot, and to the one behind the entries if
that is free. -/
theorem Valid.set_new (hvalid : d.Valid) (h : d.slotOf key = none) (val : Option (List Char)) :
    ∃ i free d', dictionarySet d key val = some d' ∧
      (d.table ++ List.replicate free none)[i]? = some none ∧
      ((d.table ++ List.replicate free none)[d.n]? = some none → i = d.n) ∧
      d.n < (d.table ++ List.replicate free none).length ∧
      d'.table = (d.table ++ List.replicate free none).set i (some (key, val)) ∧
      d'.n = d.n + 1 ∧ d.slots.length ≤ d'.slots.length ∧
      ∀ slot ∈ d'.slots, ∀ k, slot.key = some k → slot.hash = dictionaryHash k := by
  obtain ⟨free, hgrown, hlen⟩ := d.table_grown
  have hlt := hvalid.n_lt_grown
  have hfree : ∃ slot ∈ d.grown, slot.key.isNone = true := by
    have hless : (d.table ++ List.replicate free none : SlotTable _ _).entries.length <
        (d.table ++ List.replicate free none).length := by
      rw [SlotTable.entries_append_free, List.length_append, List.length_replicate, ← hlen]
      have hcount := hvalid.count
      unfold entries at hcount
      omega
    have hnone := SlotTable.exists_free hless
    rw [← hgrown] at hnone
    obtain ⟨slot, hslot, hentry⟩ := List.mem_map.mp hnone
    refine ⟨slot, hslot, ?_⟩
    rw [Option.isNone_iff_eq_none]
    exact Option.map_eq_none_iff.mp hentry
  obtain ⟨i, hi⟩ := exists_ringFind hlt hfree
  obtain ⟨slot, hslot, hempty⟩ := ringFind_some hi
  have hsearch : (if 0 < d.n then d.slotOf key else none) = none := by
    rw [h]
    exact ite_self _
  have hget : ∀ j : Nat,
      (d.table ++ List.replicate free none)[j]? = (d.grown[j]?).map Slot.entry := by
    intro j
    rw [← hgrown, List.getElem?_map]
  refine ⟨i, free, ⟨d.n + 1, d.grown.set i ⟨some key, val, dictionaryHash key⟩⟩, ?_, ?_,
    fun hn => ?_, ?_, ?_, rfl, ?_, ?_⟩
  · unfold dictionarySet
    rw [hsearch]
    dsimp only
    rw [hi]
    rfl
  · rw [hget, hslot, Option.map_some, Slot.entry, Option.isNone_iff_eq_none.mp hempty]
    rfl
  · rw [hget] at hn
    obtain ⟨s, hs, hentry⟩ := Option.map_eq_some_iff.mp hn
    have hsnone : s.key.isNone = true := by
      rw [Option.isNone_iff_eq_none]
      exact Option.map_eq_none_iff.mp hentry
    obtain ⟨fuel, hfuel⟩ := Nat.exists_eq_succ_of_ne_zero (Nat.ne_of_gt (Nat.zero_lt_of_lt hlt))
    rw [hfuel, ringFind_here hs hsnone] at hi
    exact (Option.some.inj hi).symm
  · rw [List.length_append, List.length_replicate, ← hlen]
    exact hlt
  · unfold table
    rw [List.map_set, hgrown]
    rfl
  · rw [List.length_set, hlen, table, List.length_map]
    exact Nat.le_add_right _ _
  · intro s hs k hk
    cases List.mem_or_eq_of_mem_set hs with
    | inl hs =>
        cases mem_grown hs with
        | inl hs => exact hvalid.hashed s hs k hk
        | inr heq =>
            rw [heq] at hk
            cases hk
    | inr heq =>
        subst heq
        rw [← Option.some.inj hk]

theorem valid_new (size : Nat) : (dictionaryNew size).Valid ∧
    (dictionaryNew size).entries = [] := by
  have hentries : (dictionaryNew size).entries = [] := by
    unfold entries table dictionaryNew
    rw [List.map_replicate]
    exact SlotTable.entries_append_free [] _
  refine ⟨⟨?_, ?_, fun slot hslot key hkey => ?_, ?_⟩, hentries⟩
  · show 0 < (List.replicate (max size dictMinSz) Slot.free).length
    rw [List.length_replicate]
    exact Nat.lt_of_lt_of_le (by decide) (Nat.le_max_right size dictMinSz)
  · rw [hentries]
    rfl
  · rw [List.eq_of_mem_replicate hslot] at hkey
    cases hkey
  · unfold entries at hentries
    unfold SlotTable.Distinct
    rw [hentries]
    exact List.nodup_nil

/-- `dictionary_set` ends, and changes what is said of its key alone. -/
theorem Valid.set (hvalid : d.Valid) (key : List Char) (val : Option (List Char)) :
    ∃ d', dictionarySet d key val = some d' ∧ d'.Valid ∧
      d'.map = Function.update d.map key (some val) := by
  cases h : d.slotOf key with
  | some i =>
      obtain ⟨old, d', hset, hheld, htable, hn, hlen, hhashed⟩ := hvalid.set_held h val
      obtain ⟨hkeys, hmap⟩ := SlotTable.set_value val hvalid.distinct hheld
      rw [← htable] at hkeys hmap
      refine ⟨d', hset, ⟨hlen ▸ hvalid.room, ?_, hhashed, ?_⟩, hmap⟩
      · have hcount := congrArg List.length hkeys
        rw [List.length_map, List.length_map] at hcount
        rw [hn, hvalid.count]
        exact hcount.symm
      · unfold SlotTable.Distinct
        rw [hkeys]
        exact hvalid.distinct
  | none =>
      obtain ⟨i, free, d', hset, hfree, -, -, htable, hn, hlen, hhashed⟩ := hvalid.set_new h val
      have hnone := hvalid.slotOf_none h
      unfold map SlotTable.lookup at hnone
      have hdistinct := hvalid.distinct
      unfold SlotTable.Distinct at hdistinct
      rw [← SlotTable.entries_append_free d.table free] at hnone hdistinct
      obtain ⟨hdistinct', hmap, hcount⟩ := SlotTable.set_free val hdistinct hnone hfree
      rw [← htable] at hdistinct' hmap hcount
      refine ⟨d', hset, ⟨Nat.lt_of_lt_of_le hvalid.room hlen, ?_, hhashed, hdistinct'⟩, ?_⟩
      · rw [hn, hvalid.count, entries, entries, hcount, SlotTable.entries_append_free]
      · unfold map
        rw [hmap]
        congr 1
        unfold SlotTable.lookup
        rw [SlotTable.entries_append_free]

/-- `dictionary_unset` takes its key alone out. -/
theorem Valid.unset (hvalid : d.Valid) (key : List Char) :
    (dictionaryUnset d key).Valid ∧
      (dictionaryUnset d key).map = Function.update d.map key none := by
  unfold dictionaryUnset
  cases h : d.slotOf key with
  | none =>
      have hnone := hvalid.slotOf_none h
      refine ⟨hvalid, ?_⟩
      apply Eq.symm
      rw [Function.update_eq_self_iff]
      exact hnone.symm
  | some i =>
      dsimp only
      obtain ⟨slot, hslot, hkey⟩ := slotOf_some h
      have hheld : d.table[i]? = some (some (key, slot.val)) := by
        rw [table_getElem?, hslot, Option.map_some, Slot.entry, hkey]
        rfl
      have htable : table ⟨d.n - 1, d.slots.set i Slot.free⟩ = d.table.set i none := List.map_set
      obtain ⟨hdistinct, hmap, hcount⟩ := SlotTable.set_none hvalid.distinct hheld
      rw [← htable] at hdistinct hmap hcount
      refine ⟨⟨?_, ?_, fun s hs k hk => ?_, hdistinct⟩, hmap⟩
      · show 0 < (d.slots.set i Slot.free).length
        rw [List.length_set]
        exact hvalid.room
      · show d.n - 1 = (table ⟨d.n - 1, d.slots.set i Slot.free⟩).entries.length
        have hn := hvalid.count
        unfold entries at hn
        omega
      · cases List.mem_or_eq_of_mem_set hs with
        | inl hs => exact hvalid.hashed s hs k hk
        | inr heq =>
            rw [heq] at hk
            cases hk

/-- While entries are only added, `dictionary_set` keeps the order in which the keys came. -/
theorem Valid.set_dense (hvalid : d.Valid) (hdense : d.table.Dense) {d' : Dictionary}
    {val : Option (List Char)} (hset : dictionarySet d key val = some d') :
    d'.table.Dense ∧ d'.entries = SlotTable.upsert d.entries key val := by
  cases h : d.slotOf key with
  | some i =>
      obtain ⟨old, d'', hset', hheld, htable, -⟩ := hvalid.set_held h val
      rw [hset'] at hset
      cases hset
      unfold entries
      rw [htable]
      exact hdense.set_value val hvalid.distinct hheld
  | none =>
      obtain ⟨i, free, d'', hset', -, hnext, hroom, htable, -⟩ := hvalid.set_new h val
      rw [hset'] at hset
      cases hset
      have hentries := SlotTable.entries_append_free d.table free
      have hnone := hvalid.slotOf_none h
      unfold map SlotTable.lookup at hnone
      rw [← hentries] at hnone
      have hdense' : SlotTable.Dense (d.table ++ List.replicate free none) := by
        obtain ⟨free', ht⟩ := hdense
        refine ⟨free' + free, ?_⟩
        rw [hentries, List.replicate_add, ← List.append_assoc, ← ht]
      have hn : d.n = (SlotTable.entries (d.table ++ List.replicate free none)).length := by
        rw [hentries]
        exact hvalid.count
      obtain ⟨hfree, hdense'', hupsert⟩ := hdense'.set_next val (hn ▸ hroom) hnone
      rw [← hn] at hfree hdense'' hupsert
      rw [hnext hfree] at htable
      unfold entries
      rw [htable]
      rw [hentries] at hupsert
      exact ⟨hdense'', hupsert⟩

end Dictionary

/-! ## Runs -/

/-- A change of a dictionary. -/
inductive Update where
  | set (key : List Char) (val : Option (List Char))
  | unset (key : List Char)

/-- What a change does to a dictionary. -/
def Update.apply (d : Dictionary) : Update → Option Dictionary
  | .set key val => dictionarySet d key val
  | .unset key => some (dictionaryUnset d key)

/-- What a change means for the map from keys to values. -/
def Update.mean (m : List Char → Option (Option (List Char))) :
    Update → List Char → Option (Option (List Char))
  | .set key val => Function.update m key (some val)
  | .unset key => Function.update m key none

theorem Update.apply_spec {d : Dictionary} (hvalid : d.Valid) (u : Update) :
    ∃ d', u.apply d = some d' ∧ d'.Valid ∧ d'.map = u.mean d.map := by
  cases u with
  | set key val => exact hvalid.set key val
  | unset key => exact ⟨_, rfl, hvalid.unset key⟩

/-- A run of changes. -/
theorem exists_run {d : Dictionary} (hvalid : d.Valid) (us : List Update) :
    ∃ d', us.foldlM Update.apply d = some d' ∧ d'.Valid ∧
      d'.map = us.foldl Update.mean d.map := by
  induction us generalizing d with
  | nil => exact ⟨d, rfl, hvalid, rfl⟩
  | cons u us ih =>
      obtain ⟨d₁, happly, hvalid₁, hmap⟩ := u.apply_spec hvalid
      obtain ⟨d', hrun, hvalid', hmap'⟩ := ih hvalid₁
      refine ⟨d', ?_, hvalid', ?_⟩
      · rw [List.foldlM_cons, happly]
        exact hrun
      · rw [hmap', hmap]
        rfl

/-- The count of a dictionary is that of the keys it has a value for. -/
theorem Dictionary.Valid.count_keys {d : Dictionary} (hvalid : d.Valid) :
    ∃ keys : List (List Char), keys.Nodup ∧ keys.length = d.n ∧
      ∀ key, key ∈ keys ↔ (d.map key).isSome = true := by
  refine ⟨d.entries.map Prod.fst, hvalid.distinct, ?_, fun key => ?_⟩
  · rw [List.length_map, hvalid.count]
  · exact SlotTable.lookup_isSome_iff.symm

/-- In every run of changes of a new dictionary, whatever its size, each search for an empty slot
ends, lookups give what the run means, and `n` counts the keys. -/
theorem dictionary_refines_map (size : Nat) (us : List Update) :
    ∃ d, us.foldlM Update.apply (dictionaryNew size) = some d ∧
      (∀ key default, dictionaryGet d key default =
        ((us.foldl Update.mean fun _ => none) key).getD default) ∧
      ∃ keys : List (List Char), keys.Nodup ∧ keys.length = d.n ∧
        ∀ key, key ∈ keys ↔ ((us.foldl Update.mean fun _ => none) key).isSome = true := by
  obtain ⟨hvalid, hentries⟩ := Dictionary.valid_new size
  have hempty : (dictionaryNew size).map = fun _ => none := by
    funext key
    unfold Dictionary.map SlotTable.lookup
    unfold Dictionary.entries at hentries
    rw [hentries]
    rfl
  obtain ⟨d, hrun, hvalid', hmap⟩ := exists_run hvalid us
  rw [hempty] at hmap
  refine ⟨d, hrun, fun key default => ?_, ?_⟩
  · rw [dictionaryGet, hvalid'.find_eq, hmap]
  · rw [← hmap]
    exact hvalid'.count_keys

end DragonDevice.IniParser
