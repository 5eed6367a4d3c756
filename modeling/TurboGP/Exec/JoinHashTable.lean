import Mathlib.Data.List.Basic
import Mathlib.Tactic
import TurboGP.Lib.LinkedChain

/-!
# The hash table of a join

`exec/join_hash_table.rs`: a directory of buckets, each the head of a chain of
entries.
-/

namespace TurboGP.Exec

open LinkedChain List

structure JoinEntry where
  key : UInt64
  rowIdx : UInt32
  next : UInt32
  deriving DecidableEq, Repr

/-- The position of the next entry, 0 for the end of the chain. -/
def JoinEntry.link (entry : JoinEntry) : Nat := entry.next.toNat

def packSlot (tag : UInt16) (entryIdx : UInt32) : UInt64 :=
  (tag.toUInt64 <<< 48) ||| entryIdx.toUInt64

def slotTag (slot : UInt64) : UInt16 := (slot >>> 48).toUInt16

def slotHead (slot : UInt64) : UInt32 := (slot &&& 0xFFFFFFFF).toUInt32

@[simp] theorem slotHead_packSlot (tag : UInt16) (entryIdx : UInt32) :
    slotHead (packSlot tag entryIdx) = entryIdx := by
  unfold slotHead packSlot
  apply UInt32.toBitVec_inj.mp
  ext i inside
  have one : (4294967295#32)[i] = true := BitVec.getElem_allOnes i inside
  simp only [UInt64.toUInt32_and, UInt64.toUInt32_or, UInt32.toBitVec_and]
  simp [one]

@[simp] theorem slotTag_packSlot (tag : UInt16) (entryIdx : UInt32) :
    slotTag (packSlot tag entryIdx) = tag := by
  unfold slotTag packSlot
  apply UInt16.toBitVec_inj.mp
  ext i inside
  have beyond : entryIdx.toBitVec.getLsbD (48 + i) = false := BitVec.getLsbD_of_ge _ _ (by omega)
  have inSlot : 48 + i < 64 := by omega
  have inTag : i < 64 := by omega
  simp [beyond, inSlot, inTag, inside]

def coversTag (tag expected : UInt16) : Bool := tag &&& expected == expected

theorem coversTag_or_left {tag expected : UInt16} (other : UInt16)
    (covers : coversTag tag expected = true) : coversTag (tag ||| other) expected = true := by
  unfold coversTag at covers ⊢
  rw [beq_iff_eq] at covers ⊢
  apply UInt16.toBitVec_inj.mp
  have bits := congrArg UInt16.toBitVec covers
  ext i inside
  have bit := congrArg (fun word => word[i]) bits
  simp only [UInt16.toBitVec_and, UInt16.toBitVec_or, BitVec.getElem_and,
    BitVec.getElem_or] at bit ⊢
  revert bit
  cases tag.toBitVec[i] <;> cases expected.toBitVec[i] <;>
    cases other.toBitVec[i] <;> decide

theorem coversTag_or_right (tag expected : UInt16) :
    coversTag (tag ||| expected) expected = true := by
  unfold coversTag
  rw [beq_iff_eq]
  apply UInt16.toBitVec_inj.mp
  ext i inside
  simp only [UInt16.toBitVec_and, UInt16.toBitVec_or, BitVec.getElem_and, BitVec.getElem_or]
  cases tag.toBitVec[i] <;> cases expected.toBitVec[i] <;> rfl

/-- `JoinHashTable`; the directory has `2 ^ bits` slots, and `shift` leaves as
many bits of a hash. -/
structure JoinHashTable where
  directory : List UInt64
  entries : List JoinEntry
  len : Nat
  shift : Nat

namespace JoinHashTable

/-- The logarithm of `next_power_of_two`. -/
def powerAbove (n : Nat) : Nat :=
  if n ≤ 1 then 0 else Nat.log2 (n - 1) + 1

def new (expectedEntries : Nat) : JoinHashTable :=
  let bits := max (powerAbove (expectedEntries * 2)) 4
  { directory := replicate (2 ^ bits) 0
    entries := replicate (expectedEntries + 1) { key := 0, rowIdx := 0, next := 0 }
    len := 1
    shift := 64 - bits }

def bloomTag (hash : UInt64) : UInt16 := (hash >>> 16).toUInt16 ||| 1

def couldContain (slot hash : UInt64) : Bool :=
  slotTag slot != 0 && coversTag (slotTag slot) (bloomTag hash)

section

variable (hash : UInt64 → UInt64)

def slotOf (table : JoinHashTable) (key : UInt64) : Nat := (hash key).toNat / 2 ^ table.shift

/-- The head of a bucket; the bucket of a key is always in the directory. -/
def slotAt (table : JoinHashTable) (slot : Nat) : UInt64 := table.directory[slot]?.getD 0

/-- `insert`: the entry becomes the head of its bucket.  Its position is the
count of entries as a `u32`. -/
def insert (table : JoinHashTable) (key : UInt64) (rowIdx : UInt32) : JoinHashTable :=
  let slot := table.slotOf hash key
  let entryIdx := UInt32.ofNat table.len
  let old := table.slotAt slot
  let entry := { key := key, rowIdx := rowIdx, next := slotHead old }
  let entries :=
    if table.entries.length ≤ entryIdx.toNat then table.entries ++ [entry]
    else table.entries.set entryIdx.toNat entry
  { table with
    entries := entries
    len := table.len + 1
    directory :=
      table.directory.set slot (packSlot (slotTag old ||| bloomTag (hash key)) entryIdx) }

/-- `probe_all`: the rows of the entries with a key, from the head of its
bucket on; `none` when the walk does not end. -/
def probeAll (table : JoinHashTable) (key : UInt64) : Option (List UInt32) :=
  let slot := table.slotAt (table.slotOf hash key)
  if couldContain slot (hash key) then
    (walk JoinEntry.link table.entries table.entries.length (slotHead slot).toNat).map
      (fun chain => (chain.filter (fun entry => entry.key == key)).map JoinEntry.rowIdx)
  else some []

/-- `probe`: the row of the first entry with a key. -/
def probe (table : JoinHashTable) (key : UInt64) : Option (Option UInt32) :=
  let slot := table.slotAt (table.slotOf hash key)
  if couldContain slot (hash key) then
    (seek JoinEntry.link (fun entry => entry.key == key) table.entries table.entries.length
      (slotHead slot).toNat).map (Option.map JoinEntry.rowIdx)
  else some none

def insertAll (table : JoinHashTable) (rows : List (UInt64 × UInt32)) : JoinHashTable :=
  rows.foldl (fun table row => table.insert hash row.1 row.2) table

end

section

variable {hash : UInt64 → UInt64} {table : JoinHashTable}

/-- The entries hold the rows in the order in which they were inserted, each
bucket a chain of those whose key falls into it. -/
structure Holds (hash : UInt64 → UInt64) (table : JoinHashTable)
    (rows : List (UInt64 × UInt32)) : Prop where
  len : table.len = rows.length + 1
  stored : table.len ≤ table.entries.length
  slots : ∀ key, table.slotOf hash key < table.directory.length
  heads : ∀ slot, (slotHead (table.slotAt slot)).toNat < table.len
  chains : ∀ slot, ∃ chain, Chain JoinEntry.link table.entries
      (slotHead (table.slotAt slot)).toNat chain ∧
    chain.map (fun entry => (entry.key, entry.rowIdx)) =
      (rows.filter (fun row => table.slotOf hash row.1 == slot)).reverse
  tags : ∀ row ∈ rows, couldContain (table.slotAt (table.slotOf hash row.1)) (hash row.1) = true

theorem bloomTag_ne_zero (hash : UInt64) : bloomTag hash ≠ 0 := by
  intro isZero
  have bit := congrArg (fun tag => tag.toBitVec[0]) isZero
  simp [bloomTag] at bit

theorem couldContain_packSlot_iff {tag : UInt16} {entryIdx : UInt32} {h : UInt64} :
    couldContain (packSlot tag entryIdx) h = true ↔
      tag ≠ 0 ∧ coversTag tag (bloomTag h) = true := by
  simp [couldContain]

theorem ne_zero_of_coversTag {tag : UInt16} {h : UInt64}
    (covers : coversTag tag (bloomTag h) = true) : tag ≠ 0 := by
  intro isZero
  unfold coversTag at covers
  rw [isZero, UInt16.zero_and, beq_iff_eq] at covers
  exact bloomTag_ne_zero h covers.symm

theorem slotOf_new_lt (hash : UInt64 → UInt64) (expected : Nat) (key : UInt64) :
    (new expected).slotOf hash key < (new expected).directory.length := by
  have bound : (hash key).toNat < 2 ^ 64 := (hash key).toNat_lt
  simp only [new, slotOf, length_replicate]
  generalize max (powerAbove (expected * 2)) 4 = bits
  rw [Nat.div_lt_iff_lt_mul (Nat.two_pow_pos _), ← Nat.pow_add]
  exact Nat.lt_of_lt_of_le bound (Nat.pow_le_pow_right (by decide) (by omega))

theorem slotAt_new (expected slot : Nat) : (new expected).slotAt slot = 0 := by
  unfold slotAt new
  rw [getElem?_replicate]
  split <;> rfl

theorem holds_new (hash : UInt64 → UInt64) (expected : Nat) : Holds hash (new expected) [] := by
  have empty (slot : Nat) : (slotHead ((new expected).slotAt slot)).toNat = 0 := by
    rw [slotAt_new]
    rfl
  constructor
  · rfl
  · simp [new]
  · exact slotOf_new_lt hash expected
  · intro slot
    rw [empty]
    exact Nat.one_pos
  · intro slot
    rw [empty]
    exact ⟨[], .nil, rfl⟩
  · exact forall_mem_nil _

section

variable {rows : List (UInt64 × UInt32)} {key : UInt64} {rowIdx : UInt32}

def newEntry (hash : UInt64 → UInt64) (table : JoinHashTable)
    (key : UInt64) (rowIdx : UInt32) : JoinEntry :=
  { key := key, rowIdx := rowIdx, next := slotHead (table.slotAt (table.slotOf hash key)) }

theorem slotAt_insert (inDirectory : table.slotOf hash key < table.directory.length) (slot : Nat) :
    (table.insert hash key rowIdx).slotAt slot =
      if slot = table.slotOf hash key then
        packSlot
          (slotTag (table.slotAt (table.slotOf hash key)) ||| bloomTag (hash key))
          (UInt32.ofNat table.len)
      else table.slotAt slot := by
  unfold insert
  conv_lhs => unfold slotAt
  by_cases same : slot = table.slotOf hash key
  · rw [if_pos same, same, getElem?_set_self inDirectory]
    rfl
  · rw [if_neg same, getElem?_set_ne (Ne.symm same)]
    rfl

theorem entries_insert (fits : (UInt32.ofNat table.len).toNat = table.len)
    (stored : table.len ≤ table.entries.length) :
    (table.insert hash key rowIdx).entries[table.len]? = some (table.newEntry hash key rowIdx) ∧
      (∀ i < table.len, (table.insert hash key rowIdx).entries[i]? = table.entries[i]?) ∧
      table.len + 1 ≤ (table.insert hash key rowIdx).entries.length := by
  unfold insert
  simp only [fits]
  by_cases full : table.entries.length ≤ table.len
  · have exact : table.entries.length = table.len := by omega
    rw [if_pos full]
    refine ⟨?_, ?_, ?_⟩
    · rw [← exact, getElem?_concat_length]
      rfl
    · intro i below
      exact getElem?_append_left (by omega)
    · simp [exact]
  · have inside : table.len < table.entries.length := by omega
    rw [if_neg full]
    refine ⟨?_, ?_, ?_⟩
    · exact getElem?_set_self inside
    · intro i below
      exact getElem?_set_ne (by omega)
    · rw [length_set]
      omega

theorem Holds.insert (holds : Holds hash table rows) (room : rows.length + 1 < 2 ^ 32) :
    Holds hash (table.insert hash key rowIdx) (rows ++ [(key, rowIdx)]) := by
  have fits : (UInt32.ofNat table.len).toNat = table.len := by
    rw [UInt32.toNat_ofNat', holds.len]
    exact Nat.mod_eq_of_lt room
  have slotAt := @slotAt_insert hash table key rowIdx (holds.slots key)
  obtain ⟨atEnd, before, stored⟩ := @entries_insert hash table key rowIdx fits holds.stored
  have newLen : (table.insert hash key rowIdx).len = table.len + 1 := rfl
  have sameSlots (other : UInt64) :
      (table.insert hash key rowIdx).slotOf hash other = table.slotOf hash other := rfl
  have keptChain {slot : Nat} {chain : List JoinEntry}
      (isChain : Chain JoinEntry.link table.entries (slotHead (table.slotAt slot)).toNat chain) :
      Chain JoinEntry.link (table.insert hash key rowIdx).entries
        (slotHead (table.slotAt slot)).toNat chain :=
    isChain.congr (holds.heads slot) before
  constructor
  · rw [newLen, holds.len, length_append]
    rfl
  · rw [newLen]
    exact stored
  · intro other
    exact Nat.lt_of_lt_of_eq (holds.slots other) length_set.symm
  · intro slot
    rw [slotAt, newLen]
    split
    · rw [slotHead_packSlot, fits]
      exact Nat.lt_succ_self _
    · exact Nat.lt_succ_of_lt (holds.heads slot)
  · intro slot
    obtain ⟨chain, isChain, contents⟩ := holds.chains slot
    simp only [slotAt, sameSlots, filter_append, reverse_append]
    by_cases same : slot = table.slotOf hash key
    · rw [if_pos same, slotHead_packSlot, fits]
      refine ⟨table.newEntry hash key rowIdx :: chain, ?_, ?_⟩
      · refine .cons atEnd ?_ ?_
        · exact holds.heads (table.slotOf hash key)
        · rw [same] at isChain
          exact keptChain isChain
      · rw [map_cons, contents, filter_singleton, ← same]
        simp [newEntry]
    · have otherSlot : (table.slotOf hash key == slot) = false := beq_false_of_ne (Ne.symm same)
      rw [if_neg same, filter_singleton, otherSlot]
      exact ⟨chain, keptChain isChain, contents⟩
  · rw [forall_mem_append, forall_mem_singleton]
    constructor
    · intro row mem
      rw [sameSlots, slotAt]
      have contained := holds.tags row mem
      split
      · next same =>
        rw [same] at contained
        rw [couldContain, Bool.and_eq_true] at contained
        have covers := coversTag_or_left (bloomTag (hash key)) contained.2
        exact couldContain_packSlot_iff.mpr ⟨ne_zero_of_coversTag covers, covers⟩
      · exact contained
    · rw [sameSlots, slotAt, if_pos rfl]
      have covers :=
        coversTag_or_right (slotTag (table.slotAt (table.slotOf hash key))) (bloomTag (hash key))
      exact couldContain_packSlot_iff.mpr ⟨ne_zero_of_coversTag covers, covers⟩

theorem Holds.insertAll {more : List (UInt64 × UInt32)} (holds : Holds hash table rows)
    (room : rows.length + more.length < 2 ^ 32) :
    Holds hash (table.insertAll hash more) (rows ++ more) := by
  induction more generalizing table rows with
  | nil =>
    rw [append_nil]
    exact holds
  | cons row rest insertsRest =>
    rw [length_cons] at room
    have inserted := @Holds.insert hash table rows row.1 row.2 holds (by omega)
    have all := insertsRest inserted (by
      rw [length_append, length_singleton]
      omega)
    rw [append_assoc, singleton_append] at all
    exact all

end

theorem Holds.probeAll_eq {rows : List (UInt64 × UInt32)}
    (holds : Holds hash table rows) (key : UInt64) :
    table.probeAll hash key =
      some ((rows.filter (fun row => row.1 == key)).reverse.map Prod.snd) := by
  unfold probeAll
  obtain ⟨chain, isChain, contents⟩ := holds.chains (table.slotOf hash key)
  by_cases contained : couldContain (table.slotAt (table.slotOf hash key)) (hash key) = true
  · have below := holds.heads (table.slotOf hash key)
    have walked := isChain.walk_eq (Nat.le_of_lt (Nat.lt_of_lt_of_le below holds.stored))
    have found : (chain.filter (fun entry => entry.key == key)).map JoinEntry.rowIdx =
        ((chain.map (fun entry => (entry.key, entry.rowIdx))).filter
          (fun row => row.1 == key)).map Prod.snd := by
      rw [filter_map, map_map]
      rfl
    have inBucket : ∀ row ∈ rows, (row.1 == key) = true →
        (table.slotOf hash row.1 == table.slotOf hash key) = true := by
      intro row _ isKey
      rw [beq_iff_eq.mp isKey]
      exact beq_self_eq_true _
    rw [if_pos contained, walked, Option.map_some, found, contents,
      filter_reverse, filter_filter]
    congr 3
    apply filter_congr
    intro row mem
    cases isKey : (row.1 == key) with
    | false => rfl
    | true => rw [inBucket row mem isKey]; rfl
  · have absent : rows.filter (fun row => row.1 == key) = [] := by
      rw [filter_eq_nil_iff]
      intro row mem isKey
      have isContained := holds.tags row mem
      rw [beq_iff_eq.mp isKey] at isContained
      exact contained isContained
    rw [if_neg contained, absent]
    rfl

theorem probe_of_probeAll {key : UInt64} {found : List UInt32}
    (probed : table.probeAll hash key = some found) : table.probe hash key = some found.head? := by
  unfold probeAll at probed
  unfold probe
  simp only at probed ⊢
  split at probed
  · next contained =>
    obtain ⟨chain, walked, rfl⟩ := Option.map_eq_some_iff.mp probed
    rw [if_pos contained, seek_of_walk walked, head?_map, head?_filter]
    rfl
  · next absent =>
    cases probed
    rw [if_neg absent]
    rfl

/-- The table is a multimap: a probe returns the rows that were inserted
with its key, the last one first. -/
theorem probe_returns_inserted (hash : UInt64 → UInt64) (expected : Nat)
    {rows : List (UInt64 × UInt32)} (few : rows.length < 2 ^ 32 - 1) (key : UInt64) :
    ((new expected).insertAll hash rows).probeAll hash key =
        some ((rows.reverse.filter (fun row => row.1 == key)).map Prod.snd) ∧
      ((new expected).insertAll hash rows).probe hash key =
        some ((rows.reverse.find? (fun row => row.1 == key)).map Prod.snd) := by
  have holds := @Holds.insertAll hash (new expected) [] rows (holds_new hash expected) (by
    rw [length_nil]
    omega)
  have probed := holds.probeAll_eq key
  rw [nil_append, ← filter_reverse] at probed
  refine ⟨probed, ?_⟩
  rw [probe_of_probeAll probed, head?_map, head?_filter]

theorem probe_returns_inserted_last :
    ((new 0).insertAll id [(7, 1), (8, 2), (7, 3)]).probeAll id 7 = some [3, 1] ∧
      ((new 0).insertAll id [(7, 1), (8, 2), (7, 3)]).probe id 7 = some (some 3) :=
  probe_returns_inserted id 0 (by decide) 7

end

end JoinHashTable

end TurboGP.Exec
