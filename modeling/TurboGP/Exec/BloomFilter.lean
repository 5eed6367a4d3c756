import Mathlib.Data.BitVec

/-!
# The bloom filter of the joins

`exec/bloom_filter.rs`.  The CRC instruction is a parameter, and the AVX-512
instructions act lane by lane.
-/

namespace TurboGP.Exec

open List

abbrev Word := BitVec 64

/-- The mask keeps the indices of words inside the bits. -/
structure BloomBits where
  bits : List Word
  wordMask : Nat
  masked : wordMask < bits.length

structure BloomFilter extends BloomBits where
  numHashes : Nat
  numItems : Nat

def mix64 (z : Word) : Word :=
  let z := z + 0x9E3779B97F4A7C15#64
  let z := (z ^^^ z >>> 30) * 0xBF58476D1CE4E5B9#64
  let z := (z ^^^ z >>> 27) * 0x94D049BB133111EB#64
  z ^^^ z >>> 31

def hashPair (crc32 : Word → Word → Word) (key : Word) : Word × Word :=
  (mix64 (crc32 0 key), mix64 (crc32 (~~~0#64) key) ||| 1#64)

def bitsFrom (step : Word) : Nat → Word → List Word
  | 0, _ => []
  | more + 1, bit => bit :: bitsFrom step more (bit + step)

/-- The bits that the loops over the hash functions go through. -/
def bitsOf (crc32 : Word → Word → Word) (numHashes : Nat) (key : Word) : List Word :=
  bitsFrom (hashPair crc32 key).2 numHashes (hashPair crc32 key).1

namespace BloomBits

def wordIdx (filter : BloomBits) (bitIdx : Word) : Nat :=
  (bitIdx.toNat >>> 6) &&& filter.wordMask

def wordAt (filter : BloomBits) (bitIdx : Word) : Word :=
  filter.bits.getD (filter.wordIdx bitIdx) 0#64

def setBit (filter : BloomBits) (bitIdx : Word) : BloomBits where
  bits := filter.bits.modify (filter.wordIdx bitIdx) (· ||| 1#64 <<< (bitIdx &&& 63#64))
  wordMask := filter.wordMask
  masked := by
    rw [length_modify]
    exact filter.masked

def testBit (filter : BloomBits) (bitIdx : Word) : Bool :=
  filter.wordAt bitIdx >>> (bitIdx &&& 63#64) &&& 1#64 != 0#64

/-- The loop of `might_contain_batch`; lanes whose bit is not set are cleared
from the mask. -/
def clearLanes (step : Fin 8 → Word) (filter : BloomBits) :
    Nat → (Fin 8 → Word) → (Fin 8 → Bool) → Fin 8 → Bool
  | 0, _, mask => mask
  | more + 1, bit, mask =>
    let notSet i := filter.wordAt (bit i) &&& 1#64 <<< (bit i &&& 63#64) == 0#64
    clearLanes step filter more (fun i => bit i + step i) (fun i => mask i && !notSet i)

end BloomBits

namespace BloomFilter

/-- The size is computed in machine words. -/
def new (expectedItems : Nat) : BloomFilter :=
  let minWords := (expectedItems * 10 + 63) % 2 ^ 64 / 64
  let nwords := (max minWords 1).nextPowerOfTwo
  { bits := replicate nwords 0#64
    wordMask := nwords - 1
    masked := by
      have pos := Nat.pos_of_isPowerOfTwo (Nat.isPowerOfTwo_nextPowerOfTwo (max minWords 1))
      rw [length_replicate]
      omega
    numHashes := 3
    numItems := 0 }

def withHashes (expectedItems numHashes : Nat) : BloomFilter :=
  { new expectedItems with numHashes := min (max numHashes 1) 7 }

variable (crc32 : Word → Word → Word)

def insert (filter : BloomFilter) (key : Word) : BloomFilter :=
  { (bitsOf crc32 filter.numHashes key).foldl BloomBits.setBit filter.toBloomBits with
    numHashes := filter.numHashes
    numItems := filter.numItems + 1 }

/-- A lane with a key of an earlier lane has a conflict there and is skipped. -/
def insertLanes : List Word → List Word → BloomFilter → BloomFilter
  | _, [], filter => filter
  | earlier, key :: lanes, filter =>
    insertLanes (key :: earlier) lanes (if key ∈ earlier then filter else filter.insert crc32 key)

def insertBatch (filter : BloomFilter) (keys : List Word) : BloomFilter :=
  if keys = [] then filter
  else insertBatch (filter.insertLanes crc32 [] (keys.take 8)) (keys.drop 8)
termination_by keys.length
decreasing_by
  rename_i nonempty
  have pos := length_pos_iff.mpr nonempty
  rw [length_drop]
  omega

def mightContain (filter : BloomFilter) (key : Word) : Bool :=
  (bitsOf crc32 filter.numHashes key).all filter.testBit

/-- The bits of the mask that is returned. -/
def mightContainBatch (filter : BloomFilter) (keys : Fin 8 → Word) : Fin 8 → Bool :=
  filter.clearLanes (fun i => (hashPair crc32 (keys i)).2) filter.numHashes
    (fun i => (hashPair crc32 (keys i)).1) (fun _ => true)

end BloomFilter

namespace BloomBits

theorem shift_lt (bitIdx : Word) : (bitIdx &&& 63#64).toNat < 64 := by
  rw [BitVec.toNat_and]
  exact Nat.lt_succ_of_le Nat.and_le_right

theorem testBit_eq (filter : BloomBits) (bitIdx : Word) : filter.testBit bitIdx =
    (filter.wordAt bitIdx).getLsbD (bitIdx &&& 63#64).toNat := by
  rw [testBit, BitVec.and_one_eq_setWidth_ofBool_getLsbD, BitVec.ushiftRight_eq',
    BitVec.getLsbD_ushiftRight, Nat.add_zero]
  cases BitVec.getLsbD _ _ <;> rfl

theorem getLsbD_one_shift (bit other : Word) :
    (1#64 <<< (bit &&& 63#64)).getLsbD (other &&& 63#64).toNat = true ↔
      bit &&& 63#64 = other &&& 63#64 := by
  have inside := shift_lt bit
  rw [BitVec.shiftLeft_eq', ← BitVec.twoPow_eq, BitVec.getLsbD_twoPow, ← BitVec.toNat_inj]
  simp only [inside, decide_true, Bool.true_and, decide_eq_true_eq]

theorem notSet_eq (filter : BloomBits) (bitIdx : Word) :
    (filter.wordAt bitIdx &&& 1#64 <<< (bitIdx &&& 63#64) == 0#64) = !filter.testBit bitIdx := by
  rw [testBit_eq, BitVec.shiftLeft_eq', ← BitVec.twoPow_eq, BitVec.and_twoPow]
  have inside := shift_lt bitIdx
  generalize (bitIdx &&& 63#64).toNat = shift at inside ⊢
  cases (filter.wordAt bitIdx).getLsbD shift with
  | false => rfl
  | true =>
    refine beq_eq_false_iff_ne.mpr fun zero => ?_
    have bits := congrArg (·.getLsbD shift) zero
    simp [inside] at bits

def SamePlace (filter : BloomBits) (bit other : Word) : Prop :=
  filter.wordIdx bit = filter.wordIdx other ∧ bit &&& 63#64 = other &&& 63#64

theorem testBit_setBit (filter : BloomBits) (bit other : Word) :
    (filter.setBit bit).testBit other = true ↔
      filter.testBit other = true ∨ filter.SamePlace bit other := by
  have inside : filter.wordIdx other < filter.bits.length :=
    Nat.lt_of_le_of_lt Nat.and_le_right filter.masked
  have word : (filter.setBit bit).wordAt other =
      if filter.wordIdx bit = filter.wordIdx other then
        filter.wordAt other ||| 1#64 <<< (bit &&& 63#64)
      else filter.wordAt other := by
    show (filter.bits.modify (filter.wordIdx bit) _).getD (filter.wordIdx other) 0#64 = _
    simp only [wordAt, getD_eq_getElem?_getD, getElem?_modify, getElem?_eq_getElem inside]
    split <;> rfl
  rw [testBit_eq, testBit_eq, word, SamePlace]
  split
  · next same => simp only [BitVec.getLsbD_or, Bool.or_eq_true, getLsbD_one_shift, same, true_and]
  · next differ => simp only [differ, false_and, or_false]

theorem testBit_foldl_setBit (places : List Word) (filter : BloomBits) :
    (places.foldl setBit filter).wordMask = filter.wordMask ∧
      ∀ other, (places.foldl setBit filter).testBit other = true ↔
        filter.testBit other = true ∨ ∃ bit ∈ places, filter.SamePlace bit other := by
  induction places generalizing filter with
  | nil => simp
  | cons bit places ih =>
    obtain ⟨mask, bits⟩ := ih (filter.setBit bit)
    refine ⟨mask, fun other => ?_⟩
    rw [foldl_cons, bits, testBit_setBit, exists_mem_cons_iff, or_assoc]
    rfl

theorem clearLanes_eq (filter : BloomBits) (step : Fin 8 → Word) (count : Nat)
    (bit : Fin 8 → Word) (mask : Fin 8 → Bool) (i : Fin 8) :
    filter.clearLanes step count bit mask i =
      (mask i && (bitsFrom (step i) count (bit i)).all filter.testBit) := by
  induction count generalizing bit mask with
  | zero => simp [clearLanes, bitsFrom]
  | succ more ih =>
    simp only [clearLanes, notSet_eq, bitsFrom, all_cons, ih, Bool.not_not, Bool.and_assoc]

end BloomBits

inductive BloomCall
  | insert (key : Word)
  | insertBatch (keys : List Word)

def BloomCall.keys : BloomCall → List Word
  | .insert key => [key]
  | .insertBatch keys => keys

namespace BloomFilter

variable (crc32 : Word → Word → Word)

def call (filter : BloomFilter) : BloomCall → BloomFilter
  | .insert key => filter.insert crc32 key
  | .insertBatch keys => filter.insertBatch crc32 keys

/-- The bits of these keys, and no others, were set. -/
structure Adds (old : BloomFilter) (keys : List Word) (new : BloomFilter) : Prop where
  numHashes : new.numHashes = old.numHashes
  wordMask : new.wordMask = old.wordMask
  bits : ∀ other, new.testBit other = true ↔ old.testBit other = true ∨
    ∃ key ∈ keys, ∃ bit ∈ bitsOf crc32 old.numHashes key, old.SamePlace bit other

variable {crc32} {old middle new : BloomFilter} {first second : List Word}

theorem Adds.nil (filter : BloomFilter) : filter.Adds crc32 [] filter :=
  ⟨rfl, rfl, by simp⟩

theorem Adds.append (before : old.Adds crc32 first middle) (after : middle.Adds crc32 second new) :
    old.Adds crc32 (first ++ second) new := by
  refine ⟨after.numHashes.trans before.numHashes, after.wordMask.trans before.wordMask, ?_⟩
  intro other
  rw [after.bits, before.bits, or_assoc, before.numHashes]
  simp only [BloomBits.SamePlace, BloomBits.wordIdx, before.wordMask, mem_append, or_and_right,
    exists_or]

theorem Adds.congr (adds : old.Adds crc32 first new)
    (same : ∀ key, key ∈ first ↔ key ∈ second) : old.Adds crc32 second new :=
  ⟨adds.numHashes, adds.wordMask, by simpa only [same] using adds.bits⟩

theorem adds_insert (filter : BloomFilter) (key : Word) :
    filter.Adds crc32 [key] (filter.insert crc32 key) := by
  have set := BloomBits.testBit_foldl_setBit (bitsOf crc32 filter.numHashes key) filter.toBloomBits
  refine ⟨rfl, set.1, fun other => (set.2 other).trans ?_⟩
  simp

/-- The keys that are not skipped are, with the earlier ones, all keys. -/
theorem adds_insertLanes (earlier lanes : List Word) (filter : BloomFilter) :
    ∃ keys, filter.Adds crc32 keys (filter.insertLanes crc32 earlier lanes) ∧
      ∀ key, key ∈ keys ∨ key ∈ earlier ↔ key ∈ lanes ∨ key ∈ earlier := by
  induction lanes generalizing earlier filter with
  | nil => exact ⟨[], .nil filter, by simp⟩
  | cons key lanes ih =>
    rw [insertLanes]
    split
    · obtain ⟨keys, adds, same⟩ := ih (key :: earlier) filter
      exact ⟨keys, adds, by grind⟩
    · obtain ⟨keys, adds, same⟩ := ih (key :: earlier) (filter.insert crc32 key)
      exact ⟨[key] ++ keys, (adds_insert filter key).append adds, by grind⟩

theorem adds_insertBatch (filter : BloomFilter) (keys : List Word) :
    filter.Adds crc32 keys (filter.insertBatch crc32 keys) := by
  fun_induction insertBatch crc32 filter keys with
  | case1 filter => exact .nil filter
  | case2 filter keys _ ih =>
    obtain ⟨inserted, adds, same⟩ := @adds_insertLanes crc32 [] (keys.take 8) filter
    have all := (adds.congr (by simpa using same)).append ih
    rwa [take_append_drop] at all

theorem adds_foldl_call (filter : BloomFilter) (calls : List BloomCall) :
    filter.Adds crc32 (calls.flatMap BloomCall.keys) (calls.foldl (call crc32) filter) := by
  induction calls generalizing filter with
  | nil => exact .nil filter
  | cons first calls ih =>
    rw [flatMap_cons]
    refine .append ?_ (ih (filter.call crc32 first))
    cases first with
    | insert key => exact adds_insert filter key
    | insertBatch keys => exact adds_insertBatch filter keys

theorem adds_foldl_insert (filter : BloomFilter) (keys : List Word) :
    filter.Adds crc32 keys (keys.foldl (insert crc32) filter) := by
  have adds := @adds_foldl_call crc32 filter (keys.map .insert)
  rw [foldl_map, flatMap_map] at adds
  exact adds.congr (by simp [BloomCall.keys])

/-- No inserted key is missed, and batches set and test the bits of their keys. -/
theorem bloom_filter_contains (crc32 : Word → Word → Word) (expectedItems numHashes : Nat)
    (calls : List BloomCall) :
    let filter := calls.foldl (call crc32) (withHashes expectedItems numHashes)
    (∀ key ∈ calls.flatMap BloomCall.keys, filter.mightContain crc32 key = true) ∧
      (∀ keys bit, (filter.insertBatch crc32 keys).testBit bit =
        (keys.foldl (insert crc32) filter).testBit bit) ∧
      ∀ keys i, filter.mightContainBatch crc32 keys i = filter.mightContain crc32 (keys i) := by
  refine ⟨fun key mem => ?_, fun keys bit => ?_, fun keys i => ?_⟩
  · have adds := @adds_foldl_call crc32 (withHashes expectedItems numHashes) calls
    rw [mightContain, all_eq_true, adds.numHashes]
    intro bit isBit
    exact (adds.bits bit).mpr (.inr ⟨key, mem, bit, isBit, rfl, rfl⟩)
  · rw [Bool.eq_iff_iff, (adds_insertBatch _ keys).bits, (adds_foldl_insert _ keys).bits]
  · rw [mightContainBatch, BloomBits.clearLanes_eq, Bool.true_and]
    rfl

/-- A key is reported exactly if each of its bits is one of an inserted key. -/
theorem mightContain_iff (crc32 : Word → Word → Word) (expectedItems numHashes : Nat)
    (calls : List BloomCall) (key : Word) :
    let empty := withHashes expectedItems numHashes
    (calls.foldl (call crc32) empty).mightContain crc32 key = true ↔
      ∀ bit ∈ bitsOf crc32 empty.numHashes key, ∃ inserted ∈ calls.flatMap BloomCall.keys,
        ∃ other ∈ bitsOf crc32 empty.numHashes inserted, empty.SamePlace other bit := by
  intro empty
  have adds := @adds_foldl_call crc32 empty calls
  have nothing : ∀ bit, empty.testBit bit = false := by
    intro bit
    have word : empty.wordAt bit = 0#64 := by
      show (replicate _ 0#64).getD _ _ = _
      grind
    simp [BloomBits.testBit, word]
  simp only [mightContain, all_eq_true, adds.numHashes, adds.bits, nothing, Bool.false_eq_true,
    false_or]

end BloomFilter

end TurboGP.Exec
