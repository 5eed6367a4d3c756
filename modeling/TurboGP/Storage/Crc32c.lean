import TurboGP.Storage.PageRepair

/-!
# The checksum in hardware

`crc32c_sse42` of `storage/page.rs`: words of eight bytes, then a tail of
shorter words.  `computeCrc32c` is the loop of `crc32c_scalar`.
-/

namespace TurboGP.Storage

open ShiftRegister

/-- The instruction `CRC32` as its manual has it: the word, reflected, is put
in front of 32 zeros, the reflected checksum is added at the front, and the
remainder of this by the polynomial is reflected again. -/
def crc32Instruction {w : Nat} (crc : BitVec 32) (word : BitVec w) : BitVec 32 :=
  let polynomial := BitVec.ofNat (32 + w) 0x11EDC6F41
  let dividend :=
    (word.reverse.setWidth (32 + w) <<< 32) ^^^ (crc.reverse.setWidth (32 + w) <<< w)
  ((remainder polynomial 32 w dividend).setWidth 32).reverse

/-- Only the low half of `crc` is read, and only that of the result is set. -/
def mmCrc32U64 (crc word : UInt64) : UInt64 :=
  ⟨(crc32Instruction (crc.toBitVec.setWidth 32) word.toBitVec).setWidth 64⟩

def mmCrc32U32 (crc word : UInt32) : UInt32 := ⟨crc32Instruction crc.toBitVec word.toBitVec⟩

def mmCrc32U16 (crc : UInt32) (word : UInt16) : UInt32 :=
  ⟨crc32Instruction crc.toBitVec word.toBitVec⟩

def mmCrc32U8 (crc : UInt32) (byte : UInt8) : UInt32 :=
  ⟨crc32Instruction crc.toBitVec byte.toBitVec⟩

/-- The steps of two bytes and the last byte. -/
def crcTwos (crc : UInt32) : List UInt8 → UInt32
  | a :: b :: rest => crcTwos (mmCrc32U16 crc (fromLeBytes [a, b]).toUInt16) rest
  | [byte] => mmCrc32U8 crc byte
  | [] => crc

/-- The tail, in steps of four bytes first. -/
def crcFours (crc : UInt32) : List UInt8 → UInt32
  | a :: b :: c :: d :: rest => crcFours (mmCrc32U32 crc (fromLeBytes [a, b, c, d]).toUInt32) rest
  | tail => crcTwos crc tail

/-- The loop over `chunks_exact(8)`, and what follows it. -/
def crcChunks (crc : UInt64) : List UInt8 → UInt32
  | a :: b :: c :: d :: e :: f :: g :: h :: rest =>
    crcChunks (mmCrc32U64 crc (fromLeBytes [a, b, c, d, e, f, g, h])) rest
  | tail => crcFours crc.toUInt32 tail

def crc32cSse42 (cells : List UInt8) : UInt32 := crcChunks 0xFFFFFFFF cells ^^^ 0xFFFFFFFF

/-! ## The instruction as a shift register -/

theorem tapsOf_polynomial (w : Nat) : TapsOf 32 (BitVec.ofNat (32 + w) 0x11EDC6F41)
    (crc32cPolyReversed.toBitVec.setWidth (32 + w)) := by
  have low : ∀ i < 32, crc32cPolyReversed.toBitVec.getLsbD i =
      Nat.testBit 0x11EDC6F41 (32 - 1 - i) := by decide
  intro i
  rw [BitVec.getLsbD_setWidth, BitVec.getLsbD_ofNat]
  by_cases inside : i < 32
  · rw [low i inside, decide_eq_true inside, decide_eq_true (by omega : i < 32 + w),
      decide_eq_true (by omega : 32 - 1 - i < 32 + w), Bool.true_and, Bool.true_and]
  · rw [BitVec.getLsbD_of_ge _ _ (by omega)]
    simp [inside]

theorem reverse_dividend {w : Nat} (crc : BitVec 32) (word : BitVec w) :
    ((word.reverse.setWidth (32 + w) <<< 32) ^^^
        (crc.reverse.setWidth (32 + w) <<< w)).reverse =
      crc.setWidth (32 + w) ^^^ word.setWidth (32 + w) := by
  have mirrored {m k : Nat} (x : BitVec m) {i : Nat} (inside : i < m + k) :
      (x.reverse.setWidth (m + k) <<< k).getLsbD (m + k - 1 - i) = x.getLsbD i := by
    rw [BitVec.getLsbD_shiftLeft, BitVec.getLsbD_setWidth, BitVec.getLsbD_reverse,
      BitVec.getMsbD_eq_getLsbD]
    by_cases held : i < m
    · simp [show m + k - 1 - i < m + k by omega, show ¬ m + k - 1 - i < k by omega,
        show m + k - 1 - i - k < m + k by omega, show m + k - 1 - i - k < m by omega,
        show m - 1 - (m + k - 1 - i - k) = i by omega]
    · rw [BitVec.getLsbD_of_ge x i (by omega)]
      simp [show m + k - 1 - i < k by omega]
  refine BitVec.eq_of_getLsbD_eq fun i inside => ?_
  have ofWord := @mirrored w 32 word i (by omega)
  have ofCrc := @mirrored 32 w crc i inside
  rw [Nat.add_comm w 32] at ofWord
  rw [BitVec.getLsbD_reverse, BitVec.getMsbD_eq_getLsbD, BitVec.getLsbD_xor, ofWord, ofCrc]
  simp [inside, Bool.xor_comm]

/-- The instruction takes the bits of the word into the register one by one. -/
theorem crc32Instruction_eq_feed {w : Nat} (crc : BitVec 32) (word : BitVec w) :
    crc32Instruction crc word =
      feed crc32cPolyReversed.toBitVec crc ((List.range w).map word.getLsbD) := by
  unfold crc32Instruction
  rw [reverse_setWidth_remainder (tapsOf_polynomial w) _ rfl, reverse_dividend,
    iterate_step_setWidth _ (by omega), ← setWidth_feed _ (by decide) (by omega),
    BitVec.setWidth_setWidth_of_le _ (by omega),
    BitVec.setWidth_eq]

/-! ## The bytes of a word -/

theorem bits_fromLeBytes {bytes : List UInt8} (short : bytes.length ≤ 8) :
    (List.range (8 * bytes.length)).map (fromLeBytes bytes).toBitVec.getLsbD =
      bytes.flatMap fun byte => (List.range 8).map byte.toBitVec.getLsbD := by
  have places : ∀ bytes : List UInt8,
      (List.range (8 * bytes.length)).map
          (fun i => ((bytes[i / 8]?).getD 0).toBitVec.getLsbD (i % 8)) =
        bytes.flatMap fun byte => (List.range 8).map byte.toBitVec.getLsbD := by
    intro bytes
    induction bytes with
    | nil => rfl
    | cons byte rest ih =>
      rw [List.length_cons, Nat.mul_succ, Nat.add_comm, List.range_add, List.map_append,
        List.flatMap_cons, ← ih, List.map_map]
      apply congrArg₂ (· ++ ·)
      · refine List.map_congr_left fun i mem => ?_
        have inByte := List.mem_range.mp mem
        rw [Nat.div_eq_of_lt inByte, Nat.mod_eq_of_lt inByte]
        rfl
      · refine List.map_congr_left fun i _ => ?_
        rw [Function.comp, show (8 + i) / 8 = i / 8 + 1 by omega, Nat.add_mod_left,
          List.getElem?_cons_succ]
  rw [← places]
  refine List.map_congr_left fun i mem => ?_
  have inside := List.mem_range.mp mem
  exact getLsbD_fromLeBytes bytes i (by omega)

theorem toBitVec_foldl_crcByte (bytes : List UInt8) (crc : UInt32) :
    (bytes.foldl crcByte crc).toBitVec = feed crc32cPolyReversed.toBitVec crc.toBitVec
        (bytes.flatMap fun byte => (List.range 8).map byte.toBitVec.getLsbD) := by
  induction bytes generalizing crc with
  | nil => rfl
  | cons byte rest ih =>
    rw [List.foldl_cons, ih, toBitVec_crcByte, absorb, UInt8.toBitVec_toUInt32,
      iterate_step_setWidth _ (by decide), List.flatMap_cons]
    exact List.foldl_append.symm

/-- The instruction on a word of bytes is the loop over these bytes. -/
theorem crc32Instruction_bytes {bytes : List UInt8} (short : bytes.length ≤ 8) (crc : UInt32) :
    crc32Instruction crc.toBitVec ((fromLeBytes bytes).toBitVec.setWidth (8 * bytes.length)) =
      (bytes.foldl crcByte crc).toBitVec := by
  rw [crc32Instruction_eq_feed, toBitVec_foldl_crcByte, ← bits_fromLeBytes short]
  apply congrArg
  refine List.map_congr_left fun i mem => ?_
  rw [BitVec.getLsbD_setWidth, decide_eq_true (List.mem_range.mp mem), Bool.true_and]

/-! ## The loops -/

theorem crcTwos_eq (crc : UInt32) (cells : List UInt8) :
    crcTwos crc cells = cells.foldl crcByte crc := by
  fun_induction crcTwos crc cells with
  | case1 crc a b rest ih =>
    rw [ih]
    apply congrArg (List.foldl crcByte · rest)
    exact UInt32.toBitVec_inj.mp (@crc32Instruction_bytes [a, b] (by simp) crc)
  | case2 crc byte =>
    have word := @crc32Instruction_bytes [byte] (by simp) crc
    have same : (fromLeBytes [byte]).toBitVec.setWidth (8 * [byte].length) = byte.toBitVec := by
      simp [fromLeBytes]
    rw [same] at word
    exact UInt32.toBitVec_inj.mp word
  | case3 => rfl

theorem crcFours_eq (crc : UInt32) (cells : List UInt8) :
    crcFours crc cells = cells.foldl crcByte crc := by
  fun_induction crcFours crc cells with
  | case1 crc a b c d rest ih =>
    rw [ih]
    apply congrArg (List.foldl crcByte · rest)
    exact UInt32.toBitVec_inj.mp (@crc32Instruction_bytes [a, b, c, d] (by simp) crc)
  | case2 crc tail => exact crcTwos_eq crc tail

theorem crcChunks_eq (crc : UInt64) (cells : List UInt8) :
    crcChunks crc cells = cells.foldl crcByte crc.toUInt32 := by
  fun_induction crcChunks crc cells with
  | case1 crc a b c d e f g h rest ih =>
    have word := @crc32Instruction_bytes [a, b, c, d, e, f, g, h] (by simp) crc.toUInt32
    have low : ∀ next : BitVec 32, (⟨next.setWidth 64⟩ : UInt64).toUInt32.toBitVec = next := by
      intro next
      rw [UInt64.toBitVec_toUInt32]
      simp
    rw [ih]
    apply congrArg (List.foldl crcByte · rest)
    apply UInt32.toBitVec_inj.mp
    refine Eq.trans (low _) (Eq.trans ?_ word)
    rw [UInt64.toBitVec_toUInt32]
    exact congrArg _ (BitVec.setWidth_eq _).symm
  | case2 crc tail => exact crcFours_eq crc.toUInt32 tail

/-- Both checksums agree on every string of bytes. -/
theorem crc32cSse42_eq (cells : List UInt8) : crc32cSse42 cells = computeCrc32c cells := by
  unfold crc32cSse42 computeCrc32c
  rw [crcChunks_eq]
  rfl

/-- The check value of the tests, for `123456789`. -/
example : crc32cSse42 [49, 50, 51, 52, 53, 54, 55, 56, 57] = 0xE3069283 := by decide +kernel

end TurboGP.Storage
