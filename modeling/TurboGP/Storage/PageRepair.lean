import TurboGP.Storage.Page

/-! # Repair of a flipped bit -/

namespace TurboGP.Storage

open ShiftRegister Effect Function List

theorem toBitVec_crcRound (crc : UInt32) :
    (crcRound crc).toBitVec = step crc32cPolyReversed.toBitVec crc.toBitVec := by
  have mask : 0#32 - (crc.toBitVec &&& 1#32) =
        if crc.toBitVec.getLsbD 0 then BitVec.allOnes 32 else 0#32 := by
    rw [BitVec.and_one_eq_setWidth_ofBool_getLsbD]
    cases crc.toBitVec.getLsbD 0 <;> rfl
  unfold crcRound step
  rw [UInt32.toBitVec_xor, UInt32.toBitVec_and, UInt32.toBitVec_sub,
    UInt32.toBitVec_and, UInt32.toBitVec_shiftRight]
  show (crc.toBitVec >>> 1) ^^^
    (crc32cPolyReversed.toBitVec &&& (0#32 - (crc.toBitVec &&& 1#32))) = _
  rw [mask]
  cases crc.toBitVec.getLsbD 0 with
  | false => simp
  | true => rw [if_pos rfl, if_pos rfl, BitVec.and_allOnes]

theorem toBitVec_crcByte (crc : UInt32) (byte : UInt8) : (crcByte crc byte).toBitVec =
      absorb crc32cPolyReversed.toBitVec 8 crc.toBitVec byte.toUInt32.toBitVec := by
  have rounds : ∀ (count : Nat) (reg : UInt32), (crcRound^[count] reg).toBitVec =
        (step crc32cPolyReversed.toBitVec)^[count] reg.toBitVec := by
    intro count
    induction count with
    | zero => exact fun _ => rfl
    | succ count ih =>
      intro reg
      rw [iterate_succ_apply, iterate_succ_apply, ih, toBitVec_crcRound]
  unfold crcByte absorb
  rw [rounds, UInt32.toBitVec_xor]

def crcInputs (cells : List UInt8) : List (BitVec 32) :=
  cells.map (fun byte => byte.toUInt32.toBitVec)

theorem toBitVec_computeCrc32c (cells : List UInt8) : (computeCrc32c cells).toBitVec =
      absorbAll crc32cPolyReversed.toBitVec 8 (crcInputs cells)
        0xFFFFFFFF#32 ^^^ 0xFFFFFFFF#32 := by
  have folded : ∀ crc : UInt32, (cells.foldl crcByte crc).toBitVec =
        absorbAll crc32cPolyReversed.toBitVec 8 (crcInputs cells) crc.toBitVec := by
    induction cells with
    | nil => exact fun _ => rfl
    | cons byte rest ih =>
      intro crc
      rw [foldl_cons, ih, toBitVec_crcByte]
      rfl
  unfold computeCrc32c
  rw [UInt32.toBitVec_xor, folded]
  rfl

def crcChange (length byteIdx : Nat) (mask : UInt8) : BitVec 32 :=
  (step crc32cPolyReversed.toBitVec)^[8 * (length - byteIdx)] mask.toUInt32.toBitVec

variable {cells : List UInt8} {byteIdx bit : Nat}

theorem toBitVec_computeCrc32c_modify (inside : byteIdx < cells.length) (mask : UInt8) :
    (computeCrc32c (cells.modify byteIdx (· ^^^ mask))).toBitVec =
      (computeCrc32c cells).toBitVec ^^^ crcChange cells.length byteIdx mask := by
  have inputs : crcInputs (cells.modify byteIdx (· ^^^ mask)) =
      (crcInputs cells).modify byteIdx (· ^^^ mask.toUInt32.toBitVec) := by
    unfold crcInputs
    refine ext_getElem? fun i => ?_
    rw [List.getElem?_map, List.getElem?_modify, List.getElem?_modify, List.getElem?_map]
    cases cells[i]? with
    | none => rfl
    | some byte =>
      by_cases here : byteIdx = i
      · simp [here]
      · simp [here]
  have length : (crcInputs cells).length = cells.length := length_map _
  rw [toBitVec_computeCrc32c, toBitVec_computeCrc32c, inputs,
    absorbAll_modify _ _ _ (length.symm ▸ inside), length]
  unfold crcChange
  rw [BitVec.xor_assoc, BitVec.xor_comm _ 0xFFFFFFFF#32, ← BitVec.xor_assoc]

def bitMask (bit : Nat) : UInt8 := 1 <<< UInt8.ofNat bit

theorem toBitVec_bitMask (inByte : bit < 8) :
    (bitMask bit).toUInt32.toBitVec = BitVec.twoPow 32 bit := by
  have eachBit : ∀ bit < 8, (bitMask bit).toUInt32.toBitVec = BitVec.twoPow 32 bit := by
    decide
  exact eachBit bit inByte

theorem polynomial_top : crc32cPolyReversed.toBitVec.getLsbD (32 - 1) = true := by
  decide

theorem crcChange_ne_zero (length byteIdx : Nat) (inByte : bit < 8) :
    crcChange length byteIdx (bitMask bit) ≠ 0#32 := by
  refine iterate_step_ne_zero _ polynomial_top _ ?_
  rw [toBitVec_bitMask inByte]
  have eachBit : ∀ bit < 8, BitVec.twoPow 32 bit ≠ 0#32 := by
    decide
  exact eachBit bit inByte

/-- The register of a single bit does not come back to it within a page. -/
theorem register_no_return {distance : Nat} (pos : 0 < distance) (within : distance < 504) :
    (step crc32cPolyReversed.toBitVec)^[64 * distance]
        (BitVec.twoPow 32 0) ≠ BitVec.twoPow 32 0 := by
  refine @iterate_step_ne_of_avoids 32 crc32cPolyReversed.toBitVec 64 503 _ ?_
    distance pos (by omega)
  decide +kernel

variable {first second pos : Nat}

theorem crcChange_ne_of_lt (less : first < second) (inside : second < 4032)
    (samePlace : first % 8 = second % 8) (inByte : bit < 8) :
    crcChange 4032 first (bitMask bit) ≠ crcChange 4032 second (bitMask bit) := by
  intro same
  unfold crcChange at same
  rw [toBitVec_bitMask inByte] at same
  have distance : 8 * (4032 - first) = 8 * (4032 - second) + 64 * (second / 8 - first / 8) := by
    omega
  rw [distance, iterate_add_apply] at same
  have back := (step_injective _ polynomial_top).iterate _ same
  -- Moved down to the lowest place, the bit would come back as well.
  refine @register_no_return (second / 8 - first / 8) (by omega) (by omega) ?_
  rw [← iterate_step_twoPow crc32cPolyReversed.toBitVec (show bit < 32 by omega)]
  rw [← iterate_add_apply, Nat.add_comm, iterate_add_apply, back]

theorem crcChange_ne (ne : first ≠ second)
    (firstInside : first < 4032) (secondInside : second < 4032)
    (samePlace : first % 8 = second % 8) (inByte : bit < 8) :
    crcChange 4032 first (bitMask bit) ≠ crcChange 4032 second (bitMask bit) := by
  rcases Nat.lt_or_gt_of_ne ne with less | greater
  · exact crcChange_ne_of_lt less secondInside samePlace inByte
  · exact (crcChange_ne_of_lt greater firstInside samePlace.symm inByte).symm

theorem fromLeBytes_modify {bytes : List UInt8} (inside : pos < bytes.length) (mask : UInt8) :
    (fromLeBytes (bytes.modify pos (· ^^^ mask))).toBitVec =
      (fromLeBytes bytes).toBitVec ^^^ mask.toUInt64.toBitVec <<< (8 * pos) := by
  induction bytes generalizing pos with
  | nil => simp at inside
  | cons byte rest ih =>
    have isCons : ∀ (first : UInt8) (others : List UInt8),
        (fromLeBytes (first :: others)).toBitVec =
          ((fromLeBytes others).toBitVec <<< 8) ^^^ first.toUInt64.toBitVec := by
      intro first others
      rfl
    cases pos with
    | zero =>
      rw [modify_zero_cons, isCons, isCons, UInt8.toUInt64_xor,
        UInt64.toBitVec_xor, BitVec.xor_assoc]
      simp
    | succ pos =>
      rw [modify_succ_cons, isCons, isCons, ih (Nat.lt_of_succ_lt_succ inside),
        BitVec.shiftLeft_xor_distrib, ← BitVec.shiftLeft_add, BitVec.xor_assoc,
        BitVec.xor_comm (mask.toUInt64.toBitVec <<< _), ← BitVec.xor_assoc, Nat.mul_succ]

theorem foldl_xor_modify {words : List UInt64}
    (inside : pos < words.length) (start change : UInt64) :
    (words.modify pos (· ^^^ change)).foldl (· ^^^ ·) start =
      words.foldl (· ^^^ ·) start ^^^ change := by
  have moved : ∀ (others : List UInt64) (start : UInt64),
      others.foldl (· ^^^ ·) (start ^^^ change) = others.foldl (· ^^^ ·) start ^^^ change := by
    intro others
    induction others with
    | nil => exact fun _ => rfl
    | cons word rest ih =>
      intro start
      rw [foldl_cons, foldl_cons, ← ih,
        UInt64.xor_assoc, UInt64.xor_comm change, ← UInt64.xor_assoc]
  induction words generalizing pos start with
  | nil => simp at inside
  | cons word rest ih =>
    cases pos with
    | zero =>
      rw [modify_zero_cons, foldl_cons, foldl_cons, ← UInt64.xor_assoc, moved]
    | succ pos =>
      rw [modify_succ_cons, foldl_cons, foldl_cons,
        ih (Nat.lt_of_succ_lt_succ inside)]

def cellWords (cells : List UInt8) : List UInt64 :=
  (List.range (cells.length / 8)).map (fun i => fromLeBytes ((cells.drop (8 * i)).take 8))

theorem computeParity_eq (whole : 8 ∣ cells.length) :
    computeParity cells = (cellWords cells).foldl (· ^^^ ·) 0 := by
  have noTail : cells.drop (8 * (cells.length / 8)) = [] := by
    rw [Nat.mul_div_cancel' whole]
    exact drop_length
  unfold computeParity
  simp only [noTail, isEmpty_nil, if_true]
  rfl

def parityChange (byteIdx : Nat) (mask : UInt8) : UInt64 :=
  ⟨mask.toUInt64.toBitVec <<< (8 * (byteIdx % 8))⟩

theorem cellWords_modify (mask : UInt8) : cellWords (cells.modify byteIdx (· ^^^ mask)) =
      (cellWords cells).modify (byteIdx / 8) (· ^^^ parityChange byteIdx mask) := by
  refine ext_getElem? fun i => ?_
  unfold cellWords
  rw [List.getElem?_modify, List.getElem?_map, List.getElem?_map, length_modify]
  by_cases inRange : i < cells.length / 8
  · rw [List.getElem?_range inRange]
    simp only [Option.map_some, Option.map_eq_map]
    refine congrArg some ?_
    by_cases here : byteIdx / 8 = i
    · rw [if_pos here]
      have chunk : ((cells.modify byteIdx (· ^^^ mask)).drop (8 * i)).take 8 =
          ((cells.drop (8 * i)).take 8).modify (byteIdx % 8) (· ^^^ mask) := by
        refine ext_getElem? fun j => ?_
        rw [List.getElem?_modify, List.getElem?_take, List.getElem?_take]
        by_cases inWord : j < 8
        · have sameByte : byteIdx = 8 * i + j ↔ byteIdx % 8 = j := by
            omega
          rw [if_pos inWord, if_pos inWord, List.getElem?_drop,
            List.getElem?_drop, List.getElem?_modify]
          simp only [sameByte]
        · rw [if_neg inWord, if_neg inWord]
          rfl
      rw [chunk]
      refine UInt64.toBitVec_inj.mp ?_
      rw [fromLeBytes_modify, UInt64.toBitVec_xor]
      · rfl
      · rw [length_take, length_drop]
        omega
    · rw [if_neg here]
      congr 1
      refine ext_getElem? fun j => ?_
      rw [List.getElem?_take, List.getElem?_take]
      by_cases inWord : j < 8
      · have other : byteIdx ≠ 8 * i + j := by omega
        rw [if_pos inWord, if_pos inWord, List.getElem?_drop,
          List.getElem?_drop, List.getElem?_modify]
        simp [other]
      · rw [if_neg inWord, if_neg inWord]
  · rw [List.getElem?_eq_none (by rw [length_range]; omega)]
    rfl

theorem computeParity_modify (whole : 8 ∣ cells.length) (inside : byteIdx < cells.length)
    (mask : UInt8) :
    computeParity (cells.modify byteIdx (· ^^^ mask)) =
      computeParity cells ^^^ parityChange byteIdx mask := by
  rw [computeParity_eq whole, computeParity_eq (by rw [length_modify]; exact whole),
    cellWords_modify mask, foldl_xor_modify]
  unfold cellWords
  rw [length_map, length_range]
  omega

theorem toBitVec_parityChange (byteIdx : Nat) (inByte : bit < 8) :
    (parityChange byteIdx (bitMask bit)).toBitVec = BitVec.twoPow 64 (8 * (byteIdx % 8) + bit) := by
  have eachBit : ∀ place < 8, ∀ bit < 8,
      (bitMask bit).toUInt64.toBitVec <<< (8 * place) = BitVec.twoPow 64 (8 * place + bit) := by
    decide
  exact eachBit (byteIdx % 8) (Nat.mod_lt _ (by decide)) bit inByte

theorem single_bit_read {word : UInt64} {place : Nat} (inWord : place < 64)
    (isBit : word.toBitVec = BitVec.twoPow 64 place) :
    Page.countOnes word = 1 ∧ Page.trailingZeros word = place := by
  have eachPlace : ∀ place < 64, (List.range 64).countP
            (fun i => (BitVec.twoPow 64 place).getLsbD i) = 1 ∧
        ((List.range 64).find? (fun i => (BitVec.twoPow 64 place).getLsbD i)).getD 64 =
          place := by
    decide +kernel
  unfold Page.countOnes Page.trailingZeros
  rw [isBit]
  exact eachPlace place inWord

namespace Page

theorem length_cells (page : Page) : page.cells.length = 4032 := page.size

theorem flip_flip (page : Page) (byteIdx : Nat) (mask : UInt8) :
    (page.flip byteIdx mask).flip byteIdx mask = page := by
  obtain ⟨header, cells, size⟩ := page
  unfold flip
  simp only [Page.mk.injEq, true_and]
  refine ext_getElem? fun i => ?_
  rw [List.getElem?_modify, List.getElem?_modify]
  cases cells[i]? with
  | none => rfl
  | some byte =>
    by_cases here : byteIdx = i
    · simp only [here, if_true, Option.map_eq_map, Option.map_some]
      rw [UInt8.xor_assoc, UInt8.xor_self, UInt8.xor_zero]
    · simp [here]

theorem verifyChecksum_updateChecksum (page : Page) : page.updateChecksum.verifyChecksum = true :=
  beq_self_eq_true _

theorem verifyChecksum_eq_false {page : Page} {change : BitVec 32} {cells : List UInt8}
    (stored : page.header.checksum = (computeCrc32c cells).toUInt64)
    (got : (computeCrc32c page.cells).toBitVec = (computeCrc32c cells).toBitVec ^^^ change)
    (notZero : change ≠ 0#32) : page.verifyChecksum = false := by
  unfold verifyChecksum
  rw [stored, beq_eq_false_iff_ne]
  intro same
  have sameCrc : computeCrc32c page.cells = computeCrc32c cells := by
    refine UInt32.toNat_inj.mp ?_
    have numbers := congrArg UInt64.toNat same
    rwa [UInt32.toNat_toUInt64, UInt32.toNat_toUInt64] at numbers
  rw [sameCrc] at got
  refine notZero ?_
  have cancelled := congrArg ((computeCrc32c cells).toBitVec ^^^ ·) got
  simpa [← BitVec.xor_assoc] using cancelled.symm

theorem repairWords_cons (byteInWord : Nat) (mask : UInt8) (word : Nat)
    (rest : List Nat) (page : Page) :
    repairWords byteInWord mask (word :: rest) page =
      if (page.flip (word * 8 + byteInWord) mask).verifyChecksum then
        .ok true (page.flip (word * 8 + byteInWord) mask)
      else repairWords byteInWord mask rest page := by
  have undone := page.flip_flip (word * 8 + byteInWord) mask
  rw [repairWords, modify_bind_run, get_bind_run]
  by_cases helps : (page.flip (word * 8 + byteInWord) mask).verifyChecksum = true
  · rw [if_pos helps, if_pos helps]
    rfl
  · rw [if_neg helps, if_neg helps]
    show repairWords byteInWord mask rest
      ((page.flip (word * 8 + byteInWord) mask).flip (word * 8 + byteInWord) mask) = _
    rw [undone]

theorem repairWords_cases (byteInWord : Nat) (mask : UInt8) (words : List Nat) (page : Page) :
    repairWords byteInWord mask words page = .ok false page ∨
      ∃ repaired, repairWords byteInWord mask words page = .ok true repaired := by
  induction words with
  | nil => exact .inl rfl
  | cons word rest ih =>
    rw [repairWords_cons]
    split
    · exact .inr ⟨_, rfl⟩
    · exact ih

section

variable (page : Page) {byteIdx bit : Nat}

variable (inside : byteIdx < 4032)

include inside

theorem verifyChecksum_flip (inByte : bit < 8) :
    (page.updateChecksum.flip byteIdx (bitMask bit)).verifyChecksum = false := by
  have insideCells : byteIdx < page.cells.length := by
    rw [page.length_cells]
    exact inside
  exact verifyChecksum_eq_false rfl
    (toBitVec_computeCrc32c_modify insideCells (bitMask bit)) (crcChange_ne_zero _ _ inByte)

/-- It also finds a second one at the same place of another word. -/
theorem verifyChecksum_flip_other {other : Nat} (otherInside : other < 4032) (ne : byteIdx ≠ other)
    (samePlace : byteIdx % 8 = other % 8) (inByte : bit < 8) :
    ((page.updateChecksum.flip byteIdx (bitMask bit)).flip other
      (bitMask bit)).verifyChecksum = false := by
  have flipped := (page.updateChecksum.flip byteIdx (bitMask bit)).length_cells
  have first := toBitVec_computeCrc32c_modify (show byteIdx < page.cells.length by
        rw [page.length_cells]
        exact inside) (bitMask bit)
  have second := toBitVec_computeCrc32c_modify (show
          other < (page.updateChecksum.flip byteIdx (bitMask bit)).cells.length by
        rw [flipped]
        exact otherInside) (bitMask bit)
  rw [flipped] at second
  rw [page.length_cells] at first
  have both := second.trans (congrArg (· ^^^ crcChange 4032 other (bitMask bit)) first)
  simp only [BitVec.xor_assoc] at both
  refine verifyChecksum_eq_false rfl both ?_
  intro cancels
  exact crcChange_ne ne inside otherInside samePlace inByte (BitVec.xor_eq_zero_iff.mp cancels)

theorem repairWords_flipped (inByte : bit < 8)
    {words : List Nat} (listed : byteIdx / 8 ∈ words) (within : ∀ word ∈ words, word < 504) :
    repairWords (byteIdx % 8) (bitMask bit) words (page.updateChecksum.flip byteIdx (bitMask bit)) =
      .ok true page.updateChecksum := by
  induction words with
  | nil => cases listed
  | cons word rest ih =>
    rw [repairWords_cons]
    by_cases here : word = byteIdx / 8
    · have isByte : word * 8 + byteIdx % 8 = byteIdx := by omega
      rw [isByte, flip_flip, verifyChecksum_updateChecksum, if_pos rfl]
    · have inWords := within word mem_cons_self
      rw [verifyChecksum_flip_other page inside (by omega) (by omega)
        (by omega) inByte, if_neg Bool.false_ne_true]
      refine ih ?_ ?_
      · exact (mem_cons.mp listed).resolve_left (Ne.symm here)
      · exact fun other mem => within other (mem_cons_of_mem word mem)

theorem verifyAndCorrect_flipped (inByte : bit < 8) :
    verifyAndCorrect (page.updateChecksum.flip byteIdx (bitMask bit)) =
      .ok true page.updateChecksum := by
  have insideCells : byteIdx < page.cells.length := by
    rw [page.length_cells]
    exact inside
  have whole : 8 ∣ page.cells.length := by
    rw [page.length_cells]
    decide
  have syndrome : computeParity page.cells ^^^
        computeParity (page.cells.modify byteIdx (· ^^^ bitMask bit)) =
      parityChange byteIdx (bitMask bit) := by
    rw [computeParity_modify whole insideCells, ← UInt64.xor_assoc,
      UInt64.xor_self, UInt64.zero_xor]
  have place : 8 * (byteIdx % 8) + bit < 64 := by omega
  obtain ⟨ones, zeros⟩ := single_bit_read place (toBitVec_parityChange byteIdx inByte)
  have byteInWord : (8 * (byteIdx % 8) + bit) / 8 = byteIdx % 8 := by omega
  have bitInByte : (8 * (byteIdx % 8) + bit) % 8 = bit := by omega
  have repaired := page.repairWords_flipped inside inByte
      (mem_range.mpr (show byteIdx / 8 < 504 by omega))
      (fun word mem => mem_range.mp mem)
  have corrected : correctBit (parityChange byteIdx (bitMask bit))
        (page.updateChecksum.flip byteIdx (bitMask bit)) =
      .ok true page.updateChecksum := by
    unfold correctBit
    rw [zeros, byteInWord, bitInByte]
    rw [get_bind_run, (page.updateChecksum.flip byteIdx (bitMask bit)).length_cells]
    exact bind_run_ok repaired
  unfold verifyAndCorrect
  rw [get_bind_run]
  simp only [verifyChecksum_flip page inside inByte, Bool.false_eq_true, if_false]
  show (if countOnes (computeParity page.cells ^^^
      computeParity (page.cells.modify byteIdx (· ^^^ bitMask bit))) = 1 then
    correctBit (computeParity page.cells ^^^
      computeParity (page.cells.modify byteIdx (· ^^^ bitMask bit)))
    else _) (page.updateChecksum.flip byteIdx (bitMask bit)) = _
  rw [syndrome, if_pos ones]
  exact corrected

end

theorem verifyAndCorrect_error {page next : Page} {message : String}
    (failed : verifyAndCorrect page = .error message next) : next = page := by
  unfold verifyAndCorrect at failed
  rw [get_bind_run] at failed
  simp only at failed
  split at failed
  · cases failed
  split at failed
  · unfold correctBit at failed
    rw [get_bind_run] at failed
    rcases repairWords_cases _ _ _ page with unchanged | ⟨repaired, helped⟩
    · rw [bind_run_ok unchanged] at failed
      cases failed
      rfl
    · rw [bind_run_ok helped] at failed
      cases failed
  · cases failed
    rfl

end Page

/-- A single flipped bit of a page with a fresh checksum is flipped back, and a
repair that fails leaves every page as it was. -/
theorem single_bit_repaired_exactly : (∀ (page : Page) (byteIdx bit : Nat),
        byteIdx < 4032 → bit < 8 → Page.verifyAndCorrect
              (page.updateChecksum.flip byteIdx (bitMask bit)) = .ok true page.updateChecksum) ∧
      ∀ (page next : Page) (message : String),
        Page.verifyAndCorrect page = .error message next → next.cells = page.cells := by
  constructor
  · intro page byteIdx bit inside inByte
    exact page.verifyAndCorrect_flipped inside inByte
  · intro page next message failed
    rw [Page.verifyAndCorrect_error failed]

end TurboGP.Storage
