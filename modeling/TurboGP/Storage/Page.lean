import TurboGP.Lib.Effect
import TurboGP.Lib.ShiftRegister
import TurboGP.Storage.Record

/-!
# Pages

The pages of `storage/page.rs`: a header of eight words and 4032 bytes of
cells.  The header holds the CRC32C of the cells and the exclusive or of their
words.
-/

namespace TurboGP.Storage

open List

/-- `u64::from_le_bytes`; fewer than eight bytes are the low ones. -/
def fromLeBytes (bytes : List UInt8) : UInt64 :=
  bytes.foldr (fun byte word => (word <<< 8) ^^^ byte.toUInt64) 0

def toLeBytes (word : UInt64) : List UInt8 :=
  (range 8).map (fun i => (word >>> UInt64.ofNat (8 * i)).toUInt8)

def crc32cPolyReversed : UInt32 := 0x82F63B78

def crcRound (crc : UInt32) : UInt32 := (crc >>> 1) ^^^ (crc32cPolyReversed &&& (0 - (crc &&& 1)))

def crcByte (crc : UInt32) (byte : UInt8) : UInt32 := crcRound^[8] (crc ^^^ byte.toUInt32)

def computeCrc32c (cells : List UInt8) : UInt32 := cells.foldl crcByte 0xFFFFFFFF ^^^ 0xFFFFFFFF

/-- The exclusive or of the words, the last of which may be shorter. -/
def computeParity (cells : List UInt8) : UInt64 :=
  let words :=
    (range (cells.length / 8)).map (fun i => fromLeBytes ((cells.drop (8 * i)).take 8))
  let parity := words.foldl (· ^^^ ·) 0
  let tail := cells.drop (8 * (cells.length / 8))
  if tail.isEmpty then parity else parity ^^^ fromLeBytes tail

def pageSize : Nat := 4096

def headerSize : Nat := 64

structure PageHeader where
  pageType : UInt64
  tierHint : UInt64
  homogeneity : UInt64
  rowCount : UInt64
  checksum : UInt64
  predecessor : UInt64
  successor : UInt64
  parity : UInt64
  deriving DecidableEq, Repr

namespace PageHeader

def zero : PageHeader :=
  { pageType := 0, tierHint := 0, homogeneity := 0, rowCount := 0
    checksum := 0, predecessor := 0, successor := 0, parity := 0 }

def words (header : PageHeader) : List UInt64 :=
  [header.pageType, header.tierHint, header.homogeneity, header.rowCount,
    header.checksum, header.predecessor, header.successor, header.parity]

end PageHeader

structure Page where
  header : PageHeader
  cells : List UInt8
  size : cells.length = pageSize - headerSize
  deriving DecidableEq, Repr

namespace Page

def new : Page where
  header := .zero
  cells := replicate (pageSize - headerSize) 0
  size := length_replicate

def verifyChecksum (page : Page) : Bool :=
  (computeCrc32c page.cells).toUInt64 == page.header.checksum

def updateChecksum (page : Page) : Page :=
  { page with
    header.checksum := (computeCrc32c page.cells).toUInt64
    header.parity := computeParity page.cells }

def flip (page : Page) (byteIdx : Nat) (mask : UInt8) : Page where
  header := page.header
  cells := page.cells.modify byteIdx (· ^^^ mask)
  size := (length_modify ..).trans page.size

def countOnes (word : UInt64) : Nat := (range 64).countP (fun i => word.toBitVec.getLsbD i)

def trailingZeros (word : UInt64) : Nat :=
  ((range 64).find? (fun i => word.toBitVec.getLsbD i)).getD 64

/-- The loop over the words: the bit is flipped, and flipped back unless the
checksum is right. -/
def repairWords (byteInWord : Nat) (mask : UInt8) : List Nat → EStateM String Page Bool
  | [] => return false
  | wordIdx :: rest => do
    let byteIdx := wordIdx * 8 + byteInWord
    modify (·.flip byteIdx mask)
    if (← get).verifyChecksum then return true
    modify (·.flip byteIdx mask)
    repairWords byteInWord mask rest

def correctBit (syndrome : UInt64) : EStateM String Page Bool := do
  let bitPos := trailingZeros syndrome
  let mask : UInt8 := 1 <<< UInt8.ofNat (bitPos % 8)
  if ← repairWords (bitPos / 8) mask
      (range ((← get).cells.length / 8)) then
    return true
  else
    let shown := String.ofList (hex16 syndrome)
    throw s!"uncorrectable corruption: syndrome = 0x{shown} indicates a single bit, but no word flip repaired the CRC (stored CRC may itself be corrupt)"

def verifyAndCorrect : EStateM String Page Bool := do
  let page ← get
  if page.verifyChecksum then return false
  else
    let syndrome := page.header.parity ^^^ computeParity page.cells
    let ones := countOnes syndrome
    if ones = 1 then correctBit syndrome
    else
      let shown := String.ofList (hex16 syndrome)
      throw s!"uncorrectable corruption: syndrome = 0x{shown} ({ones} bits set, expected 1)"

def toBytes (page : Page) : List UInt8 := page.header.words.flatMap toLeBytes ++ page.cells

def headerWord (bytes : List UInt8) (place : Nat) : UInt64 :=
  fromLeBytes ((bytes.drop (8 * place)).take 8)

/-- `from_bytes`; it fails on fewer bytes than those of a page. -/
def fromBytes (bytes : List UInt8) : Option Page :=
  if enough : pageSize ≤ bytes.length then
    some
      { header :=
          { pageType := headerWord bytes 0, tierHint := headerWord bytes 1
            homogeneity := headerWord bytes 2, rowCount := headerWord bytes 3
            checksum := headerWord bytes 4, predecessor := headerWord bytes 5
            successor := headerWord bytes 6, parity := headerWord bytes 7 }
        cells := (bytes.drop headerSize).take (pageSize - headerSize)
        size := by
          rw [length_take, length_drop]
          unfold pageSize headerSize at *
          omega }
  else none

end Page

theorem getLsbD_fromLeBytes (bytes : List UInt8) (i : Nat) (inside : i < 64) :
    (fromLeBytes bytes).toBitVec.getLsbD i = ((bytes[i / 8]?).getD 0).toBitVec.getLsbD (i % 8) := by
  induction bytes generalizing i with
  | nil => simp [fromLeBytes]
  | cons byte rest ih =>
    have bits : (fromLeBytes (byte :: rest)).toBitVec =
        ((fromLeBytes rest).toBitVec <<< 8) ^^^ byte.toUInt64.toBitVec := by
      show ((fromLeBytes rest <<< 8) ^^^ byte.toUInt64).toBitVec = _
      rw [UInt64.toBitVec_xor, UInt64.toBitVec_shiftLeft]
      rfl
    rw [bits, BitVec.getLsbD_xor, BitVec.getLsbD_shiftLeft,
      UInt8.toBitVec_toUInt64, BitVec.getLsbD_setWidth]
    by_cases first : i < 8
    · simp [first, inside, Nat.div_eq_of_lt first, Nat.mod_eq_of_lt first]
    · have pos : i / 8 = (i - 8) / 8 + 1 := by omega
      have bit : i % 8 = (i - 8) % 8 := by omega
      rw [pos, bit, getElem?_cons_succ, ih (i - 8) (by omega)]
      have beyond : byte.toBitVec.getLsbD i = false := BitVec.getLsbD_of_ge _ _ (by omega)
      simp [first, inside, beyond]

theorem fromLeBytes_toLeBytes (word : UInt64) : fromLeBytes (toLeBytes word) = word := by
  refine UInt64.toBitVec_inj.mp (BitVec.eq_of_getLsbD_eq fun i inside => ?_)
  have small : i / 8 < 8 := by omega
  rw [getLsbD_fromLeBytes _ i inside]
  unfold toLeBytes
  rw [getElem?_map, getElem?_range small]
  simp only [Option.map_some, Option.getD_some]
  rw [UInt64.toBitVec_toUInt8, BitVec.getLsbD_setWidth, UInt64.toBitVec_shiftRight]
  have shift : ((UInt64.ofNat (8 * (i / 8))).toBitVec % 64).toNat = 8 * (i / 8) := by
    rw [BitVec.toNat_umod]
    show (8 * (i / 8) % 2 ^ 64) % 64 = 8 * (i / 8)
    omega
  rw [BitVec.ushiftRight_eq', shift, BitVec.getLsbD_ushiftRight]
  have place : 8 * (i / 8) + i % 8 = i := by omega
  have inByte : i % 8 < 8 := Nat.mod_lt _ (by decide)
  rw [place, decide_eq_true inByte, Bool.true_and]

theorem length_toLeBytes (word : UInt64) : (toLeBytes word).length = 8 := by
  unfold toLeBytes
  rw [length_map, length_range]

theorem headerWord_flatMap (words : List UInt64) (rest : List UInt8)
    (place : Nat) (inside : place < words.length) :
    Page.headerWord (words.flatMap toLeBytes ++ rest) place = words[place] := by
  induction words generalizing place with
  | nil => exact absurd inside (Nat.not_lt_zero place)
  | cons word others ih =>
    rw [flatMap_cons, append_assoc]
    cases place with
    | zero =>
      unfold Page.headerWord
      rw [Nat.mul_zero, drop_zero, take_left' (length_toLeBytes word)]
      exact fromLeBytes_toLeBytes word
    | succ place =>
      have behind : ∀ bytes : List UInt8, Page.headerWord (toLeBytes word ++ bytes) (place + 1) =
            Page.headerWord bytes place := by
        intro bytes
        unfold Page.headerWord
        rw [Nat.mul_succ, Nat.add_comm, ← drop_drop, drop_left' (length_toLeBytes word)]
      rw [behind]
      exact ih place (Nat.lt_of_succ_lt_succ inside)

theorem length_headerBytes (header : PageHeader) :
    (header.words.flatMap toLeBytes).length = headerSize := by
  simp [PageHeader.words, length_toLeBytes, headerSize]

theorem Page.length_toBytes (page : Page) : page.toBytes.length = pageSize := by
  unfold Page.toBytes
  rw [length_append, length_headerBytes, page.size]
  rfl

theorem Page.fromBytes_toBytes (page : Page) : Page.fromBytes page.toBytes = some page := by
  have words : ∀ (place : Nat) (inside : place < 8),
      Page.headerWord page.toBytes place = page.header.words.get ⟨place, inside⟩ :=
    headerWord_flatMap page.header.words page.cells
  have cells : (page.toBytes.drop headerSize).take (pageSize - headerSize) = page.cells := by
    unfold Page.toBytes
    rw [drop_left' (length_headerBytes page.header),
      take_of_length_le (Nat.le_of_eq page.size)]
  unfold Page.fromBytes
  rw [dif_pos (Nat.le_of_eq page.length_toBytes.symm)]
  refine congrArg some ?_
  obtain ⟨header, pageCells, size⟩ := page
  refine Page.mk.injEq .. ▸ ⟨?_, cells⟩
  exact PageHeader.mk.injEq .. ▸ ⟨words 0 (by decide), words 1 (by decide), words 2 (by decide),
      words 3 (by decide), words 4 (by decide), words 5 (by decide),
      words 6 (by decide), words 7 (by decide)⟩
end TurboGP.Storage
