import TurboGP.Storage.Wal

/-! # Segments of lines -/

namespace TurboGP.Storage

open Sql.Text Server Effect Fields List

def byteOf (c : Char) : UInt8 := UInt8.ofNat c.toNat

theorem utf8_append (first second : List Char) :
    utf8 (first ++ second) = utf8 first ++ utf8 second := by
  exact flatMap_append

theorem utf8_of_ascii {text : List Char} (ascii : ∀ c ∈ text, c.toNat < 128) :
    utf8 text = text.map byteOf := by
  induction text with
  | nil => rfl
  | cons c rest ih =>
    rw [forall_mem_cons] at ascii
    have single : String.utf8EncodeChar c = [byteOf c] := by
      have small : c.val.toNat ≤ 127 := Nat.le_of_lt_succ ascii.1
      rw [String.utf8EncodeChar.eq_1, if_pos small]
      rfl
    have tail : rest.flatMap String.utf8EncodeChar = rest.map byteOf := ih ascii.2
    unfold utf8
    rw [flatMap_cons, single, tail]
    rfl

theorem printable_range {c : Char} (printable : isPrintable c = true) :
    32 ≤ c.toNat ∧ c.toNat < 127 :=
  of_decide_eq_true printable

section

variable {text : List Char}

theorem utf8_of_printable (printable : ∀ c ∈ text, isPrintable c = true) :
    utf8 text = text.map byteOf :=
  utf8_of_ascii fun c mem => by
    have range := printable_range (printable c mem)
    omega

theorem byte_ne_of_printable (printable : ∀ c ∈ text, isPrintable c = true) {byte : UInt8}
    (control : byte.toNat < 32) : byte ∉ utf8 text := by
  rw [utf8_of_printable printable]
  intro mem
  obtain ⟨c, inText, rfl⟩ := mem_map.mp mem
  have range := printable_range (printable c inText)
  unfold byteOf at control
  rw [UInt8.toNat_ofNat', Nat.mod_eq_of_lt (by omega)] at control
  omega

theorem stripReturn_utf8 (printable : ∀ c ∈ text, isPrintable c = true) :
    stripReturn (utf8 text) = utf8 text := by
  have noReturn : (13 : UInt8) ∉ utf8 text := byte_ne_of_printable printable (by decide)
  unfold stripReturn
  rw [if_neg]
  intro isLast
  exact noReturn (mem_of_getLast? isLast)

theorem decodeLine_utf8 (text : List Char) : decodeLine (utf8 text) = .ok text := by
  unfold decodeLine
  rw [fromUtf8_utf8]

end

structure Segment where
  number : UInt64
  lines : List (List Char)
  tail : List Char
  deriving DecidableEq, Repr

namespace Segment

def text (seg : Segment) : List Char := unlines '\n' seg.lines ++ seg.tail

def records (host : WalHost) (seg : Segment) : List WalRecord :=
  (seg.lines ++ [seg.tail]).filterMap (readLine host)

structure Printable (seg : Segment) : Prop where
  lines : ∀ line ∈ seg.lines, ∀ c ∈ line, isPrintable c = true
  tail : ∀ c ∈ seg.tail, isPrintable c = true

section

variable {seg : Segment}

theorem Printable.ascii_text (printable : seg.Printable) : ∀ c ∈ seg.text, c.toNat < 128 := by
  unfold text
  rw [forall_mem_append]
  constructor
  · intro c mem
    obtain ⟨line, inLines, inLine⟩ := mem_flatMap.mp mem
    rcases mem_append.mp inLine with inside | newline
    · have range := printable_range (printable.lines line inLines c inside)
      omega
    · rw [mem_singleton.mp newline]
      decide
  · intro c mem
    have range := printable_range (printable.tail c mem)
    omega

theorem Printable.length_utf8 (printable : seg.Printable) :
    (utf8 seg.text).length = seg.text.length := by
  rw [utf8_of_ascii printable.ascii_text, length_map]

theorem utf8_text (seg : Segment) :
    utf8 seg.text = unlines 10 (seg.lines.map utf8) ++ utf8 seg.tail := by
  unfold text
  rw [utf8_append]
  refine congrArg (· ++ utf8 seg.tail) ?_
  induction seg.lines with
  | nil => rfl
  | cons line rest ih =>
    have split : unlines '\n' (line :: rest) = line ++ ['\n'] ++ unlines '\n' rest := rfl
    rw [split, utf8_append, utf8_append, ih]
    rfl

theorem Printable.fileLines_text (printable : seg.Printable) : fileLines (utf8 seg.text) =
      (seg.lines ++ (if seg.tail = [] then [] else [seg.tail])).map utf8 := by
  have linesClean : ∀ line ∈ seg.lines.map utf8, (10 : UInt8) ∉ line := by
    intro line mem
    obtain ⟨text, inLines, rfl⟩ := mem_map.mp mem
    exact byte_ne_of_printable (printable.lines text inLines) (by decide)
  have tailClean : (10 : UInt8) ∉ utf8 seg.tail := byte_ne_of_printable printable.tail (by decide)
  have stripped : (seg.lines.map utf8).map stripReturn = seg.lines.map utf8 := by
    rw [map_map]
    refine map_congr_left fun line mem => ?_
    exact stripReturn_utf8 (printable.lines line mem)
  have emptyTail : utf8 seg.tail = [] ↔ seg.tail = [] := by
    rw [utf8_of_printable printable.tail]
    exact map_eq_nil_iff
  unfold fileLines
  rw [utf8_text, lines_unlines linesClean tailClean]
  simp only [stripped, map_append, emptyTail]
  by_cases empty : seg.tail = []
  · simp only [if_pos empty, map_nil]
  · simp only [if_neg empty, map_cons, map_nil]

end

end Segment

theorem mapM_decodeLine (texts : List (List Char)) :
    (texts.map utf8).mapM decodeLine = .ok texts := by
  rw [mapM_eq_ok_iff, forall₂_map_left_iff, forall₂_same]
  exact fun text _ => decodeLine_utf8 text

theorem readLine_nil (host : WalHost) : readLine host [] = none := rfl

theorem stripStart_append (start rest : List Char) :
    stripStart start (start ++ rest) = some rest := by
  have isStart : start.isPrefixOf (start ++ rest) = true :=
    isPrefixOf_iff_prefix.mpr (prefix_append start rest)
  unfold stripStart
  rw [if_pos isStart, drop_left]

theorem stripEnd_append (ending before : List Char) :
    stripEnd ending (before ++ ending) = some before := by
  have isEnd : ending.isSuffixOf (before ++ ending) = true :=
    isSuffixOf_iff_suffix.mpr (suffix_append before ending)
  unfold stripEnd
  rw [if_pos isEnd, length_append, Nat.add_sub_cancel, take_left]

@[simp]
theorem segmentNumber_segmentName (n : UInt64) : segmentNumber (segmentName n) = some n := by
  unfold segmentNumber segmentName
  rw [append_assoc]
  simp only [stripStart_append, stripEnd_append, Option.bind_eq_bind,
    Option.bind_some, parseU64_decimal n.toNat_lt, UInt64.ofNat_toNat]
  rfl

theorem segmentName_injective : Function.Injective segmentName := by
  intro first second same
  have numbers := congrArg segmentNumber same
  rw [segmentNumber_segmentName, segmentNumber_segmentName] at numbers
  exact Option.some.inj numbers

/-- The directory holds these segments, in the order of their numbers, and no
other file with the name of a segment. -/
structure Holds (directory : Directory) (log : List Segment) : Prop where
  ordered : (log.map Segment.number).Pairwise (· < ·)
  names : ∀ name n, name ∈ directory → segmentNumber name = some n →
      name = segmentName n ∧ n ∈ log.map Segment.number
  files : ∀ seg ∈ log, ∃ file,
      directory.lookup (segmentName seg.number) = some file ∧ file.bytes = utf8 seg.text
  printable : ∀ seg ∈ log, seg.Printable

section

variable {directory : Directory} {log : List Segment}

variable (holds : Holds directory log)

include holds

theorem Holds.mem_directory {n : UInt64}
    (mem : n ∈ log.map Segment.number) : segmentName n ∈ directory := by
  obtain ⟨seg, inLog, rfl⟩ := mem_map.mp mem
  obtain ⟨file, found, -⟩ := holds.files seg inLog
  exact Finmap.mem_of_lookup_eq_some found

theorem Holds.listSegments_eq : listSegments directory = log.map Segment.number := by
  have named : directory.keys.val.filter (fun name => (segmentNumber name).isSome) =
      ((log.map Segment.number : List UInt64) : Multiset UInt64).map
        segmentName := by
    have distinct : (log.map Segment.number).Nodup :=
      holds.ordered.imp fun less => UInt64.ne_of_lt less
    rw [Multiset.Nodup.ext (directory.keys.nodup.filter _)
      ((Multiset.coe_nodup.mpr distinct).map segmentName_injective)]
    intro name
    rw [Multiset.mem_filter, Finset.mem_val, Finmap.mem_keys, Multiset.mem_map]
    constructor
    · rintro ⟨held, isSegment⟩
      obtain ⟨n, isNumber⟩ := Option.isSome_iff_exists.mp isSegment
      obtain ⟨rfl, listed⟩ := holds.names name n held isNumber
      exact ⟨n, listed, rfl⟩
    · rintro ⟨n, listed, rfl⟩
      refine ⟨holds.mem_directory listed, ?_⟩
      rw [segmentNumber_segmentName]
      rfl
  have onlyNamed : directory.keys.val.filterMap segmentNumber = (directory.keys.val.filter
      fun name => (segmentNumber name).isSome).filterMap
        segmentNumber := by
    rw [Multiset.filterMap_filter]
    refine congrArg (fun f => directory.keys.val.filterMap f) ?_
    funext name
    cases segmentNumber name <;> rfl
  have read : segmentNumber ∘ segmentName = some := funext segmentNumber_segmentName
  unfold listSegments
  rw [onlyNamed, named, Multiset.filterMap_map, read, Multiset.filterMap_some, Multiset.coe_sort]
  exact mergeSort_eq_self (· ≤ ·) (holds.ordered.imp fun less => UInt64.le_of_lt less)

theorem Holds.readSegment_eq (host : WalHost) {seg : Segment} (inLog : seg ∈ log) :
    readSegment host directory seg.number = .ok (seg.records host) := by
  obtain ⟨file, found, bytes⟩ := holds.files seg inLog
  unfold readSegment
  rw [found]
  simp only [bytes, (holds.printable seg inLog).fileLines_text, mapM_decodeLine]
  have read : (seg.lines ++ (if seg.tail = [] then [] else [seg.tail])).filterMap
      (readLine host) = seg.records host := by
    unfold Segment.records
    by_cases empty : seg.tail = []
    · rw [if_pos empty, empty, append_nil, filterMap_append]
      simp [readLine_nil]
    · rw [if_neg empty]
  exact congrArg Except.ok read

theorem Holds.readAll_eq (host : WalHost) :
    readAll host directory = .ok (log.flatMap (Segment.records host)) := by
  have segments : (log.map Segment.number).mapM (readSegment host directory) =
      .ok (log.map (Segment.records host)) := by
    rw [mapM_eq_ok_iff, forall₂_map_left_iff, forall₂_map_right_iff, forall₂_same]
    exact fun seg inLog => holds.readSegment_eq host inLog
  unfold readAll
  rw [holds.listSegments_eq, segments]
  exact congrArg Except.ok flatMap_def.symm

end

end TurboGP.Storage
