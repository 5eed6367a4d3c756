import TurboGP.Storage.Segments

/-! # Opening and appending -/

namespace TurboGP.Storage

open Sql.Text Server Effect Finmap Directory List

theorem max_cases (first second : UInt64) :
    first ≤ second ∧ max first second = second ∨ second ≤ first ∧ max first second = first := by
  by_cases ordered : first ≤ second
  · exact .inl ⟨ordered, if_pos ordered⟩
  · exact .inr ⟨UInt64.le_of_lt (UInt64.not_le.mp ordered), if_neg ordered⟩

theorem le_foldl_max (numbers : List UInt64) (start : UInt64) :
    start ≤ numbers.foldl max start ∧ ∀ n ∈ numbers, n ≤ numbers.foldl max start := by
  induction numbers generalizing start with
  | nil => exact ⟨UInt64.le_refl _, forall_mem_nil _⟩
  | cons first rest bounds =>
    obtain ⟨aboveMax, aboveRest⟩ := bounds (max start first)
    have above : start ≤ max start first ∧ first ≤ max start first := by
      rcases max_cases start first with ⟨less, same⟩ | ⟨less, same⟩
      · rw [same]
        exact ⟨less, UInt64.le_refl _⟩
      · rw [same]
        exact ⟨UInt64.le_refl _, less⟩
    refine ⟨UInt64.le_trans above.1 aboveMax, ?_⟩
    rw [forall_mem_cons]
    exact ⟨UInt64.le_trans above.2 aboveMax, aboveRest⟩

theorem foldl_max_mem (numbers : List UInt64) (start : UInt64) :
    numbers.foldl max start = start ∨ numbers.foldl max start ∈ numbers := by
  induction numbers generalizing start with
  | nil => exact .inl rfl
  | cons first rest mem =>
    rw [foldl_cons, mem_cons]
    rcases mem (max start first) with isMax | inRest
    · rw [isMax]
      rcases max_cases start first with ⟨-, isFirst⟩ | ⟨-, isStart⟩
      · exact .inr (.inl isFirst)
      · exact .inl isStart
    · exact .inr (.inr inRest)

section

variable {directory : Directory} {earlier : List Segment} {last : Segment}

variable (holds : Holds directory (earlier ++ [last]))

include holds

theorem Holds.number_lt {seg : Segment} (inEarlier : seg ∈ earlier) : seg.number < last.number := by
  have ordered := holds.ordered
  rw [map_append, pairwise_append] at ordered
  exact ordered.2.2 _ (mem_map_of_mem inEarlier) _ mem_cons_self

theorem Holds.number_le {n : UInt64} (listed : n ∈ (earlier ++ [last]).map Segment.number) :
    n ≤ last.number := by
  obtain ⟨seg, inLog, rfl⟩ := mem_map.mp listed
  rcases mem_append.mp inLog with inEarlier | isLast
  · exact UInt64.le_of_lt (holds.number_lt inEarlier)
  · rw [mem_singleton.mp isLast]
    exact UInt64.le_refl _

theorem Holds.scanMaxSegment_eq : scanMaxSegment directory = last.number := by
  have listed : last.number ∈ (earlier ++ [last]).map Segment.number := by
    simp
  unfold scanMaxSegment
  rw [holds.listSegments_eq]
  have above := (le_foldl_max _ 0).2 last.number listed
  refine UInt64.le_antisymm ?_ above
  rcases foldl_max_mem ((earlier ++ [last]).map Segment.number) 0 with
    isZero | isListed
  · rw [isZero]
    exact UInt64.zero_le
  · exact holds.number_le isListed

theorem Holds.insert_last (next : Segment) (sameNumber : next.number = last.number)
    (printable : next.Printable) {file : DiskFile} (bytes : file.bytes = utf8 next.text) :
    Holds (directory.insert (segmentName last.number) file) (earlier ++ [next]) := by
  have sameNumbers :
      (earlier ++ [next]).map Segment.number = (earlier ++ [last]).map Segment.number := by
    simp [sameNumber]
  have lastListed : last.number ∈ (earlier ++ [last]).map Segment.number := by
    simp
  constructor
  · rw [sameNumbers]
    exact holds.ordered
  · intro name n held isNumber
    rw [sameNumbers]
    rcases mem_insert.mp held with rfl | earlierName
    · rw [segmentNumber_segmentName] at isNumber
      cases isNumber
      exact ⟨rfl, lastListed⟩
    · exact holds.names name n earlierName isNumber
  · intro seg inLog
    rcases mem_append.mp inLog with inEarlier | isNext
    · obtain ⟨old, found, oldBytes⟩ := holds.files seg (mem_append_left _ inEarlier)
      have differs : segmentName seg.number ≠ segmentName last.number := by
        intro same
        have less := holds.number_lt inEarlier
        exact UInt64.ne_of_lt less (segmentName_injective same)
      exact ⟨old, (lookup_insert_of_ne _ differs).trans found, oldBytes⟩
    · rw [mem_singleton.mp isNext, sameNumber]
      exact ⟨file, lookup_insert _, bytes⟩
  · intro seg inLog
    rcases mem_append.mp inLog with inEarlier | isNext
    · exact holds.printable seg (mem_append_left _ inEarlier)
    · rw [mem_singleton.mp isNext]
      exact printable

theorem Holds.write_last
    {next : Segment} {added : List Char} (sameNumber : next.number = last.number)
    (appended : next.text = last.text ++ added) (printable : next.Printable) :
    Holds (directory.write (segmentName last.number) (utf8 added)) (earlier ++ [next]) := by
  obtain ⟨file, found, bytes⟩ := holds.files last (by simp)
  have written : (file.append (utf8 added)).bytes = utf8 next.text := by
    rw [appended, utf8_append, ← bytes]
    rfl
  unfold write
  rw [found]
  exact holds.insert_last next sameNumber printable written

theorem Holds.openAppend_next {n : UInt64} (after : last.number < n) :
    Holds (directory.openAppend (segmentName n))
      (earlier ++ [last] ++ [{ number := n, lines := [], tail := [] }]) := by
  have fresh : segmentName n ∉ directory := by
    intro held
    obtain ⟨-, listed⟩ := holds.names _ n held (segmentNumber_segmentName n)
    exact UInt64.not_lt.mpr (holds.number_le listed) after
  unfold openAppend
  rw [if_neg fresh]
  constructor
  · rw [map_append, pairwise_append]
    refine ⟨holds.ordered, pairwise_singleton _ _, ?_⟩
    intro earlierNumber listed number isNew
    rw [List.map_singleton, List.mem_singleton] at isNew
    rw [isNew]
    exact UInt64.lt_of_le_of_lt (holds.number_le listed) after
  · intro name number held isNumber
    rw [map_append]
    rcases mem_insert.mp held with rfl | oldName
    · rw [segmentNumber_segmentName] at isNumber
      cases isNumber
      exact ⟨rfl, mem_append_right _ mem_cons_self⟩
    · obtain ⟨same, listed⟩ := holds.names name number oldName isNumber
      exact ⟨same, mem_append_left _ listed⟩
  · intro seg inLog
    rcases mem_append.mp inLog with inOld | isNew
    · obtain ⟨file, found, bytes⟩ := holds.files seg inOld
      have differs : segmentName seg.number ≠ segmentName n := by
        intro same
        have listed : n ∈ (earlier ++ [last]).map Segment.number := by
          rw [← segmentName_injective same]
          exact mem_map_of_mem inOld
        exact UInt64.not_lt.mpr (holds.number_le listed) after
      exact ⟨file, (lookup_insert_of_ne _ differs).trans found, bytes⟩
    · rw [mem_singleton.mp isNew]
      exact ⟨DiskFile.empty, lookup_insert _, rfl⟩
  · intro seg inLog
    rcases mem_append.mp inLog with inOld | isNew
    · exact holds.printable seg inOld
    · rw [mem_singleton.mp isNew]
      exact ⟨forall_mem_nil _, forall_mem_nil _⟩

theorem Holds.size_last : directory.size (segmentName last.number) = last.text.length := by
  obtain ⟨file, found, bytes⟩ := holds.files last (by simp)
  unfold size
  rw [found]
  simp only [bytes]
  exact (holds.printable last (by simp)).length_utf8

end

structure OpenOn (state : WalState) (earlier : List Segment)
    (last : Segment) : Prop where
  holds : Holds state.directory (earlier ++ [last])
  current : state.wal.currentSegment = last.number
  file : state.wal.file = some last.number

def openedLog (log : List Segment) : List Segment :=
  if log = [] then [{ number := 0, lines := [], tail := [] }] else log

theorem records_openedLog (host : WalHost) (log : List Segment) :
    (openedLog log).flatMap (Segment.records host) = log.flatMap (Segment.records host) := by
  unfold openedLog
  split
  · next empty =>
    rw [empty]
    rfl
  · rfl

variable {directory : Directory} {log : List Segment}

theorem Holds.scanMaxSegment_nil (holds : Holds directory []) : scanMaxSegment directory = 0 := by
  unfold scanMaxSegment
  rw [holds.listSegments_eq]
  rfl

theorem Holds.openAppend_max (holds : Holds directory log) :
    Holds (directory.openAppend (segmentName (scanMaxSegment directory))) (openedLog log) ∧
      ∃ earlier last,
        openedLog log = earlier ++ [last] ∧ last.number = scanMaxSegment directory := by
  cases log using reverseRecOn with
  | nil =>
    have fresh : segmentName 0 ∉ directory := by
      intro held
      obtain ⟨-, listed⟩ := holds.names _ 0 held (segmentNumber_segmentName 0)
      exact absurd listed (by simp)
    rw [holds.scanMaxSegment_nil]
    refine ⟨?_, [], { number := 0, lines := [], tail := [] }, rfl, rfl⟩
    unfold openAppend openedLog
    rw [if_neg fresh, if_pos rfl]
    constructor
    · exact pairwise_singleton _ _
    · intro name n held isNumber
      rcases mem_insert.mp held with rfl | oldName
      · rw [segmentNumber_segmentName] at isNumber
        cases isNumber
        exact ⟨rfl, mem_cons_self⟩
      · obtain ⟨-, listed⟩ := holds.names name n oldName isNumber
        exact absurd listed (by simp)
    · intro seg inLog
      rw [mem_singleton.mp inLog]
      exact ⟨DiskFile.empty, lookup_insert _, rfl⟩
    · intro seg inLog
      rw [mem_singleton.mp inLog]
      exact ⟨forall_mem_nil _, forall_mem_nil _⟩
  | append_singleton earlier last _ =>
    have isMax := holds.scanMaxSegment_eq
    have held : segmentName last.number ∈ directory := holds.mem_directory (by simp)
    have same : openedLog (earlier ++ [last]) = earlier ++ [last] := if_neg (by simp)
    rw [isMax, same]
    unfold openAppend
    rw [if_pos held]
    exact ⟨holds, earlier, last, rfl, rfl⟩

theorem openWithSegmentLimit_good (host : WalHost)
    (now limit : UInt64) (holds : Holds directory log) :
    ∃ state earlier last, openWithSegmentLimit host (Os.good now) limit directory = .ok state ∧
      openedLog log = earlier ++ [last] ∧ OpenOn state earlier last ∧
      state.wal.segmentLimit = limit ∧
      state.wal.nextLsn = maxLsn (log.flatMap (Segment.records host)) + 1 := by
  obtain ⟨opened, earlier, last, isLog, isMax⟩ := holds.openAppend_max
  have isRead := opened.readAll_eq host
  rw [records_openedLog] at isRead
  rw [isLog] at opened
  refine ⟨_, earlier, last, rfl, isLog, ⟨opened, isMax.symm, ?_⟩, rfl, ?_⟩
  · exact congrArg some isMax.symm
  · unfold lsnAfter
    rw [isRead]

theorem openWithSegmentLimit_last {directory : Directory} {earlier : List Segment} {last : Segment}
    (host : WalHost) (now limit : UInt64) (holds : Holds directory (earlier ++ [last])) :
    ∃ state, openWithSegmentLimit host (Os.good now) limit directory = .ok state ∧
      OpenOn state earlier last ∧ state.wal.segmentLimit = limit ∧
      state.wal.nextLsn = maxLsn ((earlier ++ [last]).flatMap (Segment.records host)) + 1 := by
  obtain ⟨state, before, tip, opened, isLog, isOpen, sameLimit, nextLsn⟩ :=
    openWithSegmentLimit_good host now limit holds
  have sameLog : openedLog (earlier ++ [last]) = earlier ++ [last] := if_neg (by simp)
  rw [sameLog] at isLog
  obtain ⟨rfl, lasts⟩ := append_inj' isLog rfl
  obtain rfl := (cons.inj lasts).1
  exact ⟨state, opened, isOpen, sameLimit, nextLsn⟩

def Segment.appendLine (seg : Segment) (line : List Char) : Segment :=
  { seg with
    lines := seg.lines ++ [seg.tail ++ line]
    tail := [] }

section

variable {seg : Segment} {line : List Char}

theorem Segment.number_appendLine (seg : Segment) (line : List Char) :
    (seg.appendLine line).number = seg.number := rfl

theorem Segment.text_appendLine : (seg.appendLine line).text = seg.text ++ (line ++ ['\n']) := by
  simp [Segment.appendLine, Segment.text, Fields.unlines]

theorem Segment.Printable.appendLine (printable : seg.Printable)
    (linePrintable : ∀ c ∈ line, isPrintable c = true) : (seg.appendLine line).Printable := by
  refine ⟨?_, forall_mem_nil _⟩
  unfold Segment.appendLine
  rw [forall_mem_append, forall_mem_singleton, forall_mem_append]
  exact ⟨printable.lines, printable.tail, linePrintable⟩

theorem Segment.records_appendLine (host : WalHost) : (seg.appendLine line).records host =
      seg.lines.filterMap (readLine host) ++ (readLine host (seg.tail ++ line)).toList := by
  unfold Segment.records Segment.appendLine
  rw [filterMap_append, filterMap_append, filterMap_cons,
    filterMap_cons, readLine_nil]
  cases readLine host (seg.tail ++ line) <;> simp

theorem Segment.records_of_complete (host : WalHost) (complete : seg.tail = []) :
    seg.records host = seg.lines.filterMap (readLine host) := by
  unfold Segment.records
  rw [complete, filterMap_append, filterMap_cons, readLine_nil]
  simp

theorem Segment.records_appendLine_of_complete
    {host : WalHost} {record : WalRecord} (json : host.ReadsJson) (complete : seg.tail = []) :
    (seg.appendLine (record.line host)).records host = seg.records host ++ [record] := by
  have isRead : readLine host (record.line host) = some record := readLine_line json
  rw [Segment.records_appendLine, Segment.records_of_complete host complete,
    complete, nil_append, isRead]
  rfl

end

def nextSegment (last : Segment) : Segment :=
  { number := last.number + 1, lines := [], tail := [] }

/-- The segments before the last one, and the last one, after a line was
appended: it goes to the last segment, or to a new one after a full one. -/
def appendedLog (limit : UInt64) (earlier : List Segment) (last : Segment)
    (line : List Char) : List Segment × Segment :=
  if limit.toNat ≤ last.text.length then
    (earlier ++ [last], (nextSegment last).appendLine line)
  else (earlier, last.appendLine line)

variable {last : Segment} {state : WalState} {earlier : List Segment}

theorem number_lt_nextSegment (room : last.number.toNat + 1 < 2 ^ 64) :
    last.number < (nextSegment last).number := by
  have value : (last.number + 1).toNat = last.number.toNat + 1 := by
    exact Nat.mod_eq_of_lt room
  rw [nextSegment, UInt64.lt_iff_toNat_lt, value]
  omega

theorem maybeRotate_good (now : UInt64) (isOpen : OpenOn state earlier last) :
    maybeRotate (Os.good now) state = .ok ()
        (if state.wal.segmentLimit.toNat ≤ last.text.length then
          { directory := state.directory.openAppend (segmentName (last.number + 1))
            wal :=
              { state.wal with
                currentSegment := last.number + 1
                file := some (last.number + 1) } }
        else state) := by
  have measured : (Os.good now).metadataFails ≠ true := nofun
  rw [maybeRotate_run isOpen.file, isOpen.holds.size_last, if_neg measured]
  by_cases full : state.wal.segmentLimit.toNat ≤ last.text.length
  · rw [if_pos full, if_pos full, ← isOpen.current]
    rfl
  · rw [if_neg full, if_neg full]

theorem writeRecord_good (host : WalHost) (now : UInt64) (record : WalRecord)
    (isOpen : OpenOn state earlier last) :
    ∃ next, writeRecord host (Os.good now) record state = .ok () next ∧
      OpenOn next earlier (last.appendLine ((record.stamped state.wal.nextLsn now).line host)) ∧
      next.wal.segmentLimit = state.wal.segmentLimit ∧
      next.wal.nextLsn = state.wal.nextLsn + 1 := by
  have printable := (isOpen.holds.printable last (by simp)).appendLine
      (@printable_line host (record.stamped state.wal.nextLsn now))
  have written :=
    isOpen.holds.write_last (Segment.number_appendLine last _) Segment.text_appendLine printable
  unfold writeRecord
  rw [get_bind_run, isOpen.file]
  exact ⟨_, rfl, ⟨written, isOpen.current, isOpen.file⟩, rfl, rfl⟩

theorem append_good (host : WalHost) (now : UInt64) (record : WalRecord)
    (isOpen : OpenOn state earlier last) (room : last.number.toNat + 1 < 2 ^ 64) :
    ∃ next, append host (Os.good now) record state = .ok () next ∧
      OpenOn next (appendedLog state.wal.segmentLimit earlier last
          ((record.stamped state.wal.nextLsn now).line host)).1
        (appendedLog state.wal.segmentLimit earlier last
          ((record.stamped state.wal.nextLsn now).line host)).2 ∧
      next.wal.segmentLimit = state.wal.segmentLimit ∧
      next.wal.nextLsn = state.wal.nextLsn + 1 := by
  have rotated := maybeRotate_good now isOpen
  unfold append appendedLog
  rw [bind_run_ok rotated]
  by_cases full : state.wal.segmentLimit.toNat ≤ last.text.length
  · rw [if_pos full, if_pos full]
    have opened := isOpen.holds.openAppend_next (number_lt_nextSegment room)
    exact writeRecord_good host now record ⟨opened, rfl, rfl⟩
  · rw [if_neg full, if_neg full]
    exact writeRecord_good host now record isOpen

end TurboGP.Storage
