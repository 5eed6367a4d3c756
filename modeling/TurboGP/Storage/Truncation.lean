import TurboGP.Storage.AfterCrash
import TurboGP.Storage.GroupCommit

/-! # Record numbers across checkpoints and restarts -/

namespace TurboGP.Storage

open Sql.Text Server Effect GuardedRun Segment Os WalRecord List Option

inductive LogEvent
  | append (record : WalRecord) (os : Os)
  | saveAndTruncate (text : List Char) (left : Option Nat)
  | restart (os : Os) (segmentLimit : UInt64)

/-- A data directory, and the numbers of the records appended before and after
the last completed `save_and_truncate`. -/
structure History (β : Type) where
  state : DataDir β
  before : List UInt64
  after : List UInt64

namespace History

variable {β : Type}

def fresh (β : Type) (opened : WalState) : History β :=
  { state :=
      { files := CheckpointFiles.empty β, log := opened, left := none }
    before := []
    after := [] }

/-- The number that an append gives; a closed log gives none. -/
def given (log : WalState) : List UInt64 :=
  match log.wal.file with
  | some _ => [log.wal.nextLsn]
  | none => []

def afterAppend (hist : History β) : EStateM.Result WalError WalState Unit → History β
  | .ok _ log =>
    { hist with
      state.log := log
      after := hist.after ++ given hist.state.log }
  | .error _ log => { hist with state.log := log }

def afterSave (hist : History β) : EStateM.Result WalError (DataDir β) Unit → History β
  | .ok _ next => { state := next, before := hist.before ++ hist.after, after := [] }
  | .error _ next => { hist with state := next }

def step (host : WalHost) (hist : History β) : LogEvent → Option (History β)
  | .append record os => some (hist.afterAppend (append host os record hist.state.log))
  | .saveAndTruncate text left =>
    some (hist.afterSave (saveAndTruncate text { hist.state with left := left }))
  | .restart os segmentLimit =>
    match reopen host os segmentLimit hist.state with
    | .ok next => some { hist with state := next }
    | .error _ => none

/-- The sidecar separates the numbers, and they are all different. -/
structure Separated (hist : History β) : Prop where
  covered : ∀ lsn ∈ hist.before, ∃ last, readLastLsn hist.state.files = some last ∧ lsn ≤ last
  later : ∀ lsn ∈ hist.after, ∀ last, readLastLsn hist.state.files = some last → last < lsn
  distinct : (hist.before ++ hist.after).Nodup

/-- An append does not fail after it has changed the files, a checkpoint that
fails does so before it writes the sidecar, and the counters do not wrap. -/
def Allowed (hist : History β) : LogEvent → Prop
  | .append _ os =>
    os.metadataFails = true ∨
      os.openFails = false ∧
        (os.writeStops = none ∨ os.writeStops = some 0) ∧
        hist.state.log.wal.nextLsn.toNat + 1 < 2 ^ 64 ∧
        hist.state.log.wal.currentSegment.toNat + 1 < 2 ^ 64
  | .saveAndTruncate _ left => ∀ count ∈ left, count ≤ 3
  | .restart _ _ => True

end History

section

variable {β : Type}

theorem trim_decimal (n : Nat) : trim (decimal n) = decimal n := by
  have visible : ∀ c ∈ decimal n, isWhitespace c = false :=
    fun c mem => isWhitespace_of_isDigit (isDigit_decimal mem)
  have kept : ∀ text : List Char, (∀ c ∈ text, isWhitespace c = false) →
      text.dropWhile isWhitespace = text := by
    intro text clear
    rw [dropWhile_eq_self_iff]
    intro nonempty
    simp [clear _ (getElem_mem nonempty)]
  rw [trim, trimStart, kept _ visible, trimEnd, kept _ (by simpa using visible), reverse_reverse]

theorem readLastLsn_decimal {files : CheckpointFiles β} {lsn : UInt64}
    (sidecar : files.sidecar = some (decimal lsn.toNat)) : readLastLsn files = some lsn := by
  unfold readLastLsn
  rw [sidecar]
  simp only [bind_eq_bind, bind_some, trim_decimal,
    parseU64_decimal lsn.toNat_lt, UInt64.ofNat_toNat]
  rfl

def eraseSegments (directory : Directory) (numbers : List UInt64) : Directory :=
  numbers.foldl (fun rest n => rest.erase (segmentName n)) directory

theorem fileOp_run {state : DataDir β} (change : DataDir β → DataDir β)
    (keepsLeft : (change state).left = none) (free : state.left = none) :
    fileOp change state = .ok () (change state) := by
  have notStopped : state.left ≠ some 0 := by simp [free]
  unfold fileOp
  rw [get_bind_run, if_neg notStopped]
  have same : { change state with left := state.left.map (· - 1) } = change state := by
    rw [free, map_none, ← keepsLeft]
  rw [same]
  rfl

theorem Holds.erase_first {directory : Directory} {first : Segment}
    {rest : List Segment} (holds : Holds directory (first :: rest)) :
    Holds (directory.erase (segmentName first.number)) rest := by
  obtain ⟨firstLess, restOrdered⟩ := pairwise_cons.mp holds.ordered
  constructor
  · exact restOrdered
  · intro name n held isNumber
    obtain ⟨differs, inDirectory⟩ := Finmap.mem_erase.mp held
    obtain ⟨isName, listed⟩ := holds.names name n inDirectory isNumber
    refine ⟨isName, ?_⟩
    rcases mem_cons.mp listed with isFirst | inRest
    · exact absurd (isFirst ▸ isName) differs
    · exact inRest
  · intro seg inRest
    obtain ⟨file, found, bytes⟩ := holds.files seg (mem_cons_of_mem _ inRest)
    have less := firstLess _ (mem_map_of_mem inRest)
    have differs : segmentName seg.number ≠ segmentName first.number := by
      intro same
      exact UInt64.ne_of_lt less (segmentName_injective same).symm
    refine ⟨file, ?_, bytes⟩
    rw [Finmap.lookup_erase_ne differs]
    exact found
  · intro seg inRest
    exact holds.printable seg (mem_cons_of_mem _ inRest)

theorem removeSegment_run {state : DataDir β} {first : Segment} {rest : List Segment}
    (holds : Holds state.log.directory (first :: rest)) :
    (removeSegment first.number : DirM β Unit) state =
      fileOp (fun state =>
          { state with
            log.directory := state.log.directory.erase (segmentName first.number) })
        state := by
  unfold removeSegment
  rw [get_bind_run, if_pos (holds.mem_directory mem_cons_self)]

theorem removeSegments_run {state : DataDir β} {log : List Segment} (free : state.left = none)
    (holds : Holds state.log.directory log) :
    (forM (log.map number) removeSegment : DirM β Unit) state = .ok ()
          { state with
            log.directory := eraseSegments state.log.directory (log.map number) } ∧
      Holds (eraseSegments state.log.directory (log.map number)) [] := by
  induction log generalizing state with
  | nil => exact ⟨rfl, holds⟩
  | cons first rest ih =>
    have removed := (removeSegment_run holds).trans (fileOp_run _ free free)
    rw [map_cons, forM_cons, bind_run_ok removed]
    exact ih free holds.erase_first

theorem truncate_run {state : DataDir β} {log : List Segment} (free : state.left = none)
    (holds : Holds state.log.directory log) :
    ∃ directory, truncate state = .ok ()
          { state with
            log.directory := directory
            log.wal.currentSegment := 0
            log.wal.file := some 0 } ∧
      Holds directory [{ number := 0, lines := [], tail := [] }] := by
  let closed : DataDir β := { state with log.wal.file := none }
  obtain ⟨removed, emptied⟩ := @removeSegments_run β closed log free holds
  have opened := emptied.openAppend_max.1
  rw [emptied.scanMaxSegment_nil] at opened
  refine ⟨_, ?_, opened⟩
  have listed : (fileOp id : DirM β Unit) closed = .ok () closed := fileOp_run id free free
  rw [← holds.listSegments_eq] at removed
  unfold truncate
  rw [modify_bind_run, bind_run_ok listed, get_bind_run, bind_run_ok removed, modify_bind_run,
    holds.listSegments_eq]
  exact Eq.trans (bind_run_ok (fileOp_run _ free free)) rfl

end

/-- The log is open behind complete lines, and they are read as records with
these numbers. -/
def LogReads (host : WalHost) (state : WalState) (lsns : List UInt64) : Prop :=
  ∃ earlier last, OpenOn state earlier last ∧ last.tail = [] ∧
    ((earlier ++ [last]).flatMap (records host)).map lsn = lsns

section

variable {β : Type} {host : WalHost} {state : WalState} {lsns : List UInt64}
  {os : Os} {limit : UInt64}

theorem maybeRotate_logReads (reads : LogReads host state lsns)
    (measured : os.metadataFails = false) (opens : os.openFails = false)
    (room : state.wal.currentSegment.toNat + 1 < 2 ^ 64) :
    ∃ next, maybeRotate os state = .ok () next ∧ LogReads host next lsns ∧
      next.wal.nextLsn = state.wal.nextLsn := by
  obtain ⟨earlier, last, isOpen, complete, isRead⟩ := reads
  have asGood : maybeRotate os = maybeRotate (good os.now) := by
    cases os
    cases measured
    cases opens
    rfl
  rw [asGood, maybeRotate_good os.now isOpen]
  rw [isOpen.current] at room
  refine ⟨_, rfl, ?_⟩
  by_cases full : state.wal.segmentLimit.toNat ≤ last.text.length
  · rw [if_pos full]
    have opened := isOpen.holds.openAppend_next (number_lt_nextSegment room)
    refine ⟨⟨_, _, ⟨opened, rfl, rfl⟩, rfl, ?_⟩, rfl⟩
    rw [flatMap_append, flatMap_singleton, records_of_complete host rfl]
    exact (congrArg _ (append_nil _)).trans isRead
  · rw [if_neg full]
    exact ⟨⟨earlier, last, isOpen, complete, isRead⟩, rfl⟩

theorem writeRecord_logReads {os : Os} {record : WalRecord}
    (json : host.ReadsJson) (reads : LogReads host state lsns) (writes : os.writeStops = none) :
    ∃ next, writeRecord host os record state = .ok () next ∧
      LogReads host next (lsns ++ [state.wal.nextLsn]) ∧
      next.wal.nextLsn = state.wal.nextLsn + 1 := by
  obtain ⟨earlier, last, isOpen, complete, isRead⟩ := reads
  have asGood : writeRecord host os record = writeRecord host (good os.now) record := by
    cases os
    cases writes
    rfl
  obtain ⟨next, written, nextOpen, -, nextLsn⟩ := writeRecord_good host os.now record isOpen
  rw [asGood]
  refine ⟨next, written, ⟨_, _, nextOpen, rfl, ?_⟩, nextLsn⟩
  rw [flatMap_append, flatMap_singleton, records_appendLine_of_complete json complete,
    ← append_assoc, map_append, ← isRead, flatMap_append, flatMap_singleton]
  rfl

theorem writeRecord_stopped {os : Os} {record : WalRecord}
    (reads : LogReads host state lsns) (stops : os.writeStops = some 0) :
    ∃ next, writeRecord host os record state = .error .os next ∧
      LogReads host next lsns ∧ next.wal.nextLsn = state.wal.nextLsn + 1 := by
  obtain ⟨earlier, last, isOpen, complete, isRead⟩ := reads
  have written : Holds (state.directory.write (segmentName last.number) []) (earlier ++ [last]) :=
    isOpen.holds.write_last rfl (append_nil _).symm (isOpen.holds.printable last (by simp))
  unfold writeRecord writeAll
  rw [get_bind_run, isOpen.file, stops]
  exact ⟨_, rfl, ⟨earlier, last, ⟨written, isOpen.current, isOpen.file⟩, complete, isRead⟩, rfl⟩

/-- What an append that fails before it changes a file does, and one that
succeeds. -/
theorem append_logReads {os : Os} {record : WalRecord}
    (json : host.ReadsJson) (reads : LogReads host state lsns)
    (answers : os.metadataFails = true ∨ os.openFails = false ∧
          (os.writeStops = none ∨ os.writeStops = some 0) ∧ state.wal.nextLsn.toNat + 1 < 2 ^ 64 ∧
          state.wal.currentSegment.toNat + 1 < 2 ^ 64) :
    ∃ next, append host os record state = .ok () next ∧
        LogReads host next (lsns ++ [state.wal.nextLsn]) ∧ state.wal.nextLsn < next.wal.nextLsn ∨
      append host os record state = .error .os next ∧
        LogReads host next lsns ∧ state.wal.nextLsn ≤ next.wal.nextLsn := by
  by_cases measured : os.metadataFails = true
  · have notRotated : maybeRotate os state = .error .os state := by
      obtain ⟨earlier, last, isOpen, -⟩ := reads
      rw [maybeRotate_run isOpen.file, if_pos measured]
    exact ⟨state, .inr ⟨bind_run_error notRotated, reads, UInt64.le_refl _⟩⟩
  obtain ⟨opens, writes, room, segmentRoom⟩ := answers.resolve_left measured
  rw [Bool.not_eq_true] at measured
  obtain ⟨rotated, ran, rotatedReads, sameLsn⟩ :=
    maybeRotate_logReads reads measured opens segmentRoom
  have grows : state.wal.nextLsn < state.wal.nextLsn + 1 := lt_succ room
  unfold append
  rw [bind_run_ok ran]
  rw [← sameLsn] at grows ⊢
  rcases writes with all | stopped
  · obtain ⟨next, written, nextReads, nextLsn⟩ :=
      @writeRecord_logReads host rotated lsns os record json rotatedReads all
    rw [← nextLsn] at grows
    exact ⟨next, .inl ⟨written, nextReads, grows⟩⟩
  · obtain ⟨next, failed, nextReads, nextLsn⟩ :=
      @writeRecord_stopped host rotated lsns os record rotatedReads stopped
    rw [← nextLsn] at grows
    exact ⟨next, .inr ⟨failed, nextReads, UInt64.le_of_lt grows⟩⟩

theorem saveAndTruncate_eq {dir : DataDir β} {log : List Segment}
    (text : List Char) (free : dir.left = none) (holds : Holds dir.log.directory log) :
    ∃ directory, saveAndTruncate text dir = .ok ()
          { dir with
            files.sql := some text
            files.sqlTmp := none
            files.sidecar := some (decimal dir.log.wal.currentLsn.toNat)
            log.directory := directory
            log.wal.currentSegment := 0
            log.wal.file := some 0 } ∧
      Holds directory [{ number := 0, lines := [], tail := [] }] := by
  let saved : DataDir β :=
    { dir with
      files.sql := some text
      files.sqlTmp := none
      files.sidecar := some (decimal dir.log.wal.currentLsn.toNat) }
  obtain ⟨directory, truncated, emptied⟩ := @truncate_run β saved _ free holds
  have ran : saveAndTruncate text dir = truncate saved := by
    refine Eq.trans (bind_run_ok (fileOp_run _ free free)) ?_
    refine Eq.trans (bind_run_ok (fileOp_run id free free)) ?_
    refine Eq.trans (bind_run_ok (fileOp_run _ free free)) ?_
    exact bind_run_ok (fileOp_run _ free free)
  exact ⟨directory, ran.trans truncated, emptied⟩

theorem saveAndTruncate_run {dir : DataDir β} {text : List Char}
    (free : dir.left = none) (reads : LogReads host dir.log lsns) :
    ∃ next, saveAndTruncate text dir = .ok () next ∧
      LogReads host next.log [] ∧ next.log.wal.nextLsn = dir.log.wal.nextLsn ∧
      readLastLsn next.files = some dir.log.wal.currentLsn := by
  obtain ⟨earlier, last, isOpen, -⟩ := reads
  obtain ⟨directory, ran, emptied⟩ := saveAndTruncate_eq text free isOpen.holds
  exact ⟨_, ran, ⟨[], _, ⟨emptied, rfl, rfl⟩, rfl, rfl⟩, rfl, readLastLsn_decimal rfl⟩

theorem saveAndTruncate_stopped {dir : DataDir β} {text : List Char}
    {count : Nat} (early : count ≤ 3) :
    ∃ next, saveAndTruncate text { dir with left := some count } = .error .os next ∧
        next.log = dir.log ∧ next.files.sidecar = dir.files.sidecar := by
  match count, early with
  | 0, _ => exact ⟨_, rfl, rfl, rfl⟩
  | 1, _ => exact ⟨_, rfl, rfl, rfl⟩
  | 2, _ => exact ⟨_, rfl, rfl, rfl⟩
  | 3, _ => exact ⟨_, rfl, rfl, rfl⟩

theorem advanceLsnTo_nextLsn {wal : Wal} {lsn : UInt64} (room : lsn.toNat + 1 < 2 ^ 64) :
    lsn < (wal.advanceLsnTo lsn).nextLsn ∧ wal.nextLsn ≤ (wal.advanceLsnTo lsn).nextLsn := by
  have notLast : lsn ≠ 18446744073709551615 := by
    rintro rfl
    exact absurd room (by decide)
  unfold Wal.advanceLsnTo
  simp only [if_neg notLast]
  by_cases behind : wal.nextLsn < lsn + 1
  · rw [if_pos behind]
    exact ⟨lt_succ room, UInt64.le_of_lt behind⟩
  · rw [if_neg behind]
    have reached := UInt64.not_lt.mp behind
    exact ⟨UInt64.lt_of_lt_of_le (lt_succ room) reached, UInt64.le_refl _⟩

theorem advanceLsnTo_eq (wal : Wal) (lsn : UInt64) :
    ∃ number, wal.advanceLsnTo lsn = { wal with nextLsn := number } := by
  unfold Wal.advanceLsnTo
  extract_lets needed
  by_cases behind : wal.nextLsn < needed
  · exact ⟨needed, if_pos behind⟩
  · exact ⟨wal.nextLsn, if_neg behind⟩

theorem advanceLsnTo_logReads {lsn : UInt64} (reads : LogReads host state lsns) :
    LogReads host { state with wal := state.wal.advanceLsnTo lsn } lsns := by
  obtain ⟨earlier, last, isOpen, complete, isRead⟩ := reads
  obtain ⟨number, advanced⟩ := advanceLsnTo_eq state.wal lsn
  rw [advanced]
  exact ⟨earlier, last, ⟨isOpen.holds, isOpen.current, isOpen.file⟩, complete, isRead⟩

variable {opened : WalState} {bound : UInt64}

theorem openWithSegmentLimit_eq_good {directory : Directory}
    (isOpened : openWithSegmentLimit host os limit directory = .ok opened) :
    openWithSegmentLimit host (good os.now) limit directory = .ok opened := by
  unfold openWithSegmentLimit at isOpened
  split at isOpened
  · cases isOpened
  · exact isOpened

theorem openWithSegmentLimit_logReads (reads : LogReads host state lsns)
    (below : ∀ lsn ∈ lsns, lsn < bound) (pos : 0 < bound)
    (isOpened : openWithSegmentLimit host os limit state.directory = .ok opened) :
    LogReads host opened lsns ∧ 0 < opened.wal.nextLsn ∧
      ∀ lsn ∈ lsns, lsn < opened.wal.nextLsn := by
  obtain ⟨earlier, last, isOpen, complete, isRead⟩ := reads
  obtain ⟨again, asOpened, againOpen, -, nextLsn⟩ :=
    openWithSegmentLimit_last host os.now limit isOpen.holds
  have same := (openWithSegmentLimit_eq_good isOpened).symm.trans asOpened
  cases same
  have maxBelow : maxLsn ((earlier ++ [last]).flatMap (records host)) < bound := by
    rcases maxLsn_cases ((earlier ++ [last]).flatMap (records host)) with
      isZero | ⟨record, mem, isMax⟩
    · rw [isZero]
      exact pos
    · rw [← isMax]
      apply below
      rw [← isRead]
      exact mem_map_of_mem mem
  have above := lt_succ (succ_lt_of_lt maxBelow)
  rw [← nextLsn] at above
  refine ⟨⟨earlier, last, againOpen, complete, isRead⟩, ?_, ?_⟩
  · exact UInt64.lt_of_le_of_lt UInt64.zero_le above
  · intro lsn mem
    rw [← isRead] at mem
    obtain ⟨record, inLog, rfl⟩ := mem_map.mp mem
    exact UInt64.lt_of_le_of_lt (le_maxLsn inLog) above

theorem reopen_logReads {dir next : DataDir β} (reads : LogReads host dir.log lsns)
    (below : ∀ lsn ∈ lsns, lsn < bound) (pos : 0 < bound)
    (sidecarBelow : ∀ last, readLastLsn dir.files = some last → last < bound)
    (reopened : reopen host os limit dir = .ok next) :
    next.files = dir.files ∧ LogReads host next.log lsns ∧
      0 < next.log.wal.nextLsn ∧ (∀ lsn ∈ lsns, lsn < next.log.wal.nextLsn) ∧
      ∀ last, readLastLsn dir.files = some last → last < next.log.wal.nextLsn := by
  obtain ⟨opened, isOpened, rest⟩ := except_ok_iff.mp reopened
  obtain ⟨openedReads, openedPositive, openedBelow⟩ :=
    openWithSegmentLimit_logReads reads below pos isOpened
  cases sidecar : readLastLsn dir.files with
  | none =>
    rw [sidecar] at rest
    cases rest
    refine ⟨rfl, openedReads, openedPositive, openedBelow, ?_⟩
    intro last isLast
    cases isLast
  | some lsn =>
    rw [sidecar] at rest
    cases rest
    obtain ⟨above, grows⟩ :=
      @advanceLsnTo_nextLsn opened.wal lsn (succ_lt_of_lt (sidecarBelow lsn sidecar))
    refine
      ⟨rfl, advanceLsnTo_logReads openedReads, UInt64.lt_of_lt_of_le openedPositive grows, ?_, ?_⟩
    · intro earlier mem
      exact UInt64.lt_of_lt_of_le (openedBelow earlier mem) grows
    · rintro last ⟨⟩
      exact above

end

namespace History

variable {β : Type} {host : WalHost} {hist : History β}

structure Sound (host : WalHost) (hist : History β) : Prop where
  reads : LogReads host hist.state.log hist.after
  started : 0 < hist.state.log.wal.nextLsn
  increasing : (hist.before ++ hist.after).Pairwise (· < ·)
  below : ∀ lsn ∈ hist.before ++ hist.after, lsn < hist.state.log.wal.nextLsn
  unsaved : readLastLsn hist.state.files = none → hist.before = []
  saved : ∀ last, readLastLsn hist.state.files = some last →
      last < hist.state.log.wal.nextLsn ∧
        (∀ lsn ∈ hist.before, lsn ≤ last) ∧ ∀ lsn ∈ hist.after, last < lsn

namespace Sound

variable (sound : hist.Sound host)

include sound

theorem separated : hist.Separated := by
  constructor
  · intro lsn mem
    cases sidecar : readLastLsn hist.state.files with
    | none =>
      rw [sound.unsaved sidecar] at mem
      cases mem
    | some last => exact ⟨last, rfl, (sound.saved last sidecar).2.1 lsn mem⟩
  · intro lsn mem last isLast
    exact (sound.saved last isLast).2.2 lsn mem
  · exact sound.increasing.imp fun less => UInt64.ne_of_lt less

theorem advance {log : WalState} (reads : LogReads host log hist.after)
    (grows : hist.state.log.wal.nextLsn ≤ log.wal.nextLsn) :
    Sound host { hist with state.log := log } := by
  refine { sound with reads := reads, started := ?_, below := ?_, saved := ?_ }
  · exact UInt64.lt_of_lt_of_le sound.started grows
  · intro lsn mem
    exact UInt64.lt_of_lt_of_le (sound.below lsn mem) grows
  · intro last isLast
    obtain ⟨below, covered, later⟩ := sound.saved last isLast
    exact ⟨UInt64.lt_of_lt_of_le below grows, covered, later⟩

theorem appended {log : WalState}
    (reads : LogReads host log (hist.after ++ [hist.state.log.wal.nextLsn]))
    (grows : hist.state.log.wal.nextLsn < log.wal.nextLsn) :
    Sound host
      { hist with
        state.log := log
        after := hist.after ++ [hist.state.log.wal.nextLsn] } := by
  constructor
  · exact reads
  · exact UInt64.lt_trans sound.started grows
  · rw [← append_assoc, pairwise_append]
    refine ⟨sound.increasing, pairwise_singleton _ _, ?_⟩
    intro lsn mem next isNext
    rw [mem_singleton.mp isNext]
    exact sound.below lsn mem
  · rw [← append_assoc, forall_mem_append, forall_mem_singleton]
    refine ⟨?_, grows⟩
    intro lsn mem
    exact UInt64.lt_trans (sound.below lsn mem) grows
  · exact sound.unsaved
  · intro last isLast
    obtain ⟨below, covered, later⟩ := sound.saved last isLast
    refine ⟨UInt64.lt_trans below grows, covered, ?_⟩
    rw [forall_mem_append, forall_mem_singleton]
    exact ⟨later, below⟩

theorem checkpointed {next : DataDir β} (reads : LogReads host next.log [])
    (sameLsn : next.log.wal.nextLsn = hist.state.log.wal.nextLsn)
    (sidecar : readLastLsn next.files = some hist.state.log.wal.currentLsn) :
    Sound host { state := next, before := hist.before ++ hist.after, after := [] } := by
  have cur : hist.state.log.wal.currentLsn.toNat + 1 = hist.state.log.wal.nextLsn.toNat :=
    currentLsn_succ (UInt64.lt_iff_toNat_lt.mp sound.started)
  constructor
  · exact reads
  · rw [sameLsn]
    exact sound.started
  · rw [append_nil]
    exact sound.increasing
  · rw [append_nil, sameLsn]
    exact sound.below
  · intro noSidecar
    rw [sidecar] at noSidecar
    cases noSidecar
  · intro last isLast
    rw [sidecar] at isLast
    cases isLast
    refine ⟨?_, ?_, forall_mem_nil _⟩
    · rw [sameLsn, UInt64.lt_iff_toNat_lt]
      omega
    · intro lsn mem
      have less := UInt64.lt_iff_toNat_lt.mp (sound.below lsn mem)
      rw [UInt64.le_iff_toNat_le]
      omega

theorem interrupted {dir : DataDir β} (sameLog : dir.log = hist.state.log)
    (sameSidecar : dir.files.sidecar = hist.state.files.sidecar) :
    Sound host { hist with state := dir } := by
  have sameLast : readLastLsn dir.files = readLastLsn hist.state.files := by
    unfold readLastLsn
    rw [sameSidecar]
  obtain ⟨files, log, left⟩ := dir
  subst sameLog
  refine { sound with unsaved := ?_, saved := ?_ }
  · rw [sameLast]
    exact sound.unsaved
  · rw [sameLast]
    exact sound.saved

theorem restarted {os : Os} {limit : UInt64} {next : DataDir β}
    (reopened : reopen host os limit hist.state = .ok next) :
    Sound host { hist with state := next } := by
  have afterBelow : ∀ lsn ∈ hist.after, lsn < hist.state.log.wal.nextLsn :=
    fun lsn mem => sound.below lsn (mem_append_right _ mem)
  obtain ⟨sameFiles, reads, pos, below, sidecarBelow⟩ :=
    reopen_logReads sound.reads afterBelow sound.started
      (fun last isLast => (sound.saved last isLast).1) reopened
  refine { sound with reads := reads, started := pos, below := ?_, unsaved := ?_, saved := ?_ }
  · rw [forall_mem_append]
    refine ⟨?_, below⟩
    intro lsn mem
    obtain ⟨last, isLast, covered⟩ := sound.separated.covered lsn mem
    exact UInt64.lt_of_le_of_lt covered (sidecarBelow last isLast)
  · rw [sameFiles]
    exact sound.unsaved
  · rw [sameFiles]
    intro last isLast
    exact ⟨sidecarBelow last isLast, (sound.saved last isLast).2⟩

omit sound

theorem step (json : host.ReadsJson) (sound : hist.Sound host)
    {event : LogEvent} {next : History β} (allowed : Allowed hist event)
    (stepped : hist.step host event = some next) : next.Sound host := by
  cases event with
  | append record os =>
    have number : given hist.state.log = [hist.state.log.wal.nextLsn] := by
      obtain ⟨earlier, last, isOpen, -⟩ := sound.reads
      unfold given
      rw [isOpen.file]
    obtain ⟨log, out⟩ := @append_logReads host _ _ os record json sound.reads allowed
    rcases out with ⟨ran, reads, grows⟩ | ⟨failed, reads, grows⟩
    · rw [History.step, ran, afterAppend, number] at stepped
      cases stepped
      exact sound.appended reads grows
    · rw [History.step, failed] at stepped
      cases stepped
      exact sound.advance reads grows
  | saveAndTruncate text left =>
    cases left with
    | none =>
      obtain ⟨dir, ran, reads, sameLsn, sidecar⟩ :=
        @saveAndTruncate_run β host _ { hist.state with left := none } text rfl sound.reads
      rw [History.step, ran] at stepped
      cases stepped
      exact sound.checkpointed reads sameLsn sidecar
    | some count =>
      obtain ⟨dir, failed, sameLog, sameSidecar⟩ :=
        @saveAndTruncate_stopped β hist.state text count (allowed count rfl)
      rw [History.step, failed] at stepped
      cases stepped
      exact sound.interrupted sameLog sameSidecar
  | restart os limit =>
    rw [History.step] at stepped
    split at stepped
    swap
    · cases stepped
    · next dir reopened =>
      cases stepped
      exact sound.restarted reopened

end Sound

theorem sound_fresh {os : Os} {limit : UInt64} {opened : WalState}
    (isOpened : openWithSegmentLimit host os limit ∅ = .ok opened) :
    (fresh β opened).Sound host := by
  obtain ⟨first, earlier, last, asOpened, isLog, isOpen, -, nextLsn⟩ :=
    openWithSegmentLimit_good host os.now limit holds_empty
  have same := (openWithSegmentLimit_eq_good isOpened).symm.trans asOpened
  cases same
  have single : [] ++ [_] = earlier ++ [last] := isLog
  obtain ⟨before, lasts⟩ := append_inj' single rfl
  obtain rfl := before
  obtain rfl := (cons.inj lasts).1
  constructor
  · exact ⟨_, _, isOpen, rfl, rfl⟩
  · show 0 < opened.wal.nextLsn
    rw [nextLsn]
    exact (by decide : (0 : UInt64) < 0 + 1)
  · exact .nil
  · exact forall_mem_nil _
  · exact fun _ => rfl
  · intro last isLast
    cases isLast

end History

/-- In every history of allowed operations the sidecar separates the records
before the last completed checkpoint from those after it, and no two records
have the same number. -/
theorem checkpoint_separates_records {β : Type} {host : WalHost} (json : host.ReadsJson)
    {os : Os} {limit : UInt64} {opened : WalState}
    (isOpened : openWithSegmentLimit host os limit ∅ = .ok opened)
    {events : List LogEvent} {final : History β}
    (run : Run (History.step host) History.Allowed (History.fresh β opened) events final) :
    final.Separated := by
  have sound : final.Sound host := by
    refine run.invariant (History.Sound host) ?_ (History.sound_fresh isOpened)
    intro hist event next before allowed ran
    exact before.step json allowed ran
  exact sound.separated

namespace Example

def freshHistory : History Unit := History.fresh Unit (emptyLog 1000)

def checkpointed : List LogEvent :=
  [.append (.begin 1) (good 5), .saveAndTruncate [] none, .restart (good 6) 1000]

theorem checkpoint_separates_records_checkpointed : ∃ final : History Unit,
      Run (History.step zeroHost) History.Allowed freshHistory checkpointed final ∧
        final.before = [1] ∧ final.Separated := by
  have json : zeroHost.ReadsJson := readsJson_compactHost _
  have opened := openWithSegmentLimit_empty zeroHost 1000
  have sound : freshHistory.Sound zeroHost := History.sound_fresh opened
  have allowed : History.Allowed freshHistory (.append (.begin 1) (good 5)) :=
    .inr ⟨rfl, .inl rfl, by decide, by decide⟩
  obtain ⟨hist, appended, after⟩ : ∃ hist,
        freshHistory.step zeroHost (.append (.begin 1) (good 5)) = some hist ∧
          hist.before ++ hist.after = [1] :=
    ⟨_, rfl, rfl⟩
  obtain ⟨dir, ran, -⟩ := @saveAndTruncate_run Unit zeroHost _ { hist.state with left := none }
      [] rfl (sound.step json allowed appended).reads
  have saved : hist.step zeroHost (.saveAndTruncate [] none) =
        some { state := dir, before := [1], after := [] } := by
    rw [History.step, ran, History.afterSave, after]
  obtain ⟨final, restarted, before⟩ : ∃ final : History Unit,
        History.step zeroHost { state := dir, before := [1], after := [] }
            (.restart (good 6) 1000) = some final ∧
          final.before = [1] :=
    ⟨_, rfl, rfl⟩
  have run : Run (History.step zeroHost) History.Allowed freshHistory checkpointed final :=
    .cons allowed appended
      (.cons (by rintro _ ⟨⟩) saved (.cons trivial restarted (.nil final)))
  exact ⟨final, run, before, checkpoint_separates_records json opened run⟩

def fullDisk : Os := { good 5 with writeStops := some 1 }

/-- The first append fails; the second one goes on behind its byte. -/
def numberedAgain : List LogEvent :=
  [.append (.commit 7) fullDisk, .append (.commit 7) (good 6),
    .restart (good 7) 1000, .append (.commit 8) (good 8), .append (.commit 9) (good 9)]

def lostRecord : WalRecord := (commit 7).stamped 2 6

def lostLog : WalState :=
  { directory := ((emptyLog 1000).directory.write (segmentName 0) (utf8 ['1'])).write
        (segmentName 0) (lostRecord.lineBytes lengthHost)
    wal := { (emptyLog 1000).wal with nextLsn := 3 } }

theorem holds_lostLog :
    Holds lostLog.directory ([] ++ [tornSegment.appendLine (lostRecord.line lengthHost)]) := by
  have opened := holds_empty.openAppend_max.1
  rw [holds_empty.scanMaxSegment_nil] at opened
  have tornPrintable : tornSegment.Printable :=
    ⟨forall_mem_nil _, all_eq_true.mp (by decide)⟩
  have torn := @Holds.write_last _ [] _ opened tornSegment ['1'] rfl rfl tornPrintable
  exact torn.write_last rfl text_appendLine (tornPrintable.appendLine printable_line)

theorem records_lostLog : ([] ++ [tornSegment.appendLine (lostRecord.line lengthHost)]).flatMap
      (records lengthHost) = [] := rfl

/-- The record behind the byte is not read again, and its number is given to
another one. -/
theorem number_given_twice : ∃ final : History Unit,
      openWithSegmentLimit lengthHost (good 0) 1000 ∅ = .ok (emptyLog 1000) ∧
        Run (History.step lengthHost) anyStep freshHistory numberedAgain final ∧
        final.after = [2, 1, 2] ∧ ¬ final.Separated := by
  obtain ⟨log, opened, isOpen, -, nextLsn⟩ :=
    openWithSegmentLimit_last lengthHost 7 1000 holds_lostLog
  have first : log.wal.nextLsn = 1 := by
    rw [nextLsn, records_lostLog]
    rfl
  obtain ⟨middle, fourth, middleOpen, -, middleLsn⟩ :=
    append_good lengthHost 8 (.commit 8) isOpen (by decide)
  have lastRoom : (appendedLog log.wal.segmentLimit []
      (tornSegment.appendLine (lostRecord.line lengthHost))
      (((commit 8).stamped log.wal.nextLsn 8).line lengthHost)).2.number.toNat + 1 < 2 ^ 64 := by
    have bound := (appendedLog_last log.wal.segmentLimit [] _
        (((commit 8).stamped log.wal.nextLsn 8).line lengthHost) (by decide :
          (tornSegment.appendLine (lostRecord.line lengthHost)).number.toNat + 1 < 2 ^ 64)).2
    exact Nat.lt_of_le_of_lt (Nat.succ_le_succ bound) (by decide)
  obtain ⟨last, fifth, -⟩ := append_good lengthHost 9 (.commit 9) middleOpen lastRoom
  let dirOf (log : WalState) : DataDir Unit :=
    { files := CheckpointFiles.empty Unit, log := log, left := none }
  have openStep : History.step lengthHost
          { state := dirOf lostLog, before := [], after := [2] } (.restart (good 7) 1000) =
        some { state := dirOf log, before := [], after := [2] } := by
    have reopened : reopen lengthHost (good 7) 1000 (dirOf lostLog) = .ok (dirOf log) := by
      unfold reopen
      rw [opened]
      rfl
    rw [History.step, reopened]
  have fourthStep : History.step lengthHost
          { state := dirOf log, before := [], after := [2] } (.append (.commit 8) (good 8)) =
        some { state := dirOf middle, before := [], after := [2, 1] } := by
    rw [History.step, fourth, History.afterAppend, History.given, isOpen.file, first]
    rfl
  have fifthStep : History.step lengthHost { state := dirOf middle, before := [], after := [2, 1] }
          (.append (.commit 9) (good 9)) =
        some { state := dirOf last, before := [], after := [2, 1, 2] } := by
    rw [History.step, fifth, History.afterAppend, History.given, middleOpen.file, middleLsn, first]
    rfl
  refine ⟨{ state := dirOf last, before := [], after := [2, 1, 2] },
      openWithSegmentLimit_empty lengthHost 1000, ?_, rfl, ?_⟩
  · exact .cons trivial rfl (.cons trivial rfl (.cons trivial openStep
          (.cons trivial fourthStep (.cons trivial fifthStep (.nil _)))))
  · intro separated
    have distinct : ([2, 1, 2] : List UInt64).Nodup := separated.distinct
    exact absurd distinct (by decide)

end Example

end TurboGP.Storage
