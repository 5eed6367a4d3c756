import TurboGP.Lib.CrashPoints
import TurboGP.Storage.Truncation

/-! # The writes of a checkpoint -/

namespace TurboGP.Storage

open Sql.Text CrashPoints Effect Segment Performs List

/-- What a restart finds. -/
structure Disk (β : Type) where
  files : CheckpointFiles β
  directory : Directory

section

variable {β : Type}

def DataDir.disk (state : DataDir β) : Disk β :=
  { files := state.files, directory := state.log.directory }

def flushWithCheckpoint (bytes : β) (text : List Char) : DirM β Unit := do
  fileOp fun state => { state with files.binTmp := some bytes }
  fileOp id
  fileOp fun state =>
    { state with
      files.bin := state.files.binTmp
      files.binTmp := none }
  saveAndTruncate text

def view (β : Type) : View (DataDir β) (Disk β) UInt64 :=
  { disk := DataDir.disk, left := DataDir.left, kept := fun state => state.log.wal.nextLsn }

namespace Disk

def writeBinTmp (bytes : β) (disk : Disk β) : Disk β :=
  { disk with files.binTmp := some bytes }

def renameBin (disk : Disk β) : Disk β :=
  { disk with
    files.bin := disk.files.binTmp
    files.binTmp := none }

def writeSqlTmp (text : List Char) (disk : Disk β) : Disk β :=
  { disk with files.sqlTmp := some text }

def renameSql (disk : Disk β) : Disk β :=
  { disk with
    files.sql := disk.files.sqlTmp
    files.sqlTmp := none }

def writeSidecar (lsn : UInt64) (disk : Disk β) : Disk β :=
  { disk with files.sidecar := some (decimal lsn.toNat) }

def deleteSegment (n : UInt64) (disk : Disk β) : Disk β :=
  { disk with directory := disk.directory.erase (segmentName n) }

def openFirst (disk : Disk β) : Disk β :=
  { disk with directory := disk.directory.openAppend (segmentName 0) }

/-- `truncate`, for a log of these segments; it lists them first, which changes
nothing. -/
def truncateOps (segments : List UInt64) : List (Disk β → Disk β) :=
  id :: (segments.map deleteSegment ++ [openFirst])

def flushOps (bytes : β) (text : List Char) (lsn : UInt64)
    (segments : List UInt64) : List (Disk β → Disk β) :=
  writeBinTmp bytes :: id :: renameBin :: writeSqlTmp text :: id ::
    renameSql :: writeSidecar lsn :: truncateOps segments

end Disk

section

variable {state : DataDir β}

theorem fileOp_performs {change : DataDir β → DataDir β}
    {op : Disk β → Disk β} (disk : (change state).disk = op state.disk)
    (kept : (change state).log.wal.nextLsn = state.log.wal.nextLsn) :
    Performs (view β) (fileOp change) state [op] := by
  unfold Performs fileOp
  rw [get_bind_run]
  by_cases stopped : state.left = some 0
  · rw [if_pos stopped]
    exact ⟨0, stopped, Nat.one_pos, rfl⟩
  · rw [if_neg stopped]
    refine ⟨disk, rfl, kept, ?_⟩
    intro n isLeft
    have notZero : n ≠ 0 := by
      rintro rfl
      exact stopped isLeft
    exact Nat.one_le_iff_ne_zero.mpr notZero

variable {log : List Segment}

theorem removeSegments_performs (holds : Holds state.log.directory log) :
    Performs (view β) (forM (log.map number) removeSegment : DirM β Unit) state
      ((log.map number).map Disk.deleteSegment) := by
  induction log generalizing state with
  | nil => exact silent rfl rfl rfl rfl
  | cons first rest ih =>
    have removed : Performs (view β) (removeSegment first.number) state
        [Disk.deleteSegment first.number] := by
      unfold Performs
      rw [removeSegment_run holds]
      exact fileOp_performs rfl rfl
    refine removed.bind fun _ next disk _ _ => ih ?_
    have directory : next.log.directory = _ := congrArg Disk.directory disk
    rw [directory]
    exact holds.erase_first

theorem truncate_performs (holds : Holds state.log.directory log) :
    Performs (view β) (truncate : DirM β Unit) state (Disk.truncateOps (log.map number)) := by
  refine silent_bind rfl rfl rfl rfl ?_
  refine step (fileOp_performs rfl rfl) ?_
  intro _ listed listedDisk _
  refine get_bind ?_
  have isSame : listed.log.directory = state.log.directory := congrArg Disk.directory listedDisk
  rw [isSame, holds.listSegments_eq]
  refine bind (removeSegments_performs (isSame ▸ holds)) ?_
  intro _ emptied _ _ _
  refine silent_bind rfl rfl rfl rfl ?_
  refine step (fileOp_performs rfl rfl) ?_
  intro _ opened _ _
  exact silent rfl rfl rfl rfl

theorem currentLsn_congr {first second : Wal} (same : first.nextLsn = second.nextLsn) :
    first.currentLsn = second.currentLsn := by
  unfold Wal.currentLsn
  rw [same]

theorem saveAndTruncate_performs {text : List Char}
    {lsn : UInt64} (holds : Holds state.log.directory log)
    (isLsn : state.log.wal.currentLsn = lsn) :
    Performs (view β) (saveAndTruncate text) state (Disk.writeSqlTmp text :: id :: Disk.renameSql ::
        Disk.writeSidecar lsn :: Disk.truncateOps (log.map number)) := by
  refine step (fileOp_performs rfl rfl) ?_
  intro _ written writtenDisk writtenKept
  refine step (fileOp_performs rfl rfl) ?_
  intro _ synced syncedDisk syncedKept
  refine step (fileOp_performs rfl rfl) ?_
  intro _ renamed renamedDisk renamedKept
  have sameLsn : renamed.log.wal.currentLsn = lsn :=
    (currentLsn_congr (renamedKept.trans (syncedKept.trans writtenKept))).trans isLsn
  refine step (fileOp_performs ?_ rfl) ?_
  · rw [← sameLsn]
    rfl
  · intro _ marked markedDisk _
    have isSame : marked.log.directory = state.log.directory :=
      (congrArg Disk.directory markedDisk).trans
        ((congrArg Disk.directory renamedDisk).trans
          ((congrArg Disk.directory syncedDisk).trans (congrArg Disk.directory writtenDisk)))
    exact truncate_performs (isSame ▸ holds)

theorem flushWithCheckpoint_performs {log : List Segment} {bytes : β}
    {text : List Char} (holds : Holds state.log.directory log) :
    Performs (view β) (flushWithCheckpoint bytes text) state
      (Disk.flushOps bytes text state.log.wal.currentLsn (log.map number)) := by
  refine step (fileOp_performs rfl rfl) ?_
  intro _ written writtenDisk writtenKept
  refine step (fileOp_performs rfl rfl) ?_
  intro _ synced syncedDisk syncedKept
  refine step (fileOp_performs rfl rfl) ?_
  intro _ renamed renamedDisk renamedKept
  have isSame : renamed.log.directory = state.log.directory :=
    (congrArg Disk.directory renamedDisk).trans
      ((congrArg Disk.directory syncedDisk).trans (congrArg Disk.directory writtenDisk))
  refine saveAndTruncate_performs (isSame ▸ holds) ?_
  exact currentLsn_congr (renamedKept.trans (syncedKept.trans writtenKept))

theorem flushWithCheckpoint_run (bytes : β) (text : List Char) (free : state.left = none)
    (holds : Holds state.log.directory log) :
    ∃ directory, flushWithCheckpoint bytes text state = .ok ()
          { state with
            files :=
              { bin := some bytes, binTmp := none, sql := some text, sqlTmp := none
                sidecar := some (decimal state.log.wal.currentLsn.toNat) }
            log.directory := directory
            log.wal.currentSegment := 0
            log.wal.file := some 0 } ∧
      Holds directory [{ number := 0, lines := [], tail := [] }] := by
  let saved : DataDir β := { state with files.bin := some bytes, files.binTmp := none }
  obtain ⟨directory, truncated, emptied⟩ := @saveAndTruncate_eq β saved log text free holds
  have ran : flushWithCheckpoint bytes text state = saveAndTruncate text saved := by
    refine Eq.trans (bind_run_ok (fileOp_run _ free free)) ?_
    refine Eq.trans (bind_run_ok (fileOp_run id free free)) ?_
    exact bind_run_ok (fileOp_run _ free free)
  exact ⟨directory, ran.trans truncated, emptied⟩

end

theorem deleted_holds {log : List Segment} {disk : Disk β}
    (holds : Holds disk.directory log) (host : WalHost) (count : Nat) :
    ∃ left, Holds (apply (((log.map number).map Disk.deleteSegment ++
            [Disk.openFirst]).take count) disk).directory left ∧
      left.flatMap (records host) = (log.drop count).flatMap (records host) ∧
      (apply (((log.map number).map Disk.deleteSegment ++
            [Disk.openFirst]).take count) disk).files = disk.files := by
  induction log generalizing disk count with
  | nil =>
    cases count with
    | zero => exact ⟨[], holds, rfl, rfl⟩
    | succ more =>
      have opened := holds.openAppend_max.1
      rw [holds.scanMaxSegment_nil] at opened
      refine ⟨openedLog [], ?_, rfl, ?_⟩
      · rw [map_nil, map_nil, nil_append, take_succ_cons, take_nil]
        exact opened
      · rw [map_nil, map_nil, nil_append, take_succ_cons, take_nil]
        rfl
  | cons first rest ih =>
    cases count with
    | zero => exact ⟨first :: rest, holds, rfl, rfl⟩
    | succ more => exact @ih (Disk.deleteSegment first.number disk) holds.erase_first more

theorem flushed_early {bytes : β} {text : List Char} {lsn : UInt64}
    {numbers : List UInt64} (disk : Disk β) {count : Nat} (early : count < 3) :
    ∃ binTmp, apply ((Disk.flushOps bytes text lsn numbers).take count) disk =
      { disk with files.binTmp := binTmp } := by
  match count, early with
  | 0, _ => exact ⟨disk.files.binTmp, rfl⟩
  | 1, _ => exact ⟨some bytes, rfl⟩
  | 2, _ => exact ⟨some bytes, rfl⟩

theorem flushed_late {bytes : β} {text : List Char} {lsn : UInt64}
    {log : List Segment} {disk : Disk β} (host : WalHost)
    (holds : Holds disk.directory log) {count : Nat} (late : 3 ≤ count) :
    ∃ left after, apply ((Disk.flushOps bytes text lsn (log.map number)).take count) disk = after ∧
      after.files.bin = some bytes ∧
      after.files.sidecar = (if count < 7 then disk.files.sidecar else some (decimal lsn.toNat)) ∧
      Holds after.directory left ∧
      left.flatMap (records host) = (log.drop (count - 8)).flatMap (records host) := by
  match count, late with
  | 3, _ => exact ⟨log, _, rfl, rfl, rfl, holds, rfl⟩
  | 4, _ => exact ⟨log, _, rfl, rfl, rfl, holds, rfl⟩
  | 5, _ => exact ⟨log, _, rfl, rfl, rfl, holds, rfl⟩
  | 6, _ => exact ⟨log, _, rfl, rfl, rfl, holds, rfl⟩
  | 7, _ => exact ⟨log, _, rfl, rfl, rfl, holds, rfl⟩
  | more + 8, _ =>
    let marked : Disk β :=
      { disk with
        files.bin := some bytes
        files.binTmp := none
        files.sql := some text
        files.sqlTmp := none
        files.sidecar := some (decimal lsn.toNat) }
    obtain ⟨left, leftHolds, isRead, files⟩ := @deleted_holds β log marked holds host more
    refine ⟨left, _, rfl, ?_, ?_, leftHolds, ?_⟩
    · exact congrArg CheckpointFiles.bin files
    · rw [if_neg (by omega)]
      exact congrArg CheckpointFiles.sidecar files
    · rw [Nat.add_sub_cancel]
      exact isRead

end

end TurboGP.Storage
