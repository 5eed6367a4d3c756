import Mathlib.Data.Finmap
import Mathlib.Data.Multiset.Sort
import TurboGP.Lib.Effect
import TurboGP.Storage.RecordLines

/-!
# The write-ahead log

The segmented log of `storage/recovery.rs`: a directory of files `wal-<n>.log`,
the open log with its counters, and the operations on them.
-/

namespace TurboGP.Storage

open Sql.Text Server

inductive WalError
  | os
  | notFound
  | invalidUtf8
  | replication (message : String)
  deriving DecidableEq, Repr

/-- The bytes of a file; the first `durable` of them survive a crash. -/
structure DiskFile where
  bytes : Bytes
  durable : Nat
  durable_le : durable ≤ bytes.length
  deriving DecidableEq

namespace DiskFile

def empty : DiskFile :=
  { bytes := [], durable := 0, durable_le := Nat.le_refl 0 }

def append (file : DiskFile) (more : Bytes) : DiskFile :=
  { bytes := file.bytes ++ more
    durable := file.durable
    durable_le := by
      rw [List.length_append]
      exact Nat.le_add_right_of_le file.durable_le }

/-- `sync_all`: every byte that the file has is durable. -/
def synced (file : DiskFile) : DiskFile :=
  { bytes := file.bytes, durable := file.bytes.length, durable_le := Nat.le_refl _ }

end DiskFile

abbrev Directory := Finmap fun _ : List Char => DiskFile

def segmentName (n : UInt64) : List Char := "wal-".toList ++ decimal n.toNat ++ ".log".toList

def stripStart (start text : List Char) : Option (List Char) :=
  if start.isPrefixOf text then some (text.drop start.length) else none

def stripEnd (ending text : List Char) : Option (List Char) :=
  if ending.isSuffixOf text then
    some (text.take (text.length - ending.length))
  else none

def segmentNumber (name : List Char) : Option UInt64 := do
  let rest ← stripStart "wal-".toList name
  let digits ← stripEnd ".log".toList rest
  let n ← parseU64 digits
  return UInt64.ofNat n

/-- `list_segments`: a number once for each name that has it. -/
def listSegments (directory : Directory) : List UInt64 :=
  (directory.keys.val.filterMap segmentNumber).sort (· ≤ ·)

def scanMaxSegment (directory : Directory) : UInt64 := (listSegments directory).foldl max 0

namespace Directory

/-- Open a file for appending; it is created when it is missing. -/
def openAppend (directory : Directory) (name : List Char) : Directory :=
  if name ∈ directory then directory
  else directory.insert name DiskFile.empty

/-- `metadata()?.len()`. -/
def size (directory : Directory) (name : List Char) : Nat :=
  match directory.lookup name with
  | some file => file.bytes.length
  | none => 0

def write (directory : Directory) (name : List Char) (bytes : Bytes) : Directory :=
  match directory.lookup name with
  | some file => directory.insert name (file.append bytes)
  | none => directory

def syncAll (directory : Directory) (name : List Char) : Directory :=
  match directory.lookup name with
  | some file => directory.insert name file.synced
  | none => directory

end Directory

/-- `BufRead::lines` on a terminated line: a carriage return goes too. -/
def stripReturn (line : Bytes) : Bytes :=
  if line.getLast? = some 13 then line.dropLast else line

def fileLines (bytes : Bytes) : List Bytes :=
  let (complete, tail) := Fields.lines 10 bytes
  complete.map stripReturn ++ (if tail = [] then [] else [tail])

def decodeLine (line : Bytes) : Except WalError (List Char) :=
  match fromUtf8 line with
  | some text => .ok text
  | none => .error .invalidUtf8

def readSegment (host : WalHost) (directory : Directory) (n : UInt64) :
    Except WalError (List WalRecord) :=
  match directory.lookup (segmentName n) with
  | none => .error .notFound
  | some file => do
    let texts ← (fileLines file.bytes).mapM decodeLine
    return texts.filterMap (readLine host)

def readAll (host : WalHost) (directory : Directory) : Except WalError (List WalRecord) := do
  let segments ← (listSegments directory).mapM (readSegment host directory)
  return segments.flatten

/-- `Wal`.  The file is the number of the segment that it was opened on. -/
structure Wal where
  currentSegment : UInt64
  file : Option UInt64
  nextLsn : UInt64
  segmentLimit : UInt64
  lastSyncedLsn : UInt64
  deriving DecidableEq, Repr

structure WalState where
  directory : Directory
  wal : Wal

abbrev WalM := EStateM WalError WalState

/-- What the operating system answers to the calls of one operation: the time,
which of them fail, and after how many bytes a write that fails stops. -/
structure Os where
  now : UInt64
  metadataFails : Bool
  openFails : Bool
  writeStops : Option Nat
  syncFails : Bool

def Os.good (now : UInt64) : Os :=
  { now := now, metadataFails := false, openFails := false, writeStops := none, syncFails := false }

/-- `records.iter().map(|r| r.lsn).max().unwrap_or(0)`. -/
def maxLsn (records : List WalRecord) : UInt64 := (records.map WalRecord.lsn).foldl max 0

/-- The next number after what the log has; 1 when it cannot be read. -/
def lsnAfter (host : WalHost) (directory : Directory) : UInt64 :=
  match readAll host directory with
  | .ok records => maxLsn records + 1
  | .error _ => 1

def openWithSegmentLimit (host : WalHost) (os : Os) (segmentLimit : UInt64)
    (directory : Directory) : Except WalError WalState :=
  if os.openFails then .error .os
  else
    let segment := scanMaxSegment directory
    let opened := directory.openAppend (segmentName segment)
    .ok
      { directory := opened
        wal :=
          { currentSegment := segment, file := some segment, nextLsn := lsnAfter host opened
            segmentLimit := segmentLimit, lastSyncedLsn := 0 } }

def Wal.currentLsn (wal : Wal) : UInt64 :=
  if wal.nextLsn = 0 then 0 else wal.nextLsn - 1

/-- Open the next segment; its number has grown also when that fails. -/
def rotate (os : Os) : WalM Unit := do
  modify fun state =>
    { state with
      wal.currentSegment := state.wal.currentSegment + 1 }
  if os.openFails then throw .os
  else
    modify fun state =>
      { state with
        directory := state.directory.openAppend (segmentName state.wal.currentSegment)
        wal.file := some state.wal.currentSegment }

def maybeRotate (os : Os) : WalM Unit := do
  let state ← get
  match state.wal.file with
  | none => return
  | some segment =>
    if os.metadataFails then throw .os
    else if state.wal.segmentLimit.toNat ≤ state.directory.size (segmentName segment) then rotate os
    else return

theorem maybeRotate_run {os : Os} {state : WalState} {segment : UInt64}
    (isFile : state.wal.file = some segment) :
    maybeRotate os state =
      if os.metadataFails then .error .os state
      else if state.wal.segmentLimit.toNat ≤ state.directory.size (segmentName segment) then
        rotate os state
      else .ok () state := by
  unfold maybeRotate
  rw [Effect.get_bind_run, isFile]
  simp only
  split
  · rfl
  · split <;> rfl

/-- The record as it is written: the log gives its number and the time. -/
def WalRecord.stamped (record : WalRecord) (lsn now : UInt64) : WalRecord :=
  { record with lsn := lsn, timestampUs := now }

def WalRecord.lineBytes (host : WalHost) (record : WalRecord) : Bytes :=
  utf8 (record.line host ++ ['\n'])

def writeAll (os : Os) (segment : UInt64) (bytes : Bytes) : WalM Unit := do
  let kept := match os.writeStops with
    | none => bytes
    | some count => bytes.take count
  modify fun state =>
    { state with
      directory := state.directory.write (segmentName segment) kept }
  if os.writeStops.isSome then throw .os else return

/-- The part of `append` after the rotation; a log that was closed takes the
record and does nothing. -/
def writeRecord (host : WalHost) (os : Os) (record : WalRecord) : WalM Unit := do
  let state ← get
  match state.wal.file with
  | none => return
  | some segment =>
    let lsn := state.wal.nextLsn
    modify fun state => { state with wal.nextLsn := lsn + 1 }
    writeAll os segment ((record.stamped lsn os.now).lineBytes host)

def append (host : WalHost) (os : Os) (record : WalRecord) : WalM Unit := do
  maybeRotate os
  writeRecord host os record

def appendAsync (host : WalHost) (os : Os) (record : WalRecord) : WalM UInt64 := do
  append host os record
  let state ← get
  return state.wal.currentLsn

def syncFile (os : Os) : WalM Unit := do
  let state ← get
  match state.wal.file with
  | none => return
  | some segment =>
    if os.syncFails then throw .os
    else
      set { state with
        directory := state.directory.syncAll (segmentName segment) }

def sync (os : Os) : WalM Unit := do
  syncFile os
  modify fun state => { state with wal.lastSyncedLsn := state.wal.currentLsn }

def syncToLsn (os : Os) (lsn : UInt64) : WalM Unit := do
  let state ← get
  if state.wal.lastSyncedLsn < lsn then
    syncFile os
    modify fun state => { state with wal.lastSyncedLsn := lsn }
  else return

def flushGroup (os : Os) (lsns : List UInt64) : WalM Unit := syncToLsn os (lsns.foldl max 0)

/-! ## The data directory -/

/-- The checkpoint files; `β` is the content of `checkpoint.bin`. -/
structure CheckpointFiles (β : Type) where
  bin : Option β
  binTmp : Option β
  sql : Option (List Char)
  sqlTmp : Option (List Char)
  sidecar : Option (List Char)

def CheckpointFiles.empty (β : Type) : CheckpointFiles β :=
  { bin := none, binTmp := none, sql := none, sqlTmp := none, sidecar := none }

/-- A data directory with the log that a process has open on it. -/
structure DataDir (β : Type) where
  files : CheckpointFiles β
  log : WalState
  /-- How many more file operations succeed; all of them when `none`. -/
  left : Option Nat

abbrev DirM (β : Type) := EStateM WalError (DataDir β)

section

variable {β : Type}

def fileOp (change : DataDir β → DataDir β) : DirM β Unit := do
  let state ← get
  if state.left = some 0 then throw .os
  else set { change state with left := state.left.map (· - 1) }

def removeSegment (n : UInt64) : DirM β Unit := do
  let state ← get
  if segmentName n ∈ state.log.directory then
    fileOp fun state =>
      { state with
        log.directory := state.log.directory.erase (segmentName n) }
  else throw .notFound

/-- `Wal::truncate`.  The numbers go on; a log whose truncation fails is left
closed. -/
def truncate : DirM β Unit := do
  modify fun state => { state with log.wal.file := none }
  fileOp id
  let state ← get
  forM (listSegments state.log.directory) removeSegment
  modify fun state => { state with log.wal.currentSegment := 0 }
  fileOp fun state =>
    { state with
      log.directory := state.log.directory.openAppend (segmentName 0) }
  modify fun state => { state with log.wal.file := some 0 }

/-- `Checkpoint::save_and_truncate`, for the text that `Checkpoint::save`
writes. -/
def saveAndTruncate (text : List Char) : DirM β Unit := do
  fileOp fun state => { state with files.sqlTmp := some text }
  fileOp id
  fileOp fun state =>
    { state with
      files.sql := state.files.sqlTmp
      files.sqlTmp := none }
  fileOp fun state =>
    { state with
      files.sidecar := some (decimal state.log.wal.currentLsn.toNat) }
  truncate

def readLastLsn (files : CheckpointFiles β) : Option UInt64 := do
  let content ← files.sidecar
  let n ← parseU64 (trim content)
  return UInt64.ofNat n

def Wal.advanceLsnTo (wal : Wal) (lsn : UInt64) : Wal :=
  let needed := if lsn = 18446744073709551615 then lsn else lsn + 1
  if wal.nextLsn < needed then { wal with nextLsn := needed } else wal

/-- The part of `with_data_dir` that opens the log: it is opened on its
directory, and its counter is moved behind the number in the sidecar. -/
def reopen (host : WalHost) (os : Os) (segmentLimit : UInt64)
    (state : DataDir β) : Except WalError (DataDir β) := do
  let opened ← openWithSegmentLimit host os segmentLimit state.log.directory
  let wal := match readLastLsn state.files with
    | some lsn => opened.wal.advanceLsnTo lsn
    | none => opened.wal
  pure
    { files := state.files
      log := { opened with wal := wal }
      left := none }

end

end TurboGP.Storage
