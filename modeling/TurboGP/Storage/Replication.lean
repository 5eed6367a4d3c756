import TurboGP.Lib.FiniteMap
import TurboGP.Storage.Wal

/-!
# Append with replication

`append_and_sync` of `storage/recovery.rs`: a record goes to Raft when a handle
is attached, then into the log and to the disk, and last to the replication
sink.
-/

namespace TurboGP.Storage

open Server Effect Directory Option

structure SinkAnswer where
  stream : Except String Unit
  syncWait : Except String Unit

structure Replication where
  /-- The answer of `client_write`, when a Raft handle is attached. -/
  raft : Option (Except String Unit)
  /-- `none` also when the lock of the sink is poisoned. -/
  sink : Option SinkAnswer
  isSynchronous : Bool

namespace Replication

def alone : Replication :=
  { raft := none, sink := none, isSynchronous := false }

def propose (replication : Replication) : WalM Unit :=
  match replication.raft with
  | some (.error message) => throw (.replication ("raft client_write failed: " ++ message))
  | _ => pure ()

def stream (replication : Replication) : WalM Unit :=
  match replication.sink with
  | none => pure ()
  | some answer =>
    match answer.stream with
    | .ok _ =>
      if replication.isSynchronous then
        match answer.syncWait with
        | .ok _ => pure ()
        | .error message => throw (.replication ("replication sync_wait failed: " ++ message))
      else pure ()
    | .error message =>
      if replication.isSynchronous then
        throw (.replication ("replication stream failed: " ++ message))
      else pure ()

end Replication

def appendAndSync (host : WalHost) (os : Os) (replication : Replication)
    (record : WalRecord) : WalM Unit := do
  replication.propose
  append host os record
  sync os
  replication.stream

/-- Nobody refused the record before it was written. -/
def Replication.accepts (replication : Replication) : Bool :=
  match replication.raft with
  | some (.error _) => false
  | _ => true

def Os.taken (os : Os) (bytes : Bytes) : Bytes :=
  match os.writeStops with
  | none => bytes
  | some count => bytes.take count

/-- The segments with what the operating system takes of a record. -/
def filesAfter (host : WalHost) (os : Os) (replication : Replication)
    (record : WalRecord) (state : WalState) : Directory :=
  let line := (record.stamped state.wal.nextLsn os.now).lineBytes host
  match state.wal.file with
  | none => state.directory
  | some seg =>
    if !replication.accepts || os.metadataFails then state.directory
    else if state.wal.segmentLimit.toNat ≤
        state.directory.size (segmentName seg) then
      let next := segmentName (state.wal.currentSegment + 1)
      if os.openFails then state.directory
      else (state.directory.openAppend next).write next (os.taken line)
    else state.directory.write (segmentName seg) (os.taken line)

def Directory.SameBytes (directory other : Directory) : Prop :=
  ∀ name, (directory.lookup name).map DiskFile.bytes = (other.lookup name).map DiskFile.bytes

theorem Directory.SameBytes.refl (directory : Directory) :
    directory.SameBytes directory := fun _ => rfl

theorem sameBytes_syncAll (directory : Directory) (name : List Char) :
    (directory.syncAll name).SameBytes directory := by
  intro other
  unfold syncAll
  cases found : directory.lookup name with
  | none => rfl
  | some file =>
    rw [FiniteMap.lookup_insert_eq]
    by_cases same : other = name
    · rw [if_pos same, same, found]
      rfl
    · rw [if_neg same]

variable {directory other : Directory}

theorem listSegments_congr (same : directory.SameBytes other) :
    listSegments directory = listSegments other := by
  have keys : directory.keys = other.keys := by
    ext name
    have sameName := same name
    rw [Finmap.mem_keys, Finmap.mem_keys, ← Finmap.lookup_isSome,
      ← Finmap.lookup_isSome, ← isSome_map, sameName, isSome_map]
  unfold listSegments
  rw [keys]

theorem readSegment_congr (same : directory.SameBytes other) (host : WalHost) (n : UInt64) :
    readSegment host directory n = readSegment host other n := by
  have sameName := same (segmentName n)
  unfold readSegment
  cases first : directory.lookup (segmentName n) with
  | none =>
    rw [first] at sameName
    rw [map_eq_none_iff.mp sameName.symm]
  | some file =>
    rw [first] at sameName
    obtain ⟨second, found, sameFile⟩ := map_eq_some_iff.mp sameName.symm
    simp only [found, sameFile]

theorem readAll_congr (same : directory.SameBytes other) (host : WalHost) :
    readAll host directory = readAll host other := by
  unfold readAll
  rw [listSegments_congr same, funext (readSegment_congr same host)]

section

variable {host : WalHost} {os : Os} {replication : Replication}
  {record : WalRecord} {state : WalState}

theorem Replication.propose_run : replication.propose state =
      if replication.accepts then .ok () state
      else
        .error (.replication ("raft client_write failed: " ++
              match replication.raft with
              | some (.error message) => message
              | _ => ""))
          state := by
  unfold Replication.propose Replication.accepts
  rcases replication.raft with - | (message | answer) <;> rfl

theorem Replication.finalState_stream : finalState replication.stream state = state := by
  unfold Replication.stream finalState
  rcases replication.sink with - | ⟨streamed, waited⟩
  · rfl
  · rcases streamed with message | answer
    · cases replication.isSynchronous <;> rfl
    · cases replication.isSynchronous
      · rfl
      · cases waited <;> rfl

/-- The files of a log keep their bytes. -/
def SameFiles (old new : WalState) : Prop := new.directory.SameBytes old.directory

instance : IsPreorder WalState SameFiles where
  refl _ := .refl _
  trans _ _ _ first second name := (second name).trans (first name)

theorem sameFiles_sync : Moves SameFiles state (sync os) := by
  refine .bind ?_ fun _ _ _ => .modify (.refl _)
  refine .get_bind ?_
  split
  · exact .pure _
  · split
    · exact .throw _
    · exact .set (sameBytes_syncAll _ _)

theorem sync_good (now : UInt64) (state : WalState) :
    ∃ next, sync (Os.good now) state = .ok () next := by
  have synced : ∃ middle, syncFile (Os.good now) state = .ok () middle := by
    unfold syncFile
    rw [get_bind_run]
    cases state.wal.file <;> exact ⟨_, rfl⟩
  obtain ⟨middle, isMiddle⟩ := synced
  exact ⟨_, bind_run_ok isMiddle⟩

theorem writeRecord_directory {seg : UInt64} (isFile : state.wal.file = some seg) :
    (finalState (writeRecord host os record) state).directory =
      state.directory.write (segmentName seg)
        (os.taken ((record.stamped state.wal.nextLsn os.now).lineBytes host)) := by
  unfold writeRecord writeAll finalState Os.taken
  rw [get_bind_run, isFile]
  cases os.writeStops <;> rfl

theorem append_directory (accepts : replication.accepts = true) :
    (finalState (append host os record) state).directory =
      filesAfter host os replication record state := by
  unfold filesAfter
  rw [accepts]
  cases isFile : state.wal.file with
  | none =>
    unfold append maybeRotate finalState
    rw [bind_run_ok (by rw [get_bind_run, isFile]; rfl)]
    unfold writeRecord
    rw [get_bind_run, isFile]
    rfl
  | some seg =>
    have begins := @maybeRotate_run os state _ isFile
    unfold append
    cases metadataFails : os.metadataFails with
    | true =>
      rw [metadataFails] at begins
      unfold finalState
      rw [bind_run_error begins]
      rfl
    | false =>
      rw [metadataFails] at begins
      simp only [Bool.not_true, Bool.or_self, Bool.false_eq_true, if_false] at begins ⊢
      by_cases full : state.wal.segmentLimit.toNat ≤ state.directory.size (segmentName seg)
      · rw [if_pos full] at begins ⊢
        unfold rotate at begins
        cases openFails : os.openFails with
        | true =>
          rw [openFails] at begins
          unfold finalState
          rw [bind_run_error begins]
          rfl
        | false =>
          rw [openFails] at begins
          rw [finalState_bind_ok begins]
          exact writeRecord_directory rfl
      · rw [if_neg full] at begins ⊢
        rw [finalState_bind_ok begins]
        exact writeRecord_directory isFile

theorem sameBytes_appendAndSync : (finalState (appendAndSync host os replication record)
        state).directory.SameBytes
      (filesAfter host os replication record state) := by
  unfold appendAndSync
  cases accepts : replication.accepts with
  | false =>
    have refused := @Replication.propose_run replication state
    rw [accepts, if_neg (by decide)] at refused
    have unchanged : filesAfter host os replication record state = state.directory := by
      unfold filesAfter
      rw [accepts]
      cases state.wal.file <;> rfl
    unfold finalState
    rw [bind_run_error refused, unchanged]
    exact .refl _
  | true =>
    have proposed := @Replication.propose_run replication state
    rw [accepts, if_pos rfl] at proposed
    rw [finalState_bind_ok proposed, ← append_directory accepts]
    exact Moves.after fun _ _ _ => .bind sameFiles_sync fun _ _ _ =>
      .unchanged Replication.finalState_stream

theorem readAll_appendAndSync : readAll host
        (finalState (appendAndSync host os replication record) state).directory =
      readAll host (filesAfter host os replication record state) :=
  readAll_congr sameBytes_appendAndSync host

end

end TurboGP.Storage
