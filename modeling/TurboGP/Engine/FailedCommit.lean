import TurboGP.Engine.MvccRecovery
import TurboGP.Storage.GroupCommit
import TurboGP.Storage.Replication

/-! # A COMMIT whose marker cannot be appended -/

namespace TurboGP.Engine

open Datasource Sql Txn Effect Storage MvccTxnManager
open List

structure DurableEngine where
  engine : SqlEngine
  log : WalState

def commitNumber (engine : SqlEngine) : UInt64 :=
  if engine.mvccEnabled then
    match engine.mvccTxnManager.commitCompat with
    | .ok (number, _) => UInt64.ofNat number
    | .error _ => 0
  else
    UInt64.ofNat ((engine.txnManager.active.map Transaction.id).getD 0)

def executeCommit (host : SqlHost) (depth : Nat) (walHost : WalHost)
    (os : Os) (replication : Replication) (ioText : WalError → String)
    (sql : List Char) : EStateM Fault DurableEngine QueryResult :=
  fun state =>
    match execute host depth sql state.engine with
    | .error fault next => .error fault { state with engine := next }
    | .ok res next =>
      match appendAndSync walHost os replication
          (.commit (commitNumber state.engine)) state.log with
      | .ok _ after => .ok res { engine := next, log := after }
      | .error error after =>
        .error (.error (.other ("WAL append_and_sync failed: " ++ ioText error)))
          { engine := next, log := after }

def Authored (catalog : Catalog) (id : Nat) : Prop :=
  ∃ name table, catalog.lookup name = some table ∧
    ∃ chain ∈ table.rowVersions, ∃ version ∈ chain, version.xmin = id ∨ version.xmax = some id

/-- The tables in memory have the effects of the transaction: its versions
count as committed, or the catalog is not the one from before. -/
def InMemory (before after : SqlEngine) (id : Nat) : Prop :=
  if before.mvccEnabled then
    (∃ number, after.mvccTxnManager.txnStates.lookup id = some (.committed number)) ∧
      Authored after.catalog id
  else after.catalog ≠ before.catalog

def AfterRestart (walHost : WalHost) (lastLsn : Option UInt64)
    (directory : Directory) (id : Nat) : Prop :=
  ∃ found, readAll walHost directory = .ok found ∧
    ∃ record ∈ replayedRecords lastLsn found, record.txnId = UInt64.ofNat id

def ChangedTables (engine : SqlEngine) (id : Nat) : Prop :=
  if engine.mvccEnabled then Authored engine.catalog id
  else
    ∃ txn, engine.txnManager.active = some txn ∧ txn.snapshot ≠ engine.catalog

/-- The records have a commit marker of the transaction, and a statement that
the checkpoint does not have. -/
def CommittedIn (lastLsn : Option UInt64) (records : List WalRecord) (id : Nat) : Prop :=
  (∃ record ∈ records, record.isCommit = true ∧ record.txnId = UInt64.ofNat id) ∧
    ∃ record ∈ records, record.txnId = UInt64.ofNat id ∧ record.isRollback = false ∧
      record.sql ≠ [] ∧ inCheckpoint lastLsn record = false

theorem exists_replayed_iff {lastLsn : Option UInt64} {records : List WalRecord} {id : Nat}
    (notZero : UInt64.ofNat id ≠ 0) :
    (∃ record ∈ replayedRecords lastLsn records, record.txnId = UInt64.ofNat id) ↔
      CommittedIn lastLsn records id := by
  have isCommitted : UInt64.ofNat id ∈ committedTxns records ↔
      ∃ record ∈ records, record.isCommit = true ∧ record.txnId = UInt64.ofNat id := by
    unfold committedTxns
    rw [mem_map]
    constructor
    · rintro ⟨record, mem, same⟩
      obtain ⟨inLog, marks⟩ := mem_filter.mp mem
      exact ⟨record, inLog, (Bool.and_eq_true_iff.mp marks).1, same⟩
    · rintro ⟨record, inLog, commits, same⟩
      refine ⟨record, mem_filter.mpr ⟨inLog, ?_⟩, same⟩
      rw [commits, same, Bool.true_and, bne_iff_ne]
      exact notZero
  have selected (record : WalRecord) (own : record.txnId = UInt64.ofNat id) :
      isReplayed lastLsn (committedTxns records) record = true ↔
        UInt64.ofNat id ∈ committedTxns records ∧
          record.isRollback = false ∧ record.sql ≠ [] ∧ inCheckpoint lastLsn record = false := by
    have notAutocommit : (UInt64.ofNat id == 0) = false := beq_eq_false_iff_ne.mpr notZero
    unfold isReplayed
    rw [own, notAutocommit]
    simp only [Bool.false_or, Bool.and_eq_true, Bool.not_eq_true',
      contains_iff_mem, isEmpty_eq_false_iff]
    tauto
  unfold CommittedIn replayedRecords
  rw [← isCommitted]
  constructor
  · rintro ⟨record, mem, own⟩
    obtain ⟨inLog, replayed⟩ := mem_filter.mp mem
    obtain ⟨committed, rest⟩ := (selected record own).mp replayed
    exact ⟨committed, record, inLog, own, rest⟩
  · rintro ⟨committed, record, inLog, own, rest⟩
    have replayed := (selected record own).mpr ⟨committed, rest⟩
    exact ⟨record, mem_filter.mpr ⟨inLog, replayed⟩, own⟩

section

variable {host : SqlHost} {depth : Nat} {sql : List Char}
  {engine : SqlEngine} {id : Nat}

theorem execute_commitMvcc {txn : MvccTransaction}
    (kind : host.kind sql = .commit) (mode : engine.mvccEnabled = true)
    (active : engine.mvccTxnManager.currentActive = some txn) :
    execute host depth sql engine = .ok QueryResult.empty
        { engine with
          mvccTxnManager :=
            ({ engine.mvccTxnManager with
              currentActive := none }.commit txn.id).2
          savepoints := [] } := by
  have isControl : transactionControl (host.kind sql) = some (.commit, commitCompat) := by
    rw [kind]
    rfl
  have commits : engine.mvccTxnManager.commitCompat =
        .ok ({ engine.mvccTxnManager with
          currentActive := none }.commit txn.id) := by
    unfold commitCompat
    rw [active]
  have controlled : controlTransaction commitCompat engine.toQueryEngine = .ok ()
          { engine.toQueryEngine with
            mvccTxnManager :=
              ({ engine.mvccTxnManager with
                currentActive := none }.commit txn.id).2 } := by
    unfold controlTransaction
    rw [get_bind_run, commits]
    rfl
  rw [execute_eq_executeMvcc isControl mode]
  unfold onCore
  rw [executeMvcc, bind_run_ok controlled]
  rfl

theorem execute_commit_inMemory (kind : host.kind sql = .commit)
    (isOpen : engine.openId = some id) :
    ∃ next, execute host depth sql engine = .ok QueryResult.empty next ∧
      (InMemory engine next id ↔ ChangedTables engine id) := by
  unfold InMemory ChangedTables
  unfold SqlEngine.openId at isOpen
  cases mode : engine.mvccEnabled with
  | true =>
    rw [mode, if_pos rfl] at isOpen
    obtain ⟨txn, active, rfl⟩ := Option.map_eq_some_iff.mp isOpen
    refine ⟨_, execute_commitMvcc kind mode active, ?_⟩
    refine and_iff_right ⟨engine.mvccTxnManager.commitId + 1, ?_⟩
    exact Finmap.lookup_insert _
  | false =>
    rw [mode, if_neg (by decide)] at isOpen
    obtain ⟨txn, active, rfl⟩ := Option.map_eq_some_iff.mp isOpen
    refine ⟨_, (execute_commitSnapshot kind mode).trans (commitSnapshot_run active), ?_⟩
    constructor
    · intro differs
      exact ⟨txn, active, differs⟩
    · rintro ⟨other, isOther, differs⟩
      cases active.symm.trans isOther
      exact differs

end

/-- A COMMIT whose marker is refused returns the error; the transaction leaves
nothing in memory and after a restart if and only if it had changed nothing and
the log has no marker and statement of it. -/
theorem failed_commit_leaves_nothing_iff
    {host : SqlHost} {depth : Nat} {sql : List Char} {engine : SqlEngine}
    {id : Nat} {walHost : WalHost} {os : Os} {replication : Replication}
    {log after : WalState} {error : WalError} (kind : host.kind sql = .commit)
    (isOpen : engine.openId = some id) (isNumber : 0 < id ∧ id < 2 ^ 64)
    (refused :
      appendAndSync walHost os replication (.commit (commitNumber engine)) log = .error error after)
    (ioText : WalError → String) (lastLsn : Option UInt64) :
    ∃ next,
      executeCommit host depth walHost os replication ioText sql { engine := engine, log := log } =
        .error (.error (.other ("WAL append_and_sync failed: " ++ ioText error)))
          { engine := next, log := after } ∧
      (¬ InMemory engine next id ∧ ¬ AfterRestart walHost lastLsn after.directory id ↔
        ¬ ChangedTables engine id ∧ ∀ records, readAll walHost (filesAfter walHost os replication
                  (.commit (commitNumber engine)) log) = .ok records →
              ¬ CommittedIn lastLsn records id) := by
  obtain ⟨next, commits, inMemory⟩ := @execute_commit_inMemory host depth sql engine id kind isOpen
  have isRead :=
    @Storage.readAll_appendAndSync walHost os replication (.commit (commitNumber engine)) log
  unfold finalState at isRead
  rw [refused] at isRead
  have notZero := ofNat_ne_zero isNumber.1 isNumber.2
  refine ⟨next, ?_, ?_⟩
  · unfold executeCommit
    simp only [commits, refused]
  · rw [inMemory]
    refine and_congr_right fun _ => ?_
    unfold AfterRestart
    simp only [exists_replayed_iff notZero]
    rw [isRead]
    constructor
    · intro nothing records found committed
      exact nothing ⟨records, found, committed⟩
    · rintro nothing ⟨records, found, committed⟩
      exact nothing records found committed

namespace Example

open Storage.Example

def noMetadata : Os :=
  { Os.good 5 with metadataFails := true }

/-- An empty transaction, refused before a byte is written. -/
theorem refused_empty_commit_leaves_nothing : ∃ next after,
      executeCommit insertHost 1 zeroHost noMetadata .alone (fun _ => "") commitText
            { engine := begun ∅, log := emptyLog 67108864 } =
          .error (.error (.other ("WAL append_and_sync failed: " ++ "")))
            { engine := next, log := after } ∧
        ¬ InMemory (begun ∅) next 1 ∧
        ¬ AfterRestart zeroHost none after.directory 1 := by
  have refused : appendAndSync zeroHost noMetadata .alone
        (.commit (commitNumber (begun ∅))) (emptyLog 67108864) =
      .error .os (emptyLog 67108864) := rfl
  obtain ⟨next, ran, nothing⟩ :=
    @failed_commit_leaves_nothing_iff insertHost 1 commitText (begun ∅) 1
      zeroHost noMetadata .alone _ _ _ rfl rfl (by decide) refused (fun _ => "") none
  refine ⟨next, _, ran, nothing.mpr ⟨?_, ?_⟩⟩
  · rintro ⟨txn, active, differs⟩
    cases active
    exact differs rfl
  · intro records found
    have empty := readAll_emptyLog zeroHost 67108864
    cases empty.symm.trans found
    rintro ⟨⟨record, mem, -⟩, -⟩
    cases mem

def silentReplica : Replication :=
  { raft := none
    sink := some { stream := .ok (), syncWait := .error "timeout" }
    isSynchronous := true }

def insertEntries : List LogEntry := [.begin 1, .statement (some 1) insertText]

/-- The client gets an error, and the row is in the table and comes back after
a restart. -/
theorem refused_commit_in_memory_and_replayed : ∃ directory log after next records,
      openWithSegmentLimit zeroHost (Os.good 0) 67108864 ∅ = .ok directory ∧
        (forM (sessionOf insertEntries).calls (AppendCall.run zeroHost) : WalM Unit)
          directory = .ok () log ∧
        executeCommit insertHost 1 zeroHost (Os.good 5) silentReplica (fun _ => "") commitText
            { engine := insertedInto ∅ ∅ 0, log := log } =
          .error (.error (.other "WAL append_and_sync failed: ")) { engine := next, log := after } ∧
        (insertedInto ∅ ∅ 0).catalog.lookup "t" = some oneColumn ∧
        next.catalog.lookup "t" = some grown ∧
        readAll zeroHost after.directory = .ok records ∧
        (replayedRecords none records).map WalRecord.sql = [insertText] := by
  have json : zeroHost.ReadsJson := readsJson_compactHost _
  have keeps := keepsGood_complete zeroHost
  obtain ⟨start, opened, startTidy⟩ :=
    (tidyLog_empty zeroHost (by decide : 3 + 1 < 2 ^ 64)).opened keeps 67108864 0
  obtain ⟨log, added, ran, payloads, logTidy⟩ :=
    @Storage.Tidy.run _ _ _ _ _ 1 json keeps (sessionOf insertEntries).calls startTidy
  obtain ⟨earlier, last, isOpen, allGood, complete, segmentRoom, isRead⟩ := logTidy.log
  obtain ⟨middle, appended, middleTidy⟩ := tidy_append json keeps 5 (.commit 1) isOpen allGood
      (.inl complete) segmentRoom isRead logTidy.increasing logTidy.newer
      logTidy.above logTidy.room
  obtain ⟨after, synced⟩ := sync_good 5 middle
  have refused : appendAndSync zeroHost (Os.good 5) silentReplica (.commit 1) log =
      .error (.replication "replication sync_wait failed: timeout")
        after := by
    have proposed : silentReplica.propose log = .ok () log := rfl
    unfold appendAndSync
    rw [bind_run_ok proposed, bind_run_ok appended, bind_run_ok synced]
    rfl
  have sameFiles : readAll zeroHost after.directory = readAll zeroHost middle.directory := by
    have left := @Storage.readAll_appendAndSync zeroHost (Os.good 5) silentReplica (.commit 1) log
    have right := @Storage.append_directory zeroHost (Os.good 5) silentReplica (.commit 1) log rfl
    unfold finalState at left right
    rw [refused] at left
    rw [appended] at right
    exact left.trans (congrArg _ right.symm)
  have written : Written (insertEntries ++ [.commit 1])
      (added ++ [(WalRecord.commit 1).stamped log.wal.nextLsn 5]) := by
    refine written_of_payloads ?_ ?_
    · decide
    · rw [map_append, payloads]
      rfl
  refine ⟨start, log, after, insertCommitted, _, opened, ran, ?_, rfl, rfl,
    sameFiles.trans middleTidy.closed.readAll_eq, ?_⟩
  · unfold executeCommit
    have isNumber : commitNumber (insertedInto ∅ ∅ 0) = 1 := rfl
    simp only [execute_commitText_inserted, isNumber, refused]
    rfl
  · exact (replayedRecords_written written).trans rfl

end Example

end TurboGP.Engine
