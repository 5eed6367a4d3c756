import TurboGP.Engine.RefusedDml
import TurboGP.Engine.SnapshotTables

/-! # Recovery of transactions with savepoints -/

namespace TurboGP.Engine

open Datasource Sql Sql.Text Txn Effect Storage QueryResult SavepointText
open GuardedRun
open List Option

namespace LoggedRun

section

/-- A statement.  Savepoint statements leave the log alone, and so does a
statement that returns an error. -/
def savepointStep (host : SqlHost) (depth : Nat) (run : LoggedRun)
    (sql : List Char) : Option LoggedRun :=
  match execute host depth sql run.state.engine with
  | .ok _ next =>
    if (host.kind sql).isSavepoint then
      some { run with state.engine := next }
    else
      some
        { state :=
            { engine := next, log := run.state.log ++ entriesOf host run.state.engine sql }
          ledger := recorded (host.kind sql) (next.openId.map UInt64.ofNat) sql run.ledger }
  | .error (.error _) next => some { run with state.engine := next }
  | .error _ _ => none

variable {host : SqlHost} {depth : Nat} {run : LoggedRun}
  {sql : List Char} {res : QueryResult} {next : SqlEngine}

theorem savepointStep_logged (notSavepoint : ¬ (host.kind sql).isSavepoint = true)
    (ran : execute host depth sql run.state.engine = .ok res next) :
    run.savepointStep host depth sql = some
        { state :=
            { engine := next, log := run.state.log ++ entriesOf host run.state.engine sql }
          ledger := recorded (host.kind sql) (next.openId.map UInt64.ofNat) sql run.ledger } := by
  unfold savepointStep
  rw [ran]
  exact if_neg notSavepoint

theorem savepointStep_unlogged (isSavepoint : (host.kind sql).isSavepoint = true)
    (ran : execute host depth sql run.state.engine = .ok res next) :
    run.savepointStep host depth sql = some { run with state.engine := next } := by
  unfold savepointStep
  rw [ran]
  exact if_pos isSavepoint

theorem savepointStep_error {fault : Fault} {after : LoggedRun}
    (failed : execute host depth sql run.state.engine = .error fault next)
    (stepped : run.savepointStep host depth sql = some after) :
    after = { run with state.engine := next } := by
  unfold savepointStep at stepped
  rw [failed] at stepped
  cases fault with
  | error error => exact (some.inj stepped).symm
  | _ => cases stepped

end

end LoggedRun

/-- The savepoint that a ROLLBACK TO would go back to holds the tables as they
are. -/
def UndoesNothing (engine : SqlEngine) (sql : List Char) : Prop :=
  ∀ pos entry, savepointPosition engine.savepoints (rollbackToName sql) = some pos →
    engine.savepoints[pos]? = some entry → entry.2 = engine.tables

/-- A statement of a transaction that, if it fails, had nothing to change on
the tables it found; or a savepoint statement of an open transaction that
undoes nothing. -/
inductive Recoverable (host : SqlHost) (depth : Nat) (run : LoggedRun)
    (sql : List Char) : Prop
  | statement (text : TransactionText host sql)
      (ids : host.kind sql = .begin → run.state.engine.txnManager.nextId < 2 ^ 64)
      (clean : ∀ stmt fault next, ParsedDml host sql stmt →
            execute host depth sql run.state.engine = .error fault next →
            FailsClean host.toHost run.state.engine.tables stmt)
  | savepoint (isSavepoint : (host.kind sql).isSavepoint = true)
      (notControl : host.isControlText sql = false)
      (isOpen : run.state.engine.txnManager.active ≠ none)
      (undoes : host.kind sql = .rollbackTo → UndoesNothing run.state.engine sql)

section

variable {host : SqlHost} {depth : Nat} {sql : List Char}
  {engine : SqlEngine}

theorem tables_dml_error {stmt : DmlStatement} (text : ParsedDml host sql stmt)
    (mode : engine.mvccEnabled = false) (clean : FailsClean host.toHost engine.tables stmt)
    {error : Error} {next : SqlEngine}
    (failed : execute host (depth + 1) sql engine = .error (.error error) next) :
    next.tables = engine.tables := by
  unfold SqlEngine.tables at clean ⊢
  cases active : engine.txnManager.active with
  | none =>
    rw [execute_dml_idle text mode active] at failed
    have sameManager := ((keepsSession_dml host.toHost depth stmt none
        engine.uncached).reached_error failed).sameTxnManager
    obtain ⟨core, ran, rfl⟩ := onCore_eq_error failed
    have stillIdle : core.txnManager.active = none := by
      rw [sameManager]
      exact active
    rw [active] at clean
    rw [stillIdle]
    exact catalog_executeDml_error mode clean ran
  | some txn =>
    rw [execute_dml_inside text mode active, inSnapshot_run] at failed
    rw [active] at clean
    cases out : onCore (executeDml host.toHost depth stmt (some txn.id))
        (engine.uncached.inside txn) with
    | ok value after =>
      rw [out] at failed
      cases failed
    | error fault after =>
      rw [out] at failed
      cases failed
      obtain ⟨core, ran, rfl⟩ := onCore_eq_error out
      exact @catalog_executeDml_error host.toHost (engine.uncached.inside txn).toQueryEngine
        core _ _ _ _ mode clean ran

def NamedSavepoints (engine : SqlEngine) : Prop := ∀ entry ∈ engine.savepoints, Named entry.2

theorem NamedSavepoints.of_eq {next : SqlEngine} (saved : NamedSavepoints engine)
    (same : next.savepoints = engine.savepoints) : NamedSavepoints next := by
  rw [NamedSavepoints, same]
  exact saved

structure SavepointKeeps (host : SqlHost) (sql : List Char)
    (old new : SqlEngine) : Prop where
  sameManager : new.txnManager = old.txnManager
  sameMode : new.mvccEnabled = old.mvccEnabled
  named : Named old.catalog → NamedSavepoints old → Named new.catalog ∧ NamedSavepoints new
  catalog : Named old.catalog → NamedSavepoints old →
      new.catalog = old.catalog ∨
        host.kind sql = .rollbackTo ∧
          ∃ pos entry, savepointPosition old.savepoints (rollbackToName sql) = some pos ∧
            old.savepoints[pos]? = some entry ∧ new.catalog = entry.2

theorem SavepointKeeps.refl (engine : SqlEngine) : SavepointKeeps host sql engine engine :=
  ⟨rfl, rfl, fun named saved => ⟨named, saved⟩, fun _ _ => .inl rfl⟩

theorem savepointKeeps_save : SavepointKeeps host sql engine
      (finalState (executeSavepoint host (savepointName sql)) engine) := by
  refine ⟨rfl, rfl, fun named saved => ⟨named, ?_⟩, fun _ _ => .inl rfl⟩
  intro entry mem
  rcases mem_append.mp mem with old | new
  · exact saved entry old
  · rw [mem_singleton.mp new]
    exact (cloneCatalog_eq host named).symm ▸ named

theorem savepointKeeps_release : SavepointKeeps host sql engine
      (finalState (executeReleaseSavepoint (savepointName sql)) engine) := by
  unfold finalState executeReleaseSavepoint
  rw [get_bind_run]
  cases savepointPosition engine.savepoints (savepointName sql) with
  | none => exact .refl engine
  | some pos =>
    refine ⟨rfl, rfl, fun named saved => ⟨named, ?_⟩, fun _ _ => .inl rfl⟩
    intro entry mem
    exact saved entry (mem_of_mem_take mem)

theorem savepointKeeps_rollbackTo (kind : host.kind sql = .rollbackTo) :
    SavepointKeeps host sql engine
      (finalState (executeRollbackTo host (rollbackToName sql)) engine) := by
  unfold finalState executeRollbackTo
  rw [get_bind_run]
  cases found : savepointPosition engine.savepoints (rollbackToName sql) with
  | none => exact .refl engine
  | some pos =>
    cases inside : index engine.savepoints pos with
    | error fault =>
      simp only [inside]
      exact .refl engine
    | ok entry =>
      simp only [inside]
      have inList := index_eq_ok_iff.mp inside
      have mem : entry ∈ engine.savepoints := mem_of_getElem? inList
      refine ⟨rfl, rfl, fun named saved => ?_, fun named saved => ?_⟩
      · refine ⟨?_, fun kept isKept => ?_⟩
        · show Named (cloneCatalog host entry.2)
          rw [cloneCatalog_eq host (saved entry mem)]
          exact saved entry mem
        · exact saved kept (mem_of_mem_take isKept)
      · refine .inr ⟨kind, pos, entry, found, inList, ?_⟩
        exact cloneCatalog_eq host (saved entry mem)

theorem savepointKeeps_executeUncached (inner : List Char → Option Nat → SqlM QueryResult)
    (txnId : Option Nat) (isSavepoint : (host.kind sql).isSavepoint = true) :
    SavepointKeeps host sql engine
      (finalState (executeUncached host inner depth sql txnId) engine) := by
  unfold executeUncached
  cases kind : host.kind sql with
  | savepoint => exact savepointKeeps_save
  | rollbackTo => exact savepointKeeps_rollbackTo kind
  | release => exact savepointKeeps_release
  | _ => exact absurd (kind ▸ isSavepoint) (by decide)

theorem leaves_savepoint (mode : engine.mvccEnabled = false)
    (isOpen : engine.txnManager.active ≠ none) (isSavepoint : (host.kind sql).isSavepoint = true)
    (notControl : host.isControlText sql = false)
    (named : NamedTables engine) (saved : NamedSavepoints engine)
    (undoes : host.kind sql = .rollbackTo → UndoesNothing engine sql) :
    SameTransaction engine (finalState (execute host (depth + 1) sql) engine) ∧
      (finalState (execute host (depth + 1) sql) engine).catalog = engine.catalog ∧
      (finalState (execute host (depth + 1) sql) engine).tables = engine.tables ∧
      NamedSavepoints (finalState (execute host (depth + 1) sql) engine) := by
  obtain ⟨txn, active⟩ := ne_none_iff_exists'.mp isOpen
  let cleared := engine.invalidatedFor (host.kind sql)
  let inside := cleared.inside txn
  have tables := SqlEngine.tables_open active
  have ran : finalState (execute host (depth + 1) sql) engine = cleared.resumed txn (finalState
        (executeUncached host (executeInner host depth) depth sql (some txn.id)) inside) := by
    rw [← finalState_inSnapshot]
    unfold finalState
    rw [execute_savepointText mode active (of_isSavepoint isSavepoint) notControl]
  have keeps := @savepointKeeps_executeUncached host depth sql inside
      (executeInner host depth) (some txn.id) isSavepoint
  obtain ⟨insideCatalog, insideSavepoints, insideMode⟩ :=
    @inside_invalidatedFor engine txn (host.kind sql)
  have insideId : inside.txnManager.nextId = engine.txnManager.nextId := by
    show (engine.invalidatedFor (host.kind sql)).txnManager.nextId = _
    unfold SqlEngine.invalidatedFor
    split <;> rfl
  have clearedCatalog : cleared.catalog = engine.catalog := by
    show (engine.invalidatedFor (host.kind sql)).catalog = _
    unfold SqlEngine.invalidatedFor
    split <;> rfl
  have insideNamed : Named inside.catalog := by
    rw [show inside.catalog = txn.snapshot from insideCatalog, ← tables]
    exact named.tables
  have insideSaved : NamedSavepoints inside := saved.of_eq insideSavepoints
  rw [ran]
  refine ⟨⟨?_, ?_, ?_⟩, clearedCatalog, ?_, ?_⟩
  · exact keeps.sameMode.trans insideMode
  · exact (congrArg TxnManager.nextId keeps.sameManager).trans insideId
  · rw [active]
    rfl
  · show (finalState _ inside).catalog = _
    rw [tables]
    rcases keeps.catalog insideNamed insideSaved with
      same | ⟨kind, pos, entry, found, inList, restored⟩
    · exact same.trans insideCatalog
    · rw [show inside.savepoints = engine.savepoints from insideSavepoints] at found inList
      rw [restored, undoes kind pos entry found inList]
      exact tables
  · exact (keeps.named insideNamed insideSaved).2

end

/-- The tables are what the statements in the ledger make of `base`. -/
structure TablesTracked (host : SqlHost) (depth : Nat) (base : Catalog)
    (engine : SqlEngine) (ledger : TxnLog.Ledger UInt64 (List Char)) :
    Prop where
  saved : NamedSavepoints engine
  kept : dmlTexts host depth ledger.kept base = some engine.catalog
  pending : engine.txnManager.active ≠ none →
      dmlTexts host depth (ledger.kept ++ ledger.pending) base = some engine.tables
  areDml : ∀ sql ∈ ledger.kept ++ ledger.pending, ∃ statement, ParsedDml host sql statement

structure SavepointTracked (host : SqlHost) (depth : Nat) (base : Catalog)
    (run : LoggedRun) : Prop where
  log : SnapshotTracked run.state.engine run.state.log run.ledger
  named : NamedTables run.state.engine
  tables : TablesTracked host depth base run.state.engine run.ledger

theorem savepointTracked_start {host : SqlHost} {depth : Nat}
    {base : SqlEngine} (mode : base.mvccEnabled = false)
    (isNew : base.txnManager = .new) (noSavepoints : base.savepoints = [])
    (named : Named base.catalog) :
    SavepointTracked host depth base.catalog (LoggedRun.start base) := by
  have inactive : base.txnManager.active = none := by
    rw [isNew]
    rfl
  have tables := SqlEngine.tables_idle inactive
  have saved : NamedSavepoints base := by
    simp [NamedSavepoints, noSavepoints]
  constructor
  · exact .start mode isNew
  · exact ⟨named, tables.symm ▸ named⟩
  · exact ⟨saved, rfl, fun isOpen => absurd inactive isOpen, forall_mem_nil _⟩

section

variable {host : SqlHost} {depth : Nat} {base : Catalog}
  {engine next : SqlEngine} {sql : List Char}
  {ledger : TxnLog.Ledger UInt64 (List Char)} {res : QueryResult}

variable (tracked : TablesTracked host depth base engine ledger)

include tracked

theorem TablesTracked.left
    (saved : NamedSavepoints next) (sameCatalog : next.catalog = engine.catalog)
    (sameTables : next.tables = engine.tables)
    (sameOpen : next.txnManager.active ≠ none → engine.txnManager.active ≠ none) :
    TablesTracked host depth base next ledger := by
  constructor
  · exact saved
  · rw [sameCatalog]
    exact tracked.kept
  · intro isOpen
    rw [sameTables]
    exact tracked.pending (sameOpen isOpen)
  · exact tracked.areDml

theorem TablesTracked.begin (named : NamedTables engine) (mode : engine.mvccEnabled = false)
    (kind : host.kind sql = .begin) (opened : Option UInt64)
    (ran : execute host (depth + 1) sql engine = .ok res next) :
    TablesTracked host depth base next (recorded (host.kind sql) opened sql ledger) := by
  obtain ⟨-, rfl⟩ := execute_begin kind mode ran
  rw [kind]
  constructor
  · exact tracked.saved
  · exact tracked.kept
  · intro _
    show dmlTexts host depth (ledger.kept ++ []) base = some (cloneCatalog host engine.catalog)
    rw [cloneCatalog_eq host named.catalog, append_nil]
    exact tracked.kept
  · show ∀ sql ∈ ledger.kept ++ [], _
    rw [append_nil]
    exact (forall_mem_append.mp tracked.areDml).1

theorem TablesTracked.commit
    (mode : engine.mvccEnabled = false) (kind : host.kind sql = .commit) (opened : Option UInt64)
    (ran : execute host (depth + 1) sql engine = .ok res next) :
    TablesTracked host depth base next (recorded (host.kind sql) opened sql ledger) := by
  obtain ⟨txn, active, rfl⟩ := execute_commit kind mode ran
  have reached := tracked.pending (by rw [active]; simp)
  rw [SqlEngine.tables_open active] at reached
  rw [kind]
  constructor
  · exact forall_mem_nil _
  · exact reached
  · exact fun isOpen => absurd rfl isOpen
  · show ∀ sql ∈ ledger.kept ++ ledger.pending ++ [], _
    rw [append_nil]
    exact tracked.areDml

theorem TablesTracked.rollback
    (mode : engine.mvccEnabled = false) (kind : host.kind sql = .rollback) (opened : Option UInt64)
    (ran : execute host (depth + 1) sql engine = .ok res next) :
    TablesTracked host depth base next (recorded (host.kind sql) opened sql ledger) := by
  obtain ⟨txn, -, rfl⟩ := execute_rollback kind mode ran
  rw [kind]
  constructor
  · exact forall_mem_nil _
  · exact tracked.kept
  · exact fun isOpen => absurd rfl isOpen
  · show ∀ sql ∈ ledger.kept ++ [], _
    rw [append_nil]
    exact (forall_mem_append.mp tracked.areDml).1

theorem TablesTracked.dml (mode : engine.mvccEnabled = false) {stmt : DmlStatement}
    (text : ParsedDml host sql stmt) (opened : Option UInt64)
    (current : ledger.current = (engine.txnManager.active.map Transaction.id).map UInt64.ofNat)
    (ran : execute host (depth + 1) sql engine = .ok res next) :
    TablesTracked host depth base next (recorded (host.kind sql) opened sql ledger) := by
  have changed := tables_dml text mode ran
  have same := @sameTransaction_dml host engine sql depth stmt text mode
  obtain ⟨sameSavepoints, sameCatalog⟩ := @keeps_dml host depth sql stmt engine text mode
  unfold finalState at same sameSavepoints sameCatalog
  rw [ran] at same sameSavepoints sameCatalog
  have saved : NamedSavepoints next := tracked.saved.of_eq sameSavepoints
  rw [text.recorded_eq]
  cases active : engine.txnManager.active with
  | none =>
    have idle : next.txnManager.active = none := by
      have ids := same.sameId
      rw [active] at ids
      exact map_eq_none_iff.mp ids
    rw [active] at current
    rw [SqlEngine.tables_idle active, SqlEngine.tables_idle idle] at changed
    simp only [current]
    constructor
    · exact saved
    · rw [← changed]
      exact dmlTexts_append text.parsed tracked.kept
    · exact fun isOpen => absurd idle isOpen
    · obtain ⟨keptDml, pendingDml⟩ := forall_mem_append.mp tracked.areDml
      show ∀ sql ∈ ledger.kept ++ [_] ++ ledger.pending, _
      rw [forall_mem_append, forall_mem_append, forall_mem_singleton]
      exact ⟨⟨keptDml, stmt, text⟩, pendingDml⟩
  | some txn =>
    have isOpen : engine.txnManager.active ≠ none := by
      rw [active]
      simp
    rw [active] at current
    simp only [current]
    constructor
    · exact saved
    · rw [sameCatalog isOpen]
      exact tracked.kept
    · intro _
      show dmlTexts host depth (ledger.kept ++ (ledger.pending ++ [_])) base = some next.tables
      rw [← changed, ← append_assoc]
      exact dmlTexts_append text.parsed (tracked.pending isOpen)
    · show ∀ sql ∈ ledger.kept ++ (ledger.pending ++ [_]), _
      rw [← append_assoc, forall_mem_append, forall_mem_singleton]
      exact ⟨tracked.areDml, stmt, text⟩

end

section

variable {host : SqlHost} {depth : Nat} {base : Catalog}
  {run next : LoggedRun} {sql : List Char}

variable (tracked : SavepointTracked host depth base run)

include tracked

theorem SavepointTracked.accepted (text : TransactionText host sql)
    (ids : host.kind sql = .begin → run.state.engine.txnManager.nextId < 2 ^ 64)
    {res : QueryResult} {after : SqlEngine}
    (ran : execute host (depth + 1) sql run.state.engine = .ok res after) :
    SavepointTracked host depth base
      { state :=
          { engine := after, log := run.state.log ++ entriesOf host run.state.engine sql }
        ledger := recorded (host.kind sql) (after.openId.map UInt64.ofNat) sql run.ledger } := by
  have mode := tracked.log.mode
  have named := @NamedTables.step host depth sql _ tracked.named text mode
  unfold finalState at named
  rw [ran] at named
  refine ⟨tracked.log.accepted text ids ran, named, ?_⟩
  cases text with
  | begin kind => exact tracked.tables.begin tracked.named mode kind _ ran
  | commit kind => exact tracked.tables.commit mode kind _ ran
  | rollback kind => exact tracked.tables.rollback mode kind _ ran
  | dml stmt text => exact tracked.tables.dml mode text _ tracked.log.ids.current ran

theorem SavepointTracked.refused
    (text : TransactionText host sql) {error : Error} {after : SqlEngine}
    (ran : execute host (depth + 1) sql run.state.engine = .error (.error error) after)
    (clean : ∀ stmt, ParsedDml host sql stmt →
      FailsClean host.toHost run.state.engine.tables stmt) :
    SavepointTracked host depth base { run with state.engine := after } := by
  have mode := tracked.log.mode
  rcases text.refused_cases mode ran with rfl | ⟨stmt, dml⟩
  · exact tracked
  have sameTables := tables_dml_error dml mode (clean stmt dml) ran
  have named := @NamedTables.dml host depth sql _ _ tracked.named dml mode
  have same := @sameTransaction_dml host run.state.engine sql depth stmt dml mode
  obtain ⟨sameSavepoints, insideCatalog⟩ := @keeps_dml host depth sql stmt run.state.engine dml mode
  unfold finalState at named same sameSavepoints insideCatalog
  rw [ran] at named same sameSavepoints insideCatalog
  have saved : NamedSavepoints after := tracked.tables.saved.of_eq sameSavepoints
  have sameOpen : after.txnManager.active = none ↔ run.state.engine.txnManager.active = none := by
    rw [← map_eq_none_iff, same.sameId, map_eq_none_iff]
  have sameCatalog : after.catalog = run.state.engine.catalog := by
    by_cases idle : run.state.engine.txnManager.active = none
    · rw [← SqlEngine.tables_idle idle, ← sameTables, SqlEngine.tables_idle (sameOpen.mpr idle)]
    · exact insideCatalog idle
  exact ⟨tracked.log.sameTransaction same, named, tracked.tables.left saved sameCatalog sameTables
      fun isOpen idle => isOpen (sameOpen.mpr idle)⟩

theorem SavepointTracked.savepoint
    (isSavepoint : (host.kind sql).isSavepoint = true) (notControl : host.isControlText sql = false)
    (isOpen : run.state.engine.txnManager.active ≠ none)
    (undoes : host.kind sql = .rollbackTo → UndoesNothing run.state.engine sql) :
    SavepointTracked host depth base
      { run with
        state.engine := finalState (execute host (depth + 1) sql) run.state.engine } := by
  obtain ⟨same, sameCatalog, sameTables, saved⟩ :=
    @leaves_savepoint host depth sql run.state.engine tracked.log.mode isOpen
      isSavepoint notControl tracked.named tracked.tables.saved undoes
  refine ⟨tracked.log.sameTransaction same, ⟨?_, ?_⟩, ?_⟩
  · rw [sameCatalog]
    exact tracked.named.catalog
  · rw [sameTables]
    exact tracked.named.tables
  · exact tracked.tables.left saved sameCatalog sameTables fun _ => isOpen

theorem SavepointTracked.step (allowed : Recoverable host (depth + 1) run sql)
    (ran : run.savepointStep host (depth + 1) sql = some next) :
    SavepointTracked host depth base next := by
  cases allowed with
  | statement text ids clean =>
    have notSavepoint : ¬ (host.kind sql).isSavepoint = true := by
      cases text with
      | begin kind | commit kind | rollback kind =>
        rw [kind]
        decide
      | dml stmt text =>
        rw [text.kind_facts.2.2.1]
        decide
    cases out : execute host (depth + 1) sql run.state.engine with
    | ok res after =>
      cases (LoggedRun.savepointStep_logged notSavepoint out).symm.trans ran
      exact tracked.accepted text ids out
    | error fault after =>
      rw [LoggedRun.savepointStep_error out ran]
      cases fault with
      | error error => exact tracked.refused text out fun stmt dml => clean stmt _ _ dml out
      | panic | stackOverflow =>
        unfold LoggedRun.savepointStep at ran
        rw [out] at ran
        cases ran
  | savepoint isSavepoint notControl isOpen undoes =>
    have left := tracked.savepoint isSavepoint notControl isOpen undoes
    unfold finalState at left
    cases out : execute host (depth + 1) sql run.state.engine with
    | ok res after =>
      rw [out] at left
      cases (LoggedRun.savepointStep_unlogged isSavepoint out).symm.trans ran
      exact left
    | error fault after =>
      rw [out] at left
      rw [LoggedRun.savepointStep_error out ran]
      exact left

end

theorem recovered_of_replayed {host : SqlHost} {depth : Nat} {base : SqlEngine}
    {catalog : Catalog} (mode : base.mvccEnabled = false) {entries : List LogEntry}
    {walHost : WalHost} (json : walHost.ReadsJson) {session : WalSession}
    (appends : session.calls.map AppendCall.record = entries.map LogEntry.record)
    (proper : ∀ entry ∈ entries, LogEntry.Proper entry) (room : entries.length + 1 < 2 ^ 64)
    (areDml : ∀ sql ∈ TxnLog.replayed entries, ∃ statement, ParsedDml host sql statement)
    (reached : dmlTexts host depth (TxnLog.replayed entries) base.catalog = some catalog) :
    ∃ directory records recovered, runSessions walHost [session] ∅ = some directory ∧
      readAll walHost directory = .ok records ∧
      replayWalWithLsnFilter host (depth + 1) none records base = some recovered ∧
      recovered.catalog = catalog := by
  have oneSession : ([session].flatMap WalSession.calls).map AppendCall.record =
      entries.map LogEntry.record := by
    rw [flatMap_singleton]
    exact appends
  obtain ⟨directory, records, ran, isRead, written⟩ :=
    readAll_written json [session] oneSession proper room
  rw [← replayedRecords_written written] at areDml reached
  obtain ⟨recovered, again, isCatalog⟩ :=
    replay_dmlTexts mode (fun record mem => areDml _ (mem_map_of_mem mem)) reached
  exact ⟨directory, records, recovered, ran, isRead, again, isCatalog⟩

/-- In every run whose failing statements had nothing to change and whose
ROLLBACK TOs undo nothing, replay of the log that was written gives the tables
of the engine. -/
theorem savepoint_transactions_recovered {host : SqlHost} {depth : Nat} {base : SqlEngine}
    (mode : base.mvccEnabled = false) (isNew : base.txnManager = .new)
    (noSavepoints : base.savepoints = []) (named : Named base.catalog)
    {texts : List (List Char)} {final : LoggedRun}
    (run : Run (LoggedRun.savepointStep host (depth + 1))
        (Recoverable host (depth + 1)) (LoggedRun.start base) texts final)
    {walHost : WalHost} (json : walHost.ReadsJson) {session : WalSession}
    (appends : session.calls.map AppendCall.record = final.state.log.map LogEntry.record)
    (room : final.state.log.length + 1 < 2 ^ 64) :
    ∃ directory records recovered, runSessions walHost [session] ∅ = some directory ∧
      readAll walHost directory = .ok records ∧
      replayWalWithLsnFilter host (depth + 1) none records base = some recovered ∧
      recovered.catalog = final.state.engine.catalog := by
  have tracked : SavepointTracked host depth base.catalog final := by
    refine run.invariant _ ?_ (savepointTracked_start mode isNew noSavepoints named)
    intro run sql next before allowed stepped
    exact before.step allowed stepped
  have isKept := tracked.log.ids.tracks.kept
  refine recovered_of_replayed mode json appends tracked.log.ids.proper room ?_ ?_
  · intro sql mem
    rw [isKept] at mem
    exact tracked.tables.areDml sql (mem_append_left _ mem)
  · rw [isKept]
    exact tracked.tables.kept

namespace Example

theorem isSavepoint_savepointText : (insertHost.kind savepointText).isSavepoint = true := by
  rfl

/-- There is nothing to undo. -/
theorem execute_rollbackTo_unchanged :
    execute insertHost 1 rollbackToText (markedEngine 1) = .ok empty (markedEngine 1) := by
  have restores : executeUncached insertHost (executeInner insertHost 0) 0
          rollbackToText (some 1) ((markedEngine 1).inside begunTxn) =
        .ok empty
          { (markedEngine 1).inside begunTxn with
            catalog := cloneCatalog insertHost (engineWith ∅).catalog } := by
    rfl
  rw [cloneCatalog_eq insertHost (named_engineWith ∅)] at restores
  exact inSnapshot_ok restores

def begunLogged : LoggedRun :=
  { state := { engine := begun ∅, log := [.begin 1] }
    ledger := { current := some 1, kept := [], pending := [] } }

def markedLogged : LoggedRun :=
  { begunLogged with state.engine := markedEngine 1 }

def insertedLogged : LoggedRun :=
  { state :=
      { engine := markedInserted, log := [.begin 1, .statement (some 1) insertText] }
    ledger := { current := some 1, kept := [], pending := [insertText] } }

theorem step_begunLogged :
    (LoggedRun.start (engineWith ∅)).savepointStep insertHost 1 beginText = some begunLogged :=
  LoggedRun.savepointStep_logged (by decide) (execute_beginText insertHost 1 ∅)

theorem step_markedLogged :
    begunLogged.savepointStep insertHost 1 savepointText = some markedLogged :=
  LoggedRun.savepointStep_unlogged isSavepoint_savepointText (execute_savepoint_marked 0)

theorem step_insertedLogged :
    markedLogged.savepointStep insertHost 1 insertText = some insertedLogged :=
  LoggedRun.savepointStep_logged (by decide) execute_insert_marked

/-- The transaction goes back to its savepoint before it inserts. -/
theorem rollbackTo_insert_recovered : ∃ (final : LoggedRun) (directory : Directory)
      (records : List WalRecord) (recovered : SqlEngine),
      Run (LoggedRun.savepointStep insertHost 1)
          (Recoverable insertHost 1) (LoggedRun.start (engineWith ∅))
          [beginText, savepointText, rollbackToText, insertText, commitText] final ∧
        runSessions Example.zeroHost [sessionOf final.state.log] ∅ = some directory ∧
        readAll Example.zeroHost directory = .ok records ∧
        replayWalWithLsnFilter insertHost 1 none records (engineWith ∅) = some recovered ∧
        recovered.catalog = final.state.engine.catalog := by
  have commits : execute insertHost 1 commitText markedInserted = .ok empty insertCommitted := rfl
  have beginAllowed : Recoverable insertHost 1 (LoggedRun.start (engineWith ∅)) beginText := by
    refine .statement (.begin rfl) (fun _ => by decide) ?_
    intro stmt fault next dml failed
    cases (execute_beginText insertHost 1 ∅).symm.trans failed
  have savepointAllowed : Recoverable insertHost 1 begunLogged savepointText := by
    refine .savepoint isSavepoint_savepointText rfl (by rintro ⟨⟩) ?_
    intro kind
    cases kind
  have undoAllowed : Recoverable insertHost 1 markedLogged rollbackToText := by
    refine .savepoint rfl rfl (by rintro ⟨⟩) ?_
    intro _ pos entry found inList
    cases found
    cases inList
    rfl
  have undone : markedLogged.savepointStep insertHost 1 rollbackToText = some markedLogged :=
    LoggedRun.savepointStep_unlogged rfl execute_rollbackTo_unchanged
  have insertAllowed : Recoverable insertHost 1 markedLogged insertText := by
    refine .statement (.dml _ parsedDml_insertText) ?_ ?_
    · rintro ⟨⟩
    · intro stmt fault next dml failed
      cases execute_insert_marked.symm.trans failed
  have commitAllowed : Recoverable insertHost 1 insertedLogged commitText := by
    refine .statement (.commit rfl) ?_ ?_
    · rintro ⟨⟩
    · intro stmt fault next dml failed
      cases commits.symm.trans failed
  have run := Run.cons beginAllowed step_begunLogged
      (.cons savepointAllowed step_markedLogged (.cons undoAllowed undone
        (.cons insertAllowed step_insertedLogged (.cons commitAllowed
            (LoggedRun.savepointStep_logged (by decide) commits) (.nil _)))))
  obtain ⟨directory, records, recovered, ran, isRead, replayed, same⟩ :=
    savepoint_transactions_recovered rfl rfl rfl (named_engineWith ∅) run
      readsJson_zeroHost (calls_sessionOf _) (by decide)
  exact ⟨_, directory, records, recovered, run, ran, isRead, replayed, same⟩

/-- BEGIN, SAVEPOINT, INSERT, ROLLBACK TO and COMMIT: the table is empty, and
after a restart it has the row. -/
theorem undone_insert_replayed : ∃ (final : LoggedRun) (directory : Directory)
      (records : List WalRecord) (recovered : SqlEngine),
      [beginText, savepointText, insertText, rollbackToText,
            commitText].foldlM (LoggedRun.savepointStep insertHost 1)
          (LoggedRun.start (engineWith ∅)) = some final ∧
        runSessions Example.zeroHost [sessionOf final.state.log] ∅ = some directory ∧
        readAll Example.zeroHost directory = .ok records ∧
        replayWalWithLsnFilter insertHost 1 none records (engineWith ∅) = some recovered ∧
        (final.state.engine.catalog.lookup "t").map Table.columns = some [[]] ∧
        (recovered.catalog.lookup "t").map Table.columns = some [[9]] := by
  let undone : LoggedRun := { insertedLogged with state.engine := markedEngine 1 }
  let final : LoggedRun :=
    { state :=
        { engine :=
            { (markedEngine 1) with
              txnManager := { nextId := 2, active := none }
              savepoints := [] }
          log := [.begin 1, .statement (some 1) insertText, .commit 1] }
      ledger := { current := none, kept := [insertText], pending := [] } }
  have restores : insertedLogged.savepointStep insertHost 1 rollbackToText = some undone :=
    LoggedRun.savepointStep_unlogged rfl execute_rollbackTo_marked
  have commits : execute insertHost 1 commitText undone.state.engine =
      .ok empty final.state.engine := rfl
  have ends : undone.savepointStep insertHost 1 commitText = some final :=
    LoggedRun.savepointStep_logged (by decide) commits
  have texts : TxnLog.replayed final.state.log = [insertText] := rfl
  obtain ⟨directory, records, recovered, ran, isRead, replays, isCatalog⟩ :=
    @recovered_of_replayed insertHost 0 (engineWith ∅)
      ((engineWith ∅).catalog.insert "t" grown) rfl final.state.log _ readsJson_zeroHost _
      (calls_sessionOf _) (by decide) (by decide)
      (by simpa [texts] using ⟨_, parsedDml_insertText⟩) rfl
  refine ⟨final, directory, records, recovered, ?_, ran, isRead, replays, rfl, ?_⟩
  · simp only [foldlM_cons, foldlM_nil, step_begunLogged,
      step_markedLogged, step_insertedLogged, restores, ends, bind_eq_bind, bind_some]
    rfl
  · rw [isCatalog]
    rfl

end Example

end TurboGP.Engine
