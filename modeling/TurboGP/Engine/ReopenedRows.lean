import TurboGP.Engine.CommittedRows
import TurboGP.Engine.ConstraintRecovery

/-! # Committed rows after a restart -/

namespace TurboGP.Engine

open Effect GuardedRun Datasource Sql Txn
open Storage (WalHost Os DataDir Bincode Segment Holds flushWithCheckpoint)
open List

def enableMvcc : EngineM Unit := do
  if (← get).txnManager.active.isSome then
    fail (.other "cannot enable MVCC while a snapshot-isolation transaction is active")
  modify (fun engine => { engine with mvccEnabled := true })

namespace InsertLog

def Committed (log : InsertLog) (entry : LoggedRow) : Prop :=
  entry ∈ log.rows ∧
    ∃ txnId cid,
      entry.author = some txnId ∧ log.engine.mvccTxnManager.txnState txnId = .committed cid

/-- Every reader of the engine gets the committed rows, in autocommit and in
the transactions that are begun there. -/
def OutlivesIn (host : Host) (depth : Nat) (log : InsertLog) (engine : QueryEngine) : Prop :=
  ∀ entry, log.Committed entry →
    ∀ actions reader, Run (step host depth)
        (fun _ action => action = .begin ∨ action = .commit)
        { engine := engine, rows := [] } actions reader →
        Returned host reader.engine entry

end InsertLog

def WrittenBy (engine : QueryEngine) (entry : LoggedRow) : Prop :=
  entry.author ≠ some 0 ∧
    ∃ table, engine.catalog.lookup entry.table = some table ∧
      entry.row < table.rowCount ∧
      table.chainAt entry.row = [RowVersion.new (entry.author.getD 0) []]

structure RowsAuthored (log : InsertLog) : Prop where
  consistent : log.engine.Consistent
  named : Named log.engine.catalog
  /-- The row of `__dummy__` has no version. -/
  dummy : ∀ table, log.engine.catalog.lookup "__dummy__" = some table →
      0 < table.rowCount ∧ table.chainAt 0 = []
  written : ∀ entry ∈ log.rows, WrittenBy log.engine entry

namespace RowsAuthored

variable {host : Host} {depth : Nat} {log nextLog : InsertLog}
  {next : QueryEngine}

variable (authored : RowsAuthored log)

include authored

theorem of_lookup_eq (consistent : next.Consistent)
    (same : ∀ name, next.catalog.lookup name = log.engine.catalog.lookup name) :
    RowsAuthored { log with engine := next } where
  consistent := consistent
  named := fun name table held =>
    authored.named name table ((same name).symm.trans held)
  dummy := fun table held =>
    authored.dummy table ((same _).symm.trans held)
  written := by
    intro entry mem
    obtain ⟨notZero, table, held, facts⟩ := authored.written entry mem
    exact ⟨notZero, table, (same _).trans held, facts⟩

theorem insert {ins : Insert} {res : QueryResult}
    (ran : executeMvcc host depth (.dml (.insert ins)) log.engine = .ok res next) :
    RowsAuthored { engine := next, rows := log.rows ++ givenRows host log.engine ins } := by
  have inv : next.Consistent := (consistent_executeMvcc _).reached ran authored.consistent
  obtain ⟨table, changed, colIndices, held, columns, inserted, same⟩ :=
    executeInsert_ok authored.consistent.mode ran
  have lookup : ∀ name, next.catalog.lookup name =
          if name = ins.table then some changed else log.engine.catalog.lookup name :=
    fun name => (same.lookup_eq name).trans (FiniteMap.lookup_insert_eq _ _ _ _)
  have bounded := (authored.consistent.tables _ table held).bounded
  have count := inserted.count
  have oldChain : ∀ row < table.rowCount, changed.chainAt row = table.chainAt row := by
    intro row inTable
    rw [inserted.chains, if_neg (by omega)]
  refine ⟨inv, ?_, ?_, ?_⟩
  · intro name found isFound
    rw [lookup] at isFound
    split at isFound
    · next isTarget =>
      cases isFound
      rw [inserted.sameName, isTarget]
      exact authored.named _ table held
    · exact authored.named name found isFound
  · intro found isFound
    rw [lookup] at isFound
    split at isFound
    · next isTarget =>
      cases isFound
      obtain ⟨pos, noChain⟩ := authored.dummy table (isTarget ▸ held)
      exact ⟨by omega, (oldChain 0 pos).trans noChain⟩
    · exact authored.dummy found isFound
  · intro entry mem
    rcases mem_append.mp mem with old | new
    · obtain ⟨notZero, found, isFound, inTable, chain⟩ := authored.written entry old
      by_cases isTarget : entry.table = ins.table
      · rw [isTarget] at isFound
        cases held.symm.trans isFound
        refine ⟨notZero, changed, ?_, by omega, ?_⟩
        · rw [lookup, if_pos isTarget]
        · exact (oldChain _ inTable).trans chain
      · refine ⟨notZero, found, ?_, inTable, chain⟩
        rw [lookup, if_neg isTarget]
        exact isFound
    · obtain ⟨isAuthor, isTarget, inTable, chain⟩ :=
        given_author held columns bounded inserted new
      refine ⟨?_, changed, ?_, inTable, chain⟩
      · rw [isAuthor]
        exact activeId_ne_zero authored.consistent.manager
      · rw [lookup, if_pos isTarget]

theorem step {action : InsertAction} (enabled : log.step host depth action = some nextLog) :
    RowsAuthored nextLog := by
  unfold InsertLog.step at enabled
  split at enabled
  · next res next ran =>
    cases enabled
    have inv : next.Consistent := (consistent_executeMvcc _).reached ran authored.consistent
    cases action with
    | begin =>
      obtain ⟨-, rfl⟩ := executeMvcc_begin_eq_ok ran
      have kept := authored.of_lookup_eq inv fun _ => rfl
      simpa [InsertAction.givenRows] using kept
    | commit =>
      obtain ⟨txn, -, rfl⟩ := executeMvcc_commit_eq_ok ran
      have kept := authored.of_lookup_eq inv fun _ => rfl
      simpa [InsertAction.givenRows] using kept
    | insert ins => exact authored.insert ran
  · next error next failed =>
    cases enabled
    exact authored.of_lookup_eq
      ((consistent_executeMvcc _).reached_error failed authored.consistent)
      (sameTables_of_error failed).lookup_eq
  · cases enabled

theorem not_returned {sqlHost : SqlHost} {entry : LoggedRow} {txnId : Nat} {engine : QueryEngine}
    (mem : entry ∈ log.rows) (isAuthor : entry.author = some txnId)
    (catalog : engine.catalog = (registerTables sqlHost
          (loadTables (savedTables sqlHost log.engine.catalog)) .inMemory).catalog)
    (isNew : engine.mvccTxnManager = .new) : ¬ Returned host engine entry := by
  rintro ⟨table, res, pos, held, -, shown, -⟩
  obtain ⟨notZero, saved, isSaved, -, chain⟩ := authored.written entry mem
  rw [catalog, lookup_registerTables authored.named] at held
  rw [filterIndices_some, isNew] at shown
  obtain ⟨inRange, visible⟩ := mem_filter.mp (mem_of_getElem? shown)
  by_cases isDummy : entry.table = "__dummy__"
  · rw [isDummy] at isSaved
    rw [if_pos isDummy, isDummy] at held
    have isTable : table = dummyTable := (Option.some.inj held).symm
    rw [isTable] at inRange
    have first : entry.row = 0 := Nat.lt_one_iff.mp (mem_range.mp inRange)
    rw [first, (authored.dummy saved isSaved).2] at chain
    cases chain
  · rw [if_neg isDummy, isSaved, Option.map_some, Option.some_or] at held
    cases held
    have sameChain : (restoreTable saved).chainAt entry.row = [RowVersion.new txnId []] := by
      rw [isAuthor] at chain
      exact chain
    rcases (visible_iff_author _ sameChain).mp visible with isZero | committed
    · rw [isAuthor, isZero] at notZero
      exact notZero rfl
    · obtain ⟨cid, isCommitted, -⟩ := committed
      cases isCommitted

end RowsAuthored

section

variable {β : Type} {host : SqlHost} {depth : Nat} {bincode : Bincode β}
  {walHost : WalHost} {now limit : UInt64} {start : QueryEngine}
  {actions : List InsertAction} {log : InsertLog} {dir : DataDir β}
  {segments : List Segment}

theorem authored_of_run (reachable : start.Reachable host.toHost depth)
    (named : Named start.catalog) (dummy : start.catalog.lookup "__dummy__" = some dummyTable)
    (run :
      Run (InsertLog.step host.toHost depth) anyStep { engine := start, rows := [] } actions log) :
    RowsAuthored log := by
  refine run.invariant RowsAuthored (fun _ _ _ authored _ enabled => authored.step enabled) ?_
  refine ⟨reachable.consistent, named, fun table held => ?_, ?_⟩
  · cases dummy.symm.trans held
    exact ⟨Nat.zero_lt_one, rfl⟩
  · exact forall_mem_nil _

theorem mvcc_after_flush (free : dir.left = none)
    (holds : Holds dir.log.directory segments) (catalog : Catalog) (text : List Char) :
    ∃ flushed reopened opened,
      flushWithCheckpoint (bincode.serialize (savedTables host catalog)) text dir = .ok () flushed ∧
        withDataDir host depth bincode walHost (Os.good now) limit flushed =
            some (reopened, opened) ∧
          ∃ enabled, enableMvcc reopened.toQueryEngine = .ok () enabled ∧
            enabled.catalog =
                (registerTables host (loadTables (savedTables host catalog)) .inMemory).catalog ∧
              enabled.mvccTxnManager = .new := by
  let engine : SqlEngine := { SqlEngine.inMemory with catalog := catalog }
  obtain ⟨flushed, opened, ran, restarted⟩ :=
    @reopened_after_flush β host depth bincode walHost now limit engine dir segments free holds text
  exact ⟨flushed, _, opened, ran, restarted, _, rfl, rfl, rfl⟩

end

/-- After CHECKPOINT and a restart in MVCC mode, the rows of the committed
transactions are returned if and only if there are none. -/
theorem committed_rows_outlive_iff {β : Type} {host : SqlHost} {depth : Nat} {bincode : Bincode β}
    {walHost : WalHost} {now limit : UInt64} {start : QueryEngine}
    {actions : List InsertAction} {log : InsertLog} {dir : DataDir β}
    {segments : List Segment} (reachable : start.Reachable host.toHost depth)
    (named : Named start.catalog) (dummy : start.catalog.lookup "__dummy__" = some dummyTable)
    (run :
      Run (InsertLog.step host.toHost depth) anyStep { engine := start, rows := [] } actions log)
    (free : dir.left = none) (holds : Holds dir.log.directory segments) (text : List Char) :
    ∃ flushed reopened opened enabled,
      flushWithCheckpoint (bincode.serialize (savedTables host log.engine.catalog)) text dir =
          .ok () flushed ∧
        withDataDir host depth bincode walHost (Os.good now) limit flushed =
            some (reopened, opened) ∧
          enableMvcc reopened.toQueryEngine = .ok () enabled ∧
          (log.OutlivesIn host.toHost depth enabled ↔ ∀ entry, ¬ log.Committed entry) := by
  have authored := authored_of_run reachable named dummy run
  obtain ⟨flushed, reopened, opened, ran, restarted, enabled, enables, catalog, isNew⟩ :=
    @mvcc_after_flush β host depth bincode walHost now limit dir segments
      free holds log.engine.catalog text
  refine ⟨flushed, reopened, opened, enabled, ran, restarted, enables, ?_, ?_⟩
  · intro outlives entry committed
    obtain ⟨mem, txnId, cid, isAuthor, -⟩ := id committed
    exact authored.not_returned mem isAuthor catalog isNew
      (outlives entry committed [] _ (.nil _))
  · intro nothing entry committed
    exact absurd committed (nothing entry)

namespace Example

open Storage.Example

def nineStart : QueryEngine := QueryEngine.withTable oneColumn

theorem reachable_nineStart : nineStart.Reachable insertHost.toHost 1 :=
  ⟨nineStart, [], QueryEngine.initial_withTable rfl, .nil _⟩

theorem named_nineStart : Named nineStart.catalog := named_inMemory.insert rfl

/-- A transaction that inserts nothing is committed. -/
theorem committed_rows_outlive_empty : ∃ log flushed reopened opened enabled,
      Run (InsertLog.step insertHost.toHost 1) anyStep
          { engine := nineStart, rows := [] } [.begin, .commit] log ∧
        flushWithCheckpoint (savedTables insertHost log.engine.catalog) [] savedDir =
            .ok () flushed ∧
          withDataDir insertHost 1 plainBincode zeroHost (Os.good 9) 67108864 flushed =
              some (reopened, opened) ∧
            enableMvcc reopened.toQueryEngine = .ok () enabled ∧
            log.OutlivesIn insertHost.toHost 1 enabled := by
  obtain ⟨log, run, nothing⟩ : ∃ log : InsertLog, Run (InsertLog.step insertHost.toHost 1) anyStep
            { engine := nineStart, rows := [] } [.begin, .commit] log ∧
          log.rows = [] :=
    ⟨_, .cons trivial rfl (.cons trivial rfl (.nil _)), rfl⟩
  obtain ⟨flushed, reopened, opened, enabled, ran, restarted, enables, iff⟩ :=
    @committed_rows_outlive_iff _ insertHost 1 plainBincode zeroHost 9
      67108864 nineStart _ log savedDir _ reachable_nineStart named_nineStart
      rfl run rfl holds_savedDir []
  refine ⟨log, flushed, reopened, opened, enabled, run, ran, restarted, enables, iff.mpr ?_⟩
  rintro entry ⟨mem, -⟩
  rw [nothing] at mem
  cases mem

/-- The row of a committed transaction is gone after a restart. -/
theorem committed_row_is_lost : ∃ log flushed reopened opened enabled entry,
      Run (InsertLog.step insertHost.toHost 1) anyStep { engine := nineStart, rows := [] }
          [.begin, insertsNine, .commit] log ∧
        log.Committed entry ∧
        flushWithCheckpoint (savedTables insertHost log.engine.catalog) [] savedDir =
            .ok () flushed ∧
          withDataDir insertHost 1 plainBincode zeroHost (Os.good 9) 67108864 flushed =
              some (reopened, opened) ∧
            enableMvcc reopened.toQueryEngine = .ok () enabled ∧
            ¬ Returned insertHost.toHost enabled entry := by
  let entry : LoggedRow := { table := "t", row := 0, cells := [9], author := some 1 }
  obtain ⟨log, run, committed⟩ : ∃ log : InsertLog, Run (InsertLog.step insertHost.toHost 1) anyStep
            { engine := nineStart, rows := [] } [.begin, insertsNine, .commit] log ∧
          log.Committed entry :=
    ⟨_, .cons trivial rfl (.cons trivial rfl (.cons trivial rfl (.nil _))),
      mem_singleton_self _, 1, 1, rfl, rfl⟩
  obtain ⟨flushed, reopened, opened, ran, restarted, enabled, enables, catalog, isNew⟩ :=
    @mvcc_after_flush _ insertHost 1 plainBincode zeroHost 9 67108864
      savedDir _ rfl holds_savedDir log.engine.catalog []
  have authored := authored_of_run reachable_nineStart named_nineStart rfl run
  exact ⟨log, flushed, reopened, opened, enabled, entry, run, committed, ran,
    restarted, enables, authored.not_returned committed.1 rfl catalog isNew⟩

end Example

end TurboGP.Engine
