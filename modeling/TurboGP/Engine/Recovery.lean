import TurboGP.Engine.Execute
import TurboGP.Lib.TxnLog
import TurboGP.Storage.RoundTrip

/-!
# Recovery from the write-ahead log

`replay_wal_with_lsn_filter` of `engine/mod.rs`: which records of the log are
executed again when a data directory is opened.
-/

namespace TurboGP.Engine

open Storage TxnLog Payload List

def committedTxns (records : List WalRecord) : List UInt64 :=
  (records.filter fun record => record.isCommit && record.txnId != 0).map WalRecord.txnId

def inCheckpoint (lastLsn : Option UInt64) (record : WalRecord) : Bool :=
  match lastLsn with
  | some last => decide (record.lsn ≤ last) && decide (0 < record.lsn)
  | none => false

/-- The tests of the loop, before the SQL of a record is executed. -/
def isReplayed (lastLsn : Option UInt64) (committed : List UInt64) (record : WalRecord) : Bool :=
  !inCheckpoint lastLsn record && !record.isRollback &&
    (record.txnId == 0 || committed.contains record.txnId) && !record.sql.isEmpty

def replayedRecords (lastLsn : Option UInt64) (records : List WalRecord) : List WalRecord :=
  records.filter (isReplayed lastLsn (committedTxns records))

/-- `execute_inner_no_wal`; an error is ignored. -/
def replayRecord (host : SqlHost) (depth : Nat) (engine : SqlEngine)
    (record : WalRecord) : Option SqlEngine :=
  match executeInner host depth record.sql (some record.txnId.toNat)
      engine with
  | .ok _ next => some next
  | .error (.error _) next => some next
  | .error _ _ => none

def replayWalWithLsnFilter (host : SqlHost) (depth : Nat)
    (lastLsn : Option UInt64) (records : List WalRecord) (engine : SqlEngine) : Option SqlEngine :=
  (replayedRecords lastLsn records).foldlM (replayRecord host depth) engine

/-- What `execute` appends: a marker of a transaction or a statement. -/
abbrev LogEntry := TxnLog.Entry UInt64 (List Char)

/-- The record of an entry, before the log gives it a number and a time. -/
def LogEntry.record : LogEntry → WalRecord
  | .begin id => .begin id
  | .commit id => .commit id
  | .rollback id => .rollback id
  | .statement none sql => .autocommit sql
  | .statement (some id) sql => .txnDml id sql

/-- A transaction has a number, and a statement a text. -/
def LogEntry.Proper : LogEntry → Prop
  | .begin id | .commit id | .rollback id => id ≠ 0
  | .statement owner sql => owner ≠ some 0 ∧ sql ≠ []

instance : DecidablePred LogEntry.Proper
  | .begin id | .commit id | .rollback id => inferInstanceAs (Decidable (id ≠ 0))
  | .statement owner sql => inferInstanceAs (Decidable (owner ≠ some 0 ∧ sql ≠ []))

/-- The record holds what the entry says; its number and its time are those
of the log. -/
def LogEntry.WrittenAs (entry : LogEntry) (record : WalRecord) : Prop :=
  LogEntry.Proper entry ∧ record.payload = (LogEntry.record entry).payload

abbrev Written (entries : List LogEntry) (records : List WalRecord) : Prop :=
  List.Forall₂ LogEntry.WrittenAs entries records

section

variable {entry : LogEntry} {record : WalRecord}
  {entries : List LogEntry} {records : List WalRecord}

private theorem map_filter_eq_filterMap
    {α β : Type} (test : α → Bool) (read : α → β) (items : List α) :
    (items.filter test).map read = items.filterMap fun item =>
        if test item then some (read item) else none := by
  induction items with
  | nil => rfl
  | cons first rest ih =>
    by_cases passes : test first = true
    · simp [passes, ih]
    · simp [passes, ih]

theorem filterMap_written {α : Type} {ofEntry : LogEntry → Option α}
    {ofRecord : WalRecord → Option α}
    (each : ∀ entry record, entry.WrittenAs record → ofRecord record = ofEntry entry)
    (written : Written entries records) :
    records.filterMap ofRecord = entries.filterMap ofEntry := by
  induction written with
  | nil => rfl
  | cons first _ ih => rw [filterMap_cons, filterMap_cons, each _ _ first, ih]

theorem committedTxns_written (written : Written entries records) :
    committedTxns records = committed entries := by
  unfold committedTxns
  rw [map_filter_eq_filterMap]
  refine filterMap_written ?_ written
  rintro entry record ⟨proper, same⟩
  have sameId := congrArg txnId same
  have sameFlag := congrArg isCommit same
  simp only [WalRecord.payload] at sameId sameFlag
  rw [sameId, sameFlag]
  cases entry with
  | begin id | rollback id => rfl
  | commit id =>
    have numbered : (id != 0) = true := bne_iff_ne.mpr proper
    simp [LogEntry.record, WalRecord.commit, WalRecord.begin, numbered, TxnLog.Entry.commitId]
  | statement owner sql => cases owner <;> rfl

theorem isReplayed_written (committed : List UInt64) (written : entry.WrittenAs record) :
    (if isReplayed none committed record then some record.sql else none) =
      entry.selected committed := by
  obtain ⟨proper, same⟩ := written
  have sameId := congrArg txnId same
  have sameSql := congrArg sql same
  have sameFlag := congrArg isRollback same
  simp only [WalRecord.payload] at sameId sameSql sameFlag
  unfold isReplayed inCheckpoint
  rw [sameId, sameSql, sameFlag]
  cases entry with
  | begin id | rollback id | commit id =>
    simp [LogEntry.record, WalRecord.begin, WalRecord.commit,
      WalRecord.rollback, WalRecord.autocommit, TxnLog.Entry.selected]
  | statement owner sql =>
    obtain ⟨numbered, text⟩ := proper
    have nonempty : sql.isEmpty = false := isEmpty_eq_false_iff.mpr text
    cases owner with
    | none => simp [LogEntry.record, WalRecord.autocommit, TxnLog.Entry.selected, nonempty]
    | some id =>
      have notZero : (id == 0) = false :=
        beq_eq_false_iff_ne.mpr fun zero => numbered (congrArg _ zero)
      simp [LogEntry.record, WalRecord.txnDml, WalRecord.autocommit,
        TxnLog.Entry.selected, nonempty, notZero]

theorem isReplayed_statement {owner : Option UInt64} {sql : List Char}
    (committed : List UInt64) (written : LogEntry.WrittenAs (.statement owner sql) record) :
    isReplayed none committed record = true ↔ ∀ id ∈ owner, id ∈ committed := by
  have selected := isReplayed_written committed written
  cases owner with
  | none =>
    simp only [TxnLog.Entry.selected, Option.ite_none_right_eq_some, Option.some.injEq] at selected
    simp [selected.1]
  | some id =>
    simp only [TxnLog.Entry.selected] at selected
    by_cases isCommitted : id ∈ committed <;>
      simp_all

theorem replayedRecords_written (written : Written entries records) :
    (replayedRecords none records).map WalRecord.sql = replayed entries := by
  unfold replayedRecords
  rw [map_filter_eq_filterMap, committedTxns_written written]
  refine filterMap_written ?_ written
  intro entry record held
  exact isReplayed_written _ held

theorem written_of_payloads (proper : ∀ entry ∈ entries, LogEntry.Proper entry)
    (same : records.map WalRecord.payload = (entries.map LogEntry.record).map WalRecord.payload) :
    Written entries records := by
  rw [map_map, ← forall₂_eq_eq_eq, forall₂_map_left_iff,
    forall₂_map_right_iff] at same
  unfold Written LogEntry.WrittenAs
  rw [forall₂_and_left]
  exact ⟨proper, same.flip⟩

theorem readAll_written {walHost : WalHost} (json : walHost.ReadsJson) (sessions : List WalSession)
    (appends : (sessions.flatMap WalSession.calls).map AppendCall.record =
        entries.map LogEntry.record)
    (proper : ∀ entry ∈ entries, LogEntry.Proper entry) (room : entries.length + 1 < 2 ^ 64) :
    ∃ directory records, runSessions walHost sessions ∅ = some directory ∧
      readAll walHost directory = .ok records ∧ Written entries records := by
  have sameLength : (sessions.flatMap WalSession.calls).length = entries.length := by
    have lengths := congrArg length appends
    rwa [length_map, length_map] at lengths
  have empty := tidyLog_empty walHost (sameLength.symm ▸ room)
  obtain ⟨directory, records, ran, payloads, tidy⟩ :=
    @Storage.TidyLog.sessions _ _ _ _ 0 _ json (keepsGood_complete walHost) sessions empty
  refine ⟨directory, records, ran, tidy.readAll_eq, written_of_payloads proper ?_⟩
  rw [payloads, ← appends, map_map]
  rfl

end

end TurboGP.Engine
