import TurboGP.Engine.NumberedLog

/-! # Recovery of MVCC transactions -/

namespace TurboGP.Engine

open Datasource Sql Sql.Text Txn Effect LoggedRun MvccTxnManager Storage LogEntry
open GuardedRun Option

section

variable {host : SqlHost} {engine next : SqlEngine} {sql : List Char}
  {depth : Nat} {res : QueryResult} {core after : QueryEngine}
  {control : MvccTxnManager → Except String (Nat × MvccTxnManager)}
  {statement : MvccStatement}

theorem controlTransaction_returned (ran : controlTransaction control core = .ok () after) :
    ∃ id mgr, control core.mvccTxnManager = .ok (id, mgr) ∧
      after = { core with mvccTxnManager := mgr } := by
  unfold controlTransaction at ran
  rw [get_bind_run] at ran
  cases out : control core.mvccTxnManager with
  | error message =>
    rw [out] at ran
    cases ran
  | ok value =>
    rw [out] at ran
    cases ran
    exact ⟨value.1, value.2, rfl, rfl⟩

/-- The manager after a program that changes it by `control`. -/
def Controls (control : MvccTxnManager → Except String (Nat × MvccTxnManager))
    (old new : QueryEngine) : Prop :=
  ∃ id mgr, control old.mvccTxnManager = .ok (id, mgr) ∧
    new.mvccTxnManager = mgr ∧ new.mvccEnabled = old.mvccEnabled

theorem controls_bind {α : Type} {value : α} {rest : EngineM α}
    (keeps : ∀ middle, rest middle = .ok value after →
        after.mvccTxnManager = middle.mvccTxnManager ∧ after.mvccEnabled = middle.mvccEnabled)
    (ran : (controlTransaction control >>= fun _ => rest) core = .ok value after) :
    Controls control core after := by
  obtain ⟨_, middle, out, rest⟩ := bind_eq_ok_iff.mp ran
  obtain ⟨id, mgr, controlled, rfl⟩ := controlTransaction_returned out
  obtain ⟨sameManager, sameMode⟩ := keeps _ rest
  exact ⟨id, mgr, controlled, sameManager, sameMode⟩

def transactionControl :
    StatementKind → Option (MvccStatement × (MvccTxnManager → Except String (Nat × MvccTxnManager)))
  | .begin => some (.begin, beginCompat)
  | .commit => some (.commit, commitCompat)
  | .rollback => some (.rollback, rollbackCompat)
  | _ => none

theorem executeMvcc_control {kind : StatementKind}
    (isControl : transactionControl kind = some (statement, control))
    (ran : executeMvcc host.toHost 0 statement core = .ok res after) :
    Controls control core after := by
  cases kind with
  | begin | commit | rollback =>
    cases isControl
    refine controls_bind ?_ ran
    rintro middle ⟨⟩
    exact ⟨rfl, rfl⟩
  | _ => cases isControl

theorem execute_eq_executeMvcc
    (isControl : transactionControl (host.kind sql) = some (statement, control))
    (mode : engine.mvccEnabled = true) :
    execute host depth sql engine = onCore (executeMvcc host.toHost 0 statement) engine := by
  cases kind : host.kind sql with
  | begin | commit | rollback =>
    rw [kind] at isControl
    cases isControl
    rw [execute_eq_executeByKind depth (by rw [kind]; rfl) (by rw [kind]; rfl)]
    unfold executeByKind controlByMode
    simp only [kind]
    rw [get_bind_run, if_pos mode]
  | _ =>
    rw [kind] at isControl
    cases isControl

theorem execute_mvccControl
    (isControl : transactionControl (host.kind sql) = some (statement, control))
    (mode : engine.mvccEnabled = true) (ran : execute host depth sql engine = .ok res next) :
    Controls control engine.toQueryEngine next.toQueryEngine := by
  rw [execute_eq_executeMvcc isControl mode] at ran
  unfold onCore at ran
  split at ran
  swap
  · cases ran
  · next value after out =>
    cases ran
    exact executeMvcc_control isControl out

end

/-- The condition on one statement: a transaction that commits gets the commit
number that is its own number.  The numbers of transactions do not run out. -/
structure CommitsAsItself (host : SqlHost) (run : LoggedRun)
    (sql : List Char) : Prop where
  text : TransactionText host sql
  room : host.kind sql = .begin → run.state.engine.mvccTxnManager.nextTxnId < 2 ^ 64
  ownId : host.kind sql = .commit →
      ∀ id, run.state.engine.mvccTxnManager.activeId = some id →
      run.state.engine.mvccTxnManager.commitId + 1 = id

def BegunBefore (mgr : MvccTxnManager) (id : UInt64) : Prop :=
  ∃ n, 0 < n ∧ n < mgr.nextTxnId ∧ id = UInt64.ofNat n

structure MvccTracked (run : LoggedRun) : Prop where
  mode : run.state.engine.mvccEnabled = true
  room : run.state.engine.mvccTxnManager.nextTxnId ≤ 2 ^ 64
  positive : 0 < run.state.engine.mvccTxnManager.nextTxnId
  active : ∀ id, run.state.engine.mvccTxnManager.activeId = some id →
      0 < id ∧ id < run.state.engine.mvccTxnManager.nextTxnId
  current : run.ledger.current = run.state.engine.mvccTxnManager.activeId.map UInt64.ofNat
  tracks : TxnLog.Tracks run.state.log run.ledger
  begun : ∀ id, id ∈ TxnLog.owners run.state.log ∨
        id ∈ TxnLog.committed run.state.log →
      BegunBefore run.state.engine.mvccTxnManager id
  proper : ∀ entry ∈ run.state.log, Proper entry

section

variable {mgr next : MvccTxnManager} {id : Nat}

theorem beginCompat_ok (begun : mgr.beginCompat = .ok (id, next)) :
    id = mgr.nextTxnId ∧ next.nextTxnId = mgr.nextTxnId + 1 ∧
      next.activeId = some mgr.nextTxnId := by
  unfold beginCompat at begun
  split at begun
  · cases begun
  · cases begun
    exact ⟨rfl, rfl, rfl⟩

theorem commitCompat_ok (committed : mgr.commitCompat = .ok (id, next)) : ∃ txnId,
      mgr.activeId = some txnId ∧ id = mgr.commitId + 1 ∧
        next.nextTxnId = mgr.nextTxnId ∧ next.activeId = none := by
  unfold commitCompat at committed
  split at committed
  · cases committed
  · next txn active =>
    cases committed
    refine ⟨txn.id, ?_, rfl, rfl, rfl⟩
    unfold activeId
    rw [active]
    rfl

theorem rollbackCompat_ok (rolledBack : mgr.rollbackCompat = .ok (id, next)) :
    mgr.activeId = some id ∧ next.nextTxnId = mgr.nextTxnId ∧ next.activeId = none := by
  unfold rollbackCompat at rolledBack
  split at rolledBack
  · cases rolledBack
  · next txn active =>
    cases rolledBack
    refine ⟨?_, rfl, rfl⟩
    unfold activeId
    rw [active]
    rfl

end

section

variable {host : SqlHost} {depth : Nat} {run next : LoggedRun}
  {sql : List Char}

theorem MvccTracked.ids (tracked : MvccTracked run) :
    IdsTracked run.state.engine.mvccTxnManager.nextTxnId
      run.state.engine.mvccTxnManager.activeId run.state.log run.ledger :=
  ⟨tracked.room, tracked.positive, tracked.active, tracked.current,
    tracked.tracks, tracked.begun, tracked.proper⟩

theorem mvccTracked_of_ids (mode : run.state.engine.mvccEnabled = true)
    {nextId : Nat} {opened : Option Nat}
    (isNextId : run.state.engine.mvccTxnManager.nextTxnId = nextId)
    (isOpened : run.state.engine.mvccTxnManager.activeId = opened)
    (ids : IdsTracked nextId opened run.state.log run.ledger) : MvccTracked run := by
  subst isNextId isOpened
  exact ⟨mode, ids.room, ids.positive, ids.active, ids.current, ids.tracks, ids.begun, ids.proper⟩

variable (tracked : MvccTracked run)

include tracked

theorem MvccTracked.begin (kind : host.kind sql = .begin)
    (room : run.state.engine.mvccTxnManager.nextTxnId < 2 ^ 64)
    (accepted : run.accept host depth sql = some next) : MvccTracked next := by
  obtain ⟨res, ran, log, ledger⟩ := accept_eq_some accepted
  obtain ⟨id, mgr, begun, sameMgr, sameMode⟩ :=
    execute_mvccControl (by rw [kind]; rfl) tracked.mode ran
  have entries : entriesOf host run.state.engine sql = [.begin (UInt64.ofNat id)] := by
    unfold entriesOf
    simp only [kind]
    rw [if_pos tracked.mode, begun]
    rfl
  obtain ⟨rfl, nextId, activeId⟩ := beginCompat_ok begun
  rw [← sameMgr] at nextId activeId
  have openId : next.state.engine.openId = some run.state.engine.mvccTxnManager.nextTxnId :=
    (if_pos (sameMode.trans tracked.mode)).trans activeId
  refine mvccTracked_of_ids (sameMode.trans tracked.mode) nextId activeId ?_
  rw [log, entries, ledger, kind, openId]
  exact tracked.ids.begin room

theorem MvccTracked.commit (kind : host.kind sql = .commit)
    (ownId : ∀ id, run.state.engine.mvccTxnManager.activeId = some id →
        run.state.engine.mvccTxnManager.commitId + 1 = id)
    (accepted : run.accept host depth sql = some next) : MvccTracked next := by
  obtain ⟨res, ran, log, ledger⟩ := accept_eq_some accepted
  obtain ⟨cid, mgr, committed, sameMgr, sameMode⟩ :=
    execute_mvccControl (by rw [kind]; rfl) tracked.mode ran
  obtain ⟨id, wasActive, isCid, nextId, inactive⟩ := commitCompat_ok committed
  rw [← sameMgr] at nextId inactive
  have isOwn : cid = id := isCid.trans (ownId id wasActive)
  have entries : entriesOf host run.state.engine sql = [.commit (UInt64.ofNat id)] := by
    unfold entriesOf
    simp only [kind]
    rw [if_pos tracked.mode, committed, isOwn]
    rfl
  have ids := tracked.ids
  rw [wasActive] at ids
  refine mvccTracked_of_ids (sameMode.trans tracked.mode) nextId inactive ?_
  rw [log, entries, ledger, kind]
  exact ids.commit

theorem MvccTracked.rollback (kind : host.kind sql = .rollback)
    (accepted : run.accept host depth sql = some next) : MvccTracked next := by
  obtain ⟨res, ran, log, ledger⟩ := accept_eq_some accepted
  obtain ⟨id, mgr, rolledBack, sameMgr, sameMode⟩ :=
    execute_mvccControl (by rw [kind]; rfl) tracked.mode ran
  obtain ⟨wasActive, nextId, inactive⟩ := rollbackCompat_ok rolledBack
  rw [← sameMgr] at nextId inactive
  have entries : entriesOf host run.state.engine sql = [.rollback (UInt64.ofNat id)] := by
    unfold entriesOf
    simp only [kind]
    rw [if_pos tracked.mode, rolledBack]
    rfl
  have ids := tracked.ids
  rw [wasActive] at ids
  refine mvccTracked_of_ids (sameMode.trans tracked.mode) nextId inactive ?_
  rw [log, entries, ledger, kind]
  exact ids.rollback

theorem MvccTracked.dml {statement : DmlStatement} (text : ParsedDml host sql statement)
    (accepted : run.accept host (depth + 1) sql = some next) : MvccTracked next := by
  obtain ⟨res, ran, log, ledger⟩ := accept_eq_some accepted
  rw [execute_dml text, if_pos tracked.mode] at ran
  have kept : KeepsSession run.state.engine.uncached next.state.engine :=
    (keepsSession_dml _ _ _ _ _).reached ran
  have sameMgr : next.state.engine.mvccTxnManager = run.state.engine.mvccTxnManager :=
    kept.sameManager
  refine mvccTracked_of_ids (kept.sameMode.trans tracked.mode)
    (congrArg nextTxnId sameMgr) (congrArg activeId sameMgr) ?_
  rw [log, ledger]
  exact tracked.ids.dml text (if_pos tracked.mode) _

theorem MvccTracked.step (allowed : CommitsAsItself host run sql)
    (accepted : run.accept host (depth + 1) sql = some next) : MvccTracked next := by
  cases allowed.text with
  | begin kind => exact tracked.begin kind (allowed.room kind) accepted
  | commit kind => exact tracked.commit kind (allowed.ownId kind) accepted
  | rollback kind => exact tracked.rollback kind accepted
  | dml statement text => exact tracked.dml text accepted

end

theorem mvccTracked_start {engine : SqlEngine} (mode : engine.mvccEnabled = true)
    (isNew : engine.mvccTxnManager = .new) : MvccTracked (start engine) := by
  have nextId : engine.mvccTxnManager.nextTxnId = 1 := by
    rw [isNew]
    rfl
  have inactive : engine.mvccTxnManager.activeId = none := by
    rw [isNew]
    rfl
  exact mvccTracked_of_ids mode nextId inactive (.start (by decide) (by decide))

/-- In every run of accepted transaction statements whose commits carry the
number of their transaction, replay of the log that was written executes the
statements that took effect, in the order of the log. -/
theorem mvcc_replay_executes_committed {host : SqlHost} {depth : Nat} {engine : SqlEngine}
    (mode : engine.mvccEnabled = true) (isNew : engine.mvccTxnManager = .new)
    {texts : List (List Char)} {final : LoggedRun}
    (run : Run (accept host (depth + 1)) (CommitsAsItself host) (start engine) texts final)
    {walHost : WalHost} (json : walHost.ReadsJson) {session : WalSession}
    (appends : session.calls.map AppendCall.record = final.state.log.map record)
    (room : final.state.log.length + 1 < 2 ^ 64) :
    ∃ directory records, runSessions walHost [session] ∅ = some directory ∧
      readAll walHost directory = .ok records ∧
      (replayedRecords none records).map WalRecord.sql = final.ledger.kept := by
  have tracked : MvccTracked final := by
    refine run.invariant MvccTracked ?_ (mvccTracked_start mode isNew)
    intro run sql next before allowed accepted
    exact before.step allowed accepted
  have oneSession : ([session].flatMap WalSession.calls).map AppendCall.record =
      final.state.log.map record := by
    rw [List.flatMap_singleton]
    exact appends
  obtain ⟨directory, records, ran, isRead, written⟩ :=
    readAll_written json [session] oneSession tracked.proper room
  refine ⟨directory, records, ran, isRead, ?_⟩
  rw [replayedRecords_written written]
  exact tracked.tracks.kept

namespace Example

def begunRun : LoggedRun := ((start mvccEngine).accept insertHost 1 beginText).get rfl

def insertedRun : LoggedRun := (begunRun.accept insertHost 1 insertText).get rfl

def committedRun : LoggedRun := (insertedRun.accept insertHost 1 commitText).get rfl

/-- One transaction, committed. -/
theorem mvcc_replay_executes_insert : ∃ directory records,
      Run (accept insertHost 1) (CommitsAsItself insertHost)
          (start mvccEngine) [beginText, insertText, commitText] committedRun ∧
        readAll Example.zeroHost directory = .ok records ∧
        (replayedRecords none records).map WalRecord.sql = [insertText] := by
  have run : Run (accept insertHost 1) (CommitsAsItself insertHost)
      (start mvccEngine) [beginText, insertText, commitText]
      committedRun := by
    refine .cons ?_ (some_get _).symm
      (.cons ?_ (some_get _).symm (.cons ?_ (some_get _).symm (.nil _)))
    · exact ⟨.begin rfl, fun _ => by decide, by rintro ⟨⟩⟩
    · exact ⟨.dml _ parsedDml_insertText, by rintro ⟨⟩, by rintro ⟨⟩⟩
    · refine ⟨.commit rfl, by rintro ⟨⟩, ?_⟩
      intro _ id isActive
      have isFirst : some 1 = some id := isActive
      cases isFirst
      rfl
  obtain ⟨directory, records, -, isRead, replays⟩ := mvcc_replay_executes_committed rfl rfl run
      (readsJson_compactHost _) (calls_sessionOf committedRun.state.log) (by decide)
  exact ⟨directory, records, run, isRead, replays⟩

/-- The first transaction is rolled back, the second one commits. -/
def secondInserts : List (List Char) := [beginText, rollbackText, beginText, insertText, commitText]

def firstInserts : List (List Char) := [beginText, insertText, rollbackText, beginText, commitText]

/-- The commit of the second transaction has the number 1: the statement of
the second transaction is lost, and one of the first comes back. -/
theorem committed_lost_and_rolled_back_replayed : ∃ lost revived,
      secondInserts.foldlM (accept insertHost 1) (start mvccEngine) = some lost ∧
        lost.ledger.kept = [insertText] ∧ replayedRecords none (lost.state.log.map record) = [] ∧
        firstInserts.foldlM (accept insertHost 1) (start mvccEngine) = some revived ∧
        revived.ledger.kept = [] ∧
        (replayedRecords none (revived.state.log.map record)).map WalRecord.sql = [insertText] :=
  ⟨_, _, rfl, rfl, rfl, rfl, rfl, rfl⟩

end Example

end TurboGP.Engine
