import TurboGP.Engine.Recovery
import TurboGP.Engine.Savepoints

/-! # An engine with its log -/

namespace TurboGP.Engine

open Datasource Sql Sql.Text Txn Effect TxnLog

section

variable {host : SqlHost} {sql : List Char} {statement : DmlStatement}
  {engine : SqlEngine}

/-- A DML statement leaves the transaction managers and the savepoints. -/
structure KeepsSession (old new : SqlEngine) : Prop where
  sameMode : new.mvccEnabled = old.mvccEnabled
  sameManager : new.mvccTxnManager = old.mvccTxnManager
  sameTxnManager : new.txnManager = old.txnManager
  sameSavepoints : new.savepoints = old.savepoints

theorem KeepsSession.of_engineMoves
    {versioned : String → Prop} {rel : String → Table → Table → Prop} {core : QueryEngine}
    (moved : EngineMoves versioned rel engine.toQueryEngine core) :
    KeepsSession engine { engine with toQueryEngine := core } :=
  ⟨moved.sameMode, moved.sameManager, moved.sameTxnManager, moved.sameSavepoints⟩

theorem keepsSession_dml (host : Host) (depth : Nat)
    (statement : DmlStatement) (txnId : Option Nat) (engine : SqlEngine) :
    Moves KeepsSession engine (onCore (executeDml host depth statement txnId)) := by
  unfold Moves
  rw [finalState_onCore]
  by_cases mode : engine.mvccEnabled = true
  · exact .of_engineMoves
      (moves_executeDml depth txnId mode (keepsPinned_none host engine.toQueryEngine statement))
  · exact .of_engineMoves (moves_executeDml_snapshot host depth txnId
      (Bool.not_eq_true _ ▸ mode) (sidecarsWithin_all engine.toQueryEngine statement))

end

theorem ofNat_inj_of_lt {first second : Nat} (firstFits : first < 2 ^ 64)
    (secondFits : second < 2 ^ 64)
    (same : UInt64.ofNat first = UInt64.ofNat second) : first = second := by
  have values := congrArg UInt64.toNat same
  rwa [UInt64.toNat_ofNat_of_lt' firstFits, UInt64.toNat_ofNat_of_lt' secondFits] at values

theorem ofNat_ne_zero {n : Nat} (pos : 0 < n) (fits : n < 2 ^ 64) : UInt64.ofNat n ≠ 0 := by
  intro zero
  have same := ofNat_inj_of_lt fits (by omega : 0 < 2 ^ 64) zero
  omega

def SqlEngine.openId (engine : SqlEngine) : Option Nat :=
  if engine.mvccEnabled then engine.mvccTxnManager.activeId
  else engine.txnManager.active.map Transaction.id

/-- The number that a transaction statement of the MVCC manager returns. -/
def markerId (outcome : Except String (Nat × MvccTxnManager)) : List UInt64 :=
  match outcome with
  | .ok (id, _) => [UInt64.ofNat id]
  | .error _ => []

def entriesOf (host : SqlHost) (engine : SqlEngine) (sql : List Char) : List LogEntry :=
  match host.kind sql with
  | .begin =>
    if engine.mvccEnabled then
      (markerId engine.mvccTxnManager.beginCompat).map .begin
    else [.begin (UInt64.ofNat engine.txnManager.nextId)]
  | .commit =>
    if engine.mvccEnabled then
      (markerId engine.mvccTxnManager.commitCompat).map .commit
    else
      [.commit (UInt64.ofNat ((engine.txnManager.active.map Transaction.id).getD 0))]
  | .rollback =>
    if engine.mvccEnabled then
      (markerId engine.mvccTxnManager.rollbackCompat).map .rollback
    else
      [.rollback (UInt64.ofNat ((engine.txnManager.active.map Transaction.id).getD 0))]
  | _ =>
    match host.parse sql with
    | .ddl _ | .dml _ => [.statement (engine.openId.map UInt64.ofNat) sql]
    | _ => []

structure LoggedEngine where
  engine : SqlEngine
  log : List LogEntry

def LoggedEngine.accept (host : SqlHost) (depth : Nat)
    (state : LoggedEngine) (sql : List Char) : Option LoggedEngine :=
  match execute host depth sql state.engine with
  | .ok _ next =>
    some
      { engine := next, log := state.log ++ entriesOf host state.engine sql }
  | .error _ _ => none

theorem LoggedEngine.accept_eq_some {host : SqlHost} {depth : Nat} {state next : LoggedEngine}
    {sql : List Char} (accepted : state.accept host depth sql = some next) :
    ∃ result, execute host depth sql state.engine = .ok result next.engine ∧
      next.log = state.log ++ entriesOf host state.engine sql := by
  unfold LoggedEngine.accept at accepted
  cases out : execute host depth sql state.engine with
  | ok result after =>
    rw [out] at accepted
    cases accepted
    exact ⟨result, rfl, rfl⟩
  | error fault after =>
    rw [out] at accepted
    cases accepted

/-- What a statement that returned Ok means: the open transaction afterwards
is `opened`. -/
def recorded (kind : StatementKind) (opened : Option UInt64)
    (sql : List Char) (ledger : Ledger UInt64 (List Char)) :
    Ledger UInt64 (List Char) :=
  match kind with
  | .begin => { ledger with current := opened, pending := [] }
  | .commit => { current := none, kept := ledger.kept ++ ledger.pending, pending := [] }
  | .rollback => { ledger with current := none, pending := [] }
  | _ =>
    match ledger.current with
    | some _ => { ledger with pending := ledger.pending ++ [sql] }
    | none => { ledger with kept := ledger.kept ++ [sql] }

structure LoggedRun where
  state : LoggedEngine
  ledger : Ledger UInt64 (List Char)

namespace LoggedRun

def start (engine : SqlEngine) : LoggedRun :=
  { state := { engine := engine, log := [] }, ledger := .empty }

def accept (host : SqlHost) (depth : Nat) (run : LoggedRun) (sql : List Char) : Option LoggedRun :=
  (run.state.accept host depth sql).map fun next =>
    { state := next
      ledger := recorded (host.kind sql) (next.engine.openId.map UInt64.ofNat) sql run.ledger }

theorem accept_eq_some {host : SqlHost} {depth : Nat} {run next : LoggedRun} {sql : List Char}
    (accepted : run.accept host depth sql = some next) :
    ∃ result, execute host depth sql run.state.engine = .ok result next.state.engine ∧
      next.state.log = run.state.log ++ entriesOf host run.state.engine sql ∧
      next.ledger =
        recorded (host.kind sql) (next.state.engine.openId.map UInt64.ofNat) sql run.ledger := by
  obtain ⟨state, inState, rfl⟩ := Option.map_eq_some_iff.mp accepted
  obtain ⟨result, ran, logged⟩ := LoggedEngine.accept_eq_some inState
  exact ⟨result, ran, logged, rfl⟩

end LoggedRun

inductive TransactionText (host : SqlHost) (sql : List Char) : Prop
  | begin (kind : host.kind sql = .begin)
  | commit (kind : host.kind sql = .commit)
  | rollback (kind : host.kind sql = .rollback)
  | dml (statement : DmlStatement) (text : ParsedDml host sql statement)

section

variable {host : SqlHost} {sql : List Char} {statement : DmlStatement}

variable (text : ParsedDml host sql statement)

include text

theorem ParsedDml.entriesOf_eq (engine : SqlEngine) :
    entriesOf host engine sql = [.statement (engine.openId.map UInt64.ofNat) sql] := by
  unfold entriesOf
  rcases text.kind with kind | kind | kind <;> simp only [kind, text.parsed]

theorem ParsedDml.recorded_eq (opened : Option UInt64) (ledger : Ledger UInt64 (List Char)) :
    recorded (host.kind sql) opened sql ledger =
      match ledger.current with
      | some _ => { ledger with pending := ledger.pending ++ [sql] }
      | none => { ledger with kept := ledger.kept ++ [sql] } := by
  unfold recorded
  rcases text.kind with kind | kind | kind <;> simp only [kind]

theorem ParsedDml.tracks {engine : SqlEngine} {log : List LogEntry}
    {ledger : Ledger UInt64 (List Char)} (opened : Option UInt64) (tracks : Tracks log ledger)
    (current : ledger.current = engine.openId.map UInt64.ofNat) :
    Tracks (log ++ entriesOf host engine sql) (recorded (host.kind sql) opened sql ledger) ∧
      (recorded (host.kind sql) opened sql ledger).current = ledger.current := by
  rw [text.entriesOf_eq, text.recorded_eq, ← current]
  obtain ⟨isOpen, kept, pending⟩ := ledger
  cases isOpen with
  | none => exact ⟨tracks.standalone rfl, rfl⟩
  | some id => exact ⟨tracks.owned rfl, rfl⟩

end

structure SameTransaction (old new : SqlEngine) : Prop where
  sameMode : new.mvccEnabled = old.mvccEnabled
  sameNextId : new.txnManager.nextId = old.txnManager.nextId
  sameId : new.txnManager.active.map Transaction.id = old.txnManager.active.map Transaction.id

section

variable {host : SqlHost} {engine next : SqlEngine} {sql : List Char}
  {depth : Nat} {result : QueryResult} {fault : Fault}

theorem openId_snapshot (mode : engine.mvccEnabled = false) :
    engine.openId = engine.txnManager.active.map Transaction.id :=
  if_neg (by rw [mode]; decide)

theorem openId_of_begin (kind : host.kind sql = .begin) (mode : engine.mvccEnabled = false)
    (ran : execute host depth sql engine = .ok result next) :
    next.openId = some engine.txnManager.nextId := by
  obtain ⟨-, rfl⟩ := execute_begin kind mode ran
  exact openId_snapshot mode

theorem entriesOf_begin (kind : host.kind sql = .begin) (mode : engine.mvccEnabled = false) :
    entriesOf host engine sql = [.begin (UInt64.ofNat engine.txnManager.nextId)] := by
  unfold entriesOf
  simp only [kind]
  exact if_neg (by rw [mode]; decide)

theorem entriesOf_commit {txn : Transaction}
    (kind : host.kind sql = .commit) (mode : engine.mvccEnabled = false)
    (active : engine.txnManager.active = some txn) :
    entriesOf host engine sql = [.commit (UInt64.ofNat txn.id)] := by
  unfold entriesOf
  simp only [kind, active]
  exact if_neg (by rw [mode]; decide)

theorem entriesOf_rollback {txn : Transaction}
    (kind : host.kind sql = .rollback) (mode : engine.mvccEnabled = false)
    (active : engine.txnManager.active = some txn) :
    entriesOf host engine sql = [.rollback (UInt64.ofNat txn.id)] := by
  unfold entriesOf
  simp only [kind, active]
  exact if_neg (by rw [mode]; decide)

theorem TransactionText.refused_cases (text : TransactionText host sql)
    (mode : engine.mvccEnabled = false) (ran : execute host depth sql engine = .error fault next) :
    next = engine ∨ ∃ statement, ParsedDml host sql statement := by
  have unchanged : (host.kind sql).isControl = true → next = engine :=
    fun isControl => execute_control_error isControl mode ran
  cases text with
  | begin kind | commit kind | rollback kind => exact .inl (unchanged (by rw [kind]; rfl))
  | dml statement text => exact .inr ⟨statement, text⟩

theorem sameTransaction_dml {statement : DmlStatement} (text : ParsedDml host sql statement)
    (mode : engine.mvccEnabled = false) :
    SameTransaction engine (finalState (execute host (depth + 1) sql) engine) := by
  rw [finalState_dml text mode]
  cases active : engine.txnManager.active with
  | none =>
    have kept := keepsSession_dml host.toHost depth statement none engine.uncached
    have sameNextId := congrArg TxnManager.nextId kept.sameTxnManager
    have sameActive := congrArg TxnManager.active kept.sameTxnManager
    exact ⟨kept.sameMode, sameNextId, congrArg _ sameActive⟩
  | some txn =>
    have kept :=
      keepsSession_dml host.toHost depth statement (some txn.id) (engine.uncached.inside txn)
    have sameNextId := congrArg TxnManager.nextId kept.sameTxnManager
    refine ⟨kept.sameMode, sameNextId, ?_⟩
    rw [active]
    rfl

end

namespace Example

def commitText : List Char := "COMMIT".toList

/-- An engine in MVCC mode with the table `t`. -/
def mvccEngine : SqlEngine :=
  { SqlEngine.inMemory with
    toQueryEngine := QueryEngine.withTable oneColumn }

theorem parsedDml_insertText : ParsedDml insertHost insertText insertNine :=
  ⟨.inl rfl, rfl, rfl, rfl⟩

theorem execute_insertText_begun : execute insertHost 1 insertText (begun ∅) =
      .ok { QueryResult.empty with rowCount := 1 }
        (insertedInto ∅ ∅ 0) :=
  execute_insertText rfl rfl

def insertCommitted : SqlEngine :=
  { insertedInto ∅ ∅ 0 with
    catalog := (engineWith ∅).catalog.insert "t" grown
    txnManager := { nextId := 2, active := none } }

theorem execute_commitText_inserted : execute insertHost 1 commitText (insertedInto ∅ ∅ 0) =
      .ok QueryResult.empty insertCommitted := rfl

theorem readsJson_zeroHost : Storage.Example.zeroHost.ReadsJson := Storage.readsJson_compactHost _

/-- A process that appends these entries, one after the other. -/
def sessionOf (log : List LogEntry) : Storage.WalSession :=
  { segmentLimit := 67108864
    openedAt := 0
    calls := log.map fun entry =>
        { record := LogEntry.record entry, now := 5, isAsync := false } }

theorem calls_sessionOf (log : List LogEntry) :
    (sessionOf log).calls.map Storage.AppendCall.record = log.map LogEntry.record := by
  unfold sessionOf
  rw [List.map_map]
  rfl

end Example

end TurboGP.Engine
