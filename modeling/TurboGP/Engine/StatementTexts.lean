import TurboGP.Engine.Confined

/-! # How a text reaches its statement -/

namespace TurboGP.Engine

open Datasource Sql Sql.Text Txn Effect QueryResult SqlEngine

/-- Texts that `execute` dispatches by how they begin. -/
def SqlHost.isControlText (host : SqlHost) (sql : List Char) : Bool :=
  let lower := toLowercase host.unicode (trim sql)
  startsWith lower "backup to ".toList ||
    startsWith lower "restore from ".toList ||
    startsWith lower "begin".toList ||
    startsWith lower "start transaction".toList ||
    startsWith lower "commit".toList ||
    (startsWith lower "rollback".toList && !startsWith lower "rollback to ".toList)

def StatementKind.isControl : StatementKind → Bool
  | .begin | .commit | .rollback => true
  | _ => false

def StatementKind.isByText : StatementKind → Bool
  | .select | .with | .insert | .update | .delete | .savepoint | .rollbackTo
  | .release => true
  | _ => false

theorem StatementKind.of_isQuery {kind : StatementKind} (isQuery : kind.isQuery = true) :
    kind.invalidates = false ∧ kind.isSavepoint = false ∧ kind.isByText = true := by
  cases kind with
  | select | «with» => decide
  | _ => cases isQuery

def SqlEngine.inside (engine : SqlEngine) (txn : Transaction) : SqlEngine :=
  { engine with
    catalog := txn.snapshot
    txnManager := { engine.txnManager with active := none } }

/-- The engine when the catalog of the transaction is swapped back. -/
def SqlEngine.resumed (engine : SqlEngine) (txn : Transaction) (after : SqlEngine) : SqlEngine :=
  { after with
    catalog := engine.catalog
    txnManager :=
      { after.txnManager with
        active := some { id := txn.id, snapshot := after.catalog } } }

abbrev SqlEngine.begun (engine : SqlEngine) (host : SqlHost) : SqlEngine :=
  { engine with
    txnManager :=
      { nextId := engine.txnManager.nextId + 1
        active := some
            { id := engine.txnManager.nextId
              snapshot := cloneCatalog host engine.catalog } } }

abbrev SqlEngine.closed (engine : SqlEngine) (catalog : Catalog) : SqlEngine :=
  { engine with
    catalog
    txnManager := { engine.txnManager with active := none }
    savepoints := [] }

def SqlEngine.invalidatedFor (kind : StatementKind) (engine : SqlEngine) : SqlEngine :=
  if kind.invalidates then { engine with resultCache := ∅ } else engine

section

variable {host : SqlHost} {engine next : SqlEngine} {sql : List Char}
  {depth : Nat}

theorem cachedFor_cases (answered : Bool) : ∃ next, SameButClock engine next ∧
      (cachedFor host answered sql engine = .ok none next ∨ ∃ entry, answered = true ∧
          engine.resultCache.lookup (host.hashSql sql) = some entry ∧
          cachedFor host answered sql engine = .ok (some entry.result) next) := by
  cases answered with
  | false => exact ⟨engine, rfl, .inl rfl⟩
  | true =>
    cases held : engine.resultCache.lookup (host.hashSql sql) with
    | none =>
      refine ⟨engine, rfl, .inl ?_⟩
      show cachedResult host sql engine = _
      unfold cachedResult
      rw [get_bind_run, held]
      rfl
    | some entry =>
      let next : SqlEngine := { engine with clockReads := engine.clockReads + 1 }
      have ran : cachedFor host true sql engine = .ok
          (if (host.clock engine.clockReads - entry.createdAt) /
              1000 < ttlSecs then some entry.result
            else none) next := by
        show cachedResult host sql engine = _
        unfold cachedResult
        rw [get_bind_run, held]
        have clock :
            onCore (readClock host.toHost) engine = .ok (host.clock engine.clockReads) next := rfl
        simp only
        rw [bind_run_ok clock]
        split <;> rfl
      refine ⟨next, rfl, ?_⟩
      rw [ran]
      split
      · exact .inr ⟨entry, rfl, rfl, rfl⟩
      · exact .inl rfl

theorem invalidateFor_run (kind : StatementKind) :
    invalidateFor kind engine = .ok () (engine.invalidatedFor kind) := by
  unfold invalidateFor invalidatedFor
  split <;> rfl

theorem SqlEngine.invalidatedFor_of_keeps {kind : StatementKind}
    (keeps : kind.invalidates = false) : engine.invalidatedFor kind = engine := by
  unfold invalidatedFor
  rw [keeps]
  rfl

theorem execute_looked (depth : Nat) : ∃ looked, SameButClock engine looked ∧
      (execute host depth sql engine =
          executeByKind host (executeInner host depth) sql (looked.invalidatedFor (host.kind sql)) ∨
        ∃ entry, (host.kind sql).isQuery = true ∧
          engine.resultCache.lookup (host.hashSql sql) = some entry ∧
          execute host depth sql engine = .ok entry.result looked) := by
  obtain ⟨looked, same, found⟩ := @cachedFor_cases host engine sql (host.kind sql).isQuery
  refine ⟨looked, same, ?_⟩
  unfold execute executeVia
  rcases found with missed | ⟨entry, isQuery, held, hit⟩
  · rw [bind_run_ok missed]
    exact .inl (bind_run_ok (invalidateFor_run _))
  · rw [bind_run_ok hit]
    exact .inr ⟨entry, isQuery, held, rfl⟩

theorem execute_eq_invalidated (depth : Nat) (notQuery : (host.kind sql).isQuery = false) :
    execute host depth sql engine =
      executeByKind host (executeInner host depth) sql (engine.invalidatedFor (host.kind sql)) := by
  have missed : cachedFor host (host.kind sql).isQuery sql engine = .ok none engine := by
    rw [notQuery]
    rfl
  unfold execute executeVia
  rw [bind_run_ok missed]
  exact bind_run_ok (invalidateFor_run _)

theorem execute_eq_executeByKind (depth : Nat) (notQuery : (host.kind sql).isQuery = false)
    (keeps : (host.kind sql).invalidates = false) :
    execute host depth sql engine = executeByKind host (executeInner host depth) sql engine := by
  rw [execute_eq_invalidated depth notQuery, invalidatedFor_of_keeps keeps]

theorem executeByKind_of_isByText (inner : List Char → Option Nat → SqlM QueryResult)
    (byText : (host.kind sql).isByText = true) (notControl : host.isControlText sql = false) :
    executeByKind host inner sql = (do
      let engine ← get
      if engine.mvccEnabled then inner sql engine.mvccTxnManager.activeId
      else executeRouted host inner sql) := by
  simp only [SqlHost.isControlText, Bool.or_eq_false_iff] at notControl
  obtain ⟨⟨⟨⟨⟨backup, restore⟩, begins⟩, starts⟩, commits⟩, rollsBack⟩ := notControl
  have dispatched : executeByKind host inner sql = executeByText host inner sql := by
    unfold executeByKind
    cases kind : host.kind sql with
    | select | «with» | insert | update | delete | savepoint | rollbackTo
    | release => rfl
    | _ => exact absurd (kind ▸ byText) (by decide)
  rw [dispatched]
  unfold executeByText
  simp only [backup, restore, begins, starts, commits, rollsBack,
    Bool.false_eq_true, if_false, Bool.or_self]

def snapshotControl (host : SqlHost) : StatementKind → SqlM QueryResult
  | .begin => beginSnapshot host
  | .commit => commitSnapshot
  | _ => rollbackSnapshot

theorem execute_control (kind : (host.kind sql).isControl = true)
    (mode : engine.mvccEnabled = false) :
    execute host depth sql engine = snapshotControl host (host.kind sql) engine := by
  cases which : host.kind sql with
  | begin | commit | rollback =>
    rw [execute_eq_executeByKind depth (by rw [which]; rfl) (by rw [which]; rfl)]
    unfold executeByKind controlByMode
    simp only [which]
    rw [get_bind_run, if_neg (by rw [mode]; decide)]
    rfl
  | _ =>
    rw [which] at kind
    cases kind

theorem execute_beginSnapshot (kind : host.kind sql = .begin) (mode : engine.mvccEnabled = false) :
    execute host depth sql engine = beginSnapshot host engine := by
  rw [execute_control (by rw [kind]; rfl) mode, kind]
  rfl

theorem execute_commitSnapshot (kind : host.kind sql = .commit)
    (mode : engine.mvccEnabled = false) :
    execute host depth sql engine = commitSnapshot engine := by
  rw [execute_control (by rw [kind]; rfl) mode, kind]
  rfl

theorem execute_rollbackSnapshot (kind : host.kind sql = .rollback)
    (mode : engine.mvccEnabled = false) :
    execute host depth sql engine = rollbackSnapshot engine := by
  rw [execute_control (by rw [kind]; rfl) mode, kind]
  rfl

theorem beginSnapshot_run (idle : engine.txnManager.active = none) :
    beginSnapshot host engine = .ok empty (engine.begun host) := by
  unfold beginSnapshot
  rw [get_bind_run, idle]
  rfl

theorem commitSnapshot_run {txn : Transaction} (active : engine.txnManager.active = some txn) :
    commitSnapshot engine = .ok empty (engine.closed txn.snapshot) := by
  unfold commitSnapshot
  rw [get_bind_run, active]
  rfl

theorem rollbackSnapshot_run {txn : Transaction} (active : engine.txnManager.active = some txn) :
    rollbackSnapshot engine = .ok empty (engine.closed engine.catalog) := by
  unfold rollbackSnapshot
  rw [get_bind_run, active]
  rfl

variable {res : QueryResult}

theorem execute_begin (kind : host.kind sql = .begin) (mode : engine.mvccEnabled = false)
    (ran : execute host depth sql engine = .ok res next) :
    engine.txnManager.active = none ∧
      next = engine.begun host := by
  rw [execute_beginSnapshot kind mode] at ran
  unfold beginSnapshot at ran
  rw [get_bind_run] at ran
  cases active : engine.txnManager.active with
  | some txn =>
    rw [active] at ran
    cases ran
  | none =>
    rw [active] at ran
    cases ran
    exact ⟨rfl, rfl⟩

theorem execute_commit (kind : host.kind sql = .commit) (mode : engine.mvccEnabled = false)
    (ran : execute host depth sql engine = .ok res next) :
    ∃ txn, engine.txnManager.active = some txn ∧
      next = engine.closed txn.snapshot := by
  rw [execute_commitSnapshot kind mode] at ran
  unfold commitSnapshot at ran
  rw [get_bind_run] at ran
  cases active : engine.txnManager.active with
  | none =>
    rw [active] at ran
    cases ran
  | some txn =>
    rw [active] at ran
    cases ran
    exact ⟨txn, rfl, rfl⟩

theorem execute_rollback (kind : host.kind sql = .rollback) (mode : engine.mvccEnabled = false)
    (ran : execute host depth sql engine = .ok res next) :
    ∃ txn, engine.txnManager.active = some txn ∧
      next = engine.closed engine.catalog := by
  rw [execute_rollbackSnapshot kind mode] at ran
  unfold rollbackSnapshot at ran
  rw [get_bind_run] at ran
  cases active : engine.txnManager.active with
  | none =>
    rw [active] at ran
    cases ran
  | some txn =>
    rw [active] at ran
    cases ran
    exact ⟨txn, rfl, rfl⟩

theorem execute_control_error {fault : Fault} (isControl : (host.kind sql).isControl = true)
    (mode : engine.mvccEnabled = false)
    (failed : execute host depth sql engine = .error fault next) : next = engine := by
  rw [execute_control isControl mode] at failed
  unfold snapshotControl beginSnapshot commitSnapshot rollbackSnapshot at failed
  cases kind : host.kind sql with
  | begin | commit | rollback =>
    simp only [kind, get_bind_run] at failed
    cases active : engine.txnManager.active with
    | none | some txn =>
      rw [active] at failed
      cases failed <;> rfl
  | _ =>
    rw [kind] at isControl
    cases isControl

section

variable {α : Type} {txn : Transaction} {prog : SqlM α} {value : α}
  {after : SqlEngine}

theorem inSnapshot_run (prog : SqlM α) : inSnapshot txn prog engine =
      mapState (engine.resumed txn) (prog (engine.inside txn)) := by
  unfold inSnapshot SqlEngine.inside
  simp only
  cases prog _ <;> rfl

theorem inSnapshot_ok (returned : prog (engine.inside txn) = .ok value after) :
    inSnapshot txn prog engine = .ok value (engine.resumed txn after) := by
  rw [inSnapshot_run, returned]
  rfl

theorem inSnapshot_error {fault : Fault} (failed : prog (engine.inside txn) = .error fault after) :
    inSnapshot txn prog engine = .error fault (engine.resumed txn after) := by
  rw [inSnapshot_run, failed]
  rfl

theorem finalState_inSnapshot (prog : SqlM α) : finalState (inSnapshot txn prog) engine =
      engine.resumed txn (finalState prog (engine.inside txn)) := by
  unfold finalState
  rw [inSnapshot_run]
  cases prog (engine.inside txn) <;> rfl

theorem inSnapshot_eq_ok (ran : inSnapshot txn prog engine = .ok value next) :
    ∃ after, prog (engine.inside txn) = .ok value after ∧ next = engine.resumed txn after := by
  rw [inSnapshot_run] at ran
  cases out : prog (engine.inside txn) with
  | ok found after =>
    rw [out] at ran
    cases ran
    exact ⟨after, rfl, rfl⟩
  | error fault after =>
    rw [out] at ran
    cases ran

end

structure ParsedDml (host : SqlHost) (sql : List Char)
    (statement : DmlStatement) : Prop where
  kind : host.kind sql = .insert ∨ host.kind sql = .update ∨ host.kind sql = .delete
  notControl : host.isControlText sql = false
  notAsOf : parseForSystemTime host.unicode sql = .ok none
  parsed : host.parse sql = .dml statement

def SqlEngine.uncached (engine : SqlEngine) : SqlEngine :=
  { engine with resultCache := ∅ }

section

variable {statement : DmlStatement}

variable (text : ParsedDml host sql statement)

include text

theorem ParsedDml.kind_facts :
    (host.kind sql).isQuery = false ∧ (host.kind sql == .select) = false ∧
      (host.kind sql).isSavepoint = false ∧ (host.kind sql).invalidates = true ∧
      (host.kind sql).isByText = true := by
  rcases text.kind with kind | kind | kind <;> rw [kind] <;> decide

theorem ParsedDml.nonempty : sql ≠ [] := by
  rintro rfl
  have other : host.kind [] = .other := rfl
  rcases text.kind with kind | kind | kind <;> rw [other] at kind <;> cases kind

theorem executeInner_dml (depth : Nat) (txnId : Option Nat) :
    executeInner host (depth + 1) sql txnId =
      onCore (executeDml host.toHost depth statement txnId) := by
  obtain ⟨-, notSelect, notSavepoint, -, -⟩ := text.kind_facts
  have notAsOf : systemTimeRows host sql = (pure none : SqlM (Option QueryResult)) := by
    unfold systemTimeRows
    rw [text.notAsOf]
    rfl
  show executeInnerVia host (executeInner host depth) depth sql txnId = _
  unfold executeInnerVia
  rw [notSelect]
  rw [executeUncached_eq _ _ _ notSavepoint]
  unfold executeStatement
  rw [notAsOf, pure_bind]
  rw [text.parsed]
  rfl

theorem execute_dml (depth : Nat) :
    execute host (depth + 1) sql engine = (if engine.mvccEnabled then
        onCore (executeDml host.toHost depth statement engine.mvccTxnManager.activeId)
      else
        match engine.txnManager.active with
        | some txn => inSnapshot txn (onCore (executeDml host.toHost depth statement (some txn.id)))
        | none => onCore (executeDml host.toHost depth statement none))
        engine.uncached := by
  obtain ⟨notQuery, -, -, invalidates, byText⟩ := text.kind_facts
  have emptied : engine.invalidatedFor (host.kind sql) = engine.uncached := by
    unfold invalidatedFor
    rw [invalidates]
    rfl
  rw [execute_eq_invalidated _ notQuery, emptied,
    executeByKind_of_isByText _ byText text.notControl, get_bind_run]
  show (if engine.mvccEnabled = true then _ else _ : SqlM QueryResult) _ = _
  by_cases mode : engine.mvccEnabled = true
  · rw [if_pos mode, if_pos mode, executeInner_dml text]
    rfl
  · rw [if_neg mode, if_neg mode]
    show (match engine.txnManager.active with
      | some txn => _
      | none => _ : SqlM QueryResult) _ = _
    cases engine.txnManager.active with
    | some txn =>
      simp only
      rw [executeInner_dml text]
    | none =>
      rw [executeInner_dml text, notQuery]
      simp only [Bool.false_eq_true, if_false, bind_pure]

theorem execute_dml_idle
    (mode : engine.mvccEnabled = false) (idle : engine.txnManager.active = none) :
    execute host (depth + 1) sql engine =
      onCore (executeDml host.toHost depth statement none) engine.uncached := by
  rw [execute_dml text, if_neg (by rw [mode]; decide), idle]

theorem execute_dml_inside (mode : engine.mvccEnabled = false) {txn : Transaction}
    (active : engine.txnManager.active = some txn) :
    execute host (depth + 1) sql engine = inSnapshot txn
        (onCore (executeDml host.toHost depth statement (some txn.id))) engine.uncached := by
  rw [execute_dml text, if_neg (by rw [mode]; decide), active]

theorem finalState_dml (mode : engine.mvccEnabled = false) :
    finalState (execute host (depth + 1) sql) engine =
      match engine.txnManager.active with
      | some txn =>
        engine.uncached.resumed txn
          (finalState (onCore (executeDml host.toHost depth statement (some txn.id)))
            (engine.uncached.inside txn))
      | none =>
        finalState (onCore (executeDml host.toHost depth statement none)) engine.uncached := by
  unfold finalState
  rw [execute_dml text, if_neg (by rw [mode]; decide)]
  cases engine.txnManager.active with
  | none => rfl
  | some txn => exact finalState_inSnapshot _

end

end

end TurboGP.Engine
