import TurboGP.Engine.NumberedLog

/-!
# The tables of snapshot transactions

With MVCC off a DML statement sees the tables and nothing else of the engine:
its effect is a function of the catalog, the same in a transaction, outside of
one, and when the log is replayed.
-/

namespace TurboGP.Engine

open Datasource Sql Txn Effect QueryEngine List Option

structure SameCatalog (first second : QueryEngine) : Prop where
  catalog : first.catalog = second.catalog
  firstMode : first.mvccEnabled = false
  secondMode : second.mvccEnabled = false

section

variable (host : Host)

theorem follows_requireTable (name : String) :
    Follows SameCatalog (requireTable name) (requireTable name) := by
  refine .get_bind fun first second same => ?_
  rw [same.catalog]
  cases second.catalog.lookup name with
  | some table => exact .pure table
  | none => exact .throw _

theorem follows_withMut {α : Type} (name : String) {closure other : TableM α}
    (sameClosure : closure = other) :
    Follows SameCatalog (withMut name closure) (withMut name other) := by
  subst sameClosure
  intro first second same
  unfold withMut
  rw [same.catalog]
  cases second.catalog.lookup name with
  | none => exact .error _ same
  | some table =>
    cases out : closure table with
    | ok value changed =>
      simp only [out]
      exact .ok value ⟨rfl, same.firstMode, same.secondMode⟩
    | error fault changed =>
      simp only [out]
      exact .error fault ⟨rfl, same.firstMode, same.secondMode⟩

theorem withTemporal_run (name : String)
    (change : Nat → TemporalTable → TemporalTable) (engine : QueryEngine) :
    ∃ next, withTemporal host name change engine = .ok () next ∧
      next.catalog = engine.catalog ∧ next.mvccEnabled = engine.mvccEnabled := by
  unfold withTemporal
  rw [get_bind_run]
  cases engine.temporals.lookup name with
  | none => exact ⟨engine, rfl, rfl, rfl⟩
  | some temporal => exact ⟨_, rfl, rfl, rfl⟩

theorem follows_withTemporal (name : String) (change : Nat → TemporalTable → TemporalTable) :
    Follows SameCatalog (withTemporal host name change) (withTemporal host name change) := by
  intro first second same
  obtain ⟨firstNext, firstRan, firstCatalog, firstMode⟩ := withTemporal_run host name change first
  obtain ⟨secondNext, secondRan, secondCatalog, secondMode⟩ :=
    withTemporal_run host name change second
  rw [firstRan, secondRan]
  refine .ok () ⟨?_, ?_, ?_⟩
  · rw [firstCatalog, secondCatalog]
    exact same.catalog
  · exact firstMode.trans same.firstMode
  · exact secondMode.trans same.secondMode

theorem follows_executeInsert (ins : Insert) (txnId other : Option Nat) :
    Follows SameCatalog (executeInsert host ins txnId) (executeInsert host ins other) := by
  refine .bind (follows_requireTable _) fun table => ?_
  refine .get_bind fun first second same => ?_
  rw [same.catalog]
  refine .bind (.ofExcept _) fun _ => ?_
  refine .get_bind fun first second same => ?_
  rw [same.firstMode, same.secondMode]
  refine .bind (follows_withMut _ rfl) fun rows => ?_
  refine .bind ?_ fun _ => .pure _
  exact .forM (fun _ => follows_withTemporal host _ _) rows

theorem follows_executeUpdate (upd : Update) (txnId other : Option Nat) :
    Follows SameCatalog (executeUpdate host upd txnId) (executeUpdate host upd other) := by
  refine .bind (follows_requireTable _) fun table => ?_
  refine .get_bind fun first second same => ?_
  rw [same.catalog]
  refine .bind (.ofExcept _) fun _ => ?_
  refine .get_bind fun first second same => ?_
  rw [same.firstMode, same.secondMode]
  refine .bind (follows_withMut _ rfl) fun updated => ?_
  refine .bind ?_ fun _ => .pure _
  exact .forM (fun _ => follows_withTemporal host _ _) _

theorem follows_deleteTemporal (name : String) (rows : List Nat) :
    Follows SameCatalog (deleteTemporal host name rows) (deleteTemporal host name rows) := by
  refine .bind (follows_requireTable _) fun table => ?_
  exact .forM (fun _ => follows_withTemporal host _ _) _

theorem follows_enforceFkOnDelete {cascade other : Delete → EngineM QueryResult}
    (cascades : ∀ child, Follows SameCatalog (cascade child) (other child))
    (parentName : String) (rows : List Nat) :
    Follows SameCatalog (enforceFkOnDelete host cascade parentName rows)
      (enforceFkOnDelete host other parentName rows) := by
  refine .get_bind fun first second same => ?_
  simp only [same.catalog]
  refine .forM (fun entry => ?_) _
  refine .bind (follows_requireTable _) fun parent => ?_
  refine .bind (.ofExcept _) fun deletedVals => ?_
  cases entry.2.onDelete.getD .noAction with
  | restrict | noAction =>
    refine .bind (follows_requireTable _) fun child => ?_
    exact .ofExcept _
  | cascade => exact .bind (cascades _) fun _ => .pure _
  | setNull | setDefault => exact follows_withMut _ rfl

theorem follows_executeDelete (depth : Nat) (del : Delete) (txnId other : Option Nat) :
    Follows SameCatalog (executeDelete host depth del txnId)
      (executeDelete host depth del other) := by
  induction depth generalizing del with
  | zero => exact .throw _
  | succ depth ih =>
    refine .bind (follows_requireTable _) fun table => ?_
    refine .bind (.ofExcept _) fun mask => ?_
    by_cases none : (maskedRows mask).isEmpty = true
    · simp only [if_pos none]
      exact .pure _
    simp only [if_neg none]
    refine .bind (follows_enforceFkOnDelete host ih _ _) fun _ => ?_
    refine .get_bind fun first second same => ?_
    simp only [same.firstMode, same.secondMode, Bool.false_eq_true, if_false]
    refine .bind (follows_deleteTemporal host _ _) fun _ => ?_
    exact .bind (follows_withMut _ rfl) fun _ => .pure _

theorem follows_executeDml (depth : Nat) (statement : DmlStatement) (txnId other : Option Nat) :
    Follows SameCatalog (executeDml host depth statement txnId)
      (executeDml host depth statement other) := by
  cases statement with
  | insert ins => exact follows_executeInsert host ins txnId other
  | update upd => exact follows_executeUpdate host upd txnId other
  | delete del => exact follows_executeDelete host depth del txnId other

end

def dmlOn (host : Host) (depth : Nat) (statement : DmlStatement)
    (catalog : Catalog) : Option Catalog :=
  match executeDml host depth statement none
      { inMemory with catalog := catalog } with
  | .ok _ next => some next.catalog
  | .error _ _ => none

def dmlTexts (host : SqlHost) (depth : Nat) (texts : List (List Char))
    (catalog : Catalog) : Option Catalog :=
  texts.foldlM
    (fun catalog sql =>
      match host.parse sql with
      | .dml statement => dmlOn host.toHost depth statement catalog
      | _ => none)
    catalog

section

variable {host : Host} {depth : Nat} {statement : DmlStatement}
  {core next : QueryEngine} {txnId : Option Nat}

theorem executeDml_alike (mode : core.mvccEnabled = false) : Alike SameCatalog
      (executeDml host depth statement none { inMemory with catalog := core.catalog })
      (executeDml host depth statement txnId core) :=
  follows_executeDml host depth statement none txnId _ _ ⟨rfl, rfl, mode⟩

theorem dmlOn_of_ok {result : QueryResult} (mode : core.mvccEnabled = false)
    (ran : executeDml host depth statement txnId core = .ok result next) :
    dmlOn host depth statement core.catalog = some next.catalog := by
  have alike := @executeDml_alike host depth statement core txnId mode
  rw [ran] at alike
  unfold dmlOn
  generalize
    executeDml host depth statement none { inMemory with catalog := core.catalog } = out
    at alike ⊢
  cases alike with
  | ok _ same => exact congrArg some same.catalog

theorem ok_of_dmlOn {catalog : Catalog} (mode : core.mvccEnabled = false)
    (ran : dmlOn host depth statement core.catalog = some catalog) :
    ∃ result next, executeDml host depth statement txnId core = .ok result next ∧
      next.catalog = catalog ∧ next.mvccEnabled = false := by
  have alike := @executeDml_alike host depth statement core txnId mode
  unfold dmlOn at ran
  generalize
    executeDml host depth statement none { inMemory with catalog := core.catalog } = out
    at alike ran
  generalize executeDml host depth statement txnId core = other at alike ⊢
  cases alike with
  | ok value same =>
    cases ran
    exact ⟨value, _, rfl, same.catalog.symm, same.secondMode⟩
  | error fault same => cases ran

end

theorem dmlTexts_append {host : SqlHost} {depth : Nat} {texts : List (List Char)} {sql : List Char}
    {statement : DmlStatement} {start catalog : Catalog} (parsed : host.parse sql = .dml statement)
    (reached : dmlTexts host depth texts start = some catalog) :
    dmlTexts host depth (texts ++ [sql]) start = dmlOn host.toHost depth statement catalog := by
  unfold dmlTexts at reached ⊢
  rw [foldlM_append, reached]
  rw [bind_eq_bind, bind_some, foldlM_cons, parsed]
  exact bind_pure _

theorem replay_dmlTexts {host : SqlHost} {depth : Nat}
    {records : List Storage.WalRecord} {engine : SqlEngine}
    {catalog : Catalog} (mode : engine.mvccEnabled = false)
    (areDml : ∀ record ∈ records, ∃ statement, ParsedDml host record.sql statement)
    (reached :
      dmlTexts host depth (records.map Storage.WalRecord.sql) engine.catalog = some catalog) :
    ∃ next, records.foldlM (replayRecord host (depth + 1)) engine = some next ∧
      next.catalog = catalog := by
  induction records generalizing engine with
  | nil =>
    cases reached
    exact ⟨engine, rfl, rfl⟩
  | cons record rest ih =>
    obtain ⟨⟨statement, text⟩, restDml⟩ := forall_mem_cons.mp areDml
    unfold dmlTexts at reached
    rw [map_cons, foldlM_cons, text.parsed] at reached
    obtain ⟨middle, first, later⟩ := bind_eq_some_iff.mp reached
    obtain ⟨result, core, ran, isMiddle, coreMode⟩ :=
      @ok_of_dmlOn host.toHost depth statement engine.toQueryEngine
        (some record.txnId.toNat) middle mode first
    have replayed : replayRecord host (depth + 1) engine record =
          some { engine with toQueryEngine := core } := by
      unfold replayRecord
      rw [executeInner_dml text]
      unfold onCore
      rw [ran]
    rw [foldlM_cons, replayed]
    refine ih coreMode restDml ?_
    rw [← isMiddle] at later
    exact later

def SqlEngine.tables (engine : SqlEngine) : Catalog :=
  match engine.txnManager.active with
  | some txn => txn.snapshot
  | none => engine.catalog

theorem SqlEngine.tables_open {engine : SqlEngine} {txn : Transaction}
    (active : engine.txnManager.active = some txn) : engine.tables = txn.snapshot := by
  rw [tables, active]

theorem SqlEngine.tables_idle {engine : SqlEngine}
    (idle : engine.txnManager.active = none) : engine.tables = engine.catalog := by
  rw [tables, idle]

section

variable {host : SqlHost} {depth : Nat} {sql : List Char}
  {statement : DmlStatement} {engine next : SqlEngine}
  {result : QueryResult} {fault : Fault}

theorem keeps_dml (text : ParsedDml host sql statement) (mode : engine.mvccEnabled = false) :
    (finalState (execute host (depth + 1) sql) engine).savepoints = engine.savepoints ∧
      (engine.txnManager.active ≠ none →
        (finalState (execute host (depth + 1) sql) engine).catalog = engine.catalog) := by
  rw [finalState_dml text mode]
  cases engine.txnManager.active with
  | none =>
    have keeps := @dmlKeeps_executeDml host engine.uncached depth statement none mode
    exact ⟨keeps.sameSavepoints, fun isOpen => absurd rfl isOpen⟩
  | some txn =>
    have keeps :=
      @dmlKeeps_executeDml host (engine.uncached.inside txn) depth statement (some txn.id) mode
    exact ⟨keeps.sameSavepoints, fun _ => rfl⟩

theorem tables_dml (text : ParsedDml host sql statement) (mode : engine.mvccEnabled = false)
    (returned : execute host (depth + 1) sql engine = .ok result next) :
    dmlOn host.toHost depth statement engine.tables = some next.tables := by
  unfold SqlEngine.tables
  cases active : engine.txnManager.active with
  | none =>
    rw [execute_dml_idle text mode active] at returned
    have sameManager := ((keepsSession_dml host.toHost depth statement none
        engine.uncached).reached returned).sameTxnManager
    obtain ⟨core, ran, rfl⟩ := onCore_eq_ok returned
    have stillIdle : core.txnManager.active = none := by
      rw [sameManager]
      exact active
    rw [stillIdle]
    exact dmlOn_of_ok mode ran
  | some txn =>
    rw [execute_dml_inside text mode active] at returned
    obtain ⟨after, inside, rfl⟩ := inSnapshot_eq_ok returned
    obtain ⟨core, ran, rfl⟩ := onCore_eq_ok inside
    exact @dmlOn_of_ok host.toHost depth statement
      (engine.uncached.inside txn).toQueryEngine core (some txn.id) _ mode ran

structure NamedTables (engine : SqlEngine) : Prop where
  catalog : Named engine.catalog
  tables : Named engine.tables

variable (named : NamedTables engine)

include named

theorem NamedTables.dml (text : ParsedDml host sql statement) (mode : engine.mvccEnabled = false) :
    NamedTables (finalState (execute host (depth + 1) sql) engine) := by
  have seen := named.tables
  unfold SqlEngine.tables at seen
  rw [finalState_dml text mode]
  cases active : engine.txnManager.active with
  | none =>
    have keeps := @dmlKeeps_executeDml host engine.uncached depth statement none mode
    have sameManager :=
      (keepsSession_dml host.toHost depth statement none engine.uncached).sameTxnManager
    have isNamed := keeps.named named.catalog
    refine ⟨isNamed, ?_⟩
    unfold SqlEngine.tables
    rw [sameManager]
    show Named (match engine.txnManager.active with
      | some txn => txn.snapshot
      | none => _)
    rw [active]
    exact isNamed
  | some txn =>
    rw [active] at seen
    have keeps :=
      @dmlKeeps_executeDml host (engine.uncached.inside txn) depth statement (some txn.id) mode
    exact ⟨named.catalog, keeps.named seen⟩

theorem NamedTables.control (isControl : (host.kind sql).isControl = true)
    (mode : engine.mvccEnabled = false) :
    NamedTables (finalState (execute host depth sql) engine) := by
  unfold finalState
  cases ran : execute host depth sql engine with
  | error fault next =>
    obtain rfl := execute_control_error isControl mode ran
    exact named
  | ok result next =>
    cases kind : host.kind sql with
    | begin =>
      obtain ⟨-, rfl⟩ := execute_begin kind mode ran
      refine ⟨named.catalog, ?_⟩
      show Named (cloneCatalog host engine.catalog)
      rw [cloneCatalog_eq host named.catalog]
      exact named.catalog
    | commit =>
      obtain ⟨txn, active, rfl⟩ := execute_commit kind mode ran
      have seen := named.tables
      rw [SqlEngine.tables_open active] at seen
      exact ⟨seen, seen⟩
    | rollback =>
      obtain ⟨txn, active, rfl⟩ := execute_rollback kind mode ran
      exact ⟨named.catalog, named.catalog⟩
    | _ =>
      rw [kind] at isControl
      cases isControl

theorem NamedTables.step (text : TransactionText host sql) (mode : engine.mvccEnabled = false) :
    NamedTables (finalState (execute host (depth + 1) sql) engine) := by
  cases text with
  | begin kind | commit kind | rollback kind => exact named.control (by rw [kind]; rfl) mode
  | dml statement text => exact named.dml text mode

end

end TurboGP.Engine
