import TurboGP.Engine.Queries

/-! # Statements confined to the catalog -/

namespace TurboGP.Engine

open Datasource Sql Sql.Text Txn Effect

def KeepsIndexes (engine : SqlEngine) : DdlStatement → Prop
  | .createIndex _ | .dropIndex _ => False
  | .alterTable at_ =>
    match at_.action with
    | .dropColumn column =>
      engine.indexManager.indexes.lookup (fullName at_.schema at_.name, column) = none
    | _ => True
  | _ => True

/-- The parsed statement leaves everything beside the catalog alone. -/
def Parsed.Confined (host : SqlHost) (engine : SqlEngine) (sql : List Char) : Parsed → Prop
  | .malformed _ | .merge _ | .setQuery _ => True
  | .with _ | .createView _ | .dropView _ | .createProcedure _ => False
  | .exec name _ => engine.procedures.lookup name = none
  | .rewrite _ | .select => IsQuery host engine.views false sql
  | .ddl statement =>
    (∀ name, extractTemporalTableName host.unicode sql ≠ .ok (some name)) ∧
      KeepsIndexes engine statement
  | .dml statement => SidecarsWithin (fun _ => False) engine.toQueryEngine statement

/-- The text, executed by `execute_inner`, leaves everything beside the
catalog alone. -/
def InnerConfined (host : SqlHost) (engine : SqlEngine) (sql : List Char) : Prop :=
  (host.kind sql).isSavepoint = true ∨ (host.parse sql).Confined host engine sql

/-- Only the count of clock readings changes. -/
def SameButClock (old new : SqlEngine) : Prop := new = { old with clockReads := new.clockReads }

theorem SameButClock.eq {old new : SqlEngine} (same : SameButClock old new) :
    ∃ reads, new = { old with clockReads := reads } :=
  ⟨_, same⟩

instance : IsPreorder SqlEngine SameButClock where
  refl := fun _ => rfl
  trans := by
    intro old middle new first second
    unfold SameButClock at first second ⊢
    rw [second, first]

theorem SameButClock.sameBeside (old new : SqlEngine) (same : SameButClock old new) :
    SameBeside old new := by
  rw [same]
  rfl

section

variable {host : SqlHost} {engine : SqlEngine}

theorem clock_readClock : Moves SameButClock engine (onCore (readClock host.toHost)) := rfl

theorem clock_cachedFor (answered : Bool) (sql : List Char) :
    Moves SameButClock engine (cachedFor host answered sql) := by
  unfold cachedFor
  split
  · refine .get_bind ?_
    split
    · exact .pure _
    · refine .bind clock_readClock fun now _ _ => ?_
      split
      · exact .pure _
      · exact .pure _
  · exact .pure _

theorem clock_systemTimeRows (sql : List Char) :
    Moves SameButClock engine (systemTimeRows host sql) := by
  refine .ofExcept_bind fun parsed _ => ?_
  split
  · exact .pure _
  · refine .get_bind ?_
    split
    · exact .pure _
    · exact .pure _

theorem beside_onCore {α : Type} {rel : String → Table → Table → Prop} {prog : EngineM α}
    (moves : Moves (EngineMoves (fun _ => False) rel) engine.toQueryEngine prog) :
    Moves SameBeside engine (onCore prog) := by
  have sameTemporals : (finalState prog engine.toQueryEngine).temporals = engine.temporals := by
    refine Finmap.ext_lookup fun name => ?_
    exact moves.sidecars name id
  unfold Moves SameBeside
  rw [finalState_onCore]
  unfold SqlEngine.beside
  simp only [moves.sameManager, moves.sameMode, moves.sameTxnManager, sameTemporals]

theorem beside_executeRollbackTo (name : List Char) :
    Moves SameBeside engine (executeRollbackTo host name) := by
  refine .get_bind ?_
  split
  · exact .throw _
  · refine .ofExcept_bind fun entry _ => ?_
    exact .bind (.set rfl) (fun _ _ _ => .pure _)

theorem beside_executeReleaseSavepoint (name : List Char) :
    Moves SameBeside engine (executeReleaseSavepoint name) := by
  refine .get_bind ?_
  split
  · exact .throw _
  · exact .bind (.set rfl) (fun _ _ _ => .pure _)

theorem beside_executeMergeStmt (merge : Merge) :
    Moves SameBeside engine (executeMergeStmt merge) := by
  refine .get_bind ?_
  split
  · exact .throw _
  · refine .ofExcept_bind fun target _ => ?_
    refine .ofExcept_bind fun merged _ => ?_
    exact .bind (.modify rfl) (fun _ _ _ => .pure _)

theorem beside_executeCreateTable (ct : CreateTable) :
    Moves SameBeside engine (executeCreateTable ct) := by
  refine .get_bind ?_
  split
  · split
    · exact .pure _
    · exact .throw _
  · exact .bind (.modify rfl) (fun _ _ _ => .pure _)

theorem beside_executeDropTable (dt : DropTable) :
    Moves SameBeside engine (executeDropTable dt) := by
  refine .get_bind ?_
  split
  · split
    · exact .pure _
    · exact .throw _
  · exact .bind (.modify rfl) (fun _ _ _ => .pure _)

theorem beside_executeAlterTable
    {at_ : AlterTable} (keeps : KeepsIndexes engine (.alterTable at_)) :
    Moves SameBeside engine (executeAlterTable host.toHost at_) := by
  unfold executeAlterTable
  unfold KeepsIndexes at keeps
  cases action : at_.action with
  | addColumn column => exact .bind (beside_withMut _ _) (fun _ _ _ => .pure _)
  | alterColumnType column newType =>
    exact .bind (beside_withMut _ _) (fun _ _ _ => .pure _)
  | dropColumn column =>
    simp only [action] at keeps
    refine .bind (beside_withMut _ _) fun _ dropped out => ?_
    have beside := (beside_withMut _ _).reached out
    have sameIndexes : dropped.indexManager = engine.indexManager := by
      have sameRest := congrArg SqlEngine.indexManager beside
      exact sameRest
    refine .bind (.modify ?_) (fun _ _ _ => .pure _)
    have noIndex : dropped.indexManager.indexes.lookup (fullName at_.schema at_.name, column) =
        none := by
      rw [sameIndexes]
      exact keeps
    unfold IndexManager.drop
    rw [noIndex]
    rfl

theorem beside_executeDdl {stmt : DdlStatement} (keeps : KeepsIndexes engine stmt) :
    Moves SameBeside engine (executeDdl host.toHost stmt) := by
  cases stmt with
  | create ct => exact beside_executeCreateTable ct
  | drop dt => exact beside_executeDropTable dt
  | createSchema name => exact .pure _
  | alterTable at_ => exact beside_executeAlterTable keeps
  | createIndex ci | dropIndex di => exact keeps.elim

theorem beside_startSystemVersioning {sql : List Char}
    (notVersioned : ∀ name, extractTemporalTableName host.unicode sql ≠ .ok (some name)) :
    Moves SameBeside engine (startSystemVersioning host sql) := by
  refine .ofExcept_bind fun parsed isParsed => ?_
  cases parsed with
  | none => exact .pure _
  | some name => exact absurd isParsed (notVersioned name)

end

section

variable {host : SqlHost} {engine : SqlEngine} {sql : List Char}

theorem beside_query (depth : Nat) (txnId : Option Nat)
    (isQuery : IsQuery host engine.views false sql) :
    Moves SameBeside engine (executeInner host depth sql txnId) := by
  have reads := @readsOnly_executeInner host false engine.txnManager engine.savepoints
      depth engine sql txnId isQuery
  exact reads.moves.weaken fun _ _ kept => kept.beside rfl

variable {depth : Nat} {txnId : Option Nat}

theorem beside_executeParsed (mode : engine.mvccEnabled = false)
    (notQuery : ∀ rewrite, host.parse sql ≠ .rewrite rewrite ∧ host.parse sql ≠ .select)
    (confined : (host.parse sql).Confined host engine sql) :
    Moves SameBeside engine
      (executeParsed host (executeInner host depth) depth sql txnId (host.parse sql)) := by
  cases parsed : host.parse sql with
  | malformed error => exact .throw _
  | merge merge => exact beside_executeMergeStmt merge
  | setQuery evaluate => exact .get_bind (.ofExcept _)
  | exec name args =>
    rw [parsed] at confined
    refine .get_bind ?_
    simp only [Parsed.Confined] at confined
    simp only [confined]
    exact .throw _
  | ddl stmt =>
    rw [parsed] at confined
    obtain ⟨notVersioned, keeps⟩ := confined
    refine .bind (beside_executeDdl keeps) fun res _ _ => ?_
    exact .bind (beside_startSystemVersioning notVersioned) (fun _ _ _ => .pure _)
  | dml stmt =>
    rw [parsed] at confined
    exact beside_onCore (moves_executeDml_snapshot host.toHost depth txnId mode confined)
  | rewrite rewrite => exact absurd parsed (notQuery rewrite).1
  | select => exact absurd parsed (notQuery ⟨[], .ok⟩).2
  | «with» _ | createView _ | dropView _ | createProcedure _ =>
    rw [parsed] at confined
    exact confined.elim

theorem beside_executeUncached {next : SqlEngine} (mode : engine.mvccEnabled = false)
    (sameNext : SameButClock engine next) (notQuery : ¬ IsQuery host engine.views false sql)
    (confined : InnerConfined host engine sql) :
    Moves SameBeside next (executeUncached host (executeInner host depth) depth sql txnId) := by
  by_cases isSavepoint : (host.kind sql).isSavepoint = true
  · unfold executeUncached
    cases kind : host.kind sql with
    | savepoint => exact .bind (.modify rfl) (fun _ _ _ => .pure _)
    | rollbackTo => exact beside_executeRollbackTo _
    | release => exact beside_executeReleaseSavepoint _
    | _ => rw [kind] at isSavepoint; cases isSavepoint
  · have parsedConfined := confined.resolve_left isSavepoint
    rw [executeUncached_eq _ _ _ (Bool.not_eq_true _ ▸ isSavepoint)]
    have timed := @clock_systemTimeRows host next sql
    refine Moves.bind (timed.weaken SameButClock.sameBeside) fun rows afterwards timing => ?_
    have sameAfter : SameButClock engine afterwards := Trans.trans sameNext (timed.reached timing)
    cases rows with
    | some res => exact .pure _
    | none =>
      have notParsedQuery :
          ∀ rewrite, host.parse sql ≠ .rewrite rewrite ∧ host.parse sql ≠ .select := by
        intro rewrite
        constructor
        · intro parsed
          rw [parsed] at parsedConfined
          exact notQuery parsedConfined
        · intro parsed
          rw [parsed] at parsedConfined
          exact notQuery parsedConfined
      rw [sameAfter]
      exact beside_executeParsed mode notParsedQuery parsedConfined

/-- A confined text leaves everything beside the catalog alone. -/
theorem beside_executeInner (depth : Nat) (txnId : Option Nat)
    (mode : engine.mvccEnabled = false) (confined : InnerConfined host engine sql) :
    Moves SameBeside engine (executeInner host depth sql txnId) := by
  by_cases isQuery : IsQuery host engine.views false sql
  · exact beside_query depth txnId isQuery
  cases depth with
  | zero => exact .throw _
  | succ depth =>
    have looked : Moves SameButClock engine (cachedFor host (host.kind sql == .select) sql) :=
      clock_cachedFor _ sql
    refine Moves.bind (looked.weaken SameButClock.sameBeside) fun cached next out => ?_
    have sameNext : SameButClock engine next := looked.reached out
    cases cached with
    | some res => exact .pure _
    | none => exact beside_executeUncached mode sameNext isQuery confined

end

/-! ## Copies of the catalog -/

def Named (catalog : Catalog) : Prop :=
  ∀ name table, catalog.lookup name = some table → table.name = name

theorem named_empty : Named ∅ := by
  intro name table held
  rw [Finmap.lookup_empty] at held
  cases held

theorem Named.insert {catalog : Catalog} {name : String} {table : Table}
    (named : Named catalog) (own : table.name = name) : Named (catalog.insert name table) := by
  intro tested found held
  rw [FiniteMap.lookup_insert_eq] at held
  split at held
  · next same =>
    cases held
    rw [own, same]
  · exact named tested found held

theorem lookup_foldl_register {catalog : Catalog} (named : Named catalog) {f : Table → Table}
    (sameName : ∀ table, (f table).name = table.name)
    (names : List String) (clone : Catalog) (tested : String) :
    (names.foldl (fun (clone : Catalog) name =>
          match catalog.lookup name with
          | some table => clone.insert (f table).name (f table)
          | none => clone) clone).lookup tested =
      if tested ∈ names ∧ tested ∈ catalog then
        (catalog.lookup tested).map f
      else clone.lookup tested := by
  have keyed : ∀ name table, catalog.lookup name = some table → (f table).name = name :=
    fun name table held => (sameName table).trans (named name table held)
  refine Eq.trans ?_
    (@FiniteMap.lookup_foldl_insert _ _ _ _ catalog f Table.name keyed names clone tested)
  congr 2
  funext copy name
  cases catalog.lookup name <;> rfl

theorem cloneCatalog_eq {catalog : Catalog} (host : SqlHost) (named : Named catalog) :
    cloneCatalog host catalog = catalog := by
  refine Finmap.ext_lookup fun tested => ?_
  refine Eq.trans (@lookup_foldl_register catalog named id (fun _ => rfl) _ _ tested) ?_
  by_cases held : tested ∈ catalog
  · rw [if_pos ⟨(host.mem_tableNames catalog tested).mpr held, held⟩, Option.map_id]
    rfl
  · rw [if_neg fun both => held both.2, Finmap.lookup_empty, Finmap.lookup_eq_none.mpr held]

end TurboGP.Engine
