import TurboGP.Engine.StatementTexts

/-! # ROLLBACK of a snapshot transaction -/

namespace TurboGP.Engine

open Datasource Sql Sql.Text Txn Effect GuardedRun

/-! ## Queries and the cache -/

structure QueryText (host : SqlHost)
    (views : Finmap (fun _ : String => ViewDef)) (sql : List Char) :
    Prop where
  kind : (host.kind sql).isQuery = true
  notControl : host.isControlText sql = false
  isQuery : IsQuery host views true sql

namespace SqlEngine

/-- The answer of a query that executes no further text, as evaluated without
the cache. -/
def freshAnswer (host : SqlHost) (engine : SqlEngine) (sql : List Char) :
    Option (Except Fault QueryResult) :=
  let evaluated : Option (Except Fault QueryResult) :=
    match host.parse sql with
    | .malformed error => some (.error (.error error))
    | .setQuery evaluate => some (evaluate engine.catalog engine.visibility)
    | .select =>
      if (viewsIn host engine.views sql).isEmpty then
        some (host.executeSelect sql engine.catalog engine.indexManager engine.visibility)
      else none
    | _ => none
  match parseForSystemTime host.unicode sql with
  | .error fault => some (.error fault)
  | .ok none => evaluated
  | .ok (some (name, timestamp)) =>
    match engine.temporals.lookup name with
    | none => evaluated
    | some temporal =>
      some (.ok (rowsToQueryResult (temporal.queryAsOf timestamp) temporal.columnNames))

/-- Emptying the cache cannot be noticed by the query: there is nothing in
the cache, or the query executes no further text and what is cached for it is
what it evaluates to. -/
def CacheCurrent (host : SqlHost) (query : List Char) (engine : SqlEngine) : Prop :=
  engine.resultCache = ∅ ∨
    ∃ answer, engine.freshAnswer host query = some answer ∧
      ∀ entry, engine.resultCache.lookup (host.hashSql query) = some entry →
        answer = .ok entry.result

/-- What a transaction that is rolled back must leave: everything but the
transaction, the savepoints, the clock readings and the cache. -/
def settled (engine : SqlEngine) : SqlEngine :=
  { engine with
    txnManager := .new
    savepoints := []
    clockReads := 0
    resultCache := ∅ }

end SqlEngine

/-! ## The statements of the transaction -/

def SqlHost.copiesFrom (host : SqlHost) (sql : List Char) : Bool :=
  match splitWhitespace (trim sql) with
  | _ :: _ :: direction :: _ :: _ => toUppercase host.unicode direction == "FROM".toList
  | _ => false

/-- A text that goes to `execute_inner`, or is refused, and is confined
there. -/
def TextConfined (host : SqlHost) (engine : SqlEngine) (sql : List Char) : Prop :=
  let lower := toLowercase host.unicode (trim sql)
  startsWith lower "restore from ".toList = false ∧
    startsWith lower "commit".toList = false ∧
    (startsWith lower "rollback".toList && !startsWith lower "rollback to ".toList) =
      false ∧
      ∀ txn, engine.txnManager.active = some txn → InnerConfined host (engine.inside txn) sql

/-- A statement that neither ends the transaction nor changes what is beside
its catalog. -/
def StatementConfined (host : SqlHost) (engine : SqlEngine) (sql : List Char) : Prop :=
  match host.kind sql with
  | .commit | .rollback | .restore => False
  | .analyze =>
    let analyzed := stripFirstKeyword (trim sql)
    (host.kind analyzed).isSavepoint = false ∧ (engine.freshAnswer host analyzed).isSome = true
  | .copy => host.copiesFrom sql = false
  | .explain | .vacuum | .checkpoint | .backup | .begin | .show => True
  | _ => TextConfined host engine sql

/-- The condition on one statement of the transaction, for a query that comes
after it. -/
structure Undoable (host : SqlHost) (query : List Char)
    (engine : SqlEngine) (sql : List Char) : Prop where
  confined : StatementConfined host engine sql
  current : (host.kind sql).invalidates = true → engine.CacheCurrent host query

/-! ## One statement -/

/-- The transaction stays open and only its copy of the catalog changes. -/
structure StaysOpen (old new : SqlEngine) : Prop where
  settled : new.settled = old.settled
  sameCache : new.resultCache = old.resultCache
  opened : new.txnManager.active.isSome = old.txnManager.active.isSome

instance : IsPreorder SqlEngine StaysOpen where
  refl := fun _ => ⟨rfl, rfl, rfl⟩
  trans := fun _ _ _ first second =>
    ⟨second.settled.trans first.settled,
      second.sameCache.trans first.sameCache, second.opened.trans first.opened⟩

theorem StaysOpen.of_sameButClock (old new : SqlEngine) (same : SameButClock old new) :
    StaysOpen old new := by
  rw [same]
  exact ⟨rfl, rfl, rfl⟩

section

variable {host : SqlHost} {engine : SqlEngine} {txn : Transaction}

theorem staysOpen_inSnapshot {α : Type} {prog : SqlM α}
    (active : engine.txnManager.active = some txn)
    (moves : Moves SameBeside (engine.inside txn) prog) :
    Moves StaysOpen engine (inSnapshot txn prog) := by
  unfold Moves at moves ⊢
  rw [finalState_inSnapshot]
  generalize finalState prog (engine.inside txn) = after at moves
  refine ⟨?_, ?_, ?_⟩
  · calc
      _ = ({ after.beside with catalog := engine.catalog } : SqlEngine).settled := rfl
      _ = ({ (engine.inside txn).beside with
              catalog := engine.catalog } : SqlEngine).settled := by
            rw [moves]
      _ = engine.settled := rfl
  · have sameRest := congrArg SqlEngine.resultCache moves
    exact sameRest
  · rw [active]
    rfl

theorem staysOpen_executeByText {sql : List Char} (depth : Nat) (mode : engine.mvccEnabled = false)
    (active : engine.txnManager.active = some txn) (confined : TextConfined host engine sql) :
    Moves StaysOpen engine (executeByText host (executeInner host depth) sql) := by
  obtain ⟨notRestore, notCommit, notRollback, inner⟩ := confined
  refine .get_bind ?_
  split
  · exact .ofExcept _
  rw [notRestore, notCommit, notRollback, mode]
  simp only [Bool.false_eq_true, if_false]
  split
  · refine .get_bind ?_
    rw [active]
    exact .throw _
  · refine .get_bind ?_
    rw [active]
    refine staysOpen_inSnapshot active ?_
    exact beside_executeInner depth _ mode (inner txn active)

end

/-! ## Queries that execute no further text -/

section

variable {host : SqlHost} {engine : SqlEngine} {sql : List Char}

variable {answer : Except Fault QueryResult}

theorem systemTimeRows_run (host : SqlHost) (sql : List Char) (engine : SqlEngine) :
    systemTimeRows host sql engine =
      match parseForSystemTime host.unicode sql with
      | .error fault => .error fault engine
      | .ok none => .ok none engine
      | .ok (some (name, timestamp)) =>
        .ok ((engine.temporals.lookup name).map fun temporal =>
          rowsToQueryResult (temporal.queryAsOf timestamp) temporal.columnNames) engine := by
  unfold systemTimeRows
  rw [ofExcept_bind_run]
  rcases parseForSystemTime host.unicode sql with fault | _ | ⟨name, timestamp⟩
  · rfl
  · rfl
  · simp only
    rw [get_bind_run]
    cases engine.temporals.lookup name <;> rfl

theorem executeStatement_fresh
    (inner : List Char → Option Nat → SqlM QueryResult) (depth : Nat) (txnId : Option Nat)
    (fresh : engine.freshAnswer host sql = some answer) :
    executeStatement host inner depth sql txnId engine =
      (ofExcept answer : SqlM QueryResult) engine := by
  -- The evaluation of the parsed text, once the sidecars were looked at.
  have evaluated : ∀ parsedAnswer, (match host.parse sql with
          | .malformed error => some (.error (.error error))
          | .setQuery evaluate => some (evaluate engine.catalog engine.visibility)
          | .select =>
            if (viewsIn host engine.views sql).isEmpty then
              some (host.executeSelect sql engine.catalog engine.indexManager engine.visibility)
            else none
          | _ => none) = some parsedAnswer →
        executeParsed host inner depth sql txnId (host.parse sql) engine =
          (ofExcept parsedAnswer : SqlM QueryResult) engine := by
    intro parsedAnswer isAnswer
    cases parsed : host.parse sql with
    | malformed error | setQuery evaluate =>
      rw [parsed] at isAnswer
      cases isAnswer
      rfl
    | select =>
      rw [parsed] at isAnswer
      simp only at isAnswer
      split at isAnswer
      · next noViews =>
        cases isAnswer
        have nothing : materializeViewsInSql host inner sql engine = .ok () engine := by
          unfold materializeViewsInSql
          rw [get_bind_run, List.isEmpty_iff.mp noViews]
          rfl
        show (materializeViewsInSql host inner sql >>= _) engine = _
        rw [bind_run_ok nothing, get_bind_run]
      · cases isAnswer
    | «with» _ | createView _ | dropView _ | createProcedure _ | exec _ _
    | merge _ | rewrite _ | ddl _ | dml _ =>
      rw [parsed] at isAnswer
      cases isAnswer
  unfold SqlEngine.freshAnswer at fresh
  unfold executeStatement
  have timed := systemTimeRows_run host sql engine
  cases time : parseForSystemTime host.unicode sql with
  | error fault =>
    rw [time] at fresh timed
    cases fresh
    rw [bind_run_error timed]
    rfl
  | ok named =>
    cases named with
    | none =>
      rw [time] at fresh timed
      rw [bind_run_ok timed]
      exact evaluated answer fresh
    | some namedTime =>
      obtain ⟨name, timestamp⟩ := namedTime
      rw [time] at fresh timed
      simp only at fresh timed
      rw [bind_run_ok timed]
      cases held : engine.temporals.lookup name with
      | none =>
        rw [held] at fresh
        exact evaluated answer fresh
      | some temporal =>
        rw [held] at fresh
        cases fresh
        rfl

/-- A query that executes no further text is answered from the cache or by
its evaluation, and changes nothing. -/
theorem executeInner_fresh (depth : Nat) (txnId : Option Nat)
    (notSavepoint : (host.kind sql).isSavepoint = false)
    (fresh : engine.freshAnswer host sql = some answer) :
    ∃ next, SameButClock engine next ∧
      (executeInner host (depth + 1) sql txnId engine = (ofExcept answer : SqlM QueryResult) next ∨
        ∃ entry, engine.resultCache.lookup (host.hashSql sql) = some entry ∧
            executeInner host (depth + 1) sql txnId engine = .ok entry.result next) := by
  obtain ⟨next, same, looked⟩ := @cachedFor_cases host engine sql (host.kind sql == .select)
  refine ⟨next, same, ?_⟩
  obtain ⟨reads, rfl⟩ := same.eq
  rcases looked with missed | ⟨entry, -, held, hit⟩
  · left
    show (cachedFor host _ sql >>= _) engine = _
    rw [bind_run_ok missed, executeUncached_eq _ _ _ notSavepoint]
    exact executeStatement_fresh _ depth txnId fresh
  · right
    refine ⟨entry, held, ?_⟩
    show (cachedFor host _ sql >>= _) engine = _
    rw [bind_run_ok hit]
    rfl

theorem clock_executeInner_fresh (depth : Nat) (txnId : Option Nat)
    (notSavepoint : (host.kind sql).isSavepoint = false)
    (fresh : (engine.freshAnswer host sql).isSome = true) :
    Moves SameButClock engine (executeInner host depth sql txnId) := by
  cases depth with
  | zero => exact .throw _
  | succ depth =>
    obtain ⟨answer, isAnswer⟩ := Option.isSome_iff_exists.mp fresh
    obtain ⟨next, same, out⟩ := executeInner_fresh depth txnId notSavepoint isAnswer
    unfold Moves finalState
    rcases out with evaluated | ⟨entry, -, hit⟩
    · rw [evaluated]
      cases answer <;> exact same
    · rw [hit]
      exact same

end

/-! ## The transaction -/

section

variable {host : SqlHost} {engine : SqlEngine} {txn : Transaction}
  {sql : List Char}

theorem staysOpen_executeCopy (notFrom : host.copiesFrom sql = false) :
    Moves StaysOpen engine (executeCopy host (trim sql)) := by
  unfold SqlHost.copiesFrom at notFrom
  unfold executeCopy
  split
  · next words =>
    rw [words] at notFrom
    simp only [beq_eq_false_iff_ne, ne_eq] at notFrom
    simp only
    split
    · exact .throw _
    · split
      · refine .get_bind ?_
        split
        · exact .throw _
        · exact .ofExcept_bind fun _ _ => .pure _
      · exact .throw _
  · exact .throw _

theorem staysOpen_executeShow (text : List Char) :
    Moves StaysOpen engine (executeShow host text) := by
  unfold executeShow
  split
  · exact .get_bind (.pure _)
  · exact .throw _

theorem staysOpen_executeAnalyze (depth : Nat) (notSavepoint : (host.kind sql).isSavepoint = false)
    (fresh : (engine.freshAnswer host sql).isSome = true) :
    Moves StaysOpen engine (executeAnalyze host (executeInner host depth) sql) := by
  refine .weaken .of_sameButClock ?_
  refine .bind clock_readClock fun started read reading => ?_
  obtain ⟨reads, rfl⟩ := SameButClock.eq (clock_readClock.reached reading)
  refine .bind (clock_executeInner_fresh depth none notSavepoint fresh) fun _ _ _ => ?_
  exact .bind clock_readClock fun _ _ _ => .pure _

theorem staysOpen_executeVacuum (mode : engine.mvccEnabled = false) :
    Moves StaysOpen engine (onCore (executeVacuum host.toHost)) := by
  have nothing : executeVacuum host.toHost engine.toQueryEngine =
      .ok QueryResult.empty engine.toQueryEngine := by
    unfold executeVacuum
    rw [get_bind_run, mode]
    rfl
  refine .unchanged ?_
  unfold finalState onCore
  rw [nothing]

theorem staysOpen_controlByMode_begin (mode : engine.mvccEnabled = false)
    (active : engine.txnManager.active = some txn) :
    Moves StaysOpen engine (controlByMode host .begin (beginSnapshot host)) := by
  refine .get_bind ?_
  rw [mode]
  refine .get_bind ?_
  rw [active]
  exact .throw _

theorem staysOpen_executeByKind (depth : Nat) (mode : engine.mvccEnabled = false)
    (active : engine.txnManager.active = some txn) (confined : StatementConfined host engine sql) :
    Moves StaysOpen engine (executeByKind host (executeInner host depth) sql) := by
  unfold StatementConfined at confined
  unfold executeByKind
  cases kind : host.kind sql with
  | commit | rollback | restore =>
    rw [kind] at confined
    exact confined.elim
  | explain => exact .ofExcept _
  | analyze =>
    rw [kind] at confined
    exact staysOpen_executeAnalyze depth confined.1 confined.2
  | vacuum =>
    refine .get_bind (.ofExcept_bind fun _ _ => ?_)
    exact staysOpen_executeVacuum mode
  | copy =>
    rw [kind] at confined
    exact staysOpen_executeCopy confined
  | checkpoint => exact .get_bind (.ofExcept_bind fun _ _ => .pure _)
  | backup => exact .get_bind (.ofExcept _)
  | begin => exact staysOpen_controlByMode_begin mode active
  | «show» => exact staysOpen_executeShow _
  | _ =>
    rw [kind] at confined
    exact staysOpen_executeByText depth mode active confined

/-- The engine inside the transaction that was begun in `before`: it is
`before` up to the transaction, and the cache is the old one or was emptied
when the query could not notice. -/
structure InTransaction (host : SqlHost) (query : List Char)
    (before engine : SqlEngine) : Prop where
  opened : ∃ txn, engine.txnManager.active = some txn
  settled : engine.settled = before.settled
  cache : engine.resultCache = before.resultCache ∨
      engine.resultCache = ∅ ∧ before.CacheCurrent host query

variable {query : List Char} {before : SqlEngine}

theorem SqlEngine.CacheCurrent.of_settled (settled : engine.settled = before.settled)
    (sameCache : engine.resultCache = before.resultCache)
    (current : engine.CacheCurrent host query) : before.CacheCurrent host query := by
  have sameFresh : engine.freshAnswer host query = before.freshAnswer host query := by
    show engine.settled.freshAnswer host query = _
    rw [settled]
    rfl
  unfold SqlEngine.CacheCurrent at current ⊢
  rw [← sameFresh, ← sameCache]
  exact current

theorem InTransaction.stays {next : SqlEngine} (inside : InTransaction host query before engine)
    (stays : StaysOpen engine next) :
    InTransaction host query before next where
  opened := by
    obtain ⟨txn, active⟩ := inside.opened
    have isOpen := stays.opened
    rw [active] at isOpen
    exact Option.isSome_iff_exists.mp isOpen
  settled := stays.settled.trans inside.settled
  cache := by
    rw [stays.sameCache]
    exact inside.cache

theorem InTransaction.current (inside : InTransaction host query before engine)
    (current : engine.CacheCurrent host query) : before.CacheCurrent host query := by
  rcases inside.cache with sameCache | ⟨-, wasCurrent⟩
  · exact current.of_settled inside.settled sameCache
  · exact wasCurrent

theorem InTransaction.afterKind (depth : Nat) (mode : before.mvccEnabled = false)
    (inside : InTransaction host query before engine)
    (confined : StatementConfined host engine sql) :
    InTransaction host query before
      (finalState (executeByKind host (executeInner host depth) sql) engine) := by
  obtain ⟨txn, active⟩ := inside.opened
  have engineMode : engine.mvccEnabled = false := by
    have sameMode := congrArg (fun e => e.mvccEnabled) inside.settled
    exact Eq.trans sameMode mode
  exact inside.stays (staysOpen_executeByKind depth engineMode active confined)

variable {depth : Nat}

theorem SqlEngine.eq_finalState_of_step {next : SqlEngine}
    (ran : engine.step host depth sql = some next) :
    next = finalState (execute host depth sql) engine := by
  unfold SqlEngine.step at ran
  unfold finalState
  split at ran
  · next out =>
    rw [out]
    exact (Option.some.inj ran).symm
  · next out =>
    rw [out]
    exact (Option.some.inj ran).symm
  · cases ran

theorem InTransaction.step {before next : SqlEngine}
    (mode : before.mvccEnabled = false) (inside : InTransaction host query before engine)
    (undoable : Undoable host query engine sql) (ran : engine.step host depth sql = some next) :
    InTransaction host query before next := by
  rw [SqlEngine.eq_finalState_of_step ran]
  obtain ⟨looked, same, out⟩ := @execute_looked host engine sql depth
  have insideLooked : InTransaction host query before looked :=
    inside.stays (.of_sameButClock _ _ same)
  obtain ⟨reads, rfl⟩ := same.eq
  unfold finalState
  rcases out with dispatched | ⟨entry, -, -, hit⟩
  · have confined : StatementConfined host { engine with clockReads := reads } sql :=
      undoable.confined
    rw [dispatched]
    unfold SqlEngine.invalidatedFor
    by_cases invalidates : (host.kind sql).invalidates = true
    · rw [if_pos invalidates]
      have insideEmptied : InTransaction host query before
          { engine with clockReads := reads, resultCache := ∅ } :=
        { opened := insideLooked.opened, settled := insideLooked.settled
          cache := .inr ⟨rfl, inside.current (undoable.current invalidates)⟩ }
      exact insideEmptied.afterKind depth mode confined
    · rw [if_neg invalidates]
      exact insideLooked.afterKind depth mode confined
  · rw [hit]
    exact insideLooked

/-! ### The query after it -/

theorem readsOnly_executeRouted {txnManager : TxnManager}
    {savepoints : List (List Char × Catalog)} (depth : Nat)
    (isQuery : IsQuery host engine.views true query)
    (idle : engine.txnManager.active = none) (stillIdle : txnManager.active = none) :
    ReadsOnly txnManager savepoints true engine
      (executeRouted host (executeInner host depth) query) := by
  refine .get_bind ?_ ?_
  · simp only [SqlEngine.withSession, idle, stillIdle]
  · rw [idle]
    refine .bind (readsOnly_executeInner depth engine query none isQuery) fun res _ _ => ?_
    split
    · exact .bind (readsOnly_cacheResult query res) fun _ _ _ => .pure _
    · exact .pure _

/-- A query outside a transaction does not look at the savepoints and the
next transaction id. -/
theorem answer_withSession {txnManager : TxnManager}
    (savepoints : List (List Char × Catalog)) (depth : Nat)
    (isQuery : QueryText host engine.views query) (idle : engine.txnManager.active = none)
    (stillIdle : txnManager.active = none) :
    (engine.withSession txnManager savepoints).answer host depth query =
      engine.answer host depth query := by
  have blind : ReadsOnly txnManager savepoints true engine (execute host depth query) := by
    have looked : ReadsOnly txnManager savepoints true engine
        (cachedFor host (host.kind query).isQuery query) :=
      readsOnly_cachedFor _ query
    refine .bind looked fun cached next out => ?_
    cases cached with
    | some res => exact .pure _
    | none =>
      obtain ⟨reads, rfl⟩ := SameButClock.eq ((clock_cachedFor _ query).reached out)
      obtain ⟨keeps, -, byText⟩ := StatementKind.of_isQuery isQuery.kind
      have keeping : invalidateFor (host.kind query) = pure () := by
        unfold invalidateFor
        rw [keeps]
        rfl
      rw [keeping, pure_bind, executeByKind_of_isByText _ byText isQuery.notControl]
      refine .get_bind rfl ?_
      split
      · exact readsOnly_executeInner depth _ query _ isQuery.isQuery
      · exact readsOnly_executeRouted depth isQuery.isQuery idle stillIdle
  unfold SqlEngine.answer
  rw [blind.commutes]
  cases execute host depth query engine <;> rfl

theorem answer_fresh {answer : Except Fault QueryResult} (depth : Nat)
    (kind : (host.kind query).isQuery = true)
    (notControl : host.isControlText query = false) (mode : engine.mvccEnabled = false)
    (idle : engine.txnManager.active = none) (fresh : engine.freshAnswer host query = some answer)
    (current : ∀ entry, engine.resultCache.lookup (host.hashSql query) = some entry →
        answer = .ok entry.result) :
    engine.answer host (depth + 1) query = answer := by
  obtain ⟨looked, same, out⟩ := @execute_looked host engine query (depth + 1)
  obtain ⟨keeps, notSavepoint, byText⟩ := StatementKind.of_isQuery kind
  obtain ⟨reads, rfl⟩ := same.eq
  unfold SqlEngine.answer
  rcases out with dispatched | ⟨entry, -, held, hit⟩
  · rw [dispatched, SqlEngine.invalidatedFor_of_keeps keeps,
      executeByKind_of_isByText _ byText notControl, get_bind_run, if_neg (by simp [mode])]
    unfold executeRouted
    rw [get_bind_run]
    simp only [idle]
    obtain ⟨next, -, out⟩ :=
      @executeInner_fresh host { engine with clockReads := reads } query answer depth none
        notSavepoint fresh
    have ran : executeInner host (depth + 1) query none { engine with clockReads := reads } =
        (ofExcept answer : SqlM QueryResult) next := by
      rcases out with evaluated | ⟨entry, held, hit⟩
      · exact evaluated
      · rw [hit, current entry held]
        rfl
    cases answer with
    | ok res =>
      rw [bind_run_ok ran, kind]
      rfl
    | error fault => rw [bind_run_error ran]
  · rw [hit, current entry held]

/-! ### The whole transaction -/

theorem inTransaction_of_run {opened ran : SqlEngine} {res : QueryResult} {beginText : List Char}
    {statements : List (List Char)} (isBegin : host.kind beginText = .begin)
    (mode : before.mvccEnabled = false)
    (begun : execute host depth beginText before = .ok res opened)
    (run : Run (SqlEngine.step host depth) (Undoable host query) opened statements ran) :
    InTransaction host query before ran := by
  obtain ⟨-, isOpened⟩ := execute_begin isBegin mode begun
  refine run.invariant (InTransaction host query before) ?_ ?_
  · intro current stmt next inside undoable stepped
    exact inside.step mode undoable stepped
  · rw [isOpened]
    exact ⟨⟨_, rfl⟩, rfl, .inl rfl⟩

end

/-- After BEGIN, undoable statements and ROLLBACK a query is answered as it
would have been without them, at the same time. -/
theorem snapshot_rollback_restores_answer
    {host : SqlHost} {depth : Nat} {before opened ran closed : SqlEngine}
    {begunWith closedWith : QueryResult}
    {beginText rollbackText query : List Char} {statements : List (List Char)}
    (mode : before.mvccEnabled = false) (isBegin : host.kind beginText = .begin)
    (isRollback : host.kind rollbackText = .rollback) (isQuery : QueryText host before.views query)
    (begun : execute host (depth + 1) beginText before = .ok begunWith opened)
    (run : Run (SqlEngine.step host (depth + 1)) (Undoable host query) opened statements ran)
    (rolledBack : execute host (depth + 1) rollbackText ran = .ok closedWith closed) :
    closed.answer host (depth + 1) query =
      ({ before with clockReads := closed.clockReads } : SqlEngine).answer
        host (depth + 1) query := by
  have idle := (execute_begin isBegin mode begun).1
  have inside := inTransaction_of_run isBegin mode begun run
  have ranMode : ran.mvccEnabled = false := by
    have sameMode := congrArg (fun e => e.mvccEnabled) inside.settled
    exact Eq.trans sameMode mode
  obtain ⟨-, -, isClosed⟩ := execute_rollback isRollback ranMode rolledBack
  have closedIdle : closed.txnManager.active = none := by rw [isClosed]
  have settled : closed.settled = before.settled := by
    rw [isClosed]
    exact inside.settled
  have sameCache : closed.resultCache = ran.resultCache := by rw [isClosed]
  -- The engine after ROLLBACK, from the one before BEGIN.
  have restored : closed =
        ({ before with
          clockReads := closed.clockReads
          resultCache := closed.resultCache } : SqlEngine).withSession
            closed.txnManager closed.savepoints := by
    calc
      closed =
          { closed.settled with
            txnManager := closed.txnManager
            savepoints := closed.savepoints
            clockReads := closed.clockReads
            resultCache := closed.resultCache } := rfl
      _ = _ := by
          rw [settled]
          rfl
  have unnoticed : ran.resultCache = before.resultCache →
        closed.answer host (depth + 1) query = ({ before with clockReads := closed.clockReads } :
            SqlEngine).answer host (depth + 1) query := by
    intro kept
    rw [sameCache, kept] at restored
    have blind := @answer_withSession host { before with clockReads := closed.clockReads } query
        closed.txnManager closed.savepoints (depth + 1) isQuery idle closedIdle
    rw [← blind]
    conv_lhs => rw [restored]
  rcases inside.cache with kept | ⟨emptied, empty | ⟨answer, fresh, cached⟩⟩
  · exact unnoticed kept
  · exact unnoticed (emptied.trans empty.symm)
  · have closedMode : closed.mvccEnabled = false := by
      rw [isClosed]
      exact ranMode
    have closedFresh : closed.freshAnswer host query = some answer := by
      show closed.settled.freshAnswer host query = _
      rw [settled]
      exact fresh
    have nothingCached : ∀ entry, closed.resultCache.lookup (host.hashSql query) = some entry →
          answer = .ok entry.result := by
      intro entry held
      rw [sameCache, emptied, Finmap.lookup_empty] at held
      cases held
    rw [answer_fresh depth isQuery.kind isQuery.notControl closedMode
      closedIdle closedFresh nothingCached]
    have answered := @answer_fresh host { before with clockReads := closed.clockReads }
        query answer depth isQuery.kind isQuery.notControl mode idle fresh cached
    exact answered.symm

/-! ### A transaction that inserts a row -/

namespace Example

def beginText : List Char := "BEGIN".toList

def insertText : List Char := "INSERT INTO t VALUES (9)".toList

def rollbackText : List Char := "ROLLBACK".toList

def countText : List Char := "SELECT COUNT(*) FROM t".toList

def asOfText : List Char := "SELECT * FROM t FOR SYSTEM_TIME AS OF 9223372036854775807".toList

theorem kind_beginText (host : SqlHost) : host.kind beginText = .begin := by rfl

theorem kind_insertText (host : SqlHost) : host.kind insertText = .insert := by rfl

theorem kind_rollbackText (host : SqlHost) : host.kind rollbackText = .rollback := by rfl

/-- An engine with the table `t` and these sidecars. -/
def engineWith (temporals : Finmap (fun _ : String => TemporalTable)) : SqlEngine :=
  { QueryEngine.inMemory with
    catalog := QueryEngine.inMemory.catalog.insert "t" oneColumn
    temporals := temporals
    views := ∅
    procedures := ∅
    resultCache := ∅
    indexManager := .new }

theorem named_engineWith (temporals : Finmap (fun _ : String => TemporalTable)) :
    Named (engineWith temporals).catalog :=
  (named_empty.insert rfl).insert rfl

def begun (temporals : Finmap (fun _ : String => TemporalTable)) : SqlEngine :=
  { engineWith temporals with
    txnManager :=
      { nextId := 2
        active := some { id := 1, snapshot := (engineWith temporals).catalog } } }

theorem execute_beginText (host : SqlHost) (depth : Nat)
    (temporals : Finmap (fun _ : String => TemporalTable)) :
    execute host depth beginText (engineWith temporals) =
      .ok QueryResult.empty (begun temporals) := by
  have copied := cloneCatalog_eq host (named_engineWith temporals)
  unfold begun
  rw [← copied]
  rfl

def insideBegun (temporals : Finmap (fun _ : String => TemporalTable)) : SqlEngine :=
  { engineWith temporals with
    txnManager := { nextId := 2, active := none } }

/-- The table `t` with the row of the INSERT. -/
def grown : Table :=
  { oneColumn with columns := [[9]], rowCount := 1 }

/-- The engine after the INSERT, with these sidecars and clock readings. -/
def insertedInto (start : Finmap (fun _ : String => TemporalTable))
    (temporals : Finmap (fun _ : String => TemporalTable)) (clockReads : Nat) : SqlEngine :=
  { begun start with
    temporals := temporals
    clockReads := clockReads
    txnManager :=
      { nextId := 2
        active := some
            { id := 1, snapshot := (engineWith start).catalog.insert "t" grown } } }

variable {host : SqlHost}

theorem parsedDml_insert (parsed : host.parse insertText = .dml insertNine) :
    ParsedDml host insertText insertNine :=
  ⟨.inl rfl, rfl, rfl, parsed⟩

variable {depth : Nat} {res : QueryResult}

theorem execute_insertText {start temporals : Finmap (fun _ : String => TemporalTable)}
    {clockReads : Nat} (parsed : host.parse insertText = .dml insertNine)
    (ran : executeDml host.toHost depth insertNine (some 1) (insideBegun start).toQueryEngine =
        .ok res
          { (insideBegun start).toQueryEngine with
            catalog := (engineWith start).catalog.insert "t" grown
            temporals := temporals
            clockReads := clockReads }) :
    execute host (depth + 1) insertText (begun start) =
      .ok res (insertedInto start temporals clockReads) := by
  let txn : Transaction := { id := 1, snapshot := (engineWith start).catalog }
  rw [execute_dml_inside (parsedDml_insert parsed) rfl rfl]
  refine @inSnapshot_ok (begun start).uncached _ txn _ _
    { insideBegun start with
      catalog := (engineWith start).catalog.insert "t" grown
      temporals := temporals
      clockReads := clockReads } ?_
  exact onCore_run_ok ran

variable {engine : SqlEngine}

theorem execute_insertText_idle {core : QueryEngine}
    (parsed : host.parse insertText = .dml insertNine) (mode : engine.mvccEnabled = false)
    (idle : engine.txnManager.active = none)
    (ran : executeDml host.toHost depth insertNine none engine.toQueryEngine = .ok res core) :
    execute host (depth + 1) insertText engine =
      .ok res { engine with toQueryEngine := core, resultCache := ∅ } := by
  rw [execute_dml_idle (parsedDml_insert parsed) mode idle]
  exact onCore_run_ok ran

theorem freshAnswer_asOfText {temporal : TemporalTable}
    (held : engine.temporals.lookup "t" = some temporal) :
    engine.freshAnswer host asOfText = some (.ok
          (rowsToQueryResult (temporal.queryAsOf 9223372036854775807) temporal.columnNames)) := by
  have time : parseForSystemTime host.unicode asOfText = .ok (some ("t", 9223372036854775807)) := by
    rfl
  unfold SqlEngine.freshAnswer
  rw [time]
  simp only
  rw [held]

theorem execute_rollbackText {txn : Transaction} (depth : Nat)
    (mode : engine.mvccEnabled = false) (active : engine.txnManager.active = some txn) :
    execute host depth rollbackText engine = .ok .empty (engine.closed engine.catalog) := by
  rw [execute_rollbackSnapshot (kind_rollbackText host) mode]
  exact rollbackSnapshot_run active

def insertHost : SqlHost :=
  plainSqlHost (fun sql => .ok (if sql = insertText then some insertNine else none))

end Example

open Example in
/-- A transaction inserts a row into `t` and is rolled back; the rows of `t`
are then counted as before. -/
theorem snapshot_rollback_restores_count : ∃ opened ran closed,
      execute insertHost 1 beginText (engineWith ∅) = .ok QueryResult.empty opened ∧
        Run (SqlEngine.step insertHost 1) (Undoable insertHost countText) opened [insertText] ran ∧
        execute insertHost 1 rollbackText ran = .ok QueryResult.empty closed ∧
        closed.answer insertHost 1 countText =
          ({ engineWith ∅ with clockReads := closed.clockReads } :
                SqlEngine).answer insertHost 1 countText := by
  have begins := execute_beginText insertHost 1 ∅
  have parsed : insertHost.parse insertText = .dml insertNine := rfl
  have inserts : execute insertHost 1 insertText (begun ∅) =
        .ok { QueryResult.empty with rowCount := 1 } (insertedInto ∅ ∅ 0) :=
    execute_insertText parsed rfl
  have undoable : Undoable insertHost countText (begun ∅) insertText := by
    refine ⟨?_, fun _ => .inl rfl⟩
    refine ⟨rfl, rfl, rfl, fun txn active => .inr ?_⟩
    exact .inr rfl
  have stepped : SqlEngine.step insertHost 1 (begun ∅) insertText = some (insertedInto ∅ ∅ 0) := by
    unfold SqlEngine.step
    rw [inserts]
  have run : Run (SqlEngine.step insertHost 1)
      (Undoable insertHost countText) (begun ∅) [insertText] (insertedInto ∅ ∅ 0) :=
    .cons undoable stepped (.nil _)
  have rollsBack := @execute_rollbackText insertHost (insertedInto ∅ ∅ 0) _ 1 rfl rfl
  have isQuery : QueryText insertHost (engineWith ∅).views countText := by
    refine ⟨rfl, rfl, .intro rfl trivial fun text member => ?_⟩
    have noParts : insertHost.parts ∅ countText = [] := by
      show (viewsIn insertHost ∅ countText).map Prod.snd = []
      rw [viewsIn_empty, List.map_nil]
    rw [show (engineWith ∅).views = ∅ from rfl, noParts] at member
    cases member
  refine ⟨_, _, _, begins, run, rollsBack, ?_⟩
  exact snapshot_rollback_restores_answer rfl (kind_beginText _)
    (kind_rollbackText _) isQuery begins run rollsBack

/-! ### The sidecar of a system-versioned table -/

def SqlEngine.acceptedStep (host : SqlHost) (depth : Nat)
    (engine : SqlEngine) (sql : List Char) : Option SqlEngine :=
  match execute host depth sql engine with
  | .ok _ next => some next
  | .error _ _ => none

def NotControl (host : SqlHost) (_ : SqlEngine) (sql : List Char) : Prop :=
  host.kind sql ≠ .commit ∧ host.kind sql ≠ .rollback

/-- Every query after a transaction of accepted statements that was rolled
back is answered as it would have been without the transaction. -/
def RollbackRestoresAnswers (host : SqlHost) (depth : Nat) : Prop :=
  ∀ (before opened ran closed : SqlEngine) (begunWith closedWith : QueryResult)
    (beginText rollbackText query : List Char) (statements : List (List Char)),
    before.mvccEnabled = false →
      host.kind beginText = .begin →
      host.kind rollbackText = .rollback →
        (host.kind query).isQuery = true →
        execute host depth beginText before = .ok begunWith opened →
          Run (SqlEngine.acceptedStep host depth)
              (NotControl host) opened statements ran →
            execute host depth rollbackText ran = .ok closedWith closed →
              closed.answer host depth query =
                ({ before with clockReads := closed.clockReads } :
                      SqlEngine).answer host depth query

open Example in
/-- The sidecar of a system-versioned table keeps the row that a transaction
inserted before it was rolled back. -/
theorem snapshot_rollback_keeps_history : ¬ ∃ host depth, host.parse insertText = .dml insertNine ∧
    (∀ reading, host.clock reading < 2 ^ 63) ∧ RollbackRestoresAnswers host (depth + 1) := by
  rintro ⟨host, depth, parsed, clock, restores⟩
  let empty : TemporalTable := TemporalTable.new ["v"] 0
  let filled : TemporalTable := empty.insert (host.clock 0) [9]
  let start : Finmap (fun _ : String => TemporalTable) :=
    (∅ : Finmap (fun _ : String => TemporalTable)).insert "t" empty
  have begins := execute_beginText host (depth + 1) start
  have inserts : execute host (depth + 1) insertText (begun start) =
        .ok { QueryResult.empty with rowCount := 1 }
          (insertedInto start (start.insert "t" filled) 1) :=
    execute_insertText parsed rfl
  have rollsBack := @execute_rollbackText host
      (insertedInto start (start.insert "t" filled) 1) _ (depth + 1) rfl rfl
  have stepped : SqlEngine.acceptedStep host (depth + 1) (begun start) insertText =
      some (insertedInto start (start.insert "t" filled) 1) := by
    unfold SqlEngine.acceptedStep
    rw [inserts]
  have accepted : NotControl host (begun start) insertText := by
    unfold NotControl
    rw [kind_insertText]
    exact ⟨by decide, by decide⟩
  have kind : host.kind asOfText = .select := by rfl
  have same := restores _ _ _ _ _ _ beginText rollbackText asOfText [insertText] rfl
      (kind_beginText host) (kind_rollbackText host) (by rw [kind]; rfl)
      begins (.cons accepted stepped (.nil _)) rollsBack
  have notControl : host.isControlText asOfText = false := by rfl
  have isQuery : (host.kind asOfText).isQuery = true := by
    rfl
  have wasEmpty : start.lookup "t" = some empty := Finmap.lookup_insert _
  have isFilled : (start.insert "t" filled).lookup "t" = some filled := Finmap.lookup_insert _
  rw [answer_fresh depth isQuery notControl rfl rfl
      (freshAnswer_asOfText isFilled) (fun _ cached => by cases cached),
    answer_fresh depth isQuery notControl rfl rfl
      (freshAnswer_asOfText wasEmpty) (fun _ cached => by cases cached)]
    at same
  have counted := congrArg QueryResult.rowCount (Except.ok.inj same)
  have early : host.clock 0 ≤ 9223372036854775807 := by
    have bound := clock 0
    omega
  have oneRow : filled.queryAsOf 9223372036854775807 = [[9]] := by
    show ((([([9], host.clock 0)] : List (List Cell × Nat)).filter _).map Prod.fst) ++ [] = _
    rw [List.filter_cons, if_pos (decide_eq_true early)]
    rfl
  rw [oneRow] at counted
  cases counted

end TurboGP.Engine
