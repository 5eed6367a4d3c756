import TurboGP.Engine.OpenTransaction

/-! # Two sessions on one engine -/

namespace TurboGP.Engine

open Datasource Sql Sql.Text Txn Effect SqlEngine GuardedRun QueryResult Finmap

/-! ## Calls of two sessions -/

inductive SessionName
  | a | b
  deriving DecidableEq, Repr

structure Call where
  session : SessionName
  sql : List Char

section

variable (host : ReadonlyHost) (depth : Nat)

def SqlEngine.callStep (engine : SqlEngine) (call : Call) : Option SqlEngine :=
  match routeAndExecute host depth call.sql engine with
  | .ok _ next => some next
  | .error (.error _) next => some next
  | .error _ _ => none

/-- A call of the first session that begins or ends its transaction. -/
def IsControl (kind : StatementKind) (call : Call) : Prop :=
  call.session = .a ∧ host.kind call.sql = kind ∧ isReadonlySql host call.sql = false

/-- A call while a transaction of the first session is open: a query that the
read lock answers, or a statement of that session that is confined to its
transaction. -/
def CallInside (engine : SqlEngine) (call : Call) : Prop :=
  isReadonlySql host call.sql = true ∨
    call.session = .a ∧ isReadonlySql host call.sql = false ∧
      StatementConfined host.toSqlHost engine call.sql

/-- An INSERT, UPDATE or DELETE that `execute` does not take for another
statement. -/
structure DmlText (sql : List Char) : Prop where
  kind : host.kind sql = .insert ∨ host.kind sql = .update ∨ host.kind sql = .delete
  parsed :
    (∃ statement, host.parse sql = .dml statement) ∨ ∃ error, host.parse sql = .malformed error
  notControl : host.isControlText sql = false

/-- A call that keeps the sessions apart: a query that the read lock answers;
a control statement of the first session; another statement of it inside its
transaction; or a DML statement while no transaction is open. -/
inductive IsolatedCall (engine : SqlEngine) (call : Call) : Prop
  | read (readonly : isReadonlySql host call.sql = true)
  | control (kind : StatementKind) (isControl : kind.isControl = true)
      (sent : IsControl host kind call)
  | inside (isOpen : engine.txnManager.active ≠ none) (sent : CallInside host engine call)
  | idle (isIdle : engine.txnManager.active = none)
      (notRead : isReadonlySql host call.sql = false) (dml : DmlText host call.sql)

end

/-! ## The cache of the read-only path -/

section

variable {host : ReadonlyHost} {engine : SqlEngine} {sql : List Char}

def AnswerOn (host : ReadonlyHost) (catalog : Catalog) (key : UInt64)
    (result : QueryResult) : Prop :=
  ∃ text evaluate, host.hashSql text = key ∧ host.readonlyQuery text = some evaluate ∧
    evaluate catalog = .ok result

/-- Every entry of the cache was there before, or is an answer on the
engine's catalog. -/
def CachesAnswers (host : ReadonlyHost) (old new : SqlEngine) : Prop :=
  ∀ key entry, new.resultCache.lookup key = some entry →
    old.resultCache.lookup key = some entry ∨ AnswerOn host old.catalog key entry.result

theorem CachesAnswers.of_eq_or_empty {new : SqlEngine}
    (cache : new.resultCache = engine.resultCache ∨ new.resultCache = ∅) :
    CachesAnswers host engine new := by
  intro key entry held
  rcases cache with same | empty
  · rw [same] at held
    exact .inl held
  · rw [empty, lookup_empty] at held
    cases held

variable {result : QueryResult} {next : SqlEngine}

theorem cacheResult_entries (stored : cacheResult host.toSqlHost sql result engine = .ok () next)
    {key : UInt64} {entry : CachedResult} (held : next.resultCache.lookup key = some entry) :
    engine.resultCache.lookup key = some entry ∨
      key = host.hashSql sql ∧ entry.result = result := by
  cases stored
  by_cases isKey : key = host.hashSql sql
  · subst isKey
    have inserted := (lookup_insert _).symm.trans held
    cases inserted
    exact .inr ⟨rfl, rfl⟩
  · left
    have kept := (lookup_insert_of_ne _ isKey).symm.trans held
    split at kept
    · split at kept
      · next oldest _ =>
        by_cases isOldest : key = oldest
        · subst isOldest
          rw [lookup_erase] at kept
          cases kept
        · rwa [lookup_erase_ne isOldest] at kept
      · exact kept
    · exact kept

structure ReadsAnswers (host : ReadonlyHost) (old new : SqlEngine) : Prop where
  same : SameButCache old new
  cache : CachesAnswers host old new

instance : IsPreorder SqlEngine (ReadsAnswers host) where
  refl := fun _ => ⟨rfl, fun _ _ present => .inl present⟩
  trans := by
    intro old middle new first second
    refine ⟨Trans.trans first.same second.same, ?_⟩
    intro key entry present
    rcases second.cache key entry present with earlier | answer
    · exact first.cache key entry earlier
    · right
      have sameCatalog : middle.catalog = old.catalog := by rw [first.same]
      rwa [sameCatalog] at answer

theorem ReadsAnswers.of_sameButClock (old new : SqlEngine) (same : SameButClock old new) :
    ReadsAnswers host old new := by
  refine ⟨same.sameButCache, .of_eq_or_empty (.inl ?_)⟩
  rw [same]

theorem answers_readonlyStatement :
    Moves (ReadsAnswers host) engine (readonlyStatement host sql) := by
  unfold readonlyStatement
  split
  · exact .throw _
  · exact .throw _
  split
  · exact .throw _
  · exact .throw _
  split
  · exact .throw _
  split
  · exact .throw _
  · next evaluate isQuery =>
    refine .get_bind ?_
    split
    · next result evaluated =>
      have stored :
          ∃ next, cacheResult host.toSqlHost sql result engine = .ok () next := ⟨_, rfl⟩
      obtain ⟨next, stored⟩ := stored
      have storing :
          Moves (ReadsAnswers host) engine (cacheResult host.toSqlHost sql result) := by
        unfold Moves finalState
        rw [stored]
        refine ⟨(cache_cacheResult result).reached stored, ?_⟩
        intro key entry held
        rcases cacheResult_entries stored held with
          earlier | ⟨rfl, rfl⟩
        · exact .inl earlier
        · exact .inr ⟨sql, evaluate, rfl, isQuery, evaluated⟩
      exact .bind storing fun _ _ _ => .pure _
    · exact .throw _
    · exact .throw _

theorem answers_executeReadonly : Moves (ReadsAnswers host) engine (executeReadonly host sql) := by
  refine
    .bind ((clock_cachedFor true sql).weaken .of_sameButClock) fun cached _ _ => ?_
  split
  · exact .pure _
  · unfold executeReadonlyUncached
    split
    · exact .ofExcept _
    · exact answers_readonlyStatement
    · exact answers_readonlyStatement
    · exact .throw _

theorem readonlyStatement_returned
    (answered : readonlyStatement host sql engine = .ok result next) :
    AnswerOn host engine.catalog (host.hashSql sql) result := by
  unfold readonlyStatement at answered
  rcases ddl : host.parseDdl sql with message | found
  · rw [ddl] at answered
    cases answered
  rw [ddl] at answered
  cases found with
  | some stmt => cases answered
  | none =>
    rcases dml : host.parseDml sql with message | found
    · rw [dml] at answered
      cases answered
    rw [dml] at answered
    cases found with
    | some stmt => cases answered
    | none =>
      by_cases isWith : (host.parseWith sql).isSome = true
      · rw [if_pos isWith] at answered
        cases answered
      rw [if_neg isWith] at answered
      cases isQuery : host.readonlyQuery sql with
      | none =>
        rw [isQuery] at answered
        cases answered
      | some evaluate =>
        rw [isQuery] at answered
        simp only at answered
        unfold evaluateReadonly at answered
        rw [get_bind_run] at answered
        rcases evaluated : evaluate engine.catalog with fault | found
        · rw [evaluated] at answered
          cases fault <;> cases answered
        · rw [evaluated] at answered
          cases answered
          exact ⟨sql, evaluate, rfl, isQuery, evaluated⟩

theorem executeReadonly_answer (kind : host.kind sql = .select)
    (answered : executeReadonly host sql engine = .ok result next) :
    (∃ entry, engine.resultCache.lookup (host.hashSql sql) = some entry ∧ entry.result = result) ∨
      AnswerOn host engine.catalog (host.hashSql sql) result := by
  obtain ⟨looked, sameLooked, found⟩ := @cachedFor_cases host.toSqlHost engine sql true
  unfold executeReadonly at answered
  rcases found with missed | ⟨entry, -, held, hit⟩
  · right
    have miss : cachedResult host.toSqlHost sql engine = .ok none looked := missed
    rw [bind_run_ok miss] at answered
    simp only [executeReadonlyUncached, kind] at answered
    have sameCatalog : looked.catalog = engine.catalog := by rw [sameLooked]
    rw [← sameCatalog]
    exact readonlyStatement_returned answered
  · left
    have isHit : cachedResult host.toSqlHost sql engine = .ok (some entry.result) looked := hit
    rw [bind_run_ok isHit] at answered
    cases answered
    exact ⟨entry, held, rfl⟩

end

/-! ## One call -/

/-- What a call that keeps the sessions apart does: while a transaction is open
after it, the engine's own catalog is the same, and what it caches are answers
on that catalog. -/
structure CallKeeps (host : ReadonlyHost) (old new : SqlEngine) : Prop where
  sameMode : new.mvccEnabled = old.mvccEnabled
  catalog : new.txnManager.active ≠ none → new.catalog = old.catalog
  cache : CachesAnswers host old new

section

variable {host : ReadonlyHost} {depth : Nat} {engine next : SqlEngine}
  {call : Call} {sql : List Char}

theorem CallKeeps.of_readsAnswers (reads : ReadsAnswers host engine next) :
    CallKeeps host engine next := by
  refine ⟨?_, ?_, reads.cache⟩
  · rw [reads.same]
  · intro _
    rw [reads.same]

theorem callStep_read (readonly : isReadonlySql host call.sql = true)
    (ran : engine.callStep host depth call = some next) : ReadsAnswers host engine next := by
  unfold callStep routeAndExecute at ran
  rw [if_pos readonly] at ran
  split at ran
  · next out =>
    cases ran
    exact answers_executeReadonly.reached out
  · next out =>
    cases ran
    exact answers_executeReadonly.reached_error out
  · cases ran

theorem callStep_write (notRead : isReadonlySql host call.sql = false)
    (ran : engine.callStep host depth call = some next) :
    engine.step host.toSqlHost depth call.sql = some next := by
  unfold callStep routeAndExecute at ran
  rw [if_neg (by rw [notRead]; decide)] at ran
  exact ran

theorem callKeeps_control {kind : StatementKind} (isControl : kind.isControl = true)
    (mode : engine.mvccEnabled = false) (sent : IsControl host kind call)
    (ran : engine.callStep host depth call = some next) : CallKeeps host engine next := by
  obtain ⟨-, rfl, notRead⟩ := sent
  have reached := eq_finalState_of_step (callStep_write notRead ran)
  have same : next = finalState (snapshotControl host.toSqlHost (host.kind call.sql)) engine := by
    rw [reached]
    unfold finalState
    rw [execute_control isControl mode]
  have keeps : ControlKeeps engine next := by
    rw [same]
    exact control_snapshotControl isControl
  exact ⟨keeps.sameMode, keeps.catalog, .of_eq_or_empty (.inl keeps.sameCache)⟩

theorem callStep_control {kind : StatementKind} {result : QueryResult} {after : SqlEngine}
    (isControl : kind.isControl = true) (mode : engine.mvccEnabled = false)
    (sent : IsControl host kind call)
    (succeeds : snapshotControl host.toSqlHost kind engine = .ok result after)
    (ran : engine.callStep host depth call = some next) : next = after := by
  obtain ⟨-, rfl, notRead⟩ := sent
  have executed := callStep_write notRead ran
  unfold step at executed
  rw [execute_control isControl mode, succeeds] at executed
  exact (Option.some.inj executed).symm

theorem callKeeps_confined {txn : Transaction} (mode : engine.mvccEnabled = false)
    (active : engine.txnManager.active = some txn)
    (confined : StatementConfined host.toSqlHost engine sql)
    (ran : engine.step host.toSqlHost depth sql = some next) : CallKeeps host engine next := by
  have isOpen : OpenSince engine engine := ⟨⟨txn, active⟩, rfl⟩
  have stillOpen : OpenSince engine next := by
    rw [eq_finalState_of_step ran]
    exact isOpen.execute mode confined
  refine ⟨stillOpen.mode, fun _ => stillOpen.catalog, .of_eq_or_empty ?_⟩
  obtain ⟨prepared, same, cache, out⟩ := @execute_prepared host.toSqlHost engine sql depth
  have reached := eq_finalState_of_step ran
  unfold finalState at reached
  rcases out with dispatched | ⟨result, -, answered⟩
  · have preparedActive : prepared.txnManager.active = some txn := by
      rw [same]
      exact active
    have preparedMode : prepared.mvccEnabled = false := by
      rw [same]
      exact mode
    have stays :=
      staysOpen_executeByKind depth preparedMode preparedActive (confined.of_sameButCache same)
    unfold Moves finalState at stays
    rw [dispatched] at reached
    rw [← reached] at stays
    rw [stays.sameCache]
    exact cache
  · rw [answered] at reached
    rw [reached]
    exact cache

/-! ### DML outside a transaction -/

structure WritesTables (old new : SqlEngine) : Prop where
  sameTxn : new.txnManager = old.txnManager
  sameMode : new.mvccEnabled = old.mvccEnabled
  sameCache : new.resultCache = old.resultCache

instance : IsPreorder SqlEngine WritesTables where
  refl := fun _ => ⟨rfl, rfl, rfl⟩
  trans := fun _ _ _ first second =>
    ⟨second.sameTxn.trans first.sameTxn,
      second.sameMode.trans first.sameMode, second.sameCache.trans first.sameCache⟩

theorem WritesTables.of_sameButClock (old new : SqlEngine) (same : SameButClock old new) :
    WritesTables old new := by
  rw [same]
  exact ⟨rfl, rfl, rfl⟩

theorem writes_executeDml {host : SqlHost} (stmt : DmlStatement) (txnId : Option Nat)
    (mode : engine.mvccEnabled = false) :
    Moves WritesTables engine (onCore (executeDml host.toHost depth stmt txnId)) := by
  have moved := moves_executeDml_snapshot host.toHost depth txnId mode
      (sidecarsWithin_all engine.toQueryEngine stmt)
  unfold Moves
  rw [finalState_onCore]
  exact ⟨moved.sameTxnManager, moved.sameMode, rfl⟩

theorem writes_executeInner {host : SqlHost} (txnId : Option Nat)
    (mode : engine.mvccEnabled = false) (notSelect : host.kind sql ≠ .select)
    (notSavepoint : (host.kind sql).isSavepoint = false)
    (parsed : (∃ stmt, host.parse sql = .dml stmt) ∨ ∃ error, host.parse sql = .malformed error) :
    Moves WritesTables engine (executeInner host depth sql txnId) := by
  cases depth with
  | zero => exact .throw _
  | succ depth =>
    have missed : cachedFor host (host.kind sql == .select) sql engine = .ok none engine := by
      rw [beq_eq_false_iff_ne.mpr notSelect]
      rfl
    have inner : executeInner host (depth + 1) sql txnId engine =
        executeStatement host (executeInner host depth) depth sql txnId
          engine := by
      show executeInnerVia host _ depth sql txnId engine = _
      unfold executeInnerVia
      rw [bind_run_ok missed, executeUncached_eq _ _ _ notSavepoint]
    unfold Moves finalState
    rw [inner]
    have timed := @clock_systemTimeRows host engine sql
    refine Moves.bind (timed.weaken WritesTables.of_sameButClock) fun rows looked looking => ?_
    have lookedMode : looked.mvccEnabled = false := by
      rw [timed.reached looking]
      exact mode
    cases rows with
    | some result => exact .pure _
    | none =>
      rcases parsed with ⟨stmt, isDml⟩ | ⟨error, isMalformed⟩
      · rw [isDml]
        exact writes_executeDml stmt txnId lookedMode
      · rw [isMalformed]
        exact .throw _

theorem DmlText.kind_facts (dml : DmlText host sql) :
    host.kind sql ≠ .select ∧ (host.kind sql).isSavepoint = false ∧
      (host.kind sql).isQuery = false ∧ (host.kind sql).isByText = true := by
  rcases dml.kind with kind | kind | kind <;> rw [kind] <;> decide

theorem callKeeps_idle (mode : engine.mvccEnabled = false)
    (idle : engine.txnManager.active = none) (dml : DmlText host sql)
    (ran : engine.step host.toSqlHost depth sql = some next) :
    CallKeeps host engine next ∧ next.txnManager.active = none := by
  obtain ⟨prepared, same, cache, out⟩ := @execute_prepared host.toSqlHost engine sql depth
  obtain ⟨notSelect, notSavepoint, notQuery, byText⟩ := dml.kind_facts
  have preparedMode : prepared.mvccEnabled = false := by
    rw [same]
    exact mode
  have preparedIdle : prepared.txnManager.active = none := by
    rw [same]
    exact idle
  have notMvcc : ¬ prepared.mvccEnabled = true := by
    rw [preparedMode]
    decide
  have writes : Moves WritesTables prepared
      (executeByKind host.toSqlHost (executeInner host.toSqlHost depth) sql) := by
    rw [executeByKind_of_isByText _ byText dml.notControl]
    refine .get_bind ?_
    rw [if_neg notMvcc]
    refine .get_bind ?_
    rw [preparedIdle]
    refine .bind (writes_executeInner none preparedMode notSelect notSavepoint dml.parsed)
      fun result _ _ => ?_
    rw [notQuery]
    exact .pure _
  have reached := eq_finalState_of_step ran
  unfold finalState at reached
  have wrote : WritesTables prepared next := by
    rcases out with dispatched | ⟨result, isQuery, -⟩
    · rw [dispatched] at reached
      rw [reached]
      exact writes
    · rw [notQuery] at isQuery
      cases isQuery
  have nextIdle : next.txnManager.active = none := by
    rw [wrote.sameTxn]
    exact preparedIdle
  refine ⟨⟨?_, fun isOpen => absurd nextIdle isOpen, .of_eq_or_empty ?_⟩, nextIdle⟩
  · rw [wrote.sameMode, preparedMode, mode]
  · rw [wrote.sameCache]
    exact cache

theorem IsolatedCall.keeps (mode : engine.mvccEnabled = false)
    (isolated : IsolatedCall host engine call) (ran : engine.callStep host depth call = some next) :
    CallKeeps host engine next := by
  cases isolated with
  | read readonly => exact .of_readsAnswers (callStep_read readonly ran)
  | control kind isControl sent => exact callKeeps_control isControl mode sent ran
  | inside isOpen sent =>
    rcases sent with readonly | ⟨-, notRead, confined⟩
    · exact .of_readsAnswers (callStep_read readonly ran)
    · obtain ⟨txn, active⟩ := Option.ne_none_iff_exists'.mp isOpen
      exact callKeeps_confined mode active confined (callStep_write notRead ran)
  | idle isIdle notRead dml =>
    exact (callKeeps_idle mode isIdle dml (callStep_write notRead ran)).1

end

/-! ## Runs of two sessions -/

/-- The engine's catalog in a state of the run in which no transaction was
open. -/
def Committed (host : ReadonlyHost) (depth : Nat) (start : SqlEngine)
    (calls : List Call) (catalog : Catalog) : Prop :=
  ∃ earlier later middle, calls = earlier ++ later ∧
    Run (callStep host depth) (IsolatedCall host) start earlier middle ∧
    middle.txnManager.active = none ∧ middle.catalog = catalog

/-- What is known after some calls: the engine's own catalog is a committed
one, and the cache holds answers on committed catalogs. -/
structure Clean (host : ReadonlyHost) (depth : Nat) (start : SqlEngine)
    (calls : List Call) (engine : SqlEngine) : Prop where
  run : Run (callStep host depth) (IsolatedCall host) start calls engine
  mode : engine.mvccEnabled = false
  catalog : Committed host depth start calls engine.catalog
  cache : ∀ key entry, engine.resultCache.lookup key = some entry →
      ∃ catalog, Committed host depth start calls catalog ∧ AnswerOn host catalog key entry.result

section

variable {host : ReadonlyHost} {depth : Nat} {start engine next : SqlEngine}
  {calls : List Call} {call : Call}

theorem Committed.append {catalog : Catalog} (more : List Call)
    (committed : Committed host depth start calls catalog) :
    Committed host depth start (calls ++ more) catalog := by
  obtain ⟨earlier, later, middle, rfl, run, idle, same⟩ := committed
  exact ⟨earlier, later ++ more, middle, List.append_assoc _ _ _, run, idle, same⟩

theorem Clean.step (clean : Clean host depth start calls engine)
    (isolated : IsolatedCall host engine call) (ran : engine.callStep host depth call = some next) :
    Clean host depth start (calls ++ [call]) next := by
  have keeps := isolated.keeps clean.mode ran
  have run := clean.run.append (.cons isolated ran (.nil _))
  have catalogBefore := clean.catalog.append [call]
  refine ⟨run, keeps.sameMode.trans clean.mode, ?_, ?_⟩
  · by_cases idle : next.txnManager.active = none
    · exact ⟨_, [], next, (List.append_nil _).symm, run, idle, rfl⟩
    · rw [keeps.catalog idle]
      exact catalogBefore
  · intro key entry held
    rcases keeps.cache key entry held with earlier | answer
    · obtain ⟨catalog, committed, isAnswer⟩ := clean.cache key entry earlier
      exact ⟨catalog, committed.append [call], isAnswer⟩
    · exact ⟨engine.catalog, catalogBefore, answer⟩

theorem openSince_callInside {before : SqlEngine} (mode : before.mvccEnabled = false)
    (isOpen : OpenSince before engine) (sent : CallInside host engine call)
    (ran : engine.callStep host depth call = some next) : OpenSince before next := by
  rcases sent with readonly | ⟨-, notRead, confined⟩
  · exact isOpen.of_sameButCache (callStep_read readonly ran).same
  · rw [eq_finalState_of_step (callStep_write notRead ran)]
    exact isOpen.execute mode confined

def fromOther (call : Call) : Bool := call.session == .b

theorem alone_catalog {opened inner alone : SqlEngine} {before : SqlEngine}
    (run : Run (callStep host depth) (CallInside host) opened calls inner)
    (aloneRun : Run (callStep host depth) anyStep before (calls.filter fromOther) alone) :
    alone.catalog = before.catalog := by
  have reads : ∀ call ∈ calls.filter fromOther, isReadonlySql host call.sql = true := by
    intro call mem
    obtain ⟨inCalls, isOther⟩ := List.mem_filter.mp mem
    obtain ⟨state, sent⟩ := run.guard_of_mem inCalls
    rcases sent with readonly | ⟨isFirst, -⟩
    · exact readonly
    · unfold fromOther at isOther
      rw [isFirst] at isOther
      cases isOther
  refine
    (aloneRun.restrict reads).observation (fun _ => True) (fun engine => engine.catalog) ?_ trivial
  intro state call next _ readonly ran
  refine ⟨trivial, ?_⟩
  rw [(callStep_read readonly ran).same]

end

/-- The sessions are isolated in a state of the run.  A SELECT, whoever sends
it, returns an answer on the tables of a state with no open transaction, and
what the second session does during a transaction of the first that is rolled
back is as if it had been alone. -/
structure SessionsIsolated (host : ReadonlyHost) (depth : Nat)
    (start : SqlEngine) (calls : List Call) (engine : SqlEngine) : Prop where
  reads : ∀ sql result next, host.kind sql = .select → isReadonlySql host sql = true →
    routeAndExecute host depth sql engine = .ok result next →
    ∃ catalog, Committed host depth start calls catalog ∧
      AnswerOn host catalog (host.hashSql sql) result
  rollback : ∀ begin opened inside inner last closed alone, engine.txnManager.active = none →
    IsControl host .begin begin →
    engine.callStep host depth begin = some opened →
    Run (callStep host depth) (CallInside host)
        opened inside inner →
      IsControl host .rollback last →
        inner.callStep host depth last = some closed →
        Run (callStep host depth)
            anyStep engine (inside.filter fromOther) alone →
          closed.catalog = alone.catalog

/-- Along every run of calls that keep the sessions apart they are isolated. -/
theorem sessions_isolated {host : ReadonlyHost} {depth : Nat} {start engine : SqlEngine}
    {calls : List Call} (mode : start.mvccEnabled = false) (idle : start.txnManager.active = none)
    (fresh : ∀ key entry, start.resultCache.lookup key = some entry →
        AnswerOn host start.catalog key entry.result)
    (run : Run (callStep host depth) (IsolatedCall host) start calls engine) :
    SessionsIsolated host depth start calls engine := by
  have started : Committed host depth start [] start.catalog :=
    ⟨[], [], start, rfl, .nil _, idle, rfl⟩
  have clean : Clean host depth start ([] ++ calls) engine := by
    refine run.tracked (Clean host depth start) ?_ ?_
    · intro earlier state call next known isolated ran
      exact known.step isolated ran
    · exact ⟨.nil _, mode, started, fun key entry held =>
          ⟨start.catalog, started, fresh key entry held⟩⟩
  constructor
  · intro sql result next kind readonly answered
    unfold routeAndExecute at answered
    rw [if_pos readonly] at answered
    rcases executeReadonly_answer kind answered with
      ⟨entry, held, rfl⟩ | answer
    · exact clean.cache _ entry held
    · exact ⟨engine.catalog, clean.catalog, answer⟩
  · intro begin opened inside inner last closed alone isIdle begins opens
      insideRun ends closes aloneRun
    have isOpened := callStep_control rfl clean.mode begins (beginSnapshot_run isIdle) opens
    have openSince : OpenSince engine opened := by
      rw [isOpened]
      exact ⟨⟨_, rfl⟩, rfl⟩
    have innerOpen : OpenSince engine inner := by
      refine insideRun.invariant (OpenSince engine) ?_ openSince
      intro state call next isOpen sent ran
      exact openSince_callInside clean.mode isOpen sent ran
    obtain ⟨txn, active⟩ := innerOpen.opened
    have isClosed := callStep_control rfl (innerOpen.mode.trans clean.mode) ends
        (rollbackSnapshot_run active) closes
    rw [alone_catalog insideRun aloneRun, isClosed]
    exact innerOpen.catalog

/-! ### An INSERT of the other session -/

namespace Example

/-- A host that knows the INSERT and counts the rows of `t`. -/
def insertReader : ReadonlyHost :=
  { insertHost with
    readonlyQuery := fun sql =>
      if sql = countText then some fun catalog => .ok (countRows catalog) else none }

/-- The first session inserts a row and rolls back; the second counts the rows
meanwhile, and inserts one afterwards. -/
def interleaved : List Call :=
  [⟨.a, beginText⟩, ⟨.a, insertText⟩, ⟨.b, countText⟩, ⟨.a, rollbackText⟩, ⟨.b, insertText⟩]

def answered : SqlEngine :=
  (callStep insertReader 1 (insertedInto ∅ ∅ 0) ⟨.b, countText⟩).getD (engineWith ∅)

def insertedAfter : SqlEngine :=
  { answered.closed answered.catalog with
    catalog := answered.catalog.insert "t" grown
    resultCache := ∅ }

theorem sessions_isolated_interleaved :
    Run (callStep insertReader 1) (IsolatedCall insertReader) (engineWith ∅)
        interleaved insertedAfter ∧
      SessionsIsolated insertReader 1 (engineWith ∅) interleaved insertedAfter := by
  have parsed : insertReader.parse insertText = .dml insertNine := rfl
  have begins : callStep insertReader 1 (engineWith ∅) ⟨.a, beginText⟩ = some (begun ∅) := by
    have ran : routeAndExecute insertReader 1 beginText (engineWith ∅) = .ok empty (begun ∅) :=
      execute_beginText _ 1 ∅
    unfold callStep
    rw [ran]
  have inserts : callStep insertReader 1 (begun ∅) ⟨.a, insertText⟩ =
      some (insertedInto ∅ ∅ 0) := by
    have ran : routeAndExecute insertReader 1 insertText (begun ∅) =
        .ok { empty with rowCount := 1 } (insertedInto ∅ ∅ 0) := execute_insertText parsed rfl
    unfold callStep
    rw [ran]
  have counts : callStep insertReader 1 (insertedInto ∅ ∅ 0) ⟨.b, countText⟩ = some answered := rfl
  have rollsBack : callStep insertReader 1 answered ⟨.a, rollbackText⟩ =
      some (answered.closed answered.catalog) := by
    have ran : routeAndExecute insertReader 1 rollbackText answered =
        .ok empty (answered.closed answered.catalog) := execute_rollbackText 1 rfl rfl
    unfold callStep
    rw [ran]
  have insertsAgain : callStep insertReader 1 (answered.closed answered.catalog)
      ⟨.b, insertText⟩ = some insertedAfter := by
    have ran : routeAndExecute insertReader 1 insertText (answered.closed answered.catalog) =
        .ok { empty with rowCount := 1 } insertedAfter := execute_insertText_idle parsed rfl rfl rfl
    unfold callStep
    rw [ran]
  have confined : StatementConfined insertReader.toSqlHost (begun ∅) insertText :=
    ⟨rfl, rfl, rfl, fun _ _ => .inr (.inr rfl)⟩
  have run : Run (callStep insertReader 1) (IsolatedCall insertReader) (engineWith ∅)
      interleaved insertedAfter :=
    .cons (.control .begin rfl ⟨rfl, rfl, rfl⟩) begins
      (.cons (.inside nofun (.inr ⟨rfl, rfl, confined⟩)) inserts
      (.cons (.read rfl) counts
      (.cons (.control .rollback rfl ⟨rfl, rfl, rfl⟩) rollsBack
      (.cons (.idle rfl rfl ⟨.inl rfl, .inl ⟨_, parsed⟩, rfl⟩) insertsAgain (.nil _)))))
  refine ⟨run, sessions_isolated rfl rfl ?_ run⟩
  intro key entry held
  cases held

/-- The first session begins a transaction, the second inserts a row, the first
rolls back: the row is lost.  Alone, the second session keeps it. -/
theorem other_session_insert_lost : ∃ opened inserted closed alone,
      routeAndExecute insertReader 1 beginText (engineWith ∅) = .ok empty opened ∧
        routeAndExecute insertReader 1 insertText opened =
          .ok { empty with rowCount := 1 } inserted ∧
        routeAndExecute insertReader 1 rollbackText inserted = .ok empty closed ∧
        routeAndExecute insertReader 1 insertText (engineWith ∅) =
          .ok { empty with rowCount := 1 } alone ∧
        closed.catalog.lookup "t" = some oneColumn ∧
        alone.catalog.lookup "t" = some grown := by
  have parsed : insertReader.parse insertText = .dml insertNine := rfl
  have begins : routeAndExecute insertReader 1 beginText (engineWith ∅) = .ok empty (begun ∅) := by
    exact execute_beginText _ 1 ∅
  have inserts : routeAndExecute insertReader 1 insertText (begun ∅) =
        .ok { empty with rowCount := 1 } (insertedInto ∅ ∅ 0) := by
    exact execute_insertText parsed rfl
  have rollsBack := @execute_rollbackText insertReader.toSqlHost (insertedInto ∅ ∅ 0) _ 1 rfl rfl
  have alone : routeAndExecute insertReader 1 insertText (engineWith ∅) =
        .ok { empty with rowCount := 1 }
          { engineWith ∅ with
            catalog := (engineWith ∅).catalog.insert "t" grown } := by
    exact execute_insertText_idle parsed rfl rfl rfl
  exact ⟨_, _, _, _, begins, inserts, rollsBack, alone, lookup_insert _, lookup_insert _⟩

end Example

end TurboGP.Engine
