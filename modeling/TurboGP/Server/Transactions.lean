import TurboGP.Engine.OpenTransaction
import TurboGP.Engine.Savepoints
import TurboGP.Server.Stream

/-! # Transactions over the wire -/

namespace TurboGP.Server

open Sql.Text Engine Txn Effect GuardedRun QueryResult

/-! ## The steps of a client -/

/-- A statement of a simple query, a message of the extended protocol, or the
end of a query and a Sync message. -/
inductive WireStep
  | statement (wasTxn : Bool) (text : List Char)
  | message (msgType : UInt8) (buf : Bytes)
  | ready

section

variable (host : WireHost) (depth : Nat)

def WireStep.handle : WireStep → ConnM Unit
  | .statement wasTxn text => do
    let _ ← simpleStatement host depth wasTxn text
  | .message msgType buf => handleBody host depth msgType buf
  | .ready => sendReadyForQuery

/-- The connection after a step; a fault ends it. -/
def PgConn.step (conn : PgConn) (step : WireStep) : Option PgConn :=
  match step.handle host depth conn with
  | .ok _ next => some next
  | .error _ _ => none

/-- A statement that a simple query takes for transaction control. -/
def isSessionControl (text : List Char) : Bool :=
  let lower := toLowercase host.unicode (trim text)
  startsWith lower "begin".toList ||
    startsWith lower "start transaction".toList ||
    startsWith lower "commit".toList ||
    startsWith lower "rollback".toList

def isUserDdl (sql : List Char) : Bool :=
  let lower := toLowercase host.unicode (trim sql)
  startsWith lower "create user ".toList ||
    startsWith lower "drop user ".toList

/-- The text of the portal that an Execute message names, unless rows of it
are left to be sent. -/
def portalText (conn : PgConn) (buf : Bytes) : Option (List Char) :=
  match executeFields buf 0 with
  | .error _ _ => none
  | .ok (name, _) _ =>
    match conn.portals.lookup name with
    | none => none
    | some portal =>
      match portal.cachedResult with
      | some _ => none
      | none =>
        (conn.statements.lookup portal.stmtName).map
          (fun stmt => substituteParams host.toHost stmt.sql portal.params)

def WireStep.text (conn : PgConn) : WireStep → Option (List Char)
  | .statement _ text => if (trim text).isEmpty then none else some (trim text)
  | .message msgType buf => if msgType = 69 then portalText host conn buf else none
  | .ready => none

def WireStep.engineText (conn : PgConn) (step : WireStep) : Option (List Char) :=
  match step, step.text host conn with
  | .statement _ text, some sql =>
    if isSessionControl host text || isUserDdl host sql then none
    else some sql
  | _, some sql => if isUserDdl host sql then none else some sql
  | _, none => none

/-- What a text does to the engine: it is answered by the read-only path, or
executed when that refuses it. -/
def RanStatement (engine : SqlEngine) (sql : List Char) (next : SqlEngine) : Prop :=
  (∃ result, executeReadonly host.toReadonlyHost sql engine = .ok result next) ∨
    ∃ error looked, executeReadonly host.toReadonlyHost sql engine = .error (.error error) looked ∧
      looked.step host.toSqlHost depth sql = some next

end

/-! ## What reaches the engine -/

section

variable {host : WireHost} {depth : Nat} {conn next : PgConn}
  {sql : List Char}

theorem onEngine_returned {α : Type} {prog : SqlM α} {out : Except Error α}
    (returned : onEngine prog conn = .ok out next) :
    (∃ value, out = .ok value ∧ prog conn.engine = .ok value next.engine) ∨
      ∃ error, out = .error error ∧ prog conn.engine = .error (.error error) next.engine := by
  unfold onEngine at returned
  split at returned
  · next value engine ran =>
    cases returned
    exact .inl ⟨value, rfl, ran⟩
  · next error engine ran =>
    cases returned
    exact .inr ⟨error, rfl, ran⟩
  · cases returned
  · cases returned

theorem runStatement_returned {out : Except Error QueryResult}
    (ran : runStatement host depth sql conn = .ok out next) :
    RanStatement host depth conn.engine sql next.engine := by
  obtain ⟨readOutcome, looked, reads, rest⟩ := bind_eq_ok_iff.mp ran
  rcases onEngine_returned reads with
    ⟨result, rfl, answered⟩ | ⟨error, rfl, refused⟩
  · cases rest
    exact .inl ⟨result, answered⟩
  · refine .inr ⟨error, looked.engine, refused, ?_⟩
    unfold SqlEngine.step
    rcases onEngine_returned rest with
      ⟨value, _, executed⟩ | ⟨failure, _, executed⟩
    · rw [executed]
    · rw [executed]

theorem handleUserDdl_other (other : isUserDdl host sql = false) :
    handleUserDdl host sql conn = .ok none conn := by
  unfold isUserDdl at other
  rw [Bool.or_eq_false_iff] at other
  have notTaken : ∀ users salt, tryHandleUserDdl host users salt sql = none := by
    intro users salt
    unfold tryHandleUserDdl
    rw [if_neg (by rw [other.1]; decide), if_neg (by rw [other.2]; decide)]
  unfold handleUserDdl
  rw [get_bind_run, notTaken]
  rfl

theorem handleUserDdl_taken {out : Option UserDdlOutcome} (isUser : isUserDdl host sql = true)
    (ran : handleUserDdl host sql conn = .ok out next) : out ≠ none := by
  have taken : ∀ users salt, ∃ handled, tryHandleUserDdl host users salt sql = some handled := by
    intro users salt
    unfold tryHandleUserDdl
    simp only
    split
    · exact ⟨_, rfl⟩
    · next notCreate =>
      rw [if_pos ((Bool.or_eq_true_iff.mp isUser).resolve_left notCreate)]
      exact ⟨_, rfl⟩
  obtain ⟨handled, isHandled⟩ := taken conn.passwords (host.randomSalt conn.draws)
  unfold handleUserDdl at ran
  rw [get_bind_run, isHandled] at ran
  obtain ⟨result, middle, _, rest⟩ := bind_eq_ok_iff.mp ran
  cases result with
  | ok done | error error =>
    cases rest
    simp

/-- What a program does to the engine when it hands over a text, or none. -/
def Hands (host : WireHost) (depth : Nat) (conn : PgConn)
    (text : Option (List Char)) (next : PgConn) : Prop :=
  match text with
  | none => next.engine = conn.engine
  | some sql => RanStatement host depth conn.engine sql next.engine

variable {wasTxn goesOn : Bool}

theorem engineStatement_hands
    (returned : engineStatement host depth wasTxn sql conn = .ok goesOn next) :
    RanStatement host depth conn.engine sql next.engine := by
  obtain ⟨out, middle, ran, rest⟩ := bind_eq_ok_iff.mp returned
  have stays : Local middle next := by
    cases out with
    | error error => exact (local_failStatement _ _ _).reached rest
    | ok result =>
      refine Moves.reached (Moves.bind (local_sendRowDescription _) ?_) rest
      intro _ _ _
      refine .bind (local_sendDataRows _) fun _ _ _ => ?_
      exact .bind (local_send _) fun _ _ _ => .pure _
  rw [stays.engine]
  exact runStatement_returned ran

theorem handleUserDdl_hands {α : Type} {rest : Option UserDdlOutcome → ConnM α} {value : α}
    (isUser : isUserDdl host sql = true)
    (quiet : ∀ user middle, Moves Local middle (rest (some user)))
    (ran : (handleUserDdl host sql >>= rest) conn = .ok value next) :
    next.engine = conn.engine := by
  obtain ⟨out, middle, handled, ends⟩ := bind_eq_ok_iff.mp ran
  have begins := (local_handleUserDdl host sql).reached handled
  cases out with
  | none => exact absurd rfl (handleUserDdl_taken isUser handled)
  | some user => exact ((quiet user middle).reached ends).engine.trans begins.engine

theorem dataStatement_hands (ran : dataStatement host depth wasTxn sql conn = .ok goesOn next) :
    Hands host depth conn (if isUserDdl host sql then none else some sql) next := by
  cases isUser : isUserDdl host sql with
  | false =>
    unfold dataStatement at ran
    rw [bind_run_ok (handleUserDdl_other isUser)] at ran
    exact engineStatement_hands ran
  | true =>
    refine handleUserDdl_hands isUser (fun user middle => ?_) ran
    cases user with
    | ok tag => exact .bind (local_send _) fun _ _ _ => .pure _
    | err message => exact local_failStatement _ _ _

theorem isSessionControl_eq (text : List Char) : isSessionControl host text =
      ((startsWith (toLowercase host.unicode (trim text)) "begin".toList ||
          startsWith (toLowercase host.unicode (trim text)) "start transaction".toList) ||
        startsWith (toLowercase host.unicode (trim text)) "commit".toList ||
        startsWith (toLowercase host.unicode (trim text)) "rollback".toList) := rfl

theorem simpleStatement_hands {text : List Char}
    (ran : simpleStatement host depth wasTxn text conn = .ok goesOn next) :
    Hands host depth conn (WireStep.engineText host conn (.statement wasTxn text)) next := by
  have control : ∀ status tag, controlStatement status tag conn = .ok goesOn next →
        isSessionControl host text = true →
        Hands host depth conn
          (if isSessionControl host text || isUserDdl host (trim text)
            then none else some (trim text))
          next := by
    intro status tag controlled isControl
    rw [isControl, Bool.true_or, if_pos rfl]
    exact ((local_controlStatement status tag).reached controlled).engine
  unfold simpleStatement at ran
  unfold WireStep.engineText WireStep.text
  simp only at ran ⊢
  split at ran
  · next empty =>
    cases ran
    rw [if_pos empty]
    exact rfl
  · next notEmpty =>
    rw [if_neg notEmpty]
    simp only
    split at ran
    · next begins => exact control _ _ ran (by rw [isSessionControl_eq, begins]; rfl)
    split at ran
    · next commits =>
      refine control _ _ ran ?_
      rw [isSessionControl_eq, commits, Bool.or_true, Bool.true_or]
    split at ran
    · next rollsBack =>
      refine control _ _ ran ?_
      rw [isSessionControl_eq, rollsBack, Bool.or_true]
    · next notBegin notCommit notRollback =>
      have notControl : isSessionControl host text = false := by
        rw [isSessionControl_eq, Bool.eq_false_of_not_eq_true notBegin,
          Bool.eq_false_of_not_eq_true notCommit, Bool.eq_false_of_not_eq_true notRollback]
        rfl
      rw [notControl, Bool.false_or]
      exact dataStatement_hands ran

theorem executeStatementText_hands {name : List Char} {portal : Portal} {maxRows : Int}
    (returned : executeStatementText host depth name portal maxRows sql conn = .ok () next) :
    Hands host depth conn (if isUserDdl host sql then none else some sql) next := by
  cases isUser : isUserDdl host sql with
  | false =>
    unfold executeStatementText at returned
    rw [bind_run_ok (handleUserDdl_other isUser)] at returned
    obtain ⟨out, middle, ran, rest⟩ := bind_eq_ok_iff.mp returned
    have stays : Local middle next := by
      cases out with
      | ok result => exact (local_sendResult _ _ _ _ _).reached rest
      | error error => exact (local_send _).reached rest
    show RanStatement host depth conn.engine sql next.engine
    rw [stays.engine]
    exact runStatement_returned ran
  | true =>
    refine handleUserDdl_hands isUser (fun user middle => ?_) returned
    cases user with
    | ok tag | err message => exact local_send _

theorem handleExecute_hands {buf : Bytes} (ran : handleExecute host depth buf conn = .ok () next) :
    Hands host depth conn (WireStep.engineText host conn (.message 69 buf)) next := by
  obtain ⟨fields, middle, parsed, rest⟩ := bind_eq_ok_iff.mp ran
  unfold WireStep.engineText WireStep.text portalText
  simp only [if_true]
  unfold parseBody at parsed
  cases read : executeFields buf 0 with
  | error fault cursor =>
    rw [read] at parsed
    cases parsed
  | ok found cursor =>
    rw [read] at parsed
    cases parsed
    obtain ⟨name, maxRows⟩ := fields
    simp only at rest ⊢
    rw [get_bind_run] at rest
    cases isPortal : conn.portals.lookup name with
    | none =>
      rw [isPortal] at rest
      exact ((local_send _).reached rest).engine
    | some portal =>
      rw [isPortal] at rest
      simp only at rest ⊢
      cases isCached : portal.cachedResult with
      | some cached =>
        rw [isCached] at rest
        exact ((local_drainPortal _ _ _ _).reached rest).engine
      | none =>
        rw [isCached] at rest
        simp only at rest ⊢
        unfold executePortal at rest
        rw [get_bind_run] at rest
        cases isPrepared : conn.statements.lookup portal.stmtName with
        | none =>
          rw [isPrepared] at rest
          exact ((local_send _).reached rest).engine
        | some stmt =>
          rw [isPrepared] at rest
          exact executeStatementText_hands rest

theorem handleBody_local {msgType : UInt8} (buf : Bytes) (notExecute : msgType ≠ 69) :
    Moves Local conn (handleBody host depth msgType buf) := by
  unfold handleBody
  split
  · exact local_handleParse _
  split
  · exact local_handleBind host _
  split
  · exact local_handleDescribe _
  split
  · exact .bind (local_handleClose _) fun _ _ _ => local_send _
  · exact local_send _

theorem step_hands {step : WireStep} (stepped : conn.step host depth step = some next) :
    Hands host depth conn (step.engineText host conn) next := by
  unfold PgConn.step at stepped
  split at stepped
  swap
  · cases stepped
  · next value last out =>
    cases stepped
    cases step with
    | statement wasTxn text =>
      obtain ⟨goesOn, middle, ran, rest⟩ := bind_eq_ok_iff.mp out
      cases rest
      exact simpleStatement_hands ran
    | message msgType buf =>
      by_cases isExecute : msgType = 69
      · subst isExecute
        exact handleExecute_hands out
      · have stays := (handleBody_local buf isExecute).reached out
        unfold WireStep.engineText WireStep.text
        simp only
        rw [if_neg isExecute]
        exact stays.engine
    | ready => exact (local_sendReadyForQuery.reached out).engine

/-! ## Batches -/

theorem step_of_handle {step : WireStep} (handled : step.handle host depth conn = .ok () next) :
    conn.step host depth step = some next := by
  unfold PgConn.step
  rw [handled]

theorem simpleStatements_steps {stmts : List (List Char)}
    (returned : simpleStatements host depth wasTxn stmts conn = .ok () next) :
    ∃ done, done <+: stmts ∧
      Run (PgConn.step host depth) anyStep conn (done.map (WireStep.statement wasTxn)) next := by
  induction stmts generalizing conn with
  | nil =>
    cases returned
    exact ⟨[], List.nil_prefix, .nil _⟩
  | cons stmt rest ih =>
    obtain ⟨goesOn, middle, ran, later⟩ := bind_eq_ok_iff.mp returned
    have stepped : conn.step host depth (.statement wasTxn stmt) = some middle := by
      refine step_of_handle ?_
      show (simpleStatement host depth wasTxn stmt >>= _) conn = _
      rw [bind_run_ok ran]
      rfl
    cases goesOn with
    | true =>
      obtain ⟨done, isPrefix, run⟩ := ih later
      exact ⟨stmt :: done, List.cons_prefix_cons.mpr ⟨rfl, isPrefix⟩, .cons trivial stepped run⟩
    | false =>
      cases later
      exact
        ⟨[stmt], List.cons_prefix_cons.mpr ⟨rfl, List.nil_prefix⟩, .cons trivial stepped (.nil _)⟩

theorem handleSimpleQuery_steps (returned : handleSimpleQuery host depth sql conn = .ok () next) :
    ∃ done, done <+: splitSqlBatch sql ∧
      Run (PgConn.step host depth) anyStep conn
        (done.map (WireStep.statement (decide (conn.session.txn ≠ .idle))) ++ [.ready]) next := by
  unfold handleSimpleQuery at returned
  rw [get_bind_run] at returned
  obtain ⟨_, middle, ran, ends⟩ := bind_eq_ok_iff.mp returned
  obtain ⟨done, isPrefix, run⟩ := simpleStatements_steps ran
  exact ⟨done, isPrefix, run.append (.cons trivial (step_of_handle ends) (.nil _))⟩

end

/-! ## Transactions of the engine -/

def HandsKind (host : WireHost) (kind : StatementKind) (conn : PgConn) (step : WireStep) : Prop :=
  ∃ sql, step.engineText host conn = some sql ∧ host.kind sql = kind ∧
    conn.engine.resultCache.lookup (host.hashSql sql) = none

/-- A step inside a transaction: the session does not take it for transaction
control, and what it hands to the engine is confined to the transaction. -/
structure StepConfined (host : WireHost) (conn : PgConn) (step : WireStep) : Prop where
  notControl : ∀ wasTxn text, step = .statement wasTxn text → isSessionControl host text = false
  confined :
    ∀ sql, step.engineText host conn = some sql → StatementConfined host.toSqlHost conn.engine sql

/-- A step inside a transaction that hands over a savepoint or a DML
statement, which is not in the cache, or nothing. -/
structure SavepointStep (host : WireHost) (conn : PgConn) (step : WireStep) : Prop where
  notControl : ∀ wasTxn text, step = .statement wasTxn text → isSessionControl host text = false
  text : ∀ sql, step.engineText host conn = some sql →
      SavepointText host.toSqlHost sql ∧ host.NotControlText sql ∧
        conn.engine.resultCache.lookup (host.hashSql sql) = none

inductive Handed (host : WireHost) (depth : Nat) :
    PgConn → List WireStep → List (List Char) → PgConn → Prop
  | nil (conn : PgConn) : Handed host depth conn [] [] conn
  | cons {conn middle last : PgConn} {step : WireStep}
      {steps : List WireStep} {texts : List (List Char)}
      (stepped : conn.step host depth step = some middle)
      (rest : Handed host depth middle steps texts last) :
      Handed host depth conn (step :: steps) ((step.engineText host conn).toList ++ texts) last

section

variable {host : WireHost} {depth : Nat} {conn next : PgConn}
  {step : WireStep} {sql : List Char}

theorem executed_of_handed (handed : step.engineText host conn = some sql)
    (kind : (host.kind sql).isReadonly = false)
    (notCached : conn.engine.resultCache.lookup (host.hashSql sql) = none)
    (ran : conn.step host depth step = some next) :
    conn.engine.step host.toSqlHost depth sql = some next.engine := by
  have hands := step_hands ran
  rw [handed] at hands
  obtain ⟨error, refused⟩ :=
    @executeReadonly_refused host.toReadonlyHost conn.engine sql kind notCached
  rcases hands with ⟨result, answered⟩ | ⟨other, looked, failed, executed⟩
  · cases refused.symm.trans answered
  · cases refused.symm.trans failed
    exact executed

theorem control_executed {kind : StatementKind} {result : QueryResult} {after : SqlEngine}
    (hands : HandsKind host kind conn step) (isControl : kind.isControl = true)
    (mode : conn.engine.mvccEnabled = false)
    (succeeds : snapshotControl host.toSqlHost kind conn.engine = .ok result after)
    (ran : conn.step host depth step = some next) : next.engine = after := by
  obtain ⟨sql, handed, rfl, notCached⟩ := hands
  have notRead : (host.kind sql).isReadonly = false := by
    cases which : host.kind sql with
    | begin | commit | rollback => rfl
    | _ =>
      rw [which] at isControl
      cases isControl
  have executed := executed_of_handed handed notRead notCached ran
  unfold SqlEngine.step at executed
  rw [execute_control isControl mode, succeeds] at executed
  exact (Option.some.inj executed).symm

theorem openSince_step {start : SqlEngine} (mode : start.mvccEnabled = false)
    (isOpen : OpenSince start conn.engine) (confined : StepConfined host conn step)
    (ran : conn.step host depth step = some next) : OpenSince start next.engine := by
  have hands := step_hands ran
  cases handed : step.engineText host conn with
  | none =>
    rw [handed] at hands
    have same : next.engine = conn.engine := hands
    rw [same]
    exact isOpen
  | some sql =>
    rw [handed] at hands
    rcases hands with ⟨result, answered⟩ | ⟨error, looked, refused, executed⟩
    · exact isOpen.of_sameButCache (cache_executeReadonly.reached answered)
    · have same : SameButCache conn.engine looked := cache_executeReadonly.reached_error refused
      rw [SqlEngine.eq_finalState_of_step executed]
      exact (isOpen.of_sameButCache same).execute mode
        ((confined.confined sql handed).of_sameButCache same)

theorem handed_of_run {steps : List WireStep} {last : PgConn}
    (run : Run (PgConn.step host depth) (SavepointStep host) conn steps last) :
    ∃ texts, Handed host depth conn steps texts last ∧
      Run (SqlEngine.step host.toSqlHost depth)
        (fun _ sql => SavepointText host.toSqlHost sql ∧ host.NotControlText sql)
        conn.engine texts last.engine := by
  induction run with
  | nil conn => exact ⟨[], .nil conn, .nil _⟩
  | @cons conn middle last step steps allowed ran _ ih =>
    obtain ⟨texts, handed, engineRun⟩ := ih
    refine ⟨_, .cons ran handed, ?_⟩
    cases text : step.engineText host conn with
    | none =>
      have hands := step_hands ran
      rw [text] at hands
      have same : middle.engine = conn.engine := hands
      rw [← same]
      exact engineRun
    | some sql =>
      obtain ⟨isText, notControl, notCached⟩ := allowed.text sql text
      have notRead : (host.kind sql).isReadonly = false := by
        rcases isText.kind_cases with
          kind | kind | kind | kind | kind | kind <;> rw [kind] <;> rfl
      have executed := executed_of_handed text notRead notCached ran
      exact .cons ⟨isText, notControl⟩ executed engineRun

end

/-! ## Transactions of a client -/

/-- What a transaction is for a client, from the connection before its BEGIN
and the one after it.  After a ROLLBACK every table is as before the BEGIN.
After a COMMIT the tables are those of the transaction.  Statements on
savepoints act on the tables of the transaction as on a stack of checkpoints,
and do not end it. -/
structure RealTransaction (host : WireHost) (depth : Nat)
    (before opened : PgConn) : Prop where
  rollback : ∀ steps ran last closed, Run (PgConn.step host depth) (StepConfined host) opened
      steps ran →
    HandsKind host .rollback ran last →
      ran.step host depth last = some closed →
      closed.engine.catalog = before.engine.catalog ∧ closed.engine.txnManager.active = none
  commit : ∀ steps ran last closed, Run (PgConn.step host depth) (StepConfined host) opened
      steps ran →
    HandsKind host .commit ran last →
      ran.step host depth last = some closed →
      ∃ txn, ran.engine.txnManager.active = some txn ∧
        closed.engine.catalog = txn.snapshot ∧ closed.engine.txnManager.active = none
  savepoints : ∀ steps ran, Run (PgConn.step host depth) (SavepointStep host) opened
      steps ran →
    ∃ texts commands, Handed host depth opened steps texts ran ∧
      NestsAlong host.toSqlHost depth host.NotControlText
        opened.engine ran.engine
        { current := before.engine.catalog, saved := before.engine.savepoints.reverse }
              texts commands

/-- A transaction whose BEGIN, COMMIT and ROLLBACK reach the engine is one. -/
theorem wire_transaction_real {host : WireHost} {depth : Nat} {before opened : PgConn}
    {begin : WireStep} (mode : before.engine.mvccEnabled = false)
    (idle : before.engine.txnManager.active = none) (named : Named before.engine.catalog)
    (savedNamed : ∀ entry ∈ before.engine.savepoints, Named entry.2)
    (begins : HandsKind host .begin before begin)
    (opens : before.step host (depth + 1) begin = some opened) :
    RealTransaction host (depth + 1) before opened := by
  have isOpened := control_executed begins rfl mode (beginSnapshot_run idle) opens
  have openSince : OpenSince before.engine opened.engine := by
    rw [isOpened]
    exact ⟨⟨_, rfl⟩, rfl⟩
  have ranOpen : ∀ steps ran, Run (PgConn.step host (depth + 1)) (StepConfined host)
          opened steps ran →
        OpenSince before.engine ran.engine := by
    intro steps ran run
    refine run.invariant (fun conn => OpenSince before.engine conn.engine) ?_ openSince
    intro conn step next isOpen confined stepped
    exact openSince_step mode isOpen confined stepped
  constructor
  · intro steps ran last closed run hands closes
    have isOpen := ranOpen steps ran run
    obtain ⟨txn, active⟩ := isOpen.opened
    have isClosed :=
      control_executed hands rfl (isOpen.mode.trans mode) (rollbackSnapshot_run active) closes
    rw [isClosed]
    exact ⟨isOpen.catalog, rfl⟩
  · intro steps ran last closed run hands closes
    have isOpen := ranOpen steps ran run
    obtain ⟨txn, active⟩ := isOpen.opened
    have isClosed :=
      control_executed hands rfl (isOpen.mode.trans mode) (commitSnapshot_run active) closes
    rw [isClosed]
    exact ⟨txn, active, rfl, rfl⟩
  · intro steps ran run
    obtain ⟨texts, handed, engineRun⟩ := handed_of_run run
    have isOpen : opened.engine.checkpoints = some
            { current := before.engine.catalog, saved := before.engine.savepoints.reverse } := by
      rw [isOpened]
      unfold SqlEngine.checkpoints
      simp only [Option.map_some]
      rw [cloneCatalog_eq host.toSqlHost named]
    obtain ⟨commands, nests⟩ := nestsAlong_of_run (openSince.mode.trans mode) isOpen
        ⟨named, fun entry mem => savedNamed entry (List.mem_reverse.mp mem)⟩ engineRun
    exact ⟨texts, commands, handed, nests⟩

/-! ### A transaction that inserts a row -/

section

open Engine.Example

variable {host : WireHost} {depth : Nat} {conn : PgConn} {sql : List Char}

theorem runStatement_executed {result : QueryResult} {after : SqlEngine}
    (kind : (host.kind sql).isReadonly = false)
    (notCached : conn.engine.resultCache.lookup (host.hashSql sql) = none)
    (executes : execute host.toSqlHost depth sql conn.engine = .ok result after) :
    runStatement host depth sql conn = .ok (.ok result) { conn with engine := after } := by
  obtain ⟨error, refused⟩ :=
    @executeReadonly_refused host.toReadonlyHost conn.engine sql kind notCached
  have looked :
      onEngine (executeReadonly host.toReadonlyHost sql) conn = .ok (.error error) conn := by
    unfold onEngine
    rw [refused]
  unfold runStatement
  rw [bind_run_ok looked]
  show onEngine (execute host.toSqlHost depth sql) conn = _
  unfold onEngine
  rw [executes]

/-- A connection with the table `t`, whose unnamed portal is BEGIN. -/
def beginPortal : PgConn :=
  { PgConn.new [] (engineWith ∅) ∅ with
    statements := Finmap.insert [] { sql := beginText, paramOids := [] } ∅
    portals := Finmap.insert [] (Portal.new [] [] []) ∅ }

def executeUnnamed : WireStep := .message 69 [0, 0, 0, 0, 0]

theorem step_beginPortal (host : WireHost) (depth : Nat) : ∃ opened,
      beginPortal.step host depth executeUnnamed = some opened ∧ opened.engine = begun ∅ := by
  have executes : execute host.toSqlHost depth beginText (engineWith ∅) = .ok empty (begun ∅) :=
    execute_beginText host.toSqlHost depth ∅
  have ran : runStatement host depth beginText beginPortal =
        .ok (.ok empty) { beginPortal with engine := begun ∅ } := by
    refine runStatement_executed ?_ rfl executes
    rfl
  have notUser : handleUserDdl host beginText beginPortal = .ok none beginPortal :=
    handleUserDdl_other rfl
  have handled : ∃ opened, executeStatementText host depth [] (Portal.new [] [] []) 0 beginText
          beginPortal =
        .ok () opened ∧
      opened.engine = begun ∅ := by
    unfold executeStatementText
    rw [bind_run_ok notUser]
    simp only
    rw [bind_run_ok ran]
    exact ⟨_, rfl, rfl⟩
  obtain ⟨opened, returned, isOpened⟩ := handled
  exact ⟨opened, step_of_handle returned, isOpened⟩

/-- The transaction of that portal is one. -/
theorem wire_transaction_real_begin : ∃ opened,
      beginPortal.step (plainWireHost insertHost) 1 executeUnnamed = some opened ∧
        RealTransaction (plainWireHost insertHost) 1 beginPortal opened := by
  obtain ⟨opened, opens, _⟩ := step_beginPortal (plainWireHost insertHost) 1
  refine ⟨opened, opens, ?_⟩
  refine wire_transaction_real rfl rfl (named_engineWith ∅) ?_ ?_ opens
  · intro entry mem
    cases mem
  · exact ⟨beginText, rfl, kind_beginText _, rfl⟩

theorem simpleQuery_begin (host : WireHost) (depth : Nat) (conn : PgConn) :
    ∃ next, handleSimpleQuery host depth beginText conn = .ok () next ∧ next.engine = conn.engine :=
  ⟨_, rfl, rfl⟩

theorem simpleQuery_rollback (host : WireHost) (depth : Nat) (conn : PgConn) : ∃ next,
      handleSimpleQuery host depth rollbackText conn = .ok () next ∧ next.engine = conn.engine :=
  ⟨_, rfl, rfl⟩

theorem simpleQuery_insert {after : SqlEngine}
    (notCached : conn.engine.resultCache.lookup (host.hashSql insertText) = none)
    (executes : execute host.toSqlHost depth insertText conn.engine =
        .ok { empty with rowCount := 1 } after) :
    ∃ next, handleSimpleQuery host depth insertText conn = .ok () next ∧ next.engine = after := by
  have notRead : (host.kind insertText).isReadonly = false := by
    rfl
  have ran := runStatement_executed notRead notCached executes
  have stmt : ∀ wasTxn, ∃ next, simpleStatement host depth wasTxn insertText conn = .ok true next ∧
        next.engine = after := by
    intro wasTxn
    have isData : simpleStatement host depth wasTxn insertText =
        dataStatement host depth wasTxn insertText := by rfl
    have notUser : handleUserDdl host insertText conn = .ok none conn := handleUserDdl_other rfl
    rw [isData]
    unfold dataStatement
    rw [bind_run_ok notUser]
    simp only
    unfold engineStatement
    rw [bind_run_ok ran]
    exact ⟨_, rfl, rfl⟩
  obtain ⟨middle, handled, isMiddle⟩ := stmt (decide (conn.session.txn ≠ .idle))
  have single : splitSqlBatch insertText = [insertText] := by decide
  have batch : simpleStatements host depth (decide (conn.session.txn ≠ .idle)) [insertText] conn =
      .ok () middle := by
    unfold simpleStatements
    rw [bind_run_ok handled]
    rfl
  unfold handleSimpleQuery
  rw [get_bind_run, single, bind_run_ok batch]
  exact ⟨_, rfl, isMiddle⟩

/-- The same three statements sent as simple queries: the row stays. -/
theorem simple_rollback_keeps_row : ∃ opened inserted closed,
      handleSimpleQuery (plainWireHost insertHost) 1 beginText (PgConn.new [] (engineWith ∅) ∅) =
          .ok () opened ∧
        handleSimpleQuery (plainWireHost insertHost) 1 insertText opened = .ok () inserted ∧
        handleSimpleQuery (plainWireHost insertHost) 1 rollbackText inserted = .ok () closed ∧
        (engineWith ∅).catalog.lookup "t" = some oneColumn ∧
        closed.engine.catalog.lookup "t" = some grown := by
  let host := plainWireHost insertHost
  obtain ⟨opened, begins, isOpened⟩ := simpleQuery_begin host 1 (PgConn.new [] (engineWith ∅) ∅)
  have openedEngine : opened.engine = engineWith ∅ := isOpened
  have executes : execute insertHost 1 insertText opened.engine = .ok { empty with rowCount := 1 }
          { engineWith ∅ with
            catalog := (engineWith ∅).catalog.insert "t" grown } := by
    rw [openedEngine]
    exact execute_insertText_idle rfl rfl rfl rfl
  have notCached : opened.engine.resultCache.lookup (host.hashSql insertText) = none := by
    rw [openedEngine]
    rfl
  obtain ⟨inserted, inserts, isInserted⟩ := @simpleQuery_insert host 1 opened _ notCached executes
  obtain ⟨closed, closes, isClosed⟩ := simpleQuery_rollback host 1 inserted
  refine ⟨opened, inserted, closed, begins, inserts, closes, ?_, ?_⟩
  · exact Finmap.lookup_insert _
  · rw [isClosed, isInserted]
    exact Finmap.lookup_insert _

end

end TurboGP.Server
