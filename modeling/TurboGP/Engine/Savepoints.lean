import TurboGP.Engine.SnapshotRollback
import TurboGP.Lib.Checkpoints

/-!
# Savepoints of a snapshot transaction

The savepoints of an open transaction are a stack of named checkpoints of the
transaction's catalog, as long as `execute` does not take a text for one that
ends the transaction: a ROLLBACK TO whose words are not separated by single
blanks is a ROLLBACK to it.
-/

namespace TurboGP.Engine

open Datasource Sql Sql.Text Txn Effect SqlEngine QueryResult GuardedRun
open Checkpoints Option

def SqlEngine.checkpoints (engine : SqlEngine) : Option (Stack (List Char) Catalog) :=
  engine.txnManager.active.map
    (fun txn => { current := txn.snapshot, saved := engine.savepoints.reverse })

/-- A SAVEPOINT, a ROLLBACK TO, a RELEASE, or an INSERT, UPDATE or DELETE that
is parsed as such or does not parse. -/
def SavepointText (host : SqlHost) (sql : List Char) : Prop :=
  match host.kind sql with
  | .savepoint | .rollbackTo | .release => True
  | .insert | .update | .delete =>
    match host.parse sql with
    | .dml _ | .malformed _ => True
    | _ => False
  | _ => False

def CommandFor (host : SqlHost) (sql : List Char) (command : Command (List Char) Catalog) : Prop :=
  match host.kind sql with
  | .savepoint => command = .save (savepointName sql)
  | .rollbackTo => command = .restore (rollbackToName sql)
  | .release => command = .discard (savepointName sql)
  | _ => ∃ catalog, command = .change catalog

variable {savepoints : List (List Char × Catalog)} {name : List Char}

theorem savepointPosition_none (absent : savepointPosition savepoints name = none) :
    since name savepoints.reverse = [] := by
  unfold savepointPosition at absent
  rw [map_eq_none_iff, List.findIdx?_eq_none_iff] at absent
  refine since_eq_nil_iff.mpr fun entry mem => ?_
  exact beq_eq_false_iff_ne.mp (absent entry mem)

theorem savepointPosition_some {pos : Nat} (found : savepointPosition savepoints name = some pos) :
    ∃ entry, savepoints[pos]? = some entry ∧
      since name savepoints.reverse = (savepoints.take (pos + 1)).reverse ∧
      since name savepoints.reverse = entry :: (savepoints.take pos).reverse := by
  unfold savepointPosition at found
  simp only [beq_eq_decide] at found
  obtain ⟨i, isIndex, isPos⟩ := map_eq_some_iff.mp found
  subst isPos
  exact since_reverse_eq isIndex

section

variable {host : SqlHost} {engine : SqlEngine} {txn : Transaction}
  {sql : List Char} {depth : Nat}

theorem SavepointText.of_isSavepoint (isSavepoint : (host.kind sql).isSavepoint = true) :
    SavepointText host sql := by
  unfold SavepointText
  cases kind : host.kind sql with
  | savepoint | rollbackTo | release => trivial
  | _ => exact absurd (kind ▸ isSavepoint) (by decide)

theorem SavepointText.kind_cases (text : SavepointText host sql) :
    host.kind sql = .savepoint ∨ host.kind sql = .rollbackTo ∨
      host.kind sql = .release ∨ host.kind sql = .insert ∨
        host.kind sql = .update ∨ host.kind sql = .delete := by
  unfold SavepointText at text
  cases kind : host.kind sql with
  | savepoint | rollbackTo | release | insert | update | delete => simp
  | _ => rw [kind] at text; exact text.elim

theorem execute_savepointText (mode : engine.mvccEnabled = false)
    (active : engine.txnManager.active = some txn) (text : SavepointText host sql)
    (notControl : host.isControlText sql = false) :
    execute host (depth + 1) sql engine = inSnapshot txn
        (executeUncached host (executeInner host depth) depth sql (some txn.id))
        (engine.invalidatedFor (host.kind sql)) := by
  have facts : (host.kind sql).isQuery = false ∧ (host.kind sql == .select) = false ∧
      (host.kind sql).isByText = true := by
    rcases text.kind_cases with kind | kind | kind | kind | kind | kind <;> rw [kind] <;> decide
  obtain ⟨notQuery, notSelect, byText⟩ := facts
  have notMvcc : ¬ (engine.invalidatedFor (host.kind sql)).mvccEnabled = true := by
    unfold invalidatedFor
    split <;> simp [mode]
  have stillActive : (engine.invalidatedFor (host.kind sql)).txnManager.active = some txn := by
    unfold invalidatedFor
    split <;> exact active
  have inner : executeInner host (depth + 1) sql (some txn.id) =
      executeUncached host (executeInner host depth) depth sql (some txn.id) := by
    show executeInnerVia host _ depth sql (some txn.id) = _
    unfold executeInnerVia
    rw [notSelect]
    rfl
  rw [execute_eq_invalidated _ notQuery,
    executeByKind_of_isByText _ byText notControl, get_bind_run, if_neg notMvcc]
  unfold executeRouted
  rw [get_bind_run, stillActive]
  simp only
  rw [inner]

/-- The transaction is open with these checkpoints, and the engine's own
catalog is the same. -/
structure Reaches (engine after : SqlEngine)
    (stack : Stack (List Char) Catalog) : Prop where
  checkpoints : after.checkpoints = some stack
  sameMode : after.mvccEnabled = engine.mvccEnabled
  sameCatalog : after.catalog = engine.catalog

variable {stack : Stack (List Char) Catalog}

theorem Reaches.of_resumed {kind : StatementKind} {after : SqlEngine}
    (current : after.catalog = stack.current) (saved : after.savepoints.reverse = stack.saved)
    (sameMode : after.mvccEnabled = engine.mvccEnabled) :
    Reaches engine ((engine.invalidatedFor kind).resumed txn after) stack := by
  refine ⟨?_, sameMode, ?_⟩
  · show some ({ current := after.catalog, saved := after.savepoints.reverse } :
        Stack (List Char) Catalog) = some stack
    rw [current, saved]
  · unfold invalidatedFor
    split <;> rfl

theorem inside_invalidatedFor (kind : StatementKind) :
    ((engine.invalidatedFor kind).inside txn).catalog = txn.snapshot ∧
      ((engine.invalidatedFor kind).inside txn).savepoints = engine.savepoints ∧
      ((engine.invalidatedFor kind).inside txn).mvccEnabled = engine.mvccEnabled := by
  unfold invalidatedFor
  split <;> exact ⟨rfl, rfl, rfl⟩

/-- A program that does to the engine what the command does to the checkpoints,
and is refused when the command is. -/
structure Does (prog : SqlM QueryResult) (engine : SqlEngine) (stack : Stack (List Char) Catalog)
    (command : Command (List Char) Catalog) : Prop where
  done : ∀ next, stack.step command = some next → ∃ savepoints,
    prog engine = .ok empty { engine with catalog := next.current, savepoints := savepoints } ∧
      savepoints.reverse = next.saved
  refused : stack.step command = none → ∃ error, prog engine = .error (.error error) engine

theorem executeRollbackTo_does {name : List Char} (named : stack.All Named)
    (saved : engine.savepoints.reverse = stack.saved) :
    Does (executeRollbackTo host name) engine stack (.restore name) := by
  cases position : savepointPosition engine.savepoints name with
  | none =>
    have absent := savepointPosition_none position
    rw [saved] at absent
    refine ⟨fun next ran => ?_, fun _ => ⟨savepointNotFound name, ?_⟩⟩
    · cases (Stack.step_restore_nil absent).symm.trans ran
    unfold executeRollbackTo
    rw [get_bind_run, position]
    rfl
  | some pos =>
    obtain ⟨entry, atPos, taken, found⟩ := savepointPosition_some position
    have isNamed : Named entry.2 := by
      refine named.2 entry ?_
      rw [← saved]
      exact mem_of_mem_since (found ▸ List.mem_cons_self)
    have indexed : index engine.savepoints pos = .ok entry := by
      unfold index
      rw [atPos]
    have reversed := taken.symm.trans found
    rw [saved] at found
    have step := Stack.step_restore_cons found
    refine ⟨fun next ran => ?_, fun none => by cases step.symm.trans none⟩
    cases step.symm.trans ran
    refine ⟨engine.savepoints.take (pos + 1), ?_, reversed⟩
    unfold executeRollbackTo
    rw [get_bind_run, position]
    simp only
    rw [indexed]
    show EStateM.Result.ok _
      ({ engine with
        catalog := cloneCatalog host entry.2
        savepoints := engine.savepoints.take (pos + 1) } : SqlEngine) = _
    rw [cloneCatalog_eq host isNamed]

theorem executeReleaseSavepoint_does {name : List Char} (current : engine.catalog = stack.current)
    (saved : engine.savepoints.reverse = stack.saved) :
    Does (executeReleaseSavepoint name) engine stack (.discard name) := by
  cases position : savepointPosition engine.savepoints name with
  | none =>
    have absent := savepointPosition_none position
    rw [saved] at absent
    refine ⟨fun next ran => ?_, fun _ => ⟨savepointNotFound name, ?_⟩⟩
    · cases (Stack.step_discard_nil absent).symm.trans ran
    unfold executeReleaseSavepoint
    rw [get_bind_run, position]
    rfl
  | some pos =>
    obtain ⟨entry, -, -, found⟩ := savepointPosition_some position
    rw [saved] at found
    have step := Stack.step_discard_cons found
    refine ⟨fun next ran => ?_, fun none => by cases step.symm.trans none⟩
    cases step.symm.trans ran
    refine ⟨engine.savepoints.take pos, ?_, rfl⟩
    unfold executeReleaseSavepoint
    rw [get_bind_run, position, ← current]
    rfl

theorem executeSavepoint_does {name : List Char} (named : stack.All Named)
    (current : engine.catalog = stack.current) (saved : engine.savepoints.reverse = stack.saved) :
    Does (executeSavepoint host name) engine stack (.save name) := by
  refine ⟨fun next ran => ?_, fun impossible => by cases impossible⟩
  cases ran
  refine ⟨engine.savepoints ++ [(name, engine.catalog)], ?_, ?_⟩
  · have isNamed : Named engine.catalog := by
      rw [current]
      exact named.1
    show EStateM.Result.ok _
      ({ engine with
        savepoints :=
          engine.savepoints ++ [(name, cloneCatalog host engine.catalog)] } : SqlEngine) = _
    rw [cloneCatalog_eq host isNamed, ← current]
  · rw [List.reverse_append, saved, ← current]
    rfl

/-- A savepoint statement does what its command does to the checkpoints, and
is refused when the command is. -/
theorem execute_command {stack : Stack (List Char) Catalog}
    {command : Command (List Char) Catalog} (mode : engine.mvccEnabled = false)
    (opened : engine.checkpoints = some stack) (named : stack.All Named)
    (isSavepoint : (host.kind sql).isSavepoint = true)
    (notControl : host.isControlText sql = false) (means : CommandFor host sql command) :
    (∀ next, stack.step command = some next →
      ∃ after, execute host (depth + 1) sql engine = .ok empty after ∧ Reaches engine after next) ∧
      (stack.step command = none → ∃ error after,
          execute host (depth + 1) sql engine = .error (.error error) after ∧
            Reaches engine after stack) := by
  obtain ⟨txn, active, isStack⟩ := map_eq_some_iff.mp opened
  have text := SavepointText.of_isSavepoint isSavepoint
  rw [execute_savepointText mode active text notControl]
  let inside := (engine.invalidatedFor (host.kind sql)).inside txn
  obtain ⟨insideCatalog, insideSavepoints, insideMode⟩ :=
    @inside_invalidatedFor engine txn (host.kind sql)
  have current : inside.catalog = stack.current := by
    rw [← isStack]
    exact insideCatalog
  have saved : inside.savepoints.reverse = stack.saved := by
    rw [← isStack]
    exact congrArg List.reverse insideSavepoints
  have does : Does (executeUncached host (executeInner host depth) depth sql (some txn.id)) inside
      stack command := by
    unfold CommandFor at means
    unfold executeUncached
    cases kind : host.kind sql with
    | savepoint =>
      rw [kind] at means
      subst means
      exact executeSavepoint_does named current saved
    | rollbackTo =>
      rw [kind] at means
      subst means
      exact executeRollbackTo_does named saved
    | release =>
      rw [kind] at means
      subst means
      exact executeReleaseSavepoint_does current saved
    | _ => exact absurd (kind ▸ isSavepoint) (by decide)
  refine ⟨fun next stepped => ?_, fun none => ?_⟩
  · obtain ⟨savepoints, ran, savedNext⟩ := does.done next stepped
    exact ⟨_, inSnapshot_ok ran, .of_resumed rfl savedNext insideMode⟩
  · obtain ⟨error, ran⟩ := does.refused none
    exact ⟨error, _, inSnapshot_error ran, .of_resumed current saved insideMode⟩

structure DmlKeeps (old new : SqlEngine) : Prop where
  sameSavepoints : new.savepoints = old.savepoints
  sameMode : new.mvccEnabled = old.mvccEnabled
  named : Named old.catalog → Named new.catalog

instance : IsPreorder SqlEngine DmlKeeps where
  refl := fun _ => ⟨rfl, rfl, id⟩
  trans := fun _ _ _ first second =>
    ⟨second.sameSavepoints.trans first.sameSavepoints,
      second.sameMode.trans first.sameMode, fun named => second.named (first.named named)⟩

theorem DmlKeeps.of_sameButClock (old new : SqlEngine) (same : SameButClock old new) :
    DmlKeeps old new := by
  rw [same]
  exact ⟨rfl, rfl, id⟩

theorem dmlKeeps_of_engineMoves {versioned : String → Prop} {new : QueryEngine}
    (moved : EngineMoves versioned (fun _ => SameIdentity) engine.toQueryEngine new) :
    DmlKeeps engine { engine with toQueryEngine := new } := by
  refine ⟨moved.sameSavepoints, moved.sameMode, fun named => ?_⟩
  intro name table held
  cases before : engine.catalog.lookup name with
  | none =>
    have stillAbsent := moved.absent name before
    cases stillAbsent.symm.trans held
  | some old =>
    obtain ⟨changed, inNew, same⟩ := moved.tables name old before
    have isChanged : changed = table := some.inj (inNew.symm.trans held)
    rw [← isChanged, same.name]
    exact named name old before

theorem dmlKeeps_executeDml (stmt : DmlStatement) (txnId : Option Nat)
    (mode : engine.mvccEnabled = false) :
    Moves DmlKeeps engine (onCore (executeDml host.toHost depth stmt txnId)) := by
  unfold Moves
  rw [finalState_onCore]
  exact dmlKeeps_of_engineMoves (moves_executeDml_snapshot host.toHost depth txnId mode
    (sidecarsWithin_all engine.toQueryEngine stmt))

theorem dmlKeeps_executeStatement (inner : List Char → Option Nat → SqlM QueryResult)
    (txnId : Option Nat) (mode : engine.mvccEnabled = false)
    (isDml : (∃ stmt, host.parse sql = .dml stmt) ∨ ∃ error, host.parse sql = .malformed error) :
    Moves DmlKeeps engine (executeStatement host inner depth sql txnId) := by
  refine .bind
    ((clock_systemTimeRows sql).weaken .of_sameButClock) fun rows looked looking => ?_
  have same : SameButClock engine looked := (clock_systemTimeRows sql).reached looking
  have lookedMode : looked.mvccEnabled = false := by
    rw [same]
    exact mode
  cases rows with
  | some res => exact .pure _
  | none =>
    rcases isDml with ⟨stmt, parsed⟩ | ⟨error, parsed⟩
    · rw [parsed]
      exact dmlKeeps_executeDml stmt txnId lookedMode
    · rw [parsed]
      exact .throw _

theorem SavepointText.isDml (text : SavepointText host sql)
    (notSavepoint : (host.kind sql).isSavepoint = false) :
    (∃ stmt, host.parse sql = .dml stmt) ∨
      ∃ error, host.parse sql = .malformed error := by
  have parsed :
      match host.parse sql with
      | .dml _ | .malformed _ => True
      | _ => False := by
    have kinds := text.kind_cases
    unfold SavepointText at text
    rcases kinds with kind | kind | kind | kind | kind | kind
    · rw [kind] at notSavepoint; cases notSavepoint
    · rw [kind] at notSavepoint; cases notSavepoint
    · rw [kind] at notSavepoint; cases notSavepoint
    all_goals
      rw [kind] at text
      exact text
  cases stmt : host.parse sql with
  | dml found => exact .inl ⟨found, rfl⟩
  | malformed error => exact .inr ⟨error, rfl⟩
  | _ => rw [stmt] at parsed; exact parsed.elim

theorem reaches_dml {stack : Stack (List Char) Catalog} (mode : engine.mvccEnabled = false)
    (opened : engine.checkpoints = some stack) (named : stack.All Named)
    (text : SavepointText host sql) (notSavepoint : (host.kind sql).isSavepoint = false)
    (notControl : host.isControlText sql = false) :
    ∃ catalog, Named catalog ∧
      Reaches engine (finalState (execute host (depth + 1) sql) engine)
        { stack with current := catalog } := by
  obtain ⟨txn, active, isStack⟩ := map_eq_some_iff.mp opened
  let inside := (engine.invalidatedFor (host.kind sql)).inside txn
  obtain ⟨insideCatalog, insideSavepoints, insideMode⟩ :=
    @inside_invalidatedFor engine txn (host.kind sql)
  have keeps : DmlKeeps inside (finalState
        (executeUncached host (executeInner host depth) depth sql (some txn.id)) inside) := by
    rw [executeUncached_eq _ _ _ notSavepoint]
    exact dmlKeeps_executeStatement _ _ (insideMode.trans mode) (text.isDml notSavepoint)
  have insideNamed : Named inside.catalog := by
    have current := named.1
    rw [← isStack] at current
    exact current
  refine ⟨_, keeps.named insideNamed, ?_⟩
  have ran : finalState (execute host (depth + 1) sql) engine = finalState
      (inSnapshot txn (executeUncached host (executeInner host depth) depth sql (some txn.id)))
      (engine.invalidatedFor (host.kind sql)) := by
    unfold finalState
    rw [execute_savepointText mode active text notControl]
  rw [ran, finalState_inSnapshot]
  refine .of_resumed rfl ?_ (keeps.sameMode.trans insideMode)
  rw [keeps.sameSavepoints, ← isStack]
  exact congrArg List.reverse insideSavepoints

theorem step_savepointText {next : SqlEngine} (mode : engine.mvccEnabled = false)
    (opened : engine.checkpoints = some stack) (named : stack.All Named)
    (text : SavepointText host sql) (notControl : host.isControlText sql = false)
    (stepped : engine.step host (depth + 1) sql = some next) :
    ∃ command, CommandFor host sql command ∧
      Reaches engine next (stack.after command) ∧ (stack.after command).All Named := by
  by_cases isSavepoint : (host.kind sql).isSavepoint = true
  · have hasCommand :
        ∃ command, CommandFor host sql command ∧ ∀ catalog, command ≠ .change catalog := by
      unfold CommandFor
      cases kind : host.kind sql with
      | savepoint | rollbackTo | release => exact ⟨_, rfl, fun _ isChange => by cases isChange⟩
      | _ => exact absurd (kind ▸ isSavepoint) (by decide)
    obtain ⟨command, means, notChange⟩ := hasCommand
    obtain ⟨succeeded, refused⟩ :=
      @execute_command host engine sql depth stack command mode opened named
        isSavepoint notControl means
    refine ⟨command, means, ?_⟩
    unfold step at stepped
    unfold Stack.after
    cases out : stack.step command with
    | none =>
      obtain ⟨error, after, ran, reached⟩ := refused out
      rw [ran] at stepped
      cases stepped
      exact ⟨reached, named⟩
    | some changed =>
      obtain ⟨after, ran, reached⟩ := succeeded changed out
      rw [ran] at stepped
      cases stepped
      refine ⟨reached, named.step out fun state isChange => ?_⟩
      exact absurd isChange (notChange state)
  · have notSavepoint := Bool.eq_false_of_not_eq_true isSavepoint
    obtain ⟨catalog, namedCatalog, reached⟩ :=
      @reaches_dml host engine sql depth stack mode opened named text notSavepoint notControl
    rw [← eq_finalState_of_step stepped] at reached
    refine ⟨.change catalog, ?_, reached, namedCatalog, named.2⟩
    unfold CommandFor
    cases kind : host.kind sql with
    | savepoint | rollbackTo | release =>
      rw [kind] at notSavepoint
      cases notSavepoint
    | _ => exact ⟨catalog, rfl⟩

end

/-- The texts of a run, told as commands on the checkpoints.  The run ends
with the checkpoints that the commands lead to; a further savepoint statement
fails exactly when its command is refused; every savepoint holds the catalog
that was current at its SAVEPOINT; and a savepoint that was rolled back to can
be rolled back to again. -/
structure NestsAlong (host : SqlHost) (depth : Nat)
    (allowed : List Char → Prop) (start ran : SqlEngine)
    (opened : Stack (List Char) Catalog) (texts : List (List Char))
    (commands : List (Command (List Char) Catalog)) : Prop where
  means : List.Forall₂ (CommandFor host) texts commands
  reaches : Reaches start ran (opened.run commands)
  refused : ∀ sql command, (host.kind sql).isSavepoint = true → allowed sql →
      CommandFor host sql command →
      ((∃ fault after, execute host depth sql ran = .error fault after) ↔
        (opened.run commands).step command = none)
  saved : ∀ entry ∈ (opened.run commands).saved, entry ∈ opened.saved ∨
    ∃ earlier later,
      commands = earlier ++ .save entry.1 :: later ∧ (opened.run earlier).current = entry.2
  again : ∀ name next, (opened.run commands).step (.restore name) = some next →
      next.step (.restore name) = some next

/-- The texts that `execute` does not take for others. -/
def SqlHost.NotControlText (host : SqlHost) (sql : List Char) : Prop :=
  host.isControlText sql = false

theorem nestsAlong_of_run {host : SqlHost} {depth : Nat} {start ran : SqlEngine}
    {opened : Stack (List Char) Catalog} {texts : List (List Char)}
    (mode : start.mvccEnabled = false) (isOpen : start.checkpoints = some opened)
    (named : opened.All Named)
    (run : Run (step host (depth + 1))
        (fun _ sql => SavepointText host sql ∧ host.NotControlText sql) start texts ran) :
    ∃ commands,
      NestsAlong host (depth + 1) host.NotControlText start ran opened texts commands := by
  -- What is known of a state of the run, from the commands so far.
  let known : SqlEngine → List (Command (List Char) Catalog) → Prop :=
    fun engine commands =>
      Reaches start engine (opened.run commands) ∧ (opened.run commands).All Named
  have stepKnown : ∀ engine sql next commands, known engine commands →
      SavepointText host sql ∧ host.NotControlText sql →
      engine.step host (depth + 1) sql = some next →
        ∃ command, CommandFor host sql command ∧ known next (commands ++ [command]) := by
    rintro engine sql next commands ⟨reached, allNamed⟩ ⟨text, notControl⟩ stepped
    obtain ⟨command, means, nextReached, nextNamed⟩ :=
      step_savepointText (reached.sameMode.trans mode) reached.checkpoints
        allNamed text notControl stepped
    refine ⟨command, means, ?_⟩
    show Reaches start next (opened.run (commands ++ [command])) ∧
      (opened.run (commands ++ [command])).All Named
    rw [Stack.run_concat]
    exact ⟨⟨nextReached.checkpoints, nextReached.sameMode.trans reached.sameMode,
      nextReached.sameCatalog.trans reached.sameCatalog⟩, nextNamed⟩
  have initially : known start [] := ⟨⟨isOpen, rfl, rfl⟩, named⟩
  obtain ⟨commands, means, reached, allNamed⟩ :=
    run.labelled (CommandFor host) known stepKnown initially
  refine ⟨commands, means, reached, ?_, ?_, ?_⟩
  · intro sql command isSavepoint notControl isCommand
    obtain ⟨succeeded, failed⟩ := @execute_command host ran sql depth _ command
        (reached.sameMode.trans mode) reached.checkpoints allNamed isSavepoint notControl isCommand
    constructor
    · rintro ⟨fault, after, ran⟩
      cases out : (opened.run commands).step command with
      | none => rfl
      | some next =>
        obtain ⟨other, returned, -⟩ := succeeded next out
        cases ran.symm.trans returned
    · intro out
      obtain ⟨error, after, ran, -⟩ := failed out
      exact ⟨_, after, ran⟩
  · exact fun entry mem => Stack.mem_saved_run mem
  · exact fun name next restored => Stack.restore_again restored

/-- Savepoint and DML statements of an open transaction act on its savepoints
as on a stack of named checkpoints. -/
theorem savepoints_nest {host : SqlHost} {depth : Nat} {start ran : SqlEngine}
    {opened : Stack (List Char) Catalog} {texts : List (List Char)}
    (mode : start.mvccEnabled = false) (isOpen : start.checkpoints = some opened)
    (named : opened.All Named)
    (run : Run (step host (depth + 1))
        (fun _ sql => SavepointText host sql ∧ host.NotControlText sql) start texts ran) :
    ∃ commands, NestsAlong host (depth + 1) host.NotControlText start ran opened texts commands :=
  nestsAlong_of_run mode isOpen named run

namespace Example

def savepointText : List Char := "SAVEPOINT a".toList

def rollbackToText : List Char := "ROLLBACK TO a".toList

def wideRollbackToText : List Char := "ROLLBACK  TO a".toList

theorem kind_savepointText (host : SqlHost) : host.kind savepointText = .savepoint := by rfl

theorem kind_wideRollbackToText (host : SqlHost) :
    host.kind wideRollbackToText = .rollbackTo := by rfl

def unsaved : Stack (List Char) Catalog :=
  { current := (engineWith ∅).catalog, saved := [] }

def savedOnce : Stack (List Char) Catalog :=
  { unsaved with saved := [("a".toList, (engineWith ∅).catalog)] }

theorem named_unsaved : unsaved.All Named := by
  refine ⟨named_engineWith ∅, fun entry mem => ?_⟩
  cases mem

def markedEngine (count : Nat) : SqlEngine :=
  { begun ∅ with
    savepoints := List.replicate count ("a".toList, (engineWith ∅).catalog) }

def markedInserted : SqlEngine :=
  { insertedInto ∅ ∅ 0 with
    savepoints := [("a".toList, (engineWith ∅).catalog)] }

def begunTxn : Transaction :=
  { id := 1, snapshot := (engineWith ∅).catalog }

def insertedTxn : Transaction :=
  { id := 1, snapshot := (engineWith ∅).catalog.insert "t" grown }

theorem execute_savepoint_marked (count : Nat) :
    execute insertHost 1 savepointText (markedEngine count) =
      .ok empty (markedEngine (count + 1)) := by
  have saves : executeUncached insertHost (executeInner insertHost 0) 0 savepointText
          (some 1) ((markedEngine count).inside begunTxn) =
        .ok empty
          { (markedEngine count).inside begunTxn with
            savepoints := List.replicate count ("a".toList, (engineWith ∅).catalog) ++
              [("a".toList, cloneCatalog insertHost (engineWith ∅).catalog)] } := by
    rfl
  rw [cloneCatalog_eq insertHost (named_engineWith ∅), ← List.replicate_succ'] at saves
  exact inSnapshot_ok saves

theorem execute_insert_marked : execute insertHost 1 insertText (markedEngine 1) =
      .ok { empty with rowCount := 1 } markedInserted := by
  rfl

theorem execute_rollbackTo_marked :
    execute insertHost 1 rollbackToText markedInserted = .ok empty (markedEngine 1) := by
  have restores : executeUncached insertHost (executeInner insertHost 0) 0
          rollbackToText (some 1) (markedInserted.inside insertedTxn) =
        .ok empty
          { markedInserted.inside insertedTxn with
            catalog := cloneCatalog insertHost (engineWith ∅).catalog } := by
    rfl
  rw [cloneCatalog_eq insertHost (named_engineWith ∅)] at restores
  exact inSnapshot_ok restores

theorem step_savepointText_begun (host : SqlHost) (depth : Nat) : ∃ marked,
      (begun ∅).step host (depth + 1) savepointText = some marked ∧
        Reaches (begun ∅) marked savedOnce := by
  have isSavepoint : (host.kind savepointText).isSavepoint = true := by
    rfl
  have means : CommandFor host savepointText (.save "a".toList) := by
    rfl
  obtain ⟨marked, ran, reached⟩ :=
    (@execute_command host (begun ∅) savepointText depth unsaved _ rfl rfl
      named_unsaved isSavepoint rfl means).1 savedOnce rfl
  refine ⟨marked, ?_, reached⟩
  unfold step
  rw [ran]

end Example

open Example in
/-- A transaction sets a savepoint, inserts a row, rolls back to the savepoint
and sets another one. -/
theorem savepoints_nest_rollbackTo :
    let texts := [savepointText, insertText, rollbackToText, savepointText]
    Run (step insertHost 1)
        (fun _ sql => SavepointText insertHost sql ∧ insertHost.NotControlText sql)
        (markedEngine 0) texts (markedEngine 2) ∧
      ∃ commands, NestsAlong insertHost 1 insertHost.NotControlText (markedEngine 0)
        (markedEngine 2) unsaved texts commands := by
  have stepped : ∀ {engine next : SqlEngine} {sql : List Char} {res : QueryResult},
      execute insertHost 1 sql engine = .ok res next → engine.step insertHost 1 sql = some next := by
    intro engine next sql res ran
    unfold step
    rw [ran]
  have run : Run (step insertHost 1)
      (fun _ sql => SavepointText insertHost sql ∧ insertHost.NotControlText sql)
      (markedEngine 0) [savepointText, insertText, rollbackToText, savepointText]
      (markedEngine 2) :=
    .cons ⟨trivial, rfl⟩ (stepped (execute_savepoint_marked 0))
      (.cons ⟨trivial, rfl⟩ (stepped execute_insert_marked)
        (.cons ⟨trivial, rfl⟩ (stepped execute_rollbackTo_marked)
          (.cons ⟨trivial, rfl⟩ (stepped (execute_savepoint_marked 1)) (.nil _))))
  exact ⟨run, savepoints_nest rfl rfl named_unsaved run⟩

open Example in
/-- A ROLLBACK TO with two blanks between its words ends the transaction. -/
theorem wide_rollbackTo_ends_transaction : ¬ ∃ host depth,
      ∀ (start ran : SqlEngine) (opened : Stack (List Char) Catalog)
        (texts : List (List Char)),
        start.mvccEnabled = false →
          start.checkpoints = some opened →
          opened.All Named →
            Run (step host (depth + 1)) (fun _ sql => SavepointText host sql) start texts ran →
            ∃ commands,
              NestsAlong host (depth + 1) (fun _ => True) start ran opened texts commands := by
  rintro ⟨host, depth, nests⟩
  obtain ⟨marked, saves, markedReached⟩ := step_savepointText_begun host depth
  obtain ⟨txn, active, -⟩ := map_eq_some_iff.mp markedReached.checkpoints
  have markedMode : marked.mvccEnabled = false := markedReached.sameMode.trans rfl
  let ended := marked.closed marked.catalog
  have ends : execute host (depth + 1) wideRollbackToText marked = .ok empty ended := by
    have notQuery : (host.kind wideRollbackToText).isQuery = false := by
      rfl
    have keeps : (host.kind wideRollbackToText).invalidates = false := by
      rfl
    have byText : executeByText host (executeInner host (depth + 1)) wideRollbackToText marked =
        (if marked.mvccEnabled then
          executeInner host (depth + 1) wideRollbackToText marked.mvccTxnManager.activeId
        else rollbackSnapshot) marked := by
      rfl
    have notMvcc : ¬ marked.mvccEnabled = true := by
      rw [markedMode]
      decide
    rw [execute_eq_executeByKind _ notQuery keeps]
    unfold executeByKind
    rw [kind_wideRollbackToText]
    simp only
    rw [byText, if_neg notMvcc]
    unfold rollbackSnapshot
    rw [get_bind_run, active]
    rfl
  have stepped : marked.step host (depth + 1) wideRollbackToText = some ended := by
    unfold step
    rw [ends]
  have firstText : SavepointText host savepointText :=
    .of_isSavepoint (by rw [kind_savepointText]; rfl)
  have secondText : SavepointText host wideRollbackToText :=
    .of_isSavepoint (by rw [kind_wideRollbackToText]; rfl)
  obtain ⟨commands, along⟩ :=
    nests (begun ∅) ended unsaved [savepointText, wideRollbackToText] rfl rfl
      named_unsaved (.cons firstText saves (.cons secondText stepped (.nil _)))
  cases along.reaches.checkpoints

end TurboGP.Engine
