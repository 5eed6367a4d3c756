import TurboGP.Engine.SnapshotRollback

/-! # Routed statements and the open transaction -/

namespace TurboGP.Engine

open Datasource Sql Sql.Text Txn Effect

/-- Only the cache and the count of clock readings change. -/
def SameButCache (old new : SqlEngine) : Prop :=
  new =
    { old with
      clockReads := new.clockReads
      resultCache := new.resultCache }

instance : IsPreorder SqlEngine SameButCache where
  refl := fun _ => rfl
  trans := by
    intro old middle new first second
    unfold SameButCache at first second ⊢
    rw [second, first]

theorem SameButClock.sameButCache (old new : SqlEngine) (same : SameButClock old new) :
    SameButCache old new := by
  rw [same]
  rfl

section

variable {host : SqlHost} {engine : SqlEngine} {sql : List Char}

theorem cache_cacheResult (result : QueryResult) :
    Moves SameButCache engine (cacheResult host sql result) := by
  refine Moves.bind (clock_readClock.weaken SameButClock.sameButCache) fun _ _ _ => ?_
  exact .modify rfl

/-- A statement is dispatched by its kind, from a state whose cache may have
been emptied, or a query is answered from the cache. -/
theorem execute_prepared (depth : Nat) : ∃ prepared, SameButCache engine prepared ∧
      (prepared.resultCache = engine.resultCache ∨ prepared.resultCache = ∅) ∧
      (execute host depth sql engine = executeByKind host (executeInner host depth) sql prepared ∨
        ∃ result, (host.kind sql).isQuery = true ∧
          execute host depth sql engine = .ok result prepared) := by
  obtain ⟨looked, same, out⟩ := @execute_looked host engine sql depth
  have lookedCache : SameButCache engine looked := same.sameButCache
  have keptCache : looked.resultCache = engine.resultCache := by rw [same]
  rcases out with dispatched | ⟨entry, isQuery, -, hit⟩
  · refine ⟨_, ?_, ?_, .inl dispatched⟩
    · unfold SqlEngine.invalidatedFor
      split
      · have emptied : SameButCache looked { looked with resultCache := ∅ } := rfl
        exact Trans.trans lookedCache emptied
      · exact lookedCache
    · unfold SqlEngine.invalidatedFor
      split
      · exact .inr rfl
      · exact .inl keptCache
  · exact ⟨looked, lookedCache, .inl keptCache, .inr ⟨entry.result, isQuery, hit⟩⟩

end

section

variable {host : ReadonlyHost} {engine : SqlEngine} {sql : List Char}

theorem cache_readonlyStatement : Moves SameButCache engine (readonlyStatement host sql) := by
  unfold readonlyStatement
  split
  · exact .throw _
  · exact .throw _
  split
  · exact .throw _
  · exact .throw _
  split
  · exact .throw _
  split
  · exact .throw _
  · refine .get_bind ?_
    split
    · exact .bind (cache_cacheResult _) fun _ _ _ => .pure _
    · exact .throw _
    · exact .throw _

theorem cache_executeReadonly : Moves SameButCache engine (executeReadonly host sql) := by
  refine .bind ((clock_cachedFor true sql).weaken SameButClock.sameButCache) fun cached _ _ => ?_
  split
  · exact .pure _
  · unfold executeReadonlyUncached
    split
    · exact .ofExcept _
    · exact cache_readonlyStatement
    · exact cache_readonlyStatement
    · exact .throw _

def StatementKind.isReadonly : StatementKind → Bool
  | .select | .explain | .show => true
  | _ => false

theorem executeReadonly_refused (kind : (host.kind sql).isReadonly = false)
    (notCached : engine.resultCache.lookup (host.hashSql sql) = none) :
    ∃ error, executeReadonly host sql engine = .error (.error error) engine := by
  have missed : cachedResult host.toSqlHost sql engine = .ok none engine := by
    unfold cachedResult
    rw [get_bind_run, notCached]
    rfl
  unfold executeReadonly
  rw [bind_run_ok missed]
  unfold executeReadonlyUncached
  cases which : host.kind sql with
  | select | explain | «show» =>
    rw [which] at kind
    cases kind
  | _ => exact ⟨_, rfl⟩

end

/-- The engine inside a transaction that was begun in `before`. -/
structure OpenSince (before engine : SqlEngine) : Prop where
  opened : ∃ txn, engine.txnManager.active = some txn
  settled : engine.settled = before.settled

section

variable {host : SqlHost} {before engine next : SqlEngine} {sql : List Char}
  {depth : Nat}

theorem OpenSince.mode (isOpen : OpenSince before engine) :
    engine.mvccEnabled = before.mvccEnabled := by
  have same := congrArg (fun e => e.mvccEnabled) isOpen.settled
  exact same

theorem OpenSince.catalog (isOpen : OpenSince before engine) : engine.catalog = before.catalog := by
  have same := congrArg (fun e => e.catalog) isOpen.settled
  exact same

theorem OpenSince.of_sameButCache
    (isOpen : OpenSince before engine) (same : SameButCache engine next) :
    OpenSince before next := by
  rw [same]
  exact ⟨isOpen.opened, isOpen.settled⟩

theorem StatementConfined.of_sameButCache (confined : StatementConfined host engine sql)
    (same : SameButCache engine next) : StatementConfined host next sql := by
  rw [same]
  exact confined

theorem OpenSince.execute (mode : before.mvccEnabled = false)
    (isOpen : OpenSince before engine) (confined : StatementConfined host engine sql) :
    OpenSince before (finalState (execute host depth sql) engine) := by
  obtain ⟨prepared, same, -, out⟩ := @execute_prepared host engine sql depth
  have preparedOpen := isOpen.of_sameButCache same
  rcases out with dispatched | ⟨result, -, answered⟩
  · obtain ⟨txn, active⟩ := preparedOpen.opened
    have stays := staysOpen_executeByKind depth (preparedOpen.mode.trans mode) active
        (confined.of_sameButCache same)
    unfold finalState
    rw [dispatched]
    have isOpened := stays.opened
    rw [active] at isOpened
    exact ⟨Option.isSome_iff_exists.mp isOpened, stays.settled.trans preparedOpen.settled⟩
  · unfold finalState
    rw [answered]
    exact preparedOpen

/-- The mode and the cache stay; the engine's own catalog changes only when the
transaction is closed. -/
structure ControlKeeps (old new : SqlEngine) : Prop where
  sameMode : new.mvccEnabled = old.mvccEnabled
  sameCache : new.resultCache = old.resultCache
  catalog : new.txnManager.active ≠ none → new.catalog = old.catalog

theorem control_snapshotControl {kind : StatementKind} (isControl : kind.isControl = true) :
    Moves ControlKeeps engine (snapshotControl host kind) := by
  cases kind with
  | begin =>
    show Moves ControlKeeps engine (beginSnapshot host)
    unfold Moves finalState beginSnapshot
    rw [get_bind_run]
    cases active : engine.txnManager.active with
    | none | some txn => exact ⟨rfl, rfl, fun _ => rfl⟩
  | commit =>
    show Moves ControlKeeps engine commitSnapshot
    unfold Moves finalState commitSnapshot
    rw [get_bind_run]
    cases active : engine.txnManager.active with
    | none => exact ⟨rfl, rfl, fun _ => rfl⟩
    | some txn => exact ⟨rfl, rfl, fun isOpen => absurd rfl isOpen⟩
  | rollback =>
    show Moves ControlKeeps engine rollbackSnapshot
    unfold Moves finalState rollbackSnapshot
    rw [get_bind_run]
    cases active : engine.txnManager.active with
    | none | some txn => exact ⟨rfl, rfl, fun _ => rfl⟩
  | _ => cases isControl

end

end TurboGP.Engine
