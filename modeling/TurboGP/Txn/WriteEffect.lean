import TurboGP.Lib.Effect
import TurboGP.Txn.Visibility

/-!
# What a conflict-checked write does to its row

The conflict check reads the newest version its transaction sees, while the
write goes to the last version of the chain and is skipped when that one
already carries a deletion mark.
-/

namespace TurboGP.Txn

open VersionChain MvccTable GuardedRun List

namespace MvccTxnManager

variable {mgr : MvccTxnManager} {table : MvccTable}
  {txn : MvccTransaction} {rowIdx : Nat}

def shownRow (mgr : MvccTxnManager) (table : MvccTable)
    (txn : MvccTransaction) (rowIdx : Nat) : Option RowVersion :=
  mgr.latestVisible txn (table.rowVersions rowIdx)

/-- A scan shows what each row shows, in their order. -/
theorem scanVisible_eq_shownRows :
    mgr.scanVisible table txn = (range table.rows.length).filterMap (mgr.shownRow table txn) := by
  have rows : (range table.rows.length).map table.rowVersions = table.rows := by
    apply ext_getElem <;> simp +contextual [rowVersions]
  conv_lhs => rw [scanVisible, ← rows, filterMap_map]
  rfl

theorem shownRow_eq_some {version : RowVersion}
    (shown : mgr.shownRow table txn rowIdx = some version) :
    ∃ chain,
      table.rows[rowIdx]? = some chain ∧ version ∈ chain ∧ mgr.visible version txn = true := by
  unfold shownRow rowVersions at shown
  cases held : table.rows[rowIdx]? with
  | none => simp [held, latestVisible] at shown
  | some chain =>
    rw [held, Option.getD_some] at shown
    obtain ⟨mem, visible⟩ := latest_eq_some shown
    exact ⟨chain, rfl, mem, visible⟩

/-- The check accepts a write unless the version it reads was deleted by
another transaction that is in progress or has committed. -/
theorem checkWriteConflict_eq_ok_iff : mgr.checkWriteConflict table txn rowIdx = .ok () ↔
      ∀ version, mgr.shownRow table txn rowIdx = some version →
        ∀ xmax, version.xmax = some xmax →
        xmax = txn.id ∨ mgr.txnStates.lookup xmax = none ∨
          mgr.txnStates.lookup xmax = some .aborted := by
  unfold checkWriteConflict shownRow rowVersions
  cases table.rows[rowIdx]? with
  | none => simp [latestVisible]
  | some chain =>
    simp only [Option.getD_some]
    cases mgr.latestVisible txn chain with
    | none => simp
    | some version =>
      simp only [Option.some.injEq, forall_eq']
      cases version.xmax with
      | none => simp
      | some xmax =>
        simp only [Option.some.injEq, forall_eq']
        by_cases own : xmax = txn.id
        · simp [own]
        · simp only [own, if_false, false_or]
          cases mgr.txnStates.lookup xmax with
          | none => simp
          | some state =>
            cases state with
            | inProgress => simp
            | aborted => simp
            | committed cid =>
              simp only [reduceCtorEq, Option.some.injEq, or_self, iff_false]
              split <;> simp

theorem visible_new (values : List Cell) :
    mgr.visible (RowVersion.new txn.id values) txn = true := by
  simp [visible, xminVisible]

theorem visible_delete (version : RowVersion) :
    mgr.visible (version.delete txn.id) txn = false := by
  simp [visible]

private theorem checked_eq_ok {written after : MvccTable}
    (accepted : (mgr.checkWriteConflict table txn rowIdx >>= fun _ => pure written) = .ok after) :
    mgr.checkWriteConflict table txn rowIdx = .ok () ∧ after = written := by
  obtain ⟨_, checked, same⟩ := Effect.except_ok_iff.mp accepted
  exact ⟨checked, (Except.ok.inj same).symm⟩

theorem checked_of_isOk {written : MvccTable}
    (accepted : (mgr.checkWriteConflict table txn rowIdx >>= fun _ => pure written).isOk = true) :
    mgr.checkWriteConflict table txn rowIdx = .ok () := by
  cases checked : mgr.checkWriteConflict table txn rowIdx with
  | ok _ => rfl
  | error conflict =>
    rw [checked] at accepted
    cases accepted

theorem updateWithConflictCheck_eq_ok {newValues : List Cell} {after : MvccTable}
    (accepted : mgr.updateWithConflictCheck table txn rowIdx newValues = .ok after) :
    mgr.checkWriteConflict table txn rowIdx = .ok () ∧
      after = (table.update txn.id rowIdx newValues).2 :=
  checked_eq_ok accepted

theorem deleteWithConflictCheck_eq_ok {after : MvccTable}
    (accepted : mgr.deleteWithConflictCheck table txn rowIdx = .ok after) :
    mgr.checkWriteConflict table txn rowIdx = .ok () ∧ after = (table.delete txn.id rowIdx).2 :=
  checked_eq_ok accepted

end MvccTxnManager

theorem MvccTable.rowVersions_set
    {table after : MvccTable} {rowIdx : Nat} {before chain : List RowVersion}
    (held : table.rows[rowIdx]? = some before) (rows : after.rows = table.rows.set rowIdx chain) :
    after.rowVersions rowIdx = chain := by
  obtain ⟨inRange, -⟩ := List.getElem?_eq_some_iff.mp held
  simp [rowVersions, rows, inRange]

namespace MvccWorld

variable {world : MvccWorld} {txn : MvccTransaction} {rowIdx : Nat}

/-- An accepted update of a visible row is seen exactly when it was applied,
or when the row already had the new values. -/
theorem shownRow_update_iff {version : RowVersion} {newValues : List Cell} {after : MvccTable}
    (shown : world.mgr.shownRow world.table txn rowIdx = some version)
    (accepted : world.mgr.updateWithConflictCheck world.table txn rowIdx newValues = .ok after) :
    (world.mgr.shownRow after txn rowIdx).map RowVersion.values = some newValues ↔
      world.table.LastOpen rowIdx ∨ version.values = newValues := by
  obtain ⟨-, rfl⟩ := MvccTxnManager.updateWithConflictCheck_eq_ok accepted
  rcases world.table.update_cases txn.id rowIdx newValues with
    ⟨older, last, held, opened, rows⟩ | ⟨closed, same⟩
  · have nowShown : world.mgr.shownRow (world.table.update txn.id rowIdx newValues).2 txn rowIdx =
        some (RowVersion.new txn.id newValues) := by
      rw [MvccTxnManager.shownRow, rowVersions_set held rows, append_cons]
      exact latest_append_accepted (MvccTxnManager.visible_new newValues)
    have wasOpen : world.table.LastOpen rowIdx := ⟨older, last, held, opened⟩
    simp [nowShown, wasOpen]
  · rw [same, shown]
    simp [closed]

/-- An accepted delete hides the row exactly when no version of it that the
transaction sees was marked before. -/
theorem shownRow_delete_iff {after : MvccTable} (consistent : world.Consistent)
    (accepted : world.mgr.deleteWithConflictCheck world.table txn rowIdx = .ok after) :
    world.mgr.shownRow after txn rowIdx = none ↔ ∀ version ∈ world.table.rowVersions rowIdx,
        world.mgr.visible version txn = true → version.xmax = none := by
  obtain ⟨-, rfl⟩ := MvccTxnManager.deleteWithConflictCheck_eq_ok accepted
  rcases world.table.delete_cases txn.id rowIdx with
    ⟨older, last, held, opened, rows⟩ | ⟨closed, same⟩
  · have inv := consistent.chains _ (mem_of_getElem? held)
    have lastHidden : world.mgr.latestVisible txn (older ++ [last.delete txn.id]) =
        world.mgr.latestVisible txn older :=
      latest_append_rejected (MvccTxnManager.visible_delete last)
    rw [MvccTxnManager.shownRow, rowVersions_set held rows,
      lastHidden, MvccTxnManager.latestVisible, latest_eq_none_iff]
    simp only [rowVersions, held, Option.getD_some]
    constructor
    · intro olderHidden version mem visible
      rcases mem_append.mp mem with inOlder | isLast
      · rw [olderHidden version inOlder] at visible
        cases visible
      · rw [mem_singleton.mp isLast]
        exact opened
    · intro unmarked version inOlder
      by_contra seen
      rw [Bool.not_eq_false] at seen
      exact
        inv.older_closed version inOlder (unmarked version (mem_append_left _ inOlder) seen)
  · rw [same, MvccTxnManager.shownRow, MvccTxnManager.latestVisible, latest_eq_none_iff]
    constructor
    · intro hidden version mem visible
      rw [hidden version mem] at visible
      cases visible
    · intro unmarked version mem
      by_contra seen
      rw [Bool.not_eq_false] at seen
      have versionOpen := unmarked version mem seen
      apply closed
      cases held : world.table.rows[rowIdx]? with
      | none => simp [rowVersions, held] at mem
      | some chain =>
        simp only [rowVersions, held, Option.getD_some] at mem
        obtain ⟨older, rfl⟩ :=
          (consistent.chains chain (mem_of_getElem? held)).open_is_last mem versionOpen
        exact ⟨older, version, held, versionOpen⟩

/-- When an accepted write takes effect: in every reachable world, an
accepted update of a row its transaction sees shows the new values
afterwards exactly when the last version of the chain was open or the row
had these values before; an accepted delete leaves nothing of the row for
its transaction exactly when no version of the row that it sees carried a
deletion mark. -/
theorem accepted_write_takes_effect_iff {world : MvccWorld} (reachable : world.Reachable)
    (txn : MvccTransaction) (rowIdx : Nat) :
    (∀ version newValues after, world.mgr.shownRow world.table txn rowIdx = some version →
        world.mgr.updateWithConflictCheck world.table txn rowIdx newValues = .ok after →
        ((world.mgr.shownRow after txn rowIdx).map RowVersion.values = some newValues ↔
          world.table.LastOpen rowIdx ∨ version.values = newValues)) ∧
      ∀ after, world.mgr.deleteWithConflictCheck world.table txn rowIdx = .ok after →
        (world.mgr.shownRow after txn rowIdx = none ↔ ∀ version ∈ world.table.rowVersions rowIdx,
          world.mgr.visible version txn = true → version.xmax = none) :=
  ⟨fun _ _ _ shown accepted => shownRow_update_iff shown accepted,
    fun _ accepted => shownRow_delete_iff reachable.consistent accepted⟩

def committedRow : List MvccAction :=
  [ .beginWithIsolation .repeatableRead, .insert ⟨1, 0, .inProgress, .repeatableRead⟩ [1],
    .commit ⟨1, 0, .inProgress, .repeatableRead⟩, .beginWithIsolation .repeatableRead ]

def openRowWorld : MvccWorld := committedRow.foldl MvccWorld.apply (initial (new "t" ["a"]))

theorem accepted_write_openRowWorld :
    (openRowWorld.mgr.shownRow (openRowWorld.table.update 2 0 [2]).2
          ⟨2, 1, .inProgress, .repeatableRead⟩ 0).map RowVersion.values =
        some [2] ∧
      openRowWorld.mgr.shownRow (openRowWorld.table.delete 2 0).2
          ⟨2, 1, .inProgress, .repeatableRead⟩ 0 = none := by
  have reachable : openRowWorld.Reachable := .of_exec ⟨"t", ["a"], rfl⟩
      (show exec step anyStep (initial (new "t" ["a"])) committedRow = some openRowWorld by decide)
  have effect := accepted_write_takes_effect_iff reachable ⟨2, 1, .inProgress, .repeatableRead⟩ 0
  constructor
  · exact (effect.1 (RowVersion.new 1 [1]) [2] _ (by decide) (by decide)).mpr
      (.inl ⟨[], RowVersion.new 1 [1], by decide, rfl⟩)
  · exact (effect.2 _ (by decide)).mpr (by decide)

/-- A row is committed, a transaction deletes it and is rolled back, and
another one begins. -/
def rolledBackDelete : List MvccAction :=
  [ .beginWithIsolation .repeatableRead, .insert ⟨1, 0, .inProgress, .repeatableRead⟩ [1],
    .commit ⟨1, 0, .inProgress, .repeatableRead⟩, .beginWithIsolation .repeatableRead,
    .delete ⟨2, 1, .inProgress, .repeatableRead⟩ 0,
    .rollback ⟨2, 1, .inProgress, .repeatableRead⟩, .beginWithIsolation .repeatableRead ]

def markedRowWorld : MvccWorld := rolledBackDelete.foldl MvccWorld.apply (initial (new "t" ["a"]))

theorem markedRowWorld_reachable : markedRowWorld.Reachable :=
  .of_exec ⟨"t", ["a"], rfl⟩
    (show exec step anyStep
        (initial (new "t" ["a"])) rolledBackDelete = some markedRowWorld by decide)

/-- After a rolled-back delete an update of the visible row returns `Ok`
and the row still shows its old values; so does a delete, and the row stays
visible. -/
theorem accepted_write_without_effect : ∃ world txn rowIdx newValues updated deleted,
      Reachable world ∧ world.Running txn ∧
        (world.mgr.shownRow world.table txn rowIdx).isSome = true ∧
        (world.mgr.updateWithConflictCheck world.table txn rowIdx newValues = .ok updated ∧
            (world.mgr.shownRow updated txn rowIdx).map RowVersion.values ≠ some newValues) ∧
          world.mgr.deleteWithConflictCheck world.table txn rowIdx = .ok deleted ∧
          world.mgr.shownRow deleted txn rowIdx ≠ none := by
  refine ⟨markedRowWorld, ⟨3, 1, .inProgress, .repeatableRead⟩, 0, [2],
    markedRowWorld.table, markedRowWorld.table, markedRowWorld_reachable, ?_⟩
  decide

end MvccWorld

end TurboGP.Txn
