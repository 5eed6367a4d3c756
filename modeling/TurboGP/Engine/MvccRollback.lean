import TurboGP.Engine.SessionInvariant

/-! # ROLLBACK in MVCC mode -/

namespace TurboGP.Engine

open Datasource Sql Txn Effect MvccTxnManager RowVersion QueryEngine GuardedRun VersionChain List

/-- The second reader sees the same authors below `bound` as the first, and it
does not see `writer`. -/
structure SameView (bound writer : Nat) (mgr other : MvccTxnManager) : Prop where
  agree : ∀ author < bound, author ∈ seenAuthors other ↔ author ∈ seenAuthors mgr
  foreign : writer ∉ seenAuthors other

namespace SameView

variable {bound writer : Nat} {mgr other : MvccTxnManager}
  {pinned : Nat → Prop} {old new : Table}

variable (view : SameView bound writer mgr other)

include view

theorem sees_marked {version marked : RowVersion} (creator : version.xmin < bound)
    (deleter : ∀ author, version.xmax = some author → author < bound)
    (mark : MarkedBy writer version marked) :
    Sees xmin xmax (seenAuthors other) (seenAuthors other) marked ↔
      Sees xmin xmax (seenAuthors mgr) (seenAuthors mgr) version := by
  rcases mark with rfl | ⟨opened, rfl⟩
  · refine and_congr (view.agree _ creator) ?_
    refine forall_congr' fun author => ?_
    refine forall_congr' fun deleted => ?_
    exact not_congr (view.agree author (deleter author deleted))
  · refine and_congr (view.agree _ creator) ?_
    constructor
    · intro _ author deleted
      rw [opened] at deleted
      cases deleted
    · intro _ author deleted
      cases deleted
      exact view.foreign

theorem sees_grown {chain grown : List RowVersion}
    (stamps : ∀ version ∈ chain,
        version.xmin < bound ∧ ∀ author, version.xmax = some author → author < bound)
    (grows : ChainGrows writer chain grown) :
    (∃ version ∈ grown, Sees xmin xmax (seenAuthors other) (seenAuthors other) version) ↔
      ∃ version ∈ chain, Sees xmin xmax (seenAuthors mgr) (seenAuthors mgr) version := by
  constructor
  · rintro ⟨version, mem, seen⟩
    obtain ⟨k, inGrown⟩ := mem_iff_getElem?.mp mem
    by_cases inChain : k < chain.length
    · have present := getElem?_eq_getElem inChain
      obtain ⟨marked, found, mark⟩ := grows.kept k _ present
      rw [found] at inGrown
      cases inGrown
      obtain ⟨creator, deleter⟩ := stamps _ (getElem_mem inChain)
      exact ⟨_, getElem_mem inChain, (view.sees_marked creator deleter mark).mp seen⟩
    · have own := (grows.added k version (Nat.le_of_not_lt inChain) inGrown).1
      exact absurd (own ▸ seen.1) view.foreign
  · rintro ⟨version, mem, seen⟩
    obtain ⟨k, inChain⟩ := mem_iff_getElem?.mp mem
    obtain ⟨marked, found, mark⟩ := grows.kept k version inChain
    obtain ⟨creator, deleter⟩ := stamps version mem
    exact ⟨marked, mem_of_getElem? found, (view.sees_marked creator deleter mark).mpr seen⟩

theorem visible_old {row : Nat}
    (inv : TableInv bound old) (moved : Writes writer pinned old new) (inOld : row < old.rowCount) :
    rowVisibleToActive new other row = rowVisibleToActive old mgr row := by
  rw [Bool.eq_iff_iff, rowVisibleToActive_iff_sees, rowVisibleToActive_iff_sees]
  refine or_congr ⟨?_, moved.untracked row inOld⟩ ?_
  · intro empty
    by_contra nonempty
    exact (moved.chains row).nonempty nonempty empty
  · exact view.sees_grown (inv.stamps row) (moved.chains row)

theorem hidden_new {row : Nat} (inv : TableInv bound old) (moved : Writes writer pinned old new)
    (past : old.rowCount ≤ row) (inNew : row < new.rowCount) :
    rowVisibleToActive new other row = false := by
  have noChain : old.chainAt row = [] := by
    by_contra nonempty
    have inside := Table.lt_length_of_chainAt nonempty
    have bounded := inv.bounded
    omega
  have nothingSeen := view.sees_grown (inv.stamps row) (moved.chains row)
  rw [noChain] at nothingSeen
  rw [← Bool.not_eq_true, rowVisibleToActive_iff_sees, not_or]
  refine ⟨moved.tracked row past inNew, ?_⟩
  intro seen
  obtain ⟨version, mem, -⟩ := nothingSeen.mp seen
  cases mem

theorem visibleRows_eq (inv : TableInv bound old) (moved : Writes writer pinned old new) :
    (range new.rowCount).filter (rowVisibleToActive new other) =
      (range old.rowCount).filter (rowVisibleToActive old mgr) := by
  have shortened : Compaction.kept (rowVisibleToActive new other) new.rowCount =
      Compaction.kept (rowVisibleToActive new other) old.rowCount :=
    Compaction.kept_eq_of_le moved.rowCountLe
      (fun _ past inNew => view.hidden_new inv moved past inNew)
  refine Eq.trans shortened (filter_congr fun row inOld => ?_)
  exact view.visible_old inv moved (mem_range.mp inOld)

theorem select_eq {host : Host} {res : QueryResult}
    (inv : TableInv bound old) (moved : Writes writer pinned old new)
    (shown : ∀ row < old.rowCount, rowVisibleToActive old mgr row = true → pinned row)
    (selected : executeSelectStar host old none (some mgr) = .ok res) :
    executeSelectStar host new none (some other) = .ok res := by
  refine executeSelectStar_congr moved.sameColumnNames (view.visibleRows_eq inv moved) ?_ selected
  intro row inOld visible colIdx cell held
  exact moved.cells colIdx row cell (shown row inOld visible) held

end SameView

def rolledBackManager (mgr : MvccTxnManager) : MvccTxnManager :=
  { mgr.begin.2 with currentActive := none }.rollback mgr.nextTxnId

section

variable {mgr : MvccTxnManager}

/-- An id without an entry counts as aborted, so the entries that BEGIN and
ROLLBACK leave change nobody's state. -/
theorem txnState_rolledBackManager
    (unused : mgr.txnStates.lookup mgr.nextTxnId = none) (author : Nat) :
    (rolledBackManager mgr).txnState author = mgr.txnState author := by
  simp only [rolledBackManager, rollback,
    finish, begin, beginWithIsolation, txnState, FiniteMap.lookup_insert_eq]
  split
  · next same =>
    rw [same, unused]
    rfl
  · rfl

variable {snapshotId : Nat}

variable (unused : mgr.txnStates.lookup mgr.nextTxnId = none)

include unused

theorem committedBy_begin {author : Nat} :
    mgr.begin.2.CommittedBy snapshotId author ↔ mgr.CommittedBy snapshotId author := by
  simp only [MvccTxnManager.CommittedBy, begin,
    beginWithIsolation, txnState, FiniteMap.lookup_insert_eq]
  split
  · next same =>
    subst same
    simp [unused]
  · rfl

theorem committedBy_rolledBackManager {author : Nat} :
    (rolledBackManager mgr).CommittedBy snapshotId author ↔ mgr.CommittedBy snapshotId author := by
  unfold MvccTxnManager.CommittedBy
  rw [txnState_rolledBackManager unused]

theorem not_committedBy_unused : ¬ mgr.CommittedBy snapshotId mgr.nextTxnId := by
  rintro ⟨cid, committed, -⟩
  rw [txnState, unused] at committed
  cases committed

omit unused

theorem sameView_autocommit (idle : mgr.currentActive = none) (pos : 0 < mgr.nextTxnId)
    (unused : mgr.txnStates.lookup mgr.nextTxnId = none) :
    SameView mgr.nextTxnId mgr.nextTxnId mgr (rolledBackManager mgr) := by
  have seen :
      ∀ author, author ∈ seenAuthors (rolledBackManager mgr) ↔ author ∈ seenAuthors mgr := by
    intro author
    refine or_congr ?_ ?_
    · simp only [activeId, idle]
      exact Iff.rfl
    · rw [committedBy_rolledBackManager unused]
      simp only [activeSnapshotId, idle]
      exact Iff.rfl
  refine ⟨fun author _ => seen author, ?_⟩
  rw [seen]
  rintro (isZero | committed)
  · simp only [activeId, idle, Option.map_none, Option.getD_none] at isZero
    omega
  · exact not_committedBy_unused unused committed

theorem sameView_later (unused : mgr.txnStates.lookup mgr.nextTxnId = none)
    (nextUnused : mgr.txnStates.lookup (mgr.nextTxnId + 1) = none) :
    SameView mgr.nextTxnId mgr.nextTxnId mgr.begin.2 (rolledBackManager mgr).begin.2 := by
  have stillUnused : (rolledBackManager mgr).txnStates.lookup (rolledBackManager mgr).nextTxnId =
      none := by
    simp only [rolledBackManager, rollback,
      finish, begin, beginWithIsolation, FiniteMap.lookup_insert_eq]
    simp [nextUnused]
  have seenBefore : ∀ author, author ∈ seenAuthors mgr.begin.2 ↔
        author = mgr.nextTxnId ∨ mgr.CommittedBy mgr.commitId author :=
    fun author => or_congr Iff.rfl (committedBy_begin unused)
  have seenAfter : ∀ author, author ∈ seenAuthors (rolledBackManager mgr).begin.2 ↔
        author = mgr.nextTxnId + 1 ∨ mgr.CommittedBy mgr.commitId author :=
    fun author =>
      or_congr Iff.rfl
        ((committedBy_begin stillUnused).trans (committedBy_rolledBackManager unused))
  constructor
  · intro author below
    rw [seenBefore, seenAfter]
    have notNext : author ≠ mgr.nextTxnId := by omega
    have notLater : author ≠ mgr.nextTxnId + 1 := by omega
    simp [notNext, notLater]
  · rw [seenAfter]
    rintro (isLater | committed)
    · omega
    · exact not_committedBy_unused unused committed

end

def QueryEngine.inTransaction (engine : QueryEngine) : QueryEngine :=
  { engine with mvccTxnManager := engine.mvccTxnManager.begin.2 }

def SelectsKept (host : Host) (before after : QueryEngine) : Prop :=
  ∀ name res, selectStar host before name = .ok res → selectStar host after name = .ok res

/-- The rows of every table are what they were, in autocommit and in a
transaction begun in either engine. -/
def RowsRestored (host : Host) (before after : QueryEngine) : Prop :=
  SelectsKept host before after ∧ SelectsKept host before.inTransaction after.inTransaction

def dmlStep (host : Host) (depth : Nat) (engine : QueryEngine)
    (statement : DmlStatement) : Option QueryEngine :=
  engine.step host depth (.execute (.dml statement))

/-- BEGIN, the statements, each of which meets `guard`, and ROLLBACK. -/
def Undone (host : Host) (depth : Nat)
    (guard : QueryEngine → DmlStatement → Prop) (before : QueryEngine)
    (statements : List DmlStatement) (after : QueryEngine) : Prop :=
  ∃ opened begun middle closed, executeMvcc host depth .begin before = .ok opened begun ∧
    Run (dmlStep host depth) guard begun statements middle ∧
    executeMvcc host depth .rollback middle = .ok closed after

/-- The rows that `SELECT *` shows, in autocommit or in a transaction begun
now. -/
def Shown (engine : QueryEngine) (name : String) (row : Nat) : Prop :=
  ∃ table, engine.catalog.lookup name = some table ∧ row < table.rowCount ∧
    (rowVisibleToActive table engine.mvccTxnManager row = true ∨
      rowVisibleToActive table engine.mvccTxnManager.begin.2 row = true)

section

variable {host : Host} {depth : Nat} {before begun middle after : QueryEngine}

theorem executeMvcc_begin_eq_ok {opened : QueryResult}
    (begins : executeMvcc host depth .begin before = .ok opened begun) :
    before.mvccTxnManager.currentActive = none ∧ begun = before.inTransaction := by
  obtain ⟨_, controlled, accepted, ran⟩ := bind_eq_ok_iff.mp begins
  cases active : before.mvccTxnManager.currentActive with
  | some txn =>
    have refused :
        before.mvccTxnManager.beginCompat = .error "a transaction is already active" := by
      simp [beginCompat, active]
    rw [controlTransaction_error refused] at accepted
    cases accepted
  | none =>
    have begins : before.mvccTxnManager.beginCompat =
        .ok (before.mvccTxnManager.begin.1.id, before.mvccTxnManager.begin.2) := by
      simp [beginCompat, active]
    rw [controlTransaction_ok begins] at accepted
    cases accepted
    cases ran
    exact ⟨rfl, rfl⟩

theorem executeMvcc_rollback_eq_ok {closed : QueryResult} {mgr : MvccTxnManager}
    (opened : middle.mvccTxnManager = mgr.begin.2)
    (rollsBack : executeMvcc host depth .rollback middle = .ok closed after) :
    after =
      { middle with
        mvccTxnManager := rolledBackManager mgr, savepoints := [] } := by
  obtain ⟨_, controlled, accepted, ran⟩ := bind_eq_ok_iff.mp rollsBack
  have rolls :
      middle.mvccTxnManager.rollbackCompat = .ok (mgr.nextTxnId, rolledBackManager mgr) := by
    rw [opened]
    rfl
  rw [controlTransaction_ok rolls] at accepted
  cases accepted
  cases ran
  rfl

variable {pinned : String → Nat → Prop}

theorem moved_by_statements {statements : List DmlStatement} (mode : begun.mvccEnabled = true)
    (run : Run (dmlStep host depth) (KeepsPinned host pinned) begun statements middle) :
    EngineMoves (fun _ => True)
      (fun name => Writes (begun.mvccTxnManager.activeId.getD 0) (pinned name))
      begun middle := by
  refine run.invariant _ ?_ (Std.Refl.refl begun)
  intro engine stmt next moved keeps enabled
  have sameWriter : engine.mvccTxnManager.activeId = begun.mvccTxnManager.activeId := by
    rw [moved.sameManager]
  have step :=
    moves_executeDml depth engine.mvccTxnManager.activeId (moved.sameMode.trans mode) keeps
  rw [step_execute enabled, finalState_executeMvcc_dml]
  rw [sameWriter] at step ⊢
  exact moved.trans step

theorem selectsKept_of_view {writer : Nat} (inv : before.Consistent)
    (view :
      SameView before.mvccTxnManager.nextTxnId writer begun.mvccTxnManager after.mvccTxnManager)
    (sameBefore : begun.catalog = before.catalog)
    (moved : ∀ name table, before.catalog.lookup name = some table → ∃ changed,
          after.catalog.lookup name = some changed ∧ Writes writer (pinned name) table changed)
    (shown : ∀ name table row, before.catalog.lookup name = some table → row < table.rowCount →
          rowVisibleToActive table begun.mvccTxnManager row = true → pinned name row) :
    SelectsKept host begun after := by
  intro name res selected
  unfold selectStar at selected ⊢
  rw [sameBefore] at selected
  split at selected
  · cases selected
  · next table held =>
    obtain ⟨changed, found, writes⟩ := moved name table held
    rw [found]
    exact view.select_eq (inv.tables name table held) writes
      (fun row => shown name table row held) selected

end

/-- In every run whose statements leave the cells of the rows shown at BEGIN
alone, ROLLBACK restores the rows of every table. -/
theorem rollback_restores_rows {host : Host} {depth : Nat} {before after : QueryEngine}
    {statements : List DmlStatement} (reachable : before.Reachable host depth)
    (undone : Undone host depth (KeepsPinned host (Shown before)) before statements after) :
    RowsRestored host before after := by
  have consistent := reachable.consistent
  obtain ⟨known, inv, -⟩ := consistent.manager
  obtain ⟨opened, begun, middle, closed, begins, run, rollsBack⟩ := undone
  obtain ⟨idle, rfl⟩ := executeMvcc_begin_eq_ok begins
  have mode : before.inTransaction.mvccEnabled = true := consistent.mode
  have moved := moved_by_statements mode run
  have isAfter := executeMvcc_rollback_eq_ok moved.sameManager rollsBack
  subst isAfter
  have unused := inv.lookup_next (le_refl before.mvccTxnManager.nextTxnId)
  have nextUnused := inv.lookup_next (Nat.le_succ before.mvccTxnManager.nextTxnId)
  constructor
  · refine selectsKept_of_view consistent
      (sameView_autocommit idle inv.nextPositive unused) rfl moved.tables ?_
    exact fun name table row held inTable visible => ⟨table, held, inTable, .inl visible⟩
  · refine selectsKept_of_view consistent (sameView_later unused nextUnused) rfl moved.tables ?_
    exact fun name table row held inTable visible => ⟨table, held, inTable, .inr visible⟩

/-- The table `t` with one row, loaded without a chain. -/
def oneRow (cell : Cell) : Table :=
  { oneColumn with columns := [[cell]], rowCount := 1 }

def setNine : Update :=
  { table := "t", assignments := [("v", .literal (.int 9))], whereClause := none }

theorem parseAssignments_setNine (host : Host) {table : Table} (named : table.columnNames = ["v"]) :
    parseAssignments host table setNine.assignments =
      .ok [{ colIdx := 0, cell := 9, isNull := false }] := by
  have column : table.columnIdx "v" = some 0 := by
    unfold Table.columnIdx
    rw [named]
    rfl
  have text : String.ofList ((Expr.literal (.int 9)).render host.formatF64) = "9" := rfl
  have cell : parseValueCell host "9" = .ok 9 := rfl
  have notNull : Text.isNullWord "9" = false := rfl
  simp only [parseAssignments, setNine, mapM_cons, mapM_nil, column, text, cell, notNull]
  rfl

theorem dmlStep_setNine {host : Host} {depth : Nat} {engine : QueryEngine}
    {table changed : Table} {updated : Nat} {updates : List (Cell × List Cell)}
    (held : engine.catalog.lookup "t" = some table) (noSchema : table.schema = none)
    (noSidecars : engine.temporals = ∅)
    (returned : updateRows host engine.mvccEnabled engine.mvccTxnManager
          engine.mvccTxnManager.activeId setNine table = .ok (updated, updates) changed) :
    dmlStep host depth engine (.update setNine) =
      some { engine with catalog := engine.catalog.insert "t" changed } := by
  have noKeys : table.foreignKeys = [] := by
    unfold Table.foreignKeys
    rw [noSchema]
  have noSidecar : engine.temporals.lookup "t" = none := by
    rw [noSidecars]
    exact Finmap.lookup_empty _
  have ran : executeMvcc host depth (.dml (.update setNine)) engine =
        .ok { QueryResult.empty with rowCount := updated }
          { engine with catalog := engine.catalog.insert "t" changed } := by
    exact executeUpdate_ok held noKeys noSidecar returned
  simp only [dmlStep, step, ran]

/-- A transaction inserts a row and sets all rows to the value that the first
one has. -/
theorem rollback_restores_rows_oneRow : ∃ after,
      Undone plainHost 1 (KeepsPinned plainHost (Shown (withTable (oneRow 9))))
          (withTable (oneRow 9)) [insertNine, .update setNine] after ∧
        RowsRestored plainHost (withTable (oneRow 9)) after := by
  let before := withTable (oneRow 9)
  let inserted : Table :=
    { oneRow 9 with
      columns := [[9, 9]]
      rowCount := 2
      rowVersions := [[], [new 1 []]] }
  let updated : Table :=
    { inserted with
      rowVersions := [[], [(new 1 []).delete 1, new 1 [9]]] }
  let grown : QueryEngine :=
    { before.inTransaction with
      catalog := before.catalog.insert "t" inserted }
  let middle : QueryEngine := { grown with catalog := grown.catalog.insert "t" updated }
  let after : QueryEngine :=
    { middle with
      mvccTxnManager := rolledBackManager before.mvccTxnManager
      savepoints := [] }
  have reachable : before.Reachable plainHost 1 := ⟨before, [], initial_withTable rfl, .nil _⟩
  have ran : updateRows plainHost true grown.mvccTxnManager
        grown.mvccTxnManager.activeId setNine inserted =
      .ok (2, [(9, [9]), (9, [9])]) updated := by
    rfl
  have updates : dmlStep plainHost 1 grown (.update setNine) = some middle :=
    dmlStep_setNine rfl rfl rfl ran
  have keeps : KeepsPinned plainHost (Shown before) grown (.update setNine) := by
    intro table assigns mask held parsed _ row _ shown assign mem
    have isInserted : grown.catalog.lookup "t" = some inserted := rfl
    cases isInserted.symm.trans held
    cases (parseAssignments_setNine plainHost rfl).symm.trans parsed
    obtain ⟨loaded, wasPresent, inTable, -⟩ := shown
    have isLoaded : before.catalog.lookup "t" = some (oneRow 9) := rfl
    cases isLoaded.symm.trans wasPresent
    have isFirst : row = 0 := Nat.lt_one_iff.mp inTable
    rw [mem_singleton.mp mem, isFirst]
    rfl
  have undone : Undone plainHost 1 (KeepsPinned plainHost (Shown before)) before
      [insertNine, .update setNine] after := by
    refine ⟨_, before.inTransaction, middle, _, rfl, ?_, rfl⟩
    exact .cons trivial rfl (.cons keeps updates (.nil middle))
  exact ⟨after, undone, rollback_restores_rows reachable undone⟩

/-- An UPDATE of all rows stays when the transaction is rolled back. -/
theorem rollback_keeps_updated_cells : ¬ ∃ host depth, ∀ before statements after,
    QueryEngine.Reachable host depth before →
    Undone host depth anyStep before statements after → RowsRestored host before after := by
  rintro ⟨host, depth, restored⟩
  let before := withTable (oneRow 10)
  have reachable : before.Reachable host depth := ⟨before, [], initial_withTable rfl, .nil _⟩
  have ran : updateRows host true before.inTransaction.mvccTxnManager
        before.inTransaction.mvccTxnManager.activeId setNine (oneRow 10) =
      .ok (1, [(9, [9])]) (oneRow 9) := by
    unfold updateRows
    rw [get_bind_run, parseAssignments_setNine host rfl]
    rfl
  let middle : QueryEngine :=
    { before.inTransaction with
      catalog := before.catalog.insert "t" (oneRow 9) }
  let after : QueryEngine :=
    { middle with
      mvccTxnManager := rolledBackManager before.mvccTxnManager
      savepoints := [] }
  have updates : dmlStep host depth before.inTransaction (.update setNine) = some middle :=
    dmlStep_setNine rfl rfl rfl ran
  have undone : Undone host depth anyStep before [.update setNine] after := by
    refine ⟨_, before.inTransaction, middle, _, rfl, ?_, rfl⟩
    exact .cons trivial updates (.nil middle)
  have selects := (restored before _ after reachable undone).1
  let shown (cell : Cell) : QueryResult :=
    { columns :=
        [{ name := "v", values := [cell], stringValues := none,
           typeOid := 0, nullMask := none }]
      rowCount := 1 }
  have ten : selectStar host before "t" = .ok (shown 10) := rfl
  have nine : selectStar host after "t" = .ok (shown 9) := rfl
  cases (selects "t" _ ten).symm.trans nine

end TurboGP.Engine
