import TurboGP.Engine.InsertRows
import TurboGP.Engine.MvccRollback
import TurboGP.Engine.VacuumRows

/-! # Which inserted rows later readers get -/

namespace TurboGP.Engine

open Datasource Sql Txn Effect QueryEngine GuardedRun RowVersion FiniteMap List

/-! ## The log of accepted rows -/

inductive InsertAction
  | begin
  | commit
  | insert (ins : Insert)

def InsertAction.statement : InsertAction → MvccStatement
  | .begin => .begin
  | .commit => .commit
  | .insert ins => .dml (.insert ins)

/-- A row of an accepted INSERT: where it was put, what it holds, and the
transaction it was inserted in. -/
structure LoggedRow where
  table : String
  row : Nat
  cells : List Cell
  author : Option Nat
  deriving Repr, DecidableEq

def givenRows (host : Host) (engine : QueryEngine) (ins : Insert) : List LoggedRow :=
  match engine.catalog.lookup ins.table with
  | none => []
  | some table =>
    match insertColumns table ins.columns with
    | .error _ => []
    | .ok colIndices =>
      ins.values.zipIdx.map
        (fun entry =>
          { table := ins.table, row := table.rowCount + entry.2
            cells := insertedCells host table colIndices entry.1
            author := engine.mvccTxnManager.activeId })

def InsertAction.givenRows (host : Host) (engine : QueryEngine) : InsertAction → List LoggedRow
  | .begin => []
  | .commit => []
  | .insert ins => Engine.givenRows host engine ins

structure InsertLog where
  engine : QueryEngine
  rows : List LoggedRow

namespace InsertLog

/-- A statement that returns an error leaves the log; a panic ends the run. -/
def step (host : Host) (depth : Nat) (log : InsertLog) (action : InsertAction) : Option InsertLog :=
  match executeMvcc host depth action.statement log.engine with
  | .ok _ next =>
    some
      { engine := next, rows := log.rows ++ action.givenRows host log.engine }
  | .error (.error _) next => some { log with engine := next }
  | .error _ _ => none

/-- The columns that an INSERT names are all columns of its table, each
once. -/
def CoversColumns (log : InsertLog) : InsertAction → Prop
  | .begin => True
  | .commit => True
  | .insert ins =>
    ∀ table colIndices, log.engine.catalog.lookup ins.table = some table →
      insertColumns table ins.columns = .ok colIndices →
      colIndices.Perm (range table.columns.length)

end InsertLog

/-- The row was inserted outside a transaction or in one that has
committed. -/
def LoggedRow.Settled (mgr : MvccTxnManager) (entry : LoggedRow) : Prop :=
  ∀ txnId, entry.author = some txnId → ∃ cid, mgr.txnState txnId = .committed cid

/-- `SELECT *` returns, and at the position of the row it has its cells. -/
def Returned (host : Host) (engine : QueryEngine) (entry : LoggedRow) : Prop :=
  ∃ table res, ∃ position : Nat, engine.catalog.lookup entry.table = some table ∧
    selectStar host engine entry.table = .ok res ∧
    (filterIndices host table (some engine.mvccTxnManager))[position]? = some entry.row ∧
    res.columns.map (fun column => column.values[position]?) = entry.cells.map some

/-! ## Reading a rectangular table -/

section

variable {table : Table}

theorem Rectangular.cellOf_getD (rectangular : Rectangular table) {colIdx row : Nat}
    (inColumns : colIdx < table.columns.length) (inRows : row < table.rowCount) :
    table.cellOf colIdx row = some ((table.cellOf colIdx row).getD 0) := by
  have filled := rectangular.filled _ (getElem_mem inColumns)
  have inColumn : row < (table.columns[colIdx]).length := by omega
  unfold Table.cellOf
  rw [getElem?_eq_getElem inColumns, Option.bind_some, getElem?_eq_getElem inColumn]
  rfl

theorem Rectangular.executeSelectStar_ok
    (rectangular : Rectangular table) (host : Host) (mgr : MvccTxnManager) :
    ∃ res, executeSelectStar host table none (some mgr) = .ok res ∧
      ∀ (pos : Nat) row,
        ((range table.rowCount).filter (rowVisibleToActive table mgr))[pos]? = some row →
        res.columns.map (fun column => column.values[pos]?) =
          (range table.columns.length).map (fun colIdx => table.cellOf colIdx row) := by
  generalize isVisible : (range table.rowCount).filter (rowVisibleToActive table mgr) = visible
  have inRows : ∀ row ∈ visible, row < table.rowCount := by
    intro row mem
    rw [← isVisible] at mem
    exact mem_range.mp (mem_of_mem_filter mem)
  let read (entry : String × Nat) : ResultColumn :=
    { name := entry.1, values := visible.map (fun row => (table.cellOf entry.2 row).getD 0)
      stringValues := none, typeOid := 0, nullMask := none }
  have inColumns : ∀ entry ∈ table.columnNames.zipIdx, entry.2 < table.columns.length := by
    intro entry mem
    rw [rectangular.named]
    simpa using (mem_zipIdx mem).2.1
  refine ⟨{ columns := table.columnNames.zipIdx.map read, rowCount := visible.length }, ?_, ?_⟩
  · refine executeSelectStar_eq_ok_iff.mpr ⟨_, ?_, by rw [isVisible]⟩
    rw [isVisible, forall₂_map_right_iff, forall₂_same]
    intro entry mem
    refine scanColumn_eq_ok_iff.mpr ⟨_, ?_, rfl⟩
    rw [forall₂_map_right_iff, forall₂_same]
    intro row shown
    exact rectangular.cellOf_getD (inColumns entry mem) (inRows row shown)
  · intro pos row shown
    have inTable := inRows row (mem_of_getElem? shown)
    rw [rectangular.named, range_eq_range', ← zipIdx_map_snd, map_map, map_map]
    refine map_congr_left fun entry mem => ?_
    simp only [Function.comp_apply, read, getElem?_map, shown, Option.map_some]
    exact (rectangular.cellOf_getD (inColumns entry mem) inTable).symm

theorem visible_iff_author {row author : Nat} (mgr : MvccTxnManager)
    (chain : table.chainAt row = [new author []]) :
    rowVisibleToActive table mgr row = true ↔ author ∈ seenAuthors mgr := by
  rw [rowVisibleToActive_iff_sees, chain]
  simp [VersionChain.Sees, new]

end

/-! ## What the engine keeps of a logged row -/

/-- The row is in its table as it was given. -/
def Stored (engine : QueryEngine) (entry : LoggedRow) : Prop :=
  ∃ table, engine.catalog.lookup entry.table = some table ∧
    entry.row < table.rowCount ∧
    table.chainAt entry.row = [new (entry.author.getD 0) []] ∧
    entry.cells.length = table.columns.length ∧
    ∀ colIdx < table.columns.length, table.cellOf colIdx entry.row = entry.cells[colIdx]?

/-- The author is the running transaction, or the running transaction began
after it had committed. -/
def KnownAuthor (mgr : MvccTxnManager) (txnId : Nat) : Prop :=
  mgr.activeId = some txnId ∨ mgr.CommittedBy (mgr.activeSnapshotId.getD mgr.currentCommitId) txnId

theorem Stored.returned_iff {host : Host} {engine : QueryEngine} {entry : LoggedRow}
    (stored : Stored engine entry)
    (rectangular : ∀ name table, engine.catalog.lookup name = some table → Rectangular table) :
    Returned host engine entry ↔ entry.author.getD 0 ∈ seenAuthors engine.mvccTxnManager := by
  obtain ⟨table, held, inTable, chain, width, cells⟩ := stored
  constructor
  · rintro ⟨found, _, pos, isFound, -, shown, -⟩
    cases held.symm.trans isFound
    rw [filterIndices_some] at shown
    have visible := (mem_filter.mp (mem_of_getElem? shown)).2
    exact (visible_iff_author _ chain).mp visible
  · intro seen
    have visible := (visible_iff_author engine.mvccTxnManager chain).mpr seen
    obtain ⟨res, selected, rows⟩ :=
      (rectangular _ table held).executeSelectStar_ok host engine.mvccTxnManager
    have mem : entry.row ∈
        (range table.rowCount).filter (rowVisibleToActive table engine.mvccTxnManager) :=
      mem_filter.mpr ⟨mem_range.mpr inTable, visible⟩
    obtain ⟨pos, shown⟩ := mem_iff_getElem?.mp mem
    refine ⟨table, res, pos, held, ?_, ?_, ?_⟩
    · unfold selectStar
      rw [held]
      exact selected
    · rw [filterIndices_some]
      exact shown
    · rw [rows pos entry.row shown, ← width]
      refine ext_getElem? fun colIdx => ?_
      by_cases inRange : colIdx < entry.cells.length
      · have stored := cells colIdx (width ▸ inRange)
        rw [getElem?_map, getElem?_map,
          getElem?_range inRange, Option.map_some, stored, getElem?_eq_getElem inRange]
        rfl
      · simp [inRange]

/-! ## Authors -/

section

variable {mgr : MvccTxnManager}

variable {txnId : Nat}

theorem KnownAuthor.seen (known : KnownAuthor mgr txnId) : txnId ∈ seenAuthors mgr := by
  rcases known with active | committed
  · left
    rw [active]
    rfl
  · exact .inr committed

theorem activeId_ne_zero (consistent : ManagerConsistent mgr) : mgr.activeId ≠ some 0 := by
  obtain ⟨begun, inv, running⟩ := consistent
  intro isZero
  obtain ⟨txn, active, zero⟩ := Option.map_eq_some_iff.mp isZero
  have positive := (inv.idBelow txn (running txn active).1).1
  omega

/-- No transaction has the id 0, so only the autocommit reader sees what was
written under it. -/
theorem zero_mem_seenAuthors_iff (consistent : ManagerConsistent mgr) :
    0 ∈ seenAuthors mgr ↔ mgr.currentActive = none := by
  have notZero := activeId_ne_zero consistent
  obtain ⟨begun, inv, running⟩ := consistent
  have neverCommitted : ∀ snapshotId, ¬ mgr.CommittedBy snapshotId 0 := by
    rintro snapshotId ⟨cid, committed, -⟩
    obtain ⟨txn, mem, isZero⟩ := inv.recorded 0 _ (MvccTxnManager.lookup_of_committed committed)
    have positive := (inv.idBelow txn mem).1
    omega
  constructor
  · rintro (isActive | committed)
    · cases active : mgr.currentActive with
      | none => rfl
      | some txn =>
        simp only [MvccTxnManager.activeId, active, Option.map_some,
          Option.getD_some] at isActive notZero
        exact absurd (congrArg some isActive.symm) notZero
    · exact absurd committed (neverCommitted _)
  · intro idle
    left
    unfold MvccTxnManager.activeId
    rw [idle]
    rfl

theorem KnownAuthor.begin (known : KnownAuthor mgr txnId)
    (idle : mgr.currentActive = none) (unused : mgr.txnStates.lookup mgr.nextTxnId = none) :
    KnownAuthor mgr.begin.2 txnId := by
  rcases known with active | committed
  · unfold MvccTxnManager.activeId at active
    rw [idle] at active
    cases active
  · unfold MvccTxnManager.activeSnapshotId at committed
    rw [idle] at committed
    exact .inr ((committedBy_begin unused).mpr committed)

theorem KnownAuthor.commit {txn : MvccTransaction}
    (known : KnownAuthor mgr txnId) (inv : ManagerConsistent mgr)
    (active : mgr.currentActive = some txn) :
    KnownAuthor ({ mgr with currentActive := none }.commit txn.id).2
      txnId := by
  right
  by_cases own : txnId = txn.id
  · refine ⟨mgr.commitId + 1, ?_, le_refl _⟩
    simp only [MvccTxnManager.commit, MvccTxnManager.finish,
      MvccTxnManager.txnState, lookup_insert_eq, if_pos own]
    rfl
  · rcases known with isActive | ⟨cid, committed, -⟩
    · simp only [MvccTxnManager.activeId, active, Option.map_some, Option.some.injEq] at isActive
      exact absurd isActive.symm own
    · refine ⟨cid, ?_, (cid_le_commitId inv committed).trans ?_⟩
      · simp only [MvccTxnManager.commit, MvccTxnManager.finish,
          MvccTxnManager.txnState, lookup_insert_eq, if_neg own]
        exact committed
      · exact Nat.le_succ mgr.commitId

end

/-! ## The invariant of the log -/

structure Recorded (log : InsertLog) : Prop where
  consistent : log.engine.Consistent
  rectangular : ∀ name table, log.engine.catalog.lookup name = some table → Rectangular table
  stored : ∀ entry ∈ log.rows, Stored log.engine entry
  known : ∀ entry ∈ log.rows, ∀ txnId, entry.author = some txnId →
      KnownAuthor log.engine.mvccTxnManager txnId

section

variable {host : Host} {depth : Nat} {engine next : QueryEngine}
  {entry : LoggedRow}

theorem Stored.of_lookup_eq (stored : Stored engine entry)
    (same : ∀ name, next.catalog.lookup name = engine.catalog.lookup name) : Stored next entry := by
  obtain ⟨table, held, facts⟩ := stored
  exact ⟨table, (same _).trans held, facts⟩

variable {table changed : Table} {colIndices : List Nat}

theorem Stored.inserted {name : String} {xmin : Nat}
    {values : List (List String)} (stored : Stored engine entry)
    (held : engine.catalog.lookup name = some table)
    (inserted : Inserted host xmin colIndices values table changed) :
    Stored { engine with catalog := engine.catalog.insert name changed } entry := by
  obtain ⟨found, isFound, inTable, chain, width, cells⟩ := stored
  by_cases same : entry.table = name
  · rw [same] at isFound
    cases held.symm.trans isFound
    have count := inserted.count
    refine ⟨changed, ?_, by omega, ?_, ?_, ?_⟩
    · simp [lookup_insert_eq, same]
    · rw [inserted.chains, if_neg (by omega)]
      exact chain
    · rw [width, inserted.rowsAdded.columns_length]
    · intro colIdx inRange
      rw [inserted.rowsAdded.columns_length] at inRange
      have given := getElem?_eq_getElem (width.symm ▸ inRange)
      rw [given]
      exact inserted.cellOf_old ((cells colIdx inRange).trans given)
  · refine ⟨found, ?_, inTable, chain, width, cells⟩
    simp [same, isFound]

theorem given_author {ins : Insert} (held : engine.catalog.lookup ins.table = some table)
    (columns : insertColumns table ins.columns = .ok colIndices)
    (bounded : table.rowVersions.length ≤ table.rowCount)
    (inserted :
      Inserted host (engine.mvccTxnManager.activeId.getD 0) colIndices ins.values table changed)
    (mem : entry ∈ givenRows host engine ins) :
    entry.author = engine.mvccTxnManager.activeId ∧
      entry.table = ins.table ∧ entry.row < changed.rowCount ∧
      changed.chainAt entry.row = [new (entry.author.getD 0) []] := by
  simp only [givenRows, held, columns] at mem
  obtain ⟨⟨rowVals, k⟩, atRow, rfl⟩ := mem_map.mp mem
  have inValues : k < ins.values.length :=
    (List.getElem?_eq_some_iff.mp (mem_zipIdx_iff_getElem?.mp atRow)).1
  have count := inserted.count
  have noChain : table.chainAt (table.rowCount + k) = [] := by
    by_contra nonempty
    have inside := Table.lt_length_of_chainAt nonempty
    omega
  refine ⟨rfl, rfl, ?_, ?_⟩
  · simp only
    omega
  · simp only
    rw [inserted.chains, if_pos (by omega), noChain]
    rfl

theorem stored_given {ins : Insert} (held : engine.catalog.lookup ins.table = some table)
    (columns : insertColumns table ins.columns = .ok colIndices)
    (bounded : table.rowVersions.length ≤ table.rowCount) (rectangular : Rectangular table)
    (inserted :
      Inserted host (engine.mvccTxnManager.activeId.getD 0) colIndices ins.values table changed)
    (covers : colIndices.Perm (range table.columns.length))
    (mem : entry ∈ givenRows host engine ins) :
    entry.author = engine.mvccTxnManager.activeId ∧
      Stored { engine with catalog := engine.catalog.insert ins.table changed } entry := by
  obtain ⟨isAuthor, -, inTable, chain⟩ := given_author held columns bounded inserted mem
  simp only [givenRows, held, columns] at mem
  obtain ⟨⟨rowVals, k⟩, atRow, rfl⟩ := mem_map.mp mem
  have given : ins.values[k]? = some rowVals := mem_zipIdx_iff_getElem?.mp atRow
  refine ⟨isAuthor, changed, Finmap.lookup_insert _, inTable, chain, ?_, ?_⟩
  · rw [inserted.rowsAdded.columns_length]
    exact inserted.insertedCells_length covers given
  · intro colIdx inRange
    rw [inserted.rowsAdded.columns_length] at inRange
    exact inserted.cellOf_new covers rectangular given inRange

theorem executeMvcc_commit_eq_ok {res : QueryResult}
    (ran : executeMvcc host depth .commit engine = .ok res next) :
    ∃ txn, engine.mvccTxnManager.currentActive = some txn ∧
      next =
        { engine with
          mvccTxnManager :=
            ({ engine.mvccTxnManager with
                currentActive := none }.commit txn.id).2
          savepoints := [] } := by
  obtain ⟨_, controlled, accepted, final⟩ := bind_eq_ok_iff.mp ran
  cases active : engine.mvccTxnManager.currentActive with
  | none =>
    have refused : engine.mvccTxnManager.commitCompat = .error "no active transaction" := by
      simp [MvccTxnManager.commitCompat, active]
    rw [controlTransaction_error refused] at accepted
    cases accepted
  | some txn =>
    have commits : engine.mvccTxnManager.commitCompat = .ok
            ({ engine.mvccTxnManager with
                currentActive := none }.commit txn.id) := by
      simp [MvccTxnManager.commitCompat, active]
    rw [controlTransaction_ok commits] at accepted
    cases accepted
    cases final
    exact ⟨txn, rfl, rfl⟩

theorem sameTables_of_controlError {control : MvccTxnManager → Except String (Nat × MvccTxnManager)}
    {rest : Unit → EngineM QueryResult} {fault : Fault}
    (quiet : ∀ done, Throws (fun _ => False) (rest done))
    (failed : (controlTransaction control >>= rest) engine = .error fault next) :
    SameTables engine next := by
  cases out : control engine.mvccTxnManager with
  | error message =>
    rw [bind_run_error (controlTransaction_error out)] at failed
    cases failed
    exact sameTables_refl _
  | ok accepted =>
    rw [bind_run_ok (controlTransaction_ok out)] at failed
    exact (quiet () _ _ _ failed).elim

theorem sameTables_of_error {action : InsertAction} {error : Error}
    (failed : executeMvcc host depth action.statement engine = .error (.error error) next) :
    SameTables engine next := by
  cases action with
  | begin => exact sameTables_of_controlError (fun _ => .pure _) failed
  | commit =>
    exact sameTables_of_controlError
      (fun _ => .bind (.modify _) fun _ => .pure _) failed
  | insert ins => exact errorKeeps_executeInsert ins error next failed

end

namespace Recorded

variable {host : Host} {depth : Nat} {log : InsertLog} {next : QueryEngine}

theorem of_sameTables (recorded : Recorded log) (consistent : next.Consistent)
    (same : ∀ name, next.catalog.lookup name = log.engine.catalog.lookup name)
    (known : ∀ txnId, KnownAuthor log.engine.mvccTxnManager txnId →
        KnownAuthor next.mvccTxnManager txnId) :
    Recorded { log with engine := next } where
  consistent := consistent
  rectangular := fun name table held =>
    recorded.rectangular name table ((same name).symm.trans held)
  stored := fun entry mem => (recorded.stored entry mem).of_lookup_eq same
  known := fun entry mem txnId isAuthor =>
    known txnId (recorded.known entry mem txnId isAuthor)

variable {res : QueryResult}

variable (recorded : Recorded log)

include recorded

theorem insert {ins : Insert} (covers : log.CoversColumns (.insert ins))
    (ran : executeMvcc host depth (.dml (.insert ins)) log.engine = .ok res next) :
    Recorded { engine := next, rows := log.rows ++ givenRows host log.engine ins } := by
  have inv : next.Consistent := (consistent_executeMvcc _).reached ran recorded.consistent
  obtain ⟨table, changed, colIndices, held, columns, inserted, same⟩ :=
    executeInsert_ok recorded.consistent.mode ran
  have coversTable := covers table colIndices held columns
  have rectangular := recorded.rectangular _ table held
  have bounded := (recorded.consistent.tables _ table held).bounded
  have sameLookup := same.lookup_eq
  have given : ∀ entry ∈ givenRows host log.engine ins,
        entry.author = log.engine.mvccTxnManager.activeId ∧
          Stored { log.engine with catalog := log.engine.catalog.insert ins.table changed } entry :=
    fun _ mem => stored_given held columns bounded rectangular inserted coversTable mem
  constructor
  · exact inv
  · intro name found isFound
    rw [sameLookup, lookup_insert_eq] at isFound
    split at isFound
    · cases isFound
      exact inserted.rectangular coversTable rectangular
    · exact recorded.rectangular name found isFound
  · intro entry mem
    refine .of_lookup_eq ?_ sameLookup
    rcases mem_append.mp mem with old | new
    · exact (recorded.stored entry old).inserted held inserted
    · exact (given entry new).2
  · intro entry mem txnId isAuthor
    rw [same.sameManager]
    rcases mem_append.mp mem with old | new
    · exact recorded.known entry old txnId isAuthor
    · exact .inl ((given entry new).1.symm.trans isAuthor)

theorem begin (ran : executeMvcc host depth .begin log.engine = .ok res next) :
    Recorded { log with engine := next } := by
  have consistent : next.Consistent := (consistent_executeMvcc _).reached ran recorded.consistent
  obtain ⟨idle, rfl⟩ := executeMvcc_begin_eq_ok ran
  obtain ⟨begun, inv, -⟩ := recorded.consistent.manager
  have unused := inv.lookup_next (le_refl _)
  exact recorded.of_sameTables consistent (fun _ => rfl) (fun _ known => known.begin idle unused)

theorem commit (ran : executeMvcc host depth .commit log.engine = .ok res next) :
    Recorded { log with engine := next } := by
  have inv : next.Consistent := (consistent_executeMvcc _).reached ran recorded.consistent
  obtain ⟨txn, active, rfl⟩ := executeMvcc_commit_eq_ok ran
  exact recorded.of_sameTables inv (fun _ => rfl)
    (fun _ known => known.commit recorded.consistent.manager active)

theorem error {action : InsertAction} {error : Error}
    (failed : executeMvcc host depth action.statement log.engine = .error (.error error) next) :
    Recorded { log with engine := next } := by
  have inv : next.Consistent := (consistent_executeMvcc _).reached_error failed recorded.consistent
  have same := sameTables_of_error failed
  refine recorded.of_sameTables inv same.lookup_eq ?_
  rw [same.sameManager]
  exact fun _ known => known

theorem step {action : InsertAction} {nextLog : InsertLog}
    (covers : log.CoversColumns action) (enabled : log.step host depth action = some nextLog) :
    Recorded nextLog := by
  unfold InsertLog.step at enabled
  split at enabled
  · next res next ran =>
    cases enabled
    cases action with
    | begin =>
      have kept := recorded.begin ran
      simpa [InsertAction.givenRows] using kept
    | commit =>
      have kept := recorded.commit ran
      simpa [InsertAction.givenRows] using kept
    | insert ins => exact recorded.insert covers ran
  · next error next failed =>
    cases enabled
    exact recorded.error failed
  · cases enabled

end Recorded

/-! ## Later readers -/

/-- In every session whose INSERTs cover the columns of their tables, a row of
an accepted INSERT is returned by a later `SELECT *` exactly if it was inserted
inside a transaction or the `SELECT` runs in autocommit. -/
theorem inserted_row_returned_iff {host : Host} {depth : Nat} {start : QueryEngine}
    {actions : List InsertAction} {log : InsertLog} {entry : LoggedRow}
    (reachable : start.Reachable host depth)
    (rectangular : ∀ name table, start.catalog.lookup name = some table → Rectangular table)
    (run : Run (InsertLog.step host depth) InsertLog.CoversColumns
        { engine := start, rows := [] } actions log)
    (member : entry ∈ log.rows) :
    Returned host log.engine entry ↔
      entry.author ≠ none ∨ log.engine.mvccTxnManager.currentActive = none := by
  have initially : Recorded { engine := start, rows := [] } :=
    ⟨reachable.consistent, rectangular, forall_mem_nil _, forall_mem_nil _⟩
  have recorded : Recorded log :=
    run.invariant Recorded (fun _ _ _ holds covers enabled => holds.step covers enabled) initially
  rw [(recorded.stored entry member).returned_iff recorded.rectangular]
  cases author : entry.author with
  | none =>
    rw [Option.getD_none, zero_mem_seenAuthors_iff recorded.consistent.manager]
    simp
  | some txnId =>
    have seen := (recorded.known entry member txnId author).seen
    simp [seen]

def insertsNine : InsertAction := .insert { table := "t", columns := none, values := [["9"]] }

/-- The table `t` with the row `9`, inserted by `author`. -/
def nineBy (author : Nat) : Table :=
  { oneColumn with
    columns := [[9]]
    rowCount := 1
    rowVersions := [[new author []]] }

/-- The session inserts inside a transaction, commits it and begins
another. -/
theorem inserted_row_returned_committed : ∃ log,
      Run (InsertLog.step plainHost 1) InsertLog.CoversColumns
          { engine := withTable oneColumn, rows := [] }
          [.begin, insertsNine, .commit, .begin] log ∧
        log.rows = [{ table := "t", row := 0, cells := [9],
                      author := some 1 }] ∧
          log.engine.mvccTxnManager.currentActive.isSome ∧
          ∀ entry ∈ log.rows, Returned plainHost log.engine entry := by
  let start : QueryEngine := withTable oneColumn
  have reachable : start.Reachable plainHost 1 := ⟨start, [], initial_withTable rfl, .nil _⟩
  have rectangular : ∀ name table, start.catalog.lookup name = some table → Rectangular table := by
    intro name table held
    simp only [start, withTable, inMemory, lookup_insert_eq, Finmap.lookup_empty] at held
    split at held
    · cases held
      exact ⟨rfl, by simp [oneColumn]⟩
    · split at held
      · cases held
        exact ⟨rfl, by simp [dummyTable]⟩
      · cases held
  have covers : InsertLog.CoversColumns { engine := start.inTransaction, rows := [] }
        insertsNine := by
    intro table colIndices held columns
    have isTable : start.catalog.lookup "t" = some oneColumn := rfl
    cases isTable.symm.trans held
    cases columns
    exact .refl _
  let committed : QueryEngine :=
    { start with
      catalog := start.catalog.insert "t" (nineBy 1)
      mvccTxnManager :=
        ({ start.mvccTxnManager.begin.2 with
            currentActive := none }.commit 1).2 }
  let log : InsertLog :=
    { engine := committed.inTransaction
      rows := [{ table := "t", row := 0, cells := [9], author := some 1 }] }
  have run : Run (InsertLog.step plainHost 1) InsertLog.CoversColumns
        { engine := start, rows := [] } [.begin, insertsNine, .commit, .begin] log := by
    have closing : Run (InsertLog.step plainHost 1) InsertLog.CoversColumns
          { log with
            engine :=
              { start.inTransaction with
                catalog := start.catalog.insert "t" (nineBy 1) } }
          [.commit, .begin] log :=
      .cons trivial rfl (.cons trivial rfl (.nil _))
    exact .cons trivial rfl (.cons covers rfl closing)
  refine ⟨log, run, rfl, rfl, fun entry mem => ?_⟩
  refine (inserted_row_returned_iff reachable rectangular run mem).mpr ?_
  left
  rw [mem_singleton.mp mem]
  exact Option.some_ne_none _

/-- A row inserted in autocommit is hidden from a transaction begun later. -/
theorem autocommit_row_hidden_from_later_transaction : ¬ ∃ host depth, ∀ start actions log entry,
    QueryEngine.Reachable host depth start →
    Run (InsertLog.step host depth) anyStep { engine := start, rows := [] } actions log →
            entry ∈ log.rows →
            entry.Settled log.engine.mvccTxnManager → Returned host log.engine entry := by
  rintro ⟨host, depth, ran⟩
  let start : QueryEngine := withTable oneColumn
  have reachable : start.Reachable host depth := ⟨start, [], initial_withTable rfl, .nil _⟩
  let entry : LoggedRow := { table := "t", row := 0, cells := [9], author := none }
  let log : InsertLog :=
    { engine :=
        { start.inTransaction with
          catalog := start.catalog.insert "t" (nineBy 0) }
      rows := [entry] }
  have run : Run (InsertLog.step host depth) anyStep
        { engine := start, rows := [] } [insertsNine, .begin] log :=
    .cons trivial rfl (.cons trivial rfl (.nil _))
  have settled : entry.Settled log.engine.mvccTxnManager := by
    intro txnId inTransaction
    cases inTransaction
  obtain ⟨table, res, pos, held, -, shown, -⟩ :=
    ran start _ log entry reachable run (mem_singleton_self _) settled
  have isTable : log.engine.catalog.lookup "t" = some (nineBy 0) := rfl
  cases isTable.symm.trans held
  cases shown

end TurboGP.Engine
