import TurboGP.Engine.JoinedRows
import TurboGP.Engine.Session

/-! # Joins and visibility -/

namespace TurboGP.Engine

open Datasource Exec Sql Sql.Text Effect QueryResult
open Txn RowSelection List Option

/-- A query whose only join is an inner join on equal columns.  The hash table
of the join numbers the rows of the right table with 32 bits. -/
structure InnerJoin (host : SelectHost) (catalog : Catalog)
    (query : SelectQuery) where
  join : JoinClause
  left : Table
  right : Table
  keys : List JoinKey
  oneJoin : query.joins = [join]
  leftFound : catalog.lookup query.fromTable = some left
  rightFound : catalog.lookup join.table = some right
  notCross : toUppercase host.unicode join.joinType.toList ≠ "CROSS".toList
  isInner : joinTypeOf (toUppercase host.unicode join.joinType.toList) = .inner
  equalities : extractJoinKeys host.debugExpr join.on left right = .ok keys
  fits : right.rowCount < 2 ^ 32

/-- The select lists that return rows of the table: every row of the result is
a row of the table, not a group of them and not a constant. -/
def ReturnsRows (query : SelectQuery) : Prop :=
  query.groupBy = [] ∧
    (query.select = [.star] ∨ (∃ name, query.select = [.column name]) ∨ query.select.length ≠ 1)

def dispatches (host : SelectHost) (query : SelectQuery) : Bool :=
  decide (classifyQuery host.unicode query ≠ .complex) &&
    !query.whereClause.any needsInterpreterFallback

namespace InnerJoin

variable {host : SelectHost} {aggregates : AggregateHost}
  {catalog : Catalog} {query : SelectQuery}
  (source : InnerJoin host catalog query)

def pairs : List (Nat × Nat) :=
  matchingPairs source.left source.right source.keys

def cells : List (Nat × Nat → Cell) := joinedCells source.left source.right

def columnNames : List String :=
  (qualifyNames query.fromTable source.join.table source.left.columns.length
    source.right.columnNames (source.left.columnNames ++ source.right.columnNames)).toOption.getD []

def tableName : String := s!"__join_{source.join.table}"

def table : Table := itemTable source.tableName source.cells source.columnNames source.pairs

def scanned : Except Fault (Nat × Nat → Bool) := do
  let clause ← parseWhere host.xxh3 host.debugExpr source.table query.whereClause
  scanTest host.xxh3 source.cells source.columnNames clause

/-- The WHERE condition on a pair of rows, as the executor evaluates it. -/
def whereHolds : Nat × Nat → Bool :=
  (if dispatches host query then
    itemTest host query source.tableName source.cells source.columnNames source.pairs
  else source.scanned).toOption.getD (fun _ => true)

def order : Option (Nat × Bool) :=
  if dispatches host query then
    match query.select with
    | [.star] => none
    | [.column name] => orderColumn query source.table ((resolveColName name source.table).getD 0)
    | _ => orderColumn query source.table 0
  else none

/-- The pairs that satisfy the ON and WHERE conditions, in the order of the
result. -/
def inOrder : List (Nat × Nat) :=
  inOrderOf source.cells source.order (source.pairs.filter source.whereHolds)

def returned : List (Nat × Nat) := cut query.limit source.inOrder

def Visible (manager : MvccTxnManager) (pair : Nat × Nat) : Prop :=
  rowVisibleToActive source.left manager pair.1 = true ∧
    rowVisibleToActive source.right manager pair.2 = true

def Satisfies (pair : Nat × Nat) : Prop :=
  pair.1 < source.left.rowCount ∧ pair.2 < source.right.rowCount ∧
    keysEqual source.left source.right source.keys pair.1 pair.2 = true ∧
    source.whereHolds pair = true

/-- A cell of a pair of rows: the columns of the left table come first. -/
def cellOf (colIdx : Nat) (pair : Nat × Nat) : Option Cell :=
  if colIdx < source.left.columns.length then
    source.left.cellOf colIdx pair.1
  else source.right.cellOf (colIdx - source.left.columns.length) pair.2

structure ComesFrom (chosen : List (Nat × Nat)) (result : QueryResult) : Prop where
  rowCount : result.rowCount = chosen.length
  columns : ∀ column ∈ result.columns, ∃ colIdx,
      List.Forall₂ (fun pair value => source.cellOf colIdx pair = some value) chosen column.values

structure RespectsVisibility (manager : MvccTxnManager)
    (chosen : List (Nat × Nat)) : Prop where
  visible : ∀ pair ∈ chosen, source.Visible manager pair
  complete : ∀ pair, source.Satisfies pair → source.Visible manager pair → pair ∈ chosen

theorem satisfies_iff (pair : Nat × Nat) :
    source.Satisfies pair ↔ pair ∈ source.pairs.filter source.whereHolds := by
  rw [mem_filter]
  unfold pairs Satisfies
  rw [mem_matchingPairs_iff]
  simp only [and_assoc]

theorem inOrder_perm : source.inOrder.Perm (source.pairs.filter source.whereHolds) := by
  unfold inOrder inOrderOf
  split
  · exact .refl _
  · exact mergeSort_perm _ _

theorem nodup_pairs : source.pairs.Nodup := by
  unfold pairs matchingPairs
  rw [nodup_flatMap]
  constructor
  · intro leftRow _
    apply List.Nodup.map
    · intro first second same
      exact (Prod.mk.inj same).2
    · exact nodup_reverse.mpr (nodup_range.filter _)
  · apply nodup_range.imp
    intro first second ne pair inFirst inSecond
    obtain ⟨_, -, isFirst⟩ := mem_map.mp inFirst
    obtain ⟨_, -, isSecond⟩ := mem_map.mp inSecond
    rw [← isSecond] at isFirst
    exact ne (Prod.mk.inj isFirst).1

theorem nodup_inOrder : source.inOrder.Nodup :=
  source.inOrder_perm.nodup_iff.mpr (source.nodup_pairs.filter _)

theorem mem_pairs_of_mem_returned {pair : Nat × Nat} (mem : pair ∈ source.returned) :
    pair ∈ source.pairs :=
  (mem_filter.mp (source.inOrder_perm.mem_iff.mp (mem_of_mem_take mem))).1

theorem respectsVisibility_returned_iff (manager : MvccTxnManager) :
    source.RespectsVisibility manager source.returned ↔
      ∀ pos pair, source.inOrder[pos]? = some pair →
        (source.Visible manager pair ↔ ∀ limit ∈ query.limit, pos < limit) := by
  have parts := forall_take_iff source.nodup_inOrder
      (query.limit.getD source.inOrder.length) (source.Visible manager)
  have bound : ∀ pos pair, source.inOrder[pos]? = some pair →
      (pos < query.limit.getD source.inOrder.length ↔ ∀ limit ∈ query.limit, pos < limit) := by
    intro pos pair found
    obtain ⟨inside, -⟩ := List.getElem?_eq_some_iff.mp found
    cases query.limit with
    | none => simpa using inside
    | some limit => simp
  constructor
  · intro respects pos pair found
    rw [← bound pos pair found]
    refine parts.mp ⟨respects.visible, ?_⟩ pos pair found
    intro other mem
    exact respects.complete other
      ((source.satisfies_iff other).mpr (source.inOrder_perm.mem_iff.mp mem))
  · intro exactly
    have both := parts.mpr
        (fun pos pair found => (exactly pos pair found).trans (bound pos pair found).symm)
    refine ⟨both.1, fun pair satisfied => both.2 pair ?_⟩
    exact source.inOrder_perm.mem_iff.mpr ((source.satisfies_iff pair).mp satisfied)

theorem joinStep_eq {running : Table}
    (joined : joinStep host catalog query.fromTable source.left source.join = .ok running) :
    running = source.table ∧ ∀ pair ∈ source.pairs, CellsExist source.left source.right pair := by
  unfold joinStep tableOrMissing at joined
  rw [source.rightFound] at joined
  obtain ⟨right, isRight, joined⟩ := except_ok_iff.mp joined
  cases isRight
  rw [if_neg source.notCross, source.isInner] at joined
  obtain ⟨keys, isKeys, joined⟩ := except_ok_iff.mp joined
  rw [source.equalities] at isKeys
  cases isKeys
  obtain ⟨result, isResult, joined⟩ := except_ok_iff.mp joined
  obtain ⟨names, isNames, joined⟩ := except_ok_iff.mp joined
  cases joined
  obtain ⟨sameResult, exist⟩ := hashJoin_inner source.fits isResult
  refine ⟨?_, exist⟩
  rw [sameResult] at isNames ⊢
  unfold table columnNames
  rw [show qualifyNames query.fromTable source.join.table
        source.left.columns.length source.right.columnNames
        (source.left.columnNames ++ source.right.columnNames) =
      .ok names from isNames]
  rfl

theorem cells_eq_cellOf {pair : Nat × Nat} (exist : CellsExist source.left source.right pair)
    {colIdx : Nat} {value : Cell}
    (read : source.cells[colIdx]?.map (fun cell => cell pair) = some value) :
    source.cellOf colIdx pair = some value := by
  obtain ⟨cell, isCell, isValue⟩ := map_eq_some_iff.mp read
  unfold cells joinedCells at isCell
  unfold cellOf Table.cellOf
  by_cases onLeft : colIdx < source.left.columns.length
  · rw [getElem?_append_left (by simpa using onLeft),
      getElem?_map, map_eq_some_iff] at isCell
    obtain ⟨column, isColumn, isCell⟩ := isCell
    have inside := exist.1 column (mem_of_getElem? isColumn)
    rw [if_pos onLeft, isColumn, ← isValue, ← isCell]
    simp [inside]
  · rw [getElem?_append_right (by simpa using onLeft),
      length_map, getElem?_map, map_eq_some_iff] at isCell
    obtain ⟨column, isColumn, isCell⟩ := isCell
    have inside := exist.2 column (mem_of_getElem? isColumn)
    rw [if_neg onLeft, isColumn, ← isValue, ← isCell]
    simp [inside]

variable {result : QueryResult}

theorem comesFrom_of_readsItems {chosen : List (Nat × Nat)}
    (exist : ∀ pair ∈ chosen, CellsExist source.left source.right pair)
    (reads : ReadsItems source.cells chosen result) : source.ComesFrom chosen result := by
  refine ⟨reads.rowCount, fun column mem => ?_⟩
  obtain ⟨colIdx, cellsRead⟩ := reads.columns column mem
  have both := (forall₂_and_left _ _).mpr ⟨exist, cellsRead⟩
  refine ⟨colIdx, both.imp fun pair value facts => ?_⟩
  exact source.cells_eq_cellOf facts.1 facts.2

theorem dispatched_reads (returnsRows : ReturnsRows query)
    (dispatched : executeDispatched host { query with joins := [] } source.table =
        some (.ok result)) :
    ReadsItems source.cells source.returned result := by
  unfold executeDispatched at dispatched
  simp only at dispatched
  split at dispatched
  · cases dispatched
  next notComplex =>
  split at dispatched
  · cases dispatched
  next noFallback =>
  split at dispatched
  · cases dispatched
  have executed := some.inj dispatched
  have taken : dispatches host query = true := by
    have plain : classifyQuery host.unicode query ≠ .complex := notComplex
    have simple : query.whereClause.any needsInterpreterFallback = false :=
      Bool.eq_false_iff.mpr noFallback
    simp [dispatches, plain, simple]
  have answers : ∃ test, itemTest host query source.tableName source.cells
            source.columnNames source.pairs = .ok test ∧
        ReadsItems source.cells
          (dispatchedItems query source.cells source.order test source.pairs)
          result := by
    unfold order
    rw [if_pos taken]
    obtain ⟨ungrouped, isStar | ⟨name, isColumn⟩ | many⟩ := returnsRows
    · rw [isStar]
      have shape : classifyQuery host.unicode { query with joins := [] } = .selectStar := by
        simp [classifyQuery, ungrouped, isStar]
      rw [shape] at executed
      exact @executeStarShape_items _ _ _ _ _ _ _ { query with joins := [] } _ executed
    · rw [isColumn]
      have shape : classifyQuery host.unicode { query with joins := [] } = .selectColumn := by
        simp [classifyQuery, ungrouped, isColumn]
      rw [shape] at executed
      simp only [isColumn] at executed
      exact @executeColumnShape_items _ _ _ _ _ _ _ { query with joins := [] } _ name executed
    · have shape : classifyQuery host.unicode { query with joins := [] } = .selectMulti := by
        unfold classifyQuery at notComplex ⊢
        simp only [ungrouped, isEmpty_nil, Bool.not_true,
          Bool.false_eq_true, if_false] at notComplex ⊢
        split at notComplex
        all_goals simp_all
      rw [shape] at executed
      have multi := @executeMultiShape_items _ _ _ _ _ _ _ { query with joins := [] } _ executed
      split
      · next isStar => simp [isStar] at many
      · next isColumn => simp [isColumn] at many
      · exact multi
  obtain ⟨test, isTest, reads⟩ := answers
  have isWhere : source.whereHolds = test := by
    unfold whereHolds
    rw [if_pos taken, isTest]
    rfl
  unfold returned inOrder
  rw [isWhere]
  exact reads

theorem scanned_reads (returnsRows : ReturnsRows query) (plain : query.having = none)
    (left : executeDispatched host { query with joins := [] } source.table = none)
    (ran :
      executeJoinedScan host aggregates { query with joins := [] } source.table = .ok result) :
    ReadsItems source.cells source.returned result := by
  have notTaken : dispatches host query = false := by
    unfold executeDispatched at left
    simp only [plain] at left
    split at left
    · next complex =>
      have isComplex : classifyQuery host.unicode query = .complex := complex
      simp [dispatches, isComplex]
    · split at left
      · next needs => simp [dispatches, needs]
      · simp at left
  obtain ⟨clause, parsed, ran⟩ := except_ok_iff.mp ran
  have ungrouped := returnsRows.1
  simp only [ungrouped, isEmpty_nil, Bool.not_true, Bool.false_eq_true, if_false] at ran
  have answers : ∃ test, scanTest host.xxh3 source.cells source.columnNames clause = .ok test ∧
        ReadsItems source.cells (cut query.limit (source.pairs.filter test)) result := by
    obtain isStar | ⟨name, isColumn⟩ | many := returnsRows.2
    · simp only [isStar] at ran
      exact executeStarScan_items ran
    · simp only [isColumn] at ran
      exact executeColumnScan_items ran
    · split at ran
      all_goals first
        | exact executeMultiScan_items ran
        | simp_all
  obtain ⟨test, isTest, reads⟩ := answers
  have isScanned : source.scanned = .ok test := by
    unfold scanned
    rw [show
      parseWhere host.xxh3 host.debugExpr source.table query.whereClause = .ok clause from parsed]
    exact isTest
  have isWhere : source.whereHolds = test := by
    unfold whereHolds
    rw [notTaken, isScanned]
    rfl
  have noOrder : source.order = none := by
    unfold order
    rw [notTaken]
    rfl
  unfold returned inOrder
  rw [isWhere, noOrder]
  exact reads

end InnerJoin

namespace Example

def joinHost : SelectHost :=
  { plainHost with
    unicode :=
      { isAlphanumeric := fun _ => false
        toUppercase := fun c => [c]
        toLowercase := id
        debugChar := fun c => [c] }
    joinHash := id
    debugExpr := fun _ => ""
    planner := fun _ _ => .ok none
    aggregateShape := fun _ _ _ => .ok empty }

def noAggregates : AggregateHost :=
  { executeGroupBy := fun _ _ _ _ => .ok empty
    executeAggregate := fun _ _ _ _ _ _ => .ok empty
    executeAggregateNoGroup := fun _ _ _ _ => .ok empty }

def numbers (name : String) (cells : List Cell) (rowVersions : List (List RowVersion)) : Table :=
  { name := name, columns := [cells], columnNames := ["id"], rowCount := cells.length
    stringColumns := [none], nullBitmaps := [none], schema := none, rowVersions := rowVersions
    i32Columns := [none] }

/-- The second row of `t` was inserted by transaction 1. -/
def leftTable : Table := numbers "t" [1, 2] [[], [RowVersion.new 1 [2]]]

def rightTable : Table := numbers "u" [1, 2] []

def joinCatalog : Catalog := ((∅ : Catalog).insert "t" leftTable).insert "u" rightTable

/-- `SELECT * FROM t JOIN u ON t.id = u.id`. -/
def joinQuery : SelectQuery :=
  { select := [.star]
    fromTable := "t"
    joins :=
      [{ table := "u", on := .binary (.column "t.id") .eq (.column "u.id"), joinType := "INNER" }]
    whereClause := none
    groupBy := []
    having := none
    orderBy := []
    limit := none
    distinct := false }

def rolledBack : MvccTxnManager := MvccTxnManager.new.begin.2.rollback 1

def joinedNumbers : QueryResult :=
  { columns :=
      [{ name := "t.id", values := [1, 2], stringValues := none,
         typeOid := 0, nullMask := none },
       { name := "u.id", values := [1, 2], stringValues := none,
         typeOid := 0, nullMask := none }]
    rowCount := 2 }

def joinSource : InnerJoin joinHost joinCatalog joinQuery :=
  { join :=
      { table := "u", on := .binary (.column "t.id") .eq (.column "u.id"), joinType := "INNER" }
    left := leftTable
    right := rightTable
    keys := [{ left := 0, right := 0 }]
    oneJoin := rfl
    leftFound := rfl
    rightFound := rfl
    notCross := by decide
    isInner := by decide
    equalities := rfl
    fits := by decide }

def committedFirst : MvccTxnManager := (MvccTxnManager.new.begin.2.commit 1).2

end Example

end TurboGP.Engine
