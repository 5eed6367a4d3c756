import TurboGP.Engine.Select
import TurboGP.Lib.RowSelection

/-! # The rows a SELECT returns -/

namespace TurboGP.Engine

open Datasource Exec Sql Txn
open Effect RowSelection List Option

def ReadsColumn (table : Table) (rows : List Nat) (column : ResultColumn) : Prop :=
  ∃ colIdx, List.Forall₂ (fun row value => table.cellOf colIdx row = some value) rows column.values

structure ReadsRows (table : Table) (rows : List Nat)
    (result : QueryResult) : Prop where
  rowCount : result.rowCount = rows.length
  columns : ∀ column ∈ result.columns, ReadsColumn table rows column

section

variable {table : Table} {rows : List Nat} {colIdx : Nat}
  {columns : List ResultColumn}

theorem cellAt_eq_ok_iff {rowIdx : Nat} {cell : Cell} :
    Exec.cellAt table colIdx rowIdx = .ok cell ↔ table.cellOf colIdx rowIdx = some cell := by
  rw [cellAt_eq]
  cases table.cellOf colIdx rowIdx <;> simp

variable {name : String} {column : ResultColumn} {items : List SelectItem}

theorem resultColumn_reads {withStrings : Bool}
    (read : resultColumn table colIdx name withStrings rows = .ok column) :
    ReadsColumn table rows column := by
  obtain ⟨values, cells, isColumn⟩ := except_ok_iff.mp read
  cases isColumn
  exact ⟨colIdx, (mapM_eq_ok_iff.mp cells).imp (fun _ _ => cellAt_eq_ok_iff.mp)⟩

theorem scanColumn_reads (read : scanColumn table rows name colIdx = .ok column) :
    ReadsColumn table rows column := by
  obtain ⟨values, cells, isColumn⟩ := scanColumn_eq_ok_iff.mp read
  cases isColumn
  exact ⟨colIdx, cells⟩

theorem starColumns_reads (read : starColumns table rows = .ok columns) :
    ∀ column ∈ columns, ReadsColumn table rows column := by
  apply forall_of_mapM_ok read (ReadsColumn table rows)
  intro entry _ column got
  exact resultColumn_reads got

theorem starScan_reads
    (read : table.columnNames.zipIdx.mapM (fun entry => scanColumn table rows entry.1 entry.2) =
        .ok columns) :
    ∀ column ∈ columns, ReadsColumn table rows column := by
  apply forall_of_mapM_ok read (ReadsColumn table rows)
  intro entry _ column got
  exact scanColumn_reads got

theorem flatten_reads {read : SelectItem → Except Fault (List ResultColumn)}
    {groups : List (List ResultColumn)} (got : items.mapM read = .ok groups)
    (each : ∀ item group, read item = .ok group → ∀ column ∈ group, ReadsColumn table rows column) :
    ∀ column ∈ groups.flatten, ReadsColumn table rows column := by
  intro column mem
  obtain ⟨group, isGroup, inGroup⟩ := mem_flatten.mp mem
  exact forall_of_mapM_ok got _ (fun item _ => each item) group isGroup column inGroup

theorem itemColumns_reads (read : itemColumns table items rows = .ok columns) :
    ∀ column ∈ columns, ReadsColumn table rows column := by
  obtain ⟨groups, got, isColumns⟩ := except_ok_iff.mp read
  cases isColumns
  refine flatten_reads got fun item group found => ?_
  cases item with
  | column name =>
    obtain ⟨colIdx, -, found⟩ := except_ok_iff.mp found
    obtain ⟨column, read, isGroup⟩ := except_ok_iff.mp found
    cases isGroup
    simpa using resultColumn_reads read
  | star => exact starColumns_reads found
  | _ => cases found; simp

end

def itemTable {α : Type} (name : String) (cells : List (α → Cell))
    (columnNames : List String) (items : List α) : Table :=
  { name := name, columns := cells.map (fun cell => items.map cell), columnNames := columnNames
    rowCount := items.length, stringColumns := [], nullBitmaps := [], schema := none
    rowVersions := [], i32Columns := [] }

section

variable {α : Type} (xxh3 : List Char → Cell) (cells : List (α → Cell))

/-- What an item must satisfy for `eval_predicate_mask`. -/
def predicateTest (resolve : String → Option Nat) : Expr → Option (α → Bool)
  | .binary left .and right => do
    let leftTest ← predicateTest resolve left
    let rightTest ← predicateTest resolve right
    return fun item => leftTest item && rightTest item
  | .binary left .or right => do
    let leftTest ← predicateTest resolve left
    let rightTest ← predicateTest resolve right
    return fun item => leftTest item || rightTest item
  | .binary left op right => do
    let (name, value) ← columnAndLiteral left right
    let colIdx ← resolve name
    let cellOf ← cells[colIdx]?
    let cell ← valueToU64 xxh3 value
    let compare ← comparison op
    return fun item => compare (cellOf item) cell
  | _ => none

def dispatchTest (resolve : String → Option Nat) (columnNames : List String) :
    Option Expr → Except Fault (α → Bool)
  | none => return fun _ => true
  | some expr =>
    match predicateTest xxh3 cells resolve expr with
    | some test => return test
    | none => whereTest xxh3 cells columnNames expr (fun _ => true)

def scanTest (columnNames : List String) : WhereClause → Except Fault (α → Bool)
  | .none => return fun _ => true
  | clause => whereTest xxh3 cells columnNames (whereClauseToExpr clause) (fun _ => true)

variable (name : String) (columnNames : List String) (items : List α)

theorem comparisonMask_items (colIdx : Nat) (column : List Cell) (op : BinOp) (value : Value) :
    comparisonMask xxh3 (itemTable name cells columnNames items) colIdx column op value =
      (do
        let cell ← valueToU64 xxh3 value
        let compare ← comparison op
        return column.map (fun other => compare other cell)) := by
  unfold comparisonMask stringSidecar itemTable
  cases stringRange op <;> cases value <;> rfl

theorem evalPredicateMask_items (expr : Expr) :
    evalPredicateMask xxh3 (itemTable name cells columnNames items) expr = (predicateTest xxh3 cells
        (fun column => resolveColName column (itemTable name cells columnNames items)) expr).map
        (fun test => items.map test) := by
  fun_induction predicateTest xxh3 cells
      (fun column => resolveColName column (itemTable name cells columnNames items))
      expr with
  | case1 left right leftMask rightMask | case2 left right leftMask rightMask =>
    rw [evalPredicateMask, leftMask, rightMask]
    cases predicateTest xxh3 cells _ left with
    | none => rfl
    | some leftTest =>
      cases predicateTest xxh3 cells _ right with
      | none => rfl
      | some rightTest =>
        first
        | exact congrArg some (andMask_map items leftTest rightTest)
        | exact congrArg some (orMask_map items leftTest rightTest)
  | case3 left op right notAnd notOr =>
    rw [evalPredicateMask]
    · simp only [comparisonMask_items]
      simp only [itemTable, getElem?_map, bind, pure, map_bind, bind_map,
        Function.comp_def, map_some, List.map_map]
    · exact notAnd
    · exact notOr
  | case4 expr notAnd notOr notBinary =>
    cases expr with
    | binary left op right => exact absurd rfl (notBinary left op right)
    | like inner pattern negated =>
      rw [evalPredicateMask]
      cases columnAndString inner pattern with
      | none => rfl
      | some found =>
        simp only [bind, Option.bind]
        cases resolveColName found.1 _ with
        | none => rfl
        | some colIdx => simp [stringSidecar, itemTable]
    | _ => rfl

theorem evalPredicateMask_of_tryStringLikeFilter {table : Table} {expr : Expr} {mask : List Bool}
    (found : tryStringLikeFilter xxh3 table expr = some mask) :
    evalPredicateMask xxh3 table expr = some mask := by
  unfold tryStringLikeFilter at found
  split at found
  · exact found
  · exact found
  · exact found
  · cases found

theorem filterRows_items (expr : Expr) :
    filterRows xxh3 (cells.map (fun cell => items.map cell)) columnNames items.length expr =
      (whereTest xxh3 cells columnNames expr (fun _ => true)).map
        (fun test => flagged (items.map test) items.length) := by
  unfold filterRows
  rw [replicate_eq_map items true, evalWhere_map]
  cases whereTest xxh3 cells columnNames expr (fun _ => true) <;> rfl

theorem buildFilterMask_items (whereClause : Option Expr) :
    buildFilterMask xxh3 (itemTable name cells columnNames items) whereClause =
      (dispatchTest xxh3 cells (fun column =>
          resolveColName column (itemTable name cells columnNames items))
        columnNames whereClause).map
        (fun test => items.map test) := by
  cases whereClause with
  | none => exact congrArg Except.ok (replicate_eq_map items true)
  | some expr =>
    have isPredicate := evalPredicateMask_items xxh3 cells name columnNames items expr
    unfold buildFilterMask dispatchTest
    simp only
    cases like : tryStringLikeFilter xxh3 (itemTable name cells columnNames items)
          expr with
    | some mask =>
      have same := evalPredicateMask_of_tryStringLikeFilter xxh3 like
      rw [isPredicate] at same
      obtain ⟨test, isTest, isMask⟩ := map_eq_some_iff.mp same
      rw [isTest, ← isMask]
      rfl
    | none =>
      simp only [isPredicate]
      cases
          predicateTest xxh3 cells
            (fun column => resolveColName column (itemTable name cells columnNames items))
            expr with
      | some test => rfl
      | none =>
        have rows := filterRows_items xxh3 cells columnNames items expr
        simp only [map_none, itemTable, rows]
        cases whereTest xxh3 cells columnNames expr (fun _ => true) with
        | error fault => rfl
        | ok test =>
          have restored := foldl_set_flagged (items.map test)
          rw [length_map] at restored
          exact congrArg Except.ok restored

end

theorem firstMaskedRows_eq (mask : List Bool) (limit : Nat) (rows : List Nat)
    (inside : ∀ row ∈ rows, row < mask.length) :
    firstMaskedRows mask limit rows =
      .ok ((rows.filter (fun row => mask[row]?.getD false)).take limit) := by
  induction rows generalizing limit with
  | nil => cases limit <;> rfl
  | cons row rest ih =>
    have later : ∀ other ∈ rest, other < mask.length :=
      fun other mem => inside other (mem_cons_of_mem _ mem)
    cases limit with
    | zero => simp [firstMaskedRows, pure, Except.pure]
    | succ limit =>
      have here := inside row mem_cons_self
      have found : mask[row]? = some mask[row] := getElem?_eq_getElem here
      unfold firstMaskedRows
      rw [index_eq_ok_iff.mpr found, filter_cons, found]
      cases mask[row] with
      | true =>
        rw [ih limit later]
        rfl
      | false => exact ih (limit + 1) later

def cellOrder {α : Type} (cell : α → Cell) (ascending : Bool) (first second : α) : Bool :=
  if ascending then decide (cell first ≤ cell second)
  else decide (cell second ≤ cell first)

def inOrderOf {α : Type} (cells : List (α → Cell))
    (order : Option (Nat × Bool)) (items : List α) : List α :=
  match order with
  | none => items
  | some (colIdx, ascending) =>
    items.mergeSort (cellOrder (cells[colIdx]?.getD (fun _ => 0)) ascending)

def cut {α : Type} (limit : Option Nat) (items : List α) : List α :=
  items.take (limit.getD items.length)

def orderColumn (query : SelectQuery) (table : Table) (fallback : Nat) : Option (Nat × Bool) :=
  query.orderBy.head?.map (fun entry => ((resolveColName entry.1 table).getD fallback, entry.2.1))

section

variable {α : Type} [Inhabited α] {cells : List (α → Cell)}
  {name : String} {columnNames : List String} {items : List α}

theorem sortRows_items {colIdx : Nat} {ascending : Bool} {rows sorted : List Nat}
    (inside : ∀ row ∈ rows, row < items.length)
    (isSorted :
      sortRows (itemTable name cells columnNames items) colIdx ascending rows = .ok sorted) :
    pick items sorted = inOrderOf cells (some (colIdx, ascending)) (pick items rows) := by
  simp only [itemTable] at isSorted
  obtain ⟨column, found, isSorted⟩ := except_ok_iff.mp isSorted
  cases isSorted
  rw [index_eq_ok_iff, getElem?_map, map_eq_some_iff] at found
  obtain ⟨cell, isCell, isColumn⟩ := found
  have cellOf : ∀ row ∈ rows, column[row]?.getD 0 = cell (items[row]?.getD default) := by
    intro row mem
    simp [← isColumn, inside row mem]
  apply pick_mergeSort
  intro first isFirst second isSecond
  rw [isCell]
  simp only [cellOrder, getD_some, cellOf first isFirst, cellOf second isSecond]

theorem orderedRows_items {query : SelectQuery} {fallback : Nat} {test : α → Bool} {rows : List Nat}
    (ordered : orderedRows query (itemTable name cells columnNames items) fallback
          (items.map test) = .ok rows) :
    pick items rows = cut query.limit
        (inOrderOf cells (orderColumn query (itemTable name cells columnNames items) fallback)
          (items.filter test)) := by
  obtain ⟨masked, isMasked, ordered⟩ := except_ok_iff.mp ordered
  have flags : masked = flagged (items.map test) items.length := by
    unfold maskRows at isMasked
    rw [if_pos (by simp [itemTable])] at isMasked
    cases isMasked
    rfl
  have inside : ∀ row ∈ masked, row < items.length := by
    intro row mem
    rw [flags] at mem
    exact (mem_flagged_iff.mp mem).1
  have picked : pick items masked = items.filter test := by
    rw [flags, pick_flagged]
  have sortedRows : ∃ sorted, pick items sorted = inOrderOf cells
            (orderColumn query (itemTable name cells columnNames items) fallback)
            (items.filter test) ∧
        rows = sorted.take (query.limit.getD sorted.length) := by
    unfold orderColumn
    cases orderings : query.orderBy with
    | nil =>
      rw [orderings] at ordered
      cases ordered
      exact ⟨masked, picked, rfl⟩
    | cons entry rest =>
      rw [orderings] at ordered
      obtain ⟨sorted, isSorted, isRows⟩ := except_ok_iff.mp ordered
      cases isRows
      rw [← picked]
      exact ⟨sorted, sortRows_items inside isSorted, rfl⟩
  obtain ⟨sorted, inOrder, isRows⟩ := sortedRows
  unfold cut
  rw [isRows, pick_take, ← inOrder, length_pick]

end

/-- A result has one row for each of some items, with cells of that item. -/
structure ReadsItems {α : Type} (cells : List (α → Cell))
    (chosen : List α) (result : QueryResult) : Prop where
  rowCount : result.rowCount = chosen.length
  columns : ∀ column ∈ result.columns, ∃ colIdx : Nat, List.Forall₂
    (fun item value => cells[colIdx]?.map (fun cell => cell item) = some value)
    chosen column.values

section

variable {α : Type} [Inhabited α] {cells : List (α → Cell)}
  {name : String} {columnNames : List String} {items : List α}

theorem ReadsRows.readsItems {rows : List Nat} {result : QueryResult}
    (reads : ReadsRows (itemTable name cells columnNames items) rows result) :
    ReadsItems cells (pick items rows) result := by
  constructor
  · rw [length_pick]
    exact reads.rowCount
  · intro column mem
    obtain ⟨colIdx, cellsRead⟩ := reads.columns column mem
    refine ⟨colIdx, forall₂_map_left_iff.mpr ?_⟩
    apply cellsRead.imp
    intro row value read
    simp only [Table.cellOf, itemTable, getElem?_map, bind_eq_some_iff,
      map_eq_some_iff] at read
    obtain ⟨_, ⟨cell, isCell, rfl⟩, found⟩ := read
    rw [getElem?_map, map_eq_some_iff] at found
    obtain ⟨item, isItem, isValue⟩ := found
    rw [isItem, isCell]
    exact congrArg some isValue

variable {host : SelectHost} {query : SelectQuery} {result : QueryResult}

def dispatchedItems (query : SelectQuery) (cells : List (α → Cell))
    (order : Option (Nat × Bool)) (test : α → Bool) (items : List α) :
    List α :=
  cut query.limit (inOrderOf cells order (items.filter test))

def itemTest (host : SelectHost) (query : SelectQuery) (name : String)
    (cells : List (α → Cell)) (columnNames : List String)
    (items : List α) : Except Fault (α → Bool) :=
  dispatchTest host.xxh3 cells
    (fun column => resolveColName column (itemTable name cells columnNames items))
    columnNames query.whereClause

omit [Inhabited α] in
theorem buildFilterMask_ok {mask : List Bool}
    (built : buildFilterMask host.xxh3 (itemTable name cells columnNames items) query.whereClause =
        .ok mask) :
    ∃ test,
      itemTest host query name cells columnNames items = .ok test ∧ mask = items.map test := by
  rw [buildFilterMask_items] at built
  obtain ⟨test, isTest, isMask⟩ := except_map_ok_iff.mp built
  exact ⟨test, isTest, isMask.symm⟩

theorem executeStarShape_items
    (ran : executeStarShape host query (itemTable name cells columnNames items) = .ok result) :
    ∃ test, itemTest host query name cells columnNames items = .ok test ∧
      ReadsItems cells (dispatchedItems query cells none test items) result := by
  obtain ⟨mask, built, ran⟩ := except_ok_iff.mp ran
  obtain ⟨rows, isRows, ran⟩ := except_ok_iff.mp ran
  obtain ⟨columns, read, ran⟩ := except_ok_iff.mp ran
  cases ran
  obtain ⟨test, isTest, isMask⟩ := buildFilterMask_ok built
  refine ⟨test, isTest, ?_⟩
  have inside : ∀ row ∈ range items.length, row < mask.length := by
    intro row mem
    rw [isMask, length_map]
    exact mem_range.mp mem
  have eager :=
    firstMaskedRows_eq mask (query.limit.getD (mask.count true)) (range items.length) inside
  have sameRows := isRows.symm.trans eager
  have count : mask.count true = (items.filter test).length := by
    rw [isMask, count_eq_countP, countP_map, countP_eq_length_filter]
    congr 2
    funext item
    simp
  have picked : pick items rows = dispatchedItems query cells none test items := by
    cases sameRows
    rw [pick_take, isMask]
    show (pick items (flagged (items.map test) items.length)).take _ =
        cut query.limit (items.filter test)
    rw [pick_flagged, ← isMask, count]
    rfl
  rw [← picked]
  exact ReadsRows.readsItems ⟨rfl, starColumns_reads read⟩

theorem executeColumnShape_items {column : String}
    (ran :
      executeColumnShape host query column (itemTable name cells columnNames items) = .ok result) :
    ∃ test, itemTest host query name cells columnNames items = .ok test ∧
      ReadsItems cells
        (dispatchedItems query cells (orderColumn query (itemTable name cells columnNames items)
            ((resolveColName column (itemTable name cells columnNames items)).getD 0)) test items)
        result := by
  obtain ⟨mask, built, ran⟩ := except_ok_iff.mp ran
  obtain ⟨colIdx, required, ran⟩ := except_ok_iff.mp ran
  obtain ⟨rows, ordered, ran⟩ := except_ok_iff.mp ran
  obtain ⟨read, isRead, ran⟩ := except_ok_iff.mp ran
  cases ran
  obtain ⟨test, isTest, isMask⟩ := buildFilterMask_ok built
  have resolved : resolveColName column (itemTable name cells columnNames items) = some colIdx := by
    unfold resolvedOrMissing at required
    split at required
    · next found =>
      cases required
      exact found
    · cases required
  refine ⟨test, isTest, ?_⟩
  rw [isMask] at ordered
  rw [resolved]
  unfold dispatchedItems
  rw [getD_some, ← orderedRows_items ordered]
  apply ReadsRows.readsItems
  constructor
  · rfl
  · intro tested mem
    rw [mem_singleton.mp mem]
    exact resultColumn_reads isRead

theorem executeMultiShape_items
    (ran :
      executeMultiShape host query (itemTable name cells columnNames items) = .ok result) :
    ∃ test, itemTest host query name cells columnNames items = .ok test ∧
      ReadsItems cells (dispatchedItems query cells
          (orderColumn query (itemTable name cells columnNames items) 0) test items)
        result := by
  obtain ⟨mask, built, ran⟩ := except_ok_iff.mp ran
  obtain ⟨rows, ordered, ran⟩ := except_ok_iff.mp ran
  obtain ⟨columns, read, ran⟩ := except_ok_iff.mp ran
  cases ran
  obtain ⟨test, isTest, isMask⟩ := buildFilterMask_ok built
  refine ⟨test, isTest, ?_⟩
  rw [isMask] at ordered
  unfold dispatchedItems
  rw [← orderedRows_items ordered]
  exact ReadsRows.readsItems ⟨rfl, itemColumns_reads read⟩

variable {clause : WhereClause} {limit : Option Nat}

theorem limitedRows_items {rows : List Nat}
    (limited : limitedRows host.toHost clause (itemTable name cells columnNames items) limit none =
        .ok rows) :
    ∃ test, scanTest host.xxh3 cells columnNames clause = .ok test ∧
      pick items rows = cut limit (items.filter test) := by
  obtain ⟨all, scanned, limited⟩ := except_ok_iff.mp limited
  cases limited
  have batch : filterIndicesBatch host.xxh3 clause (itemTable name cells columnNames items) =
      (scanTest host.xxh3 cells columnNames clause).map
        (fun test => flagged (items.map test) items.length) := by
    have every : range items.length = flagged (items.map (fun _ => true)) items.length := by
      symm
      apply filter_eq_self.mpr
      intro row mem
      simp [mem_range.mp mem]
    cases clause with
    | none => exact congrArg Except.ok every
    | single filter | and left right | or left right =>
      exact filterRows_items host.xxh3 cells columnNames items _
  obtain ⟨test, isTest, rfl⟩ := except_map_ok_iff.mp (batch.symm.trans scanned)
  refine ⟨test, isTest, ?_⟩
  rw [pick_take, pick_flagged]
  unfold cut
  rw [← pick_flagged items test, length_pick]

theorem executeStarScan_items
    (ran : executeStarScan host.toHost clause
          (itemTable name cells columnNames items) limit none = .ok result) :
    ∃ test, scanTest host.xxh3 cells columnNames clause = .ok test ∧
      ReadsItems cells (cut limit (items.filter test)) result := by
  obtain ⟨rows, limited, ran⟩ := except_ok_iff.mp ran
  obtain ⟨columns, read, ran⟩ := except_ok_iff.mp ran
  cases ran
  obtain ⟨test, isTest, picked⟩ := limitedRows_items limited
  refine ⟨test, isTest, ?_⟩
  rw [← picked]
  exact ReadsRows.readsItems ⟨rfl, starScan_reads read⟩

theorem executeColumnScan_items {column : String}
    (ran : executeColumnScan host.toHost clause
          (itemTable name cells columnNames items) limit none column = .ok result) :
    ∃ test, scanTest host.xxh3 cells columnNames clause = .ok test ∧
      ReadsItems cells (cut limit (items.filter test)) result := by
  obtain ⟨colIdx, -, ran⟩ := except_ok_iff.mp ran
  obtain ⟨rows, limited, ran⟩ := except_ok_iff.mp ran
  obtain ⟨read, isRead, ran⟩ := except_ok_iff.mp ran
  cases ran
  obtain ⟨test, isTest, picked⟩ := limitedRows_items limited
  refine ⟨test, isTest, ?_⟩
  rw [← picked]
  have column : ReadsColumn _ rows _ := scanColumn_reads isRead
  exact ReadsRows.readsItems ⟨rfl, forall_mem_singleton.mpr column⟩

theorem executeMultiScan_items {select : List SelectItem}
    (ran : executeMultiScan host.toHost clause
          (itemTable name cells columnNames items) limit none select = .ok result) :
    ∃ test, scanTest host.xxh3 cells columnNames clause = .ok test ∧
      ReadsItems cells (cut limit (items.filter test)) result := by
  obtain ⟨rows, limited, ran⟩ := except_ok_iff.mp ran
  obtain ⟨groups, got, ran⟩ := except_ok_iff.mp ran
  cases ran
  obtain ⟨test, isTest, picked⟩ := limitedRows_items limited
  refine ⟨test, isTest, ?_⟩
  rw [← picked]
  refine @ReadsRows.readsItems _ _ cells name columnNames _ _ _
    ⟨rfl, flatten_reads got fun item group found => ?_⟩
  cases item with
  | column wanted =>
    obtain ⟨colIdx, -, found⟩ := except_ok_iff.mp found
    obtain ⟨column, read, isGroup⟩ := except_ok_iff.mp found
    cases isGroup
    simpa using scanColumn_reads read
  | star => exact starScan_reads found
  | _ => cases found; simp

end

end TurboGP.Engine
