import TurboGP.Engine.Select
import TurboGP.Engine.Session

/-! # The rows a WHERE clause selects -/

namespace TurboGP.Engine

open Datasource Exec Sql Txn List

/-- The cell of an operand in a row. -/
def operandCell (table : Table) (row : Nat) : Expr → Option Cell
  | .column name => do
    let column ← table.columns[← table.columnIdx name]?
    column[row]?
  | .literal (.int n) => some n.toUInt64
  | _ => none

/-- The comparisons of the cells. -/
def satisfies (first second : Cell) : BinOp → Bool
  | .eq => decide (first = second)
  | .notEq => decide (first ≠ second)
  | .lt => decide (first < second)
  | .gt => decide (first > second)
  | .ltEq => decide (first ≤ second)
  | .gtEq => decide (first ≥ second)
  | _ => false

def rowSatisfies (table : Table) (row : Nat) : Expr → Bool
  | .binary left .and right => rowSatisfies table row left && rowSatisfies table row right
  | .binary left .or right => rowSatisfies table row left || rowSatisfies table row right
  | .binary left op right =>
    match operandCell table row left, operandCell table row right with
    | some first, some second => satisfies first second op
    | _, _ => false
  | _ => false

inductive IsFilter (table : Table) : Expr → Prop
  | columnFirst {name : String} {op : BinOp} (n : Int64) : name ∈ table.columnNames →
      (comparison op).isSome → IsFilter table (.binary (.column name) op (.literal (.int n)))
  | literalFirst {name : String} {op : BinOp} (n : Int64) : name ∈ table.columnNames →
      (comparison op).isSome → IsFilter table (.binary (.literal (.int n)) op (.column name))
  | and {left right : Expr} : IsFilter table left → IsFilter table right →
      IsFilter table (.binary left .and right)
  | or {left right : Expr} : IsFilter table left → IsFilter table right →
      IsFilter table (.binary left .or right)

/-- The number of the column leads back to it. -/
def FoundByNumber (table : Table) (name : String) : Prop :=
  (table.columnIdx name).bind (fun colIdx => resolveName (toString colIdx) table.columnNames) =
    table.columnIdx name

/-- The literal stands behind the column, unless the sides of the comparison
may be swapped. -/
def KeepsSides (table : Table) : Expr → Prop
  | .binary left .and right | .binary left .or right =>
    KeepsSides table left ∧ KeepsSides table right
  | .binary (.column name) _ _ => FoundByNumber table name
  | .binary _ op (.column name) => op ∈ [.eq, .notEq] ∧ FoundByNumber table name
  | _ => True

def cellsAt (table : Table) : List (Nat → Cell) :=
  table.columns.map (fun column row => column[row]?.getD 0)

variable {xxh3 : List Char → Cell} {debugExpr : Expr → String} {table : Table} {expr : Expr}

theorem columns_eq (full : ∀ column ∈ table.columns, column.length = table.rowCount) :
    table.columns = (cellsAt table).map (fun cell => (range table.rowCount).map cell) := by
  have each : ∀ column ∈ table.columns,
      (range table.rowCount).map (fun row => column[row]?.getD 0) = column := by
    intro column mem
    apply ext_getElem
    · rw [length_map, length_range, full column mem]
    · intro row _ inside
      simp [inside]
  unfold cellsAt
  rw [map_map]
  exact (map_id' table.columns).symm.trans
    (map_congr_left fun column mem => (each column mem).symm)

/-! ## Compiled clauses -/

def WhereClause.All (holds : Filter → Prop) : WhereClause → Prop
  | .none => True
  | .single filter => holds filter
  | .and left right | .or left right => left.All holds ∧ right.All holds

def Filter.InTable (table : Table) (filter : Filter) : Prop :=
  filter.colIdx < table.columns.length ∧
    ∃ op, (comparison op).isSome ∧ filter.op = BinOp.asStr op

/-- The number of the column is not the name of another one. -/
def Filter.NotShadowed (table : Table) (filter : Filter) : Prop :=
  resolveName (toString filter.colIdx) table.columnNames = some filter.colIdx

def clauseHolds (table : Table) (row : Nat) : WhereClause → Bool
  | .none => true
  | .single filter =>
    match (cellsAt table)[filter.colIdx]? with
    | some cell => filter.holds (cell row)
    | none => false
  | .and left right => clauseHolds table row left && clauseHolds table row right
  | .or left right => clauseHolds table row left || clauseHolds table row right

theorem comparison_ne {op : BinOp} {compare : Cell → Cell → Bool}
    (isOp : comparison op = some compare) : op ≠ .and ∧ op ≠ .or := by
  constructor <;> rintro rfl <;> cases isOp

theorem BinOp.fromStr_asStr (op : BinOp) : BinOp.fromStr op.asStr = some op := by
  cases op <;> decide +kernel

/-- The tables agree. -/
theorem holds_asStr {op : BinOp} {compare : Cell → Cell → Bool}
    (isOp : comparison op = some compare) (colIdx : Nat) (cell value : Cell) :
    (⟨colIdx, op.asStr, value⟩ : Filter).holds cell = compare cell value := by
  cases op <;> cases isOp <;> rfl

theorem satisfies_eq {op : BinOp} {compare : Cell → Cell → Bool}
    (isOp : comparison op = some compare) (first second : Cell) :
    satisfies first second op = compare first second := by
  cases op <;> cases isOp <;> simp [satisfies, bne, Bool.beq_eq_decide_eq]

theorem whereTest_filter {filter : Filter} (inTable : filter.InTable table)
    (notShadowed : filter.NotShadowed table) (keeps : Nat → Bool) :
    whereTest xxh3 (cellsAt table) table.columnNames (filterToExpr filter) keeps =
      .ok (fun row => clauseHolds table row (.single filter)) := by
  obtain ⟨colIdx, text, value⟩ := filter
  obtain ⟨inside, op, isComparison, rfl⟩ := inTable
  obtain ⟨compare, isOp⟩ := Option.isSome_iff_exists.mp isComparison
  rw [filterToExpr, BinOp.fromStr_asStr, Option.getD_some, whereTest]
  · unfold Filter.NotShadowed at notShadowed
    simp only [columnAndLiteral, notShadowed, valueToU64, isOp, clauseHolds, holds_asStr isOp]
    simp [index, cellsAt, inside]
  · exact (comparison_ne isOp).1
  · exact (comparison_ne isOp).2

section

variable {clause : WhereClause} (inTable : clause.All (Filter.InTable table))

include inTable

theorem whereTest_clause (notShadowed : clause.All (Filter.NotShadowed table)) :
    whereTest xxh3 (cellsAt table) table.columnNames (whereClauseToExpr clause) (fun _ => true) =
      .ok (fun row => clauseHolds table row clause) := by
  induction clause with
  | none => rfl
  | single filter => exact whereTest_filter inTable notShadowed _
  | and left right ihLeft ihRight | or left right ihLeft ihRight =>
    rw [whereClauseToExpr, whereTest, ihLeft inTable.1 notShadowed.1,
      ihRight inTable.2 notShadowed.2]
    rfl

theorem rowMatches_eq (row : Nat) :
    rowMatches clause (table.columns.map fun column => column[row]?.getD 0) =
      .ok (clauseHolds table row clause) := by
  induction clause with
  | none => rfl
  | single filter =>
    simp [rowMatches, clauseHolds, cellsAt, index, inTable.1]
  | and left right ihLeft ihRight | or left right ihLeft ihRight =>
    rw [rowMatches, clauseHolds, ihLeft inTable.1, ihRight inTable.2]
    cases clauseHolds table row left <;> rfl

variable (full : ∀ column ∈ table.columns, column.length = table.rowCount)

include full

theorem filterIndicesBatch_eq (notShadowed : clause.All (Filter.NotShadowed table)) :
    filterIndicesBatch xxh3 clause table =
      .ok ((range table.rowCount).filter (clauseHolds table · clause)) := by
  have mask := @evalWhere_map xxh3 _ (cellsAt table) table.columnNames
    (range table.rowCount) (whereClauseToExpr clause) (fun _ => true)
  rw [← columns_eq full, length_range, map_const', length_range,
    whereTest_clause inTable notShadowed] at mask
  have rows : filterRows xxh3 table.columns table.columnNames table.rowCount
      (whereClauseToExpr clause) =
        .ok ((range table.rowCount).filter (clauseHolds table · clause)) := by
    rw [filterRows, mask]
    refine congrArg Except.ok (filter_congr ?_)
    intro row mem
    simp [mem_range.mp mem]
  cases clause with
  | none =>
    simp only [filterIndicesBatch, clauseHolds, filter_true]
    rfl
  | _ => exact rows

theorem scannedRow_eq (mgr : MvccTxnManager) {row : Nat} (below : row < table.rowCount) :
    scannedRow clause table mgr row =
      .ok (if rowVisibleToActive table mgr row && clauseHolds table row clause then some row
        else none) := by
  have cells : table.columns.mapM (fun column => index column row) =
      .ok (table.columns.map fun column => column[row]?.getD 0) := by
    rw [Effect.mapM_eq_ok_iff, forall₂_map_right_iff, forall₂_same]
    intro column mem
    rw [← full column mem] at below
    exact index_eq_ok_iff.mpr (by simp [below])
  have matched := rowMatches_eq inTable row
  unfold scannedRow
  cases rowVisibleToActive table mgr row with
  | false => rfl
  | true =>
    cases clause with
    | none => rfl
    | _ =>
      simp only [cells, matched, bind, Except.bind, Bool.true_and, if_true]
      cases clauseHolds table row _ <;> rfl

end

/-! ## Parallel and serial scans -/

/-- `filter_indices_parallel` on so many worker threads. -/
def filterIndicesParallel (numThreads : Nat) (clause : WhereClause) (table : Table)
    (mgr : MvccTxnManager) : Except Fault (List Nat) :=
  parallelScan (range table.rowCount) numThreads 256 (scannedMorsel clause table mgr)

/-- `filter_indices_batch` and the `retain` behind it. -/
def filterIndicesSerial (xxh3 : List Char → Cell) (clause : WhereClause) (table : Table)
    (mgr : MvccTxnManager) : Except Fault (List Nat) := do
  let rows ← filterIndicesBatch xxh3 clause table
  return rows.filter (rowVisibleToActive table mgr)

/-- Both scans select the same rows, whatever the number of threads. -/
theorem parallel_scan_eq_serial (xxh3 : List Char → Cell) (numThreads : Nat) {clause : WhereClause}
    (mgr : MvccTxnManager) (full : ∀ column ∈ table.columns, column.length = table.rowCount)
    (inTable : clause.All (Filter.InTable table))
    (notShadowed : clause.All (Filter.NotShadowed table)) :
    filterIndicesParallel numThreads clause table mgr =
      filterIndicesSerial xxh3 clause table mgr := by
  let selects (row : Nat) : Bool := rowVisibleToActive table mgr row && clauseHolds table row clause
  have runs : ∀ morsel ⊆ range table.rowCount, scannedMorsel clause table mgr morsel =
      .ok (morsel.filterMap (Option.guard selects)) := by
    intro morsel inside
    have rows : morsel.mapM (scannedRow clause table mgr) =
        .ok (morsel.map (Option.guard selects)) := by
      rw [Effect.mapM_eq_ok_iff, forall₂_map_right_iff, forall₂_same]
      intro row mem
      rw [scannedRow_eq inTable full mgr (mem_range.mp (inside mem))]
      simp [Option.guard, selects]
    rw [scannedMorsel, rows]
    exact congrArg Except.ok (filterMap_map ..)
  rw [filterIndicesParallel, parallelScan_filterMap _ _ runs, filterIndicesSerial,
    filterIndicesBatch_eq inTable full notShadowed]
  show Except.ok _ = Except.ok _
  rw [filter_filter, filterMap_eq_filter]

/-! ## Compiled expressions -/

section

variable {left right : Expr} {op : BinOp} {name : String} {n : Int64} {colIdx : Nat}
  {column : List Cell} {compare : Cell → Cell → Bool}

theorem rowSatisfies_comparison (isOp : comparison op = some compare) {row : Nat}
    {first second : Cell} (isFirst : operandCell table row left = some first)
    (isSecond : operandCell table row right = some second) :
    rowSatisfies table row (.binary left op right) = compare first second := by
  rw [rowSatisfies]
  · simp only [isFirst, isSecond, satisfies_eq isOp]
  · exact (comparison_ne isOp).1
  · exact (comparison_ne isOp).2

theorem parseExpr_comparison (isOp : comparison op = some compare)
    (sides : columnAndLiteral left right = some (name, .int n))
    (isColumn : table.columnIdx name = some colIdx) :
    parseExpr xxh3 debugExpr table (.binary left op right) =
      .ok (.single ⟨colIdx, op.asStr, n.toUInt64⟩) := by
  rw [parseExpr]
  · simp only [isOp, extractColAndValue, sides, columnIdxOrMissing, isColumn]
    rfl
  · exact (comparison_ne isOp).1
  · exact (comparison_ne isOp).2

theorem clauseHolds_single (isOp : comparison op = some compare)
    (here : table.columns[colIdx]? = some column) (row : Nat) (value : Cell) :
    clauseHolds table row (.single ⟨colIdx, op.asStr, value⟩) =
      compare (column[row]?.getD 0) value := by
  simp [clauseHolds, cellsAt, here, holds_asStr isOp]

theorem FoundByNumber.notShadowed (found : FoundByNumber table name)
    (isColumn : table.columnIdx name = some colIdx) (op : String) (value : Cell) :
    Filter.NotShadowed table ⟨colIdx, op, value⟩ := by
  rw [FoundByNumber, isColumn, Option.bind_some] at found
  exact found

theorem exists_column (full : ∀ column ∈ table.columns, column.length = table.rowCount)
    (named : table.columnNames.length = table.columns.length) (held : name ∈ table.columnNames) :
    ∃ colIdx column, table.columnIdx name = some colIdx ∧ table.columns[colIdx]? = some column ∧
      ∀ row < table.rowCount,
        operandCell table row (.column name) = some (column[row]?.getD 0) := by
  obtain ⟨colIdx, isColumn⟩ : ∃ colIdx, table.columnIdx name = some colIdx := by
    apply Option.isSome_iff_exists.mp
    unfold Table.columnIdx
    simpa using held
  have inside : colIdx < table.columns.length := by
    rw [← named]
    exact (findIdx?_eq_some_iff_getElem.mp isColumn).1
  refine ⟨colIdx, _, isColumn, getElem?_eq_getElem inside, ?_⟩
  intro row below
  rw [← full _ (getElem_mem inside)] at below
  simp [operandCell, isColumn, inside, below]

end

theorem parseExpr_filter (full : ∀ column ∈ table.columns, column.length = table.rowCount)
    (named : table.columnNames.length = table.columns.length)
    (isFilter : IsFilter table expr) (sides : KeepsSides table expr) :
    ∃ clause, parseExpr xxh3 debugExpr table expr = .ok clause ∧
      clause.All (Filter.InTable table) ∧ clause.All (Filter.NotShadowed table) ∧
      ∀ row < table.rowCount, clauseHolds table row clause = rowSatisfies table row expr := by
  induction isFilter with
  | @columnFirst name op n held isComparison =>
    obtain ⟨compare, isOp⟩ := Option.isSome_iff_exists.mp isComparison
    obtain ⟨colIdx, column, isColumn, here, cell⟩ := exists_column full named held
    have found : FoundByNumber table name := by
      cases op <;> first | exact sides | cases isOp
    have inside := (List.getElem?_eq_some_iff.mp here).1
    refine ⟨_, parseExpr_comparison isOp rfl isColumn, ⟨inside, op, isComparison, rfl⟩,
      found.notShadowed isColumn _ _, ?_⟩
    intro row below
    rw [clauseHolds_single isOp here, rowSatisfies_comparison isOp (cell row below) rfl]
  | @literalFirst name op n held isComparison =>
    obtain ⟨compare, isOp⟩ := Option.isSome_iff_exists.mp isComparison
    obtain ⟨colIdx, column, isColumn, here, cell⟩ := exists_column full named held
    have found : op ∈ [.eq, .notEq] ∧ FoundByNumber table name := by
      cases op <;> first | exact sides | cases isOp
    have inside := (List.getElem?_eq_some_iff.mp here).1
    refine ⟨_, parseExpr_comparison isOp rfl isColumn, ⟨inside, op, isComparison, rfl⟩,
      found.2.notShadowed isColumn _ _, ?_⟩
    intro row below
    rw [clauseHolds_single isOp here, rowSatisfies_comparison isOp rfl (cell row below)]
    -- Equality and inequality do not depend on the sides.
    have symmetric : ∀ first second, compare first second = compare second first := by
      have cases := found.1
      simp only [mem_cons, not_mem_nil, or_false] at cases
      intro first second
      rcases cases with rfl | rfl <;> cases isOp <;> grind
    exact symmetric _ _
  | and _ _ ihLeft ihRight =>
    obtain ⟨left, leftParsed, leftIn, leftFound, leftRows⟩ := ihLeft sides.1
    obtain ⟨right, rightParsed, rightIn, rightFound, rightRows⟩ := ihRight sides.2
    refine ⟨.and left right, ?_, ⟨leftIn, rightIn⟩, ⟨leftFound, rightFound⟩, ?_⟩
    · rw [parseExpr, leftParsed, rightParsed]
      rfl
    · intro row below
      rw [rowSatisfies, clauseHolds, leftRows row below, rightRows row below]
  | or _ _ ihLeft ihRight =>
    obtain ⟨left, leftParsed, leftIn, leftFound, leftRows⟩ := ihLeft sides.1
    obtain ⟨right, rightParsed, rightIn, rightFound, rightRows⟩ := ihRight sides.2
    refine ⟨.or left right, ?_, ⟨leftIn, rightIn⟩, ⟨leftFound, rightFound⟩, ?_⟩
    · rw [parseExpr, leftParsed, rightParsed]
      rfl
    · intro row below
      rw [rowSatisfies, clauseHolds, leftRows row below, rightRows row below]

/-- The rows on which the expression is true, in ascending order. -/
theorem select_where_rows (host : Host) (debugExpr : Expr → String)
    (full : ∀ column ∈ table.columns, column.length = table.rowCount)
    (named : table.columnNames.length = table.columns.length)
    (isFilter : IsFilter table expr) (sides : KeepsSides table expr) :
    (do
      let clause ← parseWhere host.xxh3 debugExpr table (some expr)
      filterIndicesWhere host clause table none) =
      .ok ((range table.rowCount).filter (fun row => rowSatisfies table row expr)) := by
  obtain ⟨clause, parsed, inTable, notShadowed, rows⟩ :=
    @parseExpr_filter host.xxh3 debugExpr _ _ full named isFilter sides
  show (parseExpr host.xxh3 debugExpr table expr >>= fun clause =>
    filterIndicesBatch host.xxh3 clause table) = _
  rw [parsed]
  show filterIndicesBatch host.xxh3 clause table = _
  rw [filterIndicesBatch_eq inTable full notShadowed]
  refine congrArg Except.ok (filter_congr ?_)
  intro row mem
  exact rows row (mem_range.mp mem)

namespace Example

def twoRows (columns : List (List Cell)) (columnNames : List String) : Table :=
  { oneColumn with columns := columns, columnNames := columnNames, rowCount := 2 }

def selectedRows (table : Table) (expr : Expr) : Except Fault (List Nat) := do
  let clause ← parseWhere plainHost.xxh3 (fun _ => "") table (some expr)
  filterIndicesWhere plainHost clause table none

/-- `v < 5`. -/
theorem column_before_literal :
    selectedRows (twoRows [[1, 9]] ["v"]) (.binary (.column "v") .lt (.literal (.int 5))) =
      .ok ((range 2).filter fun row => rowSatisfies (twoRows [[1, 9]] ["v"]) row
        (.binary (.column "v") .lt (.literal (.int 5)))) :=
  @select_where_rows (twoRows [[1, 9]] ["v"]) _ plainHost (fun _ => "") (by decide) rfl
    (.columnFirst 5 (by decide) rfl) rfl

/-- `5 < v` is answered as `v < 5`, and `v = 9` by a column with the name
`0`. -/
theorem literal_before_column :
    selectedRows (twoRows [[1, 9]] ["v"]) (.binary (.literal (.int 5)) .lt (.column "v")) =
        .ok [0] ∧
      rowSatisfies (twoRows [[1, 9]] ["v"]) 1 (.binary (.literal (.int 5)) .lt (.column "v")) ∧
      selectedRows (twoRows [[1, 9], [5, 5]] ["v", "0"])
        (.binary (.column "v") .eq (.literal (.int 9))) = .ok [] ∧
      rowSatisfies (twoRows [[1, 9], [5, 5]] ["v", "0"]) 1
        (.binary (.column "v") .eq (.literal (.int 9))) := by
  decide +kernel

def vIsNine : WhereClause := .single ⟨0, "=", 9⟩

/-- Enough rows for five morsels. -/
def manyRows : Table :=
  { twoRows [replicate 600 1 ++ replicate 600 9] ["v"] with
    rowCount := 1200 }

theorem scans_agree : filterIndicesParallel 4 vIsNine manyRows .new =
      filterIndicesSerial (fun _ => 0) vIsNine manyRows .new :=
  parallel_scan_eq_serial _ _ _ (by decide +kernel) ⟨by decide, .eq, rfl, rfl⟩ rfl

/-- The serial scan takes the column with the name `0` for column 0. -/
theorem scans_differ :
    filterIndicesParallel 4 vIsNine (twoRows [[1, 9], [5, 5]] ["v", "0"]) .new = .ok [1] ∧
      filterIndicesSerial (fun _ => 0) vIsNine (twoRows [[1, 9], [5, 5]] ["v", "0"]) .new =
        .ok [] := by
  decide +kernel

end Example

end TurboGP.Engine
