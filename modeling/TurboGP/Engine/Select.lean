import TurboGP.Engine.Scan
import TurboGP.Exec.Join

/-!
# SELECT

`execute_select` of `engine/executor.rs`: a query with joins is answered on the
joined table, by the dispatcher if it knows the shape of the query and by the
scans below otherwise; a query on one table goes to the planner and to the
dispatcher only when no transaction manager is given.
-/

namespace TurboGP.Engine

open Datasource Exec Sql Sql.Text Txn

/-! ## Dispatched queries -/

inductive QueryShape
  | countAll | countFilter | sumCol | minMax | countDistinct | avgCol
  | groupByCount | groupBySum | groupByOrderByLimit
  | selectStar | selectColumn | selectMulti
  | complex
  deriving DecidableEq, Repr

def groupedShape (query : SelectQuery) : QueryShape :=
  let aggregate := query.select.findSome?
      (fun item => match item with
        | .aggregate func _ _ => some func
        | _ => none)
  match aggregate with
  | none => .complex
  | some func =>
    if func = "COUNT" then
      if !query.orderBy.isEmpty && query.limit.isSome then
        .groupByOrderByLimit
      else .groupByCount
    else if func = "SUM" then .groupBySum
    else .complex

/-- The shape of a single aggregate; `func` is in upper case. -/
def aggregateShape (func : List Char) (arg : String) (hasWhere : Bool) : QueryShape :=
  if func = "COUNT".toList then
    if arg = "*" && !hasWhere then .countAll else .countFilter
  else if func = "COUNT_DISTINCT".toList then .countDistinct
  else if func = "SUM".toList then .sumCol
  else if func = "AVG".toList then .avgCol
  else if func = "MIN".toList ∨ func = "MAX".toList then .minMax
  else .complex

def classifyQuery (unicode : Unicode) (query : SelectQuery) : QueryShape :=
  if !query.groupBy.isEmpty then groupedShape query
  else
    match query.select with
    | [] => .complex
    | [.aggregate func arg _] =>
      aggregateShape (toUppercase unicode func.toList) arg query.whereClause.isSome
    | [.star] => .selectStar
    | [.column _] => .selectColumn
    | [_] => .complex
    | items =>
      if items.any SelectItem.isAggregate ||
          items.any SelectItem.isExpression then .complex
      else .selectMulti

mutual

def needsInterpreterFallback : Expr → Bool
  | .case _ _ | .extract _ _ | .cast _ _ => true
  | .binary left _ right => needsInterpreterFallback left || needsInterpreterFallback right
  | .unary _ expr | .not expr | .paren expr => needsInterpreterFallback expr
  | .inSubquery _ _ _ | .exists _ _ | .isNull _ _ => true
  | .function _ args _ => anyNeedsFallback args
  | .like expr pattern _ => needsInterpreterFallback expr || needsInterpreterFallback pattern
  | .between expr low high _ =>
    needsInterpreterFallback expr || needsInterpreterFallback low ||
      needsInterpreterFallback high
  | .inList expr list _ => needsInterpreterFallback expr || anyNeedsFallback list
  | .column _ | .literal _ | .wildcard => false

def anyNeedsFallback : List Expr → Bool
  | [] => false
  | expr :: rest => needsInterpreterFallback expr || anyNeedsFallback rest

end

def buildLikeMask (strings : List String) (pattern : String) : List Bool :=
  let isPercent (c : Char) : Bool := c == '%'
  let startsWild := pattern.toList.head? == some '%'
  let endsWild := pattern.toList.getLast? == some '%'
  let middle := ((pattern.toList.dropWhile isPercent).reverse.dropWhile isPercent).reverse
  let innerWild := middle.any (fun c => c == '%' || c == '_')
  let needle := middle.filter (fun c => c != '%' && c != '_')
  if middle.isEmpty || (innerWild && needle.isEmpty) then
    strings.map (fun _ => true)
  else
    match startsWild, endsWild with
    | true, true => strings.map (fun s => contains s.toList needle)
    | false, true => strings.map (fun s => middle.isPrefixOf s.toList)
    | true, false => strings.map (fun s => middle.isSuffixOf s.toList)
    | false, false =>
      if innerWild then strings.map (fun s => contains s.toList needle)
      else strings.map (fun s => s.toList == middle)

def stringSidecar (table : Table) (colIdx : Nat) : Option (List String) :=
  table.stringColumns[colIdx]?.join

def stringAt (strings : List String) (rowIdx : Nat) : String := strings[rowIdx]?.getD ""

def stringRange : BinOp → Option (String → String → Bool)
  | .lt => some (fun cell text => decide (cell < text))
  | .gt => some (fun cell text => decide (text < cell))
  | .ltEq => some (fun cell text => decide (cell ≤ text))
  | .gtEq => some (fun cell text => decide (text ≤ cell))
  | _ => none

def narrowComparison : BinOp → Option (Int32 → Int32 → Bool)
  | .eq => some (fun cell value => cell == value)
  | .notEq => some (fun cell value => cell != value)
  | .lt => some (fun cell value => decide (cell < value))
  | .gt => some (fun cell value => decide (value < cell))
  | .ltEq => some (fun cell value => decide (cell ≤ value))
  | .gtEq => some (fun cell value => decide (value ≤ cell))
  | _ => none

def narrowLiteral : Value → Option Int32
  | .int n => if -(2 ^ 31) ≤ n.toInt ∧ n.toInt < 2 ^ 31 then some n.toInt32 else none
  | _ => none

section

variable (xxh3 : List Char → Cell) (table : Table)

/-- A comparison of a column with a literal: on the narrow sidecar, on the
strings, or on the cells. -/
def comparisonMask (colIdx : Nat) (column : List Cell) (op : BinOp)
    (value : Value) : Option (List Bool) :=
  match table.i32Columns[colIdx]?.join, narrowLiteral value with
  | some narrow, some number =>
    (narrowComparison op).map (fun compare => narrow.map (fun cell => compare cell number))
  | _, _ =>
    match stringRange op, value, stringSidecar table colIdx with
    | some compare, .string text, some strings =>
      some ((List.range table.rowCount).map (fun rowIdx => compare (stringAt strings rowIdx) text))
    | _, _, _ => do
      let cell ← valueToU64 xxh3 value
      let compare ← comparison op
      return column.map (fun other => compare other cell)

def evalPredicateMask : Expr → Option (List Bool)
  | .like expr pattern negated => do
    let (name, text) ← columnAndString expr pattern
    let colIdx ← resolveColName name table
    let strings ← stringSidecar table colIdx
    let mask := buildLikeMask strings text
    return if negated then mask.map (fun flag => !flag) else mask
  | .binary left .and right => do
    let leftMask ← evalPredicateMask left
    let rightMask ← evalPredicateMask right
    return andMask leftMask rightMask
  | .binary left .or right => do
    let leftMask ← evalPredicateMask left
    let rightMask ← evalPredicateMask right
    return orMask leftMask rightMask
  | .binary left op right => do
    let (name, value) ← columnAndLiteral left right
    let colIdx ← resolveColName name table
    let column ← table.columns[colIdx]?
    comparisonMask xxh3 table colIdx column op value
  | _ => none

def tryStringLikeFilter : Expr → Option (List Bool)
  | .like expr pattern negated => evalPredicateMask xxh3 table (.like expr pattern negated)
  | .binary left .and right => evalPredicateMask xxh3 table (.binary left .and right)
  | .binary left .or right => evalPredicateMask xxh3 table (.binary left .or right)
  | _ => none

def maskOfRows (rowCount : Nat) (rows : List Nat) : List Bool :=
  rows.foldl (fun mask rowIdx => mask.set rowIdx true) (List.replicate rowCount false)

def buildFilterMask (whereClause : Option Expr) : Except Fault (List Bool) :=
  match whereClause with
  | none => return List.replicate table.rowCount true
  | some expr =>
    match tryStringLikeFilter xxh3 table expr with
    | some mask => return mask
    | none =>
      match evalPredicateMask xxh3 table expr with
      | some mask => return mask
      | none => do
        let rows ← filterRows xxh3 table.columns table.columnNames table.rowCount expr
        return maskOfRows table.rowCount rows

end

def maskRows (mask : List Bool) (rowCount : Nat) : Except Fault (List Nat) :=
  if rowCount ≤ mask.length then
    .ok ((List.range rowCount).filter (fun i => mask[i]?.getD false))
  else .error .panic

def firstMaskedRows (mask : List Bool) : Nat → List Nat → Except Fault (List Nat)
  | 0, _ => return []
  | _ + 1, [] => return []
  | limit + 1, rowIdx :: rest => do
    let flag ← index mask rowIdx
    if flag then
      let later ← firstMaskedRows mask limit rest
      return rowIdx :: later
    else firstMaskedRows mask (limit + 1) rest

/-- The rows in the order of one column, by its strings if it has them. -/
def sortRows (table : Table) (colIdx : Nat) (ascending : Bool)
    (rows : List Nat) : Except Fault (List Nat) :=
  match stringSidecar table colIdx with
  | some strings =>
    return rows.mergeSort
      (fun a b =>
        if ascending then decide (stringAt strings a ≤ stringAt strings b)
        else decide (stringAt strings b ≤ stringAt strings a))
  | none => do
    let column ← index table.columns colIdx
    let cell (rowIdx : Nat) : Cell := column[rowIdx]?.getD 0
    return rows.mergeSort
      (fun a b =>
        if ascending then decide (cell a ≤ cell b)
        else decide (cell b ≤ cell a))

def readCells (table : Table) (colIdx : Nat) (rows : List Nat) : Except Fault (List Cell) :=
  rows.mapM (fun rowIdx => Exec.cellAt table colIdx rowIdx)

/-- The NULL flags of some rows; none are kept when no cell is NULL. -/
def nullFlags (table : Table) (colIdx : Nat) (rows : List Nat) : Option (List Bool) :=
  match table.nullBitmaps[colIdx]?.join with
  | some bitmap =>
    let flags := rows.map bitmap.isNull
    if flags.any (fun flag => flag) then some flags else none
  | none => none

def resultColumn (table : Table) (colIdx : Nat) (name : String)
    (withStrings : Bool) (rows : List Nat) : Except Fault ResultColumn := do
  let values ← readCells table colIdx rows
  return {
    name := name
    values := values
    stringValues :=
      if withStrings then
        (stringSidecar table colIdx).map (fun strings =>
          rows.map (stringAt strings))
      else none
    typeOid := 0
    nullMask := nullFlags table colIdx rows }

def starColumns (table : Table) (rows : List Nat) : Except Fault (List ResultColumn) :=
  table.columnNames.zipIdx.mapM (fun entry => resultColumn table entry.2 entry.1 false rows)

def columnMissing (name : String) : Fault := .error (.notFound s!"column '{name}'")

def resolvedOrMissing (table : Table) (name : String) : Except Fault Nat :=
  match resolveColName name table with
  | some colIdx => .ok colIdx
  | none => .error (columnMissing name)

/-- The columns of a select list; an item that is neither a column nor a star
gives none. -/
def itemColumns (table : Table) (items : List SelectItem)
    (rows : List Nat) : Except Fault (List ResultColumn) := do
  let columns ←
    items.mapM
      (fun item => match item with
        | .column name => do
          let colIdx ← resolvedOrMissing table name
          let column ← resultColumn table colIdx name true rows
          return [column]
        | .star => starColumns table rows
        | _ => return [])
  return columns.flatten

def resultOf (columns : List ResultColumn) (rows : List Nat) : QueryResult :=
  { columns := columns, rowCount := rows.length }

/-- What the executor of a SELECT takes from the code around it: the hash of
the join, the printing of expressions, the planner, and the evaluation of
aggregates. -/
structure SelectHost extends Host where
  unicode : Unicode
  joinHash : UInt64 → UInt64
  debugExpr : Expr → String
  planner : SelectQuery → Catalog → Except Fault (Option QueryResult)
  aggregateShape : QueryShape → SelectQuery → Table → Except Fault QueryResult

section

variable (host : SelectHost)

/-- `QueryShape::SelectStar`; an ORDER BY is not read. -/
def executeStarShape (query : SelectQuery) (table : Table) : Except Fault QueryResult := do
  let mask ← buildFilterMask host.xxh3 table query.whereClause
  let limit := query.limit.getD (mask.count true)
  let rows ← firstMaskedRows mask limit (List.range table.rowCount)
  let columns ← starColumns table rows
  return resultOf columns rows

/-- The flagged rows, sorted by the first column of the ORDER BY, up to the
limit; `fallback` is the column to sort by when there is no such column. -/
def orderedRows (query : SelectQuery) (table : Table) (fallback : Nat)
    (mask : List Bool) : Except Fault (List Nat) := do
  let rows ← maskRows mask table.rowCount
  let sorted ←
    match query.orderBy with
    | [] => pure rows
    | (name, ascending, _) :: _ =>
      sortRows table ((resolveColName name table).getD fallback) ascending rows
  return sorted.take (query.limit.getD sorted.length)

/-- `QueryShape::SelectColumn`.  An ORDER BY on the column itself resolves to
the column itself, so that it needs no case of its own. -/
def executeColumnShape (query : SelectQuery) (name : String)
    (table : Table) : Except Fault QueryResult := do
  let mask ← buildFilterMask host.xxh3 table query.whereClause
  let colIdx ← resolvedOrMissing table name
  let rows ← orderedRows query table colIdx mask
  let column ← resultColumn table colIdx name true rows
  return resultOf [column] rows

def executeMultiShape (query : SelectQuery) (table : Table) : Except Fault QueryResult := do
  let mask ← buildFilterMask host.xxh3 table query.whereClause
  let rows ← orderedRows query table 0 mask
  let columns ← itemColumns table query.select rows
  return resultOf columns rows

def executeShape (shape : QueryShape) (query : SelectQuery)
    (table : Table) : Except Fault QueryResult :=
  match shape with
  | .selectStar => executeStarShape host query table
  | .selectColumn =>
    match query.select with
    | .column name :: _ => executeColumnShape host query name table
    | _ => .error (.error (.other "expected column"))
  | .selectMulti => executeMultiShape host query table
  | .complex => .error (.error (.other "complex query not supported by dispatcher"))
  | _ => host.aggregateShape shape query table

/-- `execute_dispatched`; `none` leaves the query to the caller. -/
def executeDispatched (query : SelectQuery) (table : Table) : Option (Except Fault QueryResult) :=
  let shape := classifyQuery host.unicode query
  if shape = .complex then none
  else if query.whereClause.any needsInterpreterFallback then none
  else if query.having.isSome then none
  else some (executeShape host shape query table)

end

/-- A column compared with a cell; the operator is kept as its text. -/
structure Filter where
  colIdx : Nat
  op : String
  value : Cell
  deriving DecidableEq, Repr

inductive WhereClause
  | none
  | single (filter : Filter)
  | and (left right : WhereClause)
  | or (left right : WhereClause)
  deriving DecidableEq, Repr

def literalToU64 (xxh3 : List Char → Cell) : Value → Except Fault Cell
  | .int n => return n.toUInt64
  | .float bits => return bits
  | .string s =>
    match parseI64 s.toList with
    | some n => return (Int64.ofInt n).toUInt64
    | none => return xxh3 s.toList
  | .hex bytes => return hexCell bytes
  | .date days => return dateCell days
  | .null => .error (.error (.other "cannot convert NULL to u64"))

section

variable (xxh3 : List Char → Cell) (debugExpr : Expr → String)
  (table : Table)

def columnIdxOrMissing (name : String) : Except Fault Nat :=
  match table.columnIdx name with
  | some colIdx => .ok colIdx
  | none => .error (columnMissing name)

def extractColAndValue (left right : Expr) : Except Fault (Nat × Cell) :=
  match columnAndLiteral left right with
  | some (name, value) => do
    let colIdx ← columnIdxOrMissing table name
    let cell ← literalToU64 xxh3 value
    return (colIdx, cell)
  | none =>
    let leftText := debugExpr left
    let rightText := debugExpr right
    .error (.error (.other s!"WHERE clause must be col OP literal, got: {leftText} OP {rightText}"))

def parseExpr : Expr → Except Fault WhereClause
  | .binary left .and right => do
    let l ← parseExpr left
    let r ← parseExpr right
    return .and l r
  | .binary left .or right => do
    let l ← parseExpr left
    let r ← parseExpr right
    return .or l r
  | .binary left op right =>
    match comparison op with
    | some _ => do
      let (colIdx, value) ← extractColAndValue xxh3 debugExpr table left right
      return .single { colIdx := colIdx, op := op.asStr, value := value }
    | none =>
      let text := op.asStr
      .error (.error (.other s!"unsupported operator in WHERE: {text}"))
  | expr =>
    let text := debugExpr expr
    .error (.error (.other s!"unsupported WHERE expression: {text}"))

def parseWhere : Option Expr → Except Fault WhereClause
  | .none => return .none
  | some expr => parseExpr xxh3 debugExpr table expr

end

/-- `filter_to_expr`: the column is named by its number. -/
def filterToExpr (filter : Filter) : Expr :=
  .binary (.column (toString filter.colIdx)) ((BinOp.fromStr filter.op).getD .eq)
    (.literal (.int filter.value.toInt64))

def whereClauseToExpr : WhereClause → Expr
  | .single filter => filterToExpr filter
  | .and left right => .binary (whereClauseToExpr left) .and (whereClauseToExpr right)
  | .or left right => .binary (whereClauseToExpr left) .or (whereClauseToExpr right)
  | .none => .literal (.int 1)

/-- The comparisons of `row_matches`. -/
def Filter.holds (filter : Filter) (cell : Cell) : Bool :=
  match filter.op with
  | "=" => cell == filter.value
  | "!=" => cell != filter.value
  | "<" => decide (cell < filter.value)
  | ">" => decide (cell > filter.value)
  | "<=" => decide (cell ≤ filter.value)
  | ">=" => decide (cell ≥ filter.value)
  | _ => false

/-- `row_matches`; the second operand is read only when it decides. -/
def rowMatches : WhereClause → List Cell → Except Fault Bool
  | .none, _ => return true
  | .single filter, row => do
    let cell ← index row filter.colIdx
    return filter.holds cell
  | .and left right, row => do
    if ← rowMatches left row then rowMatches right row else return false
  | .or left right, row => do
    if ← rowMatches left row then return true else rowMatches right row

def filterIndicesBatch (xxh3 : List Char → Cell) (clause : WhereClause)
    (table : Table) : Except Fault (List Nat) :=
  match clause with
  | .none => return List.range table.rowCount
  | clause =>
    filterRows xxh3 table.columns table.columnNames table.rowCount (whereClauseToExpr clause)

/-- What a worker says of one row. -/
def scannedRow (clause : WhereClause) (table : Table)
    (mgr : MvccTxnManager) (rowIdx : Nat) : Except Fault (Option Nat) :=
  if rowVisibleToActive table mgr rowIdx then
    match clause with
    | .none => return some rowIdx
    | clause => do
      let row ← table.columns.mapM (fun column => index column rowIdx)
      return if ← rowMatches clause row then some rowIdx else none
  else return none

/-- The worker of `filter_indices_parallel`. -/
def scannedMorsel (clause : WhereClause) (table : Table)
    (mgr : MvccTxnManager) (morsel : List Nat) : Except Fault (List Nat) := do
  let rows ← morsel.mapM (scannedRow clause table mgr)
  return rows.reduceOption

def filterIndicesWhere (host : Host) (clause : WhereClause) (table : Table)
    (mvcc : Option MvccTxnManager) : Except Fault (List Nat) :=
  match mvcc with
  | none => filterIndicesBatch host.xxh3 clause table
  | some mgr =>
    if 1000 < table.rowCount then
      parallelScan (List.range table.rowCount) host.numThreads 256 (scannedMorsel clause table mgr)
    else do
      let rows ← filterIndicesBatch host.xxh3 clause table
      return rows.filter (rowVisibleToActive table mgr)

section

variable (host : Host) (clause : WhereClause) (table : Table)
  (limit : Option Nat) (mvcc : Option MvccTxnManager)

def limitedRows : Except Fault (List Nat) := do
  let rows ← filterIndicesWhere host clause table mvcc
  return rows.take (limit.getD rows.length)

def executeStarScan : Except Fault QueryResult := do
  let rows ← limitedRows host clause table limit mvcc
  let columns ← table.columnNames.zipIdx.mapM (fun entry => scanColumn table rows entry.1 entry.2)
  return resultOf columns rows

def executeColumnScan (name : String) : Except Fault QueryResult := do
  let colIdx ← columnIdxOrMissing table name
  let rows ← limitedRows host clause table limit mvcc
  let column ← scanColumn table rows name colIdx
  let strings := (stringSidecar table colIdx).map (fun texts => rows.map (stringAt texts))
  return resultOf [{ column with stringValues := strings }] rows

/-- `execute_select_multi`; an ORDER BY is not read, and an item that is
neither a column nor a star gives no column. -/
def executeMultiScan (items : List SelectItem) : Except Fault QueryResult := do
  let rows ← limitedRows host clause table limit mvcc
  let columns ←
    items.mapM
      (fun item => match item with
        | .column name => do
          let colIdx ← columnIdxOrMissing table name
          let column ← scanColumn table rows name colIdx
          return [column]
        | .star =>
          table.columnNames.zipIdx.mapM (fun entry => scanColumn table rows entry.1 entry.2)
        | _ => return [])
  return resultOf columns.flatten rows

end

/-- `SELECT <int>`. -/
def literalResult (value : UInt64) : QueryResult :=
  { columns :=
      [{ name := toString value, values := [value], stringValues := none,
         typeOid := 0, nullMask := none }]
    rowCount := 1 }

structure AggregateHost where
  executeGroupBy :
    SelectQuery → WhereClause → Table → Option MvccTxnManager → Except Fault QueryResult
  executeAggregate : String → String → Option String → WhereClause → Table →
      Option MvccTxnManager → Except Fault QueryResult
  executeAggregateNoGroup :
    List SelectItem → WhereClause → Table → Option MvccTxnManager → Except Fault QueryResult

def hasDot (name : String) : Bool := name.toList.contains '.'

/-- A name behind the name of its table, unless it has one already. -/
def qualifyLeft (fromTable name : String) : String :=
  if hasDot name then name else s!"{fromTable}.{name}"

def qualifyNames (fromTable joinTable : String) (leftCount : Nat)
    (rightNames names : List String) : Except Fault (List String) :=
  if leftCount ≤ names.length then
    .ok (names.zipIdx.map (fun entry =>
          if entry.2 < leftCount then qualifyLeft fromTable entry.1
          else
            match rightNames[entry.2 - leftCount]? with
            | some rightName => s!"{joinTable}.{rightName}"
            | none => entry.1))
  else .error .panic

def crossJoinInto (running right : Table) (fromTable joinTable : String) : Except Fault Table :=
  if running.rowCount * right.rowCount < 2 ^ 64 then do
    let leftColumns ←
      running.columns.mapM
        (fun column => do
          let cells ← (List.range running.rowCount).mapM (fun row => index column row)
          return cells.flatMap (List.replicate right.rowCount))
    let rightColumns ←
      right.columns.mapM
        (fun column => do
          let copies ←
            (List.range running.rowCount).mapM
              (fun _ => (List.range right.rowCount).mapM (fun row => index column row))
          return copies.flatten)
    return {
      name := s!"__cross_{joinTable}"
      columns := leftColumns ++ rightColumns
      columnNames := running.columnNames.map (qualifyLeft fromTable) ++
          right.columnNames.map (fun name => s!"{joinTable}.{name}")
      rowCount := running.rowCount * right.rowCount
      stringColumns := []
      nullBitmaps := []
      schema := none
      rowVersions := []
      i32Columns := [] }
  else .error (.error (.other "CROSS JOIN row count overflow"))

/-- The join that a keyword in upper case asks for, CROSS apart. -/
def joinTypeOf (keyword : List Char) : JoinType :=
  if keyword = "LEFT".toList then .left
  else if keyword = "RIGHT".toList then .right
  else if keyword = "FULL".toList then .full
  else .inner

def tableMissing (name : String) : Fault := .error (.notFound s!"table '{name}'")

def tableOrMissing (catalog : Catalog) (name : String) : Except Fault Table :=
  match catalog.lookup name with
  | some table => .ok table
  | none => .error (tableMissing name)

section

variable (host : SelectHost) (aggregates : AggregateHost)

def joinStep (catalog : Catalog) (fromTable : String) (running : Table)
    (join : JoinClause) : Except Fault Table := do
  let right ← tableOrMissing catalog join.table
  let keyword := toUppercase host.unicode join.joinType.toList
  if keyword = "CROSS".toList then
    crossJoinInto running right fromTable join.table
  else
    let keys ← extractJoinKeys host.debugExpr join.on running right
    let res ← hashJoin host.joinHash running right keys (joinTypeOf keyword)
    let joined := res.intoTable s!"__join_{join.table}"
    let names ←
      qualifyNames fromTable join.table running.columns.length right.columnNames joined.columnNames
    return { joined with columnNames := names }

def executeJoinedScan (query : SelectQuery) (table : Table) : Except Fault QueryResult := do
  let clause ← parseWhere host.xxh3 host.debugExpr table query.whereClause
  if !query.groupBy.isEmpty then
    aggregates.executeGroupBy query clause table none
  else
    match query.select with
    | [.aggregate func arg label] => aggregates.executeAggregate func arg label clause table none
    | [.star] => executeStarScan host.toHost clause table query.limit none
    | [.column name] => executeColumnScan host.toHost clause table query.limit none name
    | [.literal value] => return literalResult value
    | [.window _ _ _ _] =>
      .error (.error (.other "window function in join context — use interpreter fallback"))
    | [.expression _ _] =>
      .error (.error (.other "expression in join context — use interpreter fallback"))
    | items => executeMultiScan host.toHost clause table query.limit none items

def executeWithJoin (query : SelectQuery) (catalog : Catalog) : Except Fault QueryResult := do
  let base ← tableOrMissing catalog query.fromTable
  let running ← query.joins.foldlM (joinStep host catalog query.fromTable) base
  let modified := { query with joins := [] }
  match executeDispatched host modified running with
  | some res => res
  | none => executeJoinedScan host aggregates modified running

end

def SelectItem.isWindow : SelectItem → Bool
  | .window _ _ _ _ => true
  | _ => false

def strippedItems (items : List SelectItem) : List SelectItem :=
  if items.any SelectItem.isWindow then
    let rest := items.filter (fun item => !SelectItem.isWindow item)
    if rest.isEmpty then [.star] else rest
  else items

def applyOrderBy (res : QueryResult) (orderBy : List (String × Bool × NullsOrder)) :
    Except Fault QueryResult :=
  match orderBy with
  | [] => return res
  | (name, ascending, _) :: _ =>
    if res.columns.isEmpty ∨ res.rowCount ≤ 1 then return res
    else
      match res.columns.find? (fun column => column.name == name) with
      | none => .error (.error (.notFound s!"ORDER BY column '{name}'"))
      | some key =>
        if key.values.length < res.rowCount then .error .panic
        else do
          let cell (row : Nat) : Cell := key.values[row]?.getD 0
          let rows := (List.range res.rowCount).mergeSort
              (fun a b =>
                if ascending then decide (cell a ≤ cell b)
                else decide (cell b ≤ cell a))
          let columns ←
            res.columns.mapM
              (fun column => do
                let values ← rows.mapM (fun row => index column.values row)
                return ({ name := column.name, values := values,
                          stringValues := none, typeOid := 0,
                          nullMask := none } : ResultColumn))
          return { res with columns := columns }

section

variable (host : SelectHost) (aggregates : AggregateHost)

def executeTableScan (query : SelectQuery) (table : Table)
    (mvcc : Option MvccTxnManager) : Except Fault QueryResult := do
  let clause ← parseWhere host.xxh3 host.debugExpr table query.whereClause
  let stripped := { query with select := strippedItems query.select }
  let res ←
    if !stripped.groupBy.isEmpty then
      aggregates.executeGroupBy stripped clause table mvcc
    else
      match stripped.select with
      | [.aggregate func arg label] => aggregates.executeAggregate func arg label clause table mvcc
      | [.star] => executeStarScan host.toHost clause table query.limit mvcc
      | [.column name] => executeColumnScan host.toHost clause table query.limit mvcc name
      | [.literal value] => pure (literalResult value)
      | [.window _ _ _ _] => .error (.error (.other "internal: window item not stripped"))
      | [.expression _ _] =>
        .error (.error (.other "expression in SELECT — use interpreter fallback"))
      | [] => .error (.error (.other "empty SELECT list"))
      | items =>
        if items.any SelectItem.isAggregate then
          aggregates.executeAggregateNoGroup items clause table mvcc
        else
          executeMultiScan host.toHost clause table query.limit mvcc items
  if stripped.groupBy.isEmpty then applyOrderBy res query.orderBy
  else return res

/-- `execute_select`.  The optimizer's strategy for a query without joins is
always one of the two that ask the dispatcher. -/
def executeSelect (query : SelectQuery) (catalog : Catalog)
    (mvcc : Option MvccTxnManager) : Except Fault QueryResult := do
  if query.having.isSome then
    .error (.error (.other "HAVING requires interpreter fallback"))
  else
    let planned ←
      match mvcc with
      | none => host.planner query catalog
      | some _ => pure none
    match planned with
    | some res => return res
    | none =>
      let table ← tableOrMissing catalog query.fromTable
      if !query.joins.isEmpty then
        executeWithJoin host aggregates query catalog
      else
        match mvcc, executeDispatched host query table with
        | none, some (.ok res) => return res
        -- A panic of the dispatcher is not an error to fall back from.
        | none, some (.error .panic) => .error .panic
        | none, some (.error .stackOverflow) => .error .stackOverflow
        | _, _ => executeTableScan host aggregates query table mvcc

end

end TurboGP.Engine
