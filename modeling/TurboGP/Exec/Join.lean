import TurboGP.Datasource.Table
import TurboGP.Exec.JoinHashTable
import TurboGP.Exec.Vectorized

/-!
# Hash joins

`exec/join.rs`: the rows of the right table go into a hash table, the rows of
the left table look their partners up in it.
-/

namespace TurboGP.Exec

open Datasource Sql Txn Effect JoinHashTable List

/-- `resolve_col_name`: a column by its name, by the name behind a table's
name, or by the end of a qualified name. -/
def resolveColName (name : String) (table : Table) : Option Nat :=
  let qualified (column : String) : Bool := secondPart column == some name ||
      ('.' :: name.toList).isSuffixOf column.toList
  (table.columnIdx name).or
    (((secondPart name).bind table.columnIdx).or (table.columnNames.findIdx? qualified))

def resolveCol : Expr → Table → Option Nat
  | .column name, table => resolveColName name table
  | _, _ => none

structure JoinKey where
  left : Nat
  right : Nat
  deriving DecidableEq, Repr

/-- `collect_keys`: an equality names a column of each table, in either
order. -/
def collectKeys (left right : Table) : Expr → Except Fault (List JoinKey)
  | .binary first .and second => do
    let firstKeys ← collectKeys left right first
    let secondKeys ← collectKeys left right second
    return firstKeys ++ secondKeys
  | .binary first .eq second =>
    match resolveCol first left, resolveCol second right with
    | some leftKey, some rightKey => return [{ left := leftKey, right := rightKey }]
    | _, _ =>
      match resolveCol first right, resolveCol second left with
      | some rightKey, some leftKey => return [{ left := leftKey, right := rightKey }]
      | _, _ => .error (.error (.other "JOIN ON must be equi-join (=)"))
  | .binary _ _ _ => .error (.error (.other "JOIN ON must be equi-join (=)"))
  | _ => .error (.error (.other "JOIN ON must be binary expression"))

def extractJoinKeys (debugExpr : Expr → String) (on : Expr)
    (left right : Table) : Except Fault (List JoinKey) := do
  let keys ← collectKeys left right on
  if keys.isEmpty then
    let text := debugExpr on
    .error (.error (.other s!"JOIN ON must have equi-condition: {text}"))
  else return keys

inductive JoinType
  | inner | left | right | full | semi | anti
  deriving DecidableEq, Repr

structure JoinResult where
  columns : List (List Cell)
  columnNames : List String
  rowCount : Nat

/-- `into_table`: no sidecar and no version is kept. -/
def JoinResult.intoTable (result : JoinResult) (name : String) : Table :=
  { name := name, columns := result.columns, columnNames := result.columnNames
    rowCount := result.rowCount, stringColumns := [], nullBitmaps := [], schema := none
    rowVersions := [], i32Columns := [] }

def cellAt (table : Table) (colIdx rowIdx : Nat) : Except Fault Cell := do
  let column ← index table.columns colIdx
  index column rowIdx

def fxhashMult : UInt64 := 0x517cc1b727220a95

def packKey (table : Table) (keyColumns : List Nat) (rowIdx : Nat) : Except Fault UInt64 :=
  keyColumns.foldlM
    (fun hash colIdx => do
      let value ← cellAt table colIdx rowIdx
      return (hash + value) * fxhashMult)
    0

/-- Two rows have the same key; every cell of it was read before. -/
def keysEqual (left right : Table) (keys : List JoinKey) (leftRow rightRow : Nat) : Bool :=
  keys.all
    (fun key => left.cellOf key.left leftRow == right.cellOf key.right rightRow)

def JoinType.keepsLeft : JoinType → Bool
  | .left | .full => true
  | _ => false

def JoinType.keepsRight : JoinType → Bool
  | .right | .full => true
  | _ => false

section

variable (hash : UInt64 → UInt64) (left right : Table) (keys : List JoinKey)

def buildTable : Except Fault JoinHashTable := do
  let rows ← (range right.rowCount).mapM
      (fun rowIdx => do
        let packed ← packKey right (keys.map JoinKey.right) rowIdx
        return (packed, UInt32.ofNat rowIdx))
  return (new right.rowCount).insertAll hash rows

/-- The partners of a left row.  A probe that does not end never returns. -/
def trueMatches (table : JoinHashTable) (leftRow : Nat) : Except Fault (List Nat) := do
  let packed ← packKey left (keys.map JoinKey.left) leftRow
  match table.probeAll hash packed with
  | none => .error .panic
  | some found => return (found.map UInt32.toNat).filter (keysEqual left right keys leftRow)

def joinRows (joinType : JoinType) : Except Fault (List (Option Nat × Option Nat)) := do
  let table ← buildTable hash right keys
  let found ← (range left.rowCount).mapM
      (fun leftRow => do
        let partners ← trueMatches hash left right keys table leftRow
        return (leftRow, partners))
  let probed := found.flatMap
      (fun entry =>
        if entry.2.isEmpty then
          if joinType.keepsLeft then [(some entry.1, none)] else []
        else entry.2.map (fun rightRow => (some entry.1, some rightRow)))
  let unmatched :=
    if joinType.keepsRight then
      ((range right.rowCount).filter (fun rightRow =>
          !found.any (fun entry => entry.2.contains rightRow))).map
        (fun rightRow => (none, some rightRow))
    else []
  return probed ++ unmatched

def gatherColumn (column : List Cell) (rows : List (Option Nat)) : Except Fault (List Cell) :=
  rows.mapM
    (fun row => match row with
      | some rowIdx => index column rowIdx
      | none => return 0)

def hashJoin (joinType : JoinType) : Except Fault JoinResult := do
  if keys.isEmpty then
    .error (.error (.invalidArg "hash_join requires at least one key"))
  else
    let rows ← joinRows hash left right keys joinType
    let leftColumns ← left.columns.mapM (fun column => gatherColumn column (rows.map Prod.fst))
    let rightColumns ← right.columns.mapM (fun column => gatherColumn column (rows.map Prod.snd))
    return {
      columns := leftColumns ++ rightColumns
      columnNames := left.columnNames ++ right.columnNames
      rowCount := rows.length }

end

def partners (left right : Table) (keys : List JoinKey) (leftRow : Nat) : List Nat :=
  ((range right.rowCount).filter (keysEqual left right keys leftRow)).reverse

def matchingPairs (left right : Table) (keys : List JoinKey) : List (Nat × Nat) :=
  (range left.rowCount).flatMap
    (fun leftRow => (partners left right keys leftRow).map (fun rightRow => (leftRow, rightRow)))

variable {left right : Table} {keys : List JoinKey}

theorem mem_matchingPairs_iff {pair : Nat × Nat} :
    pair ∈ matchingPairs left right keys ↔ pair.1 < left.rowCount ∧ pair.2 < right.rowCount ∧
        keysEqual left right keys pair.1 pair.2 = true := by
  obtain ⟨leftRow, rightRow⟩ := pair
  simp [matchingPairs, partners]

theorem cellAt_eq (table : Table) (colIdx rowIdx : Nat) : cellAt table colIdx rowIdx =
      match table.cellOf colIdx rowIdx with
      | some cell => .ok cell
      | none => .error .panic := by
  unfold cellAt Table.cellOf index
  cases table.columns[colIdx]? with
  | none => rfl
  | some column =>
    simp only [Option.bind_some, bind, Except.bind]
    cases column[rowIdx]? <;> rfl

theorem packKey_eq_of_keysEqual {leftRow rightRow : Nat}
    (equal : keysEqual left right keys leftRow rightRow = true) :
    packKey left (keys.map JoinKey.left) leftRow =
      packKey right (keys.map JoinKey.right) rightRow := by
  unfold keysEqual at equal
  unfold packKey
  generalize (0 : UInt64) = start
  induction keys generalizing start with
  | nil => rfl
  | cons key rest sameRest =>
    rw [all_cons, Bool.and_eq_true, beq_iff_eq] at equal
    have sameCell : cellAt left key.left leftRow = cellAt right key.right rightRow := by
      rw [cellAt_eq, cellAt_eq, equal.1]
    rw [map_cons, map_cons, foldlM_cons, foldlM_cons, sameCell]
    cases cellAt right key.right rightRow with
    | error fault => rfl
    | ok cell => exact sameRest equal.2 _

def packedKey (table : Table) (keyColumns : List Nat) (rowIdx : Nat) : UInt64 :=
  (packKey table keyColumns rowIdx).toOption.getD 0

def packedRows (right : Table) (keys : List JoinKey) : List (UInt64 × UInt32) :=
  (range right.rowCount).map
    (fun rowIdx => (packedKey right (keys.map JoinKey.right) rowIdx, UInt32.ofNat rowIdx))

section

variable {hash : UInt64 → UInt64} {left right : Table} {keys : List JoinKey}
  {joinType : JoinType} {table : JoinHashTable}

theorem buildTable_ok (built : buildTable hash right keys = .ok table) : table =
        (new right.rowCount).insertAll hash (packedRows right keys) ∧
      ∀ rowIdx < right.rowCount, packKey right (keys.map JoinKey.right) rowIdx =
        .ok (packedKey right (keys.map JoinKey.right) rowIdx) := by
  obtain ⟨rows, read, isTable⟩ := except_ok_iff.mp built
  cases isTable
  have packs : ∀ rowIdx < right.rowCount, packKey right (keys.map JoinKey.right) rowIdx =
        .ok (packedKey right (keys.map JoinKey.right) rowIdx) := by
    intro rowIdx below
    obtain ⟨value, got⟩ := exists_mapM_ok_iff.mp ⟨rows, read⟩ rowIdx (mem_range.mpr below)
    obtain ⟨key, packed, -⟩ := except_ok_iff.mp got
    unfold packedKey
    rw [packed]
    rfl
  have isRead : rows = packedRows right keys := by
    apply mapM_ok_eq_map read
    intro rowIdx mem value got
    obtain ⟨key, packed, isValue⟩ := except_ok_iff.mp got
    cases isValue
    rw [packs rowIdx (mem_range.mp mem)] at packed
    cases packed
    rfl
  rw [isRead]
  exact ⟨rfl, packs⟩

theorem buildTable_holds (built : buildTable hash right keys = .ok table)
    (fits : right.rowCount < 2 ^ 32) : table.Holds hash (packedRows right keys) := by
  rw [(buildTable_ok built).1]
  exact (holds_new hash right.rowCount).insertAll (by simpa [packedRows] using fits)

theorem filter_packedRows (fits : right.rowCount < 2 ^ 32) (key : UInt64) :
    ((packedRows right keys).filter (fun row => row.1 == key)).map (fun row => row.2.toNat) =
      (range right.rowCount).filter
        (fun rowIdx => packedKey right (keys.map JoinKey.right) rowIdx == key) := by
  unfold packedRows
  rw [filter_map, map_map]
  refine (map_congr_left ?_).trans (map_id _)
  intro rowIdx mem
  have below := mem_range.mp (mem_filter.mp mem).1
  exact Nat.mod_eq_of_lt (Nat.lt_trans below fits)

theorem trueMatches_ok (built : buildTable hash right keys = .ok table)
    (fits : right.rowCount < 2 ^ 32) {leftRow : Nat} {found : List Nat}
    (probed : trueMatches hash left right keys table leftRow = .ok found) :
    found = partners left right keys leftRow := by
  obtain ⟨-, packs⟩ := buildTable_ok built
  have holds := buildTable_holds built fits
  obtain ⟨key, packed, probed⟩ := except_ok_iff.mp probed
  simp only [holds.probeAll_eq, pure, Except.pure, Except.ok.injEq] at probed
  have sameKey : ∀ rowIdx ∈ range right.rowCount,
      keysEqual left right keys leftRow rowIdx = true →
      (packedKey right (keys.map JoinKey.right) rowIdx == key) = true := by
    intro rowIdx mem equal
    have same := packKey_eq_of_keysEqual equal
    rw [packed, packs rowIdx (mem_range.mp mem)] at same
    cases same
    exact beq_self_eq_true _
  rw [← probed, map_reverse, map_reverse, map_map, filter_reverse]
  congr 1
  have bucket := @filter_packedRows right keys fits key
  simp only [Function.comp_def]
  rw [bucket, filter_filter]
  apply filter_congr
  intro rowIdx mem
  cases equal : keysEqual left right keys leftRow rowIdx with
  | false => rfl
  | true => exact sameKey rowIdx mem equal

def loopRows (left right : Table) (keys : List JoinKey)
    (joinType : JoinType) (partnersOf : Nat → List Nat) :
    List (Option Nat × Option Nat) :=
  (range left.rowCount).flatMap
      (fun leftRow =>
        if (partnersOf leftRow).isEmpty then
          if joinType.keepsLeft then [(some leftRow, none)] else []
        else
          (partnersOf leftRow).map (fun rightRow => (some leftRow, some rightRow))) ++
    if joinType.keepsRight then
      ((range right.rowCount).filter (fun rightRow => (range left.rowCount).all
            (fun leftRow => !keysEqual left right keys leftRow rightRow))).map
        (fun rightRow => (none, some rightRow))
    else []

variable {rows : List (Option Nat × Option Nat)} {column : List Cell} {result : JoinResult}

theorem joinRows_ok (fits : right.rowCount < 2 ^ 32)
    (joined : joinRows hash left right keys joinType = .ok rows) :
    rows = loopRows left right keys joinType (partners left right keys) := by
  obtain ⟨table, built, joined⟩ := except_ok_iff.mp joined
  obtain ⟨found, probed, joined⟩ := except_ok_iff.mp joined
  cases joined
  have isFound : found = (range left.rowCount).map
      (fun leftRow => (leftRow, partners left right keys leftRow)) := by
    apply mapM_ok_eq_map probed
    intro leftRow _ result got
    obtain ⟨partnersFound, matched, isResult⟩ := except_ok_iff.mp got
    cases isResult
    rw [trueMatches_ok built fits matched]
  have unmatched : ∀ rightRow ∈ range right.rowCount,
      (!found.any (fun entry => entry.2.contains rightRow)) = (range left.rowCount).all
          (fun leftRow => !keysEqual left right keys leftRow rightRow) := by
    intro rightRow mem
    rw [isFound, any_map, not_any_eq_all_not]
    congr 1
    funext leftRow
    have below := mem_range.mp mem
    cases equal : keysEqual left right keys leftRow rightRow <;>
      simp [partners, equal, below]
  unfold loopRows
  rw [← filter_congr unmatched, isFound, flatMap_map]

theorem joinRows_inner (fits : right.rowCount < 2 ^ 32)
    (joined : joinRows hash left right keys .inner = .ok rows) :
    rows = (matchingPairs left right keys).map (fun pair => (some pair.1, some pair.2)) := by
  rw [joinRows_ok fits joined]
  unfold loopRows matchingPairs
  simp only [JoinType.keepsLeft, JoinType.keepsRight, Bool.false_eq_true,
    if_false, append_nil, map_flatMap]
  apply flatMap_congr
  intro leftRow _
  cases partners left right keys leftRow <;> simp

def joinedCells (left right : Table) : List (Nat × Nat → Cell) :=
  left.columns.map (fun column pair => column[pair.1]?.getD 0) ++
    right.columns.map (fun column pair => column[pair.2]?.getD 0)

def cellIn (column : List Cell) (row : Option Nat) : Cell := (row.bind (column[·]?)).getD 0

theorem gatherColumn_ok {values : List Cell} {rows : List (Option Nat)}
    (gathered : gatherColumn column rows = .ok values) : values = rows.map (cellIn column) := by
  apply mapM_ok_eq_map gathered
  intro row _ cell read
  cases row with
  | none =>
    cases read
    rfl
  | some rowIdx =>
    unfold cellIn
    rw [Option.bind_some, index_eq_ok_iff.mp read]
    rfl

theorem exists_gatherColumn_iff {rows : List (Option Nat)} :
    (∃ values, gatherColumn column rows = .ok values) ↔
      ∀ rowIdx, some rowIdx ∈ rows → rowIdx < column.length := by
  unfold gatherColumn
  rw [exists_mapM_ok_iff]
  constructor
  · intro each rowIdx mem
    obtain ⟨cell, read⟩ := each _ mem
    exact (List.getElem?_eq_some_iff.mp (index_eq_ok_iff.mp read)).1
  · intro inside row mem
    cases row with
    | none => exact ⟨0, rfl⟩
    | some rowIdx =>
      have found := getElem?_eq_getElem (inside rowIdx mem)
      exact ⟨_, index_eq_ok_iff.mpr found⟩

def CellsExist (left right : Table) (pair : Nat × Nat) : Prop :=
  (∀ column ∈ left.columns, pair.1 < column.length) ∧
    ∀ column ∈ right.columns, pair.2 < column.length

def gathered (left right : Table) (rows : List (Option Nat × Option Nat)) : JoinResult :=
  { columns := left.columns.map
          (fun column => rows.map (fun row => cellIn column row.1)) ++
        right.columns.map (fun column => rows.map (fun row => cellIn column row.2))
    columnNames := left.columnNames ++ right.columnNames
    rowCount := rows.length }

theorem hashJoin_ok (joined : hashJoin hash left right keys joinType = .ok result) :
    ∃ rows, joinRows hash left right keys joinType = .ok rows ∧
      result = gathered left right rows ∧
      (∀ column ∈ left.columns, ∀ rowIdx,
        some rowIdx ∈ rows.map Prod.fst → rowIdx < column.length) ∧
      ∀ column ∈ right.columns, ∀ rowIdx,
        some rowIdx ∈ rows.map Prod.snd → rowIdx < column.length := by
  unfold hashJoin at joined
  split at joined
  · cases joined
  obtain ⟨rows, isRows, joined⟩ := except_ok_iff.mp joined
  obtain ⟨leftColumns, leftRead, joined⟩ := except_ok_iff.mp joined
  obtain ⟨rightColumns, rightRead, joined⟩ := except_ok_iff.mp joined
  cases joined
  refine ⟨rows, isRows, ?_, ?_, ?_⟩
  · rw [mapM_ok_eq_map leftRead _ fun _ _ _ => gatherColumn_ok,
      mapM_ok_eq_map rightRead _ fun _ _ _ => gatherColumn_ok]
    simp only [map_map]
    rfl
  · intro column isColumn
    exact exists_gatherColumn_iff.mp (exists_mapM_ok_iff.mp ⟨leftColumns, leftRead⟩ column isColumn)
  · intro column isColumn
    exact
      exists_gatherColumn_iff.mp (exists_mapM_ok_iff.mp ⟨rightColumns, rightRead⟩ column isColumn)

theorem hashJoin_inner (fits : right.rowCount < 2 ^ 32)
    (joined : hashJoin hash left right keys .inner = .ok result) :
    result =
        { columns :=
            (joinedCells left right).map (fun cell => (matchingPairs left right keys).map cell)
          columnNames := left.columnNames ++ right.columnNames
          rowCount := (matchingPairs left right keys).length } ∧
      ∀ pair ∈ matchingPairs left right keys, CellsExist left right pair := by
  obtain ⟨rows, isRows, isResult, lefts, rights⟩ := hashJoin_ok joined
  rw [joinRows_inner fits isRows] at isResult lefts rights
  constructor
  · rw [isResult]
    unfold gathered joinedCells
    simp only [map_append, map_map, length_map]
    rfl
  · intro pair mem
    constructor
    · intro column isColumn
      exact lefts column isColumn pair.1 (mem_map.mpr ⟨_, mem_map_of_mem mem, rfl⟩)
    · intro column isColumn
      exact rights column isColumn pair.2 (mem_map.mpr ⟨_, mem_map_of_mem mem, rfl⟩)

end

def FullColumns (table : Table) : Prop := ∀ column ∈ table.columns, column.length = table.rowCount

theorem exists_packKey {table : Table} {keyColumns : List Nat} {rowIdx : Nat}
    (full : FullColumns table) (known : ∀ colIdx ∈ keyColumns, colIdx < table.columns.length)
    (below : rowIdx < table.rowCount) : ∃ packed, packKey table keyColumns rowIdx = .ok packed := by
  unfold packKey
  generalize (0 : UInt64) = start
  induction keyColumns generalizing start with
  | nil => exact ⟨start, rfl⟩
  | cons colIdx rest ih =>
    obtain ⟨isColumn, others⟩ := forall_mem_cons.mp known
    have inside : rowIdx < table.columns[colIdx].length :=
      (full _ (getElem_mem isColumn)).symm ▸ below
    have read : cellAt table colIdx rowIdx = .ok table.columns[colIdx][rowIdx] := by
      rw [cellAt_eq, Table.cellOf, getElem?_eq_getElem isColumn,
        Option.bind_some, getElem?_eq_getElem inside]
    rw [foldlM_cons, read]
    exact ih others _

def JoinResult.rows (result : JoinResult) : List (List Cell) :=
  (range result.rowCount).map (fun i => result.columns.map (fun column => column[i]?.getD 0))

/-- The cells of two rows beside each other; a missing row has zeros. -/
def joinedRow (left right : Table) (row : Option Nat × Option Nat) : List Cell :=
  left.columns.map (cellIn · row.1) ++ right.columns.map (cellIn · row.2)

def SameKey (left right : Table) (keys : List JoinKey) (leftRow rightRow : Nat) : Prop :=
  ∀ key ∈ keys, left.cellOf key.left leftRow = right.cellOf key.right rightRow

instance (left right : Table) (keys : List JoinKey) (leftRow rightRow : Nat) :
    Decidable (SameKey left right keys leftRow rightRow) :=
  inferInstanceAs (Decidable (∀ key ∈ keys, _))

/-- The pairs of rows with the same key; a left row without a partner once
for Left and Full, a right row without a partner once for Right and Full. -/
def nestedLoopRows (left right : Table) (keys : List JoinKey)
    (joinType : JoinType) : List (Option Nat × Option Nat) :=
  let leftRows := range left.rowCount
  let rightRows := range right.rowCount
  let pairs := leftRows.flatMap fun l =>
    (rightRows.filter fun r => SameKey left right keys l r).map fun r => (some l, some r)
  let lonelyLeft := leftRows.filter fun l => ∀ r ∈ rightRows, ¬ SameKey left right keys l r
  let lonelyRight := rightRows.filter fun r => ∀ l ∈ leftRows, ¬ SameKey left right keys l r
  let padded := lonelyLeft.map fun l => (some l, none)
  let added := lonelyRight.map fun r => (none, some r)
  match joinType with
  | .inner | .semi | .anti => pairs
  | .left => pairs ++ padded
  | .right => pairs ++ added
  | .full => pairs ++ padded ++ added

def nestedLoopJoin (left right : Table) (keys : List JoinKey)
    (joinType : JoinType) : List (List Cell) :=
  (nestedLoopRows left right keys joinType).map (joinedRow left right)

section

variable {hash : UInt64 → UInt64} {left right : Table} {keys : List JoinKey}
  {joinType : JoinType}

theorem rows_gathered (rows : List (Option Nat × Option Nat)) :
    (gathered left right rows).rows = rows.map (joinedRow left right) := by
  refine ext_getElem (by simp [JoinResult.rows, gathered]) ?_
  intro i inside _
  simp only [JoinResult.rows, gathered, length_map, length_range] at inside
  simp [JoinResult.rows, gathered, joinedRow, inside, Function.comp_def]

theorem keysEqual_eq (leftRow rightRow : Nat) : keysEqual left right keys leftRow rightRow =
    decide (SameKey left right keys leftRow rightRow) := by
  rw [Bool.eq_iff_iff, decide_eq_true_iff]
  simp [keysEqual, SameKey]

theorem flatMap_ite_singleton {α β : Type} (rows : List α) (p : α → Bool) (f : α → β) :
    rows.flatMap (fun a => if p a then [f a] else []) = (rows.filter p).map f := by
  induction rows with
  | nil => rfl
  | cons a rest ih => cases keep : p a <;> simp [keep, ih]

/-- A left row and its partners, with the row alone where it is kept. -/
theorem probed_perm (leftRow : Nat) (keep : Bool) :
    (if (partners left right keys leftRow).isEmpty then
        if keep then [(some leftRow, none)] else []
      else (partners left right keys leftRow).map fun r => (some leftRow, some r)).Perm
    (((range right.rowCount).filter fun r => SameKey left right keys leftRow r).map
        (fun r => (some leftRow, some r)) ++
      if decide (∀ r ∈ range right.rowCount, ¬ SameKey left right keys leftRow r) && keep
      then [(some leftRow, none)] else []) := by
  have listed : partners left right keys leftRow =
      ((range right.rowCount).filter fun r => SameKey left right keys leftRow r).reverse := by
    unfold partners
    simp only [funext (keysEqual_eq leftRow)]
  by_cases lonely : ∀ r ∈ range right.rowCount, ¬ SameKey left right keys leftRow r
  · have none : ((range right.rowCount).filter fun r => SameKey left right keys leftRow r) = [] :=
      filter_eq_nil_iff.mpr fun r mem => by simpa using lonely r mem
    rw [listed, none, decide_eq_true lonely]
    cases keep <;> exact .refl _
  · have some :
        ((range right.rowCount).filter fun r => SameKey left right keys leftRow r) ≠ [] := by
      intro none
      exact lonely fun r mem => by simpa using filter_eq_nil_iff.mp none r mem
    rw [listed, isEmpty_reverse, isEmpty_eq_false_iff.mpr some, decide_eq_false lonely]
    simp

theorem loopRows_perm (joinType : JoinType) :
    (loopRows left right keys joinType (partners left right keys)).Perm
      (nestedLoopRows left right keys joinType) := by
  have unmatched : ∀ rightRow,
      ((range left.rowCount).all fun leftRow => !keysEqual left right keys leftRow rightRow) =
        decide (∀ l ∈ range left.rowCount, ¬ SameKey left right keys l rightRow) := by
    intro rightRow
    rw [Bool.eq_iff_iff]
    simp [keysEqual_eq]
  have probed := (Perm.flatMap_left (range left.rowCount) fun leftRow _ =>
      @probed_perm left right keys leftRow joinType.keepsLeft).trans
    (flatMap_append_perm _ _ _).symm
  unfold loopRows
  simp only [unmatched]
  refine (probed.append_right _).trans (.of_eq ?_)
  rw [flatMap_ite_singleton]
  cases joinType <;> simp [nestedLoopRows, JoinType.keepsLeft, JoinType.keepsRight]

theorem mem_loopRows {partnersOf : Nat → List Nat} {row : Option Nat × Option Nat}
    (below : ∀ leftRow, ∀ r ∈ partnersOf leftRow, r < right.rowCount)
    (mem : row ∈ loopRows left right keys joinType partnersOf) :
    (∀ l ∈ row.1, l < left.rowCount) ∧ ∀ r ∈ row.2, r < right.rowCount := by
  rcases mem_append.mp mem with probed | unmatched
  · obtain ⟨leftRow, isLeft, isRow⟩ := mem_flatMap.mp probed
    have inLeft := mem_range.mp isLeft
    split at isRow
    · split at isRow
      · cases mem_singleton.mp isRow
        simpa using inLeft
      · cases isRow
    · obtain ⟨rightRow, isPartner, rfl⟩ := mem_map.mp isRow
      simpa using ⟨inLeft, below leftRow rightRow isPartner⟩
  · split at unmatched
    · obtain ⟨rightRow, isRight, rfl⟩ := mem_map.mp unmatched
      have inRight := mem_range.mp (mem_filter.mp isRight).1
      simpa using inRight
    · cases unmatched

theorem exists_joinRows (fits : right.rowCount < 2 ^ 32)
    (leftFull : FullColumns left) (rightFull : FullColumns right)
    (known : ∀ key ∈ keys, key.left < left.columns.length ∧ key.right < right.columns.length) :
    ∃ rows, joinRows hash left right keys joinType = .ok rows := by
  have builds : ∃ table, buildTable hash right keys = .ok table := by
    have packs := exists_mapM_ok_iff.mpr fun rowIdx isRow =>
        Exists.imp' (·, UInt32.ofNat rowIdx)
          (fun packed isPacked => except_ok_iff.mpr ⟨packed, isPacked, rfl⟩)
          (@exists_packKey right (keys.map JoinKey.right) rowIdx rightFull
            (forall_mem_map.mpr fun key isKey => (known key isKey).2)
            (mem_range.mp isRow))
    obtain ⟨rows, read⟩ := packs
    exact ⟨_, except_ok_iff.mpr ⟨rows, read, rfl⟩⟩
  obtain ⟨table, built⟩ := builds
  have probes : ∃ found, (range left.rowCount).mapM (fun leftRow => do
            let partners ← trueMatches hash left right keys table leftRow
            return (leftRow, partners)) = .ok found := by
    refine exists_mapM_ok_iff.mpr fun leftRow isRow => ?_
    obtain ⟨packed, isPacked⟩ := @exists_packKey left (keys.map JoinKey.left) leftRow leftFull
        (forall_mem_map.mpr fun key isKey => (known key isKey).1) (mem_range.mp isRow)
    unfold trueMatches
    rw [isPacked]
    simp only [bind, Except.bind, (buildTable_holds built fits).probeAll_eq packed]
    exact ⟨_, rfl⟩
  obtain ⟨found, isFound⟩ := probes
  exact
    ⟨_, except_ok_iff.mpr ⟨table, built, except_ok_iff.mpr ⟨found, isFound, rfl⟩⟩⟩

theorem exists_gatherColumns {table : Table} {rows : List (Option Nat)} (full : FullColumns table)
    (inside : ∀ rowIdx, some rowIdx ∈ rows → rowIdx < table.rowCount) :
    ∃ columns, table.columns.mapM (fun column => gatherColumn column rows) = .ok columns := by
  refine exists_mapM_ok_iff.mpr fun column isColumn => ?_
  rw [exists_gatherColumn_iff, full column isColumn]
  exact inside

theorem exists_hashJoin (leftFull : FullColumns left) (rightFull : FullColumns right)
    (small : right.rowCount < 2 ^ 32) (nonempty : keys ≠ [])
    (known : ∀ key ∈ keys, key.left < left.columns.length ∧ key.right < right.columns.length) :
    ∃ result, hashJoin hash left right keys joinType = .ok result := by
  obtain ⟨rows, isRows⟩ :=
    @exists_joinRows hash left right keys joinType small leftFull rightFull known
  have inside :
      ∀ row ∈ rows, (∀ l ∈ row.1, l < left.rowCount) ∧ ∀ r ∈ row.2, r < right.rowCount := by
    rw [joinRows_ok small isRows]
    refine fun row => mem_loopRows fun leftRow r isPartner => ?_
    have listed := mem_reverse.mp isPartner
    exact mem_range.mp (mem_filter.mp listed).1
  have leftInside : ∀ l, some l ∈ rows.map Prod.fst → l < left.rowCount := by
    intro l isRow
    obtain ⟨row, mem, isFirst⟩ := mem_map.mp isRow
    exact (inside row mem).1 l isFirst
  have rightInside : ∀ r, some r ∈ rows.map Prod.snd → r < right.rowCount := by
    intro r isRow
    obtain ⟨row, mem, isSecond⟩ := mem_map.mp isRow
    exact (inside row mem).2 r isSecond
  obtain ⟨leftColumns, leftRead⟩ := exists_gatherColumns leftFull leftInside
  obtain ⟨rightColumns, rightRead⟩ := exists_gatherColumns rightFull rightInside
  have notEmpty : ¬ keys.isEmpty = true := by
    rwa [List.isEmpty_iff]
  unfold hashJoin
  rw [if_neg notEmpty]
  exact ⟨_, except_ok_iff.mpr ⟨rows, isRows, except_ok_iff.mpr
      ⟨leftColumns, leftRead, except_ok_iff.mpr ⟨rightColumns, rightRead, rfl⟩⟩⟩⟩

/-- A hash join returns the rows of the nested loop. -/
theorem hashJoin_perm_nestedLoopJoin (hash : UInt64 → UInt64)
    (joinType : JoinType) (leftFull : FullColumns left) (rightFull : FullColumns right)
    (fits : right.rowCount < 2 ^ 32 - 1) (nonempty : keys ≠ [])
    (known : ∀ key ∈ keys, key.left < left.columns.length ∧ key.right < right.columns.length) :
    ∃ result, hashJoin hash left right keys joinType = .ok result ∧
      (∀ column ∈ result.columns, column.length = result.rowCount) ∧
      result.rows.Perm (nestedLoopJoin left right keys joinType) := by
  have small : right.rowCount < 2 ^ 32 := by omega
  obtain ⟨result, joined⟩ :=
    @exists_hashJoin hash left right keys joinType leftFull rightFull small nonempty known
  obtain ⟨found, isFound, rfl, -, -⟩ := hashJoin_ok joined
  refine ⟨_, joined, ?_, ?_⟩
  · intro column isColumn
    rcases mem_append.mp isColumn with isLeft | isRight
    · obtain ⟨_, -, rfl⟩ := mem_map.mp isLeft
      exact length_map _
    · obtain ⟨_, -, rfl⟩ := mem_map.mp isRight
      exact length_map _
  · rw [rows_gathered, joinRows_ok small isFound]
    exact (loopRows_perm joinType).map _

end

namespace Example

def cellTable (cells : List Cell) : Table :=
  { name := "t", columns := [cells], columnNames := ["v"]
    rowCount := cells.length, stringColumns := [], nullBitmaps := []
    schema := none, rowVersions := [], i32Columns := [] }

theorem fullColumns_cellTable (cells : List Cell) : FullColumns (cellTable cells) :=
  forall_mem_singleton.mpr rfl

theorem full_join_of_cells : ∃ result, hashJoin id (cellTable [1, 2]) (cellTable [2, 3, 2])
    [{ left := 0, right := 0 }] .full = .ok result ∧
        (∀ column ∈ result.columns, column.length = result.rowCount) ∧
        result.rows.Perm [[2, 2], [2, 2], [1, 0], [0, 3]] :=
  hashJoin_perm_nestedLoopJoin id .full (fullColumns_cellTable _)
    (fullColumns_cellTable _) (by decide) (cons_ne_nil _ _) (by decide)

end Example

end TurboGP.Exec
