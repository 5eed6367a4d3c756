import TurboGP.Engine.PlainTables

/-! # Declared keys -/

namespace TurboGP.Engine

open Effect GuardedRun Datasource Sql Txn List

inductive DeclaredKey (table : Table) (schema : TableSchema) : List Nat → Prop
  | column {colIdx : Nat} {column : ColumnSchema}
      (found : schema.columns[colIdx]? = some column)
      (declared : column.primaryKey = true ∨ column.unique = true) :
      DeclaredKey table schema [colIdx]
  | constraint {names : List String} {key : List Nat}
      (member : names ∈ schema.uniqueConstraints)
      (positions : names.map table.columnIdx = key.map some) :
      DeclaredKey table schema key

structure KeysHold (table : Table) (schema : TableSchema) : Prop where
  notNull : ∀ (colIdx : Nat) column, schema.columns[colIdx]? = some column →
      column.notNull = true ∨ column.primaryKey = true →
      ∀ rowIdx < table.rowCount, table.nullAt colIdx rowIdx = false
  distinct : ∀ key, DeclaredKey table schema key →
      ∀ first second, first < second → second < table.rowCount →
      (∀ colIdx ∈ key, table.nullAt colIdx first = false ∧ table.nullAt colIdx second = false) →
        ∃ colIdx ∈ key, storedCell table first colIdx ≠ storedCell table second colIdx

/-- Every column of the schema is a column of the table. -/
structure SchemaFits (table : Table) (schema : TableSchema) : Prop where
  columns : schema.columns.length ≤ table.columns.length
  names : table.columnNames.length ≤ table.columns.length

def KeysDistinct (table : Table) (schema : TableSchema) (rows : List LogicalRow) : Prop :=
  ∀ key, DeclaredKey table schema key → (rows.map (LogicalRow.key key)).Nodup

section

variable {table : Table} {schema : TableSchema} {rows : List LogicalRow}
  {key : List Nat}

theorem DeclaredKey.lt (declared : DeclaredKey table schema key) (fits : SchemaFits table schema) :
    ∀ colIdx ∈ key, colIdx < table.columns.length := by
  intro colIdx mem
  cases declared with
  | column found _ =>
    rw [mem_singleton.mp mem]
    have inside := (List.getElem?_eq_some_iff.mp found).1
    exact Nat.lt_of_lt_of_le inside fits.columns
  | constraint _ positions =>
    have isPosition : some colIdx ∈ key.map some := mem_map_of_mem mem
    rw [← positions] at isPosition
    obtain ⟨name, -, isIdx⟩ := mem_map.mp isPosition
    have inside := (findIdx?_eq_some_iff_getElem.mp isIdx).1
    exact Nat.lt_of_lt_of_le inside fits.names

theorem KeysDistinct.keysHold (distinct : KeysDistinct table schema rows)
    (plain : Plain table rows) (fits : SchemaFits table schema) :
    KeysHold table schema where
  notNull := fun colIdx _ _ _ rowIdx _ => plain.nullAt colIdx rowIdx
  distinct := by
    intro key declared first second before inside _
    by_contra none
    push Not at none
    rw [plain.count] at inside
    have sameKey :
        (rows.map (LogicalRow.key key))[first]? = (rows.map (LogicalRow.key key))[second]? := by
      have atFirst := getElem?_eq_getElem (before.trans inside)
      have atSecond := getElem?_eq_getElem inside
      rw [getElem?_map, getElem?_map, atFirst, atSecond]
      refine congrArg some (map_congr_left fun colIdx mem => ?_)
      have same := none colIdx mem
      have bound := declared.lt fits colIdx mem
      rw [plain.storedCell bound atFirst, plain.storedCell bound atSecond] at same
      exact Option.some.inj same
    exact nodup_iff_getElem?_ne_getElem?.mp (distinct key declared) first
      second before (by rwa [length_map]) sameKey

end

section

variable {host : Host} {table changed : Table} {schema : TableSchema}
  {colIndices : List Nat} {values : List (List String)}
  {rows : List LogicalRow} {rowVals : List String} {row : NewRow}
  {rowIdx colIdx : Nat}

variable {text : String} {column : ColumnSchema} {key : List Nat} {cell : Cell}

theorem checkInsertedValue_fresh
    (passed : checkInsertedValue host table schema rowIdx colIdx text = .ok ())
    (found : schema.columns[colIdx]? = some column) (isKey : column.primaryKey = true)
    (given : Text.isNullWord text = false) :
    ∃ cell cells,
      parseValueCell host text = .ok cell ∧ table.columns[colIdx]? = some cells ∧ cell ∉ cells := by
  unfold checkInsertedValue at passed
  simp only [found, given, isKey, Bool.and_false, Bool.false_eq_true,
    if_false, Bool.not_false, Bool.and_true, if_true] at passed
  obtain ⟨cell, parsed, passed⟩ := except_ok_iff.mp passed
  obtain ⟨cells, atColumn, passed⟩ := except_ok_iff.mp passed
  refine ⟨cell, cells, parsed, index_eq_ok_iff.mp atColumn, fun mem => ?_⟩
  rw [if_pos (contains_iff_mem.mpr mem)] at passed
  cases passed

theorem checkUniqueColumns_fresh (plain : Plain table rows)
    (passed : checkUniqueColumns table schema (insertConflicts table) rowIdx row = .ok ())
    (found : schema.columns[colIdx]? = some column) (isUnique : column.unique = true)
    (given : row.2[colIdx]? = some false) :
    ∃ cell cells,
      row.1[colIdx]? = some cell ∧ table.columns[colIdx]? = some cells ∧ cell ∉ cells := by
  have checked := forM_ok passed (column, colIdx) (mem_zipIdx_iff_getElem?.mpr found)
  simp only [isUnique, if_true] at checked
  obtain ⟨isNull, flag, checked⟩ := except_ok_iff.mp checked
  cases (index_eq_ok_iff.mp flag).symm.trans given
  obtain ⟨cell, atRow, checked⟩ := except_ok_iff.mp checked
  obtain ⟨cells, atColumn, checked⟩ := except_ok_iff.mp checked
  refine ⟨cell, cells, index_eq_ok_iff.mp atRow, index_eq_ok_iff.mp atColumn, fun mem => ?_⟩
  have conflict : insertConflicts table colIdx cells cell = true := by
    unfold insertConflicts
    cases first : cells.findIdx? (fun existing => existing == cell) with
    | none =>
      have differ := findIdx?_eq_none_iff.mp first cell mem
      rw [BEq.rfl] at differ
      cases differ
    | some idx =>
      simp only
      rw [plain.nullAt]
      rfl
  rw [if_pos conflict] at checked
  cases checked

theorem checkUniqueConstraints_fresh {names : List String} (plain : Plain table rows)
    (passed : checkUniqueConstraints table schema (fun _ => false) rowIdx row = .ok ())
    (mem : names ∈ schema.uniqueConstraints) (positions : names.map table.columnIdx = key.map some)
    (given : ∀ colIdx ∈ key, row.2[colIdx]? = some false) :
    key.map (fun colIdx => row.1[colIdx]?.getD 0) ∉ rows.map (LogicalRow.key key) := by
  have checked := forM_ok passed names mem
  simp only [positions] at checked
  obtain ⟨combo, read, checked⟩ := except_ok_iff.mp checked
  have isCombo : combo = (key.map some).map (fun idx => ((row.1[idx.getD 0]?).getD 0, false)) := by
    refine mapM_ok_eq_map read _ fun idx isIdx res got => ?_
    obtain ⟨colIdx, inKey, rfl⟩ := mem_map.mp isIdx
    obtain ⟨cell, atCell, got⟩ := except_ok_iff.mp got
    obtain ⟨flag, atFlag, got⟩ := except_ok_iff.mp got
    cases got
    cases (index_eq_ok_iff.mp atFlag).symm.trans (given colIdx inKey)
    rw [Option.getD_some, index_eq_ok_iff.mp atCell]
    rfl
  have noNull : combo.any Prod.snd = false := by
    rw [isCombo, any_map]
    exact any_eq_false.mpr fun _ _ => Bool.false_ne_true
  simp only [noNull, Bool.false_eq_true, if_false] at checked
  obtain ⟨duplicate, searched, checked⟩ := except_ok_iff.mp checked
  have unique : duplicate = false := by
    cases duplicate with
    | false => rfl
    | true => cases checked
  subst unique
  intro isRow
  obtain ⟨existing, inRows, sameKey⟩ := mem_map.mp isRow
  obtain ⟨r, atRow⟩ := mem_iff_getElem?.mp inRows
  have bound : r < table.rowCount := by
    rw [plain.count]
    exact (List.getElem?_eq_some_iff.mp atRow).1
  have compared := anyM_ok searched r (mem_filter.mpr ⟨mem_range.mpr bound, rfl⟩)
  obtain ⟨entry, isEntry, differs⟩ := allM_ok compared
  rw [isCombo, map_map, zip_map'] at isEntry
  obtain ⟨colIdx, inKey, rfl⟩ := mem_map.mp isEntry
  obtain ⟨cell, atCell, differs⟩ := except_ok_iff.mp differs
  obtain ⟨cells, atColumn, isCell⟩ := except_ok_iff.mp atCell
  cases isCell
  have column := index_eq_ok_iff.mp atColumn
  have here := map_inj_left.mp sameKey colIdx inKey
  have isExisting : cells[r]?.getD 0 = (existing colIdx).cell := by
    rw [plain.cells colIdx cells column, getElem?_map, atRow]
    rfl
  have equal : (cells[r]?.getD 0 == row.1[colIdx]?.getD 0) = false := Except.ok.inj differs
  rw [isExisting, here, BEq.rfl] at equal
  cases equal

theorem Plain.column_fresh (plain : Plain table rows) {cells : List Cell}
    (found : table.columns[colIdx]? = some cells) (fresh : cell ∉ cells)
    {given : LogicalRow} (isCell : (given colIdx).cell = cell) :
    given.key [colIdx] ∉ rows.map (LogicalRow.key [colIdx]) := by
  intro mem
  obtain ⟨existing, inRows, same⟩ := mem_map.mp mem
  have sameCell : (existing colIdx).cell = (given colIdx).cell := (cons.inj same).1
  refine fresh ?_
  rw [plain.cells colIdx cells found, ← isCell, ← sameCell]
  exact mem_map_of_mem inRows

theorem RowsAdded.givenRow_cell (rowsAdded : RowsAdded host colIndices values table changed)
    (covers : colIndices.Perm (range table.columns.length)) (mem : rowVals ∈ values) {k : Nat}
    (listed : (colIdx, k) ∈ colIndices.zipIdx)
    (read : index rowVals k = .ok text) (parsed : parseValueCell host text = .ok cell) :
    (givenRow host table colIndices rowVals colIdx).cell = cell := by
  obtain ⟨pairs, readAll, -⟩ := rowsAdded.cells
  obtain ⟨n, atRow⟩ := mem_iff_getElem?.mp mem
  have readRow := mapM_ok_getElem? readAll n
  rw [atRow, Option.map_some, eq_comm, Option.map_eq_some_iff] at readRow
  obtain ⟨cells, -, readCells⟩ := readRow
  have inside : colIdx < table.columns.length :=
    mem_range.mp (covers.mem_iff.mp (fst_mem_of_mem_zipIdx listed))
  obtain ⟨stored, single, isStored⟩ := cellsFor_of_covered covers readCells.symm inside
  obtain ⟨nulls, got⟩ := insertedRow_eq_ok readCells.symm fun other isListed =>
      mem_range.mp (covers.mem_iff.mp isListed)
  obtain ⟨pos, atPosition⟩ := mem_iff_getElem?.mp listed
  have readEntry := mapM_ok_getElem? readCells.symm pos
  rw [atPosition, Option.map_some, eq_comm, Option.map_eq_some_iff] at readEntry
  obtain ⟨pair, isPair, isRead⟩ := readEntry
  have isEntry : entryCell host rowVals (colIdx, k) = .ok (colIdx, cell) :=
    entryCell_eq_ok_iff.mpr ⟨text, cell, read, parsed, rfl⟩
  cases isRead.trans isEntry
  have distinct : (cells.map Prod.fst).Nodup := by
    rw [rowCells_columns readCells.symm]
    exact covers.nodup_iff.mpr nodup_range
  have same := cellsFor_eq_singleton distinct (mem_of_getElem? isPair)
  cases single.symm.trans same
  exact Engine.givenRow_cell got isStored

theorem Plain.inserted_fresh (plain : Plain table rows)
    (isSchema : table.schema = some schema) (fits : SchemaFits table schema)
    (covers : colIndices.Perm (range table.columns.length)) (given : GivesValues values)
    (rowsAdded : RowsAdded host colIndices values table changed)
    (checked : checkInsertedRows host table colIndices values = .ok ())
    (declared : DeclaredKey table schema key) (mem : rowVals ∈ values) :
    (givenRow host table colIndices rowVals).key key ∉ rows.map (LogicalRow.key key) := by
  unfold checkInsertedRows at checked
  rw [isSchema] at checked
  obtain ⟨_, ofValues, ofRows⟩ := except_ok_iff.mp checked
  obtain ⟨n, atRow⟩ := mem_iff_getElem?.mp mem
  have inValues : (rowVals, n) ∈ values.zipIdx := mem_zipIdx_iff_getElem?.mpr atRow
  have ofRow := forM_ok ofRows (rowVals, n) inValues
  obtain ⟨row, got, ofRow⟩ := except_ok_iff.mp ofRow
  obtain ⟨_, -, ofRow⟩ := except_ok_iff.mp ofRow
  obtain ⟨_, uniqueColumns, constraints⟩ := except_ok_iff.mp ofRow
  have flags : ∀ colIdx ∈ key, row.2[colIdx]? = some false := by
    intro colIdx inKey
    refine insertedRow_flags (given rowVals mem) got colIdx ?_
    exact covers.mem_iff.mpr (mem_range.mpr (declared.lt fits colIdx inKey))
  have bounds := declared.lt fits
  cases declared with
  | @column colIdx column found isDeclared =>
    have inside := bounds colIdx (mem_singleton_self _)
    rcases isDeclared with isKey | isUnique
    · have listed : colIdx ∈ colIndices := covers.mem_iff.mpr (mem_range.mpr inside)
      obtain ⟨k, atColumn⟩ := mem_iff_getElem?.mp listed
      have inColumns : (colIdx, k) ∈ colIndices.zipIdx := mem_zipIdx_iff_getElem?.mpr atColumn
      have ofValue := forM_ok (forM_ok ofValues (rowVals, n) inValues) (colIdx, k) inColumns
      obtain ⟨text, read, ofValue⟩ := except_ok_iff.mp ofValue
      have isValue := given rowVals mem text (mem_of_getElem? (index_eq_ok_iff.mp read))
      obtain ⟨cell, cells, parsed, atCells, fresh⟩ :=
        checkInsertedValue_fresh ofValue found isKey isValue
      refine plain.column_fresh atCells fresh ?_
      exact rowsAdded.givenRow_cell covers mem inColumns read parsed
    · obtain ⟨cell, cells, stored, atCells, fresh⟩ :=
        checkUniqueColumns_fresh plain uniqueColumns found isUnique
          (flags colIdx (mem_singleton_self _))
      exact plain.column_fresh atCells fresh (givenRow_cell got stored)
  | constraint isConstraint positions =>
    have fresh := checkUniqueConstraints_fresh plain constraints isConstraint positions flags
    unfold LogicalRow.key givenRow insertedCells
    simp only [got]
    exact fresh

end

section

variable (host : Host)

/-- The rows of an INSERT differ in every key, and an UPDATE assigns to no
column of a key. -/
def KeysFit (engine : QueryEngine) : DmlStatement → Prop
  | .insert ins =>
    ∀ table schema colIndices key, engine.catalog.lookup ins.table = some table →
      table.schema = some schema →
      insertColumns table ins.columns = .ok colIndices →
      DeclaredKey table schema key →
        (ins.values.map (fun rowVals =>
            (givenRow host table colIndices rowVals).key key)).Nodup
  | .update upd =>
    ∀ table schema assigns key, engine.catalog.lookup upd.table = some table →
      table.schema = some schema →
      parseAssignments host table upd.assignments = .ok assigns →
      DeclaredKey table schema key → ∀ assign ∈ assigns, assign.colIdx ∉ key
  | .delete _ => True

def KeysKept (engine : QueryEngine) (statement : DmlStatement × Option Nat) : Prop :=
  DmlFits host engine statement.1 ∧ KeysFit host engine statement.1

end

def Keyed (engine : QueryEngine) (rows : TableRows) : Prop :=
  ∀ name table schema, engine.catalog.lookup name = some table →
    table.schema = some schema → SchemaFits table schema ∧ KeysDistinct table schema (rows name)

section

variable {host : Host} {unicode : Text.Unicode}
  {debug : Lexer.Token → String} {depth : Nat}
  {engine next : QueryEngine} {rows : TableRows} {txnId : Option Nat}
  {res : QueryResult}

theorem SameHeader.declaredKey {old new : Table} {schema : TableSchema}
    {key : List Nat} (header : SameHeader old new)
    (declared : DeclaredKey new schema key) : DeclaredKey old schema key := by
  cases declared with
  | column found isDeclared => exact .column found isDeclared
  | constraint mem positions =>
    refine .constraint mem ?_
    rwa [header.columnIdx] at positions

theorem Keyed.changeRows {target : String} {change : Table → List LogicalRow → List LogicalRow}
    (keyed : Keyed engine rows) (kept : TablesKept engine next)
    (ofTarget : ∀ table schema key, engine.catalog.lookup target = some table →
        table.schema = some schema → DeclaredKey table schema key →
        ((change table (rows target)).map (LogicalRow.key key)).Nodup) :
    Keyed next (changeRows engine rows target change) := by
  intro name changed schema found isSchema
  obtain ⟨table, held, header⟩ := kept.before found
  rw [header.schema] at isSchema
  obtain ⟨fits, distinct⟩ := keyed name table schema held isSchema
  refine ⟨⟨?_, ?_⟩, fun key declared => ?_⟩
  · rw [header.width]
    exact fits.columns
  · rw [header.width, header.columnNames]
    exact fits.names
  · have isKey := header.declaredKey declared
    unfold Engine.changeRows
    by_cases here : name = target
    · subst here
      rw [held]
      simp only [Function.update_self]
      exact ofTarget table schema key held isSchema isKey
    · cases engine.catalog.lookup target with
      | none => exact distinct key isKey
      | some _ =>
        simp only [Function.update_of_ne here]
        exact distinct key isKey

theorem Keyed.dml {stmt : DmlStatement} (evaluates : host.EvaluatesWhere unicode debug)
    (all : AllPlain engine rows) (keyed : Keyed engine rows)
    (fits : DmlFits host engine stmt) (keysFit : KeysFit host engine stmt)
    (ran : executeDml host depth stmt txnId engine = .ok res next) :
    Keyed next (dmlRows host engine rows stmt) := by
  have kept := (all.dml evaluates fits ran).2
  cases stmt with
  | insert ins =>
    refine keyed.changeRows kept ?_
    intro table schema key held isSchema declared
    obtain ⟨_, changed, colIndices, insertion, -⟩ := executeInsert_returned ran
    cases held.symm.trans insertion.present
    obtain ⟨schemaFits, distinct⟩ := keyed ins.table table schema held isSchema
    obtain ⟨covers, given⟩ := fits.2 table held
    obtain ⟨added, applied⟩ := insertion.applied
    rw [fits.1] at applied
    unfold insertedRows
    rw [insertion.columns]
    simp only [map_append, map_map]
    refine List.Nodup.append (distinct key declared) ?_ ?_
    · exact keysFit table schema colIndices key held isSchema insertion.columns declared
    · intro old inOld inNew
      obtain ⟨rowVals, mem, rfl⟩ := mem_map.mp inNew
      exact (all ins.table table held).inserted_fresh isSchema schemaFits
        (covers colIndices insertion.columns) given
        (applyInsert_snapshot applied).1 insertion.checked declared mem inOld
  | update upd =>
    refine keyed.changeRows kept ?_
    intro table schema key held isSchema declared
    have distinct := (keyed upd.table table schema held isSchema).2
    rw [map_key_updatedRows fun assigns parsed =>
      keysFit table schema assigns key held isSchema parsed declared]
    exact distinct key declared
  | delete del =>
    refine keyed.changeRows kept ?_
    intro table schema key held isSchema declared
    have distinct := (keyed del.table table schema held isSchema).2
    unfold remainingRows
    split
    · next mask selected =>
      have length := (all del.table table held).length_matchMask evaluates selected
      have fewer := rowsWhere_sublist ((length_map (fun deleted => !deleted)).trans length)
      exact (distinct key declared).sublist (fewer.map _)
    · exact distinct key declared

end

theorem FreshTables.keyed {engine : QueryEngine}
    (fresh : FreshTables engine) : Keyed engine (freshRows engine) := by
  intro name table schema held isSchema
  rcases fresh name table held with ⟨ct, rfl⟩ | rfl
  · cases isSchema
    unfold freshRows
    rw [held]
    refine ⟨⟨?_, ?_⟩, fun _ _ => nodup_nil⟩
    · exact Nat.le_of_eq ((length_map _).trans (length_map _).symm)
    · exact Nat.le_of_eq ((length_map _).trans (length_map _).symm)
  · cases isSchema

/-- In every run from created tables whose statements give no NULL, insert rows
that differ in every key and update no column of a key, the keys hold. -/
theorem declared_keys_hold {host : Host} {unicode : Text.Unicode}
    {debug : Lexer.Token → String} {depth : Nat} {start final : QueryEngine}
    {statements : List (DmlStatement × Option Nat)}
    (evaluates : host.EvaluatesWhere unicode debug) (fresh : FreshTables start)
    (run : Run (tablesStep host depth) (KeysKept host) start statements final) :
    ∀ name table schema, final.catalog.lookup name = some table →
      table.schema = some schema → KeysHold table schema := by
  have holds : ∃ rows, AllPlain final rows ∧ Keyed final rows := by
    refine run.invariant (fun engine => ∃ rows, AllPlain engine rows ∧ Keyed engine rows) ?_
      ⟨_, fresh.allPlain, fresh.keyed⟩
    rintro engine stmt next ⟨rows, all, keyed⟩ ⟨fits, keysFit⟩ stepped
    obtain ⟨res, ran⟩ := tablesStep_eq_some stepped
    exact ⟨_, (all.dml evaluates fits ran).1, keyed.dml evaluates all fits keysFit ran⟩
  intro name table schema held isSchema
  obtain ⟨rows, all, keyed⟩ := holds
  obtain ⟨schemaFits, distinct⟩ := keyed name table schema held isSchema
  exact distinct.keysHold (all name table held) schemaFits

namespace Example

/-- `INSERT INTO t VALUES (1), (2)` keeps the column unique. -/
theorem declared_keys_hold_twoRows : ∃ final,
      Run (tablesStep evaluatingHost 1) (KeysKept evaluatingHost) uniqueEngine
          [(insertsInto "t" [["1"], ["2"]], none)] final ∧
        ∀ name table schema, final.catalog.lookup name = some table →
          table.schema = some schema → KeysHold table schema := by
  have keysFit : KeysFit evaluatingHost uniqueEngine (insertsInto "t" [["1"], ["2"]]) := by
    intro table schema colIndices key held isSchema columns declared
    rw [(lookup_uniqueEngine held).2] at isSchema columns declared ⊢
    cases isSchema
    cases columns
    cases declared with
    | @column colIdx _ found _ =>
      match colIdx with
      | 0 => decide
      | _ + 1 => cases found
    | constraint mem _ => cases mem
  obtain ⟨final, run⟩ : ∃ final,
        Run (tablesStep evaluatingHost 1) (KeysKept evaluatingHost) uniqueEngine
          [(insertsInto "t" [["1"], ["2"]], none)] final :=
    ⟨_, .cons ⟨dmlFits_insertsInto rfl givesValues_twoRows, keysFit⟩ rfl (.nil _)⟩
  exact ⟨final, run, declared_keys_hold evaluatesWhere freshTables_uniqueEngine run⟩

/-- `INSERT INTO t VALUES (1), (1)` is accepted on a UNIQUE column. -/
theorem repeated_value_is_inserted : ∃ final table, FreshTables uniqueEngine ∧
    tablesStep evaluatingHost 1 uniqueEngine
      (insertsInto "t" [["1"], ["1"]], none) = some final ∧
    final.catalog.lookup "t" = some table ∧
    ¬ KeysHold table (TableSchema.fromCreateTable createUnique) := by
  refine ⟨_, _, freshTables_uniqueEngine, rfl, rfl, fun holds => ?_⟩
  obtain ⟨colIdx, inKey, differ⟩ :=
    holds.distinct [0] (.column rfl (.inr rfl)) 0 1 Nat.zero_lt_one
      Nat.one_lt_two
      (fun colIdx mem => by
        rw [mem_singleton.mp mem]
        exact ⟨rfl, rfl⟩)
  rw [mem_singleton.mp inKey] at differ
  exact differ rfl

end Example

end TurboGP.Engine
