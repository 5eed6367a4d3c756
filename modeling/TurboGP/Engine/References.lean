import TurboGP.Engine.PlainTables

/-! # Foreign keys -/

namespace TurboGP.Engine

open Effect GuardedRun Datasource Sql Txn List Option

def ReferencesHold (catalog : Catalog) : Prop :=
  ∀ childName child fk, catalog.lookup childName = some child →
    fk ∈ child.foreignKeys → ∀ rowIdx < child.rowCount,
      (∀ name ∈ fk.columns, ∃ i, child.columnIdx name = some i ∧ child.nullAt i rowIdx = false) →
      ∃ parent parentRow, catalog.lookup fk.refTable = some parent ∧
        parentRow < parent.rowCount ∧
        ∀ (k : Nat) refName, fk.refColumns[k]? = some refName →
          ∃ name i j, fk.columns[k]? = some name ∧
            child.columnIdx name = some i ∧ parent.columnIdx refName = some j ∧
            parent.nullAt j parentRow = false ∧
            storedCell child rowIdx i = storedCell parent parentRow j

def Refers (child parent : Table) (fk : TableForeignKey) (row parentRow : LogicalRow) : Prop :=
  ∀ (k : Nat) refName, fk.refColumns[k]? = some refName →
    ∃ name i j, fk.columns[k]? = some name ∧ child.columnIdx name = some i ∧
      parent.columnIdx refName = some j ∧ (row i).cell = (parentRow j).cell

def KnownColumns (child : Table) (fk : TableForeignKey) : Prop :=
  ∀ name ∈ fk.columns, ∃ i, child.columnIdx name = some i

def Referring (engine : QueryEngine) (rows : TableRows) (child : Table)
    (fk : TableForeignKey) (row : LogicalRow) : Prop :=
  ∃ parent, engine.catalog.lookup fk.refTable = some parent ∧
    ∃ parentRow ∈ rows fk.refTable, Refers child parent fk row parentRow

def RefsHold (engine : QueryEngine) (rows : TableRows) : Prop :=
  ∀ childName child fk, engine.catalog.lookup childName = some child →
    fk ∈ child.foreignKeys → KnownColumns child fk →
    ∀ row ∈ rows childName, Referring engine rows child fk row

def NamesFit (engine : QueryEngine) : Prop :=
  ∀ name table, engine.catalog.lookup name = some table →
    table.columnNames.length ≤ table.columns.length

section

variable {host : Host} {unicode : Text.Unicode}
  {debug : Lexer.Token → String} {depth : Nat}
  {engine next : QueryEngine} {rows newRows : TableRows}
  {txnId : Option Nat} {res : QueryResult}

variable {name : String} {table child : Table} {fk : TableForeignKey}

theorem NamesFit.lt (names : NamesFit engine) {column : String}
    (held : engine.catalog.lookup name = some table)
    {colIdx : Nat} (found : table.columnIdx column = some colIdx) : colIdx < table.columns.length :=
  Nat.lt_of_lt_of_le (findIdx?_eq_some_iff_getElem.mp found).1 (names name table held)

theorem RefsHold.referencesHold (refs : RefsHold engine rows)
    (all : AllPlain engine rows) (names : NamesFit engine) : ReferencesHold engine.catalog := by
  intro childName child fk held isKey rowIdx inside known
  have plain := all childName child held
  have bound : rowIdx < (rows childName).length := plain.count ▸ inside
  have atRow := getElem?_eq_getElem bound
  have columns : KnownColumns child fk := fun name mem =>
    (known name mem).imp fun _ found => found.1
  obtain ⟨parent, isParent, parentRow, mem, refers⟩ :=
    refs childName child fk held isKey columns _ (mem_of_getElem? atRow)
  have parentPlain := all fk.refTable parent isParent
  obtain ⟨parentIdx, atParent⟩ := mem_iff_getElem?.mp mem
  refine ⟨parent, parentIdx, isParent, ?_, fun k refName isRef => ?_⟩
  · rw [parentPlain.count]
    exact (List.getElem?_eq_some_iff.mp atParent).1
  · obtain ⟨name, i, j, isName, isChild, isRefIdx, same⟩ := refers k refName isRef
    refine ⟨name, i, j, isName, isChild, isRefIdx, parentPlain.nullAt _ _, ?_⟩
    rw [plain.storedCell (names.lt held isChild) atRow,
      parentPlain.storedCell (names.lt isParent isRefIdx) atParent, same]

theorem RefsHold.kept (refs : RefsHold engine rows)
    (kept : TablesKept engine next) : RefsHold next rows := by
  intro childName changed fk held isKey known row mem
  obtain ⟨child, before, header⟩ := kept.before held
  have sameIdx := header.columnIdx
  unfold KnownColumns at known
  rw [sameIdx] at known
  rw [header.foreignKeys] at isKey
  obtain ⟨parent, isParent, parentRow, inRows, refers⟩ :=
    refs childName child fk before isKey known row mem
  have related := kept.tables fk.refTable
  rw [isParent] at related
  generalize after : next.catalog.lookup fk.refTable = found at related
  obtain ⟨parentHeader⟩ := related
  refine ⟨_, after, parentRow, inRows, ?_⟩
  unfold Refers
  rw [sameIdx, parentHeader.columnIdx]
  exact refers

theorem AllPlain.checkForeignKey_found {rowIdx : Nat} {row : NewRow}
    {given : LogicalRow} (all : AllPlain engine rows)
    (passed : checkForeignKey engine.catalog child fk rowIdx row = .ok ())
    (flags : ∀ name ∈ fk.columns, ∃ i, child.columnIdx name = some i ∧ row.2[i]? = some false)
    (cells : ∀ (i : Nat) cell, row.1[i]? = some cell → (given i).cell = cell) :
    Referring engine rows child fk given := by
  obtain ⟨anyNull, nulls, passed⟩ := except_ok_iff.mp passed
  have noNull : anyNull = false := by
    cases anyNull with
    | false => rfl
    | true =>
      obtain ⟨idx, mem, isNull⟩ := anyM_ok nulls
      obtain ⟨name, inKey, rfl⟩ := mem_map.mp mem
      obtain ⟨i, found, flag⟩ := flags name inKey
      rw [found] at isNull
      cases (index_eq_ok_iff.mp isNull).symm.trans flag
  rw [noNull] at passed
  obtain ⟨childVals, read, passed⟩ := except_ok_iff.mp passed
  split at passed
  · cases passed
  · next parent isParent =>
    obtain ⟨found, searched, passed⟩ := except_ok_iff.mp passed
    cases found with
    | false => cases passed
    | true =>
      have plain := all fk.refTable parent isParent
      obtain ⟨r, inRange, agrees⟩ := anyM_ok searched
      have bound : r < (rows fk.refTable).length := plain.count ▸ mem_range.mp inRange
      have atRow := getElem?_eq_getElem bound
      refine ⟨parent, isParent, _, mem_of_getElem? atRow, ?_⟩
      intro k refName isRef
      have isEntry :
          (parent.columnIdx refName, k) ∈ (fk.refColumns.map parent.columnIdx).zipIdx := by
        refine mem_zipIdx_iff_getElem?.mpr ?_
        rw [getElem?_map, isRef]
        rfl
      have agree := allM_ok agrees _ isEntry
      cases isRefIdx : parent.columnIdx refName with
      | none =>
        rw [isRefIdx] at agree
        cases agree
      | some j =>
        rw [isRefIdx] at agree
        obtain ⟨existing, atCell, agree⟩ := except_ok_iff.mp agree
        obtain ⟨wanted, atWanted, agree⟩ := except_ok_iff.mp agree
        have same : existing = wanted := eq_of_beq (Except.ok.inj agree)
        have isWanted := mapM_ok_getElem? read k
        rw [index_eq_ok_iff.mp atWanted, map_some, map_eq_some_iff] at isWanted
        obtain ⟨idx, atIdx, got⟩ := isWanted
        rw [getElem?_map] at atIdx
        obtain ⟨name, isName, rfl⟩ := map_eq_some_iff.mp atIdx
        obtain ⟨i, isChild, -⟩ := flags name (mem_of_getElem? isName)
        rw [isChild] at got
        obtain ⟨column, atColumn, isCell⟩ := except_ok_iff.mp atCell
        cases isCell
        refine ⟨name, i, j, isName, isChild, rfl, ?_⟩
        rw [cells i wanted (index_eq_ok_iff.mp got), ← same,
          plain.cells j column (index_eq_ok_iff.mp atColumn), getElem?_map, atRow]
        rfl

theorem RefsHold.insert {ins : Insert} (refs : RefsHold engine rows)
    (all : AllPlain engine rows) (names : NamesFit engine)
    (fits : DmlFits host engine (.insert ins))
    (ran : executeInsert host ins txnId engine = .ok res next) :
    RefsHold engine (dmlRows host engine rows (.insert ins)) := by
  obtain ⟨table, changed, colIndices, insertion, -⟩ := executeInsert_returned ran
  obtain ⟨covers, given⟩ := fits.2 table insertion.present
  have isRows : dmlRows host engine rows (.insert ins) = Function.update rows ins.table
      (rows ins.table ++ ins.values.map (givenRow host table colIndices)) := by
    unfold dmlRows changeRows insertedRows
    simp only [insertion.present, insertion.columns]
  rw [isRows]
  intro childName child fk held isKey known row mem
  -- every old row is still there
  suffices refers : Referring engine rows child fk row by
    obtain ⟨parent, isParent, parentRow, inRows, refers⟩ := refers
    refine ⟨parent, isParent, parentRow, ?_, refers⟩
    by_cases here : fk.refTable = ins.table
    · rw [here, Function.update_self]
      exact mem_append_left _ (here ▸ inRows)
    · rwa [Function.update_of_ne here]
  by_cases here : childName = ins.table
  · subst here
    cases held.symm.trans insertion.present
    rw [Function.update_self] at mem
    rcases mem_append.mp mem with old | new
    · exact refs _ table fk held isKey known row old
    · obtain ⟨rowVals, isRow, rfl⟩ := mem_map.mp new
      have checked := insertion.foreignKeys
      unfold checkInsertForeignKeys at checked
      rw [if_neg (by
        rw [List.isEmpty_iff]
        exact ne_nil_of_mem isKey)] at checked
      obtain ⟨_, columns, checked⟩ := except_ok_iff.mp checked
      cases columns.symm.trans insertion.columns
      obtain ⟨_, -, checked⟩ := except_ok_iff.mp checked
      obtain ⟨got, readAll, checked⟩ := except_ok_iff.mp checked
      unfold validateForeignKeys at checked
      rw [held] at checked
      obtain ⟨n, atRow⟩ := mem_iff_getElem?.mp isRow
      have readRow := mapM_ok_getElem? readAll n
      rw [atRow, map_some, eq_comm, map_eq_some_iff] at readRow
      obtain ⟨newRow, atNew, isNew⟩ := readRow
      have passed :=
        forM_ok (forM_ok checked (newRow, n) (mem_zipIdx_iff_getElem?.mpr atNew)) fk isKey
      refine all.checkForeignKey_found passed ?_ (fun i cell => givenRow_cell isNew.symm)
      intro name inKey
      obtain ⟨i, found⟩ := known name inKey
      refine ⟨i, found, ?_⟩
      refine insertedRow_flags (given rowVals isRow) isNew.symm i ?_
      exact (covers colIndices insertion.columns).mem_iff.mpr
        (mem_range.mpr (names.lt held found))
  · rw [Function.update_of_ne here] at mem
    exact refs childName child fk held isKey known row mem

variable {row : LogicalRow}

theorem exists_of_map_key {key : List Nat} {some other : List LogicalRow}
    (same : some.map (LogicalRow.key key) = other.map (LogicalRow.key key)) (mem : row ∈ some) :
    ∃ found ∈ other, ∀ i ∈ key, (found i).cell = (row i).cell := by
  have inOther : row.key key ∈ other.map (LogicalRow.key key) := same ▸ mem_map_of_mem mem
  obtain ⟨found, isFound, sameKey⟩ := mem_map.mp inOther
  exact ⟨found, isFound, map_inj_left.mp sameKey⟩

/-- An UPDATE assigns to no column of a foreign key, on either side.  A DELETE
is not from a table that refers to itself, and the keys that refer to the table
name as many columns on both sides. -/
def RefsFit (host : Host) (engine : QueryEngine) : DmlStatement → Prop
  | .insert _ => True
  | .update upd =>
    ∀ table assigns, engine.catalog.lookup upd.table = some table →
      parseAssignments host table upd.assignments = .ok assigns →
      ∀ assign ∈ assigns, (∀ fk ∈ table.foreignKeys, ∀ name ∈ fk.columns,
        table.columnIdx name ≠ some assign.colIdx) ∧
        ∀ childName child fk,
        engine.catalog.lookup childName = some child →
        fk ∈ child.foreignKeys → fk.refTable = upd.table →
          ∀ refName ∈ fk.refColumns, table.columnIdx refName ≠ some assign.colIdx
  | .delete del =>
    ∀ childName child fk, engine.catalog.lookup childName = some child →
      fk ∈ child.foreignKeys → fk.refTable = del.table →
      childName ≠ del.table ∧ fk.columns.length = fk.refColumns.length

theorem RefsHold.update {upd : Update} (refs : RefsHold engine rows)
    (mode : engine.mvccEnabled = false) (fits : RefsFit host engine (.update upd))
    (ran : executeUpdate host upd txnId engine = .ok res next) :
    RefsHold engine (dmlRows host engine rows (.update upd)) := by
  obtain ⟨table, _, _, _, update, -⟩ := executeUpdate_returned mode ran
  have present := update.present
  -- what the columns of a key hold is unchanged
  have sameKeys : ∀ name key,
      (name = upd.table → ∀ assigns, parseAssignments host table upd.assignments = .ok assigns →
          ∀ assign ∈ assigns, assign.colIdx ∉ key) →
      (dmlRows host engine rows (.update upd) name).map
          (LogicalRow.key key) = (rows name).map (LogicalRow.key key) := by
    intro name key outside
    unfold dmlRows changeRows
    simp only [present]
    by_cases here : name = upd.table
    · subst here
      rw [Function.update_self]
      exact map_key_updatedRows (outside rfl)
    · rw [Function.update_of_ne here]
  intro childName child fk isChild isKey known row mem
  obtain ⟨old, inOld, sameOld⟩ := exists_of_map_key
      (sameKeys childName (fk.columns.filterMap child.columnIdx) (by
        rintro rfl assigns parsed assign isAssign inKey
        cases isChild.symm.trans present
        obtain ⟨name, inColumns, found⟩ := mem_filterMap.mp inKey
        exact (fits table assigns present parsed assign isAssign).1 fk isKey
          name inColumns found)) mem
  obtain ⟨parent, isParent, parentRow, inRows, refers⟩ :=
    refs childName child fk isChild isKey known old inOld
  obtain ⟨new, inNew, sameNew⟩ := exists_of_map_key
      (sameKeys fk.refTable (fk.refColumns.filterMap parent.columnIdx) (by
        intro isTarget assigns parsed assign isAssign inKey
        rw [isTarget] at isParent
        cases isParent.symm.trans present
        obtain ⟨refName, inColumns, found⟩ := mem_filterMap.mp inKey
        exact (fits table assigns present parsed assign isAssign).2 childName
          child fk isChild isKey isTarget refName inColumns found)).symm
      inRows
  refine ⟨parent, isParent, new, inNew, fun k refName isRef => ?_⟩
  obtain ⟨name, i, j, isName, isIdx, isRefIdx, same⟩ := refers k refName isRef
  refine ⟨name, i, j, isName, isIdx, isRefIdx, ?_⟩
  have inColumns : i ∈ fk.columns.filterMap child.columnIdx :=
    mem_filterMap.mpr ⟨name, mem_of_getElem? isName, isIdx⟩
  have inRefs : j ∈ fk.refColumns.filterMap parent.columnIdx :=
    mem_filterMap.mpr ⟨refName, mem_of_getElem? isRef, isRefIdx⟩
  rw [← sameOld i inColumns, same, sameNew j inRefs]

theorem Plain.read_columns {tableRows : List LogicalRow} {rowIdx k i : Nat} {columns : List String}
    {values : List Cell} (plain : Plain table tableRows) (atRow : tableRows[rowIdx]? = some row)
    (read : (columns.map table.columnIdx).mapM (fun idx => cellAt table idx rowIdx) = .ok values)
    (isName : columns[k]? = some name) (found : table.columnIdx name = some i) :
    values[k]? = some (row i).cell := by
  have computed := mapM_ok_getElem? read k
  rw [getElem?_map, isName, map_some, found, map_some,
    eq_comm, map_eq_some_iff] at computed
  obtain ⟨value, atValue, isValue⟩ := computed
  obtain ⟨column, atColumn, isCell⟩ := except_ok_iff.mp isValue.symm
  cases isCell
  rw [atValue, plain.cells i column (index_eq_ok_iff.mp atColumn), getElem?_map, atRow]
  rfl

theorem RestrictChecked.not_refers {childName : String} {parent : Table}
    {deleted : List Nat} {p : Nat} {parentRow : LogicalRow} (all : AllPlain engine rows)
    (checked : RestrictChecked engine fk.refTable deleted (childName, fk))
    (isChild : engine.catalog.lookup childName = some child)
    (isParent : engine.catalog.lookup fk.refTable = some parent)
    (lengths : fk.columns.length = fk.refColumns.length) (mem : row ∈ rows childName)
    (atParent : (rows fk.refTable)[p]? = some parentRow)
    (isDeleted : p ∈ deleted) : ¬ Refers child parent fk row parentRow := by
  intro refers
  obtain ⟨_, _, deletedVals, foundParent, foundChild, readAll, passed⟩ := checked.checked
  cases isParent.symm.trans foundParent
  cases isChild.symm.trans foundChild
  have plain := all childName child isChild
  obtain ⟨q, atRow⟩ := mem_iff_getElem?.mp mem
  have bound : q < child.rowCount := by
    rw [plain.count]
    exact (List.getElem?_eq_some_iff.mp atRow).1
  have ofRow := forM_ok passed q (mem_range.mpr bound)
  have noNull : (fk.columns.map child.columnIdx).any
        (fun idx => (idx.map (fun i => child.nullAt i q)).getD false) =
      false := by
    refine any_eq_false.mpr fun idx _ => ?_
    cases idx <;> simp [plain.nullAt]
  simp only [noNull, Bool.not_false, if_true] at ofRow
  obtain ⟨childVals, read, ofRow⟩ := except_ok_iff.mp ofRow
  obtain ⟨place, atPlace⟩ := mem_iff_getElem?.mp isDeleted
  have readDeleted := mapM_ok_getElem? readAll place
  rw [atPlace, map_some, eq_comm, map_eq_some_iff] at readDeleted
  obtain ⟨parentVals, atVals, readParent⟩ := readDeleted
  have same : parentVals = childVals := by
    have childLength := (mapM_eq_ok_iff.mp read).length_eq
    have parentLength : (fk.refColumns.map parent.columnIdx).length = parentVals.length :=
      (mapM_eq_ok_iff.mp readParent.symm).length_eq
    rw [length_map] at childLength parentLength
    refine ext_getElem? fun k => ?_
    cases isRef : fk.refColumns[k]? with
    | none =>
      have past := getElem?_eq_none_iff.mp isRef
      rw [getElem?_eq_none (by omega), getElem?_eq_none (by omega)]
    | some refName =>
      obtain ⟨name, i, j, isName, isIdx, isRefIdx, equal⟩ := refers k refName isRef
      rw [plain.read_columns atRow read isName isIdx, equal]
      exact (all fk.refTable parent isParent).read_columns atParent readParent.symm isRef isRefIdx
  rw [if_pos] at ofRow
  · cases ofRow
  · rw [contains_iff_mem, ← same]
    exact mem_of_getElem? atVals

theorem RefsHold.delete {del : Delete} (evaluates : host.EvaluatesWhere unicode debug)
    (refs : RefsHold engine rows) (all : AllPlain engine rows)
    (fits : DmlFits host engine (.delete del)) (refsFit : RefsFit host engine (.delete del))
    (ran : executeDelete host depth del txnId engine = .ok res next) :
    RefsHold engine (dmlRows host engine rows (.delete del)) := by
  obtain ⟨table, mask, deletion, -⟩ := executeDelete_returned fits.1 fits.2 ran
  have length := (all del.table table deletion.present).length_matchMask evaluates deletion.selected
  have isRows : dmlRows host engine rows (.delete del) = Function.update rows del.table
      (rowsWhere (mask.map (fun deleted => !deleted)) (rows del.table)) := by
    unfold dmlRows changeRows remainingRows
    simp only [deletion.present, deletion.selected]
  rw [isRows]
  intro childName child fk isChild isKey known row mem
  have wasRow : row ∈ rows childName := by
    by_cases here : childName = del.table
    · subst here
      rw [Function.update_self] at mem
      exact mem_of_mem_rowsWhere mem
    · rwa [Function.update_of_ne here] at mem
  obtain ⟨parent, isParent, parentRow, inRows, refers⟩ :=
    refs childName child fk isChild isKey known row wasRow
  refine ⟨parent, isParent, parentRow, ?_, refers⟩
  by_cases target : fk.refTable = del.table
  · rw [target, Function.update_self]
    obtain ⟨other, lengths⟩ := refsFit childName child fk isChild isKey target
    obtain ⟨p, atParent⟩ := mem_iff_getElem?.mp inRows
    have inside : p < mask.length := by
      rw [length, ← target]
      exact (List.getElem?_eq_some_iff.mp atParent).1
    have atFlag := getElem?_eq_getElem inside
    cases flag : mask[p] with
    | false =>
      rw [flag] at atFlag
      refine mem_map.mpr ⟨(parentRow, true), ?_, rfl⟩
      refine mem_filter.mpr ⟨mem_iff_getElem?.mpr ⟨p, ?_⟩, rfl⟩
      refine getElem?_zip_eq_some.mpr ⟨target ▸ atParent, ?_⟩
      rw [getElem?_map, atFlag]
      rfl
    | true =>
      rw [flag] at atFlag
      have isDeleted : p ∈ maskedRows mask :=
        mem_filterMap.mpr ⟨(true, p), mem_zipIdx_iff_getElem?.mpr atFlag, rfl⟩
      have isListed : (childName, fk) ∈ childForeignKeys host engine.catalog del.table := by
        refine mem_flatMap.mpr ⟨childName, ?_, ?_⟩
        · rw [host.mem_tableNames, ← Finmap.lookup_isSome, isChild]
          rfl
        · rw [if_neg other, isChild]
          refine mem_map.mpr ⟨fk, mem_filter.mpr ⟨isKey, ?_⟩, rfl⟩
          exact beq_iff_eq.mpr target
      have checked := deletion.foreignKeys (ne_nil_of_mem isDeleted) _ isListed
      rw [← target] at checked
      exact absurd refers
        (checked.not_refers all isChild isParent lengths wasRow atParent isDeleted)
  · rwa [Function.update_of_ne target]

theorem RefsHold.dml {stmt : DmlStatement} (evaluates : host.EvaluatesWhere unicode debug)
    (refs : RefsHold engine rows) (all : AllPlain engine rows)
    (names : NamesFit engine) (fits : DmlFits host engine stmt) (refsFit : RefsFit host engine stmt)
    (ran : executeDml host depth stmt txnId engine = .ok res next) :
    RefsHold engine (dmlRows host engine rows stmt) := by
  cases stmt with
  | insert ins => exact refs.insert all names fits ran
  | update upd => exact refs.update fits.1 refsFit ran
  | delete del => exact refs.delete evaluates all fits refsFit ran

end

variable {engine : QueryEngine}

theorem NamesFit.kept {next : QueryEngine} (names : NamesFit engine)
    (kept : TablesKept engine next) : NamesFit next := by
  intro name changed held
  obtain ⟨table, before, header⟩ := kept.before held
  rw [header.columnNames, header.width]
  exact names name table before

theorem FreshTables.namesFit (fresh : FreshTables engine) : NamesFit engine := by
  intro name table held
  rcases fresh name table held with ⟨ct, rfl⟩ | rfl
  · exact Nat.le_of_eq ((length_map _).trans (length_map _).symm)
  · exact Nat.le_refl 1

theorem FreshTables.refsHold (fresh : FreshTables engine) : RefsHold engine (freshRows engine) := by
  intro childName child fk held isKey _ row mem
  rcases fresh childName child held with ⟨ct, rfl⟩ | rfl
  · unfold freshRows at mem
    rw [held] at mem
    cases mem
  · cases isKey

def RefsKept (host : Host) (engine : QueryEngine) (statement : DmlStatement × Option Nat) : Prop :=
  DmlFits host engine statement.1 ∧ RefsFit host engine statement.1

/-- In every run from created tables whose statements give no NULL, update no
column of a foreign key and delete only what restricting keys of other tables
guard, every row has the row that it refers to. -/
theorem references_hold {host : Host} {unicode : Text.Unicode}
    {debug : Lexer.Token → String} {depth : Nat} {start final : QueryEngine}
    {statements : List (DmlStatement × Option Nat)}
    (evaluates : host.EvaluatesWhere unicode debug) (fresh : FreshTables start)
    (run : Run (tablesStep host depth) (RefsKept host) start statements final) :
    ReferencesHold final.catalog := by
  have holds : ∃ rows, AllPlain final rows ∧ NamesFit final ∧ RefsHold final rows := by
    refine run.invariant
      (fun engine => ∃ rows, AllPlain engine rows ∧ NamesFit engine ∧ RefsHold engine rows) ?_
      ⟨_, fresh.allPlain, fresh.namesFit, fresh.refsHold⟩
    rintro engine stmt next ⟨rows, all, names, refs⟩ ⟨fits, refsFit⟩ stepped
    obtain ⟨res, ran⟩ := tablesStep_eq_some stepped
    obtain ⟨plain, kept⟩ := all.dml evaluates fits ran
    have changed := refs.dml evaluates all names fits refsFit ran
    exact ⟨_, plain, names.kept kept, changed.kept kept⟩
  obtain ⟨rows, all, names, refs⟩ := holds
  exact refs.referencesHold all names

namespace Example

/-- `CREATE TABLE c (w INT UNIQUE REFERENCES t (v))`. -/
def createChild : CreateTable :=
  { createUnique with
    name := "c"
    columns := [intColumn "w" (some ("t", "v"))] }

def familyEngine : QueryEngine :=
  { uniqueEngine with
    catalog := uniqueEngine.catalog.insert "c" (createdTable createChild) }

theorem freshTables_familyEngine : FreshTables familyEngine := by
  intro name table held
  have inserted : (uniqueEngine.catalog.insert "c" (createdTable createChild)).lookup
      name = some table := held
  rw [FiniteMap.lookup_insert_eq] at inserted
  split at inserted
  · exact .inl ⟨createChild, (some.inj inserted).symm⟩
  · exact freshTables_uniqueEngine name table inserted

/-- A row is inserted that refers to one of two. -/
theorem references_hold_twoRows : ∃ final,
      Run (tablesStep evaluatingHost 1) (RefsKept evaluatingHost) familyEngine
          [(insertsInto "t" [["1"], ["2"]], none), (insertsInto "c" [["1"], ["2"]], none)] final ∧
        ReferencesHold final.catalog := by
  obtain ⟨final, run⟩ : ∃ final,
        Run (tablesStep evaluatingHost 1) (RefsKept evaluatingHost) familyEngine
          [(insertsInto "t" [["1"], ["2"]], none), (insertsInto "c" [["1"], ["2"]], none)] final :=
    ⟨_, .cons ⟨dmlFits_insertsInto rfl givesValues_twoRows, trivial⟩ rfl
        (.cons ⟨dmlFits_insertsInto rfl givesValues_twoRows, trivial⟩ rfl (.nil _))⟩
  exact ⟨final, run, references_hold evaluatesWhere freshTables_familyEngine run⟩

/-- `UPDATE t SET v = 2`. -/
def updatesParent : DmlStatement :=
  .update
    { table := "t", assignments := [("v", .literal (.int 2))], whereClause := none }

/-- A referenced value is updated and the row that refers to it stays. -/
theorem updated_parent_leaves_orphan : ∃ final, FreshTables familyEngine ∧
    Run (tablesStep evaluatingHost 1) anyStep familyEngine [(insertsInto "t" [["1"]], none),
        (insertsInto "c" [["1"]], none), (updatesParent, none)] final ∧
    ¬ ReferencesHold final.catalog := by
  refine ⟨_, freshTables_familyEngine,
    .cons trivial rfl (.cons trivial rfl (.cons trivial rfl (.nil _))), ?_⟩
  intro holds
  obtain ⟨parent, parentRow, isParent, inside, agrees⟩ :=
    holds "c" _ _ rfl (mem_singleton_self _) 0 Nat.zero_lt_one
      (fun name mem => by
        rw [mem_singleton.mp mem]
        exact ⟨0, rfl, rfl⟩)
  cases some.inj isParent
  obtain ⟨name, i, j, isName, isIdx, isRefIdx, -, same⟩ := agrees 0 "v" rfl
  cases some.inj isName
  cases some.inj isIdx
  cases some.inj isRefIdx
  cases Nat.lt_one_iff.mp inside
  cases some.inj same

end Example

end TurboGP.Engine
