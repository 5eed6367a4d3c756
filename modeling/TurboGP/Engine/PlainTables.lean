import TurboGP.Engine.PlainRows

/-! # Statements on tables without NULLs -/

namespace TurboGP.Engine

open Effect Datasource Sql Txn Function List

def LogicalRow.key (key : List Nat) (row : LogicalRow) : List Cell :=
  key.map (fun colIdx => (row colIdx).cell)

abbrev TableRows := String → List LogicalRow

section

variable (host : Host)

/-- The assignments of an UPDATE with the texts that a sidecar would keep. -/
def newValues (upd : Update) (assigns : List Assignment) : List NewValue :=
  assigns.zip
    (upd.assignments.map (fun entry => sidecarText (String.ofList (entry.2.render host.formatF64))))

def insertedRows (ins : Insert) (table : Table) (rows : List LogicalRow) : List LogicalRow :=
  match insertColumns table ins.columns with
  | .ok colIndices => rows ++ ins.values.map (givenRow host table colIndices)
  | .error _ => rows

def updatedRows (upd : Update) (table : Table) (rows : List LogicalRow) : List LogicalRow :=
  match parseAssignments host table upd.assignments, matchMask host table upd.whereClause
  with
  | .ok assigns, .ok mask =>
    (maskedRows mask).foldl
      (fun rows rowIdx => rows.modify rowIdx (LogicalRow.assign (newValues host upd assigns)))
      rows
  | _, _ => rows

def remainingRows (del : Delete) (table : Table) (rows : List LogicalRow) : List LogicalRow :=
  match matchMask host table del.whereClause with
  | .ok mask => rowsWhere (mask.map (fun deleted => !deleted)) rows
  | .error _ => rows

def changeRows (engine : QueryEngine) (rows : TableRows) (target : String)
    (change : Table → List LogicalRow → List LogicalRow) : TableRows :=
  match engine.catalog.lookup target with
  | some table => update rows target (change table (rows target))
  | none => rows

def dmlRows (engine : QueryEngine) (rows : TableRows) : DmlStatement → TableRows
  | .insert ins => changeRows engine rows ins.table (insertedRows host ins)
  | .update upd => changeRows engine rows upd.table (updatedRows host upd)
  | .delete del => changeRows engine rows del.table (remainingRows host del)

/-- An INSERT names every column once and gives no NULL. -/
def InsertFits (ins : Insert) (table : Table) : Prop :=
  (∀ colIndices, insertColumns table ins.columns = .ok colIndices →
    colIndices.Perm (range table.columns.length)) ∧ GivesValues ins.values

def UpdateFits (upd : Update) (table : Table) : Prop :=
  ∀ assigns, parseAssignments host table upd.assignments = .ok assigns →
    ∀ assign ∈ assigns, assign.isNull = false

/-- The engine is in snapshot mode, no NULL is given, and a DELETE reaches no
other table. -/
def DmlFits (engine : QueryEngine) (statement : DmlStatement) : Prop :=
  engine.mvccEnabled = false ∧
    match statement with
    | .insert ins => ∀ table, engine.catalog.lookup ins.table = some table → InsertFits ins table
    | .update upd =>
      ∀ table, engine.catalog.lookup upd.table = some table → UpdateFits host upd table
    | .delete del => OnlyRestricts host engine.catalog del.table

end

def AllPlain (engine : QueryEngine) (rows : TableRows) : Prop :=
  ∀ name table, engine.catalog.lookup name = some table → Plain table (rows name)

structure TablesKept (engine next : QueryEngine) : Prop where
  mode : next.mvccEnabled = engine.mvccEnabled
  tables : ∀ name, Option.Rel SameHeader (engine.catalog.lookup name) (next.catalog.lookup name)

section

variable {host : Host} {unicode : Text.Unicode}
  {debug : Lexer.Token → String} {depth : Nat}
  {engine next : QueryEngine} {rows : TableRows} {txnId : Option Nat}
  {res : QueryResult}

variable {old new changed : Table} {key : List Nat} {mask : List Bool}

theorem SameHeader.columnIdx (header : SameHeader old new) : new.columnIdx = old.columnIdx := by
  unfold Table.columnIdx
  rw [header.columnNames]

theorem SameHeader.foreignKeys
    (header : SameHeader old new) : new.foreignKeys = old.foreignKeys := by
  unfold Table.foreignKeys
  rw [header.schema]

theorem TablesKept.refl (engine : QueryEngine) : TablesKept engine engine := by
  refine ⟨rfl, fun name => ?_⟩
  cases engine.catalog.lookup name with
  | none => exact .none
  | some table => exact .some ⟨rfl, rfl, rfl, fun _ => rfl⟩

theorem TablesKept.before {name : String} (kept : TablesKept engine next)
    (held : next.catalog.lookup name = some changed) :
    ∃ table, engine.catalog.lookup name = some table ∧ SameHeader table changed := by
  have related := kept.tables name
  rw [held] at related
  generalize engine.catalog.lookup name = before at related ⊢
  obtain ⟨header⟩ := related
  exact ⟨_, rfl, header⟩

variable {table : Table} {upd : Update} {tableRows : List LogicalRow}

theorem AllPlain.changeRows {target : String}
    {change : Table → List LogicalRow → List LogicalRow} (all : AllPlain engine rows)
    (held : engine.catalog.lookup target = some table)
    (plain : Plain changed (change table (rows target))) (header : SameHeader table changed)
    (same : SameTables { engine with catalog := engine.catalog.insert target changed } next) :
    AllPlain next (changeRows engine rows target change) ∧ TablesKept engine next := by
  have lookup : ∀ name, next.catalog.lookup name =
          if name = target then some changed else engine.catalog.lookup name :=
    fun name => (same.lookup_eq name).trans (FiniteMap.lookup_insert_eq _ _ _ _)
  refine ⟨fun name found isFound => ?_, same.sameMode, fun name => ?_⟩
  · rw [lookup] at isFound
    unfold Engine.changeRows
    rw [held]
    simp only
    by_cases here : name = target
    · subst here
      rw [if_pos rfl] at isFound
      cases isFound
      rw [update_self]
      exact plain
    · rw [if_neg here] at isFound
      rw [update_of_ne here]
      exact all name found isFound
  · rw [lookup]
    by_cases here : name = target
    · rw [if_pos here, here, held]
      exact .some header
    · rw [if_neg here]
      exact (TablesKept.refl engine).tables name

theorem AllPlain.insert {ins : Insert} (all : AllPlain engine rows)
    (fits : DmlFits host engine (.insert ins))
    (ran : executeInsert host ins txnId engine = .ok res next) :
    AllPlain next (dmlRows host engine rows (.insert ins)) ∧ TablesKept engine next := by
  obtain ⟨table, changed, colIndices, insertion, same⟩ := executeInsert_returned ran
  obtain ⟨covers, given⟩ := fits.2 table insertion.present
  obtain ⟨added, applied⟩ := insertion.applied
  rw [fits.1] at applied
  obtain ⟨plain, header⟩ := (all ins.table table insertion.present).applyInsert
      (covers colIndices insertion.columns) given applied
  refine all.changeRows insertion.present ?_ header same
  unfold insertedRows
  rw [insertion.columns]
  exact plain

theorem map_fst_newValues {assigns : List Assignment}
    (parsed : parseAssignments host table upd.assignments = .ok assigns) :
    (newValues host upd assigns).map Prod.fst = assigns := by
  refine map_fst_zip ?_
  rw [length_map]
  exact Nat.le_of_eq (mapM_eq_ok_iff.mp parsed).length_eq.symm

theorem key_assign {values : List NewValue}
    (outside : ∀ value ∈ values, value.1.colIdx ∉ key) (row : LogicalRow) :
    (row.assign values).key key = row.key key := by
  unfold LogicalRow.assign
  induction values generalizing row with
  | nil => rfl
  | cons value rest ih =>
    obtain ⟨first, others⟩ := forall_mem_cons.mp outside
    rw [foldl_cons, ih others]
    refine map_congr_left fun colIdx mem => ?_
    rw [update_of_ne]
    rintro rfl
    exact first mem

/-- An UPDATE leaves the columns alone that it does not assign to. -/
theorem map_key_updatedRows
    (outside : ∀ assigns, parseAssignments host table upd.assignments = .ok assigns →
        ∀ assign ∈ assigns, assign.colIdx ∉ key) :
    (updatedRows host upd table tableRows).map (LogicalRow.key key) =
      tableRows.map (LogicalRow.key key) := by
  unfold updatedRows
  split
  · next assigns mask parsed _ =>
    have unassigned : ∀ value ∈ newValues host upd assigns, value.1.colIdx ∉ key := by
      intro value mem
      refine outside assigns parsed value.1 ?_
      exact map_fst_newValues parsed ▸ mem_map_of_mem mem
    generalize maskedRows mask = matched
    induction matched generalizing tableRows with
    | nil => rfl
    | cons rowIdx rest ih =>
      rw [foldl_cons, ih, map_modify (h := id) (key_assign unassigned), modify_id]
  · rfl

theorem AllPlain.update (all : AllPlain engine rows) (fits : DmlFits host engine (.update upd))
    (ran : executeUpdate host upd txnId engine = .ok res next) :
    AllPlain next (dmlRows host engine rows (.update upd)) ∧ TablesKept engine next := by
  obtain ⟨table, written, assigns, mask, update, same⟩ := executeUpdate_returned fits.1 ran
  have values := map_fst_newValues update.assigned
  have given : ∀ value ∈ newValues host upd assigns, value.1.isNull = false := by
    intro value mem
    refine fits.2 table update.present assigns update.assigned value.1 ?_
    exact values ▸ mem_map_of_mem mem
  have loop := update.applied
  rw [← values] at loop
  obtain ⟨plain, sameRest, width⟩ :=
    ((all upd.table table update.present).padBitmaps _).updateLoop given loop
  refine all.changeRows update.present ?_ ?_ same
  · unfold updatedRows
    simp only [update.assigned, update.selected]
    exact plain
  · rw [sameRest]
    exact ⟨rfl, rfl, width, fun _ => rfl⟩

theorem Plain.length_matchMask (evaluates : host.EvaluatesWhere unicode debug)
    (plain : Plain table tableRows) {whereClause : Option Expr}
    (selected : matchMask host table whereClause = .ok mask) : mask.length = tableRows.length := by
  rw [← plain.count]
  cases whereClause with
  | none =>
    cases selected
    exact length_replicate
  | some whereExpr =>
    unfold matchMask at selected
    simp only [evaluates table] at selected
    exact length_evalSimpleWhere plain.filled selected

theorem rowsWhere_of_unmatched (length : mask.length = tableRows.length)
    (unmatched : maskedRows mask = []) :
    rowsWhere (mask.map (fun deleted => !deleted)) tableRows = tableRows := by
  have unset : ∀ flag ∈ mask, flag = false := by
    intro flag mem
    obtain ⟨idx, found⟩ := mem_iff_getElem?.mp mem
    have skipped :=
      filterMap_eq_nil_iff.mp unmatched (flag, idx) (mem_zipIdx_iff_getElem?.mpr found)
    cases flag with
    | false => rfl
    | true => cases skipped
  unfold rowsWhere
  rw [filter_eq_self.mpr]
  · exact map_fst_zip (by rw [length_map, length])
  · intro entry mem
    obtain ⟨flag, isFlag, same⟩ := mem_map.mp (of_mem_zip mem).2
    rw [← same, unset flag isFlag]
    rfl

theorem AllPlain.delete {del : Delete} (evaluates : host.EvaluatesWhere unicode debug)
    (all : AllPlain engine rows) (fits : DmlFits host engine (.delete del))
    (ran : executeDelete host depth del txnId engine = .ok res next) :
    AllPlain next (dmlRows host engine rows (.delete del)) ∧ TablesKept engine next := by
  obtain ⟨table, mask, deletion, out⟩ := executeDelete_returned fits.1 fits.2 ran
  have plain := all del.table table deletion.present
  have length := plain.length_matchMask evaluates deletion.selected
  rcases out with ⟨unmatched, rfl⟩ | ⟨changed, deleted, same⟩
  · have unchanged : dmlRows host next rows (.delete del) = rows := by
      unfold dmlRows Engine.changeRows remainingRows
      simp only [deletion.present, deletion.selected, rowsWhere_of_unmatched length unmatched]
      exact update_eq_self _ _
    exact ⟨unchanged.symm ▸ all, .refl next⟩
  · obtain ⟨remains, header⟩ := plain.compactColumns length deleted
    refine all.changeRows deletion.present ?_ header same
    unfold remainingRows
    rw [deletion.selected]
    exact remains

theorem AllPlain.dml {stmt : DmlStatement} (evaluates : host.EvaluatesWhere unicode debug)
    (all : AllPlain engine rows) (fits : DmlFits host engine stmt)
    (ran : executeDml host depth stmt txnId engine = .ok res next) :
    AllPlain next (dmlRows host engine rows stmt) ∧ TablesKept engine next := by
  cases stmt with
  | insert ins => exact all.insert fits ran
  | update upd => exact all.update fits ran
  | delete del => exact all.delete evaluates fits ran

end

def tablesStep (host : Host) (depth : Nat) (engine : QueryEngine)
    (statement : DmlStatement × Option Nat) : Option QueryEngine :=
  match executeDml host depth statement.1 statement.2 engine with
  | .ok _ next => some next
  | .error _ _ => none

theorem tablesStep_eq_some {host : Host} {depth : Nat}
    {engine next : QueryEngine} {stmt : DmlStatement × Option Nat}
    (stepped : tablesStep host depth engine stmt = some next) :
    ∃ res, executeDml host depth stmt.1 stmt.2 engine = .ok res next := by
  unfold tablesStep at stepped
  split at stepped
  · next res _ ran =>
    cases stepped
    exact ⟨res, ran⟩
  · cases stepped

/-- Every table was just created, but for the one behind a SELECT without
FROM. -/
def FreshTables (engine : QueryEngine) : Prop :=
  ∀ name table, engine.catalog.lookup name = some table →
    (∃ ct, table = createdTable ct) ∨ table = dummyTable

def freshRows (engine : QueryEngine) : TableRows := fun name =>
  match engine.catalog.lookup name with
  | some table =>
    replicate table.rowCount (fun _ => { cell := 0, isNull := false, text := "" })
  | none => []

theorem FreshTables.allPlain {engine : QueryEngine}
    (fresh : FreshTables engine) : AllPlain engine (freshRows engine) := by
  intro name table held
  unfold freshRows
  rw [held]
  rcases fresh name table held with ⟨ct, rfl⟩ | rfl
  · exact plain_created ct
  · refine ⟨rfl, ?_, fun _ _ _ isRow => ?_, fun _ => mem_singleton.mp, rfl⟩
    · intro colIdx column found
      exact mem_singleton.mp (mem_of_getElem? found)
    · rw [(mem_replicate.mp isRow).2]

namespace Example

def plainUnicode : Text.Unicode :=
  { isAlphanumeric := fun _ => false
    toUppercase := fun c => [c]
    toLowercase := id
    debugChar := fun c => [c] }

def evaluatingHost : Host :=
  { plainHost with
    evalSimpleWhere := evalSimpleWhere plainUnicode (fun _ => "") plainHost }

theorem evaluatesWhere : evaluatingHost.EvaluatesWhere plainUnicode (fun _ => "") := by
  intro table text
  have sameCell : parseValueCell evaluatingHost = parseValueCell plainHost := rfl
  have same : wherePreds (fun _ => "") evaluatingHost = wherePreds (fun _ => "") plainHost := by
    delta wherePreds wherePreds._f wherePred whereValue
    rw [sameCell]
  have parse : evaluatingHost.parseF64 = plainHost.parseF64 := rfl
  show evalSimpleWhere plainUnicode (fun _ => "") plainHost table text = _
  unfold evalSimpleWhere
  rw [same, parse]

def intColumn (name : String) (references : Option (String × String)) : ColumnDef :=
  { name := name, colType := .int, notNull := false, primaryKey := false, default := none
    references := references, unique := true, check := none, onDelete := none }

def createUnique : CreateTable :=
  { schema := "dbo", name := "t", columns := [intColumn "v" none], ifNotExists := false
    checks := [], uniqueConstraints := [], foreignKeys := [] }

def uniqueEngine : QueryEngine :=
  { QueryEngine.inMemory with
    catalog := (∅ : Catalog).insert "t" (createdTable createUnique) }

theorem lookup_uniqueEngine {name : String} {table : Table}
    (held : uniqueEngine.catalog.lookup name = some table) :
    name = "t" ∧ table = createdTable createUnique := by
  have inserted :
      ((∅ : Catalog).insert "t" (createdTable createUnique)).lookup name = some table := held
  rw [FiniteMap.lookup_insert_eq] at inserted
  split at inserted
  · next isName => exact ⟨isName, (Option.some.inj inserted).symm⟩
  · cases inserted

theorem freshTables_uniqueEngine : FreshTables uniqueEngine :=
  fun _ _ held => .inl ⟨createUnique, (lookup_uniqueEngine held).2⟩

def insertsInto (target : String) (values : List (List String)) : DmlStatement :=
  .insert { table := target, columns := none, values := values }

theorem dmlFits_insertsInto {host : Host} {engine : QueryEngine}
    {target : String} {values : List (List String)}
    (mode : engine.mvccEnabled = false) (given : GivesValues values) :
    DmlFits host engine (insertsInto target values) := by
  refine ⟨mode, fun table _ => ⟨fun colIndices columns => ?_, given⟩⟩
  cases columns
  exact .refl _

theorem givesValues_twoRows : GivesValues [["1"], ["2"]] := by
  unfold GivesValues
  decide

end Example

end TurboGP.Engine
