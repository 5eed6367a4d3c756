import Mathlib.Data.Bool.Count
import TurboGP.Engine.Ddl
import TurboGP.Engine.DmlOutcome
import TurboGP.Engine.SimpleWhere
import TurboGP.Lib.RowSelection

/-!
# Rows without NULLs

A table keeps its rows in parallel arrays.  A `LogicalRow` is one row by
itself: for every column the value last given to it.
-/

namespace TurboGP.Engine

open Effect Datasource Sql Txn Text List

/-- The value last given to a cell: its encoding, whether it is NULL, and what
a string sidecar keeps of it. -/
structure Entry where
  cell : Cell
  isNull : Bool
  text : String

abbrev LogicalRow := Nat → Entry

structure Plain (table : Table) (rows : List LogicalRow) : Prop where
  count : table.rowCount = rows.length
  cells : ∀ (colIdx : Nat) column, table.columns[colIdx]? = some column →
      column = rows.map (fun row => (row colIdx).cell)
  noNulls : ∀ colIdx < table.columns.length, ∀ row ∈ rows, (row colIdx).isNull = false
  noBitmaps : ∀ bitmap ∈ table.nullBitmaps, bitmap = none
  noVersions : table.rowVersions = []

def isStringColumn (table : Table) (colIdx : Nat) : Bool :=
  (table.schema.map (fun schema => schema.isString colIdx)).getD false

def storedCell (table : Table) (rowIdx colIdx : Nat) : Option Cell :=
  table.columns[colIdx]?.bind (fun column => column[rowIdx]?)

/-- What a statement on the rows of a table leaves as it is. -/
structure SameHeader (old new : Table) : Prop where
  schema : new.schema = old.schema
  columnNames : new.columnNames = old.columnNames
  width : new.columns.length = old.columns.length
  sidecars : (∀ colIdx, isStringColumn old colIdx = false) → new.stringColumns = old.stringColumns

section

variable {table : Table} {rows : List LogicalRow}

variable (plain : Plain table rows)

include plain

theorem Plain.filled : ∀ column ∈ table.columns, column.length = table.rowCount := by
  intro column mem
  obtain ⟨colIdx, found⟩ := mem_iff_getElem?.mp mem
  rw [plain.cells colIdx column found, length_map, plain.count]

theorem Plain.nullAt (colIdx rowIdx : Nat) : table.nullAt colIdx rowIdx = false := by
  unfold Table.nullAt
  cases found : table.nullBitmaps[colIdx]? with
  | none => rfl
  | some bitmap => rw [plain.noBitmaps bitmap (mem_of_getElem? found)]

theorem Plain.storedCell {colIdx rowIdx : Nat}
    (inside : colIdx < table.columns.length) {row : LogicalRow} (atRow : rows[rowIdx]? = some row) :
    Engine.storedCell table rowIdx colIdx = some (row colIdx).cell := by
  have found := getElem?_eq_getElem inside
  unfold Engine.storedCell
  rw [found, plain.cells colIdx _ found, Option.bind_some, getElem?_map, atRow]
  rfl

end

theorem plain_created (ct : CreateTable) : Plain (createdTable ct) [] where
  count := rfl
  cells := by
    intro colIdx column found
    have mapped : (ct.columns.map fun _ => ([] : List Cell))[colIdx]? = some column := found
    rw [getElem?_map] at mapped
    obtain ⟨_, -, rfl⟩ := Option.map_eq_some_iff.mp mapped
    rfl
  noNulls := fun _ _ _ mem => absurd mem not_mem_nil
  noBitmaps := by
    intro bitmap mem
    obtain ⟨_, -, rfl⟩ := mem_map.mp mem
    rfl
  noVersions := rfl

/-- A row that an INSERT gives; columns that it does not name are NULL. -/
def givenRow (host : Host) (table : Table) (colIndices : List Nat)
    (rowVals : List String) : LogicalRow := fun colIdx =>
  { cell := (insertedCells host table colIndices rowVals)[colIdx]?.getD 0
    isNull :=
      match insertedRow host table.columns.length colIndices rowVals with
      | .ok row => row.2[colIdx]?.getD true
      | .error _ => true
    text := (stringInserts colIndices [rowVals] colIdx).head?.getD "" }

variable {host : Host} {colIndices : List Nat} {rowVals : List String} {row : NewRow}

theorem givenRow_cell {table : Table} {colIdx : Nat} {cell : Cell}
    (got : insertedRow host table.columns.length colIndices rowVals = .ok row)
    (stored : row.1[colIdx]? = some cell) :
    (givenRow host table colIndices rowVals colIdx).cell = cell := by
  unfold givenRow insertedCells
  simp only [got, stored]
  rfl

def GivesValues (values : List (List String)) : Prop :=
  ∀ rowVals ∈ values, ∀ text ∈ rowVals, isNullWord text = false

theorem insertedRow_flags {width : Nat} (given : ∀ text ∈ rowVals, isNullWord text = false)
    (got : insertedRow host width colIndices rowVals = .ok row) :
    ∀ colIdx ∈ colIndices, row.2[colIdx]? = some false := by
  suffices general : ∀ (entries : List (Nat × Nat)) (start : NewRow), entries.foldlM
      (fun row entry => do
        let text ← index rowVals entry.2
        let cell ← parseValueCell host text
        let values ← indexSet row.1 entry.1 cell
        let nulls ← indexSet row.2 entry.1 (isNullWord text)
        return (values, nulls)) start = Except.ok row →
    ∀ colIdx, start.2[colIdx]? = some false ∨
        colIdx ∈ entries.map Prod.fst →
      row.2[colIdx]? = some false by
    intro colIdx listed
    refine general colIndices.zipIdx _ got colIdx (.inr ?_)
    simpa using listed
  intro entries
  induction entries with
  | nil =>
    intro start ran colIdx flagged
    cases ran
    exact flagged.resolve_right not_mem_nil
  | cons entry rest ih =>
    intro start ran colIdx flagged
    obtain ⟨middle, head, tail⟩ := except_ok_iff.mp ran
    obtain ⟨text, found, head⟩ := except_ok_iff.mp head
    obtain ⟨cell, -, head⟩ := except_ok_iff.mp head
    obtain ⟨values, -, head⟩ := except_ok_iff.mp head
    obtain ⟨nulls, stored, head⟩ := except_ok_iff.mp head
    cases head
    obtain ⟨inside, rfl⟩ := indexSet_eq_ok_iff.mp stored
    have isValue : isNullWord text = false :=
      given text (mem_of_getElem? (index_eq_ok_iff.mp found))
    refine ih _ tail colIdx ?_
    rw [isValue, getElem?_set]
    by_cases here : entry.1 = colIdx
    · simp [here, here ▸ inside]
    · simpa [here, Ne.symm here] using flagged

section

variable {host : Host} {xmin : Nat} {colIndices : List Nat}
  {values : List (List String)} {table next : Table}
  {rows : List LogicalRow} {added : List (List Cell)}

/-- Without NULLs the bitmaps stay absent. -/
def Unflagged (old new : Table) : Prop :=
  (∀ bitmap ∈ old.nullBitmaps, bitmap = none) → new.nullBitmaps = old.nullBitmaps

instance : IsPreorder Table Unflagged where
  refl := fun _ _ => rfl
  trans := by
    intro first second third one two absent
    have same := one absent
    exact (two (same ▸ absent)).trans same

theorem unflagged_pushRow {rowVals : List String}
    (given : ∀ text ∈ rowVals, isNullWord text = false) :
    Moves Unflagged table (pushRow host colIndices rowVals) := by
  refine .forM fun entry _ cur _ => ?_
  refine .ofExcept_bind fun text found => ?_
  refine .ofExcept_bind fun cell _ => ?_
  have isValue : isNullWord text = false :=
    given text (mem_of_getElem? (index_eq_ok_iff.mp found))
  refine .bind ?_ fun _ written _ => ?_
  · refine .get_bind (.ofExcept_bind fun column _ => ?_)
    exact .set fun _ => rfl
  · rw [isValue]
    refine .get_bind ?_
    simp only [Bool.false_eq_true, if_false]
    split
    · next bitmap found =>
      refine .set fun absent => ?_
      cases absent _ (mem_of_getElem? found)
    · exact .pure _

theorem applyInsert_snapshot
    (ran : applyInsert host false xmin colIndices values table = .ok added next) :
    RowsAdded host colIndices values table next ∧
      SameHeader table next ∧ next.rowVersions = table.rowVersions ∧
      (GivesValues values → Unflagged table next) := by
  obtain ⟨_, pushed, pushes, ran⟩ := bind_eq_ok_iff.mp ran
  obtain ⟨_, counted, adds, ran⟩ := bind_eq_ok_iff.mp ran
  obtain ⟨_, extended, extends', ran⟩ := bind_eq_ok_iff.mp ran
  cases ran
  cases adds
  obtain ⟨pairs, read, grown⟩ := pushed_rows pushes
  have sidecars := (onlySidecars_extendSidecars colIndices values _).reached extends'
  have rowsAdded : RowsAdded host colIndices values table next := by
    refine ⟨?_, pairs, read, fun colIdx => ?_⟩
    · rw [sidecars, grown.sameRest]
    · rw [sidecars]
      exact grown.columns colIdx
  refine ⟨rowsAdded, ⟨?_, ?_, rowsAdded.columns_length, ?_⟩, ?_, ?_⟩
  · rw [sidecars, grown.sameRest]
  · rw [sidecars, grown.sameRest]
  · intro noStrings
    have none : (range pushed.columns.length).filter (isStringColumn pushed) = [] := by
      refine filter_eq_nil_iff.mpr fun colIdx _ => ?_
      have same : isStringColumn pushed = isStringColumn table := by
        unfold isStringColumn
        rw [grown.sameRest]
      rw [same, noStrings]
      exact Bool.false_ne_true
    have skipped : ((range pushed.columns.length).filter (isStringColumn pushed)).forM
          (fun colIdx =>
            if (stringInserts colIndices values colIdx).isEmpty then
              pure ()
            else
              extendSidecar colIdx (stringInserts colIndices values colIdx) : Nat → TableM Unit)
          { pushed with rowCount := pushed.rowCount + values.length } = .ok () next := extends'
    rw [none] at skipped
    cases skipped
    rw [grown.sameRest]
  · rw [sidecars, grown.sameRest]
  · intro given absent
    have unflagged : Unflagged table pushed := (Moves.forM fun rowVals mem _ _ =>
        unflagged_pushRow (given rowVals mem)).reached pushes
    rw [sidecars]
    exact unflagged absent

theorem RowsAdded.insertedRow_ok (rowsAdded : RowsAdded host colIndices values table next)
    (covers : colIndices.Perm (range table.columns.length))
    {rowVals : List String} (mem : rowVals ∈ values) :
    ∃ row, insertedRow host table.columns.length colIndices rowVals = .ok row := by
  obtain ⟨pairs, read, -⟩ := rowsAdded.cells
  obtain ⟨k, given⟩ := mem_iff_getElem?.mp mem
  have readRow := mapM_ok_getElem? read k
  rw [given, Option.map_some, eq_comm, Option.map_eq_some_iff] at readRow
  obtain ⟨cells, -, readCells⟩ := readRow
  obtain ⟨nulls, got⟩ := insertedRow_eq_ok readCells.symm fun listed isListed =>
      mem_range.mp (covers.mem_iff.mp isListed)
  exact ⟨_, got⟩

theorem Plain.applyInsert (plain : Plain table rows)
    (covers : colIndices.Perm (range table.columns.length)) (given : GivesValues values)
    (ran : Engine.applyInsert host false xmin colIndices values table = .ok added next) :
    Plain next (rows ++ values.map (givenRow host table colIndices)) ∧ SameHeader table next := by
  obtain ⟨rowsAdded, header, sameVersions, unflagged⟩ := applyInsert_snapshot ran
  refine ⟨⟨?_, ?_, ?_, ?_, sameVersions.trans plain.noVersions⟩, header⟩
  · rw [rowsAdded.count, plain.count, length_append, length_map]
  · intro colIdx column found
    have inside : colIdx < table.columns.length :=
      header.width ▸ (List.getElem?_eq_some_iff.mp found).1
    have present := getElem?_eq_getElem inside
    obtain ⟨new, isNew, length, cells⟩ := rowsAdded.column_eq covers present
    cases isNew.symm.trans found
    rw [map_append, map_map, plain.cells colIdx _ present]
    refine congrArg₂ (· ++ ·) rfl (ext_getElem? fun k => ?_)
    rw [getElem?_map]
    cases atRow : values[k]? with
    | none =>
      have past := getElem?_eq_none_iff.mp atRow
      exact getElem?_eq_none (length ▸ past)
    | some rowVals =>
      have bound : k < new.length := length ▸ (List.getElem?_eq_some_iff.mp atRow).1
      have here := cells k rowVals atRow
      rw [getElem?_eq_getElem bound] at here ⊢
      refine congrArg some ?_
      show _ = (insertedCells host table colIndices rowVals)[colIdx]?.getD 0
      rw [← here]
      rfl
  · intro colIdx inside row mem
    have inTable : colIdx < table.columns.length := header.width ▸ inside
    rcases mem_append.mp mem with old | isGiven
    · exact plain.noNulls colIdx inTable row old
    · obtain ⟨rowVals, isRow, rfl⟩ := mem_map.mp isGiven
      obtain ⟨newRow, got⟩ := rowsAdded.insertedRow_ok covers isRow
      have listed := covers.mem_iff.mpr (mem_range.mpr inTable)
      have flag := insertedRow_flags (given rowVals isRow) got colIdx listed
      unfold givenRow
      simp only [got, flag]
      rfl
  · rw [unflagged given plain.noBitmaps]
    exact plain.noBitmaps

end

/-- An assignment with the text that a sidecar would keep. -/
abbrev NewValue := Assignment × String

def LogicalRow.assign (values : List NewValue) (row : LogicalRow) : LogicalRow :=
  values.foldl
    (fun row value => Function.update row value.1.colIdx
        { cell := value.1.cell, isNull := value.1.isNull, text := value.2 })
    row

section

variable {table next : Table} {rows : List LogicalRow}

theorem map_modify {α β : Type} {f : α → α} {g : α → β} {h : β → β}
    (related : ∀ item, g (f item) = h (g item)) (items : List α)
    (idx : Nat) : (items.modify idx f).map g = (items.map g).modify idx h := by
  apply ext_getElem?
  intro pos
  rw [getElem?_map, getElem?_modify, getElem?_modify, getElem?_map]
  cases items[pos]? with
  | none => rfl
  | some item =>
    by_cases here : idx = pos
    · simp [here, related]
    · simp [here]

theorem mem_modify {α : Type} {f : α → α} {items : List α} {idx : Nat}
    {item : α} (mem : item ∈ items.modify idx f) : ∃ old ∈ items, item = old ∨ item = f old := by
  obtain ⟨pos, found⟩ := mem_iff_getElem?.mp mem
  rw [getElem?_modify] at found
  obtain ⟨old, isOld, rfl⟩ := Option.map_eq_some_iff.mp found
  refine ⟨old, mem_of_getElem? isOld, ?_⟩
  split
  · exact .inr rfl
  · exact .inl rfl

theorem Plain.write {value : NewValue} {rowIdx : Nat}
    (plain : Plain table rows) (given : value.1.isNull = false)
    (ran : (do
        writeCell value.1.colIdx rowIdx value.1.cell
        writeNullFlag value.1.colIdx rowIdx value.1.isNull : TableM Unit) table = .ok () next) :
    Plain next (rows.modify rowIdx (LogicalRow.assign [value])) ∧
      next = { table with columns := next.columns } ∧
      next.columns.length = table.columns.length := by
  obtain ⟨_, written, writes, flags⟩ := bind_eq_ok_iff.mp ran
  obtain ⟨column, found, writes⟩ := ofExcept_bind_eq_ok_iff.mp writes
  obtain ⟨changed, stored, writes⟩ := ofExcept_bind_eq_ok_iff.mp writes
  cases writes
  obtain ⟨inside, rfl⟩ := indexSet_eq_ok_iff.mp stored
  have atColumn := index_eq_ok_iff.mp found
  -- a value makes no bitmap, and there is none
  have unflagged : next =
        { table with
          columns := table.columns.set value.1.colIdx (column.set rowIdx value.1.cell) } := by
    have outcome := (EStateM.Result.ok.inj flags).2.symm
    rw [given] at outcome
    refine outcome.trans ?_
    dsimp only
    cases isBitmap : table.nullBitmaps[value.1.colIdx]? with
    | none => rfl
    | some bitmap => rw [plain.noBitmaps bitmap (mem_of_getElem? isBitmap)]
  rw [unflagged]
  refine ⟨⟨?_, ?_, ?_, plain.noBitmaps, plain.noVersions⟩, rfl, length_set⟩
  · rw [length_modify]
    exact plain.count
  · intro tested cells isCells
    rw [getElem?_set] at isCells
    by_cases here : value.1.colIdx = tested
    · subst here
      rw [if_pos rfl, if_pos (List.getElem?_eq_some_iff.mp atColumn).1] at isCells
      cases isCells
      have assigned := @map_modify _ _ (LogicalRow.assign [value])
          (fun row => (row value.1.colIdx).cell) (fun _ => value.1.cell)
          (fun row => by simp [LogicalRow.assign]) rows rowIdx
      rw [assigned, ← plain.cells _ column atColumn]
      exact set_eq_modify _ _ _
    · rw [if_neg here] at isCells
      have unchanged := @map_modify _ _ (LogicalRow.assign [value])
          (fun row => (row tested).cell) id
          (fun row => by simp [LogicalRow.assign, Ne.symm here]) rows rowIdx
      rw [unchanged, modify_id]
      exact plain.cells tested cells isCells
  · intro tested bound row mem
    rw [length_set] at bound
    obtain ⟨old, isOld, rfl | rfl⟩ := mem_modify mem
    · exact plain.noNulls tested bound row isOld
    · by_cases here : tested = value.1.colIdx
      · simp [LogicalRow.assign, here, given]
      · simp only [LogicalRow.assign, foldl_cons, foldl_nil, Function.update_of_ne here]
        exact plain.noNulls tested bound old isOld

theorem Plain.updateLoop {values : List NewValue} {matched : List Nat}
    (plain : Plain table rows) (given : ∀ value ∈ values, value.1.isNull = false)
    (ran : matched.forM (updateRow (values.map Prod.fst)) table = .ok () next) :
    Plain next
        (matched.foldl (fun rows rowIdx => rows.modify rowIdx (LogicalRow.assign values)) rows) ∧
      next = { table with columns := next.columns } ∧
      next.columns.length = table.columns.length := by
  -- one row: an induction over its assignments
  have oneRow : ∀ (values : List NewValue) (rowIdx : Nat) (table next : Table)
        (rows : List LogicalRow), Plain table rows → (∀ value ∈ values, value.1.isNull = false) →
        updateRow (values.map Prod.fst) rowIdx table = .ok () next →
          Plain next (rows.modify rowIdx (LogicalRow.assign values)) ∧
            next = { table with columns := next.columns } ∧
            next.columns.length = table.columns.length := by
    intro values
    induction values with
    | nil =>
      intro rowIdx table next rows plain _ ran
      cases ran
      refine ⟨?_, rfl, rfl⟩
      rw [show rows.modify rowIdx (LogicalRow.assign []) = rows from modify_id rowIdx rows]
      exact plain
    | cons value rest ih =>
      intro rowIdx table next rows plain given ran
      obtain ⟨first, others⟩ := forall_mem_cons.mp given
      obtain ⟨_, middle, head, tail⟩ := bind_eq_ok_iff.mp ran
      obtain ⟨written, same, width⟩ := plain.write first head
      obtain ⟨final, sameRest, restWidth⟩ := ih rowIdx middle next _ written others tail
      rw [modify_modify_eq] at final
      refine ⟨final, ?_, restWidth.trans width⟩
      rw [sameRest, same]
  induction matched generalizing table rows with
  | nil =>
    cases ran
    exact ⟨plain, rfl, rfl⟩
  | cons rowIdx rest ih =>
    obtain ⟨_, middle, head, tail⟩ := bind_eq_ok_iff.mp ran
    obtain ⟨changed, same, width⟩ := oneRow values rowIdx table middle rows plain given head
    obtain ⟨final, sameRest, restWidth⟩ := ih changed tail
    refine ⟨final, ?_, restWidth.trans width⟩
    rw [sameRest, same]

theorem Plain.padBitmaps (plain : Plain table rows) (length : Nat) :
    Plain (padBitmaps table length) rows where
  count := plain.count
  cells := plain.cells
  noNulls := plain.noNulls
  noBitmaps := by
    intro bitmap mem
    rcases mem_append.mp mem with old | new
    · exact plain.noBitmaps bitmap old
    · exact (mem_replicate.mp new).2
  noVersions := plain.noVersions

end

def rowsWhere (mask : List Bool) (rows : List LogicalRow) : List LogicalRow :=
  ((rows.zip mask).filter (fun entry => entry.2)).map Prod.fst

section

variable {table next : Table} {rows : List LogicalRow} {mask : List Bool}

theorem map_maskedRows (length : mask.length = rows.length) {β : Type}
    {atPosition : Nat → β} {ofRow : LogicalRow → β}
    (agree : ∀ (idx : Nat) row, rows[idx]? = some row → atPosition idx = ofRow row) :
    (maskedRows mask).map atPosition = (rowsWhere mask rows).map ofRow := by
  have selected := RowSelection.getElem?_flagged_positions mask rows length
  apply ext_getElem?
  intro place
  have here := congrArg (·[place]?) selected
  unfold rowsWhere
  simp only [getElem?_map] at here ⊢
  unfold maskedRows
  cases kept : ((rows.zip mask).filter (fun entry => entry.2))[place]? with
  | none =>
    rw [kept] at here
    rw [Option.map_eq_none_iff.mp here]
    rfl
  | some entry =>
    rw [kept] at here
    obtain ⟨idx, atPlace, isRow⟩ := Option.map_eq_some_iff.mp here
    rw [atPlace]
    exact congrArg some (agree idx entry.1 isRow)

theorem mem_of_mem_rowsWhere {row : LogicalRow} (mem : row ∈ rowsWhere mask rows) : row ∈ rows := by
  obtain ⟨entry, isEntry, rfl⟩ := mem_map.mp mem
  exact (of_mem_zip (mem_filter.mp isEntry).1).1

theorem rowsWhere_sublist (length : mask.length = rows.length) :
    (rowsWhere mask rows).Sublist rows := by
  have whole : (rows.zip mask).map Prod.fst = rows := map_fst_zip (Nat.le_of_eq length.symm)
  have kept := (filter_sublist (l := rows.zip mask) (p := fun entry => entry.2)).map Prod.fst
  rwa [whole] at kept

theorem Plain.cells_rowsWhere (plain : Plain table rows)
    (length : mask.length = rows.length) {columns : List (List Cell)}
    (read :
      table.columns.mapM (fun column => (maskedRows mask).mapM (index column)) = .ok columns) :
    columns.length = table.columns.length ∧
      ∀ (colIdx : Nat) column, columns[colIdx]? = some column →
        column = (rowsWhere mask rows).map (fun row => (row colIdx).cell) := by
  refine ⟨(mapM_eq_ok_iff.mp read).length_eq.symm, ?_⟩
  intro colIdx column found
  have entry := mapM_ok_getElem? read colIdx
  rw [found] at entry
  obtain ⟨old, atOld, isRead⟩ := Option.map_eq_some_iff.mp entry
  have positions := mapM_index_eq_ok_iff.mp isRead
  have selected := @map_maskedRows rows mask length _ (fun idx => old[idx]?)
      (fun row => some (row colIdx).cell) fun idx row atRow => by
        rw [plain.cells colIdx old atOld, getElem?_map, atRow]
        rfl
  refine map_injective_iff.mpr (Option.some_injective _) ?_
  rw [map_map]
  exact positions.trans selected

theorem length_maskedRows (mask : List Bool) : (maskedRows mask).length = mask.count true := by
  unfold maskedRows
  rw [length_filterMap_eq_countP, count_eq_countP]
  conv_rhs => rw [← zipIdx_map_fst 0 mask, countP_map]
  refine countP_congr fun entry _ => ?_
  by_cases flag : entry.1 = true <;> simp [flag]

theorem length_rowsWhere (length : mask.length = rows.length) :
    (rowsWhere mask rows).length = mask.count true := by
  have mapped := congrArg List.length
      (@map_maskedRows rows mask length Unit (fun _ => ()) (fun _ => ()) fun _ _ _ => rfl)
  rwa [length_map, length_map, length_maskedRows, eq_comm] at mapped

theorem Plain.compactColumns (plain : Plain table rows) (length : mask.length = rows.length)
    (ran : Engine.compactColumns mask table = .ok () next) :
    Plain next (rowsWhere (mask.map (fun deleted => !deleted)) rows) ∧ SameHeader table next := by
  let kept := mask.map (fun deleted => !deleted)
  have keptLength : kept.length = rows.length := (length_map _).trans length
  unfold Engine.compactColumns at ran
  rw [get_bind_run] at ran
  split at ran
  · cases ran
  obtain ⟨columns, rebuilt, ran⟩ := ofExcept_bind_eq_ok_iff.mp ran
  cases ran
  obtain ⟨width, cells⟩ := plain.cells_rowsWhere keptLength rebuilt
  refine ⟨⟨?_, cells, ?_, plain.noBitmaps, plain.noVersions⟩, ⟨rfl, rfl, width, fun _ => rfl⟩⟩
  · have flipped : kept.count true = mask.count false :=
      count_map_of_injective mask (fun deleted => !deleted)
        (fun _ _ same => Bool.not_inj same) false
    have all : mask.count false + mask.count true = mask.length :=
      count_not_add_count mask true
    show table.rowCount - (maskedRows mask).length = _
    rw [length_rowsWhere keptLength, length_maskedRows, plain.count, flipped]
    omega
  · intro colIdx inside row mem
    exact plain.noNulls colIdx (width ▸ inside) row (mem_of_mem_rowsWhere mem)

end

end TurboGP.Engine
