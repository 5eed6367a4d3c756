import TurboGP.Engine.EngineMoves

/-! # What an INSERT adds -/

namespace TurboGP.Engine

open Datasource Sql Txn Effect List Option

/-! ## Only panics after the checks -/

section

variable {σ α β : Type} {rel : σ → σ → Prop} {prog : EStateM Fault σ α}
  {rest : α → EStateM Fault σ β} {state : σ}

/-- If the program returns an error, its state is related to the first. -/
def ErrorKeeps (rel : σ → σ → Prop) (prog : EStateM Fault σ α) (state : σ) : Prop :=
  ∀ error next, prog state = .error (.error error) next → rel state next

theorem ErrorKeeps.of_throws (panics : Throws (· = .panic) prog) : ErrorKeeps rel prog state := by
  intro error next failed
  cases panics state _ next failed

theorem ErrorKeeps.get_bind {rest : σ → EStateM Fault σ β}
    (keeps : ErrorKeeps rel (rest state) state) : ErrorKeeps rel (get >>= rest) state :=
  keeps

theorem ErrorKeeps.bind [IsPreorder σ rel] (moves : Moves rel state prog)
    (later : ∀ value next, prog state = .ok value next → ErrorKeeps rel (rest value) next) :
    ErrorKeeps rel (prog >>= rest) state := by
  intro error next failed
  cases out : prog state with
  | error fault middle =>
    cases (bind_run_error out).symm.trans failed
    exact moves.reached_error out
  | ok value middle =>
    rw [bind_run_ok out] at failed
    exact Trans.trans (moves.reached out) (later value middle out error next failed)

theorem ErrorKeeps.bind_throws (keeps : ErrorKeeps rel prog state)
    (panics : ∀ value, Throws (· = .panic) (rest value)) :
    ErrorKeeps rel (prog >>= rest) state := by
  intro error next failed
  cases out : prog state with
  | error fault middle =>
    cases (bind_run_error out).symm.trans failed
    exact keeps error _ out
  | ok value middle =>
    rw [bind_run_ok out] at failed
    cases panics value middle _ next failed

end

/-- The closure is all that can return an error and change a table. -/
theorem ErrorKeeps.withMut {α : Type} {versioned : String → Prop}
    {rel : String → Table → Table → Prop} [∀ name, IsPreorder Table (rel name)]
    {engine : QueryEngine} {name : String} {closure : TableM α}
    (keeps : ∀ table, engine.catalog.lookup name = some table →
      ErrorKeeps (rel name) closure table) :
    ErrorKeeps (EngineMoves versioned rel) (withMut name closure) engine := by
  intro error next failed
  unfold Engine.withMut at failed
  split at failed
  · cases failed
    exact Std.Refl.refl engine
  · next table held =>
    split at failed
    · cases failed
    · next fault changed ended =>
      cases failed
      exact .insertTable held (keeps table held error changed ended)

section

variable {fault : Fault}

theorem index_panics {α : Type} {xs : List α} {idx : Nat}
    (failed : index xs idx = .error fault) : fault = .panic := by
  unfold index at failed
  split at failed
  · cases failed
  · cases failed
    rfl

theorem hexPairs_panics {chars : List Char}
    (failed : hexPairs chars = .error fault) : fault = .panic := by
  fun_induction hexPairs chars with
  | case1 => cases failed
  | case2 c wide => cases failed
  | case3 c narrow =>
    cases failed
    rfl
  | case4 first second rest wide ih | case5 first second rest _ _ ih =>
    rcases except_error_iff.mp failed with tail | ⟨pairs, -, last⟩
    · exact ih tail
    · cases last
  | case6 first second rest =>
    cases failed
    rfl

theorem parseValueCell_panics {host : Host} {text : String}
    (failed : parseValueCell host text = .error fault) : fault = .panic := by
  unfold parseValueCell at failed
  simp only at failed
  split_ifs at failed
  · rcases except_error_iff.mp failed with digits | ⟨pairs, -, last⟩
    · exact hexPairs_panics digits
    · cases last
  all_goals
    split at failed
    · cases failed
    · split at failed
      · cases failed
      · split at failed <;> cases failed

theorem throws_pushRow (host : Host) (colIndices : List Nat) (rowVals : List String) :
    Throws (· = .panic) (pushRow host colIndices rowVals) := by
  refine .forM fun entry _ => ?_
  refine .bind (.ofExcept fun _ => index_panics) fun text => ?_
  refine .bind (.ofExcept fun _ => parseValueCell_panics) fun cell => ?_
  refine .bind ?_ fun _ => ?_
  · refine .bind .get fun table => ?_
    refine .bind (.ofExcept fun _ => index_panics) fun column => ?_
    exact .set _
  · refine .bind .get fun table => ?_
    split
    · refine .bind (.ofExcept fun _ => index_panics) fun bitmap => ?_
      exact .set _
    · split
      · exact .set _
      · exact .pure _

theorem throws_addRows (mvccEnabled : Bool) (xmin newRows : Nat) :
    Throws (· = .panic) (addRows mvccEnabled xmin newRows) := by
  refine .bind (.modify _) fun _ => ?_
  split
  · exact .forM fun _ _ => .modify _
  · exact .pure _

theorem throws_extendSidecars (colIndices : List Nat) (values : List (List String)) :
    Throws (· = .panic) (extendSidecars colIndices values) := by
  refine .bind .get fun table => ?_
  refine .forM fun colIdx _ => ?_
  simp only
  split
  · exact .pure _
  · refine .bind .get fun cur => ?_
    simp only
    split
    · exact .set _
    · split
      · exact .throw rfl
      · exact .set _

def applyInsert (host : Host) (mvccEnabled : Bool) (xmin : Nat)
    (colIndices : List Nat) (values : List (List String)) :
    TableM (List (List Cell)) := do
  values.forM (pushRow host colIndices)
  addRows mvccEnabled xmin values.length
  extendSidecars colIndices values
  return lastRows (← get) values.length

theorem throws_applyInsert (host : Host) (mvccEnabled : Bool) (xmin : Nat) (colIndices : List Nat)
    (values : List (List String)) :
    Throws (· = .panic) (applyInsert host mvccEnabled xmin colIndices values) := by
  refine .bind (.forM fun _ _ => throws_pushRow _ _ _) fun _ => ?_
  refine .bind (throws_addRows _ _ _) fun _ => ?_
  refine .bind (throws_extendSidecars _ _) fun _ => ?_
  exact .bind .get fun _ => .pure _

theorem errorKeeps_insertRows {rel : Table → Table → Prop} [IsPreorder Table rel]
    (host : Host) (mvccEnabled : Bool) (txnId : Option Nat) (ins : Insert) (table : Table) :
    ErrorKeeps rel (insertRows host mvccEnabled txnId ins) table := by
  refine .get_bind (.bind (.ofExcept _) fun colIndices _ _ => ?_)
  refine .bind (.ofExcept _) fun _ _ _ => ?_
  refine .bind (.ofExcept _) fun _ _ _ => ?_
  exact .of_throws (throws_applyInsert host mvccEnabled (txnId.getD 0) colIndices ins.values)

end

/-! ## The cells of a row -/

def entryCell (host : Host) (rowVals : List String) (entry : Nat × Nat) :
    Except Fault (Nat × Cell) := do
  let text ← index rowVals entry.2
  let cell ← parseValueCell host text
  return (entry.1, cell)

variable {host : Host} {table next : Table} {colIndices : List Nat}

variable {rowVals : List String} {colIdx : Nat} {values : List (List String)}

theorem entryCell_eq_ok_iff {entry : Nat × Nat} {pair : Nat × Cell} :
    entryCell host rowVals entry = .ok pair ↔ ∃ text cell, index rowVals entry.2 = .ok text ∧
      parseValueCell host text = .ok cell ∧ pair = (entry.1, cell) := by
  simp only [entryCell, except_ok_iff, exists_and_left]
  simp [pure, Except.pure, eq_comm]

def rowCells (host : Host) (colIndices : List Nat)
    (rowVals : List String) : Except Fault (List (Nat × Cell)) :=
  colIndices.zipIdx.mapM (entryCell host rowVals)

def cellsFor (colIdx : Nat) (cells : List (Nat × Cell)) : List Cell :=
  cells.filterMap (fun pair => if pair.1 = colIdx then some pair.2 else none)

/-- `cells` were pushed onto the columns of a table. -/
structure Pushed (cells : List (Nat × Cell)) (old new : Table) : Prop where
  sameRest : new =
      { old with
        columns := new.columns
        nullBitmaps := new.nullBitmaps }
  columns : ∀ colIdx : Nat, new.columns[colIdx]? =
    old.columns[colIdx]?.map (fun column => column ++ cellsFor colIdx cells)

namespace Pushed

variable {old middle new : Table}

theorem nil (table : Table) : Pushed [] table table where
  sameRest := rfl
  columns := by
    intro colIdx
    simp [cellsFor]

theorem append {first second : List (Nat × Cell)} (before : Pushed first old middle)
    (after : Pushed second middle new) :
    Pushed (first ++ second) old new where
  sameRest := by
    rw [after.sameRest, before.sameRest]
  columns := by
    intro colIdx
    rw [after.columns, before.columns, Option.map_map]
    refine congrArg (Option.map · _) (funext fun column => ?_)
    simp [cellsFor, filterMap_append]

end Pushed

theorem pushed_pushCell {cell : Cell} (ran : pushCell colIdx cell table = .ok () next) :
    Pushed [(colIdx, cell)] table next := by
  unfold pushCell at ran
  rw [get_bind_run, ofExcept_bind_eq_ok_iff] at ran
  obtain ⟨column, found, ran⟩ := ran
  cases ran
  have present := index_eq_ok_iff.mp found
  have inRange := (List.getElem?_eq_some_iff.mp present).1
  refine ⟨rfl, fun tested => ?_⟩
  by_cases same : tested = colIdx
  · subst same
    simp only [getElem?_set_self inRange, present]
    simp [cellsFor]
  · simp [cellsFor, Ne.symm same]

instance : IsPreorder Table (Pushed []) where
  refl := .nil
  trans := fun _ _ _ => .append

theorem pushed_pushNullFlag (colIdx : Nat) (isNull : Bool) (table : Table) :
    Moves (Pushed []) table (pushNullFlag colIdx isNull) := by
  have sameCells : ∀ bitmaps, Pushed [] table { table with nullBitmaps := bitmaps } :=
    fun _ => ⟨rfl, (Pushed.nil table).columns⟩
  refine .get_bind ?_
  split
  · refine .ofExcept_bind fun bitmap _ => ?_
    split <;> exact .set (sameCells _)
  · split
    · exact .set (sameCells _)
    · exact .pure _

theorem pushed_pushRow (ran : pushRow host colIndices rowVals table = .ok () next) :
    ∃ cells, rowCells host colIndices rowVals = .ok cells ∧ Pushed cells table next := by
  unfold pushRow at ran
  simp only [rowCells, mapM_eq_ok_iff]
  generalize colIndices.zipIdx = entries at ran ⊢
  -- The induction is on the columns still to be pushed.
  induction entries generalizing table with
  | nil =>
    cases ran
    exact ⟨[], .nil, .nil _⟩
  | cons entry rest ih =>
    obtain ⟨_, middle, head, tail⟩ := bind_eq_ok_iff.mp ran
    obtain ⟨text, read, head⟩ := ofExcept_bind_eq_ok_iff.mp head
    obtain ⟨cell, parsed, head⟩ := ofExcept_bind_eq_ok_iff.mp head
    obtain ⟨_, written, pushes, flags⟩ := bind_eq_ok_iff.mp head
    obtain ⟨cells, related, pushed⟩ := ih tail
    have first := (pushed_pushCell pushes).append ((pushed_pushNullFlag _ _ _).reached flags)
    exact ⟨(entry.1, cell) :: cells,
      .cons (entryCell_eq_ok_iff.mpr ⟨text, cell, read, parsed, rfl⟩) related,
      first.append pushed⟩

/-! ## The whole statement -/

/-- The cells of the given rows are behind those of the old rows. -/
structure RowsAdded (host : Host) (colIndices : List Nat)
    (values : List (List String)) (old new : Table) : Prop where
  count : new.rowCount = old.rowCount + values.length
  cells : ∃ rows, values.mapM (rowCells host colIndices) = .ok rows ∧
    ∀ colIdx : Nat, new.columns[colIdx]? =
      old.columns[colIdx]?.map (fun column => column ++ cellsFor colIdx rows.flatten)

structure Inserted (host : Host) (xmin : Nat) (colIndices : List Nat)
    (values : List (List String)) (old new : Table) : Prop where
  sameName : new.name = old.name
  sameColumnNames : new.columnNames = old.columnNames
  count : new.rowCount = old.rowCount + values.length
  chains : ∀ row, new.chainAt row =
    if old.rowCount ≤ row ∧ row < new.rowCount then
      old.chainAt row ++ [RowVersion.new xmin []]
    else old.chainAt row
  cells : ∃ rows, values.mapM (rowCells host colIndices) = .ok rows ∧
    ∀ colIdx : Nat, new.columns[colIdx]? =
      old.columns[colIdx]?.map (fun column => column ++ cellsFor colIdx rows.flatten)

theorem pushed_rows (ran : values.forM (pushRow host colIndices) table = .ok () next) :
    ∃ rows, values.mapM (rowCells host colIndices) = .ok rows ∧ Pushed rows.flatten table next := by
  simp only [mapM_eq_ok_iff]
  induction values generalizing table with
  | nil =>
    cases ran
    exact ⟨[], .nil, .nil _⟩
  | cons row rest ih =>
    obtain ⟨_, middle, head, tail⟩ := bind_eq_ok_iff.mp ran
    obtain ⟨cells, read, pushed⟩ := pushed_pushRow head
    obtain ⟨rows, related, others⟩ := ih tail
    exact ⟨cells :: rows, .cons read related, pushed.append others⟩

/-- The sidecars are all that `extendSidecars` changes. -/
def OnlySidecars (old new : Table) : Prop := new = { old with stringColumns := new.stringColumns }

instance : IsPreorder Table OnlySidecars where
  refl := fun _ => rfl
  trans := by
    intro first second third one two
    unfold OnlySidecars at one two ⊢
    rw [two, one]

theorem onlySidecars_extendSidecars
    (colIndices : List Nat) (values : List (List String)) (table : Table) :
    Moves OnlySidecars table (extendSidecars colIndices values) := by
  refine .get_bind (.forM fun colIdx _ cur _ => ?_)
  simp only
  split
  · exact .pure _
  · refine .get_bind ?_
    simp only
    split
    · exact .set rfl
    · split
      · exact .throw _
      · exact .set rfl

theorem inserted_of_applyInsert {xmin : Nat} {rows : List (List Cell)}
    (ran : applyInsert host true xmin colIndices values table = .ok rows next) :
    Inserted host xmin colIndices values table next := by
  obtain ⟨_, pushed, pushes, ran⟩ := bind_eq_ok_iff.mp ran
  obtain ⟨_, added, adds, ran⟩ := bind_eq_ok_iff.mp ran
  obtain ⟨_, extended, extends', ran⟩ := bind_eq_ok_iff.mp ran
  cases ran
  obtain ⟨pairs, read, pushedCells⟩ := pushed_rows pushes
  obtain ⟨_, isAdded, sameRest, chains, -⟩ := @addRows_run pushed xmin values.length
  cases isAdded.symm.trans adds
  have sidecars := (onlySidecars_extendSidecars colIndices values added).reached extends'
  have sameRows : pushed.rowCount = table.rowCount := by
    rw [pushedCells.sameRest]
  have sameVersions : pushed.rowVersions = table.rowVersions := by
    rw [pushedCells.sameRest]
  have count : added.rowCount = table.rowCount + values.length := by
    rw [sameRest, ← sameRows]
  rw [sidecars]
  constructor
  · rw [sameRest, pushedCells.sameRest]
  · rw [sameRest, pushedCells.sameRest]
  · exact count
  · intro row
    have sameChain : pushed.chainAt row = table.chainAt row := by
      unfold Table.chainAt
      rw [sameVersions]
    show added.chainAt row = if table.rowCount ≤ row ∧ row < added.rowCount then _ else _
    rw [chains, sameRows, sameChain, count]
  · refine ⟨pairs, read, fun colIdx => ?_⟩
    rw [sameRest]
    exact pushedCells.columns colIdx

/-! ## Rows that give every column one cell -/

section

variable {host : Host} {colIndices : List Nat} {rowVals : List String}
  {cells : List (Nat × Cell)}

theorem rowCells_columns (read : rowCells host colIndices rowVals = .ok cells) :
    cells.map Prod.fst = colIndices := by
  have related := mapM_eq_ok_iff.mp read
  have keys : colIndices = colIndices.zipIdx.map Prod.fst := by simp
  rw [keys]
  generalize colIndices.zipIdx = entries at related
  clear read keys
  induction related with
  | nil => rfl
  | cons first _ ih =>
    obtain ⟨text, cell, -, -, rfl⟩ := entryCell_eq_ok_iff.mp first
    rw [map_cons, map_cons, ih]

variable {colIdx : Nat}

theorem cellsFor_eq_nil (unlisted : colIdx ∉ cells.map Prod.fst) : cellsFor colIdx cells = [] := by
  rw [cellsFor, filterMap_eq_nil_iff]
  intro pair mem
  refine if_neg fun same => unlisted ?_
  exact mem_map.mpr ⟨pair, mem, same⟩

variable {cell : Cell} {columnCount : Nat}

theorem cellsFor_eq_singleton (distinct : (cells.map Prod.fst).Nodup)
    (mem : (colIdx, cell) ∈ cells) : cellsFor colIdx cells = [cell] := by
  obtain ⟨before, after, rfl⟩ := append_of_mem mem
  rw [map_append, map_cons, nodup_middle, nodup_cons, mem_append, not_or] at distinct
  have split : cellsFor colIdx (before ++ (colIdx, cell) :: after) =
      cellsFor colIdx before ++ cell :: cellsFor colIdx after := by
    simp [cellsFor]
  rw [split, cellsFor_eq_nil distinct.1.1, cellsFor_eq_nil distinct.1.2]
  rfl

theorem insertedRow_eq_ok (read : rowCells host colIndices rowVals = .ok cells)
    (within : ∀ colIdx ∈ colIndices, colIdx < columnCount) :
    ∃ nulls, insertedRow host columnCount colIndices rowVals = .ok
        (cells.foldl (fun values pair => values.set pair.1 pair.2)
          (replicate columnCount 0), nulls) := by
  have inRange : ∀ entry ∈ colIndices.zipIdx, entry.1 < columnCount := by
    intro entry mem
    exact within entry.1 (fst_mem_of_mem_zipIdx mem)
  have related := mapM_eq_ok_iff.mp read
  unfold insertedRow
  generalize colIndices.zipIdx = entries at related inRange
  have sameLength : (replicate columnCount (0 : Cell)).length = columnCount ∧
      (replicate columnCount true).length = columnCount := by
    simp
  generalize replicate columnCount (0 : Cell) = values at sameLength ⊢
  generalize replicate columnCount true = flags at sameLength ⊢
  clear read within
  induction related generalizing values flags with
  | nil => exact ⟨flags, rfl⟩
  | @cons entry pair rest others first _ ih =>
    obtain ⟨text, cell, found, parsed, rfl⟩ := entryCell_eq_ok_iff.mp first
    have here := inRange entry mem_cons_self
    have stored : indexSet values entry.1 cell = .ok (values.set entry.1 cell) :=
      indexSet_eq_ok_iff.mpr ⟨by omega, rfl⟩
    have flagged : indexSet flags entry.1 (Text.isNullWord text) =
        .ok (flags.set entry.1 (Text.isNullWord text)) :=
      indexSet_eq_ok_iff.mpr ⟨by omega, rfl⟩
    rw [foldlM_cons, foldl_cons]
    simp only [found, parsed, stored, flagged, bind, Except.bind, pure, Except.pure]
    refine ih ?_ _ _ ?_
    · exact fun other mem => inRange other (mem_cons_of_mem entry mem)
    · simpa using sameLength

theorem foldl_set_unlisted (values : List Cell) (unlisted : colIdx ∉ cells.map Prod.fst) :
    (cells.foldl (fun values pair => values.set pair.1 pair.2) values)[colIdx]? =
      values[colIdx]? := by
  induction cells generalizing values with
  | nil => rfl
  | cons pair rest ih =>
    rw [map_cons, mem_cons, not_or] at unlisted
    rw [foldl_cons, ih _ unlisted.2, getElem?_set_ne (Ne.symm unlisted.1)]

theorem length_foldl_set (values : List Cell) :
    (cells.foldl (fun values pair => values.set pair.1 pair.2) values).length = values.length := by
  induction cells generalizing values with
  | nil => rfl
  | cons pair rest ih => rw [foldl_cons, ih, length_set]

theorem foldl_set_listed (values : List Cell) (distinct : (cells.map Prod.fst).Nodup)
    (mem : (colIdx, cell) ∈ cells) (inRange : colIdx < values.length) :
    (cells.foldl (fun values pair => values.set pair.1 pair.2) values)[colIdx]? = some cell := by
  obtain ⟨before, after, rfl⟩ := append_of_mem mem
  rw [map_append, map_cons, nodup_middle, nodup_cons, mem_append, not_or] at distinct
  rw [foldl_append, foldl_cons, foldl_set_unlisted _ distinct.1.2, getElem?_set_self]
  rw [length_foldl_set]
  exact inRange

theorem cellsFor_of_covered (covers : colIndices.Perm (range columnCount))
    (read : rowCells host colIndices rowVals = .ok cells) (inRange : colIdx < columnCount) :
    ∃ cell, cellsFor colIdx cells = [cell] ∧
      (cells.foldl (fun values pair => values.set pair.1 pair.2)
          (replicate columnCount 0))[colIdx]? =
        some cell := by
  have columns := rowCells_columns read
  have distinct : (cells.map Prod.fst).Nodup := by
    rw [columns]
    exact covers.nodup_iff.mpr nodup_range
  have listed : colIdx ∈ cells.map Prod.fst := by
    rw [columns]
    exact covers.mem_iff.mpr (mem_range.mpr inRange)
  obtain ⟨⟨_, cell⟩, mem, rfl⟩ := mem_map.mp listed
  refine ⟨cell, cellsFor_eq_singleton distinct mem, ?_⟩
  exact foldl_set_listed _ distinct mem (by rw [length_replicate]; exact inRange)

end

/-! ## Rectangular tables -/

structure Rectangular (table : Table) : Prop where
  named : table.columns.length = table.columnNames.length
  filled : ∀ column ∈ table.columns, column.length = table.rowCount

def insertedCells (host : Host) (table : Table) (colIndices : List Nat)
    (rowVals : List String) : List Cell :=
  match insertedRow host table.columns.length colIndices rowVals with
  | .ok row => row.1
  | .error _ => []

section

variable {host : Host} {xmin : Nat} {colIndices : List Nat}
  {values : List (List String)} {old new : Table}

theorem Inserted.rowsAdded (inserted : Inserted host xmin colIndices values old new) :
    RowsAdded host colIndices values old new :=
  ⟨inserted.count, inserted.cells⟩

theorem RowsAdded.columns_length (added : RowsAdded host colIndices values old new) :
    new.columns.length = old.columns.length := by
  obtain ⟨rows, -, columns⟩ := added.cells
  have same : ∀ colIdx, new.columns.length ≤ colIdx ↔ old.columns.length ≤ colIdx := by
    intro colIdx
    rw [← getElem?_eq_none_iff, columns, map_eq_none_iff, getElem?_eq_none_iff]
  have notPast := same new.columns.length
  have notBelow := same old.columns.length
  omega

variable {colIdx : Nat}

theorem RowsAdded.column_eq (rowsAdded : RowsAdded host colIndices values old new)
    (covers : colIndices.Perm (range old.columns.length))
    {column : List Cell} (held : old.columns[colIdx]? = some column) :
    ∃ added, new.columns[colIdx]? = some (column ++ added) ∧
      added.length = values.length ∧
      ∀ (k : Nat) rowVals, values[k]? = some rowVals →
        added[k]? = (insertedCells host old colIndices rowVals)[colIdx]? := by
  obtain ⟨rows, read, columns⟩ := rowsAdded.cells
  have inRange := (List.getElem?_eq_some_iff.mp held).1
  have within : ∀ listed ∈ colIndices, listed < old.columns.length :=
    fun listed mem => mem_range.mp (covers.mem_iff.mp mem)
  -- One row: the cell for the column is the one of the row's own cells.
  have oneRow : ∀ rowVals cells, rowCells host colIndices rowVals = .ok cells →
      ∃ cell, cellsFor colIdx cells = [cell] ∧
        (insertedCells host old colIndices rowVals)[colIdx]? = some cell := by
    intro rowVals cells readRow
    obtain ⟨cell, single, stored⟩ := cellsFor_of_covered covers readRow inRange
    obtain ⟨nulls, got⟩ := insertedRow_eq_ok readRow within
    refine ⟨cell, single, ?_⟩
    rw [insertedCells, got]
    exact stored
  have added : (cellsFor colIdx rows.flatten).map some =
      values.map (fun rowVals => (insertedCells host old colIndices rowVals)[colIdx]?) := by
    have related := mapM_eq_ok_iff.mp read
    clear rowsAdded read columns
    induction related with
    | nil => rfl
    | cons readRow _ ih =>
      obtain ⟨cell, single, stored⟩ := oneRow _ _ readRow
      rw [map_cons, ← ih, stored, flatten_cons, cellsFor, filterMap_append]
      exact congrArg (map some <| · ++ _) single
  refine ⟨cellsFor colIdx rows.flatten, ?_, ?_, ?_⟩
  · rw [columns, held]
    rfl
  · simpa using congrArg List.length added
  · intro k rowVals given
    have atRow := congrArg (fun cells => cells[k]?) added
    simp only [getElem?_map, given] at atRow
    obtain ⟨cell, isCell, same⟩ := map_eq_some_iff.mp atRow
    rw [isCell, same]

variable (inserted : Inserted host xmin colIndices values old new)

include inserted

variable {k : Nat} {rowVals : List String}

theorem Inserted.insertedCells_length (covers : colIndices.Perm (range old.columns.length))
    (given : values[k]? = some rowVals) :
    (insertedCells host old colIndices rowVals).length = old.columns.length := by
  obtain ⟨rows, read, -⟩ := inserted.cells
  have readRow := mapM_ok_getElem? read k
  rw [given, map_some, eq_comm, map_eq_some_iff] at readRow
  obtain ⟨cells, -, readCells⟩ := readRow
  have within : ∀ listed ∈ colIndices, listed < old.columns.length :=
    fun listed mem => mem_range.mp (covers.mem_iff.mp mem)
  obtain ⟨nulls, got⟩ := insertedRow_eq_ok readCells.symm within
  rw [insertedCells, got]
  exact (length_foldl_set _).trans length_replicate

theorem Inserted.rectangular (covers : colIndices.Perm (range old.columns.length))
    (rectangular : Rectangular old) : Rectangular new where
  named := by
    rw [inserted.rowsAdded.columns_length, inserted.sameColumnNames]
    exact rectangular.named
  filled := by
    intro column mem
    obtain ⟨colIdx, atColumn⟩ := mem_iff_getElem?.mp mem
    have inRange : colIdx < old.columns.length := by
      rw [← inserted.rowsAdded.columns_length]
      exact (List.getElem?_eq_some_iff.mp atColumn).1
    have present := getElem?_eq_getElem inRange
    obtain ⟨added, isNew, count, -⟩ := inserted.rowsAdded.column_eq covers present
    cases isNew.symm.trans atColumn
    rw [length_append, count, inserted.count, rectangular.filled _ (getElem_mem inRange)]

theorem Inserted.cellOf_old {row : Nat} {cell : Cell} (held : old.cellOf colIdx row = some cell) :
    new.cellOf colIdx row = some cell := by
  obtain ⟨rows, -, columns⟩ := inserted.cells
  unfold Table.cellOf at held ⊢
  obtain ⟨column, found, inColumn⟩ := bind_eq_some_iff.mp held
  have inRange := (List.getElem?_eq_some_iff.mp inColumn).1
  rw [columns, found]
  simp only [map_some, bind_some]
  rw [getElem?_append_left inRange, inColumn]

theorem Inserted.cellOf_new
    (covers : colIndices.Perm (range old.columns.length)) (rectangular : Rectangular old)
    (given : values[k]? = some rowVals) (inRange : colIdx < old.columns.length) :
    new.cellOf colIdx (old.rowCount + k) =
      (insertedCells host old colIndices rowVals)[colIdx]? := by
  have present := getElem?_eq_getElem inRange
  obtain ⟨added, isNew, -, cells⟩ := inserted.rowsAdded.column_eq covers present
  have length := rectangular.filled _ (getElem_mem inRange)
  unfold Table.cellOf
  rw [isNew, bind_some, ← cells k rowVals given, getElem?_append_right (by omega)]
  congr 1
  omega

end

/-! ## The statement in the engine -/

section

variable {host : Host} {ins : Insert} {txnId : Option Nat}
  {engine next : QueryEngine}

def SameTables (old new : QueryEngine) : Prop := EngineMoves (fun _ => True) (fun _ => Eq) old new

theorem sameTables_refl (engine : QueryEngine) : SameTables engine engine :=
  .of_sameCatalog rfl rfl rfl rfl rfl fun _ _ => rfl

theorem throws_withTemporal (name : String) (change : Nat → TemporalTable → TemporalTable) :
    Throws (fun _ => False) (withTemporal host name change) := by
  refine .bind .get fun cur => ?_
  split
  · exact .pure _
  · refine .bind ?_ fun now => .modify _
    exact .bind .get fun _ =>
        .bind (.set _) fun _ => .pure _

theorem SameTables.lookup_eq (same : SameTables engine next) (name : String) :
    next.catalog.lookup name = engine.catalog.lookup name := by
  cases held : engine.catalog.lookup name with
  | none => exact same.absent name held
  | some table =>
    obtain ⟨changed, found, rfl⟩ := same.tables name table held
    exact found

variable {name : String} {res : QueryResult}

theorem withMut_eq_ok {α : Type} {closure : TableM α}
    {value : α} (ran : withMut name closure engine = .ok value next) :
    ∃ table changed, engine.catalog.lookup name = some table ∧
      closure table = .ok value changed ∧
      next = { engine with catalog := engine.catalog.insert name changed } := by
  unfold withMut at ran
  split at ran
  · cases ran
  · next table held =>
    split at ran
    · next returned changed out =>
      cases ran
      exact ⟨table, changed, held, out, rfl⟩
    · cases ran

theorem sameTables_forM_withTemporal {α : Type} {items : List α}
    {change : α → Nat → TemporalTable → TemporalTable}
    (ran : items.forM (fun item => withTemporal host name (change item)) engine = .ok () next) :
    SameTables engine next := by
  have moves : Moves (EngineMoves (fun _ => True) (fun _ => Eq)) engine
      (items.forM (fun item => withTemporal host name (change item))) :=
    .forM fun _ _ _ _ => .withTemporal host _ (.inl trivial)
  exact moves.reached ran

structure InsertReturned (host : Host) (engine : QueryEngine) (ins : Insert)
    (txnId : Option Nat) (table changed : Table) (colIndices : List Nat) :
    Prop where
  present : engine.catalog.lookup ins.table = some table
  foreignKeys : checkInsertForeignKeys host engine.catalog table ins = .ok ()
  columns : insertColumns table ins.columns = .ok colIndices
  checked : checkInsertedRows host table colIndices ins.values = .ok ()
  applied : ∃ added, applyInsert host engine.mvccEnabled (txnId.getD 0) colIndices
    ins.values table = .ok added changed

theorem executeInsert_returned (ran : executeInsert host ins txnId engine = .ok res next) :
    ∃ table changed colIndices, InsertReturned host engine ins txnId table changed colIndices ∧
      SameTables
        { engine with
          catalog := engine.catalog.insert ins.table changed }
        next := by
  obtain ⟨table, _, found, checking⟩ := bind_eq_ok_iff.mp ran
  obtain ⟨same, held⟩ := requireTable_eq_ok found
  rw [same, get_bind_run] at checking
  obtain ⟨_, foreignKeys, changing⟩ := ofExcept_bind_eq_ok_iff.mp checking
  rw [get_bind_run] at changing
  obtain ⟨rows, middle, changes, logging⟩ := bind_eq_ok_iff.mp changing
  obtain ⟨_, changed, lookup, closure, rfl⟩ := withMut_eq_ok changes
  cases held.symm.trans lookup
  obtain ⟨colIndices, columns, closure⟩ := ofExcept_bind_eq_ok_iff.mp closure
  obtain ⟨_, -, closure⟩ := ofExcept_bind_eq_ok_iff.mp closure
  obtain ⟨_, checked, closure⟩ := ofExcept_bind_eq_ok_iff.mp closure
  obtain ⟨_, logged, loop, final⟩ := bind_eq_ok_iff.mp logging
  cases final
  refine ⟨table, changed, colIndices, ?_, sameTables_forM_withTemporal loop⟩
  exact ⟨held, foreignKeys, columns, checked, rows, closure⟩

theorem executeInsert_ok (mode : engine.mvccEnabled = true)
    (ran : executeInsert host ins txnId engine = .ok res next) :
    ∃ table changed colIndices, engine.catalog.lookup ins.table = some table ∧
      insertColumns table ins.columns = .ok colIndices ∧
      Inserted host (txnId.getD 0) colIndices ins.values table changed ∧
      SameTables
        { engine with
          catalog := engine.catalog.insert ins.table changed }
        next := by
  obtain ⟨table, changed, colIndices, insertion, same⟩ := executeInsert_returned ran
  obtain ⟨added, applied⟩ := insertion.applied
  rw [mode] at applied
  exact ⟨table, changed, colIndices, insertion.present, insertion.columns,
    inserted_of_applyInsert applied, same⟩

theorem errorKeeps_executeInsert {rel : String → Table → Table → Prop}
    [∀ name, IsPreorder Table (rel name)] (ins : Insert) :
    ErrorKeeps (EngineMoves (fun _ => True) rel) (executeInsert host ins txnId) engine := by
  refine .bind (.requireTable _) fun _ _ _ => ?_
  refine .get_bind (.bind (.ofExcept _) fun _ _ _ => ?_)
  refine .get_bind (.bind_throws (.withMut fun table _ => ?_) fun _ => ?_)
  · exact errorKeeps_insertRows _ _ _ _ table
  refine .bind (.forM fun _ _ => ?_) fun _ => .pure _
  intro state fault next failed
  exact (throws_withTemporal _ _ state fault next failed).elim

end

end TurboGP.Engine
