import TurboGP.Storage.BinaryCheckpoint

/-!
# The file of a binary checkpoint

`save` and `load` of `storage/checkpoint.rs` on tables whose string sidecars
own their strings or are views into another column; a view comes back as a
column of its own.
-/

namespace TurboGP.Storage

open Datasource Txn Finmap List

/-- `StringSearchColumn`, without the buffer that LIKE scans. -/
inductive StringSearchColumn
  | owned (strings : List String)
  | view (source : StringSearchColumn) (indices : List UInt32)

namespace StringSearchColumn

def new (strings : List String) : StringSearchColumn := .owned strings

def newRemap (source : StringSearchColumn) (indices : List UInt32) : StringSearchColumn :=
  .view source indices

def len : StringSearchColumn → Nat
  | .owned strings => strings.length
  | .view _ indices => indices.length

/-- The string of a row; the empty one past the end. -/
def get : StringSearchColumn → Nat → String
  | .owned strings, row => strings[row]?.getD ""
  | .view source indices, row =>
    match indices[row]? with
    | some sourceRow => source.get sourceRow.toNat
    | none => ""

def rows (column : StringSearchColumn) : List String := (range column.len).map column.get

theorem get_past_end {column : StringSearchColumn} {row : Nat} (past : column.len ≤ row) :
    column.get row = "" := by
  cases column with
  | owned strings =>
    unfold get
    rw [getElem?_eq_none past]
    rfl
  | view source indices =>
    unfold get
    rw [getElem?_eq_none past]

theorem rows_new (strings : List String) : (new strings).rows = strings := by
  refine ext_getElem? fun row => ?_
  unfold rows
  rw [getElem?_map]
  by_cases inside : row < strings.length
  · rw [getElem?_range (show row < (new strings).len from inside)]
    show some (strings[row]?.getD "") = strings[row]?
    rw [getElem?_eq_getElem inside]
    rfl
  · have past : strings.length ≤ row := Nat.le_of_not_lt inside
    have noRow : (range (new strings).len)[row]? = none :=
      getElem?_eq_none (by rw [length_range]; exact past)
    rw [noRow, getElem?_eq_none past]
    rfl

theorem get_new_rows (column : StringSearchColumn) (row : Nat) :
    (new column.rows).get row = column.get row := by
  by_cases inside : row < column.len
  · show column.rows[row]?.getD "" = column.get row
    unfold rows
    rw [getElem?_map, getElem?_range inside]
    rfl
  · have past : column.len ≤ row := Nat.le_of_not_lt inside
    rw [get_past_end past]
    refine get_past_end ?_
    show column.rows.length ≤ row
    unfold rows
    rw [length_map, length_range]
    exact past

end StringSearchColumn

/-- A table beside its string sidecars; their strings are those of the
table. -/
structure SearchTable where
  table : Table
  sidecars : List (Option StringSearchColumn)
  shows : table.stringColumns = sidecars.map (Option.map StringSearchColumn.rows)

def SearchTable.serialize (table : SearchTable) : SerializedTable :=
  { serializeTable table.table with
    stringColumns := table.sidecars.map (Option.map StringSearchColumn.rows) }

theorem SearchTable.serialize_eq (table : SearchTable) :
    table.serialize = serializeTable table.table := by
  unfold SearchTable.serialize
  rw [← table.shows]
  rfl

def SearchTable.deserialize (saved : SerializedTable) : SearchTable where
  table := deserializeTable saved
  sidecars := saved.stringColumns.map (Option.map StringSearchColumn.new)
  shows := by
    show saved.stringColumns = _
    rw [map_map]
    refine ((map_congr_left ?_).trans (map_id _)).symm
    intro strings _
    cases strings with
    | none => rfl
    | some strings => exact congrArg some (StringSearchColumn.rows_new strings)

structure SameContent (first second : SearchTable) : Prop where
  name : second.table.name = first.table.name
  columnNames : second.table.columnNames = first.table.columnNames
  rowCount : second.table.rowCount = first.table.rowCount
  cells : second.table.columns = first.table.columns
  nullBitmaps : second.table.nullBitmaps = first.table.nullBitmaps
  strings : ∀ colIdx row : Nat, second.sidecars[colIdx]?.map (Option.map (·.get row)) =
    first.sidecars[colIdx]?.map (Option.map (·.get row))
  rowVersions : second.table.rowVersions = first.table.rowVersions

def SearchTable.restored (table : SearchTable) : SearchTable := .deserialize table.serialize

theorem SearchTable.sameContent_restored (table : SearchTable) :
    SameContent table table.restored := by
  have isRestored : table.restored.table = deserializeTable (serializeTable table.table) := by
    unfold SearchTable.restored
    rw [table.serialize_eq]
    rfl
  rw [deserializeTable_serializeTable] at isRestored
  constructor
  · rw [isRestored]
  · rw [isRestored]
  · rw [isRestored]
  · rw [isRestored]
  · rw [isRestored]
  · intro colIdx row
    show ((table.sidecars.map _).map _)[colIdx]?.map _ = _
    rw [getElem?_map, getElem?_map]
    cases table.sidecars[colIdx]? with
    | none => rfl
    | some sidecar =>
      cases sidecar with
      | none => rfl
      | some column => exact congrArg (fun text => some (some text)) (column.get_new_rows row)
  · rw [isRestored]

abbrev SearchCatalog := Finmap (fun _ : String => SearchTable)

section

variable {β : Type} (bincode : Bincode β)

/-- What `save` writes; `names` are the names in the order in which the hash
map gives them. -/
def saveCheckpoint (names : List String) (catalog : SearchCatalog) : β :=
  bincode.serialize
    (((names.filter (· != "__dummy__")).filterMap catalog.lookup).map SearchTable.serialize)

def registerLoaded (tables : List SerializedTable) : SearchCatalog :=
  tables.foldl
    (fun catalog saved =>
      let table := SearchTable.deserialize saved
      catalog.insert table.table.name table)
    ∅

/-- What `load` makes of the bytes of the file. -/
def readCheckpoint (bytes : β) : Option SearchCatalog :=
  (bincode.deserialize bytes).map registerLoaded

end

section

variable {β : Type} {bincode : Bincode β} {names : List String}
  {catalog : SearchCatalog}

theorem readCheckpoint_saveCheckpoint
    (named : ∀ name table, catalog.lookup name = some table → table.table.name = name)
    (listed : ∀ name, name ∈ names ↔ name ∈ catalog) :
    ∃ loaded, readCheckpoint bincode (saveCheckpoint bincode names catalog) = some loaded ∧
      ∀ name, loaded.lookup name =
        if name = "__dummy__" then none
        else (catalog.lookup name).map SearchTable.restored := by
  unfold readCheckpoint saveCheckpoint
  rw [bincode.roundTrip]
  refine ⟨_, rfl, fun name => ?_⟩
  unfold registerLoaded
  rw [foldl_map, foldl_filterMap]
  have keyed : ∀ name table, catalog.lookup name = some table → table.restored.table.name = name :=
    fun name table held => table.sameContent_restored.name.trans (named name table held)
  have loaded := @FiniteMap.lookup_foldl_insert _ _ _ _ catalog SearchTable.restored
      (fun table => table.table.name) keyed (names.filter (· != "__dummy__")) ∅ name
  refine Eq.trans ?_ (loaded.trans ?_)
  · congr 2
  · simp only [mem_filter, listed, bne_iff_ne]
    by_cases isDummy : name = "__dummy__"
    · rw [if_pos isDummy, if_neg fun both => both.1.2 isDummy]
      exact lookup_empty name
    · rw [if_neg isDummy]
      by_cases held : name ∈ catalog
      · rw [if_pos ⟨⟨held, isDummy⟩, held⟩]
      · rw [if_neg fun both => held both.2, lookup_eq_none.mpr held]
        exact lookup_empty name

end

/-- Except for the table of queries without FROM, the file gives back the tables,
each with the same content. -/
theorem checkpoint_file_round_trip {β : Type} {bincode : Bincode β} {names : List String}
    {catalog : SearchCatalog}
    (named : ∀ name table, catalog.lookup name = some table → table.table.name = name)
    (listed : ∀ name, name ∈ names ↔ name ∈ catalog) :
    ∃ loaded, readCheckpoint bincode (saveCheckpoint bincode names catalog) = some loaded ∧
      "__dummy__" ∉ loaded ∧ (∀ name, name ≠ "__dummy__" → (name ∈ loaded ↔ name ∈ catalog)) ∧
      ∀ name table, name ≠ "__dummy__" →
        catalog.lookup name = some table →
        ∃ restored, loaded.lookup name = some restored ∧ SameContent table restored := by
  obtain ⟨loaded, isRead, found⟩ :=
    @readCheckpoint_saveCheckpoint β bincode names catalog named listed
  refine ⟨loaded, isRead, ?_, ?_, ?_⟩
  · rw [← lookup_eq_none, found, if_pos rfl]
  · intro name notDummy
    rw [← lookup_isSome, ← lookup_isSome, found, if_neg notDummy, Option.isSome_map]
  · intro name table notDummy held
    refine ⟨table.restored, ?_, table.sameContent_restored⟩
    rw [found, if_neg notDummy, held]
    rfl

namespace Example

def tableBytes : Bincode (List SerializedTable) :=
  { serialize := id, deserialize := some, roundTrip := fun _ => rfl }

/-- A view that shows the rows of a column in another order, one of them
twice. -/
def shuffled : StringSearchColumn := .newRemap (.new ["a", "b"]) [1, 0, 1]

def shuffledTable (name : String) : SearchTable where
  table :=
    { name := name
      columns := [[12, 0, 12]]
      columnNames := ["s"]
      rowCount := 3
      stringColumns := [some ["b", "a", "b"]]
      nullBitmaps := [some { bits := [false, true, false] }]
      schema := none
      rowVersions := []
      i32Columns := [none] }
  sidecars := [some shuffled]
  shows := rfl

/-- The view is read back as a column of its own. -/
theorem view_round_trip : ∃ loaded restored, readCheckpoint tableBytes
      (saveCheckpoint tableBytes ["t"] ((∅ : SearchCatalog).insert "t" (shuffledTable "t"))) =
    some loaded ∧
    loaded.lookup "t" = some restored ∧ SameContent (shuffledTable "t") restored := by
  have named : ∀ name table,
      ((∅ : SearchCatalog).insert "t" (shuffledTable "t")).lookup name = some table →
      table.table.name = name := by
    intro name table held
    rw [FiniteMap.lookup_insert_eq] at held
    split at held
    · next same =>
      cases held
      exact same.symm
    · cases held
  have listed :
      ∀ name, name ∈ ["t"] ↔ name ∈ (∅ : SearchCatalog).insert "t" (shuffledTable "t") := by
    intro name
    rw [mem_insert, List.mem_singleton]
    exact (or_iff_left notMem_empty).symm
  obtain ⟨loaded, isRead, -, -, content⟩ :=
    @checkpoint_file_round_trip _ tableBytes _ _ named listed
  obtain ⟨restored, held, same⟩ := content "t" (shuffledTable "t") (by decide) rfl
  exact ⟨loaded, restored, isRead, held, same⟩

/-- A table of the name `__dummy__` is not in the file. -/
theorem dummy_not_saved : ∃ loaded,
      readCheckpoint tableBytes (saveCheckpoint tableBytes ["__dummy__"]
              ((∅ : SearchCatalog).insert "__dummy__" (shuffledTable "__dummy__"))) =
          some loaded ∧
        "__dummy__" ∉ loaded :=
  ⟨∅, rfl, notMem_empty⟩

end Example

end TurboGP.Storage
