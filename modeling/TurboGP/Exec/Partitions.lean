import TurboGP.Engine.State

/-!
# Window partitions

`partition_rows` of `exec/window.rs`.  The cells of the PARTITION BY columns are
folded into one word, and the word is the key of the row's group.
-/

namespace TurboGP.Exec

open Engine Txn List

def rotateLeft (key : UInt64) (count : Nat) : UInt64 :=
  .ofBitVec (key.toBitVec.rotateLeft count)

def findColIdx (result : QueryResult) (name : String) : Option Nat :=
  result.columns.findIdx? (fun column => column.name == name)

def namedCell (result : QueryResult) (name : String) (row : Nat) : Option Cell := do
  let idx ← findColIdx result name
  let column ← result.columns[idx]?
  column.values[row]?

def foldCells (key : UInt64) (cells : List Cell) : UInt64 :=
  cells.foldl (fun key val => rotateLeft key 13 ^^^ val) key

def cellsOf (result : QueryResult) (names : List String) (row : Nat) : List (Option Cell) :=
  names.map (namedCell result · row)

/-- The key of a row; a cell that is missing counts as 0. -/
def partitionKey (result : QueryResult) (partitionBy : List String) (row : Nat) : UInt64 :=
  foldCells 0 ((cellsOf result partitionBy row).map (·.getD 0))

abbrev Groups := Finmap (fun _ : UInt64 => List Nat)

def pushRow (groups : Groups) (key : UInt64) (row : Nat) : Groups :=
  groups.insert key ((groups.lookup key).getD [] ++ [row])

def partitionRows (result : QueryResult) (partitionBy : List String) : Groups :=
  if partitionBy.isEmpty then Finmap.singleton 0 (range result.rowCount)
  else
    (range result.rowCount).foldl
      (fun groups row => pushRow groups (partitionKey result partitionBy row) row) ∅

def Groups.rows (groups : Groups) (key : UInt64) : List Nat := (groups.lookup key).getD []

theorem rows_foldl_pushRow (keyOf : Nat → UInt64) (rows : List Nat) (groups : Groups)
    (key : UInt64) :
    (rows.foldl (fun groups row => pushRow groups (keyOf row) row) groups).rows key =
      groups.rows key ++ rows.filter (fun row => keyOf row == key) := by
  induction rows generalizing groups with
  | nil => simp
  | cons row rows ih =>
    rw [foldl_cons, ih, filter_cons]
    by_cases same : keyOf row = key
    · subst same
      simp [Groups.rows, pushRow]
    · simp [Groups.rows, pushRow, same, Finmap.lookup_insert_of_ne _ (Ne.symm same)]

section

variable (result : QueryResult) (partitionBy : List String)

theorem rows_partitionRows (key : UInt64) :
    (partitionRows result partitionBy).rows key =
      (range result.rowCount).filter (fun row => partitionKey result partitionBy row == key) := by
  unfold partitionRows
  split
  · rename_i empty
    rw [isEmpty_iff.mp empty]
    by_cases zero : key = 0
    · subst zero
      simp [Groups.rows, partitionKey, cellsOf, foldCells]
    · simp [Groups.rows, partitionKey, cellsOf, foldCells, Ne.symm zero,
        Finmap.lookup_eq_none.mpr, zero]
  · simpa [Groups.rows] using rows_foldl_pushRow (partitionKey result partitionBy) _ ∅ key

theorem mem_rows_partitionRows (key : UInt64) (row : Nat) :
    row ∈ (partitionRows result partitionBy).rows key ↔
      row < result.rowCount ∧ partitionKey result partitionBy row = key := by
  simp [rows_partitionRows]

/-- Rows with equal cells, and no others, share a group; each row is in one
group, and the rows of a group ascend. -/
structure Groups.AreClasses (groups : Groups) : Prop where
  same : ∀ a < result.rowCount, ∀ b < result.rowCount,
    (∃ key, a ∈ groups.rows key ∧ b ∈ groups.rows key) ↔
      cellsOf result partitionBy a = cellsOf result partitionBy b
  once : ∀ row < result.rowCount, ∃! key, row ∈ groups.rows key
  ascending : ∀ key, (groups.rows key).Pairwise (· < ·)

def cellChanges (a b : Nat) : List Cell :=
  zipWith (fun left right => left.getD 0 ^^^ right.getD 0)
    (cellsOf result partitionBy a) (cellsOf result partitionBy b)

/-- Where the cells of two rows differ, the changes do not cancel out when they
are folded. -/
def ChangesShow : Prop :=
  ∀ a < result.rowCount, ∀ b < result.rowCount,
    cellsOf result partitionBy a ≠ cellsOf result partitionBy b →
      foldCells 0 (cellChanges result partitionBy a b) ≠ 0

theorem rotateLeft_xor (left right : UInt64) (count : Nat) :
    rotateLeft (left ^^^ right) count = rotateLeft left count ^^^ rotateLeft right count := by
  apply UInt64.toBitVec_inj.mp
  simp only [rotateLeft, UInt64.toBitVec_xor, BitVec.rotateLeft_def]
  ext i
  simp
  grind

theorem foldCells_xor (left right : UInt64) (names : List String) (a b : Nat) :
    foldCells (left ^^^ right) (cellChanges result names a b) =
      foldCells left ((cellsOf result names a).map (·.getD 0)) ^^^
        foldCells right ((cellsOf result names b).map (·.getD 0)) := by
  induction names generalizing left right with
  | nil => rfl
  | cons name names ih =>
    have step := ih (rotateLeft left 13 ^^^ (namedCell result name a).getD 0)
      (rotateLeft right 13 ^^^ (namedCell result name b).getD 0)
    simp only [foldCells, cellChanges, cellsOf, map_cons, zipWith_cons_cons, foldl_cons,
      rotateLeft_xor] at step ⊢
    rw [← step]
    congr 1
    ac_rfl

theorem partitionKey_eq_iff (a b : Nat) :
    partitionKey result partitionBy a = partitionKey result partitionBy b ↔
      foldCells 0 (cellChanges result partitionBy a b) = 0 := by
  have folded := foldCells_xor result 0 0 partitionBy a b
  rw [UInt64.xor_self] at folded
  rw [folded, UInt64.xor_eq_zero_iff]
  rfl

/-- The partitions are the classes of equal keys if and only if no difference of
two rows is cancelled by the folding of the key. -/
theorem partitionRows_areClasses_iff :
    (partitionRows result partitionBy).AreClasses result partitionBy ↔
      ChangesShow result partitionBy := by
  constructor
  · intro classes a inA b inB differ cancel
    apply differ
    rw [← classes.same a inA b inB]
    simp only [mem_rows_partitionRows]
    exact ⟨_, ⟨inA, rfl⟩, inB, ((partitionKey_eq_iff ..).mpr cancel).symm⟩
  · intro shows
    refine ⟨fun a inA b inB => ?_, fun row inside => ?_, fun key => ?_⟩
    · have keys := partitionKey_eq_iff result partitionBy a b
      simp only [mem_rows_partitionRows]
      constructor
      · intro ⟨key, left, right⟩
        by_contra differ
        exact shows a inA b inB differ (keys.mp (left.2.trans right.2.symm))
      · intro equal
        refine ⟨_, ⟨inA, rfl⟩, inB, ?_⟩
        rw [partitionKey, ← equal, partitionKey]
    · simp [mem_rows_partitionRows, inside]
    · rw [rows_partitionRows]
      exact pairwise_lt_range.filter _

end

/-- Two rows whose cells are 1, 0 and 0, 2 ^ 13. -/
def collidingResult : QueryResult :=
  ⟨[⟨"a", [1, 0], none, 20, none⟩, ⟨"b", [0, 8192], none, 20, none⟩], 2⟩

/-- Rows with different cells get into one group. -/
theorem partitionRows_joins_rows :
    ¬ (partitionRows collidingResult ["a", "b"]).AreClasses collidingResult ["a", "b"] := by
  intro classes
  have keys : partitionKey collidingResult ["a", "b"] 1 =
      partitionKey collidingResult ["a", "b"] 0 := by decide
  have same := (classes.same 0 (by decide) 1 (by decide)).mp
    ⟨_, (mem_rows_partitionRows ..).mpr ⟨by decide, rfl⟩,
      (mem_rows_partitionRows ..).mpr ⟨by decide, keys⟩⟩
  revert same
  decide

end TurboGP.Exec
