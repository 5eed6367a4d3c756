import TurboGP.Error
import TurboGP.Sql.Ast
import TurboGP.Txn.Mvcc

/-!
# WHERE clauses on columns

`exec/vectorized.rs`: a WHERE clause is evaluated for all rows at once, as a
mask with one flag for each row.
-/

namespace TurboGP.Exec

open Sql Txn List

/-- `name.split('.').nth(1)`. -/
def secondPart (name : String) : Option String := (name.toList.splitOn '.')[1]?.map String.ofList

/-- The position of a column: by its name, by the name behind a table's name,
or by its number. -/
def resolveName (name : String) (columnNames : List String) : Option Nat :=
  let pos (wanted : String) := columnNames.findIdx? (fun other => other == wanted)
  (pos name).or (((secondPart name).bind pos).or (Text.parseU64 name.toList))

/-- The bytes of a literal such as `0x1F2E`, the first one the lowest. -/
def hexCell (bytes : List UInt8) : Cell :=
  bytes.zipIdx.foldl
    (fun cell entry => cell ||| (entry.1.toUInt64 <<< UInt64.ofNat (8 * entry.2)))
    0

/-- A date is extended to 64 bits with its sign. -/
def dateCell (days : Int32) : Cell := days.toInt64.toUInt64

def valueToU64 (xxh3 : List Char → Cell) : Value → Option Cell
  | .int n => some n.toUInt64
  | .float bits => some bits
  | .string s =>
    match Text.parseU64 s.toList with
    | some n => some (UInt64.ofNat n)
    | none =>
      match Text.parseI64 s.toList with
      | some n => some (Int64.ofInt n).toUInt64
      | none => some (xxh3 s.toList)
  | .hex bytes => some (hexCell bytes)
  | .date days => some (dateCell days)
  | .null => none

def comparison : BinOp → Option (Cell → Cell → Bool)
  | .eq => some (fun cell value => cell == value)
  | .notEq => some (fun cell value => cell != value)
  | .lt => some (fun cell value => decide (cell < value))
  | .gt => some (fun cell value => decide (value < cell))
  | .ltEq => some (fun cell value => decide (cell ≤ value))
  | .gtEq => some (fun cell value => decide (value ≤ cell))
  | _ => none

def columnAndLiteral : Expr → Expr → Option (String × Value)
  | .column name, .literal value => some (name, value)
  | .literal value, .column name => some (name, value)
  | _, _ => none

def columnAndString : Expr → Expr → Option (String × String)
  | .column name, .literal (.string s) => some (name, s)
  | .literal (.string s), .column name => some (name, s)
  | _, _ => none

/-- `filter_eq` and its relatives: the flags of the cells that a column has
are set, the others stay. -/
def filterColumn (test : Cell → Bool) (column : List Cell)
    (mask : List Bool) : Except Fault (List Bool) :=
  if column.length ≤ mask.length then
    .ok (column.map test ++ mask.drop column.length)
  else .error .panic

section

variable (column : List Cell) (value : Cell)

def filterEq := filterColumn (fun cell => cell == value) column

def filterNe := filterColumn (fun cell => cell != value) column

def filterLt := filterColumn (fun cell => decide (cell < value)) column

def filterGt := filterColumn (fun cell => decide (cell > value)) column

def filterLe := filterColumn (fun cell => decide (cell ≤ value)) column

def filterGe := filterColumn (fun cell => decide (cell ≥ value)) column

def filterEqBitmap : List Bool := column.map (fun cell => cell == value)

def filterNeBitmap : List Bool := column.map (fun cell => cell != value)

def filterLtBitmap : List Bool := column.map (fun cell => decide (cell < value))

def filterGtBitmap : List Bool := column.map (fun cell => decide (cell > value))

def filterLeBitmap : List Bool := column.map (fun cell => decide (cell ≤ value))

def filterGeBitmap : List Bool := column.map (fun cell => decide (cell ≥ value))

end

def andMask (left right : List Bool) : List Bool :=
  zipWith (fun first second => first && second) left right

def orMask (left right : List Bool) : List Bool :=
  zipWith (fun first second => first || second) left right

def literalCells (xxh3 : List Char → Cell) (items : List Expr) : List Cell :=
  items.filterMap
    (fun item => match item with
      | .literal value => valueToU64 xxh3 value
      | _ => none)

def literalCell (xxh3 : List Char → Cell) : Expr → Option Cell
  | .literal value => valueToU64 xxh3 value
  | _ => none

section

variable (xxh3 : List Char → Cell)

def likeTest (pattern : String) (cell : Cell) : Bool :=
  pattern == "%" || cell == xxh3 pattern.toList

section

variable (columns : List (List Cell)) (columnNames : List String)
  (rowCount : Nat)

/-- `col IN (..)`: the flags of the rows that have one of the values. -/
def memberMask (column : List Cell) (values : List Cell) : Except Fault (List Bool) :=
  values.foldlM
    (fun member value => do
      let equal ← filterEq column value (replicate rowCount true)
      return orMask member equal)
    (replicate rowCount false)

/-- `col BETWEEN low AND high`, or its negation. -/
def betweenMask (column : List Cell) (low high : Cell) (negated : Bool) :
    Except Fault (List Bool) := do
  let all := replicate rowCount true
  if negated then
    let below ← filterLt column low all
    let above ← filterGt column high all
    return orMask below above
  else
    let atLeast ← filterGe column low all
    let atMost ← filterLe column high all
    return andMask atLeast atMost

def evalWhere : Expr → List Bool → Except Fault (List Bool)
  | .binary left .and right, mask => do
    let leftMask ← evalWhere left mask
    let rightMask ← evalWhere right (replicate rowCount true)
    return andMask leftMask rightMask
  | .binary left .or right, _ => do
    let leftMask ← evalWhere left (replicate rowCount true)
    let rightMask ← evalWhere right (replicate rowCount true)
    return orMask leftMask rightMask
  | .binary left op right, mask =>
    match columnAndLiteral left right with
    | none => return mask
    | some (name, value) =>
      match resolveName name columnNames, valueToU64 xxh3 value with
      | some colIdx, some cell => do
        let column ← index columns colIdx
        match op with
        | .eq => filterEq column cell mask
        | .notEq => filterNe column cell mask
        | .lt => filterLt column cell mask
        | .gt => filterGt column cell mask
        | .ltEq => filterLe column cell mask
        | .gtEq => filterGe column cell mask
        | _ => return mask
      | _, _ => return mask
  | .inList (.column name) list negated, mask =>
    match resolveName name columnNames with
    | none => return mask
    | some colIdx => do
      let column ← index columns colIdx
      let member ← memberMask rowCount column (literalCells xxh3 list)
      return andMask mask (if negated then member.map (fun flag => !flag) else member)
  | .between (.column name) low high negated, mask =>
    match
      resolveName name columnNames, literalCell xxh3 low,
        literalCell xxh3 high with
    | some colIdx, some lowCell, some highCell => do
      let column ← index columns colIdx
      betweenMask rowCount column lowCell highCell negated
    | _, _, _ => return mask
  | .like expr pattern negated, mask =>
    match columnAndString expr pattern with
    | none => return mask
    | some (name, text) =>
      match resolveName name columnNames with
      | none => return mask
      | some colIdx => do
        let column ← index columns colIdx
        let matched ← filterColumn (likeTest xxh3 text) column mask
        return if negated then matched.map (fun flag => !flag) else matched
  | _, mask => return mask

def filterRows (whereExpr : Expr) : Except Fault (List Nat) := do
  let mask ← evalWhere xxh3 columns columnNames rowCount whereExpr (replicate rowCount true)
  return (range rowCount).filter (fun i => mask[i]?.getD false)

end

section

variable {α : Type} (cells : List (α → Cell)) (columnNames : List String)

/-- What an item must satisfy, when an item before it satisfies `keeps`. -/
def whereTest : Expr → (α → Bool) → Except Fault (α → Bool)
  | .binary left .and right, keeps => do
    let leftTest ← whereTest left keeps
    let rightTest ← whereTest right (fun _ => true)
    return fun item => leftTest item && rightTest item
  | .binary left .or right, _ => do
    let leftTest ← whereTest left (fun _ => true)
    let rightTest ← whereTest right (fun _ => true)
    return fun item => leftTest item || rightTest item
  | .binary left op right, keeps =>
    match columnAndLiteral left right with
    | none => return keeps
    | some (name, value) =>
      match resolveName name columnNames, valueToU64 xxh3 value with
      | some colIdx, some cell => do
        let cellOf ← index cells colIdx
        match comparison op with
        | some compare => return fun item => compare (cellOf item) cell
        | none => return keeps
      | _, _ => return keeps
  | .inList (.column name) list negated, keeps =>
    match resolveName name columnNames with
    | none => return keeps
    | some colIdx => do
      let cellOf ← index cells colIdx
      let member (item : α) : Bool :=
        (literalCells xxh3 list).any (fun value => cellOf item == value)
      return fun item =>
        keeps item && (if negated then !member item else member item)
  | .between (.column name) low high negated, keeps =>
    match
      resolveName name columnNames, literalCell xxh3 low,
        literalCell xxh3 high with
    | some colIdx, some lowCell, some highCell => do
      let cellOf ← index cells colIdx
      return fun item =>
        if negated then
          decide (cellOf item < lowCell) ||
            decide (highCell < cellOf item)
        else
          decide (lowCell ≤ cellOf item) && decide (cellOf item ≤ highCell)
    | _, _, _ => return keeps
  | .like expr pattern negated, keeps =>
    match columnAndString expr pattern with
    | none => return keeps
    | some (name, text) =>
      match resolveName name columnNames with
      | none => return keeps
      | some colIdx => do
        let cellOf ← index cells colIdx
        return fun item =>
          if negated then !likeTest xxh3 text (cellOf item)
          else likeTest xxh3 text (cellOf item)
  | _, keeps => return keeps

variable {cells columnNames} (items : List α)

theorem index_map {β γ : Type*} (f : β → γ) (xs : List β) (i : Nat) :
    index (xs.map f) i = (index xs i).map f := by
  unfold index
  rw [getElem?_map]
  cases xs[i]? <;> rfl

theorem andMask_map (first second : α → Bool) : andMask (items.map first) (items.map second) =
      items.map (fun item => first item && second item) := by
  unfold andMask
  rw [zipWith_map, zipWith_self]

theorem orMask_map (first second : α → Bool) : orMask (items.map first) (items.map second) =
      items.map (fun item => first item || second item) := by
  unfold orMask
  rw [zipWith_map, zipWith_self]

theorem replicate_eq_map (flag : Bool) :
    replicate items.length flag = items.map (fun _ => flag) :=
  map_const'.symm

theorem filterColumn_map (test : Cell → Bool) (cell : α → Cell) (keeps : α → Bool) :
    filterColumn test (items.map cell) (items.map keeps) =
      .ok (items.map (fun item => test (cell item))) := by
  unfold filterColumn
  rw [length_map, length_map, if_pos (Nat.le_refl _),
    drop_of_length_le (by rw [length_map]), append_nil, map_map]
  rfl

theorem memberMask_map (cell : α → Cell) (values : List Cell) :
    memberMask items.length (items.map cell) values =
      .ok (items.map (fun item => values.any (fun value => cell item == value))) := by
  have rounds (found : α → Bool) : values.foldlM
        (fun mem value => (.ok (orMask mem (items.map (fun item => cell item == value))) :
            Except Fault (List Bool)))
        (items.map found) =
      .ok (items.map (fun item => found item || values.any (fun value => cell item == value))) := by
    induction values generalizing found with
    | nil => simp [pure, Except.pure]
    | cons value rest round =>
      simp only [foldlM_cons, orMask_map, bind, Except.bind, any_cons]
      rw [round]
      simp only [Bool.or_assoc]
  unfold memberMask
  simp only [replicate_eq_map, filterEq, filterColumn_map, bind, Except.bind, pure, Except.pure]
  rw [rounds]
  simp only [Bool.false_or]

theorem betweenMask_map (cell : α → Cell) (low high : Cell) (negated : Bool) :
    betweenMask items.length (items.map cell) low high negated = .ok (items.map (fun item =>
            if negated then
              decide (cell item < low) || decide (high < cell item)
            else decide (low ≤ cell item) && decide (cell item ≤ high))) := by
  unfold betweenMask
  rw [replicate_eq_map]
  cases negated with
  | true =>
    simp only [if_true, filterLt, filterGt, filterColumn_map, bind, Except.bind, pure, Except.pure,
      orMask_map, gt_iff_lt]
  | false =>
    simp only [Bool.false_eq_true, if_false, filterGe, filterLe, filterColumn_map, bind,
      Except.bind, pure, Except.pure, andMask_map, ge_iff_le]

theorem evalWhere_map (expr : Expr) (keeps : α → Bool) :
    evalWhere xxh3 (cells.map (fun cell => items.map cell)) columnNames
        items.length expr (items.map keeps) =
      (whereTest xxh3 cells columnNames expr keeps).map (fun test => items.map test) := by
  fun_induction whereTest xxh3 cells columnNames expr keeps with
  | case1 left right keeps leftMask rightMask =>
    rw [evalWhere, replicate_eq_map, rightMask, leftMask]
    cases whereTest xxh3 cells columnNames left keeps with
    | error fault => rfl
    | ok leftTest =>
      cases whereTest xxh3 cells columnNames right (fun _ => true) with
      | error fault => rfl
      | ok rightTest => exact congrArg Except.ok (andMask_map items _ _)
  | case2 left right keeps leftMask rightMask =>
    rw [evalWhere, replicate_eq_map, rightMask, leftMask]
    cases whereTest xxh3 cells columnNames left (fun _ => true) with
    | error fault => rfl
    | ok leftTest =>
      cases whereTest xxh3 cells columnNames right (fun _ => true) with
      | error fault => rfl
      | ok rightTest => exact congrArg Except.ok (orMask_map items _ _)
  | case3 left op right keeps notAnd notOr other =>
    rw [evalWhere]
    · rw [other]
      rfl
    · exact notAnd
    · exact notOr
  | case4 left op right keeps notAnd notOr name value isPair colIdx cell
      isCell isColumn =>
      rw [evalWhere]
      · rw [isPair]
        simp only [isCell, isColumn]
        rw [index_map]
        cases index cells colIdx with
        | error fault => rfl
        | ok cellOf =>
          cases op <;> first | rfl | exact filterColumn_map items _ _ _
      · exact notAnd
      · exact notOr
  | case5 left op right keeps notAnd notOr name value isPair other =>
    rw [evalWhere]
    · rw [isPair]
      simp only
      rfl
    · exact notAnd
    · exact notOr
  | case6 name list negated keeps notFound =>
    rw [evalWhere, notFound]
    rfl
  | case7 name list negated keeps colIdx isColumn =>
    rw [evalWhere, isColumn]
    simp only
    rw [index_map]
    cases index cells colIdx with
    | error fault => rfl
    | ok cellOf =>
      simp only [Except.map, bind, Except.bind, memberMask_map, pure, Except.pure]
      cases negated <;> simp [andMask_map]
  | case8 name low high negated keeps colIdx lowCell highCell isHigh isLow
      isColumn =>
      rw [evalWhere, isColumn, isLow, isHigh]
      simp only
      rw [index_map]
      cases index cells colIdx with
      | error fault => rfl
      | ok cellOf => exact betweenMask_map items cellOf lowCell highCell negated
  | case9 name low high negated keeps other =>
    rw [evalWhere]
    split
    · next isColumn isLow isHigh => exact absurd isHigh (other _ _ _ isColumn isLow)
    · rfl
  | case10 expr pattern negated keeps other =>
    rw [evalWhere, other]
    rfl
  | case11 expr pattern negated keeps name text isPair notFound =>
    rw [evalWhere, isPair]
    simp only [notFound]
    rfl
  | case12 expr pattern negated keeps name text isPair colIdx isColumn =>
    rw [evalWhere, isPair]
    simp only [isColumn]
    rw [index_map]
    cases index cells colIdx with
    | error fault => rfl
    | ok cellOf =>
      simp only [Except.map, bind, Except.bind, filterColumn_map, pure, Except.pure]
      cases negated <;> simp
  | case13 expr keeps notAnd notOr notBinary notIn notBetween notLike =>
    rw [evalWhere]
    · rfl
    all_goals assumption

end

end

/-! ## Bitmaps -/

section

variable (xxh3 : List Char → Cell) (columns : List (List Cell)) (columnNames : List String)
  (rowCount : Nat)

/-- `eval_where_bitmap`; a bitmap is the list of its bits, as many as there are
rows. -/
def evalWhereBitmap : Expr → List Bool → Except Fault (List Bool)
  | .binary left .and right, _ => do
    let leftBits ← evalWhereBitmap left (replicate rowCount true)
    let rightBits ← evalWhereBitmap right (replicate rowCount true)
    return andMask leftBits rightBits
  | .binary left .or right, _ => do
    let leftBits ← evalWhereBitmap left (replicate rowCount false)
    let rightBits ← evalWhereBitmap right (replicate rowCount false)
    return orMask leftBits rightBits
  | .binary left op right, out =>
    match columnAndLiteral left right with
    | none => return out
    | some (name, value) =>
      match resolveName name columnNames, valueToU64 xxh3 value with
      | some colIdx, some cell => do
        let column ← index columns colIdx
        match op with
        | .eq => return filterEqBitmap column cell
        | .notEq => return filterNeBitmap column cell
        | .lt => return filterLtBitmap column cell
        | .gt => return filterGtBitmap column cell
        | .ltEq => return filterLeBitmap column cell
        | .gtEq => return filterGeBitmap column cell
        | _ => return replicate rowCount false
      | _, _ => return out
  | expr, _ => evalWhere xxh3 columns columnNames rowCount expr (replicate rowCount true)

def filterRowsBitmap (whereExpr : Expr) : Except Fault (List Bool) :=
  evalWhereBitmap xxh3 columns columnNames rowCount whereExpr (replicate rowCount true)

/-- Every operator in the tree is AND, OR or a comparison. -/
def IsWhere : Expr → Prop
  | .binary left .and right | .binary left .or right => IsWhere left ∧ IsWhere right
  | .binary _ op _ => (comparison op).isSome
  | _ => True

/-- A comparison has the shape that is evaluated. -/
def isRead : Expr → Bool
  | .binary _ .and _ | .binary _ .or _ => true
  | .binary left _ right =>
    (columnAndLiteral left right).any fun sides =>
      (resolveName sides.1 columnNames).isSome && (valueToU64 xxh3 sides.2).isSome
  | _ => true

/-- No operand of an OR is a comparison that is not read. -/
def OrsRead : Expr → Prop
  | .binary left .and right => OrsRead left ∧ OrsRead right
  | .binary left .or right =>
    (isRead xxh3 columnNames left ∧ OrsRead left) ∧ isRead xxh3 columnNames right ∧ OrsRead right
  | _ => True

variable {xxh3 columns columnNames rowCount}

theorem evalWhereBitmap_eq {expr : Expr} {out : List Bool}
    (full : ∀ column ∈ columns, column.length = rowCount) (tree : IsWhere expr)
    (read : OrsRead xxh3 columnNames expr)
    (start : out = replicate rowCount true ∨ isRead xxh3 columnNames expr = true) :
    evalWhereBitmap xxh3 columns columnNames rowCount expr out =
      evalWhere xxh3 columns columnNames rowCount expr (replicate rowCount true) := by
  fun_induction evalWhereBitmap xxh3 columns columnNames rowCount expr out with
  | case1 left right out ihLeft ihRight =>
    rw [evalWhere, ihLeft tree.1 read.1 (.inl rfl), ihRight tree.2 read.2 (.inl rfl)]
  | case2 left right out ihLeft ihRight =>
    obtain ⟨⟨leftRead, ofLeft⟩, rightRead, ofRight⟩ := read
    rw [evalWhere, ihLeft tree.1 ofLeft (.inr leftRead), ihRight tree.2 ofRight (.inr rightRead)]
  | case3 left op right out notAnd notOr other =>
    rw [isRead, other] at start
    · rw [evalWhere, other, start.resolve_right (by simp)]
      all_goals assumption
    all_goals assumption
  | case4 left op right out notAnd notOr name value sides colIdx cell isCell found =>
    rw [IsWhere] at tree
    · rw [evalWhere, sides]
      · simp only [found, isCell]
        cases here : index columns colIdx with
        | error fault => rfl
        | ok column =>
          have length := full column (mem_of_getElem? (index_eq_ok_iff.mp here))
          have masked : ∀ test, filterColumn test column (replicate rowCount true) =
              .ok (column.map test) := by
            simp [filterColumn, length]
          cases op <;> first | exact (masked _).symm | cases tree
      all_goals assumption
    all_goals assumption
  | case5 left op right out notAnd notOr name value sides other =>
    have unread : ((resolveName name columnNames).isSome && (valueToU64 xxh3 value).isSome) =
        false := by
      cases found : resolveName name columnNames <;> cases isCell : valueToU64 xxh3 value
      case some.some => exact absurd isCell (other _ _ found)
      all_goals rfl
    rw [isRead, sides, Option.any_some, unread] at start
    · rw [evalWhere, sides, start.resolve_right (by simp)]
      · simp only
      all_goals assumption
    all_goals assumption
  | case6 => rfl

/-- Bitmaps and masks select the same rows. -/
theorem bitmap_rows_eq (full : ∀ column ∈ columns, column.length = rowCount) {expr : Expr}
    (tree : IsWhere expr) (read : OrsRead xxh3 columnNames expr) :
    (filterRowsBitmap xxh3 columns columnNames rowCount expr).map
        (fun bits => (range rowCount).filter fun row => bits[row]?.getD false) =
      filterRows xxh3 columns columnNames rowCount expr := by
  rw [filterRowsBitmap, evalWhereBitmap_eq full tree read (.inl rfl), filterRows]
  cases evalWhere xxh3 columns columnNames rowCount expr (replicate rowCount true) <;> rfl

end

namespace Example

/-- `a = NULL` and `a = 1`, joined by an operator. -/
def nullWith (op : BinOp) : Expr :=
  .binary (.binary (.column "a") .eq (.literal .null)) op
    (.binary (.column "a") .eq (.literal (.int 1)))

theorem null_and_one : (filterRowsBitmap (fun _ => 0) [[1, 2]] ["a"] 2 (nullWith .and)).map
        (fun bits => (range 2).filter fun row => bits[row]?.getD false) = .ok [0] :=
  bitmap_rows_eq (by decide) ⟨rfl, rfl⟩ ⟨trivial, trivial⟩

/-- The row with 2 is selected by the mask only. -/
theorem null_or_one :
    filterRowsBitmap (fun _ => 0) [[1, 2]] ["a"] 2 (nullWith .or) = .ok [true, false] ∧
      filterRows (fun _ => 0) [[1, 2]] ["a"] 2 (nullWith .or) = .ok [0, 1] := by
  decide

end Example

end TurboGP.Exec
