import TurboGP.Engine.Session

/-!
# CHECK constraints and three-valued logic

`eval_check_expr` beside the evaluation of SQL, where a comparison with NULL
is neither true nor false.
-/

namespace TurboGP.Engine

open Sql Txn List

namespace Truth

/-- `none` is UNKNOWN. -/
def and : Option Bool → Option Bool → Option Bool
  | some false, _ | _, some false => some false
  | some true, some true => some true
  | _, _ => none

def or : Option Bool → Option Bool → Option Bool
  | some true, _ | _, some true => some true
  | some false, some false => some false
  | _, _ => none

/-- What a test with two outcomes makes of a truth value: not FALSE, or below
an odd number of NOTs TRUE. -/
def read (positive : Bool) (truth : Option Bool) : Bool :=
  if positive then truth != some false else truth == some true

variable (positive : Bool) (left right : Option Bool)

theorem read_and :
    read positive (and left right) = (read positive left && read positive right) := by
  cases positive <;> rcases left with _ | _ | _ <;> rcases right with _ | _ | _ <;> rfl

theorem read_or : read positive (or left right) = (read positive left || read positive right) := by
  cases positive <;> rcases left with _ | _ | _ <;> rcases right with _ | _ | _ <;> rfl

theorem read_not : read positive (left.map not) = !read (!positive) left := by
  cases positive <;> rcases left with _ | _ | _ <;> rfl

end Truth

/-- A row as `eval_check_expr` gets it. -/
structure CheckRow where
  columnNames : List String
  rowValues : List Cell
  nullMask : List Bool

namespace CheckRow

def compares (left right : Int64) : BinOp → Bool
  | .eq => left = right
  | .notEq => left ≠ right
  | .lt => left < right
  | .gt => right < left
  | .ltEq => left ≤ right
  | .gtEq => right ≤ left
  | _ => false

/-- The integer of an operand, unless it is NULL. -/
def value (row : CheckRow) : Expr → Option Int64
  | .column name => do
    let i ← row.columnNames.findIdx? (fun other => other == name)
    if row.nullMask[i]?.getD false then none else some (row.rowValues[i]?.getD 0).toInt64
  | .literal (.int n) => some n
  | .paren inner => row.value inner
  | _ => none

/-- The evaluation of SQL. -/
def truth (row : CheckRow) : Expr → Option Bool
  | .binary left .and right => Truth.and (row.truth left) (row.truth right)
  | .binary left .or right => Truth.or (row.truth left) (row.truth right)
  | .binary left op right => do return compares (← row.value left) (← row.value right) op
  | .isNull expr negated => some ((row.value expr).isNone != negated)
  | .not inner => (row.truth inner).map not
  | .paren inner => row.truth inner
  | _ => none

/-- Of the tests that are evaluated from the left, every IS NULL is TRUE and no
comparison below an odd number of NOTs has a NULL operand.  The right side of
an AND is evaluated unless the left one is refused, that of an OR only then. -/
def NoNullBelowNot (row : CheckRow) (positive : Bool) : Expr → Prop
  | .binary left .and right =>
    row.NoNullBelowNot positive left ∧
      (Truth.read positive (row.truth left) = true → row.NoNullBelowNot positive right)
  | .binary left .or right =>
    row.NoNullBelowNot positive left ∧
      (Truth.read positive (row.truth left) = false → row.NoNullBelowNot positive right)
  | .binary left _ right => positive = true ∨ (row.value left).isSome ∧ (row.value right).isSome
  | .isNull expr negated => (row.value expr).isNone ≠ negated
  | .not inner => row.NoNullBelowNot (!positive) inner
  | .paren inner => row.NoNullBelowNot positive inner
  | _ => True

def accepts (host : Host) (row : CheckRow) (expr : Expr) : Bool :=
  evalCheckExpr host row.columnNames row.rowValues row.nullMask expr

end CheckRow

inductive IsOperand : Expr → Prop
  | column (name : String) : IsOperand (.column name)
  | int (n : Int64) : IsOperand (.literal (.int n))
  | paren {inner : Expr} : IsOperand inner → IsOperand (.paren inner)

def comparisons : List BinOp := [.eq, .notEq, .lt, .gt, .ltEq, .gtEq]

inductive IsCheck : Expr → Prop
  | compare {left right : Expr} {op : BinOp} : IsOperand left → IsOperand right →
      op ∈ comparisons → IsCheck (.binary left op right)
  | isNull {expr : Expr} (negated : Bool) : IsOperand expr → IsCheck (.isNull expr negated)
  | and {left right : Expr} : IsCheck left → IsCheck right → IsCheck (.binary left .and right)
  | or {left right : Expr} : IsCheck left → IsCheck right → IsCheck (.binary left .or right)
  | not {inner : Expr} : IsCheck inner → IsCheck (.not inner)
  | paren {inner : Expr} : IsCheck inner → IsCheck (.paren inner)

namespace CheckRow

variable {host : Host} {row : CheckRow} {expr left right : Expr} {op : BinOp}

theorem evalCheckOperand_eq (operand : IsOperand expr) :
    evalCheckOperand host row.columnNames row.rowValues row.nullMask expr =
      match row.value expr with
      | some n => .int n
      | none => .null := by
  induction operand with
  | column name =>
    unfold evalCheckOperand value
    cases row.columnNames.findIdx? (fun other => other == name) with
    | none => rfl
    | some i => by_cases isNull : row.nullMask[i]?.getD false = true <;> simp [isNull]
  | int n => rfl
  | paren _ ih => exact ih

theorem compareBy_compare (left right : Int64) (comparison : op ∈ comparisons) :
    compareBy (some (compare left right)) op = compares left right op := by
  have order : compare left right =
        if left < right then .lt else if left = right then .eq else .gt := rfl
  simp only [comparisons, mem_cons, not_mem_nil, or_false] at comparison
  by_cases less : left < right <;> by_cases same : left = right <;>
    rcases comparison with rfl | rfl | rfl | rfl | rfl | rfl <;>
    simp [compareBy, compares, order, less, same] <;> grind

theorem binary_eq (comparison : op ∈ comparisons) (positive : Bool) :
    row.accepts host (.binary left op right) = compareOperands host op
          (evalCheckOperand host row.columnNames row.rowValues row.nullMask left)
          (evalCheckOperand host row.columnNames row.rowValues row.nullMask right) ∧
      row.truth (.binary left op right) =
        (do return compares (← row.value left) (← row.value right) op) ∧
      row.NoNullBelowNot positive (.binary left op right) =
        (positive = true ∨ (row.value left).isSome ∧ (row.value right).isSome) := by
  simp only [comparisons, mem_cons, not_mem_nil, or_false] at comparison
  rcases comparison with rfl | rfl | rfl | rfl | rfl | rfl <;> exact ⟨rfl, rfl, rfl⟩

theorem accepts_eq_read (isCheck : IsCheck expr) {positive : Bool}
    (noNull : row.NoNullBelowNot positive expr) :
    row.accepts host expr = Truth.read positive (row.truth expr) := by
  induction isCheck generalizing positive with
  | @compare left right op isLeft isRight comparison =>
    obtain ⟨code, sql, condition⟩ := @binary_eq host row left right op comparison positive
    rw [condition] at noNull
    rw [code, sql, evalCheckOperand_eq isLeft, evalCheckOperand_eq isRight]
    cases ofLeft : row.value left with
    | none =>
      rw [noNull.resolve_right (by simp [ofLeft])]
      rfl
    | some a =>
      cases ofRight : row.value right with
      | none =>
        rw [noNull.resolve_right (by simp [ofRight])]
        rfl
      | some b =>
        show compareBy _ op = Truth.read positive (some (compares a b op))
        rw [compareBy_compare a b comparison]
        cases positive <;> cases compares a b op <;> rfl
  | @isNull expr negated _ =>
    have isTrue : row.truth (.isNull expr negated) = some true :=
      congrArg some (bne_iff_ne.mpr noNull)
    rw [isTrue]
    cases positive <;> rfl
  | @and left right _ _ ihLeft ihRight =>
    obtain ⟨atLeft, atRight⟩ := noNull
    have code : row.accepts host (.binary left .and right) =
        (row.accepts host left && row.accepts host right) := rfl
    rw [code, truth, Truth.read_and, ihLeft atLeft]
    cases reached : Truth.read positive (row.truth left) with
    | false => rfl
    | true => rw [ihRight (atRight reached)]
  | @or left right _ _ ihLeft ihRight =>
    obtain ⟨atLeft, atRight⟩ := noNull
    have code : row.accepts host (.binary left .or right) =
        (row.accepts host left || row.accepts host right) := rfl
    rw [code, truth, Truth.read_or, ihLeft atLeft]
    cases reached : Truth.read positive (row.truth left) with
    | false => rw [ihRight (atRight reached)]
    | true => rfl
  | not _ ih =>
    rw [truth, Truth.read_not, ← ih noNull]
    rfl
  | paren _ ih => exact ih noNull

/-- Only a FALSE expression is refused. -/
theorem check_refuses_false_only (isCheck : IsCheck expr) (noNull : row.NoNullBelowNot true expr) :
    evalCheckExpr host row.columnNames row.rowValues row.nullMask expr = false ↔
      row.truth expr = some false := by
  rw [show evalCheckExpr host row.columnNames row.rowValues row.nullMask expr = _ from
    accepts_eq_read isCheck noNull]
  exact bne_eq_false_iff_eq

end CheckRow

namespace Example

/-- `x = 1`. -/
def xIsOne : Expr := .binary (.column "x") .eq (.literal (.int 1))

/-- `NOT (x = 1) OR (1 = 2 AND x IS NULL)`. -/
def notOneOrSkipped : Expr :=
  .binary (.not (.paren xIsOne)) .or
    (.paren (.binary (.binary (.literal (.int 1)) .eq (.literal (.int 2))) .and
      (.isNull (.column "x") false)))

/-- A 1 is refused; the last test would be FALSE and is not evaluated. -/
theorem not_one_refuses_one :
    evalCheckExpr plainHost ["x"] [1] [false] notOneOrSkipped = false ↔
      CheckRow.truth ⟨["x"], [1], [false]⟩ notOneOrSkipped = some false := by
  have isCheck : IsCheck notOneOrSkipped :=
    .or (.not (.paren (.compare (.column "x") (.int 1) (by decide))))
      (.paren (.and (.compare (.int 1) (.int 2) (by decide)) (.isNull false (.column "x"))))
  refine @CheckRow.check_refuses_false_only plainHost ⟨["x"], [1], [false]⟩ _ isCheck ?_
  exact ⟨.inr ⟨rfl, rfl⟩, fun _ => ⟨.inl rfl, nofun⟩⟩

/-- `NOT (x = 1)` refuses NULL, where it is UNKNOWN, and `x IS NULL` accepts a
five, where it is FALSE. -/
theorem null_refused_and_five_accepted :
    (evalCheckExpr plainHost ["x"] [0] [true] (.not (.paren xIsOne)) = false ∧
      CheckRow.truth ⟨["x"], [0], [true]⟩ (.not (.paren xIsOne)) = none) ∧
    evalCheckExpr plainHost ["x"] [5] [false] (.isNull (.column "x") false) = true ∧
    CheckRow.truth ⟨["x"], [5], [false]⟩ (.isNull (.column "x") false) = some false := by
  decide

end Example

end TurboGP.Engine
