import Telemetry.Sql.Field
import Telemetry.Sql.Literal

/-!
# Filter conditions

A condition compares a field with a value that a caller supplied. It compiles to one conjunct of a
query, or is refused: an unknown operator, a name that is no field, or a value that has no
literal.
-/

namespace Telemetry.Query

/-- The comparisons that a condition can make. -/
inductive Operator
  | eq
  | ne
  | gt
  | lt
  | ge
  | le
  | like
  | isIn
deriving DecidableEq, Repr

/-- The symbol of a comparison. -/
def Operator.symbol : Operator → String
  | .eq => "="
  | .ne => "!="
  | .gt => ">"
  | .lt => "<"
  | .ge => ">="
  | .le => "<="
  | .like => "LIKE"
  | .isIn => "IN"

/-- All comparisons. -/
def Operator.all : List Operator := [.eq, .ne, .gt, .lt, .ge, .le, .like, .isIn]

/-- The comparison with a symbol. -/
def Operator.ofSymbol? (symbol : String) : Option Operator :=
  Operator.all.find? (fun op => op.symbol == symbol)

/-- A condition as a caller supplies it: the operator is any text. -/
structure Condition where
  field : String
  operator : String
  value : Json

/-- The items of an `IN` list: those of an array, or a single value. -/
def membershipItems : Json → List Json
  | .arr items => items
  | v => [v]

namespace Condition

/-- The conjunct of a membership test. Nothing is a member of the empty list. -/
def compileMembership (column : String) (value : Json) : Except QueryFlaw String :=
  match membershipItems value with
  | [] => .ok "1 = 0"
  | items => do
    let literals ← items.mapM Sql.literal
    .ok (column ++ " IN (" ++ Text.joinWith ", " literals ++ ")")

/-- The conjunct of a comparison with a scalar. -/
def compileComparison (column : String) (op : Operator) (value : Json) :
    Except QueryFlaw String :=
  if value.isContainer then .error (.notScalar op.symbol)
  else do
    let literal ← Sql.literal value
    .ok (column ++ " " ++ op.symbol ++ " " ++ literal)

/-- The conjunct of a condition. -/
def compile (c : Condition) : Except QueryFlaw String :=
  match Operator.ofSymbol? c.operator with
  | none => .error (.unknownOperator c.operator)
  | some op => do
    let column ← Sql.column c.field
    match op with
    | .isIn => compileMembership column c.value
    | op => compileComparison column op c.value

end Condition

end Telemetry.Query
