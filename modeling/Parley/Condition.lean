import Parley.Enumerated
import Parley.Variable.Bindable

/-! Conditions: one comparison between two fields of the same kind. Numbers are compared by order,
booleans and strings only for equality or inequality. -/
namespace Parley

inductive Comparison
  | equal
  | notEqual
  | greater
  | less
  | greaterOrEqual
  | lessOrEqual
deriving DecidableEq, Inhabited

namespace Comparison

instance : Enumerated Comparison where
  family := "ComparisonOp"
  members := [.equal, .notEqual, .greater, .less, .greaterOrEqual, .lessOrEqual]
  label
    | .equal => "Equal"
    | .notEqual => "NotEqual"
    | .greater => "Greater"
    | .less => "Less"
    | .greaterOrEqual => "GreaterOrEqual"
    | .lessOrEqual => "LessOrEqual"

instance : Storable Comparison where

/-- Whether the comparison holds of two values in the given order. -/
def holds : Comparison → Ordering → Bool
  | equal, o => o == .eq
  | notEqual, o => o != .eq
  | greater, o => o == .gt
  | less, o => o == .lt
  | greaterOrEqual, o => o != .lt
  | lessOrEqual, o => o != .gt

end Comparison

/-- The two sides of a comparison. -/
inductive Operands
  | bool (left right : Bindable Bool)
  | int (left right : Bindable Int64)
  | float (left right : Bindable Binary64)
  | string (left right : Bindable String)
deriving DecidableEq

instance : Inhabited Operands := ⟨.bool default default⟩

def Operands.kind : Operands → Kind
  | bool .. => .bool
  | int .. => .int
  | float .. => .float
  | string .. => .string

structure Condition where
  /-- How numbers are compared. -/
  comparison : Bindable Comparison
  /-- Whether booleans and strings are tested for equality or for inequality. -/
  equals : Bindable Bool
  operands : Operands
deriving DecidableEq

namespace Condition

/-- Unless something else is written, conditions test equality. -/
instance : Inhabited Condition := ⟨⟨default, .fixed true, default⟩⟩

def ofBool (left : Bindable Bool) (equal : Bool) (right : Bindable Bool) : Condition :=
  ⟨default, .fixed equal, .bool left right⟩

def ofInt (left : Bindable Int64) (comparison : Comparison) (right : Bindable Int64) : Condition :=
  ⟨.fixed comparison, .fixed true, .int left right⟩

def ofFloat (left : Bindable Binary64) (comparison : Comparison) (right : Bindable Binary64) :
    Condition :=
  ⟨.fixed comparison, .fixed true, .float left right⟩

def ofString (left : Bindable String) (equal : Bool) (right : Bindable String) : Condition :=
  ⟨default, .fixed equal, .string left right⟩

def kind (c : Condition) : Kind := c.operands.kind

def holds (c : Condition) (store : Store) : Bool :=
  match c.operands with
  | .bool left right => (left.resolve store == right.resolve store) == c.equals.resolve store
  | .string left right => (left.resolve store == right.resolve store) == c.equals.resolve store
  | .int left right =>
    (c.comparison.resolve store).holds
      (compare (left.resolve store).toInt (right.resolve store).toInt)
  | .float left right =>
    (c.comparison.resolve store).holds ((left.resolve store).order (right.resolve store))

/-- Whether every condition of a list holds. -/
def allHold (conditions : List Condition) (store : Store) : Bool :=
  conditions.all fun c => c.holds store

end Condition
end Parley
