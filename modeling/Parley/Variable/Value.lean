import Parley.Number.Decimal
import Parley.Text.Quoted

/-! Values of variables: four kinds, each fixed for a variable once it is declared. -/
namespace Parley

inductive Kind
  | bool
  | int
  | float
  | string
deriving DecidableEq

inductive Value
  | bool (b : Bool)
  | int (i : Int64)
  | float (x : Binary64)
  | string (s : String)
deriving DecidableEq, Inhabited

/-- A declaration: the name and the value to begin with. -/
structure Variable where
  name : String
  value : Value
deriving DecidableEq, Inhabited

def Kind.name : Kind → String
  | bool => "Bool"
  | int => "Int"
  | float => "Float"
  | string => "String"

namespace Value

def kind : Value → Kind
  | bool _ => .bool
  | int _ => .int
  | float _ => .float
  | string _ => .string

/-- A value as it is shown; only strings are quoted. -/
def toText : Value → String
  | bool b => if b then "true" else "false"
  | int i => toString i.toInt
  | float x => String.ofList x.toText
  | string s => String.ofList (Text.quoted s.toList)

end Value

/-- Types that a typed field can have. Those that no variable holds never match a value. -/
class Storable (α : Type) where
  ofValue? : Value → Option α := fun _ => none
  toValue? : α → Option Value := fun _ => none

instance : Storable Bool where
  ofValue?
    | .bool b => some b
    | _ => none
  toValue? b := some (.bool b)

instance : Storable Int64 where
  ofValue?
    | .int i => some i
    | _ => none
  toValue? i := some (.int i)

instance : Storable Binary64 where
  ofValue?
    | .float x => some x
    | _ => none
  toValue? x := some (.float x)

instance : Storable String where
  ofValue?
    | .string s => some s
    | _ => none
  toValue? s := some (.string s)

instance : Storable (List String) where

end Parley
