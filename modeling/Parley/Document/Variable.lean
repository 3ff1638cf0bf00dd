import Parley.Condition
import Parley.Document.Variant

/-! Variables, fields and conditions in documents. -/
namespace Parley

def Value.codec : Codec Value := .ofVariants "Value" [
  Codec.bool.variant "Bool" .bool fun
    | .bool b => some b
    | _ => none,
  Codec.int.variant "Int" .int fun
    | .int i => some i
    | _ => none,
  Codec.float.variant "Float" .float fun
    | .float x => some x
    | _ => none,
  Codec.string.variant "String" .string fun
    | .string s => some s
    | _ => none]

/-- Declarations have both a name and a value. -/
def Variable.codec : Codec Variable := Schema.codec {
  name := "VariableTemplate"
  blank := default
  slots := [
    Codec.string.slot "name" Variable.name (fun v x => { v with name := x }) true,
    Value.codec.slot "value" Variable.value (fun v x => { v with value := x }) true] }

/-- Fields that are left out are inactive, name no variable and have the default literal. -/
def Bindable.codec [Inhabited α] (c : Codec α) : Codec (Bindable α) := Schema.codec {
  name := "Resolved"
  blank := default
  slots := [
    Codec.bool.slot "active" Bindable.active fun b x => { b with active := x },
    Codec.string.option.slot "bound" Bindable.bound fun b x => { b with bound := x },
    c.slot "literal" Bindable.literal fun b x => { b with literal := x }] }

def Operands.codec : Codec Operands := .ofVariants "Operands" [
  (Bindable.codec .bool).pairVariant "Operands" "Bool" .bool fun
    | .bool left right => some (left, right)
    | _ => none,
  (Bindable.codec .int).pairVariant "Operands" "Int" .int fun
    | .int left right => some (left, right)
    | _ => none,
  (Bindable.codec .float).pairVariant "Operands" "Float" .float fun
    | .float left right => some (left, right)
    | _ => none,
  (Bindable.codec .string).pairVariant "Operands" "String" .string fun
    | .string left right => some (left, right)
    | _ => none]

/-- Conditions need operands; the rest tests equality if left out. -/
def Condition.codec : Codec Condition := Schema.codec {
  name := "Condition"
  blank := default
  slots := [
    (Bindable.codec (.enumerated Comparison)).slot "comparison" Condition.comparison
      fun c x => { c with comparison := x },
    (Bindable.codec .bool).slot "equals" Condition.equals fun c x => { c with equals := x },
    Operands.codec.slot "operands" Condition.operands (fun c x => { c with operands := x })
      true] }

end Parley
