import Parley.Document.Record

/-! Families of variants in documents: a name, and in brackets what the variant holds, which is one
value or a pair. -/
namespace Parley

/-- One variant of a family: its name, and its content on both sides of either notation. -/
structure Variant (α : Type) where
  name : String
  /-- Reads what stands behind the name. -/
  read : Ron.Mode → Ron.Reader α
  /-- The text behind the name, for values of this variant. -/
  write? : Nat → α → Option (List Char)
  encode? : α → Option Json
  decode? : Json → Option α

namespace Codec

/-- A variant that holds one value. -/
def variant (c : Codec β) (name : String) (build : β → α) (content? : α → Option β) :
    Variant α where
  name := name
  read mode s := do
    let rest ← Ron.skip (← Ron.expect '(' (← Ron.skip s))
    let (b, rest) ← c.read (mode.inVariant name) rest
    let (_, rest) ← Ron.comma rest
    return (build b, ← Ron.expect ')' rest)
  write? depth a := (content? a).map fun b => '(' :: c.write depth b ++ [')']
  encode? a := (content? a).map c.encode
  decode? j := (c.decode? j).map build

/-- Two values in round brackets. Values beyond the second are refused, and a number of values
below two is a fault of its own. -/
def readPair (c : Codec β) (mode : Ron.Mode) (shape : String) : Ron.Reader (β × β) := fun s => do
  let element := c.read mode
  let short (n : Nat) : Except Ron.Fault ((β × β) × List Char) := throw (.wrongLength shape n)
  match ← Ron.skip (← Ron.expect '(' (← Ron.skip s)) with
  | ')' :: _ => short 0
  | rest =>
    let (first, rest) ← element rest
    match ← Ron.comma rest with
    | (_, ')' :: _) => short 1
    | (false, _) => throw .malformed
    | (true, rest) =>
      let (second, rest) ← element rest
      let (_, rest) ← Ron.comma rest
      return ((first, second), ← Ron.expect ')' rest)

/-- A variant that holds a pair of values. -/
def pairVariant (c : Codec β) (family name : String) (build : β → β → α)
    (content? : α → Option (β × β)) : Variant α where
  name := name
  read mode s :=
    (c.readPair (mode.below 3) s!"tuple variant {family}::{name} with 2 elements" s).map
      fun ((first, second), rest) => (build first second, rest)
  write? depth a := (content? a).map fun (first, second) =>
    '(' :: c.write depth first ++ ", ".toList ++ c.write depth second ++ [')']
  encode? a := (content? a).map fun (first, second) => .array [c.encode first, c.encode second]
  decode?
    | .array [first, second] => do return build (← c.decode? first) (← c.decode? second)
    | _ => none

/-- Values by the variant they belong to. -/
def ofVariants (family : String) (variants : List (Variant α)) : Codec α where
  read mode s := do
    let (name, rest) ← Ron.identifier s
    match variants.find? (·.name = name) with
    | some v => v.read mode rest
    | none => throw (.unknownVariant name family (variants.map Variant.name))
  write depth a :=
    (variants.findSome? fun v => (v.write? depth a).map (v.name.toList ++ ·)).getD []
  encode a := (variants.findSome? fun v => (v.encode? a).map (Json.tagged v.name)).getD .null
  decode?
    | .object [(name, content)] => (variants.find? (·.name = name)).bind (·.decode? content)
    | _ => none

end Codec
end Parley
