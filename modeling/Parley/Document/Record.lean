import Parley.Document.Codec

/-! Records in documents: named fields in any order, each at most once. A field that is missing
keeps the value it has in the blank record, unless the schema requires it. Fields that the schema
does not know are passed over. -/
namespace Parley

/-- One field of a record, with what it takes to read and write it in place. -/
structure Slot (ρ : Type) where
  name : String
  required : Bool
  read : Ron.Mode → ρ → Ron.Reader ρ
  write : Nat → ρ → List Char
  encode : ρ → Json
  decode? : ρ → Json → Option ρ

/-- A field by its codec, its value and its update. -/
def Codec.slot (c : Codec α) (name : String) (get : ρ → α) (set : ρ → α → ρ)
    (required : Bool := false) : Slot ρ where
  name := name
  required := required
  read mode r s := (c.read mode s).map fun (a, rest) => (set r a, rest)
  write depth r := c.write depth (get r)
  encode r := c.encode (get r)
  decode? r j := (c.decode? j).map (set r)

structure Schema (ρ : Type) where
  /-- The name that may stand before the brackets. -/
  name : String
  /-- The record that readers fill in. -/
  blank : ρ
  slots : List (Slot ρ)

namespace Schema

/-- Pass the name of the record, which may be left out. -/
def skipName (schema : Schema ρ) (s : List Char) : Except Ron.Fault (List Char) :=
  if s.head?.any Ron.inName then
    match Ron.identifier s with
    | .ok (name, rest) => if name = schema.name then .ok rest else .error .malformed
    | .error fault => .error fault
  else .ok s

/-- Read one field into the record: the value behind a key. -/
def readField (schema : Schema ρ) (mode : Ron.Mode) (label key : String) (seen : List String)
    (r : ρ) (s : List Char) : Except Ron.Fault (ρ × List Char) := do
  if schema.slots.any (·.name = key) ∧ key ∈ seen then throw (.duplicateField key label)
  let rest ← Ron.skip (← Ron.expect ':' (← Ron.skip s))
  match schema.slots.find? (·.name = key) with
  | some slot => slot.read (mode.below 2) r rest
  | none => return (r, ← Ron.skipValue (mode.below 2) rest)

/-- Read fields up to the closing bracket, which is left, with the keys that have occurred. -/
def readFields (schema : Schema ρ) (mode : Ron.Mode) (label : String) :
    Nat → Bool → List String → ρ → Ron.Reader (ρ × List String)
  | 0, _, _, _, _ => .error .malformed
  | fuel + 1, separated, seen, r, s => do
    match ← Ron.skip s with
    | [] => throw .malformed
    | c :: rest =>
      if c = ')' then return ((r, seen), c :: rest)
      else if separated then
        let (key, rest) ← Ron.identifier (c :: rest)
        let (r, rest) ← schema.readField mode label key seen r rest
        let (separated, rest) ← Ron.comma rest
        readFields schema mode label fuel separated (key :: seen) r rest
      else throw .malformed

/-- The first required field that has not occurred. -/
def missing? (schema : Schema ρ) (seen : List String) : Option String :=
  (schema.slots.find? fun slot => slot.required ∧ slot.name ∉ seen).map Slot.name

/-- The fields of a record; `label` is the name by which faults call it. -/
def readBody (schema : Schema ρ) (mode : Ron.Mode) (label : String) : Ron.Reader ρ := fun s => do
  let ((r, seen), rest) ← schema.readFields mode label (s.length + 1) true [] schema.blank s
  match schema.missing? seen with
  | some field => throw (.missingField field label)
  | none => return (r, rest)

/-- A record in its own brackets, or in those of the variant that holds it. -/
def read (schema : Schema ρ) (mode : Ron.Mode) : Ron.Reader ρ := fun s =>
  match mode.opened with
  | some variant => schema.readBody mode variant s
  | none => do
    let rest ← Ron.expect '(' (← Ron.skip (← schema.skipName s))
    let (r, rest) ← schema.readBody mode schema.name rest
    return (r, ← Ron.expect ')' rest)

/-- The record of an object's members. -/
def decode? (schema : Schema ρ) : Json → Option ρ
  | .object members =>
    schema.slots.foldlM (fun r slot =>
      match (Json.object members).member? slot.name with
      | some j => slot.decode? r j
      | none => if slot.required then none else some r) schema.blank
  | _ => none

/-- Written records have every field, in the order of the schema, and no name. -/
def codec (schema : Schema ρ) : Codec ρ where
  read := schema.read
  write depth r :=
    Codec.bracket '(' ')' depth <| schema.slots.map fun slot =>
      slot.name.toList ++ ": ".toList ++ slot.write (depth + 1) r
  encode r := .object (schema.slots.map fun slot => (slot.name, slot.encode r))
  decode? := schema.decode?

end Schema
end Parley
