import Parley.Color
import Parley.Enumerated
import Parley.Json.Basic
import Parley.Ron.Skip
import Parley.Text.Quoted

/-! How values are written in documents. A codec covers both notations: documents in RON, which
authors write and read, and JSON, which hosts exchange. RON text is laid out over several lines, so
writing needs the depth of indentation. -/
namespace Parley

structure Codec (α : Type) where
  read : Ron.Mode → Ron.Reader α
  write : Nat → α → List Char
  encode : α → Json
  decode? : Json → Option α

namespace Codec

/-- The codec of a type that another one stands in for. The reading side may refuse a value with
a reason. -/
def convert (c : Codec α) (ofStandIn : α → Except String β) (standIn : β → α) : Codec β where
  read mode s :=
    match c.read mode s with
    | .error fault => .error fault
    | .ok (a, rest) =>
      match ofStandIn a with
      | .ok b => .ok (b, rest)
      | .error reason => .error (.refused reason)
  write depth b := c.write depth (standIn b)
  encode b := c.encode (standIn b)
  decode? j := (c.decode? j).bind fun a => (ofStandIn a).toOption

def bool : Codec Bool where
  read _ := Ron.bool
  write _ b := (if b then "true" else "false").toList
  encode b := .bool b
  decode?
    | .bool b => some b
    | _ => none

def int : Codec Int64 where
  read _ := Ron.signed
  write _ i := (toString i.toInt).toList
  encode i := .int i.toInt
  decode?
    | .int i => signedWord? i
    | _ => none

/-- Counts below 2⁶⁴. -/
def count : Codec Nat where
  read _ := Ron.unsigned
  write _ n := Nat.toDigits 10 n
  encode n := .nat n
  decode?
    | .int i => if 0 ≤ i then word? i.toNat else none
    | _ => none

/-- Whole numbers keep a point and a zero. -/
def float : Codec Binary64 where
  read _ := Ron.float
  write _ x := x.toText ++ if x.isWhole then ['.', '0'] else []
  encode x := .float x
  decode?
    | .float x => some x
    | .int i => some (.ofInt i)
    | _ => none

def string : Codec String where
  read _ := Ron.string
  write _ s := Text.literal s.toList
  encode s := .string s
  decode?
    | .string s => some s
    | _ => none

def color : Codec Color :=
  string.convert (fun s => (Color.parse s).mapError ColorFault.message) Color.toText

/-- The text behind some characters, if the text starts with them. -/
def afterStart? (start : String) (s : List Char) : Option (List Char) :=
  if start.toList.isPrefixOf s then some (s.drop start.length) else none

/-- What stands behind the word `Some`. -/
def readSome (c : Codec α) (mode : Ron.Mode) : Ron.Reader α := fun s => do
  match ← Ron.skip s with
  | '(' :: rest =>
    let (a, rest) ← c.read (mode.below 1) (← Ron.skip rest)
    let (_, rest) ← Ron.comma rest
    return (a, ← Ron.expect ')' rest)
  | rest => if mode.implicitSome then c.read (mode.below 1) rest else throw .malformed

def option (c : Codec α) : Codec (Option α) where
  read mode s := do
    match afterStart? "None" s, afterStart? "Some" s with
    | some rest, _ => return (none, rest)
    | none, some rest =>
      let (a, rest) ← c.readSome mode rest
      return (some a, rest)
    | none, none =>
      if ¬mode.implicitSome then throw .malformed
      let (a, rest) ← c.read (mode.below 1) s
      return (some a, rest)
  write
    | _, none => "None".toList
    | depth, some a => "Some(".toList ++ c.write depth a ++ [')']
  encode := Json.ofOption c.encode
  decode?
    | .null => some none
    | j => (c.decode? j).map some

/-- Read elements up to a closing bracket, which is left. A comma stands between any two, and may
stand behind the last. -/
def readElements (element : Ron.Reader α) (close : Char) : Nat → Bool → Ron.Reader (List α)
  | 0, _, _ => .error .malformed
  | fuel + 1, separated, s => do
    match ← Ron.skip s with
    | [] => throw .malformed
    | c :: rest =>
      if c = close then return ([], c :: rest)
      else if separated then
        let (a, rest) ← element (c :: rest)
        let (separated, rest) ← Ron.comma rest
        let (others, rest) ← readElements element close fuel separated rest
        return (a :: others, rest)
      else throw .malformed

/-- The start of a line at some depth of indentation. -/
def newline (depth : Nat) : List Char := '\n' :: List.replicate (4 * depth) ' '

/-- Entries on lines of their own, a comma behind each, within brackets. -/
def bracket (opening closing : Char) (depth : Nat) (entries : List (List Char)) : List Char :=
  opening :: entries.flatMap (fun entry => newline (depth + 1) ++ entry ++ [',']) ++
    newline depth ++ [closing]

def list (c : Codec α) : Codec (List α) where
  read mode s := do
    let rest ← Ron.expect '[' s
    let (items, rest) ← readElements (c.read (mode.below 2)) ']' (rest.length + 1) true rest
    return (items, ← Ron.expect ']' rest)
  write
    | _, [] => ['[', ']']
    | depth, items => bracket '[' ']' depth (items.map (c.write (depth + 1)))
  encode := Json.ofList c.encode
  decode?
    | .array items => items.mapM c.decode?
    | _ => none

/-- Members of a family by name. -/
def enumerated (α : Type) [Enumerated α] : Codec α where
  read _ s := do
    let (name, rest) ← Ron.identifier s
    match Enumerated.ofLabel? name with
    | some a => return (a, rest)
    | none => throw (.unknownVariant name (Enumerated.family α) (Enumerated.labels α))
  write _ a := (Enumerated.label a).toList
  encode a := .string (Enumerated.label a)
  decode?
    | .string name => Enumerated.ofLabel? name
    | _ => none

end Codec
end Parley
