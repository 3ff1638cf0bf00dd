import Parley.Number.Decimal
import Parley.Text.Hex

/-! JSON documents and their compact text. Members of an object keep their order and may repeat.
Integers have no bounds here; the reader makes what does not fit 64 bits a float. -/
namespace Parley

inductive Json
  | null
  | bool (b : Bool)
  | int (i : Int)
  | float (x : Binary64)
  | string (s : String)
  | array (items : List Json)
  | object (members : List (String × Json))

namespace Json

instance : Inhabited Json := ⟨null⟩

def nat (n : Nat) : Json := int n

/-- Text held as characters. -/
def text (s : List Char) : Json := string (String.ofList s)

def ofOption (encode : α → Json) : Option α → Json
  | some a => encode a
  | none => null

def ofList (encode : α → Json) (xs : List α) : Json := array (xs.map encode)

/-- An object with one member, which tells a variant by its name. -/
def tagged (tag : String) (content : Json) : Json := object [(tag, content)]

/-- The last member of a name. -/
def member? (name : String) : Json → Option Json
  | object members => (members.reverse.find? fun m => m.1 = name).map Prod.snd
  | _ => none

def escapeChar (c : Char) : List Char :=
  match c with
  | '"' => ['\\', '"']
  | '\\' => ['\\', '\\']
  | '\n' => ['\\', 'n']
  | '\r' => ['\\', 'r']
  | '\t' => ['\\', 't']
  | '\x08' => ['\\', 'b']
  | '\x0c' => ['\\', 'f']
  | c =>
    if c.toNat < 32 then
      "\\u00".toList ++ [Char.ofNat (48 + c.toNat / 16), (Nat.digitChar (c.toNat % 16))]
    else [c]

def quote (s : String) : List Char := '"' :: s.toList.flatMap escapeChar ++ ['"']

/-- Items with commas between them. -/
def commaSeparated : List (List Char) → List Char
  | [] => []
  | [item] => item
  | item :: rest => item ++ ',' :: commaSeparated rest

/-- A float as text; what JSON has no number for is null. -/
def floatText (x : Binary64) : List Char :=
  if x.isFinite then x.toText ++ (if x.isWhole then ['.', '0'] else []) else "null".toList

mutual

def toChars : Json → List Char
  | null => "null".toList
  | bool b => (if b then "true" else "false").toList
  | int i => (toString i).toList
  | float x => floatText x
  | string s => quote s
  | array items => '[' :: commaSeparated (itemTexts items) ++ [']']
  | object members => '{' :: commaSeparated (memberTexts members) ++ ['}']

def itemTexts : List Json → List (List Char)
  | [] => []
  | item :: rest => toChars item :: itemTexts rest

def memberTexts : List (String × Json) → List (List Char)
  | [] => []
  | (name, value) :: rest => (quote name ++ ':' :: toChars value) :: memberTexts rest

end

/-- Text without any blanks between tokens. -/
def toText (j : Json) : String := String.ofList j.toChars

end Json
end Parley
