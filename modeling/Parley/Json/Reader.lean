import Parley.Json.Basic
import Parley.Number.Word

/-! A reader of JSON, for hosts that bring none of their own. Numbers without point and exponent
are integers if they fit 64 bits; minus zero is a float, and a number beyond all finite floats is
refused, as are lone surrogates, control characters in strings, nesting of 128 and more, and
anything behind the value. -/
namespace Parley.Json

/-- A reader takes a value off the front of a text. -/
abbrev Reader (α : Type) := List Char → Option (α × List Char)

def isSpace (c : Char) : Bool := c = ' ' || c = '\n' || c = '\t' || c = '\r'

def skipSpace (s : List Char) : List Char := s.dropWhile isSpace

/-- The number of four hexadecimal digits. -/
def hexQuad? (a b c d : Char) : Option Nat := do
  let a ← Text.hexValue? a
  let b ← Text.hexValue? b
  let c ← Text.hexValue? c
  let d ← Text.hexValue? d
  return 4096 * a + 256 * b + 16 * c + d

def unescape? : Char → Option Char
  | '"' => some '"'
  | '\\' => some '\\'
  | '/' => some '/'
  | 'b' => some '\x08'
  | 'f' => some '\x0c'
  | 'n' => some '\n'
  | 'r' => some '\r'
  | 't' => some '\t'
  | _ => none

def consTo (c : Char) : Option (List Char × List Char) → Option (List Char × List Char) :=
  Option.map fun (body, rest) => (c :: body, rest)

/-- The inside of a string up to its closing quote. -/
def stringBody : Reader (List Char)
  | '"' :: rest => some ([], rest)
  | '\\' :: 'u' :: a :: b :: c :: d :: rest =>
    match hexQuad? a b c d with
    | none => none
    | some high =>
      if 0xd800 ≤ high ∧ high < 0xdc00 then
        match rest with
        | '\\' :: 'u' :: e :: f :: g :: h :: rest =>
          match hexQuad? e f g h with
          | none => none
          | some low =>
            if 0xdc00 ≤ low ∧ low < 0xe000 then
              consTo (Char.ofNat (0x10000 + 0x400 * (high - 0xd800) + (low - 0xdc00)))
                (stringBody rest)
            else none
        | _ => none
      else if 0xdc00 ≤ high ∧ high < 0xe000 then none
      else consTo (Char.ofNat high) (stringBody rest)
  | '\\' :: e :: rest =>
    match unescape? e with
    | none => none
    | some c => consTo c (stringBody rest)
  | c :: rest => if c.toNat < 32 then none else consTo c (stringBody rest)
  | [] => none

def readString : Reader String
  | '"' :: rest => (stringBody rest).map fun (body, rest) => (String.ofList body, rest)
  | _ => none

/-- Digits of the whole part: no zero leads others. -/
def readWhole (s : List Char) : Option (List Char × List Char) :=
  let digits := s.takeWhile Char.isDigit
  let rest := s.dropWhile Char.isDigit
  match digits with
  | [] => none
  | ['0'] => some (digits, rest)
  | '0' :: _ => none
  | _ => some (digits, rest)

/-- A point and the digits behind it, if there is a point. -/
def readFraction : List Char → Option (List Char × List Char)
  | '.' :: rest =>
    let digits := rest.takeWhile Char.isDigit
    if digits.isEmpty then none else some (digits, rest.dropWhile Char.isDigit)
  | s => some ([], s)

/-- The exponent, if there is one. -/
def readExponent (s : List Char) : Option (Option Int × List Char) :=
  match s with
  | c :: rest =>
    if c = 'e' ∨ c = 'E' then
      let (negative, body) := Decimal.splitSign rest
      let digits := body.takeWhile Char.isDigit
      if digits.isEmpty then none
      else
        let value : Int := Decimal.value digits
        some (some (if negative then -value else value), body.dropWhile Char.isDigit)
    else some (none, s)
  | [] => some (none, [])

def ofFloat (x : Binary64) : Option Json := if x.isFinite then some (float x) else none

def readNumber (s : List Char) : Option (Json × List Char) := do
  let (negative, body) := match s with
    | '-' :: rest => (true, rest)
    | rest => (false, rest)
  let (whole, rest) ← readWhole body
  let (fraction, rest) ← readFraction rest
  let (exponent, rest) ← readExponent rest
  let n := Decimal.value whole
  let i : Int := if negative then -(n : Int) else n
  let fits := if negative then n ≠ 0 ∧ (signedWord? i).isSome else (word? n).isSome
  if fraction.isEmpty ∧ exponent.isNone ∧ fits then return (int i, rest)
  let decimal : Decimal :=
    ⟨negative, Decimal.value (whole ++ fraction), exponent.getD 0 - fraction.length⟩
  return (← ofFloat (.ofDecimal decimal), rest)

/-- Items with commas between them, at least one, up to a closing bracket. -/
def readItems (item : Reader α) (close : Char) : Nat → Reader (List α)
  | 0, _ => none
  | fuel + 1, s => do
    let (first, rest) ← item s
    match skipSpace rest with
    | c :: rest =>
      if c = close then return ([first], rest)
      else if c = ',' then
        let (others, rest) ← readItems item close fuel rest
        return (first :: others, rest)
      else none
    | [] => none

/-- The inside of a bracket: nothing, or items. -/
def readBracket (item : Reader α) (close : Char) (s : List Char) : Option (List α × List Char) :=
  match skipSpace s with
  | c :: rest =>
    if c = close then some ([], rest) else readItems item close (c :: rest).length (c :: rest)
  | [] => none

def readMember (value : Reader Json) (s : List Char) : Option ((String × Json) × List Char) := do
  let (name, rest) ← readString (skipSpace s)
  match skipSpace rest with
  | ':' :: rest =>
    let (content, rest) ← value rest
    return ((name, content), rest)
  | _ => none

/-- The text behind a given word. -/
def afterWord (word : String) (s : List Char) : Option (List Char) :=
  if word.toList.isPrefixOf s then some (s.drop word.length) else none

/-- A value with blanks before it, of bounded nesting. -/
def readValue : Nat → Reader Json
  | 0, _ => none
  | depth + 1, s =>
    match skipSpace s with
    | '"' :: rest => (readString ('"' :: rest)).map fun (text, rest) => (string text, rest)
    | '[' :: rest =>
      if depth = 0 then none
      else (readBracket (readValue depth) ']' rest).map fun (items, rest) => (array items, rest)
    | '{' :: rest =>
      if depth = 0 then none
      else (readBracket (readMember (readValue depth)) '}' rest).map fun (members, rest) =>
        (object members, rest)
    | 'n' :: rest => (afterWord "ull" rest).map fun rest => (null, rest)
    | 't' :: rest => (afterWord "rue" rest).map fun rest => (bool true, rest)
    | 'f' :: rest => (afterWord "alse" rest).map fun rest => (bool false, rest)
    | other => readNumber other

def nestingLimit : Nat := 128

/-- A whole text as one value. -/
def parse? (text : String) : Option Json :=
  match readValue nestingLimit text.toList with
  | some (value, rest) => if (skipSpace rest).isEmpty then some value else none
  | none => none

end Parley.Json
