import Parley.Number.Decimal
import Parley.Number.Word
import Parley.Ron.Fault
import Parley.Text.Hex

/-! The smallest parts of a document: blanks and comments, identifiers, numbers and strings. Every
reader takes its part off the front of the text and leaves the rest. -/
namespace Parley.Ron

abbrev Reader (α : Type) := List Char → Except Fault (α × List Char)

/-- Where in blanks and comments a scan is; block comments nest. -/
inductive Gap
  | blank
  | line
  | block (outer : Nat)

def isSpace (c : Char) : Bool := c = ' ' || c = '\t' || c = '\n' || c = '\r'

def skipFrom : Gap → List Char → Except Fault (List Char)
  | .blank, '/' :: '/' :: rest => skipFrom .line rest
  | .blank, '/' :: '*' :: rest => skipFrom (.block 0) rest
  | .blank, '/' :: _ => .error .malformed
  | .blank, c :: rest => if isSpace c then skipFrom .blank rest else .ok (c :: rest)
  | .line, c :: rest => if c = '\n' then skipFrom .blank rest else skipFrom .line rest
  | .block outer, '/' :: '*' :: rest => skipFrom (.block (outer + 1)) rest
  | .block 0, '*' :: '/' :: rest => skipFrom .blank rest
  | .block (outer + 1), '*' :: '/' :: rest => skipFrom (.block outer) rest
  | .block outer, _ :: rest => skipFrom (.block outer) rest
  | .block _, [] => .error .malformed
  | _, [] => .ok []

/-- Pass blanks and comments. -/
def skip (s : List Char) : Except Fault (List Char) := skipFrom .blank s

/-- Take one character that must be there. -/
def expect (wanted : Char) : List Char → Except Fault (List Char)
  | c :: rest => if c = wanted then .ok rest else .error .malformed
  | [] => .error .malformed

/-- Pass blanks, a comma if there is one, and the blanks behind it. -/
def comma (s : List Char) : Except Fault (Bool × List Char) := do
  match ← skip s with
  | ',' :: rest => return (true, ← skip rest)
  | rest => return (false, rest)

def startsName (c : Char) : Bool := c.isAlpha || c = '_'

def inName (c : Char) : Bool := c.isAlphanum || c = '_'

/-- Characters that only names behind `r#` may hold. -/
def inRawName (c : Char) : Bool := inName c || c = '.' || c = '+' || c = '-'

/-- A plain name that a raw character follows is none, and neither is the start of a raw
string. -/
def identifier : Reader String
  | 'r' :: '"' :: _ => .error .malformed
  | 'r' :: '#' :: rest =>
    let name := rest.takeWhile inRawName
    if name.isEmpty then .error .malformed
    else .ok (String.ofList name, rest.dropWhile inRawName)
  | ['r'] => .error .malformed
  | c :: rest =>
    let behind := rest.dropWhile inName
    if startsName c ∧ ¬(behind.head?.any inRawName) then
      .ok (String.ofList (c :: rest.takeWhile inName), behind)
    else .error .malformed
  | [] => .error .malformed

/-- The text behind a word, if the word ends there. -/
def afterWord? (word : String) (s : List Char) : Option (List Char) :=
  let rest := s.drop word.length
  if word.toList.isPrefixOf s ∧ ¬(rest.head?.any inName) then some rest else none

def bool (s : List Char) : Except Fault (Bool × List Char) :=
  match afterWord? "true" s, afterWord? "false" s with
  | some rest, _ => .ok (true, rest)
  | _, some rest => .ok (false, rest)
  | _, _ => .error .malformed

/-- The base that a number announces, and the text behind the announcement. -/
def base : List Char → Nat × List Char
  | '0' :: 'x' :: rest => (16, rest)
  | '0' :: 'b' :: rest => (2, rest)
  | '0' :: 'o' :: rest => (8, rest)
  | rest => (10, rest)

/-- Digits as a number, unless one of them is none in the base. -/
def digitsValue? (base : Nat) (digits : List Char) : Option Nat :=
  digits.foldlM (fun n c => do
    let d ← Text.hexValue? c
    if d < base then some (base * n + d) else none) 0

/-- A whole number without sign; underscores may stand anywhere but in front. -/
def natural (s : List Char) : Except Fault (Nat × List Char) :=
  let (base, body) := base s
  let inNumber (c : Char) : Bool := (Text.hexValue? c).isSome || c = '_'
  let digits := body.takeWhile inNumber
  match digits with
  | [] | '_' :: _ => .error .malformed
  | _ =>
    match digitsValue? base (digits.filter (· ≠ '_')) with
    | some n => .ok (n, body.dropWhile inNumber)
    | none => .error .malformed

/-- A whole number below 2⁶⁴. -/
def unsigned (s : List Char) : Except Fault (Nat × List Char) := do
  let (n, rest) ← natural s
  match word? n with
  | some n => return (n, rest)
  | none => throw .malformed

/-- A whole number of 64 bits with an optional sign. -/
def signed (s : List Char) : Except Fault (Int64 × List Char) := do
  let (negative, body) := Decimal.splitSign s
  let (n, rest) ← natural body
  match signedWord? (if negative then -(n : Int) else n) with
  | some i => return (i, rest)
  | none => throw .malformed

/-- The values written by name. -/
def namedFloats : List (String × Binary64) :=
  [("inf", .infinity), ("+inf", .infinity), ("-inf", .ofRank true Binary64.infinityRank),
    ("NaN", .nan), ("+NaN", .nan), ("-NaN", .nan)]

def inFloat (c : Char) : Bool :=
  c.isDigit || c = 'e' || c = 'E' || c = '.' || c = '+' || c = '-' || c = '_'

def float (s : List Char) : Except Fault (Binary64 × List Char) :=
  match namedFloats.findSome? fun (name, x) => (afterWord? name s).map fun rest => (x, rest) with
  | some found => .ok found
  | none =>
    match Decimal.read? (s.takeWhile inFloat) with
    | some d => .ok (.ofDecimal d, s.dropWhile inFloat)
    | none => .error .malformed

/-- The character of a code point, unless it is none. -/
def scalar? (n : Nat) : Option Char :=
  if n < 0xd800 ∨ (0xdfff < n ∧ n < 0x110000) then some (Char.ofNat n) else none

def unescape? : Char → Option Char
  | '\'' => some '\''
  | '"' => some '"'
  | '\\' => some '\\'
  | 'n' => some '\n'
  | 'r' => some '\r'
  | 't' => some '\t'
  | '0' => some '\x00'
  | _ => none

def consTo (c : Char) :
    Except Fault (List Char × List Char) → Except Fault (List Char × List Char) :=
  Except.map fun (body, rest) => (c :: body, rest)

/-- The inside of a string up to its closing quote. While a code point is read, `point?` holds
its value so far and the number of its digits. -/
def stringBody (point? : Option (Nat × Nat)) : Reader (List Char)
  | [] => .error .malformed
  | c :: rest =>
    match point? with
    | some (value, count) =>
      if c = '}' then
        match if count = 0 then none else scalar? value with
        | some c => consTo c (stringBody none rest)
        | none => .error .malformed
      else
        match if count < 6 then Text.hexValue? c else none with
        | some d => stringBody (some (16 * value + d, count + 1)) rest
        | none => .error .malformed
    | none =>
      if c = '"' then .ok ([], rest)
      else if c = '\\' then
        match rest with
        | 'u' :: '{' :: rest => stringBody (some (0, 0)) rest
        | 'x' :: a :: b :: rest =>
          match Text.hexValue? a, Text.hexValue? b with
          | some a, some b => consTo (Char.ofNat (16 * a + b)) (stringBody none rest)
          | _, _ => .error .malformed
        | e :: rest =>
          match unescape? e with
          | some c => consTo c (stringBody none rest)
          | none => .error .malformed
        | [] => .error .malformed
      else consTo c (stringBody none rest)

/-- The inside of a raw string up to a quote with as many number signs as opened it. -/
def rawBody (signs : Nat) : Reader (List Char)
  | [] => .error .malformed
  | c :: rest =>
    if c = '"' ∧ (List.replicate signs '#').isPrefixOf rest then .ok ([], rest.drop signs)
    else consTo c (rawBody signs rest)

def string (s : List Char) : Except Fault (String × List Char) := do
  match s with
  | '"' :: rest =>
    let (body, rest) ← stringBody none rest
    return (String.ofList body, rest)
  | 'r' :: rest =>
    let signs := (rest.takeWhile (· = '#')).length
    let (body, rest) ← rawBody signs (← expect '"' (rest.drop signs))
    return (String.ofList body, rest)
  | _ => throw .malformed

/-- Pass a character in single quotes. -/
def skipCharacter : List Char → Except Fault (List Char)
  | '\'' :: '\\' :: 'u' :: '{' :: rest => do
    let digits := rest.takeWhile (· ≠ '}')
    match (digitsValue? 16 digits).bind scalar? with
    | some _ =>
      if digits.isEmpty ∨ 6 < digits.length then throw .malformed
      else expect '\'' (rest.drop (digits.length + 1))
    | none => throw .malformed
  | '\'' :: '\\' :: 'x' :: a :: b :: rest =>
    if (Text.hexValue? a).isSome ∧ (Text.hexValue? b).isSome then expect '\'' rest
    else .error .malformed
  | '\'' :: '\\' :: e :: rest =>
    if (unescape? e).isSome then expect '\'' rest else .error .malformed
  | '\'' :: c :: rest => if c = '\'' then .error .malformed else expect '\'' rest
  | _ => .error .malformed

end Parley.Ron
