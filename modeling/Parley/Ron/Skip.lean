import Parley.Ron.Lexeme

/-! What a document allows beyond its schema: attributes at its head, and any well-formed value
where a field is not known. Nesting is bounded by a budget that every bracket, element, key and
value draws on. -/
namespace Parley.Ron

/-- The allowances of a document, and the place in it that is read next. -/
structure Mode where
  /-- Options may be written without `Some`. -/
  implicitSome : Bool
  /-- The fields of a record that a variant holds stand in the brackets of the variant. -/
  bareVariants : Bool
  /-- The variant whose brackets have been opened, if they are to hold the fields themselves. -/
  opened : Option String
  /-- How much deeper the document may nest. -/
  budget : Nat

namespace Mode

/-- The start of a document without allowances. -/
def plain : Mode := ⟨false, false, none, 128⟩

/-- A place further down in the document. -/
def below (mode : Mode) (levels : Nat) : Mode :=
  { mode with opened := none, budget := mode.budget - levels }

/-- The inside of a variant's brackets. -/
def inVariant (mode : Mode) (name : String) : Mode :=
  { mode.below 2 with opened := if mode.bareVariants then some name else none }

end Mode

abbrev Skipper := List Char → Except Fault (List Char)

/-- Elements up to a closing bracket, which is taken as well. A comma stands between any two, and
may stand behind the last. -/
def skipElements (element : Skipper) (close : Char) : Nat → Bool → Skipper
  | 0, _, _ => .error .malformed
  | fuel + 1, separated, s => do
    match ← skip s with
    | [] => throw .malformed
    | c :: rest =>
      if c = close then return rest
      else if separated then
        let (separated, rest) ← comma (← element (c :: rest))
        skipElements element close fuel separated rest
      else throw .malformed

/-- A key and its value. -/
def skipPair (key value : Skipper) (s : List Char) : Except Fault (List Char) := do
  let rest ← skip (← key s)
  value (← skip (← expect ':' rest))

def skipIdentifier (s : List Char) : Except Fault (List Char) := do
  let (_, rest) ← identifier s
  return rest

/-- Whether the inside of round brackets holds fields rather than elements. -/
def holdsFields (s : List Char) : Except Fault Bool := do
  match identifier (← skip s) with
  | .error _ => return false
  | .ok (_, rest) =>
    match ← skip rest with
    | c :: _ => return c = ':'
    | [] => throw .malformed

/-- A number of any kind. What is no whole number of 64 bits is read as a float. -/
def skipNumber (s : List Char) : Except Fault (List Char) :=
  let body := (Decimal.splitSign s).2
  let wholeLength := (body.takeWhile fun c => (Text.hexValue? c).isSome || c = '_').length
  let floatLength := (body.takeWhile inFloat).length
  let whole : Except Fault (List Char) :=
    if body.length < s.length then (signed s).map Prod.snd else (unsigned s).map Prod.snd
  if wholeLength < floatLength then (float s).map Prod.snd
  else match whole with
    | .ok rest => .ok rest
    | .error _ => (float s).map Prod.snd

/-- What the budget still allows inside a value. -/
structure Nesting where
  /-- A value inside `Some`. -/
  content : Skipper
  /-- Whether brackets may open at all. -/
  brackets : Bool
  /-- A value inside brackets. -/
  element : Skipper

/-- A round bracket with fields or elements. -/
def skipRound (nesting : Nesting) (s : List Char) : Except Fault (List Char) := do
  let rest ← expect '(' s
  if ¬nesting.brackets then throw .malformed
  if ← holdsFields rest then
    skipElements (skipPair skipIdentifier nesting.element) ')' (rest.length + 1) true rest
  else skipElements nesting.element ')' (rest.length + 1) true rest

/-- What stands behind the word `Some`. -/
def skipSome (mode : Mode) (nesting : Nesting) (s : List Char) : Except Fault (List Char) := do
  match ← skip s with
  | '(' :: rest =>
    let (_, rest) ← comma (← nesting.content (← skip rest))
    expect ')' rest
  | rest => if mode.implicitSome then nesting.content rest else throw .malformed

/-- One value of any kind. -/
def skipAny (mode : Mode) (nesting : Nesting) (s : List Char) : Except Fault (List Char) := do
  let word := ["true", "false", "None"].findSome? fun w => afterWord? w s
  let unitOrFloat := ["inf", "-inf", "NaN"].findSome? fun w => afterWord? w s
  match afterWord? "Some" s, word, s, unitOrFloat with
  | some rest, _, _, _ => skipSome mode nesting rest
  | _, some rest, _, _ => return rest
  | _, _, '(' :: ')' :: rest, _ => return rest
  | _, _, _, some rest => return rest
  | _, _, _, _ =>
    match identifier s with
    | .ok (_, rest) =>
      match ← skip rest with
      | '(' :: rest => skipRound nesting ('(' :: rest)
      | rest => return rest
    | .error _ =>
      match s with
      | '(' :: _ => skipRound nesting s
      | '[' :: rest =>
        if nesting.brackets then skipElements nesting.element ']' s.length true rest
        else throw .malformed
      | '{' :: rest =>
        if nesting.brackets then
          skipElements (skipPair nesting.element nesting.element) '}' s.length true rest
        else throw .malformed
      | '"' :: _ | 'r' :: _ => return (← string s).2
      | '\'' :: _ => skipCharacter s
      | '.' :: _ => return (← float s).2
      | c :: _ =>
        if c.isDigit ∨ c = '+' ∨ c = '-' then skipNumber s else throw .malformed
      | [] => throw .malformed

/-- Pass a value of any kind within a budget: content of `Some` takes one level, what stands in
brackets two. -/
def skipWithin (mode : Mode) : Nat → Skipper
  | 0, s => skipAny mode ⟨fun _ => .error .malformed, false, fun _ => .error .malformed⟩ s
  | 1, s => skipAny mode ⟨skipWithin mode 0, true, fun _ => .error .malformed⟩ s
  | n + 2, s => skipAny mode ⟨skipWithin mode (n + 1), true, skipWithin mode n⟩ s

def skipValue (mode : Mode) (s : List Char) : Except Fault (List Char) :=
  skipWithin mode mode.budget s

/-- Words that must follow each other, with blanks allowed behind each. -/
def expectWords : List String → List Char → Except Fault (List Char)
  | [], s => .ok s
  | word :: rest, s =>
    if word.toList.isPrefixOf s then do expectWords rest (← skip (s.drop word.length))
    else .error .malformed

def Mode.allow (mode : Mode) : String → Except Fault Mode
  | "implicit_some" => .ok { mode with implicitSome := true }
  | "unwrap_variant_newtypes" => .ok { mode with bareVariants := true }
  | "unwrap_newtypes" => .ok mode
  | _ => .error .malformed

/-- The names of an attribute, with commas between them and perhaps behind the last. -/
def allowances : Nat → Mode → List Char → Except Fault (Mode × List Char)
  | 0, _, _ => .error .malformed
  | fuel + 1, mode, s => do
    let (name, rest) ← identifier s
    let mode ← mode.allow name
    let (separated, rest) ← comma rest
    if rest.head?.any inName then
      if separated then allowances fuel mode rest else throw .malformed
    else return (mode, rest)

/-- The attributes at the head of a document, and the blanks around them. -/
def head : Nat → Mode → List Char → Except Fault (Mode × List Char)
  | 0, _, _ => .error .malformed
  | fuel + 1, mode, s => do
    match ← skip s with
    | '#' :: rest =>
      let names ← expectWords ["#", "!", "[", "enable", "("] ('#' :: rest)
      let (mode, rest) ← allowances s.length mode names
      head fuel mode (← expectWords [")", "]"] (← skip rest))
    | rest => return (mode, rest)

end Parley.Ron
