import Parley.Document.Whole
import Parley.Graph.Lint
import Parley.Json.Reader
import Parley.Session.Deck
import Parley.Session.Wire
import Parley.Story.Tavern
import Parley.Text.Blank

/-! A player for a page, which exchanges JSON texts with it. Whatever is no message at all is
refused; a message that does not fit the session is answered with `false`. What reads the JSON is
not the player's own, so it may be anything. -/
namespace Parley.Player

/-- A session of a document, or of the tavern scene if the text is blank. -/
def ofText (text : String) : Except Ron.Fault Session :=
  if text.toList.all Text.isBlank then .ok (.ofGraph Story.Tavern.graph default)
  else (Graph.parse text).map fun g => .ofGraph g default

def issues (s : Session) : List String := s.graph.lint.map Issue.message

/-- Let milliseconds pass. Infinities, NaN and times not above zero do nothing; nothing is
returned for a time that is too long for any span. -/
def tick? (s : Session) (ms : Binary64) : Option Session :=
  if ms.isFinite ∧ 0 < ms.place then (Duration.ofSeconds? (ms.divide 1000)).map s.tick else some s

/-- The messages that name a request and carry nothing. -/
def plainInput? : String → Option Input
  | "advance" => some .advance
  | "skip" => some .skip
  | "interrupt" => some .interrupt
  | "resume" => some .resume
  | "continue" => some .proceed
  | "escape" => some .escape
  | _ => none

/-- How many members of an object have a name. -/
def occurrences (name : String) (members : List (String × Json)) : Nat :=
  members.countP fun m => m.1 = name

/-- A request as an object with a type, or as an array that starts with it. A choice has an index;
other members are ignored, other elements are not. -/
def inputOfJson? : Json → Option Input
  | .object members =>
    if occurrences "type" members ≠ 1 then none
    else match members.lookup "type" with
      | some (.string "choose") =>
        if occurrences "index" members ≠ 1 then none
        else ((members.lookup "index").bind Codec.count.decode?).map Input.choose
      | some (.string name) => plainInput? name
      | _ => none
  | .array [.string name] => plainInput? name
  | .array [.string "choose", index] => (Codec.count.decode? index).map Input.choose
  | _ => none

def input? (text : String) (read? : String → Option Json := Json.parse?) : Option Input :=
  (read? text).bind inputOfJson?

/-- The value that a JSON scalar gives a variable of a kind. Whole numbers may stand for floats,
but not the other way round. -/
def valueOfJson? (kind : Kind) (j : Json) : Option Value :=
  match kind with
  | .bool => (Codec.bool.decode? j).map Value.bool
  | .int => (Codec.int.decode? j).map Value.int
  | .float => (Codec.float.decode? j).map Value.float
  | .string => (Codec.string.decode? j).map Value.string

/-- Write a variable, if it exists and the value fits it. -/
def write? (s : Session) (name : String) (j : Json) : Option Session := do
  let kind ← s.store.kind? name
  s.write? name (← valueOfJson? kind j)

def setVariable (name : String) (j : Json) : Deck.Action Bool := do
  let d ← get
  match d.store.kind? name with
  | none => return false
  | some kind =>
    match valueOfJson? kind j with
    | none => return false
    | some value => Deck.write name value

/-- What a page asks to write, as a text. Nothing is answered if that is no JSON. -/
def setText (read? : String → Option Json) (name text : String) : Deck.Action (Option Bool) := do
  match read? text with
  | none => return none
  | some j => return some (← setVariable name j)

/-- A snapshot for a status bar. -/
def status (s : Session) : Json := .object [
  ("state", .string s.phase.name),
  ("node", .ofOption .string s.position),
  ("visible_text", .text s.visibleText),
  ("typing", .bool s.isTyping),
  ("delaying", .bool s.isDelaying),
  ("auto_advance", .bool s.autoAdvance),
  ("fast_forward", .bool s.fastForward)]

end Parley.Player
