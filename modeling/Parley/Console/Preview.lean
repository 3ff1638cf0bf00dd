import Parley.Console.Outcome
import Parley.Session.Build
import Parley.Session.Deck
import Parley.Session.Wire
import Parley.Text.Blank
import Parley.Text.Lowercase

/-! The preview: a player for the terminal. Commands move the time and send requests, one a line;
after each one the events that it caused are printed. -/
namespace Parley.Console.Preview

def usage : String := "Usage: preview <graph.ron> [--config <session.ron>]"

def prompt : String := "preview> "

def helpLines : List String := [
  "Commands:",
  "  start               (re)start the session",
  "  tick <ms>           advance the clock",
  "  run                 advance until the session needs input",
  "  click               advance request",
  "  choose <n>          select choice n",
  "  skip | interrupt | resume | continue | escape",
  "  ff <on|off>         fast-forward toggle",
  "  auto <on|off>       auto-advance toggle",
  "  set <var> <value>   write a store variable",
  "  vars                list store variables",
  "  state               show session state",
  "  quit                exit"]

/-- What one line asks for. -/
inductive Command
  | nothing
  | quit
  | help
  | start
  | tick (ms : Nat)
  | run
  | request (i : Input)
  | fastForward (on : Bool)
  | autoAdvance (on : Bool)
  | set (name raw : String)
  | vars
  | state
  /-- A command that lacks what it needs. -/
  | incomplete (usage : String)
  | unknown (word : String)
deriving DecidableEq

/-- Digits, perhaps behind a plus sign, as a number below 2⁶⁴. -/
def count? (text : String) : Option Nat :=
  let digits := match text.toList with
    | '+' :: rest => rest
    | all => all
  if digits.isEmpty ∨ !digits.all Char.isDigit then none
  else word? (Decimal.value digits)

def switch? : String → Option Bool
  | "on" => some true
  | "off" => some false
  | _ => none

/-- The command of a line's words. Only its name may be written in any case. -/
def Command.ofWords : List String → Command
  | [] => .nothing
  | word :: args =>
    let name := String.ofList (Text.lowercase word.toList)
    match name, args with
    | "quit", _ | "exit", _ | "q", _ => .quit
    | "help", _ | "h", _ | "?", _ => .help
    | "start", _ => .start
    | "tick", args =>
      match args.head?.bind count? with
      | some ms => .tick ms
      | none => .incomplete "tick <ms>"
    | "run", _ => .run
    | "click", _ => .request .advance
    | "choose", args =>
      match args.head?.bind count? with
      | some n => .request (.choose n)
      | none => .incomplete "choose <n>"
    | "skip", _ => .request .skip
    | "interrupt", _ => .request .interrupt
    | "resume", _ => .request .resume
    | "continue", _ => .request .proceed
    | "escape", _ => .request .escape
    | "ff", args =>
      match args.head?.bind switch? with
      | some on => .fastForward on
      | none => .incomplete "ff <on|off>"
    | "auto", args =>
      match args.head?.bind switch? with
      | some on => .autoAdvance on
      | none => .incomplete "auto <on|off>"
    | "set", name :: first :: rest => .set name (" ".intercalate (first :: rest))
    | "set", _ => .incomplete "set <var> <value>"
    | "vars", _ => .vars
    | "state", _ => .state
    | name, _ => .unknown name

def Command.ofLine (line : String) : Command :=
  .ofWords ((Text.words line.toList).map String.ofList)

/-- The step of `run`, and how many of them it takes at most. -/
def runStep : Duration := .ofMillis 10

def runLimit : Nat := 12000

/-- Tick until nothing is planned or the session is held. -/
def runOn : Nat → Session → Session
  | 0, s => s
  | steps + 1, s =>
    if s.timetable.hasPending ∧ s.phase ≠ .holding then runOn steps (s.tick runStep) else s

/-- A whole number of 64 bits with an optional sign. -/
def int? (text : String) : Option Int64 :=
  let (negative, digits) := Decimal.splitSign text.toList
  if digits.isEmpty ∨ !digits.all Char.isDigit then none
  else signedWord? (if negative then -(Decimal.value digits : Int) else Decimal.value digits)

/-- A value of a kind, as it is typed in. -/
def typedValue? (kind : Kind) (raw : String) : Option Value :=
  match kind with
  | .bool =>
    match raw with
    | "true" => some (.bool true)
    | "false" => some (.bool false)
    | _ => none
  | .int => (int? raw).map Value.int
  | .float => (Binary64.read? raw.toList).map Value.float
  | .string => some (.string raw)

/-- The session after a write, or the lines that say what was wrong with it. -/
def write (s : Session) (name raw : String) : Except (List String) Session :=
  match s.store.kind? name with
  | none => .error [s!"Unknown variable: {name}"]
  | some kind =>
    match typedValue? kind raw with
    | none => .error [s!"Could not parse '{raw}' for {name}"]
    | some value =>
      match s.write? name value with
      | some next => .ok next
      | none => .error []

/-- The answer to a write, and the lines that say what was wrong with it. -/
def setVariable (name raw : String) : Deck.Action (Bool × List String) := do
  let d ← get
  match d.store.kind? name with
  | none => return (false, [s!"Unknown variable: {name}"])
  | some kind =>
    match typedValue? kind raw with
    | none => return (false, [s!"Could not parse '{raw}' for {name}"])
    | some value => return (← Deck.write name value, [])

def choiceLine (o : Offer) : String :=
  s!"  [{o.index}]" ++ (if o.enabled then " " else "x") ++ s!" {o.text}"

def eventLines : Event → List String
  | .sessionStarted => ["[session started]"]
  | .sessionEnded => ["[session ended]"]
  | .nodeEntered id => [s!"[node {id}]"]
  | .dialogueShown frame =>
    (if frame.speakers.isEmpty then []
      else ["  " ++ " & ".intercalate frame.speakers ++ ":"]) ++
      (frame.choices.filter Offer.visible).map choiceLine
  | .textCleared => []
  -- One line for every character would be too many.
  | .textRevealed _ => []
  | .textCompleted _ text => [s!"  \"{String.ofList text}\""]
  | .choiceSelected index _ => [s!"[chose {index}]"]
  | .held => ["[held]"]
  | .resumed => ["[resumed]"]
  | .stalled id => [s!"[stalled at {id}]"]
  | .cue c => [s!"  cue: {c.toText}"]

/-- The events so far, and the text that is being typed. -/
def report (s : Session) : List String × Session :=
  let (events, rest) := s.drain
  let typing :=
    if rest.isTyping then [s!"  ... \"{String.ofList rest.visibleText}\""] else []
  (events.flatMap eventLines ++ typing, rest)

def stateLines (s : Session) : List String :=
  let yesNo (b : Bool) : String := if b then "true" else "false"
  let node := s.position.getD "-"
  [s!"State:        {s.phase.name}",
    s!"Node:         {node}",
    s!"Clock:        {String.ofList s.timetable.now.toText}",
    s!"Typing:       {yesNo s.isTyping}",
    s!"Delaying:     {yesNo s.isDelaying}",
    s!"Fast-forward: {yesNo s.fastForward}",
    s!"Auto-advance: {yesNo s.autoAdvance}",
    s!"Print speed:  {String.ofList s.printSpeed.toText}s",
    s!"Visible:      \"{String.ofList s.visibleText}\""]

def variableLines (s : Session) : List String :=
  s.store.slots.entries.map fun v => s!"  {v.name} = {v.value.toText}"

/-- What a line is answered with, and the session that goes on, if any. -/
structure Turn where
  lines : List String
  next : Option Session

/-- Print and change nothing. -/
def Turn.say (s : Session) (lines : List String) : Turn := ⟨lines, some s⟩

/-- Go on with a session and print its events behind some lines. -/
def Turn.proceed (s : Session) (lines : List String := []) : Turn :=
  let (told, rest) := report s
  ⟨lines ++ told, some rest⟩

def ignored : String := "(ignored)"

def execute (s : Session) : Command → Turn
  | .nothing => .say s []
  | .quit => ⟨["Goodbye."], none⟩
  | .help => .say s helpLines
  | .incomplete usage => .say s [s!"Usage: {usage}"]
  | .unknown word => .say s [s!"Unknown command: {word}. Type 'help' for commands."]
  | .vars => .say s (variableLines s)
  | .state => .say s (stateLines s)
  | .start => .proceed s.start
  | .tick ms => .proceed (s.tick (.ofMillis ms))
  | .run => .proceed (runOn runLimit s)
  | .fastForward on => .proceed (s.setFastForward on)
  | .autoAdvance on => .proceed (s.setAutoAdvance on)
  | .request i =>
    match s.respond? i with
    | some next => .proceed next
    | none => .proceed s [ignored]
  | .set name raw =>
    match write s name raw with
    | .ok next => .proceed next
    | .error complaint => .proceed s (complaint ++ [ignored])

/-- The conversation over some lines, from the next prompt on. -/
def converse (s : Session) : List String → String
  | [] => prompt
  | line :: rest =>
    let turn := execute s (.ofLine line)
    prompt ++ lines turn.lines ++ match turn.next with
      | some next => converse next rest
      | none => ""

/-- The files that the arguments behind the graph name; otherwise the first one that is not
understood. -/
def options (b : Blueprint) : List String → Except String Blueprint
  | [] => .ok b
  | "--config" :: path :: rest => options { b with pacingFile := some path } rest
  | arg :: _ => .error arg

/-- What the arguments ask for, or how the program ends at once. -/
def plan (args : List String) : Except Outcome Blueprint :=
  match args with
  | [] => .error (.success [usage])
  | path :: rest =>
    if path = "--help" ∨ path = "-h" then .error (.success [usage])
    else (options { graphFile := some path } rest).mapError fun arg =>
      ⟨1, lines [usage], lines [s!"Unknown argument: {arg}"]⟩

/-- The session of a plan, or how the program ends without one. -/
def openSession (read : FileReader) (b : Blueprint) : Except Outcome Session :=
  (b.build read).mapError fun fault => .failure s!"ERROR: {fault.message}"

def greeting (s : Session) : List String :=
  [s!"Loaded graph: {s.graph.size} nodes, {s.store.size} variables",
    "Type 'help' for commands.", ""]

/-- The lines of a text; a last one may lack its end. -/
def inputLines (text : String) : List String :=
  let parts := text.splitOn "\n"
  if parts.getLast? = some "" then parts.dropLast else parts

def run (read : FileReader) (args : List String) (stdin : String) : Outcome :=
  match plan args >>= openSession read with
  | .error outcome => outcome
  | .ok s => ⟨0, lines (greeting s) ++ converse s (inputLines stdin), ""⟩

end Parley.Console.Preview
