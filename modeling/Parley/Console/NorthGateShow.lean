import Parley.Console.Scripted
import Parley.Story.NorthGate

/-! The scene at the north gate, played with auto-advance by a host who whispers one password after
the other when asked, and takes the first choice. -/
namespace Parley.Console.NorthGateShow

def tell : Event → List String
  | .nodeEntered id => [s!"-> {id}"]
  | .dialogueShown frame =>
    let who := frame.speakers.headD ""
    s!"[{who}] {String.ofList frame.text}" ::
      frame.choices.map fun o => s!"   {o.index + 1}. {o.text}"
  | .choiceSelected index _ => [s!"   > choice {index + 1}"]
  | .held => ["   -- held --"]
  | .resumed => ["   -- resumed --"]
  | .sessionEnded => ["   -- end --"]
  | _ => []

/-- The password of an attempt; the last one is repeated. -/
def guess : Nat → String
  | 0 => "open sesame"
  | _ => "mellon"

/-- Whisper a password, count the attempt, and go on. -/
def whisper (attempts : Nat) (s : Session) : Session :=
  let told := (s.write? "password" (.string (guess attempts))).getD s
  let counted := (told.write? "attempts" (.int (.ofNat (attempts + 1)))).getD told
  request counted .proceed

def act (attempts : Nat) (s : Session) : List String × Nat × Session :=
  match s.phase with
  | .awaiting =>
    if s.isTyping then ([], attempts, s)
    else
      let word := guess attempts
      ([s!"   (the traveller whispers \"{word}\")"], attempts + 1, whisper attempts s)
  | .holding => (["   (the gate animation plays)"], attempts, request s .resume)
  | .running =>
    ([], attempts,
      if ¬s.choices.isEmpty ∧ ¬s.isTyping then request s (.choose 0) else s)
  | .idle => ([], attempts, s)

def script : Script Nat where
  frame := .ofMillis 16
  frameLimit := 60 * 60
  tell := tell
  act := act

def pacing : Pacing := { (default : Pacing) with autoAdvanceDelay := .ofRatio false 6 10 }

def run : Outcome :=
  let graph := Story.NorthGate.graph
  let (played, attempts, _) :=
    script.run 0 ((Session.ofGraph graph pacing).start.setAutoAdvance true)
  .success <| issueLines graph ++ ["=== The North Gate ===", ""] ++ played ++
    ["", s!"=== {attempts} attempt(s) ==="]

end Parley.Console.NorthGateShow
