import Parley.Console.Scripted
import Parley.Session.Wire
import Parley.Story.Tavern

/-! The tavern scene, played at sixty frames a second by a host who takes the first choice, clicks
when a line is done, and releases every hold. -/
namespace Parley.Console.TavernShow

def choiceLine (o : Offer) : String :=
  s!"   {o.index + 1}. {o.text}" ++ if o.enabled then "" else " (unavailable)"

def tell : Event → List String
  | .dialogueShown frame =>
    let who := if frame.speakers.isEmpty then "Narrator" else " & ".intercalate frame.speakers
    s!"[{who}] {String.ofList frame.text}" ::
      (frame.choices.filter Offer.visible).map choiceLine
  | .cue .stopSounds => []
  | .cue .resetAudio => []
  | .cue c => [s!"   ~ {c.toText}"]
  | .held => ["   -- held --"]
  | .stalled id => [s!"   !! stalled at {id}"]
  | .sessionEnded => ["   -- end --"]
  | _ => []

def act (_ : Unit) (s : Session) : List String × Unit × Session :=
  match s.phase with
  | .holding => (["   (the host plays a cutscene, then resumes)"], (), request s .resume)
  | .running =>
    if s.isTyping ∨ s.isDelaying then ([], (), s)
    else match s.choices.find? fun o => o.enabled ∧ o.index = 0 with
      | some o => ([s!"   > {o.text}"], (), request s (.choose o.index))
      | none => ([], (), if s.choices.isEmpty then request s .advance else s)
  | _ => ([], (), s)

def script : Script Unit where
  frame := .ofNanos 16667000
  frameLimit := 60 * 120
  tell := tell
  act := act

def run : Outcome :=
  let graph := Story.Tavern.graph
  let (played, _, last) := script.run () (Session.ofGraph graph default).start
  let seconds := String.ofList (last.timetable.now.toSeconds.toFixed 2)
  .success <| issueLines graph ++ ["=== The Rusty Flagon ===", ""] ++ played ++
    ["", s!"=== Curtain ({seconds}s of simulated time) ==="]

end Parley.Console.TavernShow
