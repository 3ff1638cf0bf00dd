import Parley.Console.Outcome
import Parley.Graph.Lint
import Parley.Session.Operation

/-! Hosts that play a session by a script: time passes in frames of one length, and after each
frame the host tells what happened and acts. -/
namespace Parley.Console

structure Script (σ : Type) where
  frame : Duration
  /-- The play is cut off after this many frames. -/
  frameLimit : Nat
  /-- The lines that tell of an event. -/
  tell : Event → List String
  /-- What the host says and does, by what it remembers. -/
  act : σ → Session → List String × σ × Session

namespace Script

def report (script : Script σ) (s : Session) : List String × Session :=
  let (events, rest) := s.drain
  (events.flatMap script.tell, rest)

/-- Play a number of frames, or until the session is idle. -/
def play (script : Script σ) : Nat → σ → Session → List String × σ × Session
  | 0, memory, s =>
    let (told, s) := script.report s
    (told, memory, s)
  | frames + 1, memory, s =>
    if s.phase = .idle then
      let (told, s) := script.report s
      (told, memory, s)
    else
      let (told, s) := script.report (s.tick script.frame)
      let (said, memory, s) := script.act memory s
      let (more, memory, s) := script.play frames memory s
      (told ++ said ++ more, memory, s)

/-- The whole play. -/
def run (script : Script σ) (memory : σ) (s : Session) : List String × σ × Session :=
  script.play script.frameLimit memory s

end Script

/-- The problems of a graph, as scripted hosts print them. -/
def issueLines (g : Graph) : List String := g.lint.map fun issue => s!"lint: {issue.message}"

/-- A request that is fine to be ignored. -/
def request (s : Session) (i : Input) : Session := (s.respond? i).getD s

end Parley.Console
