import Parley.Session.Basic

/-! What a host can do to a session. Requests of the player answer whether they were accepted; one
that is not leaves the session as it is. `Session.perform` runs any operation, so a playthrough is
a list of operations. -/
namespace Parley

/-- Requests that may be refused. -/
inductive Input
  | advance
  | choose (index : Nat)
  | skip
  | interrupt
  | resume
  | proceed
  | escape
deriving DecidableEq

inductive Operation
  | start
  | finish
  | tick (dt : Duration)
  | setFastForward (on : Bool)
  | setAutoAdvance (on : Bool)
  | input (i : Input)
  | write (name : String) (value : Value)
  /-- Fetch the oldest event. -/
  | poll
  /-- Fetch all events. -/
  | drain
deriving DecidableEq

/-- What an operation answers. -/
inductive Reply
  | done
  | accepted (yes : Bool)
  | events (fetched : List Event)
deriving DecidableEq

namespace Session

/-- Start over from the entry, with the variables at their first values. -/
def start (s : Session) : Session :=
  let fresh := s.reset .running
  let begun := { fresh with store := .seed fresh.graph.declarations }.emit .sessionStarted
  let left := begun.leaveNode
  left.land (left.graph.travel left.store left.graph.entry)

/-- A click on the dialogue box: it shows the rest of the text, cuts a delay, or leaves a finished
node that waits for it. -/
def advance? (s : Session) : Option Session :=
  if ¬s.acceptsPlayerInput then none
  else match s.currentDialogue? with
    | none => none
    | some d =>
      if ¬d.choices.isEmpty then none
      else if s.isTyping ∧ s.allowFastAdvance ∧ ¬s.fastForward then some s.finishReveal
      else if s.isDelaying ∧ s.allowFastAdvance then some s.setUp
      else if d.settings.advanceOnClick ∧ ¬s.isTyping ∧ ¬s.isDelaying then some s.goNext
      else none

/-- Take one of the choices on offer, if it is enabled and on display. -/
def choose? (s : Session) (index : Nat) : Option Session :=
  if ¬s.acceptsPlayerInput then none
  else match s.choices[index]? with
    | none => none
    | some offer =>
      if ¬offer.enabled ∨ ¬offer.visible then none
      else
        let left := (s.emit (.choiceSelected index offer.next)).leaveNode
        some <| match left.graph.follow? left.store left.position index with
          | some landing => left.land landing
          | none => left

/-- Show the rest of the text. -/
def skip? (s : Session) : Option Session :=
  if s.acceptsPlayerInput ∧ s.isTyping then some s.finishReveal else none

/-- Hold the session where it is. -/
def interrupt? (s : Session) : Option Session :=
  if s.phase = .idle ∨ s.phase = .holding then none else some s.hold

/-- Release a hold and go on behind the current node. -/
def resume? (s : Session) : Option Session :=
  if s.phase = .holding then
    some (({ s with phase := .running }.emit .resumed).proceed.cue .resumeMusic)
  else none

/-- The host says to go on. -/
def continue? (s : Session) : Option Session :=
  if s.phase = .idle ∨ s.phase = .holding then none else some s.goNext

/-- End the session on the player's wish, where the graph allows it. -/
def escape? (s : Session) : Option Session :=
  if s.allowEscape ∧ s.acceptsPlayerInput then some s.finish else none

def respond? (s : Session) : Input → Option Session
  | .advance => s.advance?
  | .choose index => s.choose? index
  | .skip => s.skip?
  | .interrupt => s.interrupt?
  | .resume => s.resume?
  | .proceed => s.continue?
  | .escape => s.escape?

/-- Fast-forward excludes auto-advance. -/
def setFastForward (s : Session) (on : Bool) : Session :=
  if on then { s with fastForward := true, autoAdvance := false }.pushFastForward
  else { s with fastForward := false }

/-- Auto-advance excludes fast-forward. -/
def setAutoAdvance (s : Session) (on : Bool) : Session :=
  if on then { s with autoAdvance := true, fastForward := false }
  else { s with autoAdvance := false }

def runTask (s : Session) : TaskKind → Session
  | .nodeDelay => s.setUp
  | .reveal => s.revealStep
  | .autoAdvance => s.goNext

/-- Run tasks due by a given time, at most a number of them. -/
def runDue : Nat → Duration → Session → Session
  | 0, _, s => s
  | budget + 1, limit, s =>
    match s.timetable.take? limit with
    | none => s
    | some (kind, timetable) => runDue budget limit ({ s with timetable := timetable }.runTask kind)

/-- Let time pass. Each task runs at its own due time; those beyond the limit of one tick stay
planned. A limit of zero still lets one task run. -/
def tick (s : Session) (dt : Duration) : Session :=
  let limit := s.timetable.now + dt
  let ran := runDue (max 1 s.pacing.maxTasksPerTick) limit s
  { ran with timetable := ran.timetable.settle limit }

/-- Write a variable from outside. -/
def write? (s : Session) (name : String) (value : Value) : Option Session :=
  (s.store.write? name value).map fun store => { s with store := store }

/-- The oldest event and the session without it. -/
def poll (s : Session) : Option Event × Session :=
  (s.events[0]?, { s with events := s.events.extract 1 })

/-- All events and the session without them. -/
def drain (s : Session) : List Event × Session := (s.events.toList, { s with events := #[] })

/-- The answer to a request that may be refused. -/
def answer (s : Session) : Option Session → Reply × Session
  | some next => (.accepted true, next)
  | none => (.accepted false, s)

def perform (s : Session) : Operation → Reply × Session
  | .start => (.done, s.start)
  | .finish => (.done, s.finish)
  | .tick dt => (.done, s.tick dt)
  | .setFastForward on => (.done, s.setFastForward on)
  | .setAutoAdvance on => (.done, s.setAutoAdvance on)
  | .input i => s.answer (s.respond? i)
  | .write name value => s.answer (s.write? name value)
  | .poll => (.events s.poll.1.toList, s.poll.2)
  | .drain => (.events s.drain.1, s.drain.2)

/-- A whole list of operations, with their answers. -/
def performAll (s : Session) : List Operation → List Reply × Session
  | [] => ([], s)
  | op :: ops =>
    let (reply, next) := s.perform op
    let (replies, last) := next.performAll ops
    (reply :: replies, last)

end Session
end Parley
