import Parley.Graph.Lookahead
import Parley.Markup.Style
import Parley.Markup.Typewriter
import Parley.Pacing
import Parley.Session.Event
import Parley.Timetable

/-! The state of one playthrough and the steps it is made of. Each step is a function on states
that appends the events it causes; the functions further down use those further up. -/
namespace Parley

inductive Phase
  | idle
  | running
  /-- Held by an interrupt until it is resumed. -/
  | holding
  /-- The current node waits for the host to say to go on. -/
  | awaiting
deriving DecidableEq

/-- The name by which hosts know a phase. -/
def Phase.name : Phase → String
  | idle => "Idle"
  | running => "Running"
  | holding => "Holding"
  | awaiting => "AwaitingSignal"

structure Session where
  graph : Graph
  pacing : Pacing
  store : Store
  /-- The current node. -/
  position : Option NodeId
  phase : Phase
  timetable : Timetable
  typewriter : Typewriter
  /-- The choices on offer. -/
  choices : List Offer
  /-- Events that the host has not fetched yet, the oldest first. -/
  events : Array Event
  allowEscape : Bool
  allowFastAdvance : Bool
  textShadow : Bool
  autoAdvance : Bool
  fastForward : Bool
  /-- Seconds between two characters, for nodes without an active speed. -/
  printSpeed : Binary64

namespace Session

/-- An idle session. -/
def ofGraph (graph : Graph) (pacing : Pacing) : Session where
  graph := graph
  pacing := pacing
  store := .seed graph.declarations
  position := none
  phase := .idle
  timetable := .empty
  typewriter := .empty
  choices := []
  events := #[]
  allowEscape := graph.rules.allowEscape
  allowFastAdvance := graph.rules.allowFastAdvance
  textShadow := graph.rules.textShadowOnMultipleSpeakers
  autoAdvance := false
  fastForward := false
  printSpeed := pacing.printSpeed

/-- The current node, if it is a dialogue node. -/
def currentDialogue? (s : Session) : Option Dialogue := s.position.bind s.graph.dialogue?

def visibleText (s : Session) : List Char := s.typewriter.shown

def isTyping (s : Session) : Bool := s.timetable.isPending .reveal

def isDelaying (s : Session) : Bool := s.timetable.isPending .nodeDelay

def acceptsPlayerInput (s : Session) : Bool := s.phase = .running

def emit (s : Session) (e : Event) : Session := { s with events := s.events.push e }

def cue (s : Session) (c : Cue) : Session := s.emit (.cue c)

def emitAll (s : Session) (es : List Event) : Session := es.foldl emit s

def schedule (s : Session) (kind : TaskKind) (after : Duration) : Session :=
  { s with timetable := s.timetable.schedule kind after }

def cancel (s : Session) (kind : TaskKind) : Session :=
  { s with timetable := s.timetable.cancel kind }

/-- Back to the state of a new session in a given phase. Variables, events and the clock stay. -/
def reset (s : Session) (phase : Phase) : Session :=
  { s with
    position := none
    phase := phase
    timetable := s.timetable.cancelAll
    typewriter := .empty
    choices := []
    allowEscape := s.graph.rules.allowEscape
    allowFastAdvance := s.graph.rules.allowFastAdvance
    textShadow := s.graph.rules.textShadowOnMultipleSpeakers
    autoAdvance := false
    fastForward := false
    printSpeed := s.pacing.printSpeed }.cue .resetAudio

/-- End the session. An idle one has nothing to end. -/
def finish (s : Session) : Session :=
  if s.phase = .idle then s else (s.reset .idle).emit .sessionEnded

/-- Nothing that was planned for a node may touch the next one. -/
def leaveNode (s : Session) : Session :=
  { s with
    timetable := s.timetable.cancelAll
    choices := []
    phase := if s.phase = .awaiting then .running else s.phase }

/-- Stop where the session is. -/
def hold (s : Session) : Session :=
  ({ s with phase := .holding, timetable := s.timetable.cancelAll }.cue .pauseMusic).emit .held

/-- Enter a dialogue node: clear the text unless it is kept, and wait out the delay. -/
def enterDialogue (s : Session) (id : NodeId) : Session :=
  match s.graph.dialogue? id with
  | none => s.finish
  | some d =>
    let entered := s.emit (.nodeEntered id)
    let cleared :=
      if d.settings.keepPreviousText then entered
      else { entered with typewriter := .empty }.emit .textCleared
    cleared.schedule .nodeDelay <|
      if cleared.fastForward then .zero
      else .ofSeconds (d.settings.preDelay.resolve cleared.store)

/-- Take up the place where a move came to rest. -/
def land (s : Session) (landing : Landing) : Session :=
  let moved := { s with position := landing.position }
  match landing with
  | .ended => moved.finish
  | .dialogue id => moved.enterDialogue id
  | .hold id => (moved.emit (.nodeEntered id)).hold
  | .stalled id => moved.emit (.stalled id)

/-- Leave the current node for its plain successor. -/
def proceed (s : Session) : Session :=
  let left := s.leaveNode
  left.land (left.graph.proceed left.store left.position)

/-- Go to the next node of the story. -/
def goNext (s : Session) : Session := (s.cue .stopSounds).proceed

/-- The name that a speaker shows on the plate, if talking under any name. -/
def plateName? (store : Store) (speaker : Speaker) : Option String :=
  let name := speaker.name.resolve store
  if name = "" ∨ ¬speaker.talking.resolve store then none
  else some (if speaker.hideName.resolve store then "???" else name)

/-- What the host draws for a dialogue node. -/
def frame (s : Session) (d : Dialogue) : Frame :=
  let settings := d.settings
  let speakers := d.speakers.filterMap (plateName? s.store)
  let textShadow := 1 < speakers.length && s.textShadow
  let text := Markup.style settings s.store d.text.toList
  { node := d.id
    speakers := speakers
    text := text
    keepPreviousText := settings.keepPreviousText
    choices := d.offers s.store
    layout := ⟨settings.textAlign.resolveActive s.store, settings.wrapText.resolveActive s.store⟩
    boxStyle :=
      ⟨(settings.boxTransition.resolveActive s.store).getD s.graph.rules.boxTransition,
        settings.boxColor.resolveActive s.store,
        settings.boxImage.resolveActive s.store,
        settings.namePlateColor.resolveActive s.store,
        settings.namePlateImage.resolveActive s.store⟩
    textShadow := textShadow
    shadowText := if textShadow then some (Markup.stripColors text) else none }

/-- Cues that come before a node's frame. -/
def cuesBefore (store : Store) (settings : Presentation) : List Cue :=
  ((settings.broadcast.resolveActive store).map Cue.broadcast).toList ++
    ((settings.background.resolveActive store).map fun image =>
      Cue.background image (settings.backgroundTransition.resolve store)).toList

/-- Cues that come after a node's frame. -/
def cuesAfter (store : Store) (settings : Presentation) : List Cue :=
  ((settings.musicQueue.resolveActive store).map fun tracks =>
      Cue.musicQueue tracks (settings.musicLoop.resolve store)
        (settings.musicShuffle.resolve store)).toList ++
    ((settings.sounds.resolveActive store).map Cue.playSounds).toList

/-- Whether the text of the dialogue node ahead will be appended to the current one. -/
def nextKeepsText (s : Session) (d : Dialogue) : Bool :=
  match s.graph.ahead? s.store d.next with
  | some next => next.settings.keepPreviousText
  | none => false

/-- All text of the current node is visible: report it, then go on, wait, or stay. -/
def completeText (s : Session) : Session :=
  let stopped := s.cancel .reveal
  match stopped.currentDialogue? with
  | none => stopped
  | some d =>
    let done := stopped.emit (.textCompleted d.id stopped.visibleText)
    if done.phase = .awaiting ∨ ¬d.choices.isEmpty then done
    else if done.autoAdvance then
      if done.nextKeepsText d then done.goNext
      else done.schedule .autoAdvance done.pacing.autoAdvanceInterval
    else if ¬d.settings.advanceOnClick ∨ done.fastForward then done.goNext
    else done

/-- Take over the speed of the current node, if it has an active one. -/
def adoptSpeed (s : Session) : Session :=
  match s.currentDialogue?.bind fun d => d.settings.printSpeed.resolveActive s.store with
  | some speed => { s with printSpeed := speed }
  | none => s

/-- The wait before the next character. -/
def revealInterval (s : Session) : Duration :=
  if s.fastForward then s.pacing.fastForwardInterval else .ofSeconds s.printSpeed

/-- Show one more character, or complete the text. The speed is read at every character, so a
change of variables takes effect at once. -/
def revealStep (s : Session) : Session :=
  match s.typewriter.step with
  | (.finished, typewriter) => { s with typewriter := typewriter }.completeText
  | (.revealed _, typewriter) =>
    let shown := { s with typewriter := typewriter }.emit (.textRevealed typewriter.shown)
    let paced := shown.adoptSpeed
    paced.schedule .reveal paced.revealInterval

/-- Set the current dialogue node up: cues, frame, and the first character. -/
def setUp (s : Session) : Session :=
  let started := s.cancel .nodeDelay
  match started.currentDialogue? with
  | none => started
  | some d =>
    let frame := started.frame d
    let opened := { started with phase := if d.settings.awaitContinue then .awaiting else .running }
    let announced := opened.emitAll ((cuesBefore opened.store d.settings).map Event.cue)
    let shown := { announced with choices := frame.choices }.emit (.dialogueShown frame)
    let cued := shown.emitAll ((cuesAfter shown.store d.settings).map Event.cue)
    { cued with typewriter := cued.typewriter.feed frame.text }.revealStep

/-- Show the rest of the text at once. -/
def finishReveal (s : Session) : Session :=
  { s.cancel .reveal with typewriter := s.typewriter.showAll }.completeText

/-- Fast-forward acts as a click held down: it cuts a delay, and leaves a finished node that waits
for a click. -/
def pushFastForward (s : Session) : Session :=
  match s.currentDialogue? with
  | none => s
  | some d =>
    if ¬s.acceptsPlayerInput ∨ ¬d.choices.isEmpty then s
    else if s.isDelaying then
      if s.allowFastAdvance then s.setUp else s
    else if ¬s.isTyping ∧ d.settings.advanceOnClick ∧ ¬s.timetable.isPending .autoAdvance then
      s.goNext
    else s

end Session
end Parley
