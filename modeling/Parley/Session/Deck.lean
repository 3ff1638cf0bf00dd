import Parley.Graph.Traveller
import Parley.Session.Operation

/-! A session as the machine that plays it. The phase is not kept but shown: it comes of three
switches, which the functions turn one by one, and each request answers for itself whether it was
accepted. -/
namespace Parley

structure Deck where
  graph : Graph
  pacing : Pacing
  store : Store
  /-- Stands at the current node. -/
  traveller : Traveller
  timetable : Timetable
  typewriter : Typewriter
  choices : List Offer
  events : Array Event
  running : Bool
  held : Bool
  /-- Nothing but a signal of the host leads on. -/
  awaiting : Bool
  allowEscape : Bool
  allowFastAdvance : Bool
  textShadow : Bool
  autoAdvance : Bool
  fastForward : Bool
  printSpeed : Binary64

namespace Deck

def ofGraph (graph : Graph) (pacing : Pacing) : Deck where
  graph := graph
  pacing := pacing
  store := .seed graph.declarations
  traveller := ⟨none⟩
  timetable := .empty
  typewriter := .empty
  choices := []
  events := #[]
  running := false
  held := false
  awaiting := false
  allowEscape := graph.rules.allowEscape
  allowFastAdvance := graph.rules.allowFastAdvance
  textShadow := graph.rules.textShadowOnMultipleSpeakers
  autoAdvance := false
  fastForward := false
  printSpeed := pacing.printSpeed

/-- The phase that the switches show. A deck that is off shows no other switch, and one that is
held does not show whether it is awaiting anything. -/
def phase (d : Deck) : Phase :=
  if ¬d.running then .idle
  else if d.held then .holding
  else if d.awaiting then .awaiting
  else .running

/-- The session that is on the deck. -/
def session (d : Deck) : Session where
  graph := d.graph
  pacing := d.pacing
  store := d.store
  position := d.traveller.current
  phase := d.phase
  timetable := d.timetable
  typewriter := d.typewriter
  choices := d.choices
  events := d.events
  allowEscape := d.allowEscape
  allowFastAdvance := d.allowFastAdvance
  textShadow := d.textShadow
  autoAdvance := d.autoAdvance
  fastForward := d.fastForward
  printSpeed := d.printSpeed

def currentDialogue? (d : Deck) : Option Dialogue :=
  match d.traveller.currentNode? d.graph with
  | some (.dialogue n) => some n
  | _ => none

def isTyping (d : Deck) : Bool := d.timetable.isPending .reveal

def isDelaying (d : Deck) : Bool := d.timetable.isPending .nodeDelay

def acceptsPlayerInput (d : Deck) : Bool := d.running && !d.held && !d.awaiting

/-- What is done on a deck. -/
abbrev Action (α : Type) := StateM Deck α

def emit (e : Event) : Action Unit := modify fun d => { d with events := d.events.push e }

def cue (c : Cue) : Action Unit := emit (.cue c)

def emitAll : List Event → Action Unit
  | [] => pure ()
  | e :: es => do
    emit e
    emitAll es

def schedule (kind : TaskKind) (after : Duration) : Action Unit :=
  modify fun d => { d with timetable := d.timetable.schedule kind after }

def cancel (kind : TaskKind) : Action Unit :=
  modify fun d => { d with timetable := d.timetable.cancel kind }

def reset (running : Bool) : Action Unit := do
  modify fun d =>
    { d with
      timetable := d.timetable.cancelAll
      allowEscape := d.graph.rules.allowEscape
      allowFastAdvance := d.graph.rules.allowFastAdvance
      textShadow := d.graph.rules.textShadowOnMultipleSpeakers }
  cue .resetAudio
  modify fun d =>
    { d with
      autoAdvance := false
      fastForward := false
      running := running
      held := false
      awaiting := false
      printSpeed := d.pacing.printSpeed }
  modify fun d => { d with traveller := ⟨none⟩, typewriter := .empty, choices := [] }

def finish : Action Unit := do
  let d ← get
  if d.running then
    reset false
    emit .sessionEnded

def leaveNode : Action Unit :=
  modify fun d => { d with timetable := d.timetable.cancelAll, choices := [], awaiting := false }

def hold : Action Unit := do
  modify fun d => { d with held := true, timetable := d.timetable.cancelAll }
  cue .pauseMusic
  emit .held

def enterDialogue (id : NodeId) : Action Unit := do
  let d ← get
  match d.graph.dialogue? id with
  | none => finish
  | some n =>
    emit (.nodeEntered id)
    if ¬n.settings.keepPreviousText then
      modify fun d => { d with typewriter := .empty }
      emit .textCleared
    schedule .nodeDelay <|
      if d.fastForward then .zero else .ofSeconds (n.settings.preDelay.resolve d.store)

/-- Take up the place where the traveller came to rest. -/
def land : Landing → Action Unit
  | .ended => finish
  | .dialogue id => enterDialogue id
  | .hold id => do
    emit (.nodeEntered id)
    hold
  | .stalled id => emit (.stalled id)

/-- Let the traveller move. -/
def move (way : Graph → Store → StateM Traveller α) : Action α := do
  let d ← get
  let (a, traveller) := (way d.graph d.store).run d.traveller
  set { d with traveller := traveller }
  return a

/-- Leave the current node for its plain successor. -/
def proceed : Action Unit := do
  leaveNode
  let landing ← move Traveller.proceed
  land landing

def goNext : Action Unit := do
  cue .stopSounds
  proceed

/-- Leave the current node by one of its written choices. -/
def follow (index : Nat) : Action Unit := do
  match ← move fun graph store => Traveller.choose? graph store index with
  | some landing => land landing
  | none => pure ()

def completeText : Action Unit := do
  cancel .reveal
  let d ← get
  match d.currentDialogue? with
  | none => pure ()
  | some n =>
    emit (.textCompleted n.id d.typewriter.shown)
    if d.awaiting ∨ ¬n.choices.isEmpty then
      pure ()
    else if d.autoAdvance then
      if d.session.nextKeepsText n then goNext
      else schedule .autoAdvance d.pacing.autoAdvanceInterval
    else if ¬n.settings.advanceOnClick ∨ d.fastForward then
      goNext

/-- Take over the speed of the current node, if it has an active one. -/
def adoptSpeed : Action Unit := do
  let d ← get
  match d.currentDialogue?.bind fun n => n.settings.printSpeed.resolveActive d.store with
  | some speed => set { d with printSpeed := speed }
  | none => pure ()

/-- The wait before the next character, at the speed that is taken over. -/
def revealInterval : Action Duration := do
  adoptSpeed
  let d ← get
  return if d.fastForward then d.pacing.fastForwardInterval else .ofSeconds d.printSpeed

/-- Let the typewriter take a step. -/
def type : Action Typewriter.Stroke := do
  let d ← get
  let (stroke, typewriter) := d.typewriter.step
  set { d with typewriter := typewriter }
  return stroke

def revealStep : Action Unit := do
  match ← type with
  | .revealed _ =>
    let d ← get
    emit (.textRevealed d.typewriter.shown)
    let interval ← revealInterval
    schedule .reveal interval
  | .finished => completeText

def setUp : Action Unit := do
  cancel .nodeDelay
  let d ← get
  match d.currentDialogue? with
  | none => pure ()
  | some n =>
    let frame := d.session.frame n
    modify fun d => { d with awaiting := n.settings.awaitContinue }
    emitAll ((Session.cuesBefore d.store n.settings).map Event.cue)
    modify fun d => { d with choices := frame.choices }
    emit (.dialogueShown frame)
    emitAll ((Session.cuesAfter d.store n.settings).map Event.cue)
    modify fun d => { d with typewriter := d.typewriter.feed frame.text }
    revealStep

def finishReveal : Action Unit := do
  cancel .reveal
  modify fun d => { d with typewriter := d.typewriter.showAll }
  completeText

def pushFastForward : Action Unit := do
  let d ← get
  if d.acceptsPlayerInput then
    match d.currentDialogue? with
    | none => pure ()
    | some n =>
      if ¬n.choices.isEmpty then pure ()
      else if d.isDelaying then
        if d.allowFastAdvance then setUp
      else if ¬d.isTyping ∧ n.settings.advanceOnClick ∧ ¬d.timetable.isPending .autoAdvance then
        goNext

def start : Action Unit := do
  reset true
  modify fun d => { d with store := .seed d.graph.declarations }
  emit .sessionStarted
  leaveNode
  let d ← get
  let landing ← move fun graph store => Traveller.goTo graph store d.graph.entry
  land landing

def interrupt : Action Bool := do
  let d ← get
  if ¬d.running ∨ d.held then return false
  hold
  return true

/-- Only whether the deck is held is looked at. -/
def resume : Action Bool := do
  let d ← get
  if ¬d.held then return false
  modify fun d => { d with held := false }
  emit .resumed
  proceed
  cue .resumeMusic
  return true

def escape : Action Bool := do
  let d ← get
  if ¬d.allowEscape ∨ ¬d.acceptsPlayerInput then return false
  finish
  return true

def advance : Action Bool := do
  let d ← get
  if ¬d.acceptsPlayerInput then return false
  match d.currentDialogue? with
  | none => return false
  | some n =>
    if ¬n.choices.isEmpty then return false
    if d.isTyping ∧ d.allowFastAdvance ∧ ¬d.fastForward then
      finishReveal
      return true
    else if d.isDelaying ∧ d.allowFastAdvance then
      setUp
      return true
    else if n.settings.advanceOnClick ∧ ¬d.isTyping ∧ ¬d.isDelaying then
      goNext
      return true
    else return false

def choose (index : Nat) : Action Bool := do
  let d ← get
  if ¬d.acceptsPlayerInput then return false
  match d.choices[index]? with
  | none => return false
  | some offer =>
    if ¬offer.enabled ∨ ¬offer.visible then return false
    emit (.choiceSelected index offer.next)
    leaveNode
    follow index
    return true

def skip : Action Bool := do
  let d ← get
  if ¬d.acceptsPlayerInput ∨ ¬d.isTyping then return false
  finishReveal
  return true

/-- Whether the deck is awaiting anything is not looked at. -/
def continue_ : Action Bool := do
  let d ← get
  if ¬d.running ∨ d.held then return false
  modify fun d => { d with awaiting := false }
  goNext
  return true

def take : Input → Action Bool
  | .advance => advance
  | .choose index => choose index
  | .skip => skip
  | .interrupt => interrupt
  | .resume => resume
  | .proceed => continue_
  | .escape => escape

def setFastForward (on : Bool) : Action Unit := do
  modify fun d => { d with fastForward := on }
  if on then
    modify fun d => { d with autoAdvance := false }
    pushFastForward

def setAutoAdvance (on : Bool) : Action Unit := do
  modify fun d => { d with autoAdvance := on }
  if on then
    modify fun d => { d with fastForward := false }

def runTask : TaskKind → Action Unit
  | .nodeDelay => setUp
  | .reveal => revealStep
  | .autoAdvance => goNext

def runDue (limit : Duration) : Nat → Action Unit
  | 0 => pure ()
  | budget + 1 => do
    let d ← get
    match d.timetable.take? limit with
    | none => pure ()
    | some (kind, timetable) =>
      set { d with timetable := timetable }
      runTask kind
      runDue limit budget

def tick (dt : Duration) : Action Unit := do
  let d ← get
  let limit := d.timetable.now + dt
  runDue limit (max 1 d.pacing.maxTasksPerTick)
  modify fun d => { d with timetable := d.timetable.settle limit }

/-- Write a value of any type that a field can have. The variable keeps its kind. -/
def setVariable [Storable α] (name : String) (x : α) : Action Bool := do
  let d ← get
  match d.store.value? name with
  | none => return false
  | some old =>
    match Storable.toValue? x with
    | none => return false
    | some new =>
      if new.kind = old.kind then
        set { d with store := ⟨d.store.slots.insert ⟨name, new⟩⟩ }
        return true
      else return false

def write (name : String) : Value → Action Bool
  | .bool b => setVariable name b
  | .int i => setVariable name i
  | .float x => setVariable name x
  | .string s => setVariable name s

def poll : Action (Option Event) := do
  let d ← get
  set { d with events := d.events.extract 1 }
  return d.events[0]?

def drain : Action (List Event) := do
  let d ← get
  set { d with events := #[] }
  return d.events.toList

def perform : Operation → Action Reply
  | .start => do
    start
    return .done
  | .finish => do
    finish
    return .done
  | .tick dt => do
    tick dt
    return .done
  | .setFastForward on => do
    setFastForward on
    return .done
  | .setAutoAdvance on => do
    setAutoAdvance on
    return .done
  | .input i => return .accepted (← take i)
  | .write name value => return .accepted (← write name value)
  | .poll => return .events (← poll).toList
  | .drain => return .events (← drain)

def performAll : List Operation → Action (List Reply)
  | [] => return []
  | op :: ops => do
    let reply ← perform op
    let replies ← performAll ops
    return reply :: replies

end Deck
end Parley
