import Parley.Session.Operation

/-! A playthrough cut into legs. Every operation of a session is a course of legs, each with the
events that it emits; what holds of every leg holds of every run. -/
namespace Parley

namespace Session

def successor? (s : Session) : Option NodeId := (s.position.bind s.graph.node?).bind Node.next

/-- The current node is done, and its successor is next. -/
def departed (s : Session) : Session := (s.cue .stopSounds).leaveNode

/-- Started over, on the way to the entry. -/
def begun (s : Session) : Session :=
  let fresh := s.reset .running
  ({ fresh with store := .seed fresh.graph.declarations }.emit .sessionStarted).leaveNode

def pressed (s : Session) : Session := { s with fastForward := true, autoAdvance := false }

/-- A node that only a click can leave. -/
structure WaitsForClick (s : Session) (d : Dialogue) : Prop where
  running : s.phase = .running
  current : s.currentDialogue? = some d
  plain : d.choices = []
  clicks : d.settings.advanceOnClick = true
  shown : s.isDelaying = false
  finished : s.isTyping = false
  alone : s.timetable.isPending .autoAdvance = false

/-- A node was entered, and its delay runs. -/
def arrived (s : Session) (id : NodeId) (d : Dialogue) : Session :=
  let entered := s.emit (.nodeEntered id)
  let cleared :=
    if d.settings.keepPreviousText then entered
    else { entered with typewriter := .empty }.emit .textCleared
  cleared.schedule .nodeDelay <|
    if s.fastForward then .zero else .ofSeconds (d.settings.preDelay.resolve s.store)

def arrivalEvents (id : NodeId) (d : Dialogue) : List Event :=
  .nodeEntered id :: if d.settings.keepPreviousText then [] else [.textCleared]

/-- What setting a node up emits. -/
def openingEvents (s : Session) (d : Dialogue) : List Event :=
  (cuesBefore s.store d.settings).map Event.cue ++
    .dialogueShown (s.frame d) :: (cuesAfter s.store d.settings).map Event.cue

end Session

/-- How long the text of a node keeps the session from going on: until the host says so, or not. -/
def Dialogue.phase (d : Dialogue) : Phase :=
  if d.settings.awaitContinue then .awaiting else .running

namespace Session

/-- A node is set up, and nothing of its text is shown yet. -/
def opened (s : Session) (d : Dialogue) : Session :=
  { s.cancel .nodeDelay with
    phase := d.phase
    choices := d.offers s.store
    events := s.events ++ (s.openingEvents d).toArray
    typewriter := s.typewriter.feed (s.frame d).text }

/-- One more character is shown, and the next one planned. -/
def stroked (s : Session) (t : Typewriter) : Session :=
  let paced := ({ s with typewriter := t }.emit (.textRevealed t.shown)).adoptSpeed
  paced.schedule .reveal paced.revealInterval

/-- The text of a node is complete. -/
def told (s : Session) (d : Dialogue) : Session :=
  (s.cancel .reveal).emit (.textCompleted d.id s.visibleText)

theorem finish_of_active {s : Session} (active : s.phase ≠ .idle) :
    s.finish = (s.reset .idle).emit .sessionEnded :=
  if_neg active

theorem enterDialogue_of_none {s : Session} {id : NodeId} (lost : s.graph.dialogue? id = none) :
    s.enterDialogue id = s.finish := by
  unfold enterDialogue
  rw [lost]

theorem enterDialogue_eq {s : Session} {id : NodeId} (found : s.graph.dialogue? id = some d) :
    s.enterDialogue id = s.arrived id d := by
  unfold enterDialogue arrived
  rw [found]
  by_cases keeps : d.settings.keepPreviousText = true
  · simp only [if_pos keeps]
    rfl
  · simp only [if_neg keeps]
    rfl

theorem adoptSpeed_eq (s : Session) : ∃ speed, s.adoptSpeed = { s with printSpeed := speed } := by
  unfold adoptSpeed
  split
  · exact ⟨_, rfl⟩
  · exact ⟨s.printSpeed, rfl⟩

theorem stroked_eq (s : Session) (t : Typewriter) : ∃ speed,
    s.stroked t =
      ({ s with typewriter := t, printSpeed := speed }.emit (.textRevealed t.shown)).schedule
        .reveal { s with printSpeed := speed }.revealInterval := by
  obtain ⟨speed, paced⟩ := adoptSpeed_eq ({ s with typewriter := t }.emit (.textRevealed t.shown))
  refine ⟨speed, ?_⟩
  simp only [stroked, paced]
  rfl

theorem arrived_eq (s : Session) (id : NodeId) (d : Dialogue) :
    s.arrived id d =
      { s with
        typewriter := if d.settings.keepPreviousText then s.typewriter else .empty
        events := s.events ++ (arrivalEvents id d).toArray }.schedule .nodeDelay
          (if s.fastForward then .zero else .ofSeconds (d.settings.preDelay.resolve s.store)) := by
  unfold arrived arrivalEvents
  split
  · simp [emit]
  · simp only [emit, Array.push_eq_append, Array.append_assoc]
    rfl

theorem filterMap_arrivalEvents {f : Event → Option α} (cleared : f .textCleared = none)
    (id : NodeId) (d : Dialogue) :
    (arrivalEvents id d).filterMap f = (f (.nodeEntered id)).toList := by
  have rest : (if d.settings.keepPreviousText then [] else [.textCleared]).filterMap f = [] := by
    split <;> simp [cleared]
  rw [arrivalEvents, List.filterMap_cons, rest]
  cases f (.nodeEntered id) with
  | none => rfl
  | some x => rfl

theorem filterMap_openingEvents {f : Event → Option α} (cues : ∀ c, f (.cue c) = none)
    (s : Session) (d : Dialogue) :
    (s.openingEvents d).filterMap f = (f (.dialogueShown (s.frame d))).toList := by
  have none (cs : List Cue) : (cs.map Event.cue).filterMap f = [] := by
    simp [List.filterMap_map, cues]
  unfold openingEvents
  rw [List.filterMap_append, none, List.nil_append, List.filterMap_cons, none]
  cases f (.dialogueShown (s.frame d)) with
  | none => rfl
  | some x => rfl

end Session

/-- What a session is doing between two legs. -/
inductive Stance
  /-- Waiting for the host, or for a task. -/
  | resting
  /-- About to show a character, or to report that there is none left. -/
  | speaking
  /-- On the way to a target. -/
  | leaving (target : Option NodeId)

inductive Leg : Stance → Session → List Event → Stance → Session → Prop
  | clock (time : Duration) :
    Leg .resting s [] .resting { s with timetable := s.timetable.settle time }
  | write (written : s.store.write? name value = some store) :
    Leg .resting s [] .resting { s with store := store }
  | autoAdvance (on : Bool) : Leg .resting s [] .resting (s.setAutoAdvance on)
  | release : Leg .resting s [] .resting { s with fastForward := false }
  | press (idle : ∀ d, ¬s.WaitsForClick d) : Leg .resting s [] .resting s.pressed
  | pressOn (waits : s.WaitsForClick d) :
    Leg .resting s [.cue .stopSounds] (.leaving s.successor?) s.pressed.departed
  | hold (active : s.phase = .running ∨ s.phase = .awaiting) :
    Leg .resting s [.cue .pauseMusic, .held] .resting s.hold
  | finish (active : s.phase ≠ .idle) :
    Leg .resting s [.cue .resetAudio, .sessionEnded] .resting s.finish
  | resumeMusic : Leg .resting s [.cue .resumeMusic] .resting (s.cue .resumeMusic)
  | start :
    Leg .resting s [.cue .resetAudio, .sessionStarted] (.leaving s.graph.entry) s.begun
  | depart (active : s.phase = .running ∨ s.phase = .awaiting) :
    Leg .resting s [.cue .stopSounds] (.leaving s.successor?) s.departed
  | resume (held : s.phase = .holding) :
    Leg .resting s [.resumed] (.leaving s.successor?)
      ({ s with phase := .running }.emit .resumed).leaveNode
  | choose (running : s.phase = .running) (current : s.currentDialogue? = some d)
      (offered : s.choices[index]? = some offer) (enabled : offer.enabled = true)
      (visible : offer.visible = true) (written : d.choices[index]? = some c) :
    Leg .resting s [.choiceSelected index offer.next] (.leaving c.next)
      (s.emit (.choiceSelected index offer.next)).leaveNode
  | setUp (delaying : s.isDelaying = true) (current : s.currentDialogue? = some d) :
    Leg .resting s (s.openingEvents d) .speaking (s.opened d)
  | speak (typing : s.isTyping = true) : Leg .resting s [] .speaking (s.cancel .reveal)
  | showAll : Leg .speaking s [] .speaking { s with typewriter := s.typewriter.showAll }
  | stroke (shown : s.typewriter.step = (.revealed c, t)) :
    Leg .speaking s [.textRevealed t.shown] .resting (s.stroked t)
  | stay (current : s.currentDialogue? = some d) (silent : s.typewriter.hidden = [])
      (reason : s.phase = .awaiting ∨ d.choices ≠ [] ∨ s.autoAdvance = false ∧
        d.settings.advanceOnClick = true ∧ s.fastForward = false) :
    Leg .speaking s [.textCompleted d.id s.visibleText] .resting (s.told d)
  | pause (current : s.currentDialogue? = some d) (silent : s.typewriter.hidden = [])
      (free : s.phase ≠ .awaiting) (plain : d.choices = []) (auto : s.autoAdvance = true)
      (clears : s.nextKeepsText d = false) :
    Leg .speaking s [.textCompleted d.id s.visibleText] .resting
      ((s.told d).schedule .autoAdvance s.pacing.autoAdvanceInterval)
  | pass (current : s.currentDialogue? = some d) (silent : s.typewriter.hidden = [])
      (free : s.phase ≠ .awaiting) (plain : d.choices = [])
      (reason : if s.autoAdvance then s.nextKeepsText d = true
        else d.settings.advanceOnClick = false ∨ s.fastForward = true) :
    Leg .speaking s [.textCompleted d.id s.visibleText, .cue .stopSounds]
      (.leaving s.successor?) (s.told d).departed
  | ended (landed : s.graph.travel s.store target = .ended) (active : s.phase ≠ .idle) :
    Leg (.leaving target) s [.cue .resetAudio, .sessionEnded] .resting s.finish
  | arrive {id : NodeId} (landed : s.graph.travel s.store target = .dialogue id)
      (found : s.graph.dialogue? id = some d) :
    Leg (.leaving target) s (Session.arrivalEvents id d) .resting
      ({ s with position := some id }.arrived id d)
  | halt {id : NodeId} (landed : s.graph.travel s.store target = .hold id) :
    Leg (.leaving target) s [.nodeEntered id, .cue .pauseMusic, .held] .resting
      ({ s with position := some id }.emit (.nodeEntered id)).hold
  | stall {id : NodeId} (landed : s.graph.travel s.store target = .stalled id) :
    Leg (.leaving target) s [.stalled id] .resting
      ({ s with position := some id }.emit (.stalled id))

/-- Legs in a row, with all their events. -/
inductive Course : Stance → Session → List Event → Stance → Session → Prop
  | refl : Course a s [] a s
  | next (first : Leg a s es b t) (rest : Course b t fs c u) : Course a s (es ++ fs) c u

namespace Course

theorem single (leg : Leg a s es b t) : Course a s es b t := by
  simpa only [List.append_nil] using next leg refl

theorem trans (first : Course a s es b t) (second : Course b t fs c u) :
    Course a s (es ++ fs) c u := by
  induction first with
  | refl => exact second
  | next leg rest ih => simpa only [List.append_assoc] using next leg (ih second)

end Course
end Parley
