import Parley.Proofs.Session.Retelling
import Parley.Story.Tavern

/-! Fields that are switched off. What is written in them is never read, and neither is what only
goes with them, so graphs that differ in nothing else play alike, whatever the host does. The delay
before a node and the three plain styles count whether or not they are switched on. -/
namespace Parley

/-- The field, or a blank one if it is switched off. -/
def Bindable.effective [Inhabited α] (field : Bindable α) : Bindable α :=
  if field.active then field else default

@[simp] theorem Bindable.effective_resolveActive [Inhabited α] [Storable α] (field : Bindable α)
    (store : Store) : field.effective.resolveActive store = field.resolveActive store := by
  unfold effective
  split
  case isTrue => rfl
  case isFalse off =>
    have none : field.resolveActive store = none := if_neg off
    rw [none]
    rfl

/-- The settings without what is written in fields that are switched off. How music is played goes
with the music, and how a background appears with the background. -/
def Presentation.effective (p : Presentation) : Presentation :=
  { p with
    printSpeed := p.printSpeed.effective
    broadcast := p.broadcast.effective
    color := p.color.effective
    font := p.font.effective
    textAlign := p.textAlign.effective
    wrapText := p.wrapText.effective
    musicQueue := p.musicQueue.effective
    musicLoop := if p.musicQueue.active then p.musicLoop else default
    musicShuffle := if p.musicQueue.active then p.musicShuffle else default
    sounds := p.sounds.effective
    boxTransition := p.boxTransition.effective
    boxColor := p.boxColor.effective
    boxImage := p.boxImage.effective
    namePlateColor := p.namePlateColor.effective
    namePlateImage := p.namePlateImage.effective
    background := p.background.effective
    backgroundTransition :=
      if p.background.active then p.backgroundTransition else default }

def Dialogue.effective (d : Dialogue) : Dialogue := { d with settings := d.settings.effective }

def Rewording.effective : Rewording :=
  ⟨Dialogue.effective, fun _ => rfl, fun _ => rfl, fun _ => rfl⟩

/-- The graph without what its nodes say in fields that are switched off. -/
def Graph.effective (g : Graph) : Graph := Rewording.effective.graph g

namespace Presentation

variable (p : Presentation) (store : Store)

theorem effective_style (text : List Char) :
    Markup.style p.effective store text = Markup.style p store text := by
  simp only [Markup.style, effective, Bindable.effective_resolveActive]

theorem effective_cuesBefore :
    Session.cuesBefore store p.effective = Session.cuesBefore store p := by
  unfold Session.cuesBefore effective
  simp only [Bindable.effective_resolveActive]
  by_cases shown : p.background.active = true
  · simp only [if_pos shown]
  · have none : p.background.resolveActive store = none := if_neg shown
    simp only [none, Option.map_none]

theorem effective_cuesAfter :
    Session.cuesAfter store p.effective = Session.cuesAfter store p := by
  unfold Session.cuesAfter effective
  simp only [Bindable.effective_resolveActive]
  by_cases played : p.musicQueue.active = true
  · simp only [if_pos played]
  · have none : p.musicQueue.resolveActive store = none := if_neg played
    simp only [none, Option.map_none]

end Presentation

theorem Session.frame_effective (s : Session) (d : Dialogue) : s.frame d.effective = s.frame d := by
  simp only [frame, Dialogue.effective, Presentation.effective_style]
  simp only [Presentation.effective, Bindable.effective_resolveActive]
  rfl

/-- The same story, told without what is never read. -/
def Retelling.effective : Retelling where
  toRewording := .effective
  pacing pacing := pacing
  clock time := time
  wait span := span
  speed speed := speed
  earlier := #[]
  awaits _ := rfl
  clicks _ := rfl
  keeps _ := rfl
  frame_eq s d := s.frame_effective d
  before_eq store d := d.settings.effective_cuesBefore store
  after_eq store d := d.settings.effective_cuesAfter store
  clock_add _ _ := rfl
  wait_zero := rfl
  wait_seconds _ := rfl
  delay_eq _ _ := rfl
  speed_eq store d x :=
    congrArg (Option.getD · x) (d.settings.printSpeed.effective_resolveActive store)
  base_eq _ := rfl
  fast_eq _ := rfl
  auto_eq _ := rfl

namespace Session

def effective (s : Session) : Session := { s with graph := s.graph.effective }

variable (s : Session)

theorem effective_session : Retelling.effective.session s = s.effective := by
  have times : s.timetable.retime id = s.timetable := by simp [Timetable.retime]
  have events : #[] ++ s.events = s.events := Array.empty_append
  show { s with
    graph := s.graph.effective, timetable := s.timetable.retime id, events := #[] ++ s.events } = _
  rw [times, events]
  rfl

theorem effective_runTask (kind : TaskKind) :
    s.effective.runTask kind = (s.runTask kind).effective := by
  have told := Retelling.effective.session_runTask s kind
  rwa [effective_session, effective_session] at told

theorem effective_runDue (budget : Nat) (limit : Duration) :
    s.effective.runDue budget limit = (s.runDue budget limit).effective := by
  induction budget generalizing s with
  | zero => rfl
  | succ budget ih =>
    cases taken : s.timetable.take? limit with
    | none => rw [runDue_of_none taken, runDue_of_none (s := s.effective) taken]
    | some taking =>
      obtain ⟨kind, rest⟩ := taking
      rw [runDue_succ taken, runDue_succ (s := s.effective) taken, ← ih, ← effective_runTask]
      rfl

/-- Every operation has the same answer and leads to the same session. -/
theorem effective_perform (op : Operation) :
    s.effective.perform op = ((s.perform op).1, (s.perform op).2.effective) := by
  have told (instant : op.lasts = false) (keeps : op.fetches = false) :
      s.effective.perform op = ((s.perform op).1, (s.perform op).2.effective) := by
    have performed := Retelling.effective.session_perform s instant keeps
    rwa [effective_session, effective_session] at performed
  cases op with
  | tick dt =>
    have ran := s.effective_runDue (max 1 s.pacing.maxTasksPerTick) (s.timetable.now + dt)
    simp only [perform, tick]
    exact congrArg (fun t : Session => (Reply.done,
      { t with timetable := t.timetable.settle (s.timetable.now + dt) })) ran
  | poll | drain => rfl
  | _ => exact told rfl rfl

theorem effective_performAll (ops : List Operation) :
    s.effective.performAll ops = ((s.performAll ops).1, (s.performAll ops).2.effective) := by
  induction ops generalizing s with
  | nil => rfl
  | cons op ops ih => simp only [performAll, effective_perform, ih]

end Session

/-- Two graphs that differ in nothing but fields that are switched off, and in what goes with
them, play alike: in every run all answers are the same, and so is the whole session, its events,
texts, speeds and clock included. -/
theorem inactive_fields_unnoticed {g h : Graph} (alike : g.effective = h.effective)
    (pacing : Pacing) (ops : List Operation) :
    (Session.ofGraph h pacing).performAll ops =
      (((Session.ofGraph g pacing).performAll ops).1,
        { ((Session.ofGraph g pacing).performAll ops).2 with graph := h }) := by
  have first := (Session.ofGraph g pacing).effective_performAll ops
  have second := (Session.ofGraph h pacing).effective_performAll ops
  have start : (Session.ofGraph g pacing).effective = (Session.ofGraph h pacing).effective := by
    show Session.ofGraph g.effective pacing = Session.ofGraph h.effective pacing
    rw [alike]
  rw [start] at first
  obtain ⟨replies, sessions⟩ := Prod.mk.inj (first.symm.trans second)
  have stays : ((Session.ofGraph h pacing).performAll ops).2.graph = h :=
    (fixed_after h pacing ops).1
  have last : { ((Session.ofGraph g pacing).performAll ops).2 with graph := h } =
      { ((Session.ofGraph h pacing).performAll ops).2 with graph := h } :=
    congrArg (fun t : Session => { t with graph := h }) sessions
  rw [replies, last]
  exact Prod.ext rfl (congrArg
    (fun graph => { ((Session.ofGraph h pacing).performAll ops).2 with graph := graph }) stays)

namespace Story.Tavern

/-- The lines of the scene, with notes of the author in fields that are switched off. -/
def annotated : Rewording where
  dialogue d := { d with
    settings := { d.settings with
      printSpeed :=
        if d.settings.printSpeed.active then d.settings.printSpeed else ⟨false, some "gold", .nan⟩
      musicQueue :=
        if d.settings.musicQueue.active then d.settings.musicQueue else .inactive ["silence"]
      musicLoop := if d.settings.musicQueue.active then d.settings.musicLoop else .fixed true
      background :=
        if d.settings.background.active then d.settings.background
        else ⟨false, some "player_name", "cellar"⟩
      backgroundTransition :=
        if d.settings.background.active then d.settings.backgroundTransition
        else .fixed .slideUp } }
  id_eq _ := rfl
  next_eq _ := rfl
  choices_eq _ := rfl

theorem annotated_effective (d : Dialogue) : (annotated.dialogue d).effective = d.effective := by
  cases speed : d.settings.printSpeed.active <;> cases music : d.settings.musicQueue.active <;>
    cases image : d.settings.background.active <;>
    simp [annotated, Dialogue.effective, Presentation.effective, Bindable.effective,
      Bindable.inactive, speed, music, image]

/-- The keeper's question carries three notes, and the player who orders an ale sees none. -/
theorem annotated_unnoticed :
    let ops : List Operation :=
      [.start, .setAutoAdvance true, .tick (.ofMillis 900), .poll, .input .skip,
        .tick (.ofMillis 2000), .input (.choose 0), .tick (.ofMillis 900), .drain]
    annotated.dialogue ask ≠ ask ∧ (annotated.graph graph).effective = graph.effective ∧
      (Session.ofGraph graph default).performAll ops =
        (((Session.ofGraph (annotated.graph graph) default).performAll ops).1,
          { ((Session.ofGraph (annotated.graph graph) default).performAll ops).2 with
            graph := graph }) := by
  intro ops
  have alike : (annotated.graph graph).effective = graph.effective :=
    Rewording.graph_overwritten annotated_effective graph
  exact ⟨by decide, alike, inactive_fields_unnoticed alike default ops⟩

end Story.Tavern
end Parley
