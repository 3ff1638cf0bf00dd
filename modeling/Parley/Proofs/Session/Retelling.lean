import Parley.Proofs.Graph.Rewording
import Parley.Proofs.Session.Run

/-! Sessions that play alike although time runs differently in them. -/
namespace Parley

/-- Whether time passes. -/
def Operation.lasts : Operation → Bool
  | tick _ => true
  | _ => false

/-- Another telling of every session. Dialogue nodes may be written differently, clock, waits and
speeds may be others, and events may have come before; nothing that is told or decided may depend
on it. -/
structure Retelling extends Rewording where
  pacing : Pacing → Pacing
  /-- The times of the clock, and those at which tasks fall due. -/
  clock : Duration → Duration
  wait : Duration → Duration
  speed : Binary64 → Binary64
  earlier : Array Event
  awaits : ∀ d, (dialogue d).settings.awaitContinue = d.settings.awaitContinue
  clicks : ∀ d, (dialogue d).settings.advanceOnClick = d.settings.advanceOnClick
  keeps : ∀ d, (dialogue d).settings.keepPreviousText = d.settings.keepPreviousText
  frame_eq : ∀ (s : Session) d, s.frame (dialogue d) = s.frame d
  before_eq : ∀ store d,
    Session.cuesBefore store (dialogue d).settings = Session.cuesBefore store d.settings
  after_eq : ∀ store d,
    Session.cuesAfter store (dialogue d).settings = Session.cuesAfter store d.settings
  clock_add : ∀ now after, clock (now + after) = clock now + wait after
  wait_zero : wait .zero = .zero
  wait_seconds : ∀ x, wait (.ofSeconds x) = .ofSeconds (speed x)
  delay_eq : ∀ (store : Store) d,
    (dialogue d).settings.preDelay.resolve store = speed (d.settings.preDelay.resolve store)
  speed_eq : ∀ (store : Store) d x,
    ((dialogue d).settings.printSpeed.resolveActive store).getD (speed x) =
      speed ((d.settings.printSpeed.resolveActive store).getD x)
  base_eq : ∀ p, (pacing p).printSpeed = speed p.printSpeed
  fast_eq : ∀ p, (pacing p).fastForwardSpeed = speed p.fastForwardSpeed
  auto_eq : ∀ p, (pacing p).autoAdvanceDelay = speed p.autoAdvanceDelay

namespace Session

variable {s : Session}

theorem adoptSpeed_eq_getD (current : s.currentDialogue? = some d) :
    s.adoptSpeed =
      { s with printSpeed := (d.settings.printSpeed.resolveActive s.store).getD s.printSpeed } := by
  unfold adoptSpeed
  rw [current, Option.bind_some]
  cases d.settings.printSpeed.resolveActive s.store with
  | none => rfl
  | some speed => rfl

end Session

namespace Retelling

variable (r : Retelling) (s : Session)

def session : Session :=
  { s with
    graph := r.graph s.graph
    pacing := r.pacing s.pacing
    timetable := s.timetable.retime r.clock
    events := r.earlier ++ s.events
    printSpeed := r.speed s.printSpeed }

@[simp] theorem session_graph : (r.session s).graph = r.graph s.graph := rfl

@[simp] theorem session_pacing : (r.session s).pacing = r.pacing s.pacing := rfl

@[simp] theorem session_store : (r.session s).store = s.store := rfl

@[simp] theorem session_position : (r.session s).position = s.position := rfl

@[simp] theorem session_phase : (r.session s).phase = s.phase := rfl

@[simp] theorem session_typewriter : (r.session s).typewriter = s.typewriter := rfl

@[simp] theorem session_choices : (r.session s).choices = s.choices := rfl

@[simp] theorem session_allowEscape : (r.session s).allowEscape = s.allowEscape := rfl

@[simp] theorem session_allowFastAdvance :
    (r.session s).allowFastAdvance = s.allowFastAdvance := rfl

@[simp] theorem session_autoAdvance : (r.session s).autoAdvance = s.autoAdvance := rfl

@[simp] theorem session_fastForward : (r.session s).fastForward = s.fastForward := rfl

@[simp] theorem session_printSpeed : (r.session s).printSpeed = r.speed s.printSpeed := rfl

@[simp] theorem session_emit (e : Event) : (r.session s).emit e = r.session (s.emit e) := by
  simp only [session, Session.emit, Array.push_append]

@[simp] theorem session_cue (c : Cue) : (r.session s).cue c = r.session (s.cue c) :=
  r.session_emit s (.cue c)

@[simp] theorem session_cancel (kind : TaskKind) :
    (r.session s).cancel kind = r.session (s.cancel kind) := by
  simp only [session, Session.cancel, Timetable.retime_cancel]

@[simp] theorem session_isPending (kind : TaskKind) :
    (r.session s).timetable.isPending kind = s.timetable.isPending kind :=
  Timetable.retime_isPending _ kind

@[simp] theorem session_isTyping : (r.session s).isTyping = s.isTyping := r.session_isPending s _

@[simp] theorem session_isDelaying : (r.session s).isDelaying = s.isDelaying :=
  r.session_isPending s _

@[simp] theorem session_acceptsPlayerInput :
    (r.session s).acceptsPlayerInput = s.acceptsPlayerInput := rfl

theorem session_schedule (kind : TaskKind) (after : Duration) :
    (r.session s).schedule kind (r.wait after) = r.session (s.schedule kind after) := by
  have same := Timetable.retime_schedule s.timetable (r.clock_add _ after) kind
  simp only [session, Session.schedule, same]

@[simp] theorem session_currentDialogue? :
    (r.session s).currentDialogue? = s.currentDialogue?.map r.dialogue := by
  cases position : s.position with
  | none =>
    simp only [Session.currentDialogue?, session, position, Option.bind_none, Option.map_none]
  | some id =>
    simp only [Session.currentDialogue?, session, position, Option.bind_some,
      Rewording.graph_dialogue?]

theorem session_reset (phase : Phase) : (r.session s).reset phase = r.session (s.reset phase) := by
  unfold Session.reset
  rw [← session_cue]
  simp only [session, r.base_eq, Timetable.retime_cancelAll, Rewording.graph_rules]

@[simp] theorem session_finish : (r.session s).finish = r.session s.finish := by
  unfold Session.finish
  rw [session_reset, session_emit, session_phase]
  split
  · rfl
  · rfl

@[simp] theorem session_leaveNode : (r.session s).leaveNode = r.session s.leaveNode := rfl

@[simp] theorem session_hold : (r.session s).hold = r.session s.hold := by
  unfold Session.hold
  rw [← session_emit, ← session_cue]
  rfl

theorem wait_delay (d : Dialogue) :
    (if s.fastForward then .zero
      else .ofSeconds ((r.dialogue d).settings.preDelay.resolve s.store)) =
      r.wait (if s.fastForward then .zero
        else .ofSeconds (d.settings.preDelay.resolve s.store)) := by
  split
  · exact r.wait_zero.symm
  · rw [r.wait_seconds, r.delay_eq]

theorem session_arrived (id : NodeId) (d : Dialogue) :
    (r.session s).arrived id (r.dialogue d) = r.session (s.arrived id d) := by
  have arrival : Session.arrivalEvents id (r.dialogue d) = Session.arrivalEvents id d := by
    unfold Session.arrivalEvents
    rw [r.keeps]
  rw [Session.arrived_eq, Session.arrived_eq, ← session_schedule, ← r.wait_delay, r.keeps, arrival]
  simp only [session, Array.append_assoc]
  rfl

@[simp] theorem session_enterDialogue (id : NodeId) :
    (r.session s).enterDialogue id = r.session (s.enterDialogue id) := by
  cases found : s.graph.dialogue? id with
  | none =>
    have lost : (r.session s).graph.dialogue? id = none := by
      rw [session_graph, r.graph_dialogue?, found, Option.map_none]
    rw [Session.enterDialogue_of_none found, Session.enterDialogue_of_none lost, session_finish]
  | some d =>
    have same : (r.session s).graph.dialogue? id = some (r.dialogue d) := by
      rw [session_graph, r.graph_dialogue?, found, Option.map_some]
    rw [Session.enterDialogue_eq found, Session.enterDialogue_eq same, session_arrived]

@[simp] theorem session_land (landing : Landing) :
    (r.session s).land landing = r.session (s.land landing) := by
  have moved : { r.session s with position := landing.position } =
      r.session { s with position := landing.position } := rfl
  unfold Session.land
  rw [moved]
  cases landing with
  | ended => exact r.session_finish _
  | dialogue id => exact r.session_enterDialogue _ id
  | hold id => simp only [session_emit, session_hold]
  | stalled id => exact r.session_emit _ _

@[simp] theorem session_proceed : (r.session s).proceed = r.session s.proceed := by
  simp only [Session.proceed, session_leaveNode, session_land, session_graph, session_store,
    session_position, Rewording.graph_proceed]

@[simp] theorem session_goNext : (r.session s).goNext = r.session s.goNext := by
  simp only [Session.goNext, session_cue, session_proceed]

theorem session_nextKeepsText (d : Dialogue) :
    (r.session s).nextKeepsText (r.dialogue d) = s.nextKeepsText d := by
  simp only [Session.nextKeepsText, session_graph, session_store, Rewording.graph_ahead?,
    r.next_eq]
  cases s.graph.ahead? s.store d.next with
  | none => rfl
  | some next => exact r.keeps next

theorem session_told (d : Dialogue) :
    (r.session s).told (r.dialogue d) = r.session (s.told d) := by
  unfold Session.told
  rw [session_cancel, r.id_eq, session_emit]
  rfl

@[simp] theorem session_completeText : (r.session s).completeText = r.session s.completeText := by
  cases current : s.currentDialogue? with
  | none =>
    have lost : (r.session s).currentDialogue? = none := by
      rw [session_currentDialogue?, current, Option.map_none]
    rw [Session.completeText_of_none current, Session.completeText_of_none lost, session_cancel]
  | some d =>
    have same : (r.session s).currentDialogue? = some (r.dialogue d) := by
      rw [session_currentDialogue?, current, Option.map_some]
    have pause : (r.session s).pacing.autoAdvanceInterval =
        r.wait s.pacing.autoAdvanceInterval := by
      unfold Pacing.autoAdvanceInterval
      rw [r.wait_seconds, session_pacing, r.auto_eq]
    rw [Session.completeText_eq current, Session.completeText_eq same]
    simp only [session_told, session_goNext, session_nextKeepsText, session_schedule, pause,
      session_phase, session_autoAdvance, session_fastForward, r.choices_eq, r.clicks,
      apply_ite r.session]

theorem session_adoptSpeed : (r.session s).adoptSpeed = r.session s.adoptSpeed := by
  cases current : s.currentDialogue? with
  | none =>
    simp only [Session.adoptSpeed, session_currentDialogue?, current, Option.map_none,
      Option.bind_none]
  | some d =>
    have same : (r.session s).currentDialogue? = some (r.dialogue d) := by
      rw [session_currentDialogue?, current, Option.map_some]
    rw [Session.adoptSpeed_eq_getD current, Session.adoptSpeed_eq_getD same]
    simp only [session, r.speed_eq]

theorem session_revealInterval : (r.session s).revealInterval = r.wait s.revealInterval := by
  simp only [Session.revealInterval, Pacing.fastForwardInterval, session_fastForward,
    session_pacing, session_printSpeed, r.fast_eq, r.wait_seconds, apply_ite r.wait]

theorem session_stroked (t : Typewriter) : (r.session s).stroked t = r.session (s.stroked t) := by
  have struck : { r.session s with typewriter := t } = r.session { s with typewriter := t } := rfl
  unfold Session.stroked
  simp only [struck, session_emit, session_adoptSpeed, session_revealInterval, session_schedule]

@[simp] theorem session_revealStep : (r.session s).revealStep = r.session s.revealStep := by
  unfold Session.revealStep
  rw [session_typewriter]
  split
  case h_1 t finished => exact r.session_completeText { s with typewriter := t }
  case h_2 c t shown => exact r.session_stroked s t

theorem session_opened (d : Dialogue) :
    (r.session s).opened (r.dialogue d) = r.session (s.opened d) := by
  have frame : (r.session s).frame (r.dialogue d) = s.frame d := r.frame_eq _ d
  have offers : (r.dialogue d).offers s.store = d.offers s.store := by
    unfold Dialogue.offers
    rw [r.choices_eq]
  have phase : (r.dialogue d).phase = d.phase := by
    unfold Dialogue.phase
    rw [r.awaits]
  unfold Session.opened Session.openingEvents
  rw [session_cancel, session_store, frame, offers, phase, r.before_eq, r.after_eq]
  simp only [session, Array.append_assoc]

@[simp] theorem session_setUp : (r.session s).setUp = r.session s.setUp := by
  cases current : s.currentDialogue? with
  | none =>
    have lost : (r.session s).currentDialogue? = none := by
      rw [session_currentDialogue?, current, Option.map_none]
    rw [Session.setUp_of_none current, Session.setUp_of_none lost, session_cancel]
  | some d =>
    have same : (r.session s).currentDialogue? = some (r.dialogue d) := by
      rw [session_currentDialogue?, current, Option.map_some]
    rw [Session.setUp_eq current, Session.setUp_eq same, session_opened, session_revealStep]

@[simp] theorem session_finishReveal :
    (r.session s).finishReveal = r.session s.finishReveal := by
  unfold Session.finishReveal
  rw [← session_completeText, session_cancel]
  rfl

@[simp] theorem session_runTask (kind : TaskKind) :
    (r.session s).runTask kind = r.session (s.runTask kind) := by
  cases kind with
  | nodeDelay => exact r.session_setUp s
  | reveal => exact r.session_revealStep s
  | autoAdvance => exact r.session_goNext s

@[simp] theorem session_pushFastForward :
    (r.session s).pushFastForward = r.session s.pushFastForward := by
  unfold Session.pushFastForward
  cases current : s.currentDialogue? with
  | none => simp only [session_currentDialogue?, current, Option.map_none]
  | some d =>
    simp only [session_currentDialogue?, current, Option.map_some, session_acceptsPlayerInput,
      session_isDelaying, session_isTyping, session_isPending, session_allowFastAdvance,
      session_setUp, session_goNext, r.choices_eq, r.clicks, apply_ite r.session]

theorem session_begun : (r.session s).begun = r.session s.begun := by
  unfold Session.begun
  rw [session_reset, ← session_leaveNode, ← session_emit]
  rfl

@[simp] theorem session_start : (r.session s).start = r.session s.start := by
  have begins (s : Session) :
      s.start = s.begun.land (s.begun.graph.travel s.begun.store s.begun.graph.entry) := rfl
  rw [begins, begins, session_begun]
  simp only [session_land, session_graph, session_store, Rewording.graph_travel,
    Rewording.graph_entry]

@[simp] theorem session_setFastForward (on : Bool) :
    (r.session s).setFastForward on = r.session (s.setFastForward on) := by
  cases on with
  | true => exact r.session_pushFastForward s.pressed
  | false => rfl

@[simp] theorem session_setAutoAdvance (on : Bool) :
    (r.session s).setAutoAdvance on = r.session (s.setAutoAdvance on) := by
  cases on with
  | true => rfl
  | false => rfl

@[simp] theorem session_advance? : (r.session s).advance? = s.advance?.map r.session := by
  unfold Session.advance?
  cases current : s.currentDialogue? with
  | none =>
    simp only [session_currentDialogue?, current, Option.map_none, session_acceptsPlayerInput,
      ite_self]
  | some d =>
    simp only [session_currentDialogue?, current, Option.map_some, session_acceptsPlayerInput,
      session_isDelaying, session_isTyping, session_allowFastAdvance, session_fastForward,
      session_finishReveal, session_setUp, session_goNext, r.choices_eq, r.clicks,
      apply_ite (Option.map r.session), Option.map_none]

@[simp] theorem session_choose? (index : Nat) :
    (r.session s).choose? index = (s.choose? index).map r.session := by
  unfold Session.choose?
  rw [session_acceptsPlayerInput, session_choices]
  split
  case isTrue => rfl
  case isFalse =>
    cases s.choices[index]? with
    | none => rfl
    | some offer =>
      simp only [session_emit, session_leaveNode, session_graph, session_store, session_position,
        Rewording.graph_follow?]
      split
      case isTrue => rfl
      case isFalse =>
        split
        case h_1 landing found => simp only [session_land, Option.map_some]
        case h_2 missing => rfl

@[simp] theorem session_skip? : (r.session s).skip? = s.skip?.map r.session := by
  simp only [Session.skip?, session_acceptsPlayerInput, session_isTyping, session_finishReveal,
    apply_ite (Option.map r.session), Option.map_some, Option.map_none]

@[simp] theorem session_interrupt? : (r.session s).interrupt? = s.interrupt?.map r.session := by
  simp only [Session.interrupt?, session_phase, session_hold, apply_ite (Option.map r.session),
    Option.map_some, Option.map_none]

@[simp] theorem session_resume? : (r.session s).resume? = s.resume?.map r.session := by
  have released : { r.session s with phase := .running } =
      r.session { s with phase := .running } := rfl
  simp only [Session.resume?, session_phase, released, session_emit, session_proceed, session_cue,
    apply_ite (Option.map r.session), Option.map_some, Option.map_none]

@[simp] theorem session_continue? : (r.session s).continue? = s.continue?.map r.session := by
  simp only [Session.continue?, session_phase, session_goNext, apply_ite (Option.map r.session),
    Option.map_some, Option.map_none]

@[simp] theorem session_escape? : (r.session s).escape? = s.escape?.map r.session := by
  simp only [Session.escape?, session_allowEscape, session_acceptsPlayerInput, session_finish,
    apply_ite (Option.map r.session), Option.map_some, Option.map_none]

@[simp] theorem session_respond? (i : Input) :
    (r.session s).respond? i = (s.respond? i).map r.session := by
  cases i with
  | advance => exact r.session_advance? s
  | choose index => exact r.session_choose? s index
  | skip => exact r.session_skip? s
  | interrupt => exact r.session_interrupt? s
  | resume => exact r.session_resume? s
  | proceed => exact r.session_continue? s
  | escape => exact r.session_escape? s

@[simp] theorem session_write? (name : String) (value : Value) :
    (r.session s).write? name value = (s.write? name value).map r.session := by
  unfold Session.write?
  rw [session_store, Option.map_map]
  rfl

@[simp] theorem session_answer (next? : Option Session) :
    (r.session s).answer (next?.map r.session) =
      ((s.answer next?).1, r.session (s.answer next?).2) := by
  cases next? with
  | none => rfl
  | some next => rfl

/-- An operation that neither takes time nor fetches events has the same answer in every telling,
and leads to the same session. -/
theorem session_perform (instant : op.lasts = false) (keeps : op.fetches = false) :
    (r.session s).perform op = ((s.perform op).1, r.session (s.perform op).2) := by
  cases op with
  | tick dt => cases instant
  | poll | drain => cases keeps
  | start => simp only [Session.perform, session_start]
  | finish => simp only [Session.perform, session_finish]
  | setFastForward on => simp only [Session.perform, session_setFastForward]
  | setAutoAdvance on => simp only [Session.perform, session_setAutoAdvance]
  | input i => simp only [Session.perform, session_respond?, session_answer]
  | write name value => simp only [Session.perform, session_write?, session_answer]

theorem session_after (instant : ∀ op ∈ ops, op.lasts = false ∧ op.fetches = false) :
    (r.session s).after ops = r.session (s.after ops) := by
  induction ops generalizing s with
  | nil => rfl
  | cons op ops ih =>
    obtain ⟨now, keeps⟩ := instant op List.mem_cons_self
    rw [Session.after_cons, Session.after_cons, session_perform r s now keeps]
    exact ih _ fun op listed => instant op (List.mem_cons_of_mem _ listed)

end Retelling
end Parley
