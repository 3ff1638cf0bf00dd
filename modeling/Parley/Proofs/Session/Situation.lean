import Parley.Proofs.Graph.Rest
import Parley.Proofs.Session.Leg
import Parley.Proofs.Timetable

/-! Where a session can be. There are seven situations at rest and one in each other stance; every
leg leads from a situation to a situation, so no others are ever met. -/
namespace Parley

/-- Why a finished node is not left at once. -/
def Session.Waits (s : Session) (d : Dialogue) : Prop :=
  s.phase = .awaiting ∨ d.choices ≠ [] ∨
    d.settings.advanceOnClick = true ∧ s.fastForward = false

/-- The choices on offer are those of the current node, as they stood when it was set up. -/
def Session.Offers (s : Session) : Prop :=
  s.choices = [] ∨ ∃ d store, s.currentDialogue? = some d ∧ s.choices = d.offers store

inductive Situation : Stance → Session → Prop
  | idle (phase : s.phase = .idle) (position : s.position = none) (tasks : s.timetable.tasks = [])
      (choices : s.choices = []) (typewriter : s.typewriter = .empty) : Situation .resting s
  | held {id : NodeId} (phase : s.phase = .holding) (position : s.position = some id)
      (node : s.graph.node? id = some n) (tasks : s.timetable.tasks = []) (offers : s.Offers) :
      Situation .resting s
  | stalled {id : NodeId} (phase : s.phase = .running) (position : s.position = some id)
      (node : s.graph.node? id = some (.splitter p)) (tasks : s.timetable.tasks = [])
      (choices : s.choices = []) : Situation .resting s
  | delaying (phase : s.phase = .running) (current : s.currentDialogue? = some d)
      (tasks : s.timetable.tasks = [⟨.nodeDelay, due⟩]) (choices : s.choices = []) :
      Situation .resting s
  | typing (phase : s.phase = d.phase) (current : s.currentDialogue? = some d)
      (tasks : s.timetable.tasks = [⟨.reveal, due⟩]) (choices : s.choices = d.offers store) :
      Situation .resting s
  /-- The text is finished, and the node will be left by itself. -/
  | pausing (phase : s.phase = d.phase) (free : s.phase = .running)
      (current : s.currentDialogue? = some d) (tasks : s.timetable.tasks = [⟨.autoAdvance, due⟩])
      (plain : d.choices = []) (choices : s.choices = []) (silent : s.typewriter.hidden = []) :
      Situation .resting s
  /-- The text is finished, and somebody has to act. -/
  | finished (phase : s.phase = d.phase) (current : s.currentDialogue? = some d)
      (tasks : s.timetable.tasks = []) (choices : s.choices = d.offers store)
      (silent : s.typewriter.hidden = []) (waits : s.Waits d) : Situation .resting s
  | speaking (phase : s.phase = d.phase) (current : s.currentDialogue? = some d)
      (tasks : s.timetable.tasks = []) (choices : s.choices = d.offers store) :
      Situation .speaking s
  | leaving (phase : s.phase = .running) (tasks : s.timetable.tasks = [])
      (choices : s.choices = []) : Situation (.leaving target) s

theorem Phase.ne_idle {p : Phase} (playing : p = .running ∨ p = .awaiting) : p ≠ .idle := by
  rcases playing with rfl | rfl
  · nofun
  · nofun

theorem Dialogue.phase_cases (d : Dialogue) : d.phase = .running ∨ d.phase = .awaiting := by
  unfold phase
  split
  · exact .inr rfl
  · exact .inl rfl

theorem Dialogue.phase_of_free {d : Dialogue} (free : d.phase ≠ .awaiting) : d.phase = .running :=
  d.phase_cases.resolve_right free

theorem Dialogue.phase_ne_idle (d : Dialogue) : d.phase ≠ .idle := Phase.ne_idle d.phase_cases

theorem Dialogue.phase_ne_holding (d : Dialogue) : d.phase ≠ .holding := by
  rcases d.phase_cases with running | awaiting
  · simp [running]
  · simp [awaiting]

theorem Dialogue.offers_eq_nil_iff {d : Dialogue} {store : Store} :
    d.offers store = [] ↔ d.choices = [] := by
  simp [offers]

theorem Dialogue.length_offers (d : Dialogue) (store : Store) :
    (d.offers store).length = d.choices.length := by
  simp [offers]

namespace Session

theorem position_of_dialogue {s : Session} (current : s.currentDialogue? = some d) :
    s.position = some d.id := by
  obtain ⟨id, position, found⟩ := Option.bind_eq_some_iff.mp current
  rw [position, Graph.dialogue?_id found]

/-- Without fast-forward every reason to wait stands. -/
theorem Waits.slower {s t : Session} (waits : s.Waits d) (phase : t.phase = s.phase)
    (slow : t.fastForward = false) : t.Waits d :=
  waits.imp phase.trans fun waits => waits.imp id fun clicks => ⟨clicks.1, slow⟩

/-- A node that waits for neither signal nor choice waits for a click. -/
theorem Waits.forClick {s : Session} (waits : s.Waits d) (phase : s.phase = d.phase)
    (current : s.currentDialogue? = some d) (tasks : s.timetable.tasks = []) :
    s.phase = .awaiting ∨ d.choices ≠ [] ∨ s.WaitsForClick d ∧ s.fastForward = false := by
  rcases waits with awaiting | choices | ⟨clicks, slow⟩
  · exact .inl awaiting
  · exact .inr (.inl choices)
  · by_cases plain : d.choices = []
    · have none := Timetable.isPending_of_nil tasks
      unfold Dialogue.phase at phase
      split at phase
      · exact .inl phase
      · exact .inr (.inr ⟨⟨phase, current, plain, clicks, none _, none _, none _⟩, slow⟩)
    · exact .inr (.inl plain)

end Session

/-- A situation at rest is a matter of the place and the plans, not of the clock, the variables or
the events. -/
theorem Situation.carry {t : Session} (here : Situation .resting s) (graph : t.graph = s.graph)
    (position : t.position = s.position) (phase : t.phase = s.phase)
    (tasks : t.timetable.tasks = s.timetable.tasks) (choices : t.choices = s.choices)
    (typewriter : t.typewriter = s.typewriter)
    (waits : ∀ d, s.phase = d.phase → s.currentDialogue? = some d → s.timetable.tasks = [] →
      s.Waits d → t.Waits d) : Situation .resting t := by
  have current : t.currentDialogue? = s.currentDialogue? := by
    simp only [Session.currentDialogue?, graph, position]
  have hidden : t.typewriter.hidden = s.typewriter.hidden := congrArg _ typewriter
  cases here with
  | idle phase' position' tasks' choices' typewriter' =>
    exact .idle (phase.trans phase') (position.trans position') (tasks.trans tasks')
      (choices.trans choices') (typewriter.trans typewriter')
  | held phase' position' node tasks' offers =>
    refine .held (phase.trans phase') (position.trans position') (graph ▸ node)
      (tasks.trans tasks') ?_
    simpa only [Session.Offers, current, choices] using offers
  | stalled phase' position' node tasks' choices' =>
    exact .stalled (phase.trans phase') (position.trans position') (graph ▸ node)
      (tasks.trans tasks') (choices.trans choices')
  | delaying phase' current' tasks' choices' =>
    exact .delaying (phase.trans phase') (current.trans current') (tasks.trans tasks')
      (choices.trans choices')
  | typing phase' current' tasks' choices' =>
    exact .typing (phase.trans phase') (current.trans current') (tasks.trans tasks')
      (choices.trans choices')
  | pausing phase' free current' tasks' plain choices' silent =>
    exact .pausing (phase.trans phase') (phase.trans free) (current.trans current')
      (tasks.trans tasks') plain (choices.trans choices') (hidden.trans silent)
  | finished phase' current' tasks' choices' silent waiting =>
    exact .finished (phase.trans phase') (current.trans current') (tasks.trans tasks')
      (choices.trans choices') (hidden.trans silent) (waits _ phase' current' tasks' waiting)

namespace Session

theorem situation_leaveNode {s : Session} (active : s.phase = .running ∨ s.phase = .awaiting)
    (target : Option NodeId) : Situation (.leaving target) s.leaveNode := by
  refine .leaving ?_ rfl rfl
  rcases active with running | awaiting
  · simp [leaveNode, running]
  · simp [leaveNode, awaiting]

theorem situation_finish {s : Session} (active : s.phase ≠ .idle) :
    Situation .resting s.finish := by
  rw [finish_of_active active]
  exact .idle rfl rfl rfl rfl rfl

theorem situation_opened {s : Session} (current : s.currentDialogue? = some d)
    (tasks : s.timetable.tasks = [⟨.nodeDelay, due⟩]) : Situation .speaking (s.opened d) :=
  .speaking rfl current (Timetable.tasks_cancel_of_single tasks) rfl

theorem situation_stroked {s : Session} (here : Situation .speaking s) (t : Typewriter) :
    Situation .resting (s.stroked t) := by
  obtain ⟨speed, stroked⟩ := stroked_eq s t
  rw [stroked]
  cases here with
  | speaking phase current tasks choices =>
    exact .typing phase current (Timetable.tasks_schedule_of_nil tasks _ _) choices

theorem situation_arrived {s : Session} {id : NodeId} (found : s.graph.dialogue? id = some d)
    (here : Situation (.leaving target) s) :
    Situation .resting ({ s with position := some id }.arrived id d) := by
  rw [arrived_eq]
  cases here with
  | leaving phase tasks choices =>
    exact .delaying phase found (Timetable.tasks_schedule_of_nil tasks _ _) choices

end Session

namespace Situation

variable {s : Session}

theorem planned (here : Situation .resting s) :
    s.timetable.tasks = [] ∨ ∃ task, s.timetable.tasks = [task] := by
  cases here with
  | idle _ _ tasks | held _ _ _ tasks | stalled _ _ _ tasks | finished _ _ tasks =>
    exact .inl tasks
  | delaying _ _ tasks | typing _ _ tasks | pausing _ _ _ tasks => exact .inr ⟨_, tasks⟩

theorem of_delaying (here : Situation .resting s) (delaying : s.isDelaying = true) :
    ∃ d due, s.phase = .running ∧ s.currentDialogue? = some d ∧
      s.timetable.tasks = [⟨.nodeDelay, due⟩] ∧ s.choices = [] := by
  cases here with
  | delaying phase current tasks choices => exact ⟨_, _, phase, current, tasks, choices⟩
  | idle _ _ tasks | held _ _ _ tasks | stalled _ _ _ tasks | finished _ _ tasks =>
    simp [Session.isDelaying, Timetable.isPending_of_nil tasks] at delaying
  | typing _ _ tasks | pausing _ _ _ tasks =>
    simp [Session.isDelaying, Timetable.isPending_of_single tasks] at delaying

theorem of_typing (here : Situation .resting s) (typing : s.isTyping = true) :
    ∃ d due store, s.phase = d.phase ∧ s.currentDialogue? = some d ∧
      s.timetable.tasks = [⟨.reveal, due⟩] ∧ s.choices = d.offers store := by
  cases here with
  | typing phase current tasks choices => exact ⟨_, _, _, phase, current, tasks, choices⟩
  | idle _ _ tasks | held _ _ _ tasks | stalled _ _ _ tasks | finished _ _ tasks =>
    simp [Session.isTyping, Timetable.isPending_of_nil tasks] at typing
  | delaying _ _ tasks | pausing _ _ _ tasks =>
    simp [Session.isTyping, Timetable.isPending_of_single tasks] at typing

theorem of_pausing (here : Situation .resting s)
    (pausing : s.timetable.isPending .autoAdvance = true) :
    ∃ d due, s.phase = .running ∧ s.currentDialogue? = some d ∧
      s.timetable.tasks = [⟨.autoAdvance, due⟩] ∧ d.choices = [] ∧ s.choices = [] ∧
      s.typewriter.hidden = [] := by
  cases here with
  | pausing phase free current tasks plain choices silent =>
    exact ⟨_, _, free, current, tasks, plain, choices, silent⟩
  | idle _ _ tasks | held _ _ _ tasks | stalled _ _ _ tasks | finished _ _ tasks =>
    simp [Timetable.isPending_of_nil tasks] at pausing
  | delaying _ _ tasks | typing _ _ tasks =>
    simp [Timetable.isPending_of_single tasks] at pausing

theorem of_idle (here : Situation .resting s) (idle : s.phase = .idle) :
    s.position = none ∧ s.timetable.tasks = [] ∧ s.choices = [] ∧ s.typewriter = .empty := by
  cases here with
  | idle _ position tasks choices typewriter => exact ⟨position, tasks, choices, typewriter⟩
  | held phase | stalled phase | delaying phase | pausing _ phase => cases idle.symm.trans phase
  | typing phase | finished phase =>
    exact absurd (phase.symm.trans idle) (Dialogue.phase_ne_idle _)

theorem of_held (here : Situation .resting s) (held : s.phase = .holding) :
    s.timetable.tasks = [] := by
  cases here with
  | held _ _ _ tasks => exact tasks
  | idle phase | stalled phase | delaying phase | pausing _ phase => cases held.symm.trans phase
  | typing phase | finished phase =>
    exact absurd (phase.symm.trans held) (Dialogue.phase_ne_holding _)

/-- A session that is not idle has a current node, and its offers are that node's. -/
theorem of_active (here : Situation .resting s) (active : s.phase ≠ .idle) :
    ∃ id n, s.position = some id ∧ s.graph.node? id = some n ∧ s.Offers := by
  have place {d : Dialogue} (current : s.currentDialogue? = some d) (offers : s.Offers) :
      ∃ id n, s.position = some id ∧ s.graph.node? id = some n ∧ s.Offers := by
    obtain ⟨id, position, found⟩ := Option.bind_eq_some_iff.mp current
    exact ⟨id, _, position, Graph.dialogue?_eq_some_iff.mp found, offers⟩
  cases here with
  | idle phase => exact absurd phase active
  | held _ position node _ offers => exact ⟨_, _, position, node, offers⟩
  | stalled _ position node _ choices => exact ⟨_, _, position, node, .inl choices⟩
  | delaying _ current _ choices => exact place current (.inl choices)
  | typing _ current _ choices => exact place current (.inr ⟨_, _, current, choices⟩)
  | pausing _ _ current _ _ choices => exact place current (.inl choices)
  | finished _ current _ choices => exact place current (.inr ⟨_, _, current, choices⟩)

end Situation

/-- Where a leg starts from a situation, it leads to one. -/
theorem Leg.situation (leg : Leg a s es b t) (here : Situation a s) : Situation b t := by
  cases leg with
  | clock time => exact here.carry rfl rfl rfl rfl rfl rfl fun _ _ _ _ waits => waits
  | write written => exact here.carry rfl rfl rfl rfl rfl rfl fun _ _ _ _ waits => waits
  | resumeMusic => exact here.carry rfl rfl rfl rfl rfl rfl fun _ _ _ _ waits => waits
  | autoAdvance on =>
    cases on with
    | true => exact here.carry rfl rfl rfl rfl rfl rfl fun _ _ _ _ waits => waits.slower rfl rfl
    | false => exact here.carry rfl rfl rfl rfl rfl rfl fun _ _ _ _ waits => waits
  | release => exact here.carry rfl rfl rfl rfl rfl rfl fun _ _ _ _ waits => waits.slower rfl rfl
  | press idle =>
    refine here.carry rfl rfl rfl rfl rfl rfl fun d phase current tasks waits => ?_
    rcases waits.forClick phase current tasks with awaiting | choices | ⟨stuck, -⟩
    · exact .inl awaiting
    · exact .inr (.inl choices)
    · exact absurd stuck (idle d)
  | pressOn waits =>
    exact Session.situation_leaveNode (s := s.pressed.cue .stopSounds) (.inl waits.running) _
  | hold active =>
    obtain ⟨id, n, position, node, offers⟩ := here.of_active (Phase.ne_idle active)
    exact .held rfl position node rfl offers
  | finish active => exact Session.situation_finish active
  | start => exact .leaving rfl rfl rfl
  | depart active => exact Session.situation_leaveNode (s := s.cue .stopSounds) active _
  | resume held => exact .leaving rfl rfl rfl
  | choose running => exact Session.situation_leaveNode (s := s.emit _) (.inl running) _
  | setUp delaying current =>
    obtain ⟨d', due, -, current', tasks, -⟩ := here.of_delaying delaying
    exact Session.situation_opened current tasks
  | speak typing =>
    obtain ⟨d, due, store, phase, current, tasks, choices⟩ := here.of_typing typing
    exact .speaking phase current (Timetable.tasks_cancel_of_single tasks) choices
  | showAll =>
    cases here with
    | speaking phase current tasks choices => exact .speaking phase current tasks choices
  | stroke shown => exact Session.situation_stroked here _
  | stay current silent reason =>
    cases here with
    | speaking phase current' tasks choices =>
      cases Option.some.inj (current.symm.trans current')
      exact .finished phase current (Timetable.tasks_cancel_of_nil tasks _) choices silent
        (reason.imp id fun reason => reason.imp id And.right)
  | pause current silent free plain auto clears =>
    cases here with
    | speaking phase current' tasks choices =>
      cases Option.some.inj (current.symm.trans current')
      have none := Timetable.tasks_cancel_of_nil tasks .reveal
      refine .pausing phase ?_ current (Timetable.tasks_schedule_of_nil none _ _) plain ?_ silent
      · exact phase.trans (Dialogue.phase_of_free (phase ▸ free))
      · exact choices.trans (Dialogue.offers_eq_nil_iff.mpr plain)
  | pass current silent free plain reason =>
    cases here with
    | speaking phase =>
      refine Session.situation_leaveNode (s := (s.told _).cue .stopSounds) ?_ _
      exact phase ▸ Dialogue.phase_cases _
  | ended landed active => exact Session.situation_finish active
  | arrive landed found => exact Session.situation_arrived found here
  | @halt target s id landed =>
    have stands := s.graph.travel_exists s.store target
    rw [landed] at stands
    obtain ⟨i, found⟩ := stands
    cases here with
    | leaving phase tasks choices => exact .held rfl rfl found rfl (.inl choices)
  | @stall target s id landed =>
    have stands := s.graph.travel_exists s.store target
    rw [landed] at stands
    obtain ⟨p, found⟩ := stands
    cases here with
    | leaving phase tasks choices => exact .stalled phase rfl found tasks choices

end Parley
