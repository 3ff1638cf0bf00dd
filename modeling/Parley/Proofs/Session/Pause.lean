import Parley.Proofs.Session.Planning
import Parley.Proofs.Session.Screen

/-! A node whose text is complete stands until somebody acts. Time leaves it alone, but for the
pause of auto-advance: that one is planned only while auto-advance is on, and goes on when
auto-advance is switched off. -/
namespace Parley

def Event.entersNode : Event → Bool
  | nodeEntered _ => true
  | _ => false

/-- Whether auto-advance is off behind an operation that may have found it on. -/
def Operation.stopsAutoAdvance : Operation → Bool
  | setAutoAdvance on => !on
  | setFastForward on => on
  | _ => false

/-- In a visit where a text is complete, no node is about to be shown and nothing is typed. -/
theorem Track.kind_of_told (kept : Track g stream a s)
    (told : Told n (stretch Event.entersNode stream)) :
    ∀ task ∈ s.timetable.tasks, task.kind = .autoAdvance := by
  intro task listed
  obtain ⟨m, since, -, visit, stage⟩ := kept.planned task listed
  obtain ⟨earlier, rfl⟩ := visit.entered
  have inside : ∀ e ∈ since, e.entersNode = false := by
    intro e listed
    cases e with
    | nodeEntered => cases visit.lasts _ listed
    | _ => rfl
  rw [stretch_cut rfl inside] at told
  obtain ⟨text, told⟩ := told
  -- A delay and a reveal belong to stages of the visit in which no text has been completed.
  cases kind : task.kind with
  | nodeDelay =>
    rw [kind] at stage
    cases stage _ told
  | reveal =>
    rw [kind] at stage
    cases stage.2 _ told
  | autoAdvance => rfl

namespace Session

variable {s t u : Session}

/-- Where nothing falls due, only the clock moves. -/
theorem tick_of_idle (idle : s.timetable.next? (s.timetable.now + dt) = none) :
    s.tick dt = s.settled (s.timetable.now + dt) := by
  have ran (budget : Nat) : s.runDue budget (s.timetable.now + dt) = s :=
    runDue_of_none (Timetable.take?_eq_none_iff.mpr idle) budget
  simp only [tick, settled, ran]

/-- A pause that falls due ends with a step to the next node. -/
theorem tick_of_pause (here : Situation .resting s)
    (paused : s.timetable.tasks = [⟨.autoAdvance, due⟩]) (early : due ≤ s.timetable.now + dt) :
    ∃ es, (s.tick dt).events.toList = s.events.toList ++ .cue .stopSounds :: es := by
  obtain ⟨budget, budgets⟩ : ∃ budget, max 1 s.pacing.maxTasksPerTick = budget + 1 :=
    ⟨max 1 s.pacing.maxTasksPerTick - 1, by omega⟩
  have taken := Timetable.take?_of_single paused (s.timetable.now + dt)
  rw [if_pos early] at taken
  obtain ⟨d, -, running, -⟩ := here.of_pausing (Timetable.isPending_of_single paused _)
  let begun := { s with timetable := ⟨max s.timetable.now due, []⟩ }
  let left := (begun.cue .stopSounds).leaveNode
  have away : Situation (.leaving begun.successor?) left :=
    situation_leaveNode (s := begun.cue .stopSounds) (.inl running) _
  have leg : Leg .resting begun [.cue .stopSounds] (.leaving begun.successor?) left :=
    .depart (.inl running)
  obtain ⟨fs, onward⟩ := proceed_course (s := begun.cue .stopSounds) away
  obtain ⟨gs, later⟩ := runDue_course (onward.situation away) budget (s.timetable.now + dt)
  have ran : s.runDue (budget + 1) (s.timetable.now + dt) =
      begun.goNext.runDue budget (s.timetable.now + dt) := runDue_succ taken budget
  refine ⟨fs ++ gs, ?_⟩
  simp only [tick, budgets, ran]
  exact (Course.next leg (onward.trans later)).events

/-- A pause runs only where auto-advance is on. -/
def PauseWanted (s : Session) : Prop :=
  s.timetable.isPending .autoAdvance = true → s.autoAdvance = true

/-- The place and the plans are as they were. -/
structure Stands (s t : Session) : Prop where
  position : t.position = s.position
  tasks : t.timetable.tasks = s.timetable.tasks

theorem Stands.trans (first : s.Stands t) (second : t.Stands u) : s.Stands u where
  position := second.position.trans first.position
  tasks := second.tasks.trans first.tasks

theorem PauseWanted.stand (wanted : s.PauseWanted) (stands : s.Stands t)
    (mode : t.autoAdvance = s.autoAdvance) : t.PauseWanted := by
  intro paused
  rw [mode]
  apply wanted
  simpa only [Timetable.isPending, Timetable.find?, stands.tasks] using paused

/-- A pause that was planned just now is wanted. -/
theorem PlannedAt.pauseWanted (planned : s.PlannedAt clock) : s.PauseWanted := by
  intro paused
  obtain ⟨task, found⟩ := Option.isSome_iff_exists.mp paused
  have pause : task.kind = .autoAdvance := by simpa using List.find?_some found
  exact planned.wanted task (List.mem_of_find?_eq_some found) pause

/-- What becomes of a pause: it is wanted, or all that matters to it is as it was. -/
inductive Keeps (s t : Session) : Prop
  | wanted (wanted : t.PauseWanted)
  | stands (stands : s.Stands t) (mode : t.autoAdvance = s.autoAdvance)

theorem Keeps.refl (s : Session) : s.Keeps s := .stands ⟨rfl, rfl⟩ rfl

theorem Keeps.trans (first : s.Keeps t) (second : t.Keeps u) : s.Keeps u := by
  cases second with
  | wanted wanted => exact .wanted wanted
  | stands stands mode =>
    cases first with
    | wanted wanted => exact .wanted (wanted.stand stands mode)
    | stands stood same => exact .stands (stood.trans stands) (mode.trans same)

theorem keeps_runDue (here : Situation .resting s) (budget : Nat) (limit : Duration) :
    s.Keeps (s.runDue budget limit) := by
  induction budget generalizing s with
  | zero => exact .refl s
  | succ budget ih =>
    cases taken : s.timetable.take? limit with
    | none =>
      rw [runDue_of_none taken]
      exact .refl s
    | some taking =>
      obtain ⟨kind, rest⟩ := taking
      have ran : ({ s with timetable := rest }.runTask kind).PauseWanted :=
        (planned_runTask (tasks_of_take? here taken) kind).pauseWanted
      obtain ⟨es, course⟩ := runTask_course here taken
      rw [runDue_succ taken]
      exact (Keeps.wanted ran).trans (ih (course.situation here))

theorem keeps_pushFastForward (here : Situation .resting s) :
    s.pressed.Keeps s.pressed.pushFastForward := by
  rcases pushFastForward_plans here with same | planned
  · rw [same]
    exact .refl _
  · exact .wanted planned.pauseWanted

/-- Nothing but a switch of auto-advance itself takes the mode from a pause. -/
theorem perform_keeps (here : Situation .resting s) (op : Operation)
    (other : op.stopsAutoAdvance = false) : s.Keeps (s.perform op).2 := by
  cases op with
  | start => exact .wanted (Lands.planned (s := s.begun) rfl (lands_land _ _)).pauseWanted
  | finish =>
    by_cases idle : s.phase = .idle
    · have same : (s.perform .finish).2 = s := if_pos idle
      rw [same]
      exact .refl s
    · have ended : (s.perform .finish).2 = (s.reset .idle).emit .sessionEnded := if_neg idle
      rw [ended]
      exact .wanted (planned_of_nil rfl).pauseWanted
  | tick dt => exact (keeps_runDue here _ _).trans (.stands ⟨rfl, rfl⟩ rfl)
  | setFastForward on =>
    cases on with
    | true => cases other
    | false => exact .stands ⟨rfl, rfl⟩ rfl
  | setAutoAdvance on =>
    cases on with
    | true => exact .wanted fun _ => rfl
    | false => cases other
  | input i =>
    rcases s.perform_input i with ⟨t, responds, performs⟩ | ⟨-, performs⟩
    · rw [performs]
      exact .wanted (planned_respond? here responds).pauseWanted
    · rw [performs]
      exact .refl s
  | write name value =>
    simp only [perform, write?]
    cases s.store.write? name value with
    | none => exact .refl s
    | some store => exact .stands ⟨rfl, rfl⟩ rfl
  | poll | drain => exact .stands ⟨rfl, rfl⟩ rfl

/-- And a switch leaves the place and the plans, or takes the session to where no pause is left. -/
theorem perform_switch (here : Situation .resting s) {op : Operation}
    (stops : op.stopsAutoAdvance = true) :
    (s.perform op).2.PauseWanted ∨
      s.Stands (s.perform op).2 ∧ (s.perform op).2.autoAdvance = false := by
  cases op with
  | setFastForward on =>
    cases stops
    rcases keeps_pushFastForward here with wanted | ⟨stands, off⟩
    · exact .inl wanted
    · exact .inr ⟨⟨stands.position, stands.tasks⟩, off⟩
  | setAutoAdvance on =>
    cases on with
    | true => cases stops
    | false => exact .inr ⟨⟨rfl, rfl⟩, rfl⟩
  | _ => cases stops

/-- What an operation does to a pause. -/
theorem perform_pause (here : Situation .resting s) (op : Operation) :
    s.Keeps (s.perform op).2 ∨
      op.stopsAutoAdvance = true ∧ s.autoAdvance = true ∧ s.Stands (s.perform op).2 := by
  cases stops : op.stopsAutoAdvance with
  | false => exact .inl (perform_keeps here op stops)
  | true =>
    rcases perform_switch here stops with wanted | ⟨stands, off⟩
    · exact .inl (.wanted wanted)
    · cases mode : s.autoAdvance with
      | true => exact .inr ⟨rfl, rfl, stands⟩
      | false => exact .inl (.stands stands (off.trans mode.symm))

/-- Somewhere in a run auto-advance was switched off, and place and plans are still as they were. -/
def StandsSinceSwitch (s : Session) (ops : List Operation) : Prop :=
  ∃ before op later, ops = before ++ op :: later ∧ op.stopsAutoAdvance = true ∧
    (s.after before).autoAdvance = true ∧ (s.after before).Stands (s.after ops)

theorem after_pause (here : Situation .resting s) (ops : List Operation) :
    s.Keeps (s.after ops) ∨ s.StandsSinceSwitch ops := by
  induction ops generalizing s with
  | nil => exact .inl (.refl s)
  | cons op ops ih =>
    rw [after_cons]
    rcases ih (perform_situation here op) with later |
      ⟨before, stop, later, rfl, stops, auto, stands⟩
    · rcases perform_pause here op with first | ⟨stops, auto, stood⟩
      · exact .inl (first.trans later)
      -- The first operation is the switch, and counts where nobody has come back to the pause.
      · rcases later with wanted | ⟨stands, -⟩
        · exact .inl (.wanted wanted)
        · exact .inr ⟨[], op, ops, rfl, stops, auto, stood.trans stands⟩
    · exact .inr ⟨op :: before, stop, later, rfl, stops, auto, stands⟩

end Session

/-- While auto-advance is off, a session in which the text of the last node is complete stays as it
is through any time that passes, whichever modes were on before; unless auto-advance was switched
off in the middle of its pause, and this pause falls due. -/
theorem complete_text_stays {s : Session} (reached : s = (Session.ofGraph graph pacing).after ops)
    (told : Told n (stretch Event.entersNode ((Session.ofGraph graph pacing).stream ops)))
    (off : s.autoAdvance = false) (dt : Duration) :
    s.tick dt = s.settled (s.timetable.now + dt) ∨
      (Session.ofGraph graph pacing).StandsSinceSwitch ops ∧
        ∃ due, s.timetable.tasks = [⟨.autoAdvance, due⟩] ∧ due ≤ s.timetable.now + dt ∧
          ∃ es, (s.tick dt).events.toList = s.events.toList ++ .cue .stopSounds :: es := by
  have here := situation_after graph pacing ops
  have history := Session.after_pause (situation_ofGraph graph pacing) ops
  have track := track_after graph pacing ops
  rw [← reached] at here track
  rcases here.planned with none | ⟨⟨kind, due⟩, single⟩
  · exact .inl (Session.tick_of_idle (Timetable.next?_of_nil none _))
  · by_cases early : due ≤ s.timetable.now + dt
    · right
      have auto : kind = .autoAdvance := track.kind_of_told told ⟨kind, due⟩ (by simp [single])
      subst auto
      refine ⟨?_, due, single, early, Session.tick_of_pause here single early⟩
      have paused := Timetable.isPending_of_single single .autoAdvance
      rcases history with (wanted | ⟨stands, -⟩) | switched
      · rw [← reached] at wanted
        cases off.symm.trans (wanted paused)
      · rw [← reached] at stands
        cases stands.tasks.symm.trans single
      · exact switched
    · refine .inl (Session.tick_of_idle ?_)
      rw [Timetable.next?_of_single single, if_neg early]

/-- A node that only a click should leave. -/
def bell : Dialogue :=
  { (default : Dialogue) with
    id := "bell"
    next := some "door"
    text := "Ding"
    settings := { (default : Presentation) with advanceOnClick := true } }

def bellGraph : Graph :=
  .ofNodes (some "bell") [.dialogue bell, .dialogue { bell with id := "door", next := none }]

/-- Auto-advance was on while the bell was ringing, but off again when it had rung. -/
theorem bell_stays :
    let ops : List Operation :=
      [.start, .tick .zero, .setAutoAdvance true, .setAutoAdvance false, .input .skip]
    let s := (Session.ofGraph bellGraph default).after ops
    s.currentDialogue? = some bell ∧ s.autoAdvance = false ∧
      Told "bell" (stretch Event.entersNode ((Session.ofGraph bellGraph default).stream ops)) ∧
        s.tick (.ofMillis 1000) = s.settled (s.timetable.now + .ofMillis 1000) := by
  intro ops s
  have stands :
      s.currentDialogue? = some bell ∧ s.autoAdvance = false ∧ s.timetable.tasks = [] := by
    decide +kernel
  have told : Told "bell"
      (stretch Event.entersNode ((Session.ofGraph bellGraph default).stream ops)) :=
    ⟨"Ding".toList, by decide +kernel⟩
  obtain ⟨current, off, unplanned⟩ := stands
  refine ⟨current, off, told, ?_⟩
  have reached : s = (Session.ofGraph bellGraph default).after ops := rfl
  rcases complete_text_stays reached told off (.ofMillis 1000) with stays | ⟨-, due, paused, -⟩
  · exact stays
  · cases unplanned.symm.trans paused

/-- Switched off in the middle of its pause, auto-advance still leaves the bell for the door, though
no mode is on and nobody has clicked. -/
theorem bell_left :
    let ops : List Operation :=
      [.start, .tick .zero, .setAutoAdvance true, .input .skip, .setAutoAdvance false]
    let s := (Session.ofGraph bellGraph default).after ops
    s.currentDialogue? = some bell ∧ bell.settings.advanceOnClick = true ∧
      .textCompleted "bell" "Ding".toList ∈
        stretch Event.entersNode ((Session.ofGraph bellGraph default).stream ops) ∧
      s.autoAdvance = false ∧ s.fastForward = false ∧
        (s.tick (.ofMillis 1000)).position = some "door" ∧
        s.events.size < (s.tick (.ofMillis 1000)).events.size := by
  decide +kernel

end Parley
