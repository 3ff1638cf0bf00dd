import Parley.Proofs.Session.Answer

/-! When tasks are planned for. Whatever a session does on the way, a task that it leaves planned
was planned just now, and falls due as long after the clock as a task of its kind is put off; or the
timetable is untouched. -/
namespace Parley

namespace Session

variable {s t : Session}

/-- How long a task is put off that is planned now. -/
def wait (s : Session) : TaskKind → Duration
  | .nodeDelay =>
    match s.currentDialogue? with
    | some d => if s.fastForward then .zero else .ofSeconds (d.settings.preDelay.resolve s.store)
    | none => .zero
  | .reveal => s.revealInterval
  | .autoAdvance => s.pacing.autoAdvanceInterval

/-- All that is planned was planned when the clock stood at a time, where it still stands. A pause
is planned under auto-advance only. -/
structure PlannedAt (s : Session) (clock : Duration) : Prop where
  now : s.timetable.now = clock
  due : ∀ task ∈ s.timetable.tasks, task.due = clock + s.wait task.kind
  wanted : ∀ task ∈ s.timetable.tasks, task.kind = .autoAdvance → s.autoAdvance = true

theorem wait_nodeDelay (current : s.currentDialogue? = some d) : s.wait .nodeDelay =
    if s.fastForward then .zero else .ofSeconds (d.settings.preDelay.resolve s.store) := by
  simp only [wait, current]

theorem planned_of_nil (none : s.timetable.tasks = []) : s.PlannedAt s.timetable.now :=
  ⟨rfl, by simp [none], by simp [none]⟩

theorem planned_schedule (none : s.timetable.tasks = []) (kind : TaskKind)
    (wanted : kind = .autoAdvance → s.autoAdvance = true) :
    (s.schedule kind (s.wait kind)).PlannedAt s.timetable.now := by
  have single : (s.schedule kind (s.wait kind)).timetable.tasks =
      [⟨kind, s.timetable.now + s.wait kind⟩] := Timetable.tasks_schedule_of_nil none _ _
  -- How long a task is put off does not depend on the plans, so both sessions agree on it.
  refine ⟨rfl, fun task listed => ?_, fun task listed => ?_⟩
  · cases List.mem_singleton.mp (single ▸ listed)
    rfl
  · cases List.mem_singleton.mp (single ▸ listed)
    exact wanted

section Unplanned

variable (none : s.timetable.tasks = [])
include none

theorem Lands.planned (lands : s.Lands t) : t.PlannedAt s.timetable.now := by
  cases lands with
  | idle | stalled => exact planned_of_nil none
  | ended | held => exact planned_of_nil rfl
  | @arrived d id found =>
    let moved : Session := { s with position := some id }
    have current : moved.currentDialogue? = some d := found
    rw [arrived_eq, ← wait_nodeDelay current]
    exact planned_schedule
      (s := { moved with
        typewriter := if d.settings.keepPreviousText then s.typewriter else .empty
        events := s.events ++ (arrivalEvents id d).toArray }) none .nodeDelay nofun

omit none in
theorem planned_goNext (s : Session) : s.goNext.PlannedAt s.timetable.now :=
  Lands.planned (s := s.departed) rfl s.lands_goNext

theorem planned_completeText : s.completeText.PlannedAt s.timetable.now := by
  have unplanned := Timetable.tasks_cancel_of_nil none .reveal
  cases current : s.currentDialogue? with
  | none =>
    rw [completeText_of_none current]
    exact planned_of_nil unplanned
  | some d =>
    have told : (s.told d).PlannedAt s.timetable.now := planned_of_nil unplanned
    rw [completeText_eq current]
    split
    case isTrue => exact told
    case isFalse =>
      split
      case isTrue auto =>
        split
        case isTrue => exact planned_goNext _
        -- The one place where a pause is planned.
        case isFalse =>
          exact planned_schedule (s := s.told d) unplanned .autoAdvance fun _ => auto
      case isFalse =>
        split
        case isTrue => exact planned_goNext _
        case isFalse => exact told

theorem planned_revealStep : s.revealStep.PlannedAt s.timetable.now := by
  rcases s.revealStep_cases with ⟨t, -, completes⟩ | ⟨c, t, -, strokes⟩
  · rw [completes]
    exact planned_completeText (s := { s with typewriter := t }) none
  · obtain ⟨speed, stroked⟩ := stroked_eq s t
    rw [strokes, stroked]
    exact planned_schedule
      (s := { s with typewriter := t, printSpeed := speed }.emit (.textRevealed t.shown)) none
      .reveal nofun

end Unplanned

theorem planned_setUp (rest : (s.timetable.cancel .nodeDelay).tasks = []) :
    s.setUp.PlannedAt s.timetable.now := by
  cases current : s.currentDialogue? with
  | none =>
    rw [setUp_of_none current]
    exact planned_of_nil rest
  | some d =>
    rw [setUp_eq current]
    exact planned_revealStep (s := s.opened d) rest

theorem planned_finishReveal (here : Situation .resting s) (typing : s.isTyping = true) :
    s.finishReveal.PlannedAt s.timetable.now := by
  obtain ⟨d, due, store, -, -, tasks, -⟩ := here.of_typing typing
  exact planned_completeText
    (s := { s.cancel .reveal with typewriter := s.typewriter.showAll })
    (Timetable.tasks_cancel_of_single tasks)

theorem planned_runTask (none : s.timetable.tasks = []) (kind : TaskKind) :
    (s.runTask kind).PlannedAt s.timetable.now := by
  cases kind with
  | nodeDelay => exact planned_setUp (Timetable.tasks_cancel_of_nil none _)
  | reveal => exact planned_revealStep none
  | autoAdvance => exact planned_goNext s

/-- Where one task at most is planned, none is left behind when it is taken. -/
theorem tasks_of_take? (here : Situation .resting s)
    (taken : s.timetable.take? limit = some (kind, rest)) : rest.tasks = [] := by
  rcases here.planned with none | ⟨task, single⟩
  · rw [Timetable.take?_of_nil none] at taken
    cases taken
  · rw [Timetable.take?_of_single single] at taken
    obtain ⟨-, same⟩ := Option.ite_none_right_eq_some.mp taken
    cases same
    rfl

theorem pushFastForward_plans (here : Situation .resting s) :
    s.pressed.pushFastForward = s.pressed ∨
      s.pressed.pushFastForward.PlannedAt s.timetable.now := by
  rcases s.pressed.pushFastForward_cases with same | ⟨-, delaying, cuts⟩ | ⟨-, goes⟩
  · exact .inl same
  · obtain ⟨d, due, -, -, tasks, -⟩ := here.of_delaying delaying
    rw [cuts]
    exact .inr (planned_setUp (s := s.pressed) (Timetable.tasks_cancel_of_single tasks))
  · rw [goes]
    exact .inr s.pressed.planned_goNext

theorem planned_respond? (here : Situation .resting s) (accepted : s.respond? i = some t) :
    t.PlannedAt s.timetable.now := by
  cases response_of_respond? here accepted with
  | reveal typing => exact planned_finishReveal here typing
  | cut delaying =>
    obtain ⟨d, due, -, -, tasks, -⟩ := here.of_delaying delaying
    exact planned_setUp (Timetable.tasks_cancel_of_single tasks)
  | go => exact planned_goNext s
  | choose => exact Lands.planned (s := (s.emit _).leaveNode) rfl (lands_land _ _)
  | hold => exact planned_of_nil rfl
  | resume =>
    let released := { s with phase := .running }.emit .resumed
    have onward := Lands.planned (s := released.leaveNode) rfl released.lands_proceed
    exact ⟨onward.now, onward.due, onward.wanted⟩
  | finish active =>
    rw [finish_of_active active]
    exact planned_of_nil rfl

/-- But for a tick, an operation takes no time: what it leaves planned is planned from where the
clock stands, unless it leaves the timetable as it was. -/
theorem perform_plans (here : Situation .resting s) (op : Operation)
    (timeless : ∀ dt, op ≠ .tick dt) :
    (s.perform op).2.timetable = s.timetable ∨ (s.perform op).2.PlannedAt s.timetable.now := by
  cases op with
  | start => exact .inr (Lands.planned (s := s.begun) rfl (lands_land _ _))
  | finish =>
    by_cases idle : s.phase = .idle
    · have same : (s.perform .finish).2 = s := if_pos idle
      exact .inl (by rw [same])
    · have ended : (s.perform .finish).2 = (s.reset .idle).emit .sessionEnded := if_neg idle
      rw [ended]
      exact .inr (planned_of_nil rfl)
  | tick dt => exact absurd rfl (timeless dt)
  | setFastForward on =>
    cases on with
    | true =>
      rcases pushFastForward_plans here with same | planned
      · exact .inl (show s.pressed.pushFastForward.timetable = _ by rw [same]; rfl)
      · exact .inr planned
    | false => exact .inl rfl
  | setAutoAdvance on =>
    cases on with
    | true | false => exact .inl rfl
  | input i =>
    rcases s.perform_input i with ⟨t, responds, performs⟩ | ⟨-, performs⟩
    · rw [performs]
      exact .inr (planned_respond? here responds)
    · exact .inl (by rw [performs])
  | write name value =>
    simp only [perform, write?]
    cases s.store.write? name value with
    | none | some => exact .inl rfl
  | poll | drain => exact .inl rfl

end Session
end Parley
