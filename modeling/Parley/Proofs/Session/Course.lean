import Parley.Proofs.Session.Inversion

/-! Every operation takes a session from one situation at rest to another by a course of legs, and
emits what those legs emit. So a property of all runs needs one argument for each leg. -/
namespace Parley

/-- A leg appends its events and touches no earlier one. -/
theorem Leg.events (leg : Leg a s es b t) : t.events.toList = s.events.toList ++ es := by
  cases leg with
  | autoAdvance on => cases on <;> simp [Session.setAutoAdvance]
  | finish active | ended _ active =>
    rw [Session.finish_of_active active]
    simp [Session.emit, Session.cue, Session.reset]
  | start => simp [Session.begun, Session.leaveNode, Session.emit, Session.cue, Session.reset]
  | stroke shown =>
    obtain ⟨speed, stroked⟩ := Session.stroked_eq s _
    rw [stroked]
    simp [Session.schedule, Session.emit]
  | arrive landed found =>
    rw [Session.arrived_eq]
    simp [Session.schedule]
  | setUp delaying current => simp [Session.opened]
  | _ => simp [Session.pressed, Session.departed, Session.told, Session.leaveNode, Session.hold,
      Session.schedule, Session.cancel, Session.cue, Session.emit]

namespace Course

theorem situation (course : Course a s es b t) (here : Situation a s) : Situation b t := by
  induction course with
  | refl => exact here
  | next leg rest ih => exact ih (leg.situation here)

theorem events (course : Course a s es b t) : t.events.toList = s.events.toList ++ es := by
  induction course with
  | refl => rw [List.append_nil]
  | next leg rest ih => rw [ih, leg.events, List.append_assoc]

end Course

namespace Session

variable {s : Session}

theorem land_course (here : Situation (.leaving target) s) :
    ∃ es, Course (.leaving target) s es .resting (s.land (s.graph.travel s.store target)) := by
  have stands := s.graph.travel_exists s.store target
  have active : s.phase ≠ .idle := by
    cases here with
    | leaving phase => simp [phase]
  cases landed : s.graph.travel s.store target with
  | ended =>
    have same : s.land .ended = s.finish := by
      rw [finish_of_active active]
      exact finish_of_active (s := { s with position := none }) active
    rw [same]
    exact ⟨_, .single (.ended landed active)⟩
  | hold id => exact ⟨_, .single (.halt landed)⟩
  | stalled id => exact ⟨_, .single (.stall landed)⟩
  | dialogue id =>
    rw [landed] at stands
    obtain ⟨d, node⟩ := stands
    have found := Graph.dialogue?_eq_some_iff.mpr node
    have same : s.land (.dialogue id) = { s with position := some id }.arrived id d :=
      enterDialogue_eq found
    rw [same]
    exact ⟨_, .single (.arrive landed found)⟩

theorem proceed_course (here : Situation (.leaving s.successor?) s.leaveNode) :
    ∃ es, Course (.leaving s.successor?) s.leaveNode es .resting s.proceed :=
  land_course here

theorem goNext_course (here : Situation .resting s)
    (active : s.phase = .running ∨ s.phase = .awaiting) :
    ∃ es, Course .resting s es .resting s.goNext := by
  have leg := Leg.depart active
  obtain ⟨es, rest⟩ := proceed_course (s := s.cue .stopSounds) (leg.situation here)
  exact ⟨_, .next leg rest⟩

theorem completeText_course (here : Situation .speaking s) (silent : s.typewriter.hidden = []) :
    ∃ es, Course .speaking s es .resting s.completeText := by
  cases here with
  | @speaking d _ _ phase current tasks choices =>
    have passing (free : s.phase ≠ .awaiting) (plain : d.choices = [])
        (reason : if s.autoAdvance then s.nextKeepsText d = true
          else d.settings.advanceOnClick = false ∨ s.fastForward = true) :
        ∃ es, Course .speaking s es .resting (s.told d).goNext := by
      have leg := Leg.pass current silent free plain reason
      obtain ⟨es, rest⟩ := proceed_course (s := (s.told d).cue .stopSounds)
        (leg.situation (.speaking phase current tasks choices))
      exact ⟨_, .next leg rest⟩
    rw [completeText_eq current]
    split
    case isTrue reason =>
      exact ⟨_, .single (.stay current silent (reason.imp id .inl))⟩
    case isFalse free =>
      obtain ⟨free, plain⟩ := not_or.mp free
      have plain := Decidable.of_not_not plain
      split
      case isTrue auto =>
        split
        case isTrue keeps => exact passing free plain (by rwa [if_pos auto])
        case isFalse clears =>
          exact ⟨_, .single (.pause current silent free plain auto (by simpa using clears))⟩
      case isFalse manual =>
        split
        case isTrue reason => exact passing free plain (by rwa [if_neg manual])
        case isFalse clicks =>
          refine ⟨_, .single (.stay current silent (.inr (.inr ?_)))⟩
          simpa [manual] using clicks

theorem revealStep_course (here : Situation .speaking s) :
    ∃ es, Course .speaking s es .resting s.revealStep := by
  unfold revealStep
  split
  case h_1 t finished =>
    cases Typewriter.step_finished finished
    obtain ⟨es, rest⟩ := completeText_course (Leg.showAll.situation here) rfl
    exact ⟨_, .next .showAll rest⟩
  case h_2 c t shown => exact ⟨_, .single (.stroke shown)⟩

theorem finishReveal_course (here : Situation .resting s) (typing : s.isTyping = true) :
    ∃ es, Course .resting s es .resting s.finishReveal := by
  have leg := Leg.speak typing
  obtain ⟨es, rest⟩ := completeText_course (Leg.showAll.situation (leg.situation here)) rfl
  exact ⟨_, .next leg (.next .showAll rest)⟩

theorem setUp_course (here : Situation .resting s) (delaying : s.isDelaying = true) :
    ∃ es, Course .resting s es .resting s.setUp := by
  obtain ⟨d, due, -, current, tasks, -⟩ := here.of_delaying delaying
  have leg := Leg.setUp delaying current
  obtain ⟨es, rest⟩ := revealStep_course (leg.situation here)
  rw [setUp_eq current]
  exact ⟨_, .next leg rest⟩

theorem pushFastForward_course (here : Situation .resting s) :
    ∃ es, Course .resting s es .resting s.pressed.pushFastForward := by
  have alone (busy : ∀ d, ¬s.WaitsForClick d) : ∃ es, Course .resting s es .resting s.pressed :=
    ⟨_, .single (.press busy)⟩
  unfold pushFastForward
  split
  case h_1 nowhere =>
    refine alone fun d waits => ?_
    cases nowhere.symm.trans waits.current
  case h_2 d current =>
    have same {d' : Dialogue} (waits : s.WaitsForClick d') : d' = d :=
      Option.some.inj (waits.current.symm.trans current)
    split
    case isTrue refused =>
      refine alone fun d' waits => ?_
      cases same waits
      have running : s.pressed.phase = .running := waits.running
      simp [acceptsPlayerInput, running, waits.plain] at refused
    case isFalse free =>
      simp only [acceptsPlayerInput, decide_eq_true_eq, not_or, Decidable.not_not,
        List.isEmpty_iff] at free
      split
      case isTrue delaying =>
        have busy (d' : Dialogue) (waits : s.WaitsForClick d') : False :=
          Bool.noConfusion (delaying.symm.trans waits.shown)
        split
        case isTrue fast =>
          have leg := Leg.press busy
          obtain ⟨es, rest⟩ := setUp_course (leg.situation here) delaying
          exact ⟨_, .next leg rest⟩
        case isFalse slow => exact alone busy
      case isFalse shown =>
        split
        case isTrue last =>
          have waits : s.WaitsForClick d :=
            ⟨free.1, current, free.2, last.2.1, eq_false_of_ne_true shown,
              eq_false_of_ne_true last.1, eq_false_of_ne_true last.2.2⟩
          have leg := Leg.pressOn waits
          obtain ⟨es, rest⟩ := proceed_course (s := s.pressed.cue .stopSounds) (leg.situation here)
          exact ⟨_, .next leg rest⟩
        case isFalse busy =>
          refine alone fun d' waits => busy ?_
          cases same waits
          exact ⟨ne_true_of_eq_false waits.finished, waits.clicks, ne_true_of_eq_false waits.alone⟩

theorem finish_course (s : Session) :
    ∃ es, Course .resting s es .resting s.finish := by
  by_cases idle : s.phase = .idle
  · have same : s.finish = s := if_pos idle
    exact ⟨[], same.symm ▸ .refl⟩
  · exact ⟨_, .single (.finish idle)⟩

theorem respond?_course (here : Situation .resting s) (accepted : s.respond? i = some t) :
    ∃ es, Course .resting s es .resting t := by
  cases response_of_respond? here accepted with
  | reveal typing => exact finishReveal_course here typing
  | cut delaying => exact setUp_course here delaying
  | go active => exact goNext_course here active
  | choose running current offered enabled visible written =>
    have leg := Leg.choose running current offered enabled visible written
    obtain ⟨es, rest⟩ := land_course (leg.situation here)
    exact ⟨_, .next leg rest⟩
  | hold active => exact ⟨_, .single (.hold active)⟩
  | resume held =>
    have leg := Leg.resume held
    obtain ⟨es, rest⟩ := land_course (leg.situation here)
    exact ⟨_, (Course.next leg rest).trans (.single .resumeMusic)⟩
  | finish active => exact ⟨_, .single (.finish active)⟩

theorem start_course (here : Situation .resting s) :
    ∃ es, Course .resting s es .resting s.start := by
  obtain ⟨es, rest⟩ := land_course (Leg.start.situation here)
  exact ⟨_, .next .start rest⟩

theorem setFastForward_course (here : Situation .resting s) (on : Bool) :
    ∃ es, Course .resting s es .resting (s.setFastForward on) := by
  cases on with
  | true => exact pushFastForward_course here
  | false => exact ⟨_, .single .release⟩

/-- The next task runs once the clock stands at its due time. -/
theorem runTask_course (here : Situation .resting s)
    (taken : s.timetable.take? limit = some (kind, rest)) :
    ∃ es, Course .resting s es .resting ({ s with timetable := rest }.runTask kind) := by
  obtain ⟨due, first, rfl⟩ := Timetable.take?_eq_some taken
  have leg : Leg .resting s [] .resting { s with timetable := s.timetable.settle due } :=
    .clock due
  have listed := (Timetable.mem_of_next? first).1
  have later := leg.situation here
  cases here with
  | idle _ _ tasks | held _ _ _ tasks | stalled _ _ _ tasks | finished _ _ tasks =>
    simp [tasks] at listed
  | delaying phase current tasks =>
    rw [tasks, List.mem_singleton] at listed
    cases listed
    obtain ⟨es, course⟩ := setUp_course later (Timetable.isPending_of_single tasks _)
    rw [← setUp_cancel] at course
    exact ⟨_, .next leg course⟩
  | typing phase current tasks =>
    rw [tasks, List.mem_singleton] at listed
    cases listed
    have speak := Leg.speak (s := { s with timetable := s.timetable.settle due })
      (Timetable.isPending_of_single tasks _)
    obtain ⟨es, course⟩ := revealStep_course (speak.situation later)
    exact ⟨_, .next leg (.next speak course)⟩
  | pausing phase free current tasks =>
    rw [tasks, List.mem_singleton] at listed
    cases listed
    obtain ⟨es, course⟩ := goNext_course later (.inl free)
    exact ⟨_, .next leg course⟩

theorem runDue_course (here : Situation .resting s) (budget : Nat) (limit : Duration) :
    ∃ es, Course .resting s es .resting (runDue budget limit s) := by
  induction budget generalizing s with
  | zero => exact ⟨_, .refl⟩
  | succ budget ih =>
    unfold runDue
    split
    case h_1 => exact ⟨_, .refl⟩
    case h_2 kind rest taken =>
      obtain ⟨es, course⟩ := runTask_course here taken
      obtain ⟨fs, further⟩ := ih (course.situation here)
      exact ⟨_, course.trans further⟩

theorem tick_course (here : Situation .resting s) (dt : Duration) :
    ∃ es, Course .resting s es .resting (s.tick dt) := by
  obtain ⟨es, course⟩ :=
    runDue_course here (max 1 s.pacing.maxTasksPerTick) (s.timetable.now + dt)
  exact ⟨_, course.trans (.single (.clock _))⟩

end Session
end Parley
