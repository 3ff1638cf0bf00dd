import Parley.Proofs.Markup.Typing
import Parley.Proofs.Session.Choosing
import Parley.Proofs.Session.Planning

/-! The speed of typing. The first character of a text brings in the speed of its node, if the node
has an active one. From then on the session keeps it, until a character of another such node comes,
or all is reset. A text without characters brings in nothing. -/
namespace Parley

/-- Events behind which the node shown last is still the last, and nothing has been reset. -/
def Event.keepsPace : Event → Bool
  | dialogueShown _ | cue .resetAudio => false
  | _ => true

/-- Where events hold one frame only, they can be cut at a frame in one way only. -/
theorem frame_split {first rest before later : List Event}
    (split : first ++ .dialogueShown f :: rest = before ++ .dialogueShown g :: later)
    (mute : ∀ e ∈ first, e.frame? = none) (silent : ∀ e ∈ rest, e.frame? = none) :
    g = f ∧ later = rest := by
  rcases List.append_eq_append_iff.mp split with ⟨gap, -, same⟩ | ⟨gap, same, behind⟩
  · cases gap with
    | nil =>
      cases same
      exact ⟨rfl, rfl⟩
    | cons e gap =>
      obtain ⟨-, rfl⟩ := List.cons.inj same
      cases silent (.dialogueShown g) (by simp)
  · cases gap with
    | nil =>
      cases behind
      exact ⟨rfl, rfl⟩
    | cons e gap =>
      obtain ⟨rfl, -⟩ := List.cons.inj behind
      cases mute (.dialogueShown g) (by simp [same])

namespace Session

variable {s t u : Session}

/-- The session types at the speed of a node, and at no other node's. -/
structure HasSpeedOf (s : Session) (d : Dialogue) : Prop where
  speed : s.printSpeed = d.settings.printSpeed.resolve s.store
  own : s.isTyping = true → s.currentDialogue? = some d

/-- What becomes of the speed while events are emitted: that of a node stays until another node is
shown or all is reset, and that of the node shown last comes in with the first of its characters. -/
structure Paces (s : Session) (es : List Event) (t : Session) : Prop where
  graph : t.graph = s.graph
  events : t.events.toList = s.events.toList ++ es
  keeps : ∀ d, d.settings.printSpeed.active = true → s.HasSpeedOf d →
    (∀ e ∈ es, e.keepsPace = true) → t.HasSpeedOf d
  adopts : ∀ before f later d, es = before ++ .dialogueShown f :: later →
    (∀ e ∈ later, e.keepsPace = true) → s.graph.dialogue? f.node = some d →
    d.settings.printSpeed.active = true → Markup.plain f.text ≠ [] → t.HasSpeedOf d

theorem Paces.trans (first : s.Paces es t) (second : t.Paces fs u) : s.Paces (es ++ fs) u where
  graph := second.graph.trans first.graph
  events := by rw [second.events, first.events, List.append_assoc]
  keeps d active typed kept := by
    have midway := first.keeps d active typed fun e listed =>
      kept e (List.mem_append_left fs listed)
    exact second.keeps d active midway fun e listed => kept e (List.mem_append_right es listed)
  adopts before f later d split kept found active plain := by
    -- The frame was shown on the first part of the way or on the second.
    rcases List.append_eq_append_iff.mp split with ⟨gap, -, behind⟩ | ⟨gap, shown, rest⟩
    · exact second.adopts gap f later d behind kept (first.graph ▸ found) active plain
    · cases gap with
      | nil => exact second.adopts [] f later d rest.symm kept (first.graph ▸ found) active plain
      | cons e gap =>
        obtain ⟨rfl, rfl⟩ := List.cons.inj rest
        have midway := first.adopts before f gap d shown
          (fun e listed => kept e (List.mem_append_left fs listed)) found active plain
        exact second.keeps d active midway fun e listed => kept e (List.mem_append_right gap listed)

theorem paces_of_same (graph : t.graph = s.graph) (position : t.position = s.position)
    (events : t.events = s.events) (speed : t.printSpeed = s.printSpeed)
    (store : t.store = s.store) (typing : t.isTyping = true → s.isTyping = true) :
    s.Paces [] t where
  graph := graph
  events := by rw [events, List.append_nil]
  keeps d _ typed _ := by
    refine ⟨by rw [speed, store, typed.speed], fun types => ?_⟩
    rw [currentDialogue?, graph, position]
    exact typed.own (typing types)
  adopts := by simp

/-- On the way nothing is shown and nothing typed, and the speed stays unless all is reset. -/
structure Passes (s : Session) (es : List Event) (t : Session) : Prop where
  graph : t.graph = s.graph
  events : t.events.toList = s.events.toList ++ es
  mute : ∀ e ∈ es, e.frame? = none
  speed : .cue .resetAudio ∈ es ∨ t.printSpeed = s.printSpeed ∧ t.store = s.store
  still : t.isTyping = false

theorem Passes.trans (first : s.Passes es t) (second : t.Passes fs u) : s.Passes (es ++ fs) u where
  graph := second.graph.trans first.graph
  events := by rw [second.events, first.events, List.append_assoc]
  mute e listed := (List.mem_append.mp listed).elim (first.mute e) (second.mute e)
  speed := by
    rcases second.speed with reset | ⟨speed, store⟩
    · exact .inl (List.mem_append_right es reset)
    · rcases first.speed with reset | ⟨speed', store'⟩
      · exact .inl (List.mem_append_left fs reset)
      · exact .inr ⟨speed.trans speed', store.trans store'⟩
  still := second.still

theorem Passes.paces (passes : s.Passes es t) : s.Paces es t where
  graph := passes.graph
  events := passes.events
  keeps d _ typed kept := by
    rcases passes.speed with reset | ⟨speed, store⟩
    · cases kept _ reset
    · refine ⟨by rw [speed, store, typed.speed], fun types => ?_⟩
      cases passes.still.symm.trans types
  adopts before f later d split := by
    cases passes.mute (.dialogueShown f) (by simp [split])

/-- So much of a session matters to where it passes from here. -/
theorem Passes.since (passes : t.Passes es u) (graph : t.graph = s.graph)
    (events : t.events = s.events) (speed : t.printSpeed = s.printSpeed)
    (store : t.store = s.store) : s.Passes es u where
  graph := passes.graph.trans graph
  events := by rw [passes.events, events]
  mute := passes.mute
  speed := by rw [← speed, ← store]; exact passes.speed
  still := passes.still

theorem passes_finish (active : s.phase ≠ .idle) :
    s.Passes [.cue .resetAudio, .sessionEnded] s.finish := by
  rw [finish_of_active active]
  exact ⟨rfl, by simp [reset, cue, emit], by simp [Event.frame?], .inl (by simp),
    Timetable.isPending_of_nil rfl _⟩

theorem passes_emit {e : Event} (still : s.isTyping = false) (mute : e.frame? = none) :
    s.Passes [e] (s.emit e) :=
  ⟨rfl, by simp [emit], by simpa using mute, .inr ⟨rfl, rfl⟩, still⟩

theorem passes_leaveNode (s : Session) {e : Event} (mute : e.frame? = none) :
    s.Passes [e] (s.emit e).leaveNode :=
  ⟨rfl, by simp [leaveNode, emit], by simpa using mute, .inr ⟨rfl, rfl⟩,
    Timetable.isPending_of_nil rfl _⟩

theorem passes_hold (s : Session) : s.Passes [.cue .pauseMusic, .held] s.hold :=
  ⟨rfl, by simp [hold, cue, emit], by simp [Event.frame?], .inr ⟨rfl, rfl⟩,
    Timetable.isPending_of_nil rfl _⟩

section Unplanned

variable (none : s.timetable.tasks = [])
include none

theorem Lands.passes (lands : s.Lands t) : ∃ es, s.Passes es t := by
  have still := Timetable.isPending_of_nil none .reveal
  cases lands with
  | idle idle position => exact ⟨[], rfl, by simp, by simp, .inr ⟨rfl, rfl⟩, still⟩
  | ended active =>
    rw [← finish_of_active active]
    exact ⟨_, passes_finish active⟩
  | @arrived d id found =>
    have mute : ∀ e ∈ arrivalEvents id d, e.frame? = .none := by
      unfold arrivalEvents
      split <;> simp [Event.frame?]
    rw [arrived_eq]
    exact ⟨_, rfl, by simp [schedule], mute, .inr ⟨rfl, rfl⟩,
      Timetable.isPending_of_single (Timetable.tasks_schedule_of_nil none _ _) _⟩
  | held id =>
    have entered : ({ s with position := some id } : Session).Passes [.nodeEntered id] _ :=
      passes_emit still rfl
    exact ⟨_, (entered.trans (passes_hold _)).since rfl rfl rfl rfl⟩
  | stalled id =>
    have stalled : ({ s with position := some id } : Session).Passes [.stalled id] _ :=
      passes_emit still rfl
    exact ⟨_, stalled.since rfl rfl rfl rfl⟩

omit none in
theorem passes_goNext (s : Session) : ∃ es, s.Passes es s.goNext := by
  have left : s.Passes [.cue .stopSounds] s.departed := s.passes_leaveNode rfl
  obtain ⟨es, landed⟩ := Lands.passes (s := s.departed) rfl s.lands_goNext
  exact ⟨_, left.trans landed⟩

theorem passes_completeText : ∃ es, s.Passes es s.completeText := by
  have unplanned := Timetable.tasks_cancel_of_nil none .reveal
  cases current : s.currentDialogue? with
  | none =>
    rw [completeText_of_none current]
    exact ⟨[], rfl, by simp [cancel], by simp, .inr ⟨rfl, rfl⟩,
      Timetable.isPending_of_nil unplanned _⟩
  | some d =>
    have told : s.Passes [.textCompleted d.id s.visibleText] (s.told d) :=
      ⟨rfl, by simp [told, cancel, emit], by simp [Event.frame?], .inr ⟨rfl, rfl⟩,
        Timetable.isPending_of_nil unplanned _⟩
    rcases completeText_cases current with stays | pauses | goes
    · rw [stays]
      exact ⟨_, told⟩
    · rw [pauses]
      have paused := Timetable.tasks_schedule_of_nil unplanned .autoAdvance
        s.pacing.autoAdvanceInterval
      exact ⟨_, told.graph, told.events, told.mute, told.speed,
        Timetable.isPending_of_single paused _⟩
    · obtain ⟨es, gone⟩ := passes_goNext (s.told d)
      rw [goes]
      exact ⟨_, told.trans gone⟩

end Unplanned

theorem stroked_speed (current : s.currentDialogue? = some d) (t : Typewriter) :
    (s.stroked t).printSpeed = (d.settings.printSpeed.resolveActive s.store).getD s.printSpeed := by
  have adopts := adoptSpeed_eq_getD
    (s := { s with typewriter := t }.emit (.textRevealed t.shown)) current
  simp only [stroked, adopts]
  rfl

/-- A step of typing in a node. Its speed is there behind the step if it was there before, or if
there is a character left. -/
structure Speaks (s : Session) (d : Dialogue) (es : List Event) (t : Session) : Prop where
  graph : t.graph = s.graph
  events : t.events.toList = s.events.toList ++ es
  mute : ∀ e ∈ es, e.frame? = none
  speed : d.settings.printSpeed.active = true →
    s.printSpeed = d.settings.printSpeed.resolve s.store ∨ Markup.plain s.typewriter.hidden ≠ [] →
    (∀ e ∈ es, e.keepsPace = true) → t.HasSpeedOf d

theorem speaks_revealStep (none : s.timetable.tasks = []) (current : s.currentDialogue? = some d) :
    ∃ es, s.Speaks d es s.revealStep := by
  rcases s.typewriter.step_cases with ⟨-, empty, finished⟩ | ⟨tags, c, rest, -, -, -, -, revealed⟩
  · let shown := { s with typewriter := s.typewriter.showAll }
    have completes : s.revealStep = shown.completeText := by simp only [revealStep, finished, shown]
    obtain ⟨es, passes⟩ := passes_completeText (s := shown) none
    rw [completes]
    refine ⟨es, passes.graph, passes.events, passes.mute, fun active before kept => ?_⟩
    have speed := before.resolve_right (absurd empty)
    have still : shown.isTyping = false := Timetable.isPending_of_nil none .reveal
    have typed : shown.HasSpeedOf d := ⟨speed, fun types => by cases still.symm.trans types⟩
    exact passes.paces.keeps d active typed kept
  · let shown : Typewriter := ⟨s.typewriter.shown ++ tags ++ [c], rest⟩
    have strokes : s.revealStep = s.stroked shown := by
      simp only [revealStep, revealed, stroked, shown]
    have adopted := stroked_speed current shown
    obtain ⟨speed, stroked⟩ := stroked_eq s shown
    rw [strokes]
    refine ⟨[.textRevealed shown.shown], ?_, ?_, by simp [Event.frame?], fun active _ _ => ⟨?_, ?_⟩⟩
    · rw [stroked]
      rfl
    · rw [stroked]
      simp [schedule, emit]
    · rw [adopted, Bindable.resolveActive, if_pos active, Option.getD_some, stroked]
      rfl
    · intro _
      rw [stroked]
      exact current

theorem paces_setUp (current : s.currentDialogue? = some d)
    (rest : (s.timetable.cancel .nodeDelay).tasks = []) : ∃ es, s.Paces es s.setUp := by
  obtain ⟨es, speaks⟩ := speaks_revealStep (s := s.opened d) rest current
  have mute (cues : List Cue) : ∀ e ∈ cues.map Event.cue, e.frame? = none := by
    simp [Event.frame?]
  rw [setUp_eq current]
  refine ⟨s.openingEvents d ++ es, speaks.graph, ?_, ?_, ?_⟩
  · rw [speaks.events]
    simp [opened]
  · intro _ _ _ kept
    cases kept (.dialogueShown (s.frame d)) (by simp [openingEvents])
  · intro before f later d' split kept found active plain
    rw [openingEvents, List.append_assoc, List.cons_append] at split
    obtain ⟨rfl, rfl⟩ := frame_split split (mute _) fun e listed =>
      (List.mem_append.mp listed).elim (mute _ e) (speaks.mute e)
    have own : s.graph.dialogue? d.id = some d := by
      rw [currentDialogue?, position_of_dialogue current] at current
      exact current
    cases own.symm.trans found
    exact speaks.speed active (.inr plain) fun e listed => kept e (List.mem_append_right _ listed)

theorem paces_finishReveal (here : Situation .resting s) (typing : s.isTyping = true) :
    ∃ es, s.Paces es s.finishReveal := by
  obtain ⟨d, due, store, -, -, tasks, -⟩ := here.of_typing typing
  let shown := { s.cancel .reveal with typewriter := s.typewriter.showAll }
  have none : shown.timetable.tasks = [] := Timetable.tasks_cancel_of_single tasks
  obtain ⟨es, passes⟩ := passes_completeText none
  exact ⟨es, (passes.since (s := s) rfl rfl rfl rfl).paces⟩

theorem paces_turn (here : Situation .resting s)
    (taken : s.timetable.take? limit = some (kind, rest)) :
    ∃ es, s.Paces es ({ s with timetable := rest }.runTask kind) := by
  have none := tasks_of_take? here taken
  have began : s.Paces [] { s with timetable := rest } :=
    paces_of_same rfl rfl rfl rfl rfl fun types => by
      rw [isTyping, Timetable.isPending_of_nil none] at types
      cases types
  obtain ⟨due, first, -⟩ := Timetable.take?_eq_some taken
  have listed := (Timetable.mem_of_next? first).1
  cases here with
  | idle _ _ tasks | held _ _ _ tasks | stalled _ _ _ tasks | finished _ _ tasks =>
    simp [tasks] at listed
  | delaying phase current tasks =>
    rw [tasks, List.mem_singleton] at listed
    cases listed
    obtain ⟨es, paces⟩ := paces_setUp (s := { s with timetable := rest }) current
      (Timetable.tasks_cancel_of_nil none _)
    exact ⟨_, began.trans paces⟩
  | typing phase current tasks =>
    rw [tasks, List.mem_singleton] at listed
    cases listed
    obtain ⟨es, speaks⟩ := speaks_revealStep (s := { s with timetable := rest }) none current
    refine ⟨es, speaks.graph, speaks.events, ?_, ?_⟩
    -- What is being typed is the text of the node whose speed is kept.
    · intro d' active typed kept
      cases current.symm.trans (typed.own (Timetable.isPending_of_single tasks _))
      exact speaks.speed active (.inl typed.speed) kept
    · intro before f later d' split
      cases speaks.mute (.dialogueShown f) (by simp [split])
  | pausing phase free current tasks =>
    rw [tasks, List.mem_singleton] at listed
    cases listed
    obtain ⟨es, passes⟩ := passes_goNext { s with timetable := rest }
    exact ⟨_, began.trans passes.paces⟩

theorem paces_runDue (here : Situation .resting s) (budget : Nat) (limit : Duration) :
    ∃ es, s.Paces es (s.runDue budget limit) := by
  induction budget generalizing s with
  | zero => exact ⟨_, paces_of_same rfl rfl rfl rfl rfl id⟩
  | succ budget ih =>
    cases taken : s.timetable.take? limit with
    | none =>
      rw [runDue_of_none taken]
      exact ⟨_, paces_of_same rfl rfl rfl rfl rfl id⟩
    | some taking =>
      obtain ⟨kind, rest⟩ := taking
      obtain ⟨es, course⟩ := runTask_course here taken
      obtain ⟨fs, first⟩ := paces_turn here taken
      obtain ⟨gs, later⟩ := ih (course.situation here)
      rw [runDue_succ taken]
      exact ⟨_, first.trans later⟩

theorem paces_pushFastForward (here : Situation .resting s) :
    ∃ es, s.Paces es s.pressed.pushFastForward := by
  have pressed : s.Paces [] s.pressed := paces_of_same rfl rfl rfl rfl rfl id
  rcases s.pressed.pushFastForward_cases with same | ⟨-, delaying, cuts⟩ | ⟨-, goes⟩
  · rw [same]
    exact ⟨_, pressed⟩
  · obtain ⟨d, due, -, current, tasks, -⟩ := here.of_delaying delaying
    obtain ⟨es, paces⟩ :=
      paces_setUp (s := s.pressed) current (Timetable.tasks_cancel_of_single tasks)
    rw [cuts]
    exact ⟨_, pressed.trans paces⟩
  · obtain ⟨es, passes⟩ := passes_goNext s.pressed
    rw [goes]
    exact ⟨_, pressed.trans passes.paces⟩

theorem paces_respond? (here : Situation .resting s) (accepted : s.respond? i = some t) :
    ∃ es, s.Paces es t := by
  cases response_of_respond? here accepted with
  | reveal typing => exact paces_finishReveal here typing
  | cut delaying =>
    obtain ⟨d, due, -, current, tasks, -⟩ := here.of_delaying delaying
    exact paces_setUp current (Timetable.tasks_cancel_of_single tasks)
  | go =>
    obtain ⟨es, passes⟩ := passes_goNext s
    exact ⟨es, passes.paces⟩
  | @choose _ offer _ _ index =>
    let left := (s.emit (.choiceSelected index offer.next)).leaveNode
    have chose : s.Passes [.choiceSelected index offer.next] left := s.passes_leaveNode rfl
    obtain ⟨es, landed⟩ := Lands.passes (s := left) rfl (lands_land _ _)
    exact ⟨_, (chose.trans landed).paces⟩
  | hold => exact ⟨_, s.passes_hold.paces⟩
  | resume =>
    let released := { s with phase := .running }.emit .resumed
    have left : ({ s with phase := .running } : Session).Passes [.resumed] released.leaveNode :=
      passes_leaveNode _ rfl
    obtain ⟨es, landed⟩ := Lands.passes (s := released.leaveNode) rfl released.lands_proceed
    have proceeded := (left.trans landed).since (s := s) rfl rfl rfl rfl
    exact ⟨_, (proceeded.trans (passes_emit landed.still rfl)).paces⟩
  | finish active => exact ⟨_, (passes_finish active).paces⟩

/-- Every operation is such a way, but for those that emit nothing: writes and fetches. -/
theorem paces_perform (here : Situation .resting s) (op : Operation) :
    (∃ es, s.Paces es (s.perform op).2) ∨ s.newEvents (s.perform op).2 = [] := by
  cases op with
  | start =>
    have begun : s.Passes [.cue .resetAudio, .sessionStarted] s.begun :=
      ⟨rfl, by simp [Session.begun, leaveNode, emit, cue, reset], by simp [Event.frame?],
        .inl (by simp), Timetable.isPending_of_nil rfl _⟩
    obtain ⟨es, landed⟩ := Lands.passes (s := s.begun) rfl (lands_land _ _)
    exact .inl ⟨_, (begun.trans landed).paces⟩
  | finish =>
    by_cases idle : s.phase = .idle
    · have same : (s.perform .finish).2 = s := if_pos idle
      rw [same]
      exact .inl ⟨_, paces_of_same rfl rfl rfl rfl rfl id⟩
    · exact .inl ⟨_, (passes_finish idle).paces⟩
  | tick dt =>
    obtain ⟨es, ran⟩ := paces_runDue here (max 1 s.pacing.maxTasksPerTick) (s.timetable.now + dt)
    exact .inl ⟨_, ran.trans (paces_of_same rfl rfl rfl rfl rfl id)⟩
  | setFastForward on =>
    cases on with
    | true => exact .inl (paces_pushFastForward here)
    | false => exact .inl ⟨_, paces_of_same rfl rfl rfl rfl rfl id⟩
  | setAutoAdvance on =>
    cases on with
    | true | false => exact .inl ⟨_, paces_of_same rfl rfl rfl rfl rfl id⟩
  | input i =>
    rcases s.perform_input i with ⟨t, responds, performs⟩ | ⟨-, performs⟩
    · rw [performs]
      exact .inl (paces_respond? here responds)
    · rw [performs]
      exact .inl ⟨_, paces_of_same rfl rfl rfl rfl rfl id⟩
  | write name value =>
    right
    simp only [perform, write?]
    cases s.store.write? name value with
    | none | some => simp [answer, newEvents]
  | poll | drain => exact .inr (by simp [perform, poll, drain, newEvents])

end Session
end Parley
