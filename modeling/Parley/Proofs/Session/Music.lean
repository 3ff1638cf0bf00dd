import Parley.Proofs.Session.Run

/-! What the music is told. Whatever holds a session pauses it, and whatever ends one resets the
audio; only a release asks for music behind the move that it makes, even where that move comes to
rest in another hold or ends the session. -/
namespace Parley

/-- The cue by which an event governs the music, if it does. -/
def Event.music? : Event → Option Cue
  | .cue .pauseMusic => some .pauseMusic
  | .cue .resumeMusic => some .resumeMusic
  | .cue .resetAudio => some .resetAudio
  | _ => none

/-- What the music was told last. -/
def lastMusic? (stream : List Event) : Option Cue := (stream.filterMap Event.music?).getLast?

theorem lastMusic?_of_suffix {tail stream : List Event} (last : tail <:+ stream)
    (told : lastMusic? tail = some c) : lastMusic? stream = some c := by
  obtain ⟨past, rfl⟩ := last
  unfold lastMusic? at told ⊢
  rw [List.filterMap_append, List.getLast?_append, told]
  rfl

/-- Released, held again by the interrupt behind, and only then told to go on. -/
def heldAgain (id : NodeId) : List Event :=
  [.resumed, .nodeEntered id, .cue .pauseMusic, .held, .cue .resumeMusic]

/-- Released, ended for want of a node behind, and only then told to go on. -/
def endedBehind : List Event := [.resumed, .cue .resetAudio, .sessionEnded, .cue .resumeMusic]

namespace Session

/-- A session that has just come to a halt says so last. -/
structure Hushed (s : Session) : Prop where
  held : s.phase = .holding → [.cue .pauseMusic, .held] <:+ s.events.toList
  idle : s.phase = .idle → [.cue .resetAudio, .sessionEnded] <:+ s.events.toList

/-- What a move that comes to a halt tells behind what was told before. -/
structure Halts (past : List Event) (s : Session) : Prop where
  held : s.phase = .holding → ∃ id,
    s.events.toList = past ++ [.nodeEntered id, .cue .pauseMusic, .held]
  idle : s.phase = .idle → s.events.toList = past ++ [.cue .resetAudio, .sessionEnded]

/-- Nothing has been told, and the phase is as it was. -/
structure Stays (s t : Session) : Prop where
  phase : t.phase = s.phase
  events : t.events = s.events

variable {s t : Session}

theorem Halts.of_active (active : s.phase = .running ∨ s.phase = .awaiting) : s.Halts past := by
  constructor
  · intro held
    simp [held] at active
  · intro idle
    simp [idle] at active

namespace Hushed

theorem of_halts (halts : s.Halts past) : s.Hushed := by
  constructor
  · intro held
    obtain ⟨id, told⟩ := halts.held held
    rw [told]
    exact ⟨past ++ [.nodeEntered id], by simp⟩
  · intro idle
    rw [halts.idle idle]
    exact List.suffix_append _ _

theorem of_active (active : s.phase = .running ∨ s.phase = .awaiting) : s.Hushed :=
  of_halts (Halts.of_active active : s.Halts [])

theorem stay (hushed : s.Hushed) (stays : s.Stays t) : t.Hushed := by
  constructor
  · intro held
    rw [stays.events]
    exact hushed.held (stays.phase.symm.trans held)
  · intro idle
    rw [stays.events]
    exact hushed.idle (stays.phase.symm.trans idle)

end Hushed

theorem hushed_hold (s : Session) : s.hold.Hushed := by
  constructor
  · intro _
    exact ⟨s.events.toList, by simp [hold, cue, emit]⟩
  · rintro ⟨⟩

theorem halts_finish (active : s.phase ≠ .idle) : s.finish.Halts s.events.toList := by
  rw [finish_of_active active]
  constructor
  · rintro ⟨⟩
  · intro _
    simp [reset, cue, emit]

section Active

variable (active : s.phase = .running ∨ s.phase = .awaiting)
include active

theorem Lands.halts (lands : s.Lands t) : t.Halts s.events.toList := by
  cases lands with
  | idle idle => exact absurd idle (Phase.ne_idle active)
  | ended busy =>
    rw [← finish_of_active busy]
    exact halts_finish busy
  | arrived found =>
    rw [arrived_eq]
    exact .of_active active
  | held id =>
    constructor
    · intro _
      exact ⟨id, by simp [hold, cue, emit]⟩
    · rintro ⟨⟩
  | stalled id => exact .of_active active

theorem hushed_goNext : s.goNext.Hushed := by
  cases situation_leaveNode (s := s.cue .stopSounds) active none with
  | leaving phase => exact .of_halts (s.lands_goNext.halts (.inl phase))

theorem hushed_completeText : s.completeText.Hushed := by
  cases current : s.currentDialogue? with
  | none =>
    rw [completeText_of_none current]
    exact .of_active active
  | some d =>
    rcases completeText_cases current with same | same | same
    · rw [same]
      exact .of_active active
    · rw [same]
      exact .of_active active
    · rw [same]
      exact hushed_goNext (s := s.told d) active

theorem hushed_revealStep : s.revealStep.Hushed := by
  rcases s.revealStep_cases with ⟨t, -, completes⟩ | ⟨c, t, -, strokes⟩
  · rw [completes]
    exact hushed_completeText (s := { s with typewriter := t }) active
  · obtain ⟨speed, stroked⟩ := stroked_eq s t
    rw [strokes, stroked]
    exact .of_active active

theorem hushed_setUp : s.setUp.Hushed := by
  cases current : s.currentDialogue? with
  | none =>
    rw [setUp_of_none current]
    exact .of_active active
  | some d =>
    rw [setUp_eq current]
    exact hushed_revealStep (s := s.opened d) d.phase_cases

theorem hushed_finishReveal : s.finishReveal.Hushed :=
  hushed_completeText (s := { s.cancel .reveal with typewriter := s.typewriter.showAll }) active

theorem hushed_runTask (kind : TaskKind) : (s.runTask kind).Hushed := by
  cases kind with
  | nodeDelay => exact hushed_setUp active
  | reveal => exact hushed_revealStep active
  | autoAdvance => exact hushed_goNext active

end Active

theorem hushed_start (s : Session) : s.start.Hushed :=
  .of_halts (Lands.halts (s := s.begun) (.inl rfl) (lands_land _ _))

/-- A session with a task planned neither is idle nor is held. -/
theorem active_of_task (here : Situation .resting s)
    (taken : s.timetable.take? limit = some (kind, rest)) :
    s.phase = .running ∨ s.phase = .awaiting := by
  apply active_of_not
  rintro (idle | held)
  · rw [Timetable.take?_of_nil (here.of_idle idle).2.1] at taken
    cases taken
  · rw [Timetable.take?_of_nil (here.of_held held)] at taken
    cases taken

theorem hushed_runDue (here : Situation .resting s) (budget : Nat) :
    (s.runDue budget limit).Hushed ∨ s.Stays (s.runDue budget limit) := by
  induction budget generalizing s with
  | zero => exact .inr ⟨rfl, rfl⟩
  | succ budget ih =>
    cases taken : s.timetable.take? limit with
    | none =>
      rw [runDue_of_none taken]
      exact .inr ⟨rfl, rfl⟩
    | some next =>
      obtain ⟨kind, rest⟩ := next
      have active := active_of_task here taken
      have ran := hushed_runTask (s := { s with timetable := rest }) active kind
      obtain ⟨es, course⟩ := runTask_course here taken
      rw [runDue_succ taken]
      rcases ih (course.situation here) with hushed | stays
      · exact .inl hushed
      · exact .inl (ran.stay stays)

theorem hushed_pushFastForward (s : Session) :
    s.pushFastForward.Hushed ∨ s.Stays s.pushFastForward := by
  rcases s.pushFastForward_cases with same | ⟨running, -, cuts⟩ | ⟨running, goes⟩
  · rw [same]
    exact .inr ⟨rfl, rfl⟩
  · rw [cuts]
    exact .inl (hushed_setUp (.inl running))
  · rw [goes]
    exact .inl (hushed_goNext (.inl running))

theorem hushed_respond? (here : Situation .resting s) (other : i ≠ .resume)
    (accepted : s.respond? i = some t) : t.Hushed := by
  cases response_of_respond? here accepted with
  | reveal typing =>
    obtain ⟨d, due, store, phase, -⟩ := here.of_typing typing
    exact hushed_finishReveal (phase ▸ d.phase_cases)
  | cut delaying =>
    obtain ⟨d, due, running, -⟩ := here.of_delaying delaying
    exact hushed_setUp (.inl running)
  | go active => exact hushed_goNext active
  | choose running current offered enabled visible written =>
    have leg := Leg.choose running current offered enabled visible written
    cases leg.situation here with
    | leaving phase => exact .of_halts ((lands_land _ _).halts (.inl phase))
  | hold => exact hushed_hold s
  | resume => exact absurd rfl other
  | finish active => exact .of_halts (halts_finish active)

/-- Where nobody is released, a session comes to a halt with the right word to the music, or is as
it was. -/
theorem hushed_perform (here : Situation .resting s) (keeps : op.fetches = false)
    (other : op ≠ .input .resume) :
    (s.perform op).2.Hushed ∨ s.Stays (s.perform op).2 := by
  cases op with
  | start => exact .inl (hushed_start s)
  | finish =>
    by_cases idle : s.phase = .idle
    · have same : s.finish = s := if_pos idle
      simp only [perform, same]
      exact .inr ⟨rfl, rfl⟩
    · exact .inl (.of_halts (halts_finish idle))
  | tick dt =>
    rcases hushed_runDue here (max 1 s.pacing.maxTasksPerTick) with hushed | stays
    · exact .inl (hushed.stay ⟨rfl, rfl⟩)
    · exact .inr ⟨stays.phase, stays.events⟩
  | setFastForward on =>
    cases on with
    | true =>
      rcases hushed_pushFastForward s.pressed with hushed | stays
      · exact .inl hushed
      · exact .inr ⟨stays.phase, stays.events⟩
    | false => exact .inr ⟨rfl, rfl⟩
  | setAutoAdvance on => cases on <;> exact .inr ⟨rfl, rfl⟩
  | input i =>
    simp only [perform]
    cases responds : s.respond? i with
    | none => exact .inr ⟨rfl, rfl⟩
    | some t => exact .inl (hushed_respond? here (fun same => other (same ▸ rfl)) responds)
  | write name value =>
    simp only [perform, write?]
    cases s.store.write? name value with
    | none => exact .inr ⟨rfl, rfl⟩
    | some store => exact .inr ⟨rfl, rfl⟩
  | poll | drain => cases keeps

/-- What the stream ends in while the session is held, and once it is over. -/
structure Tuned (stream : List Event) (s : Session) : Prop where
  held : s.phase = .holding →
    [.cue .pauseMusic, .held] <:+ stream ∨ ∃ id, heldAgain id <:+ stream
  idle : s.phase = .idle → [.cue .resetAudio, .sessionEnded] <:+ stream ∨ endedBehind <:+ stream

namespace Tuned

theorem of_hushed (hushed : s.Hushed) (past : List Event) : s.Tuned (past ++ s.events.toList) := by
  constructor
  · intro held
    exact .inl ((hushed.held held).trans (List.suffix_append _ _))
  · intro idle
    exact .inl ((hushed.idle idle).trans (List.suffix_append _ _))

theorem stay {stream : List Event} (tuned : s.Tuned stream) (phase : t.phase = s.phase) :
    t.Tuned stream := by
  constructor
  · intro held
    exact tuned.held (phase.symm.trans held)
  · intro idle
    exact tuned.idle (phase.symm.trans idle)

/-- A release tells where it led before it asks for music. -/
theorem of_resume (released : s.resume? = some t) (past : List Event) :
    t.Tuned (past ++ t.events.toList) := by
  obtain ⟨-, same⟩ := Option.ite_none_right_eq_some.mp released
  let left := ({ s with phase := .running }.emit .resumed).leaveNode
  let landing := left.graph.proceed left.store left.position
  have events : left.events.toList = s.events.toList ++ [.resumed] := by
    simp [left, leaveNode, emit]
  have halts : (left.land landing).Halts left.events.toList :=
    Lands.halts (.inl rfl) (left.lands_land landing)
  have told : t = (left.land landing).cue .resumeMusic := (Option.some.inj same).symm
  have whole : t.events.toList = (left.land landing).events.toList ++ [.cue .resumeMusic] := by
    simp [told, cue, emit]
  have phase : t.phase = (left.land landing).phase := by
    rw [told]
    rfl
  constructor
  · intro held
    obtain ⟨id, moved⟩ := halts.held (phase.symm.trans held)
    refine .inr ⟨id, past ++ s.events.toList, ?_⟩
    simp [whole, moved, events, heldAgain]
  · intro idle
    refine .inr ⟨past ++ s.events.toList, ?_⟩
    simp [whole, halts.idle (phase.symm.trans idle), events, endedBehind]

/-- What an operation leaves of a stream that is in tune. -/
theorem perform (here : Situation .resting s) (op : Operation) (past : List Event)
    (tuned : s.Tuned (past ++ s.events.toList)) :
    (s.perform op).2.Tuned
      (past ++ ((s.perform op).1.fetched ++ (s.perform op).2.events.toList)) := by
  cases fetches : op.fetches with
  | true =>
    obtain ⟨got, rest, whole, fetch⟩ := s.perform_fetch fetches
    rw [fetch s rfl]
    show Tuned (past ++ (got ++ rest.toList)) _
    rw [whole]
    exact tuned.stay rfl
  | false =>
    rw [fetched_of_keeps s fetches, List.nil_append]
    by_cases release : op = .input .resume
    · subst release
      simp only [Session.perform]
      cases responds : s.respond? .resume with
      | none => exact tuned
      | some t => exact of_resume responds past
    · rcases hushed_perform here fetches release with hushed | stays
      · exact of_hushed hushed past
      · rw [stays.events]
        exact tuned.stay stays.phase

end Tuned

/-- From the first start on, every run is in tune. -/
theorem tuned_after (here : Situation .resting s) (past : List Event) (ops : List Operation)
    (begun : .start ∈ ops ∨ s.Tuned (past ++ s.events.toList)) :
    (s.after ops).Tuned (past ++ s.stream ops) := by
  induction ops generalizing s past with
  | nil =>
    rcases begun with listed | tuned
    · cases listed
    · exact tuned
  | cons op ops ih =>
    rw [after_cons, stream_cons, ← List.append_assoc]
    refine ih (perform_situation here op) _ ?_
    rcases begun with listed | tuned
    · rcases List.mem_cons.mp listed with rfl | later
      · exact .inr (.of_hushed (hushed_start s) _)
      · exact .inl later
    · right
      rw [List.append_assoc]
      exact tuned.perform here op past

end Session

/-- After every run with a start in it, the music was paused last while the session is held and was
reset last once it is over, unless the last thing that happened was a release: one that led straight
into another hold, or to the end, asks for music behind it. -/
theorem music_follows_phase (graph : Graph) (pacing : Pacing) (ops : List Operation)
    (begun : .start ∈ ops) :
    let s := (Session.ofGraph graph pacing).after ops
    let stream := (Session.ofGraph graph pacing).stream ops
    (s.phase = .holding → lastMusic? stream = some .pauseMusic ∨
      lastMusic? stream = some .resumeMusic ∧ ∃ id, heldAgain id <:+ stream) ∧
    (s.phase = .idle → lastMusic? stream = some .resetAudio ∨
      lastMusic? stream = some .resumeMusic ∧ endedBehind <:+ stream) := by
  intro s stream
  have tuned : s.Tuned stream :=
    Session.tuned_after (situation_ofGraph graph pacing) [] ops (.inl begun)
  constructor
  · intro held
    rcases tuned.held held with paused | ⟨id, again⟩
    · exact .inl (lastMusic?_of_suffix paused rfl)
    · exact .inr ⟨lastMusic?_of_suffix again rfl, id, again⟩
  · intro idle
    rcases tuned.idle idle with reset | behind
    · exact .inl (lastMusic?_of_suffix reset rfl)
    · exact .inr ⟨lastMusic?_of_suffix behind rfl, behind⟩

/-- Two interrupts in a row, and nothing behind them. -/
def twoHolds : Graph :=
  .ofNodes (some "gate") [.interrupt ⟨"gate", some "door"⟩, .interrupt ⟨"door", none⟩]

theorem twoHolds_in_tune :
    let ops : List Operation := [.start, .input .resume]
    let stream := (Session.ofGraph twoHolds default).stream ops
    .start ∈ ops ∧ ((Session.ofGraph twoHolds default).after ops).phase = .holding ∧
      (lastMusic? stream = some .pauseMusic ∨
        lastMusic? stream = some .resumeMusic ∧ ∃ id, heldAgain id <:+ stream) := by
  intro ops stream
  have begun : .start ∈ ops := by decide
  have held : ((Session.ofGraph twoHolds default).after ops).phase = .holding := by
    decide +kernel
  exact ⟨begun, held, (music_follows_phase twoHolds default ops begun).1 held⟩

/-- Music goes on during the second hold, and once more when the session is over. -/
theorem twoHolds_out_of_tune :
    let held : List Operation := [.start, .input .resume]
    let ended : List Operation := [.start, .input .resume, .input .resume]
    ((Session.ofGraph twoHolds default).after held).phase = .holding ∧
      lastMusic? ((Session.ofGraph twoHolds default).stream held) = some .resumeMusic ∧
      ((Session.ofGraph twoHolds default).after ended).phase = .idle ∧
      lastMusic? ((Session.ofGraph twoHolds default).stream ended) = some .resumeMusic := by
  decide +kernel

end Parley
