import Parley.Proofs.Session.Visit
import Parley.Story.Tavern

/-! What the host is told of the text is what its frames say. The frames since the text was last
cleared make it up, one behind the other, whether a frame's text came character by character, came
at once, or was left in the middle. -/
namespace Parley

namespace Event

/-- Events behind which no text is on screen. -/
def clearsText : Event → Bool
  | textCleared | sessionStarted => true
  | _ => false

def frame? : Event → Option Frame
  | dialogueShown frame => some frame
  | _ => none

def revealed? : Event → Option (List Char)
  | textRevealed visible => some visible
  | _ => none

end Event

/-- The end of a stream, behind the last event that cuts it. -/
def stretch (cuts : Event → Bool) (stream : List Event) : List Event :=
  (stream.reverse.takeWhile fun e => !cuts e).reverse

theorem stretch_append (lasts : ∀ e ∈ es, cuts e = false) (stream : List Event) :
    stretch cuts (stream ++ es) = stretch cuts stream ++ es := by
  have whole : ∀ e ∈ es.reverse, !cuts e := by simpa using lasts
  rw [stretch, List.reverse_append, List.takeWhile_append_of_pos whole, List.reverse_append,
    List.reverse_reverse, stretch]

theorem stretch_cut (cut : cuts e = true) (lasts : ∀ e ∈ es, cuts e = false)
    (stream : List Event) : stretch cuts (stream ++ e :: es) = es := by
  have empty : stretch cuts (stream ++ [e]) = [] := by simp [stretch, cut]
  rw [List.append_cons, stretch_append lasts, empty, List.nil_append]

/-- The frames shown since the text was last cleared. -/
def framesOn (stream : List Event) : List Frame :=
  (stretch Event.clearsText stream).filterMap Event.frame?

/-- The texts reported character by character since the visit began. -/
def revealedOn (stream : List Event) : List (List Char) :=
  (stretch Event.endsVisit stream).filterMap Event.revealed?

def textOf (frames : List Frame) : List Char := frames.flatMap Frame.text

/-- What an event says of the text is what the frames before it say: a complete text is theirs, and
a text on the way lacks only the end of the last one, and less of it with every character. -/
def Faithful (stream : List Event) : Event → Prop
  | .textCompleted node text => ∃ earlier last, framesOn stream = earlier ++ [last] ∧
      last.node = node ∧ text = textOf (earlier ++ [last])
  | .textRevealed visible => ∃ earlier last piece, framesOn stream = earlier ++ [last] ∧
      visible = textOf earlier ++ piece ∧ piece ≠ [] ∧ piece <+: last.text ∧
      ∀ before ∈ revealedOn stream, before.length < visible.length
  | _ => True

theorem textOf_append (frames more : List Frame) :
    textOf (frames ++ more) = textOf frames ++ textOf more :=
  List.flatMap_append

theorem framesOn_append (lasts : ∀ e ∈ es, e.clearsText = false) (stream : List Event) :
    framesOn (stream ++ es) = framesOn stream ++ es.filterMap Event.frame? := by
  rw [framesOn, stretch_append lasts, List.filterMap_append, framesOn]

theorem revealedOn_append (lasts : ∀ e ∈ es, e.endsVisit = false) (stream : List Event) :
    revealedOn (stream ++ es) = revealedOn stream ++ es.filterMap Event.revealed? := by
  rw [revealedOn, stretch_append lasts, List.filterMap_append, revealedOn]

section Silent

variable {es : List Event} (silent : ∀ e ∈ es, e.speaks = false)

include silent

theorem framesOn_silent (lasts : ∀ e ∈ es, e.clearsText = false) (stream : List Event) :
    framesOn (stream ++ es) = framesOn stream := by
  have none : es.filterMap Event.frame? = [] := by
    refine List.filterMap_eq_nil_iff.mpr fun e listed => ?_
    cases e with
    | dialogueShown => cases silent _ listed
    | _ => rfl
  rw [framesOn_append lasts, none, List.append_nil]

theorem revealedOn_silent (lasts : ∀ e ∈ es, e.endsVisit = false) (stream : List Event) :
    revealedOn (stream ++ es) = revealedOn stream := by
  have none : es.filterMap Event.revealed? = [] := by
    refine List.filterMap_eq_nil_iff.mpr fun e listed => ?_
    cases e with
    | textRevealed => cases silent _ listed
    | _ => rfl
  rw [revealedOn_append lasts, none, List.append_nil]

theorem faithful_silent : ∀ e ∈ es, ∀ stream, Faithful stream e := by
  intro e listed stream
  cases e with
  | textRevealed | textCompleted => cases silent _ listed
  | _ => trivial

end Silent

/-- Entering a node clears the text, or keeps all of it. -/
theorem framesOn_arrival (id : NodeId) (d : Dialogue) (stream : List Event) :
    framesOn (stream ++ Session.arrivalEvents id d) =
      if d.settings.keepPreviousText then framesOn stream else [] := by
  unfold Session.arrivalEvents
  split
  · exact framesOn_silent (by simp [Event.speaks]) (by simp [Event.clearsText]) stream
  · rw [List.append_cons, framesOn, stretch_cut rfl (by simp)]
    rfl

theorem revealedOn_arrival (id : NodeId) (d : Dialogue) (stream : List Event) :
    revealedOn (stream ++ Session.arrivalEvents id d) = [] := by
  unfold Session.arrivalEvents
  rw [revealedOn, stretch_cut rfl (by split <;> simp [Event.endsVisit])]
  split <;> simp [Event.revealed?]

/-- The text of the last frame is on its way onto the screen, and all before it is there. -/
def Underway (stream : List Event) (s : Session) : Prop :=
  ∃ earlier last piece, framesOn stream = earlier ++ [last] ∧ s.position = some last.node ∧
    s.typewriter.shown = textOf earlier ++ piece ∧ piece ++ s.typewriter.hidden = last.text ∧
    ∀ before ∈ revealedOn stream, before.length ≤ s.typewriter.shown.length

namespace Underway

variable {s : Session}

theorem total (underway : Underway stream s) : s.typewriter.total = textOf (framesOn stream) := by
  obtain ⟨earlier, last, piece, frames, -, shown, hidden, -⟩ := underway
  rw [Typewriter.total, shown, List.append_assoc, hidden, frames, textOf_append]
  simp [textOf]

theorem showAll (underway : Underway stream s) :
    Underway stream { s with typewriter := s.typewriter.showAll } := by
  obtain ⟨earlier, last, piece, frames, position, shown, hidden, shorter⟩ := underway
  refine ⟨earlier, last, last.text, frames, position, ?_, List.append_nil _, ?_⟩
  · show s.typewriter.shown ++ s.typewriter.hidden = textOf earlier ++ last.text
    rw [shown, List.append_assoc, hidden]
  · intro before listed
    have short := shorter before listed
    show before.length ≤ (s.typewriter.shown ++ s.typewriter.hidden).length
    rw [List.length_append]
    omega

/-- A step of the typewriter brings another piece of the last frame's text on screen. -/
theorem stroke (underway : Underway stream s) (stepped : s.typewriter.step = (.revealed c, u)) :
    Faithful stream (.textRevealed u.shown) ∧
      Underway (stream ++ [.textRevealed u.shown]) { s with typewriter := u } := by
  obtain ⟨earlier, last, piece, frames, position, shown, hidden, shorter⟩ := underway
  obtain ⟨next, filled, longer, rest⟩ := Typewriter.step_revealed stepped
  have pieces : u.shown = textOf earlier ++ (piece ++ next) := by
    rw [longer, shown, List.append_assoc]
  have whole : (piece ++ next) ++ u.hidden = last.text := by
    rw [List.append_assoc, rest, hidden]
  have grows : s.typewriter.shown.length < u.shown.length := by
    have some := List.length_pos_iff.mpr filled
    rw [longer, List.length_append]
    omega
  have same : framesOn (stream ++ [.textRevealed u.shown]) = earlier ++ [last] := by
    rw [framesOn_append (by simp [Event.clearsText]), frames]
    exact List.append_nil _
  have revealed : revealedOn (stream ++ [.textRevealed u.shown]) = revealedOn stream ++ [u.shown] :=
    revealedOn_append (by simp [Event.endsVisit]) stream
  constructor
  · refine ⟨earlier, last, piece ++ next, frames, pieces, by simp [filled], ⟨u.hidden, whole⟩, ?_⟩
    intro before listed
    exact Nat.lt_of_le_of_lt (shorter before listed) grows
  · refine ⟨earlier, last, piece ++ next, same, position, pieces, whole, ?_⟩
    intro before listed
    rw [revealed] at listed
    rcases List.mem_append.mp listed with old | new
    · exact Nat.le_trans (shorter before old) (Nat.le_of_lt grows)
    · exact Nat.le_of_eq (congrArg List.length (List.mem_singleton.mp new))

/-- Without a hidden rest, what is shown is the text of all the frames. -/
theorem complete (underway : Underway stream s) (silent : s.typewriter.hidden = [])
    (position : s.position = some node) : Faithful stream (.textCompleted node s.visibleText) := by
  obtain ⟨earlier, last, piece, frames, position', shown, hidden, -⟩ := underway
  rw [silent, List.append_nil] at hidden
  refine ⟨earlier, last, frames, Option.some.inj (position'.symm.trans position), ?_⟩
  rw [Session.visibleText, shown, hidden, textOf_append]
  simp [textOf]

end Underway

theorem Stance.resting_ne_speaking : Stance.resting ≠ .speaking := by rintro ⟨⟩

theorem Stance.leaving_ne_speaking : Stance.leaving target ≠ .speaking := by rintro ⟨⟩

/-- How a stream and the text of a session fit together. -/
structure Shows (stream : List Event) (a : Stance) (s : Session) : Prop where
  faithful : Throughout Faithful stream
  content : s.phase ≠ .idle → s.typewriter.total = textOf (framesOn stream)
  delaying : s.isDelaying = true → revealedOn stream = []
  telling : a = .speaking ∨ s.isTyping = true → Underway stream s

namespace Shows

variable {s t : Session}

theorem bare (faithful : Throughout Faithful stream)
    (content : t.phase ≠ .idle → t.typewriter.total = textOf (framesOn stream))
    (tasks : t.timetable.tasks = []) (still : b ≠ .speaking) : Shows stream b t where
  faithful := faithful
  content := content
  delaying pending := by
    cases (Timetable.isPending_of_nil tasks .nodeDelay).symm.trans pending
  telling tells := by
    rcases tells with speaks | pending
    · exact absurd speaks still
    · cases (Timetable.isPending_of_nil tasks .reveal).symm.trans pending

theorem plan (faithful : Throughout Faithful stream)
    (content : t.typewriter.total = textOf (framesOn stream))
    (tasks : t.timetable.tasks = [⟨kind, due⟩])
    (delaying : kind = .nodeDelay → revealedOn stream = [])
    (telling : kind = .reveal → Underway stream t) : Shows stream .resting t where
  faithful := faithful
  content _ := content
  delaying pending := by
    rw [Session.isDelaying, Timetable.isPending_of_single tasks] at pending
    exact delaying (of_decide_eq_true pending)
  telling tells := by
    rcases tells with speaks | pending
    · cases speaks
    · rw [Session.isTyping, Timetable.isPending_of_single tasks] at pending
      exact telling (of_decide_eq_true pending)

theorem carry (kept : Shows past .resting s) (phase : t.phase = s.phase)
    (position : t.position = s.position) (tasks : t.timetable.tasks = s.timetable.tasks)
    (typewriter : t.typewriter = s.typewriter) : Shows past .resting t := by
  have pending (kind : TaskKind) : t.timetable.isPending kind = s.timetable.isPending kind := by
    rw [Timetable.isPending, Timetable.find?, tasks]
    rfl
  exact {
    faithful := kept.faithful
    content := by
      rw [phase, typewriter]
      exact kept.content
    delaying := by
      rw [Session.isDelaying, pending]
      exact kept.delaying
    telling := by
      rw [Session.isTyping, pending, Underway, position, typewriter]
      exact kept.telling }

/-- Silent events leave the text as it stands, and nothing is planned behind them. -/
theorem away (kept : Shows past a s) (active : s.phase ≠ .idle)
    (mute : ∀ e ∈ es, e.speaks = false ∧ e.clearsText = false)
    (typewriter : t.typewriter = s.typewriter) (tasks : t.timetable.tasks = [])
    (still : b ≠ .speaking) : Shows (past ++ es) b t := by
  have silent : ∀ e ∈ es, e.speaks = false := fun e listed => (mute e listed).1
  refine bare (kept.faithful.append_free (faithful_silent silent)) (fun _ => ?_) tasks still
  rw [typewriter, framesOn_silent silent fun e listed => (mute e listed).2]
  exact kept.content active

theorem finish (kept : Shows past a s) (active : s.phase ≠ .idle) :
    Shows (past ++ [.cue .resetAudio, .sessionEnded]) .resting s.finish := by
  have silent : ∀ e ∈ [Event.cue .resetAudio, .sessionEnded], e.speaks = false := by
    simp [Event.speaks]
  rw [Session.finish_of_active active]
  exact bare (kept.faithful.append_free (faithful_silent silent))
    (fun active => absurd rfl active) rfl Stance.resting_ne_speaking

theorem start (kept : Shows past a s) :
    Shows (past ++ [.cue .resetAudio, .sessionStarted]) (.leaving target) s.begun := by
  have silent : ∀ e ∈ [Event.cue .resetAudio, .sessionStarted], e.speaks = false := by
    simp [Event.speaks]
  have cleared : framesOn (past ++ [.cue .resetAudio, .sessionStarted]) = [] := by
    rw [framesOn, List.append_cons, stretch_cut rfl (by simp)]
    rfl
  refine bare (kept.faithful.append_free (faithful_silent silent)) (fun _ => ?_) rfl
    Stance.leaving_ne_speaking
  rw [cleared]
  rfl

theorem resumeMusic (kept : Shows past .resting s) :
    Shows (past ++ [.cue c]) .resting (s.cue c) := by
  have silent : ∀ e ∈ [Event.cue c], e.speaks = false := by simp [Event.speaks]
  have frames := framesOn_silent silent (by simp [Event.clearsText]) past
  have revealed := revealedOn_silent silent (by simp [Event.endsVisit]) past
  exact {
    faithful := kept.faithful.append_free (faithful_silent silent)
    content := by
      rw [frames]
      exact kept.content
    delaying := by
      rw [revealed]
      exact kept.delaying
    telling := by
      rw [Underway, frames, revealed]
      exact kept.telling }

theorem tell (faithful : Throughout Faithful stream) (underway : Underway stream t)
    (tasks : t.timetable.tasks = []) : Shows stream .speaking t where
  faithful := faithful
  content _ := underway.total
  delaying pending := by
    cases (Timetable.isPending_of_nil tasks .nodeDelay).symm.trans pending
  telling _ := underway

theorem setUp (kept : Shows past .resting s) (here : Situation .resting s)
    (delaying : s.isDelaying = true) (current : s.currentDialogue? = some d) :
    Shows (past ++ s.openingEvents d) .speaking (s.opened d) := by
  obtain ⟨-, due, running, -, tasks, -⟩ := here.of_delaying delaying
  have opening : ∀ e ∈ s.openingEvents d, e.clearsText = false ∧ e.endsVisit = false ∧
      ∀ stream, Faithful stream e := by
    intro e listed
    rcases Session.mem_openingEvents listed with rfl | ⟨c, rfl⟩
    · exact ⟨rfl, rfl, fun _ => trivial⟩
    · exact ⟨rfl, rfl, fun _ => trivial⟩
  have frames : framesOn (past ++ s.openingEvents d) = framesOn past ++ [s.frame d] := by
    rw [framesOn_append fun e listed => (opening e listed).1,
      Session.filterMap_openingEvents fun _ => rfl]
    rfl
  have revealed : revealedOn (past ++ s.openingEvents d) = [] := by
    rw [revealedOn_append fun e listed => (opening e listed).2.1, kept.delaying delaying,
      Session.filterMap_openingEvents fun _ => rfl]
    rfl
  -- All that was told before, and all that was not, is on screen when the frame comes.
  have content := kept.content (by simp [running])
  refine tell (kept.faithful.append_free fun e listed => (opening e listed).2.2) ?_
    (Timetable.tasks_cancel_of_single tasks)
  refine ⟨framesOn past, s.frame d, [], frames, Session.position_of_dialogue current, ?_, rfl, ?_⟩
  · rw [List.append_nil]
    exact content
  · rw [revealed]
    simp

theorem speak (kept : Shows past .resting s) (here : Situation .resting s)
    (typing : s.isTyping = true) : Shows past .speaking (s.cancel .reveal) := by
  obtain ⟨d, due, store, phase, -, tasks, -⟩ := here.of_typing typing
  exact tell kept.faithful (kept.telling (.inr typing)) (Timetable.tasks_cancel_of_single tasks)

theorem showAll (kept : Shows past .speaking s) (here : Situation .speaking s) :
    Shows past .speaking { s with typewriter := s.typewriter.showAll } := by
  cases here with
  | speaking _ _ tasks => exact tell kept.faithful (kept.telling (.inl rfl)).showAll tasks

theorem stroke (kept : Shows past .speaking s) (here : Situation .speaking s)
    (stepped : s.typewriter.step = (.revealed c, u)) :
    Shows (past ++ [.textRevealed u.shown]) .resting (s.stroked u) := by
  obtain ⟨faithful, underway⟩ := (kept.telling (.inl rfl)).stroke stepped
  obtain ⟨speed, stroked⟩ := Session.stroked_eq s u
  rw [stroked]
  cases here with
  | speaking _ _ tasks =>
    exact plan (kept.faithful.snoc faithful) underway.total
      (Timetable.tasks_schedule_of_nil tasks _ _) (by rintro ⟨⟩) fun _ => underway

theorem complete (kept : Shows past .speaking s) (silent : s.typewriter.hidden = [])
    (current : s.currentDialogue? = some d) :
    Throughout Faithful (past ++ [.textCompleted d.id s.visibleText]) ∧
      s.typewriter.total = textOf (framesOn (past ++ [.textCompleted d.id s.visibleText])) := by
  have underway := kept.telling (.inl rfl)
  have faithful := underway.complete silent (Session.position_of_dialogue current)
  refine ⟨kept.faithful.snoc faithful, ?_⟩
  rw [framesOn_append (by simp [Event.clearsText]), underway.total]
  exact congrArg textOf (List.append_nil _).symm

theorem arrive {id : NodeId} (kept : Shows past (.leaving target) s)
    (here : Situation (.leaving target) s) (d : Dialogue) :
    Shows (past ++ Session.arrivalEvents id d) .resting
      ({ s with position := some id }.arrived id d) := by
  have silent : ∀ e ∈ Session.arrivalEvents id d, e.speaks = false := by
    unfold Session.arrivalEvents
    split <;> simp [Event.speaks]
  have content := framesOn_arrival id d past
  rw [Session.arrived_eq]
  cases here with
  | leaving phase tasks =>
    refine plan (kept.faithful.append_free (faithful_silent silent)) ?_
      (Timetable.tasks_schedule_of_nil tasks _ _) (fun _ => revealedOn_arrival id d past)
      (by rintro ⟨⟩)
    rw [content]
    show (if d.settings.keepPreviousText then s.typewriter else .empty).total = _
    split
    · exact kept.content (by simp [phase])
    · rfl

end Shows

theorem Leg.shows (leg : Leg a s es b t) (here : Situation a s) (kept : Shows past a s) :
    Shows (past ++ es) b t := by
  cases leg with
  | clock | write | release | press =>
    rw [List.append_nil]
    exact kept.carry rfl rfl rfl rfl
  | autoAdvance on =>
    rw [List.append_nil]
    cases on with
    | true => exact kept.carry rfl rfl rfl rfl
    | false => exact kept.carry rfl rfl rfl rfl
  | resumeMusic => exact kept.resumeMusic
  -- These legs cancel what is planned and say nothing of the text, so it stays what it was.
  | pressOn waits =>
    exact kept.away (by simp [waits.running]) (by simp [Event.speaks, Event.clearsText]) rfl rfl
      Stance.leaving_ne_speaking
  | hold active =>
    exact kept.away (Phase.ne_idle active) (by simp [Event.speaks, Event.clearsText]) rfl rfl
      Stance.resting_ne_speaking
  | finish active => exact kept.finish active
  | start => exact kept.start
  | depart active =>
    exact kept.away (Phase.ne_idle active) (by simp [Event.speaks, Event.clearsText]) rfl rfl
      Stance.leaving_ne_speaking
  | resume held =>
    exact kept.away (by simp [held]) (by simp [Event.speaks, Event.clearsText]) rfl rfl
      Stance.leaving_ne_speaking
  | choose running =>
    exact kept.away (by simp [running]) (by simp [Event.speaks, Event.clearsText]) rfl rfl
      Stance.leaving_ne_speaking
  | setUp delaying current => exact kept.setUp here delaying current
  | speak typing =>
    rw [List.append_nil]
    exact kept.speak here typing
  | showAll =>
    rw [List.append_nil]
    exact kept.showAll here
  | stroke shown => exact kept.stroke here shown
  | stay current silent =>
    obtain ⟨faithful, content⟩ := kept.complete silent current
    cases here with
    | speaking phase current' tasks =>
      exact .bare faithful (fun _ => content) (Timetable.tasks_cancel_of_nil tasks _)
        Stance.resting_ne_speaking
  | pause current silent =>
    obtain ⟨faithful, content⟩ := kept.complete silent current
    cases here with
    | speaking phase current' tasks =>
      have none := Timetable.tasks_cancel_of_nil tasks .reveal
      exact .plan faithful content (Timetable.tasks_schedule_of_nil none _ _) (by rintro ⟨⟩)
        (by rintro ⟨⟩)
  | pass current silent =>
    obtain ⟨faithful, content⟩ := kept.complete silent current
    rw [List.append_cons]
    refine .bare (faithful.snoc trivial) (fun _ => ?_) rfl Stance.leaving_ne_speaking
    rw [framesOn_silent (by simp [Event.speaks]) (by simp [Event.clearsText])]
    exact content
  | ended landed active => exact kept.finish active
  | arrive landed found => exact kept.arrive here _
  | halt landed =>
    cases here with
    | leaving phase =>
      exact kept.away (by simp [phase]) (by simp [Event.speaks, Event.clearsText]) rfl rfl
        Stance.resting_ne_speaking
  | stall landed =>
    cases here with
    | leaving phase tasks =>
      exact kept.away (by simp [phase]) (by simp [Event.speaks, Event.clearsText]) rfl tasks
        Stance.resting_ne_speaking

theorem shows_after (graph : Graph) (pacing : Pacing) (ops : List Operation) :
    Shows ((Session.ofGraph graph pacing).stream ops) .resting
      ((Session.ofGraph graph pacing).after ops) :=
  holds_after (I := Shows) (fun _ kept => kept.carry rfl rfl rfl rfl)
    (fun here leg kept => leg.shows here kept)
    (.bare .nil (fun active => absurd rfl active) rfl Stance.resting_ne_speaking) ops

/-- In every run, each text that is reported is what the frames before it say. -/
theorem faithful_after (graph : Graph) (pacing : Pacing) (ops : List Operation) :
    Throughout Faithful ((Session.ofGraph graph pacing).stream ops) :=
  (shows_after graph pacing ops).faithful

/-- The question is appended to the greeting, and both were skipped. -/
example :
    .textCompleted "ask" "Welcome to the Rusty Flagon.<i>What'll it be?</i>".toList ∈
      (Session.ofGraph Story.Tavern.graph default).stream
        [.start, .tick (.ofMillis 530), .input .skip, .tick .zero, .input .skip] := by
  decide +kernel

end Parley
