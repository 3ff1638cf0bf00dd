import Parley.Proofs.Session.Run

/-! Visits: from the entry into a dialogue node until the next entry, hold, stall, choice, start or
end. Within a visit the frame comes first, then the characters, then the completion, and outside of
visits nothing of a text is told. -/
namespace Parley

namespace Event

def speaks : Event → Bool
  | dialogueShown _ | textRevealed _ | textCompleted .. => true
  | _ => false

def isCompletion : Event → Bool
  | textCompleted .. => true
  | _ => false

/-- Events behind which no visit goes on. -/
def endsVisit : Event → Bool
  | nodeEntered _ | held | stalled _ | choiceSelected .. | sessionStarted | sessionEnded => true
  | _ => false

end Event

/-- A stream that ends in a visit of a dialogue node, with the events of the visit so far. -/
structure Visit (g : Graph) (n : NodeId) (stream since : List Event) : Prop where
  dialogue : (g.dialogue? n).isSome = true
  entered : ∃ earlier, stream = earlier ++ .nodeEntered n :: since
  lasts : ∀ e ∈ since, e.endsVisit = false

/-- The frame is still to come. -/
def Untold (since : List Event) : Prop := ∀ e ∈ since, e.speaks = false

/-- The frame has come, the completion has not. -/
def Telling (n : NodeId) (since : List Event) : Prop :=
  (∃ frame, .dialogueShown frame ∈ since ∧ frame.node = n) ∧ ∀ e ∈ since, e.isCompletion = false

def Told (n : NodeId) (since : List Event) : Prop := ∃ text, .textCompleted n text ∈ since

/-- A session was started and has not ended since. -/
def Live (stream : List Event) : Prop :=
  ∃ earlier since, stream = earlier ++ .sessionStarted :: since ∧ .sessionEnded ∉ since

/-- Whether an event may follow a stream. -/
def Allowed (g : Graph) (stream : List Event) : Event → Prop
  | .dialogueShown frame => ∃ since, Visit g frame.node stream since ∧ Untold since
  | .textRevealed _ => ∃ n since, Visit g n stream since ∧ Telling n since
  | .textCompleted n _ => ∃ since, Visit g n stream since ∧ Telling n since
  | .sessionEnded => Live stream
  | _ => True

/-- Something holds of every event of a stream and those before it. -/
def Throughout (P : List Event → Event → Prop) (stream : List Event) : Prop :=
  ∀ before e after, stream = before ++ e :: after → P before e

namespace Throughout

variable {P : List Event → Event → Prop}

theorem nil : Throughout P [] := by
  intro before e after split
  simp at split

theorem snoc (kept : Throughout P past) (holds : P past e) : Throughout P (past ++ [e]) := by
  intro before e' after split
  rcases List.append_eq_append_iff.mp split with ⟨gap, same, rest⟩ | ⟨gap, same, rest⟩
  · cases gap with
    | nil =>
      simp only [List.append_nil, List.nil_append, List.cons.injEq] at same rest
      rw [same, ← rest.1]
      exact holds
    | cons x gap => simp at rest
  · cases gap with
    | nil =>
      simp only [List.append_nil, List.nil_append, List.cons.injEq] at same rest
      rw [← same, rest.1]
      exact holds
    | cons x gap =>
      simp only [List.cons_append, List.cons.injEq] at rest
      exact kept before e' gap (rest.1 ▸ same)

theorem append_free (kept : Throughout P past) (free : ∀ e ∈ es, ∀ stream, P stream e) :
    Throughout P (past ++ es) := by
  induction es generalizing past with
  | nil => exact (List.append_nil past).symm ▸ kept
  | cons e rest ih =>
    rw [List.append_cons]
    exact ih (kept.snoc (free e List.mem_cons_self past)) fun x listed =>
      free x (List.mem_cons_of_mem _ listed)

end Throughout

/-- Every event of a stream may follow those before it. -/
def VisitProtocol (g : Graph) (stream : List Event) : Prop :=
  ∀ before e after, stream = before ++ e :: after → Allowed g before e

theorem VisitProtocol.nil (g : Graph) : VisitProtocol g [] := Throughout.nil

theorem VisitProtocol.snoc (kept : VisitProtocol g past) (allowed : Allowed g past e) :
    VisitProtocol g (past ++ [e]) :=
  Throughout.snoc kept allowed

theorem VisitProtocol.append_free (kept : VisitProtocol g past)
    (free : ∀ e ∈ es, ∀ stream, Allowed g stream e) : VisitProtocol g (past ++ es) :=
  Throughout.append_free kept free

theorem Live.append (live : Live stream) (lasts : .sessionEnded ∉ es) : Live (stream ++ es) := by
  obtain ⟨earlier, since, rfl, none⟩ := live
  exact ⟨earlier, since ++ es, by simp, by simp [none, lasts]⟩

namespace Visit

theorem enter (dialogue : (g.dialogue? n).isSome = true) (lasts : ∀ e ∈ es, e.endsVisit = false)
    (stream : List Event) : Visit g n (stream ++ .nodeEntered n :: es) es :=
  ⟨dialogue, ⟨stream, rfl⟩, lasts⟩

theorem append (visit : Visit g n stream since) (lasts : ∀ e ∈ es, e.endsVisit = false) :
    Visit g n (stream ++ es) (since ++ es) := by
  obtain ⟨earlier, rfl⟩ := visit.entered
  refine ⟨visit.dialogue, ⟨earlier, by simp⟩, fun e listed => ?_⟩
  rcases List.mem_append.mp listed with before | added
  · exact visit.lasts e before
  · exact lasts e added

end Visit

theorem Telling.append (telling : Telling n since) (open' : ∀ e ∈ es, e.isCompletion = false) :
    Telling n (since ++ es) := by
  obtain ⟨⟨frame, shown, node⟩, incomplete⟩ := telling
  refine ⟨⟨frame, List.mem_append_left _ shown, node⟩, fun e listed => ?_⟩
  rcases List.mem_append.mp listed with before | added
  · exact incomplete e before
  · exact open' e added

/-- A visit of which nothing has been told begins to tell with its frame. -/
theorem Untold.show (untold : Untold since) (shown : .dialogueShown frame ∈ es)
    (node : frame.node = n) (incomplete : ∀ e ∈ es, e.isCompletion = false) :
    Telling n (since ++ es) := by
  refine ⟨⟨frame, List.mem_append_right _ shown, node⟩, fun e listed => ?_⟩
  rcases List.mem_append.mp listed with before | added
  · cases e with
    | textCompleted => cases untold _ before
    | _ => rfl
  · exact incomplete e added

/-- How far a visit has come when a task is planned in it. -/
def TaskKind.Stage (n : NodeId) (since : List Event) : TaskKind → Prop
  | nodeDelay => Untold since
  | reveal => Telling n since
  | autoAdvance => Told n since

theorem TaskKind.Stage.append {kind : TaskKind} (stage : kind.Stage n since)
    (quiet : ∀ e ∈ es, e.speaks = false) : kind.Stage n (since ++ es) := by
  have incomplete : ∀ e ∈ es, e.isCompletion = false := fun e listed => by
    cases e with
    | textCompleted => cases quiet _ listed
    | _ => rfl
  cases kind with
  | nodeDelay =>
    intro e listed
    rcases List.mem_append.mp listed with before | added
    · exact stage e before
    · exact quiet e added
  | reveal => exact Telling.append stage incomplete
  | autoAdvance =>
    obtain ⟨text, told⟩ := stage
    exact ⟨text, List.mem_append_left es told⟩

theorem Session.mem_openingEvents {s : Session} (listed : e ∈ s.openingEvents d) :
    e = .dialogueShown (s.frame d) ∨ ∃ c, e = .cue c := by
  rcases List.mem_append.mp listed with before | after
  · obtain ⟨c, -, rfl⟩ := List.mem_map.mp before
    exact .inr ⟨c, rfl⟩
  · rcases List.mem_cons.mp after with rfl | after
    · exact .inl rfl
    · obtain ⟨c, -, rfl⟩ := List.mem_map.mp after
      exact .inr ⟨c, rfl⟩

theorem Session.mem_arrivalEvents {id : NodeId} (listed : e ∈ (Session.arrivalEvents id d).tail) :
    e = .textCleared := by
  unfold Session.arrivalEvents at listed
  split at listed
  · cases listed
  · simpa using listed

/-- How a stream and a session fit together: what is planned belongs to the visit that goes on. -/
structure Track (g : Graph) (stream : List Event) (a : Stance) (s : Session) : Prop where
  graph : s.graph = g
  protocol : VisitProtocol g stream
  live : s.phase ≠ .idle → Live stream
  planned : ∀ task ∈ s.timetable.tasks, ∃ n since, s.position = some n ∧
    Visit g n stream since ∧ task.kind.Stage n since
  speaking : a = .speaking → ∃ n since, s.position = some n ∧ Visit g n stream since ∧
    Telling n since

namespace Track

theorem bare (graph : t.graph = g) (protocol : VisitProtocol g stream)
    (live : t.phase ≠ .idle → Live stream) (tasks : t.timetable.tasks = []) (silent : b ≠ .speaking) :
    Track g stream b t where
  graph := graph
  protocol := protocol
  live := live
  planned task listed := by simp [tasks] at listed
  speaking speaks := absurd speaks silent

theorem plan (graph : t.graph = g) (protocol : VisitProtocol g stream) (live : Live stream)
    (tasks : t.timetable.tasks = [⟨kind, due⟩]) (position : t.position = some n)
    (visit : Visit g n stream since) (stage : kind.Stage n since) : Track g stream .resting t where
  graph := graph
  protocol := protocol
  live := fun _ => live
  planned task listed := by
    rw [tasks, List.mem_singleton] at listed
    subst listed
    exact ⟨n, since, position, visit, stage⟩
  speaking := nofun

theorem carry (kept : Track g past .resting s) (graph : t.graph = s.graph)
    (phase : t.phase = s.phase) (position : t.position = s.position)
    (tasks : t.timetable.tasks = s.timetable.tasks) : Track g past .resting t where
  graph := graph.trans kept.graph
  protocol := kept.protocol
  live active := kept.live (phase ▸ active)
  planned := by
    rw [tasks, position]
    exact kept.planned
  speaking := nofun

/-- Free events, behind which nothing is planned any more. -/
theorem away (kept : Track g past a s) (active : s.phase ≠ .idle)
    (free : ∀ e ∈ es, ∀ stream, Allowed g stream e) (lasts : .sessionEnded ∉ es)
    (graph : t.graph = s.graph) (tasks : t.timetable.tasks = []) (silent : b ≠ .speaking) :
    Track g (past ++ es) b t :=
  bare (graph.trans kept.graph) (kept.protocol.append_free free)
    (fun _ => (kept.live active).append lasts) tasks silent

theorem finish (kept : Track g past a s) (active : s.phase ≠ .idle) :
    Track g (past ++ [.cue .resetAudio, .sessionEnded]) .resting s.finish := by
  have live := kept.live active
  have protocol : VisitProtocol g (past ++ [.cue .resetAudio]) := kept.protocol.snoc trivial
  rw [List.append_cons, Session.finish_of_active active]
  refine bare kept.graph (protocol.snoc ?_) (fun active => absurd rfl active) rfl nofun
  exact live.append (by simp)

theorem start (kept : Track g past a s) :
    Track g (past ++ [.cue .resetAudio, .sessionStarted]) (.leaving target) s.begun :=
  bare kept.graph (kept.protocol.append_free (by simp [Allowed]))
    (fun _ => ⟨past ++ [.cue .resetAudio], [], by simp, by simp⟩) rfl nofun

theorem resumeMusic (kept : Track g past .resting s) :
    Track g (past ++ [.cue c]) .resting (s.cue c) where
  graph := kept.graph
  protocol := kept.protocol.snoc trivial
  live active := (kept.live active).append (by simp)
  planned task listed := by
    obtain ⟨n, since, position, visit, stage⟩ := kept.planned task listed
    exact ⟨n, since ++ [.cue c], position, visit.append (by simp [Event.endsVisit]),
      stage.append (by simp [Event.speaks])⟩
  speaking := nofun

theorem setUp (kept : Track g past .resting s) (here : Situation .resting s)
    (delaying : s.isDelaying = true) (current : s.currentDialogue? = some d) :
    Track g (past ++ s.openingEvents d) .speaking (s.opened d) := by
  obtain ⟨-, due, running, -, tasks, -⟩ := here.of_delaying delaying
  obtain ⟨n, since, position, visit, untold⟩ := kept.planned ⟨.nodeDelay, due⟩ (by simp [tasks])
  have node : d.id = n := Option.some.inj ((Session.position_of_dialogue current).symm.trans position)
  have shown : .dialogueShown (s.frame d) ∈ s.openingEvents d := by simp [Session.openingEvents]
  have cues (cs : List Cue) : ∀ e ∈ cs.map Event.cue, e.endsVisit = false ∧ e.speaks = false ∧
      ∀ stream, Allowed g stream e := by
    intro e listed
    obtain ⟨c, -, rfl⟩ := List.mem_map.mp listed
    exact ⟨rfl, rfl, fun _ => trivial⟩
  have protocol : VisitProtocol g (past ++ s.openingEvents d) := by
    unfold Session.openingEvents
    rw [← List.append_assoc, List.append_cons]
    refine ((kept.protocol.append_free fun e listed => (cues _ e listed).2.2).snoc ?_).append_free
      fun e listed => (cues _ e listed).2.2
    exact ⟨_, node ▸ visit.append fun e listed => (cues _ e listed).1,
      TaskKind.Stage.append untold fun e listed => (cues _ e listed).2.1⟩
  have opening : ∀ e ∈ s.openingEvents d, e.endsVisit = false ∧ e.isCompletion = false := by
    intro e listed
    rcases Session.mem_openingEvents listed with rfl | ⟨c, rfl⟩
    · exact ⟨rfl, rfl⟩
    · exact ⟨rfl, rfl⟩
  have active : s.phase ≠ .idle := by simp [running]
  exact {
    graph := kept.graph
    protocol := protocol
    live := fun _ => (kept.live active).append fun listed => by
      cases (opening _ listed).1
    planned := fun task listed => by
      have none : (s.opened d).timetable.tasks = [] := Timetable.tasks_cancel_of_single tasks
      simp [none] at listed
    speaking := fun _ => ⟨n, since ++ s.openingEvents d, position,
      visit.append fun e listed => (opening e listed).1,
      Untold.show untold shown node fun e listed =>
        (opening e listed).2⟩ }

theorem speak (kept : Track g past .resting s) (here : Situation .resting s)
    (typing : s.isTyping = true) : Track g past .speaking (s.cancel .reveal) := by
  obtain ⟨d, due, store, phase, -, tasks, -⟩ := here.of_typing typing
  obtain ⟨n, since, position, visit, telling⟩ := kept.planned ⟨.reveal, due⟩ (by simp [tasks])
  have none : (s.cancel .reveal).timetable.tasks = [] := Timetable.tasks_cancel_of_single tasks
  exact {
    graph := kept.graph
    protocol := kept.protocol
    live := kept.live
    planned := fun task listed => by simp [none] at listed
    speaking := fun _ => ⟨n, since, position, visit, telling⟩ }

theorem stroke (kept : Track g past .speaking s) (here : Situation .speaking s) (t : Typewriter) :
    Track g (past ++ [.textRevealed t.shown]) .resting (s.stroked t) := by
  obtain ⟨n, since, position, visit, telling⟩ := kept.speaking rfl
  obtain ⟨speed, stroked⟩ := Session.stroked_eq s t
  rw [stroked]
  cases here with
  | speaking phase current tasks =>
    have active : s.phase ≠ .idle := phase ▸ Dialogue.phase_ne_idle _
    exact .plan kept.graph (kept.protocol.snoc ⟨n, since, visit, telling⟩)
      ((kept.live active).append (by simp)) (Timetable.tasks_schedule_of_nil tasks _ _) position
      (visit.append (by simp [Event.endsVisit])) (telling.append (by simp [Event.isCompletion]))

theorem complete (kept : Track g past .speaking s) (here : Situation .speaking s)
    (current : s.currentDialogue? = some d) (text : List Char) :
    VisitProtocol g (past ++ [.textCompleted d.id text]) ∧
      Live (past ++ [.textCompleted d.id text]) ∧
      ∃ since, Visit g d.id (past ++ [.textCompleted d.id text]) since ∧ Told d.id since := by
  obtain ⟨n, since, position, visit, telling⟩ := kept.speaking rfl
  cases (Session.position_of_dialogue current).symm.trans position
  cases here with
  | speaking phase =>
    have active : s.phase ≠ .idle := phase ▸ Dialogue.phase_ne_idle _
    exact ⟨kept.protocol.snoc ⟨since, visit, telling⟩, (kept.live active).append (by simp),
      since ++ [.textCompleted d.id text], visit.append (by simp [Event.endsVisit]),
      text, by simp⟩

theorem arrive {id : NodeId} (kept : Track g past (.leaving target) s)
    (here : Situation (.leaving target) s) (found : s.graph.dialogue? id = some d) :
    Track g (past ++ Session.arrivalEvents id d) .resting
      ({ s with position := some id }.arrived id d) := by
  have cleared : ∀ e ∈ (Session.arrivalEvents id d).tail, e = .textCleared :=
    fun _ listed => Session.mem_arrivalEvents listed
  have arrival : Session.arrivalEvents id d =
      .nodeEntered id :: (Session.arrivalEvents id d).tail := rfl
  have dialogue : (g.dialogue? id).isSome = true := by rw [← kept.graph, found]; rfl
  rw [Session.arrived_eq, arrival]
  cases here with
  | leaving phase tasks =>
    have live := kept.live (by simp [phase])
    refine .plan kept.graph (kept.protocol.append_free fun e listed stream => ?_)
      (live.append fun listed => ?_) (Timetable.tasks_schedule_of_nil tasks _ _) rfl
      (.enter dialogue (fun e listed => ?_) past) fun e listed => ?_
    · rcases List.mem_cons.mp listed with rfl | later
      · trivial
      · rw [cleared e later]
        trivial
    · rcases List.mem_cons.mp listed with same | later
      · cases same
      · cases cleared _ later
    · rw [cleared e listed]
      rfl
    · rw [cleared e listed]
      rfl

end Track

theorem Leg.track (leg : Leg a s es b t) (here : Situation a s) (kept : Track g past a s) :
    Track g (past ++ es) b t := by
  cases leg with
  | clock | write | release | press =>
    rw [List.append_nil]
    exact kept.carry rfl rfl rfl rfl
  | autoAdvance on =>
    rw [List.append_nil]
    cases on with
    | true => exact kept.carry rfl rfl rfl rfl
    | false => exact kept.carry rfl rfl rfl rfl
  | resumeMusic => exact kept.resumeMusic
  -- These legs cancel what is planned and tell nothing, so the visit that they end is not needed.
  | pressOn waits =>
    exact kept.away (by simp [waits.running]) (by simp [Allowed]) (by simp) rfl rfl nofun
  | hold active =>
    exact kept.away (Phase.ne_idle active) (by simp [Allowed]) (by simp) rfl rfl nofun
  | finish active => exact kept.finish active
  | start => exact kept.start
  | depart active =>
    exact kept.away (Phase.ne_idle active) (by simp [Allowed]) (by simp) rfl rfl nofun
  | resume held => exact kept.away (by simp [held]) (by simp [Allowed]) (by simp) rfl rfl nofun
  | choose running =>
    exact kept.away (by simp [running]) (by simp [Allowed]) (by simp) rfl rfl nofun
  | setUp delaying current => exact kept.setUp here delaying current
  | speak typing =>
    rw [List.append_nil]
    exact kept.speak here typing
  | showAll =>
    rw [List.append_nil]
    exact ⟨kept.graph, kept.protocol, kept.live, kept.planned, kept.speaking⟩
  | stroke shown => exact kept.stroke here _
  | stay current =>
    obtain ⟨protocol, live, -⟩ := kept.complete here current s.visibleText
    cases here with
    | speaking phase current' tasks =>
      exact .bare kept.graph protocol (fun _ => live) (Timetable.tasks_cancel_of_nil tasks _) nofun
  | pause current =>
    obtain ⟨protocol, live, since, visit, told⟩ := kept.complete here current s.visibleText
    cases here with
    | speaking phase current' tasks =>
      have none := Timetable.tasks_cancel_of_nil tasks .reveal
      exact .plan kept.graph protocol live (Timetable.tasks_schedule_of_nil none _ _)
        (Session.position_of_dialogue current) visit told
  | pass current =>
    obtain ⟨protocol, live, -⟩ := kept.complete here current s.visibleText
    rw [List.append_cons]
    exact .bare kept.graph (protocol.snoc trivial) (fun _ => live.append (by simp)) rfl nofun
  | ended landed active => exact kept.finish active
  | arrive landed found => exact kept.arrive here found
  | halt landed =>
    cases here with
    | leaving phase =>
      exact kept.away (by simp [phase]) (by simp [Allowed]) (by simp) rfl rfl nofun
  | stall landed =>
    cases here with
    | leaving phase tasks =>
      exact kept.away (by simp [phase]) (by simp [Allowed]) (by simp) rfl tasks nofun

theorem track_after (graph : Graph) (pacing : Pacing) (ops : List Operation) :
    Track graph ((Session.ofGraph graph pacing).stream ops) .resting
      ((Session.ofGraph graph pacing).after ops) := by
  have start : Track graph [] .resting (.ofGraph graph pacing) :=
    .bare rfl (.nil graph) (fun active => absurd rfl active) rfl nofun
  exact holds_after (I := Track graph)
    (fun _ kept => ⟨kept.graph, kept.protocol, kept.live, kept.planned, nofun⟩)
    (fun here leg kept => leg.track here kept) start ops

/-- The events of a run keep to the visits: a frame comes first and once, then characters, then one
completion, all under the node that was entered last; and what is planned at the end of a run
belongs to the visit that goes on. -/
theorem visits_after (graph : Graph) (pacing : Pacing) (ops : List Operation) :
    VisitProtocol graph ((Session.ofGraph graph pacing).stream ops) ∧
      ∀ task ∈ ((Session.ofGraph graph pacing).after ops).timetable.tasks, ∃ n since,
        ((Session.ofGraph graph pacing).after ops).position = some n ∧
        Visit graph n ((Session.ofGraph graph pacing).stream ops) since ∧
        task.kind.Stage n since := by
  have track := track_after graph pacing ops
  exact ⟨track.protocol, track.planned⟩

end Parley
