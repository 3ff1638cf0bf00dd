import Parley.Proofs.Session.Request
import Parley.Story.Tavern

/-! What the parts of a session say about one another after every run, and why a session that
nothing will wake up stands where it does. -/
namespace Parley

/-- Auto-advance and fast-forward are never on together. -/
def Session.Exclusive (s : Session) : Prop := ¬(s.autoAdvance = true ∧ s.fastForward = true)

theorem Leg.exclusive (leg : Leg a s es b t) (kept : s.Exclusive) : t.Exclusive := by
  cases leg with
  | autoAdvance on =>
    cases on with
    | true => exact fun both => Bool.noConfusion both.2
    | false => exact fun both => Bool.noConfusion both.1
  | release => exact fun both => Bool.noConfusion both.2
  | press | pressOn | start => exact fun both => Bool.noConfusion both.1
  | finish active | ended _ active =>
    rw [Session.finish_of_active active]
    exact fun both => Bool.noConfusion both.1
  | stroke shown =>
    obtain ⟨speed, stroked⟩ := Session.stroked_eq s _
    rw [stroked]
    exact kept
  | arrive landed found =>
    rw [Session.arrived_eq]
    exact kept
  | _ => exact kept

theorem exclusive_after (graph : Graph) (pacing : Pacing) (ops : List Operation) :
    ((Session.ofGraph graph pacing).after ops).Exclusive :=
  holds_after (I := fun _ _ s => s.Exclusive) (fun _ kept => kept)
    (fun _ leg kept => leg.exclusive kept) (fun both => Bool.noConfusion both.1) ops

namespace Session

/-- The current node. -/
def currentNode? (s : Session) : Option Node := s.position.bind s.graph.node?

/-- What the parts of a session say about one another. -/
structure Consistent (s : Session) : Prop where
  active : s.phase ≠ .idle ↔ s.position.isSome = true
  placed : ∀ id, s.position = some id → s.graph.contains id = true
  idle : s.phase = .idle → s.timetable.tasks = [] ∧ s.choices = [] ∧ s.typewriter.total = [] ∧
    s.visibleText = []
  held : s.phase = .holding → s.timetable.tasks = []
  interrupted : ∀ i, s.currentNode? = some (.interrupt i) → s.phase = .holding
  single : s.timetable.tasks.length ≤ 1
  delaying : s.timetable.isPending .nodeDelay = true →
    ∃ d, s.currentNode? = some (.dialogue d) ∧ s.choices = [] ∧ s.phase = .running
  typing : s.timetable.isPending .reveal = true →
    ∃ d, s.currentNode? = some (.dialogue d) ∧
      s.phase = (if d.settings.awaitContinue then .awaiting else .running) ∧
      s.choices.length = d.choices.length
  pausing : s.timetable.isPending .autoAdvance = true →
    ∃ d, s.currentNode? = some (.dialogue d) ∧ d.choices = [] ∧ s.choices = [] ∧
      s.phase = .running ∧ s.visibleText = s.typewriter.total
  offering : s.choices ≠ [] → ∃ d, s.currentNode? = some (.dialogue d) ∧
    s.choices.length = d.choices.length
  exclusive : ¬(s.autoAdvance = true ∧ s.fastForward = true)

theorem currentNode?_of_dialogue {s : Session} (current : s.currentDialogue? = some d) :
    s.currentNode? = some (.dialogue d) := by
  obtain ⟨id, position, found⟩ := Option.bind_eq_some_iff.mp current
  exact Option.bind_eq_some_iff.mpr ⟨id, position, Graph.dialogue?_eq_some_iff.mp found⟩

end Session

namespace Situation

variable {s : Session}

theorem interrupted (here : Situation .resting s) (current : s.currentNode? = some (.interrupt i)) :
    s.phase = .holding := by
  have conflict {d : Dialogue} (dialogue : s.currentDialogue? = some d) : s.phase = .holding :=
    nomatch (Session.currentNode?_of_dialogue dialogue).symm.trans current
  cases here with
  | idle _ position => simp [Session.currentNode?, position] at current
  | held phase => exact phase
  | stalled _ position node => simp [Session.currentNode?, position, node] at current
  | delaying _ dialogue | typing _ dialogue | pausing _ _ dialogue | finished _ dialogue =>
    exact conflict dialogue

theorem consistent (here : Situation .resting s) (exclusive : s.Exclusive) : s.Consistent where
  active := by
    constructor
    · intro active
      obtain ⟨id, n, position, -⟩ := here.of_active active
      simp [position]
    · intro placed idle
      simp [(here.of_idle idle).1] at placed
  placed id position := by
    have active : s.phase ≠ .idle := fun idle => by simp [(here.of_idle idle).1] at position
    obtain ⟨id', n, position', node, -⟩ := here.of_active active
    cases position.symm.trans position'
    simp [Graph.contains, node]
  idle idle := by
    obtain ⟨-, tasks, choices, typewriter⟩ := here.of_idle idle
    exact ⟨tasks, choices, by simp [typewriter]; rfl, by simp [Session.visibleText, typewriter]; rfl⟩
  held held := here.of_held held
  interrupted i current := here.interrupted current
  single := by
    rcases here.planned with none | ⟨task, single⟩
    · simp [none]
    · simp [single]
  delaying pending := by
    obtain ⟨d, due, running, current, -, choices⟩ := here.of_delaying pending
    exact ⟨d, Session.currentNode?_of_dialogue current, choices, running⟩
  typing pending := by
    obtain ⟨d, due, store, phase, current, -, choices⟩ := here.of_typing pending
    refine ⟨d, Session.currentNode?_of_dialogue current, phase, ?_⟩
    rw [choices, Dialogue.length_offers]
  pausing pending := by
    obtain ⟨d, due, running, current, -, plain, choices, silent⟩ := here.of_pausing pending
    refine ⟨d, Session.currentNode?_of_dialogue current, plain, choices, running, ?_⟩
    simp only [Session.visibleText, Typewriter.total, silent, List.append_nil]
  offering some := by
    have active : s.phase ≠ .idle := fun idle => some (here.of_idle idle).2.2.1
    obtain ⟨id, n, -, -, none | ⟨d, store, current, choices⟩⟩ := here.of_active active
    · exact absurd none some
    · refine ⟨d, Session.currentNode?_of_dialogue current, ?_⟩
      rw [choices, Dialogue.length_offers]
  exclusive := exclusive

end Situation

/-- After every operation of every run the parts of a session agree, and so do the switches of the
deck that it is played on: a deck that is off is neither held nor awaiting anything. -/
theorem consistent_after (graph : Graph) (pacing : Pacing) (ops : List Operation) :
    let s := (Session.ofGraph graph pacing).after ops
    let d := (Deck.ofGraph graph pacing).after ops
    s.Consistent ∧ d.session = s ∧ (d.running = false → d.held = false ∧ d.awaiting = false) := by
  intro s d
  have shows := Deck.shows_after graph pacing ops
  have consistent := (situation_after graph pacing ops).consistent (exclusive_after graph pacing ops)
  exact ⟨consistent, shows.session, shows.off⟩

/-- A click is what such a node waits for. -/
theorem Session.WaitsForClick.advance {s : Session} (waits : s.WaitsForClick d) :
    s.perform (.input .advance) = (.accepted true, s.goNext) := by
  have accepted : s.advance? = some s.goNext := by
    simp [advance?, acceptsPlayerInput, waits.running, waits.current, waits.plain, waits.clicks,
      waits.shown, waits.finished]
  simp only [perform, respond?, accepted, answer]

/-- Where nothing is planned and nothing is held, somebody has to act: the story stalled at a
splitter, or the text of a dialogue node is complete and the node waits for the host's signal, for a
choice, or for a click, which then leads on. -/
theorem rest_has_reason {s : Session} (reached : s = (Session.ofGraph graph pacing).after ops)
    (active : s.phase ≠ .idle) (free : s.phase ≠ .holding) (unplanned : s.timetable.tasks = []) :
    (∃ p, s.currentNode? = some (.splitter p)) ∨
      ∃ d, s.currentNode? = some (.dialogue d) ∧ s.visibleText = s.typewriter.total ∧
        (s.phase = .awaiting ∨ d.choices ≠ [] ∨
          d.settings.advanceOnClick = true ∧ s.fastForward = false) ∧
        (s.phase ≠ .awaiting → d.choices = [] →
          s.perform (.input .advance) = (.accepted true, s.goNext)) := by
  have here := situation_after graph pacing ops
  rw [← reached] at here
  cases here with
  | idle phase => exact absurd phase active
  | held phase => exact absurd phase free
  | delaying _ _ tasks | typing _ _ tasks | pausing _ _ _ tasks =>
    cases tasks.symm.trans unplanned
  | stalled _ position node =>
    exact .inl ⟨_, Option.bind_eq_some_iff.mpr ⟨_, position, node⟩⟩
  | finished phase current tasks choices silent waits =>
    refine .inr ⟨_, Session.currentNode?_of_dialogue current, ?_, waits, fun signal plain => ?_⟩
    · simp only [Session.visibleText, Typewriter.total, silent, List.append_nil]
    · rcases waits.forClick phase current tasks with awaiting | choices | ⟨click, -⟩
      · exact absurd awaiting signal
      · exact absurd plain choices
      · exact click.advance

namespace Story.Tavern

/-- A stranger in a hurry has only looked around, and was remarked upon. -/
def remarked : Session :=
  (Session.ofGraph graph default).after
    [.start, .input .advance, .input .skip, .tick .zero, .input .skip, .input (.choose 1),
      .input .advance, .input .skip]

/-- Behind the remark comes nothing without a click. -/
theorem remarked_waits :
    remarked.phase = .running ∧ remarked.timetable.tasks = [] ∧
      remarked.currentNode? = some (.dialogue newcomer) ∧
      remarked.visibleText = remarked.typewriter.total ∧
      remarked.perform (.input .advance) = (.accepted true, remarked.goNext) := by
  have stands : remarked.phase = .running ∧ remarked.timetable.tasks = [] ∧
      remarked.currentNode? = some (.dialogue newcomer) := by
    decide +kernel
  obtain ⟨running, unplanned, here⟩ := stands
  refine ⟨running, unplanned, here, ?_⟩
  have reached : remarked = (Session.ofGraph graph default).after _ := rfl
  rcases rest_has_reason reached (by simp [running]) (by simp [running]) unplanned with
    ⟨p, splitter⟩ | ⟨d, current, shown, -, click⟩
  · cases here.symm.trans splitter
  · cases here.symm.trans current
    exact ⟨shown, click (by simp [running]) rfl⟩

end Story.Tavern
end Parley
