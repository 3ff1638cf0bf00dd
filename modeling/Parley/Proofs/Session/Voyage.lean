import Parley.Proofs.Graph.Foresight
import Parley.Proofs.Session.Run

/-! The moves of a run. Each is put down with the place that it starts from, the target that it
follows and the events that tell where it came to rest; whenever one gets stuck or gets nowhere, a
problem of the graph foretold it. -/
namespace Parley

/-- A move of a session, with the variables that it saw and the events that it ended in. -/
structure Move extends Hop where
  store : Store
  told : List Event

namespace Move

variable (m : Move) (g : Graph)

/-- The nodes that the move came by. -/
def trail : List NodeId := g.trail m.store m.target

/-- The target followed last, and the node that names it. -/
def lastHop : Hop := g.lastHop m.store m.toHop

/-- Fifty-one splitters were met, more than a move may leave behind. -/
def Overlong : Prop :=
  (m.trail g).length = Graph.hopLimit + 1 ∧ ∀ id ∈ m.trail g, ∃ s, g.node? id = some (.splitter s)

/-- What the problems of the graph foretell about the move. -/
structure Foretold : Prop where
  stalled : ∀ id, .stalled id ∈ m.told → .splitterWithoutDefault id ∈ g.lint ∨ m.Overlong g
  ended : .sessionEnded ∈ m.told →
    (m.lastHop g).target.bind g.node? = none ∧
      ((m.lastHop g).target.getD "" = "" ∨
        ∃ id, (m.lastHop g).target = some id ∧ (m.lastHop g).issue id ∈ g.lint)
  /-- Without problems there are two ways to fail left, and neither is an unknown node. -/
  flawless : g.lint = [] →
    (.sessionEnded ∈ m.told → (m.lastHop g).target.getD "" = "") ∧
      ∀ id, .stalled id ∈ m.told → m.Overlong g

end Move

theorem Move.foretold_of_told {m : Move} {g : Graph} (written : m.toHop.Written g)
    (stalled : ∀ id, .stalled id ∈ m.told → g.travel m.store m.target = .stalled id)
    (ended : .sessionEnded ∈ m.told → g.travel m.store m.target = .ended) : m.Foretold g := by
  have stalls : ∀ id, .stalled id ∈ m.told →
      .splitterWithoutDefault id ∈ g.lint ∨ m.Overlong g := by
    intro id told
    exact Graph.travelWithin_stalled m.store Graph.hopLimit m.target (stalled id told)
  have ends : .sessionEnded ∈ m.told → (m.lastHop g).target.bind g.node? = none ∧
      ((m.lastHop g).target.getD "" = "" ∨
        ∃ id, (m.lastHop g).target = some id ∧ (m.lastHop g).issue id ∈ g.lint) := by
    intro told
    have lost := Graph.lastHopWithin_lost m.store Graph.hopLimit m.toHop (ended told)
    have last := Graph.lastHopWithin_written m.store Graph.hopLimit m.toHop written
    refine ⟨lost, ?_⟩
    cases target : (m.lastHop g).target with
    | none => exact .inl rfl
    | some id =>
      by_cases empty : id = ""
      · exact .inl empty
      · exact .inr ⟨id, rfl, Graph.issue_of_lost last lost target empty⟩
  refine ⟨stalls, ends, ?_⟩
  intro flawless
  rw [flawless] at stalls ends
  constructor
  · intro told
    rcases (ends told).2 with empty | ⟨id, -, reported⟩
    · exact empty
    · cases reported
  · intro id told
    rcases stalls id told with reported | long
    · cases reported
    · exact long

namespace Stance

/-- The move that the next leg is, if it is one. -/
def move? (s : Session) (told : List Event) : Stance → Option Move
  | leaving target => some ⟨⟨s.position, target⟩, s.store, told⟩
  | _ => none

/-- A move sets out along a target that is written where the session stands. -/
def SetsOut (s : Session) : Stance → Prop
  | leaving target => (Hop.mk s.position target).Written s.graph
  | _ => True

end Stance

namespace Leg

/-- Every way on is named by the current node, or it is the entry and there is no such node. -/
theorem setsOut (leg : Leg a s es b t) : b.SetsOut t := by
  have onward : (Hop.mk s.position s.successor?).Written s.graph := by
    constructor
    · intro nowhere id next
      have lost : s.successor? = none := by
        rw [Session.successor?, show s.position = none from nowhere]
        rfl
      cases lost.symm.trans next
    · intro namer position id next
      obtain ⟨n, current, successor⟩ := Option.bind_eq_some_iff.mp next
      rw [show s.position = some namer from position] at current
      exact ⟨n, current, Graph.next_target n (Option.mem_toList.mpr successor)⟩
  cases leg with
  | start =>
    constructor
    · intro _ id entry
      exact entry
    · nofun
  | pressOn | depart | resume | pass => exact onward
  | choose running current offered enabled visible written =>
    obtain ⟨at', position, found⟩ := Option.bind_eq_some_iff.mp current
    constructor
    · intro nowhere
      cases position.symm.trans nowhere
    · intro namer here id next
      cases position.symm.trans here
      have listed := List.mem_of_getElem? written
      exact ⟨_, Graph.dialogue?_eq_some_iff.mp found,
        Graph.choice_target listed (Option.mem_toList.mpr next)⟩
  | _ => trivial

/-- What a move tells is where it came to rest. -/
theorem foretold (leg : Leg a s es b t) (setsOut : a.SetsOut s) (moves : a.move? s es = some m) :
    m.Foretold s.graph := by
  cases a with
  | resting | speaking => cases moves
  | leaving target =>
    cases moves
    refine Move.foretold_of_told setsOut ?_ ?_
    · intro id told
      cases leg with
      | ended | halt => simp at told
      | arrive =>
        have keeps : .stalled id ∉ Session.arrivalEvents ‹_› ‹_› := by
          simp only [Session.arrivalEvents]
          split <;> simp
        exact absurd told keeps
      | stall landed =>
        cases List.mem_singleton.mp told
        exact landed
    · intro told
      cases leg with
      | ended landed => exact landed
      | halt | stall => simp at told
      | arrive =>
        have keeps : .sessionEnded ∉ Session.arrivalEvents ‹_› ‹_› := by
          simp only [Session.arrivalEvents]
          split <;> simp
        exact absurd told keeps

/-- Only moves tell that a session is stuck. -/
theorem moves_of_stalled {id : NodeId} (leg : Leg a s es b t) (told : .stalled id ∈ es) :
    ∃ m, a.move? s es = some m ∧ m.told = es := by
  cases a with
  | leaving target => exact ⟨_, rfl, rfl⟩
  | resting =>
    cases leg with
    | setUp => simp [Session.openingEvents] at told
    | _ => simp at told
  | speaking => cases leg <;> simp at told

end Leg

/-- Legs in a row, with all their events and the moves among them. -/
inductive Voyage : Stance → Session → List Event → List Move → Stance → Session → Prop
  | refl : Voyage a s [] [] a s
  | next (first : Leg a s es b t) (rest : Voyage b t fs ms c u) :
    Voyage a s (es ++ fs) ((a.move? s es).toList ++ ms) c u

namespace Voyage

theorem of_course (course : Course a s es b t) : ∃ ms, Voyage a s es ms b t := by
  induction course with
  | refl => exact ⟨[], .refl⟩
  | next first rest ih =>
    obtain ⟨ms, rest⟩ := ih
    exact ⟨_, .next first rest⟩

theorem course (voyage : Voyage a s es ms b t) : Course a s es b t := by
  induction voyage with
  | refl => exact .refl
  | next first rest ih => exact .next first ih

theorem foretold (voyage : Voyage a s es ms b t) (setsOut : a.SetsOut s) :
    ∀ m ∈ ms, m.Foretold s.graph := by
  induction voyage with
  | refl => nofun
  | next first rest ih =>
    intro m listed
    rcases List.mem_append.mp listed with now | later
    · exact first.foretold setsOut (Option.mem_toList.mp now)
    · rw [← first.fixed.1]
      exact ih first.setsOut m later

theorem moves_of_stalled {id : NodeId} (voyage : Voyage a s es ms b t) (told : .stalled id ∈ es) :
    ∃ m ∈ ms, .stalled id ∈ m.told := by
  induction voyage with
  | refl => cases told
  | next first rest ih =>
    rcases List.mem_append.mp told with now | later
    · obtain ⟨m, moves, rfl⟩ := first.moves_of_stalled now
      exact ⟨m, List.mem_append_left _ (Option.mem_toList.mpr moves), now⟩
    · obtain ⟨m, listed, stalled⟩ := ih later
      exact ⟨m, List.mem_append_right _ listed, stalled⟩

end Voyage

namespace Session

/-- The voyages of the operations of a run, in a row. -/
inductive Voyages : Session → List Operation → List Event → List Move → Prop
  | nil : Voyages s [] [] []
  | sail (keeps : op.fetches = false) (steps : Voyage .resting s es ms .resting (s.perform op).2)
    (rest : Voyages (s.perform op).2 ops fs more) : Voyages s (op :: ops) (es ++ fs) (ms ++ more)
  | fetch (fetches : op.fetches = true) (rest : Voyages (s.perform op).2 ops es ms) :
    Voyages s (op :: ops) es ms

variable {s : Session}

/-- An operation that fetches no events is a course of legs. -/
theorem course_of_keeps (here : Situation .resting s) (keeps : op.fetches = false) :
    ∃ es, Course .resting s es .resting (s.perform op).2 := by
  rcases perform_course here op with ⟨es, steps, -⟩ | ⟨waiting, same, whole⟩
  · exact ⟨es, steps⟩
  · rw [fetched_of_keeps s keeps, List.nil_append] at whole
    have stays : (s.perform op).2 = s := by
      rw [same, Array.toList_inj.mp whole]
    exact ⟨[], stays.symm ▸ .refl⟩

theorem voyages_exist (here : Situation .resting s) (ops : List Operation) :
    ∃ es ms, s.Voyages ops es ms := by
  induction ops generalizing s with
  | nil => exact ⟨[], [], .nil⟩
  | cons op ops ih =>
    obtain ⟨fs, more, rest⟩ := ih (perform_situation here op)
    cases fetches : op.fetches with
    | true => exact ⟨fs, more, .fetch fetches rest⟩
    | false =>
      obtain ⟨es, steps⟩ := course_of_keeps here fetches
      obtain ⟨ms, steps⟩ := Voyage.of_course steps
      exact ⟨_, _, .sail fetches steps rest⟩

namespace Voyages

/-- The stream of a run is what its voyages emit. -/
theorem stream (voyages : s.Voyages ops es ms) : s.stream ops = s.events.toList ++ es := by
  induction voyages with
  | nil => exact (List.append_nil _).symm
  | sail keeps steps rest ih =>
    rw [stream_cons, fetched_of_keeps _ keeps, ih, steps.course.events, List.nil_append,
      List.append_assoc]
  | fetch fetches rest ih =>
    obtain ⟨got, waiting, whole, fetch⟩ := perform_fetch _ fetches
    rw [stream_cons, ih, fetch _ rfl, ← List.append_assoc]
    exact congrArg (· ++ _) whole

theorem graph_of_fetch (s : Session) (fetches : op.fetches = true) :
    (s.perform op).2.graph = s.graph := by
  cases op with
  | poll | drain => rfl
  | _ => cases fetches

theorem foretold (voyages : s.Voyages ops es ms) : ∀ m ∈ ms, m.Foretold s.graph := by
  induction voyages with
  | nil => nofun
  | sail keeps steps rest ih =>
    intro m listed
    rcases List.mem_append.mp listed with now | later
    · exact steps.foretold trivial m now
    · rw [← steps.course.fixed.1]
      exact ih m later
  | fetch fetches rest ih =>
    rw [graph_of_fetch _ fetches] at ih
    exact ih

theorem moves_of_stalled {id : NodeId} (voyages : s.Voyages ops es ms) (told : .stalled id ∈ es) :
    ∃ m ∈ ms, .stalled id ∈ m.told := by
  induction voyages with
  | nil => cases told
  | sail keeps steps rest ih =>
    rcases List.mem_append.mp told with now | later
    · obtain ⟨m, listed, stalled⟩ := steps.moves_of_stalled now
      exact ⟨m, List.mem_append_left _ listed, stalled⟩
    · obtain ⟨m, listed, stalled⟩ := ih later
      exact ⟨m, List.mem_append_right _ listed, stalled⟩
  | fetch fetches rest ih => exact ih told

end Voyages

end Session

/-- Whatever the host does, a move gets stuck only at a splitter that is reported to have no default
or behind too long a chain, and it ends the session only along a target that was left empty or is
reported to lead nowhere; and whenever a run tells that it is stuck, it is one of its moves that
does. -/
theorem mishaps_foretold (graph : Graph) (pacing : Pacing) (ops : List Operation) :
    (∃ moves, (Session.ofGraph graph pacing).Voyages ops
      ((Session.ofGraph graph pacing).stream ops) moves) ∧
    ∀ moves, (Session.ofGraph graph pacing).Voyages ops
      ((Session.ofGraph graph pacing).stream ops) moves →
        (∀ m ∈ moves, m.Foretold graph) ∧
        ∀ id, .stalled id ∈ (Session.ofGraph graph pacing).stream ops →
          ∃ m ∈ moves, .stalled id ∈ m.told := by
  obtain ⟨es, ms, voyages⟩ := Session.voyages_exist (situation_ofGraph graph pacing) ops
  have whole : (Session.ofGraph graph pacing).stream ops = es := voyages.stream
  constructor
  · exact ⟨ms, whole.symm ▸ voyages⟩
  · intro moves voyages
    constructor
    · exact voyages.foretold
    · intro id told
      exact voyages.moves_of_stalled told

end Parley
