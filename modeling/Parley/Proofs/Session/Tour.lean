import Parley.Proofs.Graph.Reachable
import Parley.Proofs.Session.Run
import Parley.Story.NorthGate

/-! Where a playthrough can get. The nodes that it enters, shows or passes through are among those
that the search from the entry finds, whatever the host does and writes. -/
namespace Parley

/-- The node that an event tells of. -/
def Event.node? : Event → Option NodeId
  | nodeEntered id => some id
  | dialogueShown frame => some frame.node
  | textCompleted id _ => some id
  | stalled id => some id
  | _ => none

namespace Stance

/-- The nodes that the next leg comes by. -/
def trail (s : Session) : Stance → List NodeId
  | leaving target => s.graph.trail s.store target
  | _ => []

/-- The next leg does not lead out of what is reachable. -/
def Admitted (g : Graph) : Stance → Prop
  | leaving target => g.Admits target
  | _ => True

theorem trail_reachable {a : Stance} (admitted : a.Admitted s.graph) :
    ∀ id ∈ a.trail s, id ∈ s.graph.reachable := by
  cases a with
  | leaving target => exact Graph.trailWithin_reachable _ _ _ _ admitted
  | resting | speaking => nofun

end Stance

/-- Legs in a row, with all nodes that they come by. -/
inductive Tour : Stance → Session → List NodeId → Stance → Session → Prop
  | refl : Tour a s [] a s
  | next (first : Leg a s es b t) (rest : Tour b t ids c u) : Tour a s (a.trail s ++ ids) c u

theorem Course.tour (course : Course a s es b t) : ∃ ids, Tour a s ids b t := by
  induction course with
  | refl => exact ⟨[], .refl⟩
  | next first rest ih =>
    obtain ⟨ids, rest⟩ := ih
    exact ⟨_, .next first rest⟩

/-- The tours of the operations of a run, in a row. -/
inductive Session.Tours : Session → List Operation → List NodeId → Prop
  | nil : Tours s [] []
  | move (steps : Tour .resting s ids .resting (s.perform op).2)
      (rest : Tours (s.perform op).2 ops more) : Tours s (op :: ops) (ids ++ more)
  | fetch (same : (s.perform op).2 = { s with events := waiting })
      (rest : Tours (s.perform op).2 ops ids) : Tours s (op :: ops) ids

theorem Session.tours_exist {s : Session} (here : Situation .resting s) (ops : List Operation) :
    ∃ ids, s.Tours ops ids := by
  induction ops generalizing s with
  | nil => exact ⟨[], .nil⟩
  | cons op ops ih =>
    obtain ⟨more, rest⟩ := ih (perform_situation here op)
    rcases perform_course here op with ⟨es, steps, -⟩ | ⟨waiting, same, -⟩
    · obtain ⟨ids, steps⟩ := steps.tour
      exact ⟨_, .move steps rest⟩
    · exact ⟨_, .fetch same rest⟩

namespace Leg

/-- A leg stays where it is, ends the session, or gets to the end of its trail. -/
theorem position_cases (leg : Leg a s es b t) :
    t.position = s.position ∨ t.position = none ∨ ∃ id ∈ a.trail s, t.position = some id := by
  have landed {target : Option NodeId} {landing : Landing} {id : NodeId}
      (at_ : s.graph.travel s.store target = landing) (rests : landing.position = some id) :
      id ∈ Stance.trail s (.leaving target) := by
    refine List.mem_of_getLast? (Graph.trailWithin_getLast? _ _ _ _ ?_)
    exact (congrArg Landing.position at_).trans rests
  cases leg with
  | arrive at_ found =>
    rw [Session.arrived_eq]
    exact .inr (.inr ⟨_, landed at_ rfl, rfl⟩)
  | halt at_ | stall at_ => exact .inr (.inr ⟨_, landed at_ rfl, rfl⟩)
  | finish active | ended _ active =>
    rw [Session.finish_of_active active]
    exact .inr (.inl rfl)
  | start => exact .inr (.inl rfl)
  | stroke shown =>
    obtain ⟨speed, stroked⟩ := Session.stroked_eq s _
    rw [stroked]
    exact .inl rfl
  | autoAdvance on => cases on <;> exact .inl rfl
  | _ => exact .inl rfl

/-- A leg tells of no other node than the one where it ends. -/
theorem told (leg : Leg a s es b t) : ∀ id ∈ es.filterMap Event.node?, t.position = some id := by
  intro id names
  cases leg with
  | setUp delaying current =>
    rw [Session.filterMap_openingEvents (fun _ => rfl)] at names
    cases List.mem_singleton.mp names
    exact Session.position_of_dialogue current
  | stay current | pause current | pass current =>
    cases List.mem_singleton.mp names
    exact Session.position_of_dialogue current
  | arrive landed found =>
    rw [Session.filterMap_arrivalEvents rfl] at names
    cases List.mem_singleton.mp names
    rw [Session.arrived_eq]
    rfl
  | halt | stall =>
    cases List.mem_singleton.mp names
    rfl
  | _ => cases names

/-- Every way on is a target of the current node, or the entry. -/
theorem admitted (leg : Leg a s es b t)
    (reached : ∀ id, s.position = some id → id ∈ s.graph.reachable) : b.Admitted s.graph := by
  have along {n : Node} {next : Option NodeId} (current : s.position.bind s.graph.node? = some n)
      (target : next.toList ⊆ n.targets) : s.graph.Admits next := by
    obtain ⟨id, position, found⟩ := Option.bind_eq_some_iff.mp current
    exact Graph.admits_target (reached id position) found target
  have onward : s.graph.Admits s.successor? := by
    intro t next
    obtain ⟨n, current, successor⟩ := Option.bind_eq_some_iff.mp next
    exact along current (Graph.next_target n) t successor
  cases leg with
  | start => exact s.graph.admits_entry
  | pressOn | depart | resume | pass => exact onward
  | choose running current offered enabled visible written =>
    obtain ⟨id, position, found⟩ := Option.bind_eq_some_iff.mp current
    have node := Graph.dialogue?_eq_some_iff.mp found
    exact along (Option.bind_eq_some_iff.mpr ⟨id, position, node⟩)
      (Graph.choice_target (List.mem_of_getElem? written))
  | _ => trivial

end Leg

namespace Session

variable {s t : Session}

/-- A session in a graph stays among what is reachable, and tells of nothing else. -/
structure Roams (g : Graph) (stream : List Event) (a : Stance) (s : Session) : Prop where
  graph : s.graph = g
  position : ∀ id, s.position = some id → id ∈ g.reachable
  told : ∀ e ∈ stream, ∀ id, e.node? = some id → id ∈ g.reachable
  admitted : a.Admitted g

theorem Roams.fetch (roams : s.Roams g past .resting) (same : t = { s with events := waiting }) :
    t.Roams g past .resting := by
  rw [same]
  exact ⟨roams.graph, roams.position, roams.told, trivial⟩

theorem Roams.step (roams : s.Roams g past a) (leg : Leg a s es b t) :
    t.Roams g (past ++ es) b := by
  obtain ⟨rfl, position, told, admitted⟩ := roams
  have arrived : ∀ id, t.position = some id → id ∈ s.graph.reachable := by
    intro id at_
    rcases leg.position_cases with stays | left | ⟨id', passed, moved⟩
    · exact position id (stays.symm.trans at_)
    · cases left.symm.trans at_
    · cases Option.some.inj (moved.symm.trans at_)
      exact Stance.trail_reachable admitted id passed
  refine ⟨leg.fixed.1, arrived, ?_, leg.admitted position⟩
  intro e listed id names
  rcases List.mem_append.mp listed with before | now
  · exact told e before id names
  · exact arrived id (leg.told id (List.mem_filterMap.mpr ⟨e, now, names⟩))

theorem Roams.tour (roams : s.Roams g past a) (tour : Tour a s ids b t) :
    (∀ id ∈ ids, id ∈ g.reachable) ∧ ∃ later, t.Roams g later b := by
  induction tour generalizing past with
  | refl => exact ⟨nofun, past, roams⟩
  | next first rest ih =>
    obtain ⟨reached, onward⟩ := ih (roams.step first)
    refine ⟨?_, onward⟩
    intro id listed
    rcases List.mem_append.mp listed with passed | later
    · have admitted := roams.admitted
      rw [← roams.graph] at admitted ⊢
      exact Stance.trail_reachable admitted id passed
    · exact reached id later

theorem Roams.tours (roams : s.Roams g past .resting) (tours : s.Tours ops ids) :
    ∀ id ∈ ids, id ∈ g.reachable := by
  induction tours generalizing past with
  | nil => nofun
  | move steps rest ih =>
    obtain ⟨reached, later, onward⟩ := roams.tour steps
    intro id listed
    rcases List.mem_append.mp listed with passed | later
    · exact reached id passed
    · exact ih onward id later
  | fetch same rest ih => exact ih (roams.fetch same)

/-- A run never gets to a node. -/
structure Avoids (s : Session) (ops : List Operation) (id : NodeId) : Prop where
  position : (s.after ops).position ≠ some id
  untold : ∀ e ∈ s.stream ops, e.node? ≠ some id
  passed : ∀ ids, s.Tours ops ids → id ∉ ids

end Session

/-- Whatever the host does, a node that is reported to be unreachable is never current, is told of
by no event, and is not come by on any move. -/
theorem unreachable_avoided (graph : Graph) (pacing : Pacing) (ops : List Operation) (id : NodeId)
    (reported : .unreachable id ∈ graph.lint) :
    (∃ ids, (Session.ofGraph graph pacing).Tours ops ids) ∧
      (Session.ofGraph graph pacing).Avoids ops id := by
  have missed := (Graph.unreachable_iff.mp reported).2
  have new : (Session.ofGraph graph pacing).Roams graph [] .resting := by
    refine ⟨rfl, ?_, ?_, trivial⟩
    · intro id at_
      cases at_
    · intro e listed
      cases listed
  have roams := holds_after (I := fun stream a s => s.Roams graph stream a)
    (fun _ kept => kept.fetch rfl)
    (fun _ leg kept => kept.step leg) new ops
  refine ⟨Session.tours_exist (situation_ofGraph graph pacing) ops, ?_⟩
  constructor
  · intro at_
    exact missed (roams.position id at_)
  · intro e listed names
    exact missed (roams.told e listed id names)
  · intro ids tours listed
    exact missed (new.tours tours id listed)

namespace Story.NorthGate

/-- The talk from where the bar lifts: no way leads back to the gatekeeper. -/
def lifted : Graph := { graph with entry := some "open" }

theorem lifted_avoids_judge :
    .unreachable "judge" ∈ lifted.lint ∧
      (Session.ofGraph lifted default).Avoids
        [.start, .tick (.ofMillis 530), .input .skip, .input .advance, .input .resume] "judge" := by
  have barLifts : lifted.node? "open" = some (.dialogue barLifts) := by decide +kernel
  have gate : lifted.node? "gate" = some (.interrupt ⟨"gate", some "through"⟩) := by
    decide +kernel
  have through : lifted.node? "through" = some (.dialogue through) := by decide +kernel
  have reached : lifted.reachable = ["through", "gate", "open"] := by
    rw [Graph.reachable]
    show lifted.reachFrom ["open"] [] = _
    rw [Graph.reachFrom_found (by decide) barLifts]
    show lifted.reachFrom ["gate"] ["open"] = _
    rw [Graph.reachFrom_found (by decide) gate]
    show lifted.reachFrom ["through"] ["gate", "open"] = _
    rw [Graph.reachFrom_found (by decide) through]
    exact Graph.reachFrom.eq_1 _ _
  have reported : .unreachable "judge" ∈ lifted.lint := by
    refine Graph.unreachable_iff.mpr ⟨⟨.splitter judge, by decide +kernel, rfl⟩, ?_⟩
    rw [reached]
    decide
  exact ⟨reported, (unreachable_avoided lifted default _ "judge" reported).2⟩

end Story.NorthGate
end Parley
