import Parley.Proofs.Graph.Rest
import Parley.Proofs.Graph.Traveller
import Parley.Proofs.Session.Leg

/-! A move told as a chain. Each splitter on the way names the next target, by its first open branch
or else by its default; the move comes to rest where the chain stops, or at the splitter where as
many hops are used up as one move has. Where the traveller stood before does not matter. -/
namespace Parley

def Branch.Open (b : Branch) (store : Store) : Prop := ∀ c ∈ b.conditions, c.holds store = true

theorem Branch.isOpen_iff {b : Branch} : b.isOpen store = true ↔ b.Open store := List.all_eq_true

namespace Splitter

/-- The target that a splitter names. -/
inductive LeadsTo (s : Splitter) (store : Store) : Option NodeId → Prop
  | branch (written : s.branches = before ++ b :: after) (shut : ∀ c ∈ before, ¬c.Open store)
      (opens : b.Open store) : LeadsTo s store b.next
  | fallback {id : NodeId} (shut : ∀ b ∈ s.branches, ¬b.Open store)
      (default : s.fallback = some id) : LeadsTo s store (some id)

/-- Neither an open branch nor a default. -/
structure Stuck (s : Splitter) (store : Store) : Prop where
  shut : ∀ b ∈ s.branches, ¬b.Open store
  bare : s.fallback = none

variable {s : Splitter} {store : Store}

theorem find?_eq_none_iff :
    s.branches.find? (fun b => b.isOpen store) = none ↔ ∀ b ∈ s.branches, ¬b.Open store := by
  simp only [List.find?_eq_none, Branch.isOpen_iff]

theorem find?_eq_some_iff :
    s.branches.find? (fun b => b.isOpen store) = some b ↔
      b.Open store ∧ ∃ before after, s.branches = before ++ b :: after ∧
        ∀ c ∈ before, ¬c.Open store := by
  simp only [List.find?_eq_some_iff_append, Branch.isOpen_iff, Bool.not_eq_true',
    ← Bool.not_eq_true]

theorem exit_eq_onward_iff : s.exit store = .onward next ↔ s.LeadsTo store next := by
  constructor
  · intro taken
    unfold exit at taken
    split at taken
    case h_1 b found =>
      cases taken
      obtain ⟨opens, before, after, written, shut⟩ := find?_eq_some_iff.mp found
      exact .branch written shut opens
    case h_2 none =>
      split at taken
      case h_1 id default =>
        cases taken
        exact .fallback (find?_eq_none_iff.mp none) default
      case h_2 => cases taken
  · intro leads
    cases leads with
    | branch written shut opens =>
      have found := find?_eq_some_iff.mpr ⟨opens, _, _, written, shut⟩
      simp only [exit, found]
    | fallback shut default =>
      have none := find?_eq_none_iff.mpr shut
      simp only [exit, none, default]

theorem exit_eq_stall_iff : s.exit store = .stall ↔ s.Stuck store := by
  constructor
  · intro stall
    unfold exit at stall
    split at stall
    case h_1 => cases stall
    case h_2 none =>
      split at stall
      case h_1 => cases stall
      case h_2 bare => exact ⟨find?_eq_none_iff.mp none, bare⟩
  · intro stuck
    have none := find?_eq_none_iff.mpr stuck.shut
    simp only [exit, none, stuck.bare]

end Splitter

namespace Graph

/-- From a target over a number of splitters, each naming the next target. -/
inductive Chain (g : Graph) (store : Store) : Nat → Option NodeId → Option NodeId → Prop
  | here : Chain g store 0 target target
  | next {id : NodeId} (found : g.node? id = some (.splitter s)) (leads : s.LeadsTo store target)
      (further : Chain g store hops target last) : Chain g store (hops + 1) (some id) last

/-- What a target comes to if the chain stops there. -/
inductive StopsAt (g : Graph) (store : Store) : Option NodeId → Landing → Prop
  | absent : StopsAt g store none .ended
  | empty : StopsAt g store (some "") .ended
  | unknown {id : NodeId} (lost : g.node? id = none) : StopsAt g store (some id) .ended
  | dialogue {id : NodeId} (found : g.node? id = some (.dialogue d)) :
      StopsAt g store (some id) (.dialogue d.id)
  | hold {id : NodeId} (found : g.node? id = some (.interrupt i)) :
      StopsAt g store (some id) (.hold i.id)
  | stuck {id : NodeId} (found : g.node? id = some (.splitter s)) (stuck : s.Stuck store) :
      StopsAt g store (some id) (.stalled s.id)

/-- Where a move with a number of hops comes to rest. -/
inductive ComesToRest (g : Graph) (store : Store) (limit : Nat) : Option NodeId → Landing → Prop
  | stops (few : hops ≤ limit) (chain : g.Chain store hops target last)
      (stops : g.StopsAt store last landing) : ComesToRest g store limit target landing
  | tooLong {id : NodeId} (chain : g.Chain store limit target (some id))
      (found : g.node? id = some (.splitter s)) (leads : s.LeadsTo store next) :
      ComesToRest g store limit target (.stalled s.id)

variable {g : Graph} {store : Store} {id : NodeId} {target last : Option NodeId}

theorem ComesToRest.next (found : g.node? id = some (.splitter s)) (leads : s.LeadsTo store target)
    (rests : g.ComesToRest store limit target landing) :
    g.ComesToRest store (limit + 1) (some id) landing := by
  cases rests with
  | stops few chain stops => exact .stops (Nat.succ_le_succ few) (.next found leads chain) stops
  | tooLong chain found' leads' => exact .tooLong (.next found leads chain) found' leads'

theorem stopsAt_of_lost (lost : target.bind g.node? = none) : g.StopsAt store target .ended := by
  cases target with
  | none => exact .absent
  | some id => exact .unknown lost

theorem travelWithin_comesToRest (g : Graph) (store : Store) (hops : Nat)
    (target : Option NodeId) :
    g.ComesToRest store hops target (g.travelWithin store hops target) := by
  fun_induction travelWithin g store hops target with
  | case1 hops target lost => exact .stops (Nat.zero_le hops) .here (stopsAt_of_lost lost)
  | case2 hops target d found =>
    obtain ⟨id, rfl, found⟩ := Option.bind_eq_some_iff.mp found
    exact .stops (Nat.zero_le hops) .here (.dialogue found)
  | case3 hops target i found =>
    obtain ⟨id, rfl, found⟩ := Option.bind_eq_some_iff.mp found
    exact .stops (Nat.zero_le hops) .here (.hold found)
  | case4 hops target s found stall =>
    obtain ⟨id, rfl, found⟩ := Option.bind_eq_some_iff.mp found
    exact .stops (Nat.zero_le hops) .here (.stuck found (Splitter.exit_eq_stall_iff.mp stall))
  -- The splitter would lead on, and only the hops are used up.
  | case5 target s found next onward =>
    obtain ⟨id, rfl, found⟩ := Option.bind_eq_some_iff.mp found
    exact .tooLong .here found (Splitter.exit_eq_onward_iff.mp onward)
  | case6 target s found next hops onward ih =>
    obtain ⟨id, rfl, found⟩ := Option.bind_eq_some_iff.mp found
    exact ih.next found (Splitter.exit_eq_onward_iff.mp onward)

theorem travelWithin_of_stopsAt (stops : g.StopsAt store target landing) (hops : Nat) :
    g.travelWithin store hops target = landing := by
  rw [travelWithin]
  cases stops with
  | absent => rfl
  | empty => rfl
  | unknown lost => simp only [Option.bind_some, lost]
  | dialogue found | hold found => simp only [Option.bind_some, found]
  | stuck found stuck =>
    have stall := Splitter.exit_eq_stall_iff.mpr stuck
    simp only [Option.bind_some, found, stall]

theorem travelWithin_of_leads (found : g.node? id = some (.splitter s))
    (leads : s.LeadsTo store target) (hops : Nat) :
    g.travelWithin store (hops + 1) (some id) = g.travelWithin store hops target := by
  have onward := Splitter.exit_eq_onward_iff.mpr leads
  rw [travelWithin]
  simp only [Option.bind_some, found, onward]

theorem travelWithin_of_leads_zero (found : g.node? id = some (.splitter s))
    (leads : s.LeadsTo store target) : g.travelWithin store 0 (some id) = .stalled s.id := by
  have onward := Splitter.exit_eq_onward_iff.mpr leads
  rw [travelWithin]
  simp only [Option.bind_some, found, onward]

/-- A move passes through a chain and goes on with the hops that are left. -/
theorem travelWithin_of_chain (chain : g.Chain store hops target last) (left : Nat) :
    g.travelWithin store (hops + left) target = g.travelWithin store left last := by
  induction chain with
  | here => rw [Nat.zero_add]
  | next found leads further ih => rw [Nat.add_right_comm, travelWithin_of_leads found leads, ih]

theorem travelWithin_of_comesToRest (rests : g.ComesToRest store limit target landing) :
    g.travelWithin store limit target = landing := by
  cases rests with
  | @stops hops _ last _ few chain stops =>
    obtain ⟨left, rfl⟩ := Nat.exists_eq_add_of_le few
    rw [travelWithin_of_chain chain, travelWithin_of_stopsAt stops]
  | tooLong chain found leads =>
    exact (travelWithin_of_chain chain 0).trans (travelWithin_of_leads_zero found leads)

end Graph

/-- Whatever a move comes to, the session stands there and nowhere else. -/
theorem Session.position_land (s : Session) (target : Option NodeId) :
    (s.land (s.graph.travel s.store target)).position =
      (s.graph.travel s.store target).position := by
  have stands := s.graph.travel_exists s.store target
  cases landed : s.graph.travel s.store target with
  | ended =>
    by_cases idle : s.phase = .idle
    · have same : s.land .ended = { s with position := none } := if_pos idle
      rw [same]
      rfl
    · have ended : s.land .ended = _ := finish_of_active (s := { s with position := none }) idle
      rw [ended]
      rfl
  | dialogue id =>
    rw [landed] at stands
    obtain ⟨d, node⟩ := stands
    have found := Graph.dialogue?_eq_some_iff.mpr node
    have entered : s.land (.dialogue id) = { s with position := some id }.arrived id d :=
      enterDialogue_eq found
    rw [entered, arrived_eq]
    rfl
  | hold id => rfl
  | stalled id => rfl

/-- A move follows the chain of first open branches and defaults for at most fifty hops, comes to
the one rest that the chain has, and makes its node current. A traveller who goes hop by hop stands
there too, wherever the way began: nothing of the traveller is left in the landing. -/
theorem travel_follows_chain (s : Session) (target : Option NodeId) :
    let landing := s.graph.travel s.store target
    (∀ other, s.graph.ComesToRest s.store 50 target other ↔ other = landing) ∧
      (s.land landing).position = landing.position ∧
      ∀ prior, (Traveller.goTo s.graph s.store target).run prior = (landing, ⟨landing.position⟩) := by
  intro landing
  refine ⟨fun other => ?_, s.position_land target,
    fun prior => Traveller.run_goTo s.graph s.store prior target⟩
  constructor
  · intro rests
    exact (Graph.travelWithin_of_comesToRest rests).symm
  · rintro rfl
    exact s.graph.travelWithin_comesToRest s.store 50 target

end Parley
