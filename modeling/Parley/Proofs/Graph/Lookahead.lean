import Parley.Graph.Lookahead
import Parley.Proofs.Graph.Chain

/-! What lies ahead. The plain search finds something just where a passage over live targets leads
to a dialogue node, so it finds nothing with fewer hops where it finds nothing with more, and the
search that remembers barren splitters finds the same. Where a move comes to rest at a dialogue
node, that node lies ahead. -/
namespace Parley

/-- A target behind an open branch, or the default. -/
def Splitter.Live (s : Splitter) (store : Store) (id : NodeId) : Prop :=
  (∃ b ∈ s.branches, b.Open store ∧ b.next = some id) ∨ s.fallback = some id

theorem Splitter.mem_openTargets {s : Splitter} {id : NodeId} :
    id ∈ s.openTargets store ↔ s.Live store id := by
  simp only [openTargets, Live, List.mem_append, List.mem_filterMap, List.mem_filter,
    Branch.isOpen_iff, Option.mem_toList, and_assoc]

/-- What a move takes is what a search tries first. -/
theorem Splitter.openTargets_of_leads {s : Splitter} {id : NodeId}
    (leads : s.LeadsTo store (some id)) : ∃ rest, s.openTargets store = id :: rest := by
  generalize named : some id = target at leads
  unfold openTargets
  cases leads with
  | branch written shut opens =>
    have first := find?_eq_some_iff.mpr ⟨opens, _, _, written, shut⟩
    rw [← List.head?_filter] at first
    obtain ⟨rest, tried⟩ := List.head?_eq_some_iff.mp first
    rw [tried, List.filterMap_cons, ← named]
    exact ⟨_, rfl⟩
  | fallback shut default =>
    have none : s.branches.filter (fun b => b.isOpen store) = [] := by
      simpa only [List.filter_eq_nil_iff, Branch.isOpen_iff] using shut
    cases named
    rw [none, default]
    exact ⟨_, rfl⟩

theorem Splitter.openTargets_of_stuck {s : Splitter} (stuck : s.Stuck store) :
    s.openTargets store = [] := by
  refine List.eq_nil_iff_forall_not_mem.mpr fun id tried => ?_
  rcases mem_openTargets.mp tried with ⟨b, written, opens, -⟩ | default
  · exact stuck.shut b written opens
  · cases stuck.bare.symm.trans default

namespace Graph

/-- From one node to another through a number of splitters, over live targets. -/
inductive Passage (g : Graph) (store : Store) : Nat → NodeId → NodeId → Prop
  | here {id : NodeId} : Passage g store 0 id id
  | next {id target last : NodeId} (found : g.node? id = some (.splitter s))
      (live : s.Live store target) (further : Passage g store hops target last) :
      Passage g store (hops + 1) id last

variable {g : Graph} {store : Store} {id last : NodeId} {barren : Barren}

theorem aheadWithin_of_dialogue (found : g.node? id = some (.dialogue d)) (hops : Nat) :
    g.aheadWithin store (hops + 1) id = some d := by
  simp only [aheadWithin, found]

theorem aheadWithin_of_splitter (found : g.node? id = some (.splitter s)) (hops : Nat) :
    g.aheadWithin store (hops + 1) id =
      (s.openTargets store).findSome? (g.aheadWithin store hops) := by
  simp only [aheadWithin, found]

/-- What is found stands at the end of a passage. -/
theorem passage_of_aheadWithin (ahead : g.aheadWithin store limit id = some d) :
    g.node? d.id = some (.dialogue d) ∧ ∃ hops < limit, g.Passage store hops id d.id := by
  induction limit generalizing id with
  | zero => cases ahead
  | succ limit ih =>
    simp only [aheadWithin] at ahead
    split at ahead
    case h_1 d' found =>
      cases ahead
      refine ⟨node?_own found, 0, Nat.succ_pos limit, ?_⟩
      rw [show d.id = id from node?_id found]
      exact .here
    case h_2 s found =>
      obtain ⟨target, tried, ahead⟩ := List.exists_of_findSome?_eq_some ahead
      obtain ⟨own, hops, few, further⟩ := ih ahead
      exact ⟨own, hops + 1, Nat.succ_lt_succ few,
        .next found (Splitter.mem_openTargets.mp tried) further⟩
    case h_3 => cases ahead

/-- A passage to a dialogue node is found, or another one before it. -/
theorem aheadWithin_of_passage (passage : g.Passage store hops id last)
    (dialogue : g.node? last = some (.dialogue d)) (few : hops < limit) :
    (g.aheadWithin store limit id).isSome = true := by
  induction passage generalizing limit with
  | here =>
    obtain ⟨more, rfl⟩ := Nat.exists_eq_add_of_lt few
    rw [Nat.zero_add, aheadWithin_of_dialogue dialogue]
    rfl
  | next found live further ih =>
    obtain ⟨more, rfl⟩ : ∃ more, limit = more + 1 := Nat.exists_eq_succ_of_ne_zero (by omega)
    rw [aheadWithin_of_splitter found, List.findSome?_isSome_iff]
    exact ⟨_, Splitter.mem_openTargets.mpr live, ih dialogue (by omega)⟩

/-- With fewer hops nothing more is found. -/
theorem aheadWithin_none_of_le (none : g.aheadWithin store limit id = none) (fewer : few ≤ limit) :
    g.aheadWithin store few id = .none := by
  cases ahead : g.aheadWithin store few id with
  | none => rfl
  | some d =>
    obtain ⟨own, hops, within, passage⟩ := passage_of_aheadWithin ahead
    have found := aheadWithin_of_passage passage own (Nat.lt_of_lt_of_le within fewer)
    simp [none] at found

/-- What is remembered was rightly given up. -/
def Barren.Sound (g : Graph) (store : Store) (barren : Barren) : Prop :=
  ∀ entry ∈ barren, g.aheadWithin store entry.2 entry.1 = none

theorem Barren.Sound.of_rulesOut (sound : barren.Sound g store)
    (out : barren.rulesOut id hops = true) : g.aheadWithin store hops id = none := by
  unfold rulesOut at out
  split at out
  case h_1 known listed =>
    obtain ⟨newer, older, rfl, -⟩ := List.lookup_eq_some_iff.mp listed
    have none := sound (id, known) (by simp)
    exact aheadWithin_none_of_le none (of_decide_eq_true out)
  case h_2 => cases out

/-- A search agrees with a plain one and remembers nothing wrong. -/
structure Agrees (g : Graph) (store : Store) (found : Option Dialogue × Barren)
    (plain : Option Dialogue) : Prop where
  same : found.1 = plain
  sound : found.2.Sound g store

theorem firstAhead_agrees {search : NodeId → Barren → Option Dialogue × Barren}
    {plain : NodeId → Option Dialogue}
    (each : ∀ id barren, barren.Sound g store → g.Agrees store (search id barren) (plain id))
    (ids : List NodeId) (sound : barren.Sound g store) :
    g.Agrees store (firstAhead search ids barren) (ids.findSome? plain) := by
  induction ids generalizing barren with
  | nil => exact ⟨rfl, sound⟩
  | cons id rest ih =>
    obtain ⟨same, learnt⟩ := each id barren sound
    rw [firstAhead, List.findSome?_cons, ← same]
    generalize search id barren = searched at learnt
    rcases searched with ⟨_ | d, later⟩
    · exact ih learnt
    · exact ⟨rfl, learnt⟩

theorem searchWithin_agrees (hops : Nat) (id : NodeId) (sound : barren.Sound g store) :
    g.Agrees store (g.searchWithin store hops id barren) (g.aheadWithin store hops id) := by
  induction hops generalizing id barren with
  | zero => exact ⟨rfl, sound⟩
  | succ hops ih =>
    rw [searchWithin]
    split
    case isTrue out => exact ⟨(sound.of_rulesOut out).symm, sound⟩
    case isFalse =>
      split
      case h_1 d found => exact ⟨(aheadWithin_of_dialogue found hops).symm, sound⟩
      case h_2 s found =>
        obtain ⟨same, learnt⟩ :=
          firstAhead_agrees (fun id _ sound => ih id sound) (s.openTargets store) sound
        rw [← aheadWithin_of_splitter found] at same
        split
        case h_1 d later ahead =>
          rw [ahead] at same learnt
          exact ⟨same, learnt⟩
        case h_2 later gone =>
          rw [gone] at same learnt
          -- Only now is the splitter itself known to be barren, with all hops it had.
          exact ⟨same, List.forall_mem_cons.mpr ⟨same.symm, learnt⟩⟩
      case h_3 notDialogue notSplitter =>
        refine ⟨?_, sound⟩
        cases found : g.node? id with
        | none => simp only [aheadWithin, found]
        | some n =>
          cases n with
          | dialogue d => exact absurd found (notDialogue d)
          | splitter s => exact absurd found (notSplitter s)
          | interrupt i => simp only [aheadWithin, found]

/-- The memory changes nothing. -/
theorem ahead?_eq (g : Graph) (store : Store) (target : Option NodeId) :
    g.ahead? store target = target.bind (g.aheadWithin store (hopLimit + 1)) := by
  cases target with
  | none => rfl
  | some id =>
    have forgetful : Barren.Sound g store [] := nofun
    exact (searchWithin_agrees _ id forgetful).same

/-- What a move comes to rest at is the first thing that a search meets. -/
theorem aheadWithin_of_travelWithin (hops : Nat) (target : Option NodeId)
    (landed : g.travelWithin store hops target = .dialogue id) :
    ∃ d, d.id = id ∧ target.bind (g.aheadWithin store (hops + 1)) = some d := by
  fun_induction travelWithin g store hops target with
  | case1 | case3 | case4 | case5 => cases landed
  | case2 hops target d found =>
    cases landed
    obtain ⟨id, rfl, found⟩ := Option.bind_eq_some_iff.mp found
    exact ⟨d, rfl, aheadWithin_of_dialogue found hops⟩
  | case6 target s found next hops onward ih =>
    obtain ⟨d, own, ahead⟩ := ih landed
    obtain ⟨id, rfl, found⟩ := Option.bind_eq_some_iff.mp found
    obtain ⟨first, rfl, first_ahead⟩ := Option.bind_eq_some_iff.mp ahead
    obtain ⟨rest, tried⟩ := Splitter.openTargets_of_leads (Splitter.exit_eq_onward_iff.mp onward)
    refine ⟨d, own, ?_⟩
    rw [Option.bind_some, aheadWithin_of_splitter found, tried, List.findSome?_cons, first_ahead]

end Graph

/-- The search with a memory is the search without one, and finds something just where at most fifty
hops over live targets lead to a dialogue node. -/
theorem lookahead_is_plain (g : Graph) (store : Store) (target : Option NodeId) :
    g.ahead? store target = target.bind (g.aheadWithin store 51) ∧
      ((g.ahead? store target).isSome = true ↔
        ∃ id, target = some id ∧ ∃ hops ≤ 50, ∃ last d, g.Passage store hops id last ∧
          g.node? last = some (.dialogue d)) := by
  have plain : g.ahead? store target = target.bind (g.aheadWithin store 51) :=
    g.ahead?_eq store target
  refine ⟨plain, ?_⟩
  rw [plain]
  constructor
  · intro some
    obtain ⟨d, ahead⟩ := Option.isSome_iff_exists.mp some
    obtain ⟨id, named, ahead⟩ := Option.bind_eq_some_iff.mp ahead
    obtain ⟨own, hops, few, passage⟩ := Graph.passage_of_aheadWithin ahead
    exact ⟨id, named, hops, Nat.le_of_lt_succ few, _, d, passage, own⟩
  · rintro ⟨id, rfl, hops, few, last, d, passage, dialogue⟩
    exact Graph.aheadWithin_of_passage passage dialogue (Nat.lt_succ_of_le few)

/-- Wherever a session stands, if a move takes it to a dialogue node, then it is this node that lies
ahead, however many splitters the move has passed. -/
theorem lookahead_meets_landing (s : Session) (target : Option NodeId) (id : NodeId)
    (landed : s.graph.travel s.store target = .dialogue id) :
    (s.land (s.graph.travel s.store target)).position = some id ∧
      ∃ d, s.graph.dialogue? id = some d ∧ s.graph.ahead? s.store target = some d := by
  constructor
  · rw [s.position_land target, landed]
    rfl
  · obtain ⟨d, rfl, ahead⟩ := Graph.aheadWithin_of_travelWithin Graph.hopLimit target landed
    obtain ⟨first, rfl, found⟩ := Option.bind_eq_some_iff.mp ahead
    have own := (Graph.passage_of_aheadWithin found).1
    exact ⟨d, Graph.dialogue?_eq_some_iff.mpr own, (Graph.ahead?_eq _ _ _).trans ahead⟩

/-- The name of a room by its number. -/
def room (n : Nat) : NodeId := String.singleton (Char.ofNat ('A'.toNat + n))

/-- A row of splitters, and a dialogue node behind the last of them. -/
def corridor (length : Nat) : Graph :=
  .ofNodes (some (room 0)) <|
    .dialogue { (default : Dialogue) with id := room length } ::
      (List.range length).reverse.map fun n => .splitter ⟨room n, [], some (room (n + 1))⟩

/-- At the end of fifty splitters, the most that a move passes. -/
theorem corridor_meets_landing :
    let s := Session.ofGraph (corridor 50) default
    s.graph.travel s.store s.graph.entry = .dialogue (room 50) ∧
      (s.land (s.graph.travel s.store s.graph.entry)).position = some (room 50) ∧
        ∃ d, s.graph.dialogue? (room 50) = some d ∧
          s.graph.ahead? s.store s.graph.entry = some d := by
  intro s
  have landed : s.graph.travel s.store s.graph.entry = .dialogue (room 50) := by decide +kernel
  exact ⟨landed, lookahead_meets_landing s s.graph.entry (room 50) landed⟩

end Parley
