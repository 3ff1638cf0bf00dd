import Parley.Proofs.Graph.Lookahead
import Parley.Proofs.Session.Run

/-! Text that is appended without a pause. Auto-advance pauses behind a complete text unless the
dialogue node ahead keeps it. The search ahead tries every live target of a splitter and the move
takes the first, so the move comes to that node just where no splitter on its way leads it astray. -/
namespace Parley

namespace Graph

/-- On a move with a number of hops, a splitter takes a target behind which there is no dialogue
node, while one lies behind another of its live targets. -/
inductive Strays (g : Graph) (store : Store) : Nat → Option NodeId → Dialogue → Prop
  | here {id other : NodeId} (found : g.node? id = some (.splitter s))
      (leads : s.LeadsTo store taken) (barren : taken.bind (g.aheadWithin store limit) = none)
      (live : s.Live store other) (ahead : g.aheadWithin store limit other = some d) :
      Strays g store limit (some id) d
  | next {id : NodeId} (found : g.node? id = some (.splitter s)) (leads : s.LeadsTo store target)
      (further : Strays g store limit target d) : Strays g store (limit + 1) (some id) d

variable {g : Graph} {store : Store}

/-- A move comes to the node that lies ahead unless it is led astray. -/
theorem landed_or_strays (hops : Nat) (target : Option NodeId)
    (ahead : target.bind (g.aheadWithin store (hops + 1)) = some d) :
    g.travelWithin store hops target = .dialogue d.id ∨ g.Strays store hops target d := by
  fun_induction travelWithin g store hops target with
  | case1 hops target lost =>
    obtain ⟨id, rfl, met⟩ := Option.bind_eq_some_iff.mp ahead
    rw [Option.bind_some] at lost
    simp [aheadWithin, lost] at met
  | case2 hops target d' found =>
    obtain ⟨id, rfl, met⟩ := Option.bind_eq_some_iff.mp ahead
    cases (aheadWithin_of_dialogue found hops).symm.trans met
    exact .inl rfl
  | case3 hops target i found =>
    obtain ⟨id, rfl, met⟩ := Option.bind_eq_some_iff.mp ahead
    rw [Option.bind_some] at found
    simp [aheadWithin, found] at met
  | case4 hops target s found stall =>
    obtain ⟨id, rfl, met⟩ := Option.bind_eq_some_iff.mp ahead
    have none := Splitter.openTargets_of_stuck (Splitter.exit_eq_stall_iff.mp stall)
    rw [aheadWithin_of_splitter found, none] at met
    cases met
  | case5 target s found next onward =>
    obtain ⟨id, rfl, met⟩ := Option.bind_eq_some_iff.mp ahead
    rw [aheadWithin_of_splitter found] at met
    obtain ⟨other, -, none⟩ := List.exists_of_findSome?_eq_some met
    cases none
  | case6 target s found next hops onward ih =>
    obtain ⟨id, rfl, met⟩ := Option.bind_eq_some_iff.mp ahead
    have leads := Splitter.exit_eq_onward_iff.mp onward
    rw [aheadWithin_of_splitter found] at met
    cases taken : next.bind (g.aheadWithin store (hops + 1)) with
    | none =>
      -- Nothing lies behind the target taken, so the node was found behind another.
      obtain ⟨other, tried, found'⟩ := List.exists_of_findSome?_eq_some met
      exact .inr (.here found leads taken (Splitter.mem_openTargets.mp tried) found')
    | some d' =>
      -- What the splitter takes is tried first, so the search goes no further.
      obtain ⟨first, rfl, taken'⟩ := Option.bind_eq_some_iff.mp taken
      obtain ⟨rest, tried⟩ := Splitter.openTargets_of_leads leads
      rw [tried, List.findSome?_cons, taken'] at met
      cases met
      exact (ih taken).imp_right (.next found leads)

/-- A move that is led astray comes to no dialogue node at all. -/
theorem Strays.lost (strays : g.Strays store hops target d) (id : NodeId) :
    g.travelWithin store hops target ≠ .dialogue id := by
  induction strays with
  | @here _ _ limit _ _ _ found leads barren live ahead =>
    cases limit with
    | zero => cases ahead
    | succ limit =>
      rw [travelWithin_of_leads found leads]
      intro landed
      obtain ⟨d, -, met⟩ := aheadWithin_of_travelWithin limit _ landed
      cases barren.symm.trans met
  | next found leads further ih =>
    rw [travelWithin_of_leads found leads]
    exact ih

end Graph

namespace Session

variable {s : Session}

/-- The text of a node is complete and the session stands at the next, which appends its own: no
text is cleared, and nothing but the step is told. -/
structure Appends (s : Session) (d next : Dialogue) : Prop where
  current : s.completeText.currentDialogue? = some next
  keeps : next.settings.keepPreviousText = true
  text : s.completeText.typewriter = s.typewriter
  phase : s.completeText.phase = s.phase
  told : s.completeText.events = s.events ++
    #[.textCompleted d.id s.visibleText, .cue .stopSounds, .nodeEntered next.id]

theorem skip?_of_typing (accepts : s.acceptsPlayerInput = true) (typing : s.isTyping = true) :
    s.skip? =
      some { s.cancel .reveal with typewriter := s.typewriter.showAll }.completeText :=
  if_pos ⟨accepts, typing⟩

theorem successor?_eq (current : s.currentDialogue? = some d) : s.successor? = d.next := by
  obtain ⟨id, position, found⟩ := Option.bind_eq_some_iff.mp current
  have node : s.position.bind s.graph.node? = some (.dialogue d) := by
    rw [position]
    exact Graph.dialogue?_eq_some_iff.mp found
  rw [successor?, node]
  rfl

theorem nextKeepsText_iff : s.nextKeepsText d = true ↔
    ∃ next, s.graph.ahead? s.store d.next = some next ∧
      next.settings.keepPreviousText = true := by
  cases ahead : s.graph.ahead? s.store d.next with
  | none => simp only [nextKeepsText, ahead, reduceCtorEq, false_and, exists_false]
  | some next => simp only [nextKeepsText, ahead, Option.some.injEq, exists_eq_left']

theorem told_goNext_eq (current : s.currentDialogue? = some d) :
    (s.told d).goNext = (s.told d).departed.land (s.graph.travel s.store d.next) := by
  have same : (s.told d).goNext =
      (s.told d).departed.land (s.graph.travel s.store s.successor?) := rfl
  rw [same, successor?_eq current]

/-- Away from dialogue nodes a session stands at none. -/
theorem currentDialogue?_land (s : Session) (target : Option NodeId)
    (lost : ∀ id, s.graph.travel s.store target ≠ .dialogue id) :
    (s.land (s.graph.travel s.store target)).currentDialogue? = none := by
  have stands := s.graph.travel_exists s.store target
  cases landed : s.graph.travel s.store target with
  | ended =>
    have nowhere := s.position_land target
    rw [landed] at nowhere
    rw [currentDialogue?, nowhere]
    rfl
  | dialogue id => exact absurd landed (lost id)
  | hold id | stalled id =>
    rw [landed] at stands
    obtain ⟨n, node⟩ := stands
    refine Option.eq_none_iff_forall_ne_some.mpr fun d current => ?_
    cases node.symm.trans (Graph.dialogue?_eq_some_iff.mp current)

theorem appends_of_landed (current : s.currentDialogue? = some d) (free : s.phase ≠ .awaiting)
    (onward : s.completeText = (s.told d).goNext) (keeps : next.settings.keepPreviousText = true)
    (found : s.graph.dialogue? next.id = some next)
    (landed : s.graph.travel s.store d.next = .dialogue next.id) : s.Appends d next := by
  have arrives : s.completeText =
      { (s.told d).departed with position := some next.id }.arrived next.id next := by
    rw [onward, told_goNext_eq current, landed]
    exact enterDialogue_eq found
  rw [arrived_eq, if_pos keeps, arrivalEvents, if_pos keeps] at arrives
  constructor
  · rw [arrives]
    exact found
  · exact keeps
  · rw [arrives]
    rfl
  · rw [arrives]
    exact if_neg free
  · rw [arrives]
    simp only [schedule, departed, leaveNode, told, cue, emit, cancel, Array.push_eq_append,
      Array.append_assoc]
    rfl

end Session

/-- Auto-advance pauses behind a complete text just where no dialogue node that keeps it lies ahead.
Where one does, the session goes on at once and appends that node's text to this one, unless a
splitter leads the move astray; then it stands at no dialogue node. -/
theorem kept_text_skips_pause (s : Session) (current : s.currentDialogue? = some d)
    (free : s.phase ≠ .awaiting) (plain : d.choices = []) (auto : s.autoAdvance = true) :
    (s.completeText = (s.told d).schedule .autoAdvance s.pacing.autoAdvanceInterval ∧
        ∀ next, s.graph.ahead? s.store d.next = some next →
          next.settings.keepPreviousText = false) ∨
      ∃ next, s.graph.ahead? s.store d.next = some next ∧
        next.settings.keepPreviousText = true ∧ s.completeText = (s.told d).goNext ∧
          ((s.Appends d next ∧ ¬s.graph.Strays s.store 50 d.next next) ∨
            (s.graph.Strays s.store 50 d.next next ∧ s.completeText.currentDialogue? = none)) := by
  have completes := Session.completeText_eq current
  rw [if_neg (by simp [free, plain]), if_pos auto] at completes
  by_cases keeps : s.nextKeepsText d = true
  · rw [if_pos keeps] at completes
    obtain ⟨next, ahead, keeps⟩ := Session.nextKeepsText_iff.mp keeps
    refine .inr ⟨next, ahead, keeps, completes, ?_⟩
    rw [Graph.ahead?_eq] at ahead
    by_cases strays : s.graph.Strays s.store Graph.hopLimit d.next next
    · have lost : ∀ id, s.graph.travel s.store d.next ≠ .dialogue id := strays.lost
      refine .inr ⟨strays, ?_⟩
      rw [completes, Session.told_goNext_eq current]
      exact (s.told d).departed.currentDialogue?_land d.next lost
    · have landed := (Graph.landed_or_strays Graph.hopLimit d.next ahead).resolve_right strays
      obtain ⟨first, -, met⟩ := Option.bind_eq_some_iff.mp ahead
      have found := Graph.dialogue?_eq_some_iff.mpr (Graph.passage_of_aheadWithin met).1
      exact .inl ⟨Session.appends_of_landed current free completes keeps found landed, strays⟩
  · rw [if_neg keeps] at completes
    refine .inl ⟨completes, fun next ahead => eq_false_of_ne_true fun kept => ?_⟩
    exact keeps (Session.nextKeepsText_iff.mpr ⟨next, ahead, kept⟩)

def knock : Dialogue :=
  { (default : Dialogue) with id := "knock", next := some "fork", text := "Knock" }

def answer : Dialogue :=
  { (default : Dialogue) with
    id := "answer"
    text := " Yes?"
    settings := { (default : Presentation) with keepPreviousText := true } }

/-- A knock, and a fork where every branch is open. -/
def knockGraph (branches : List NodeId) : Graph :=
  .ofNodes (some "knock")
    [.dialogue knock, .splitter ⟨"fork", branches.map fun id => ⟨[], some id⟩, none⟩,
      .interrupt ⟨"hush", none⟩, .dialogue answer]

/-- The answer comes first, and at once. -/
theorem knock_answered :
    let knocking := (Session.ofGraph (knockGraph ["answer", "hush"]) default).after
      [.start, .setAutoAdvance true, .tick .zero]
    let s := { knocking.cancel .reveal with typewriter := knocking.typewriter.showAll }
    s.currentDialogue? = some knock ∧ s.phase ≠ .awaiting ∧ knock.choices = [] ∧
      s.autoAdvance = true ∧ knocking.skip? = some s.completeText ∧
        s.Appends knock answer := by
  intro knocking s
  have current : s.currentDialogue? = some knock := by decide +kernel
  have free : s.phase ≠ .awaiting := by decide +kernel
  have auto : s.autoAdvance = true := by decide +kernel
  have accepts : knocking.acceptsPlayerInput = true := by decide +kernel
  have typing : knocking.isTyping = true := by decide +kernel
  have skips := Session.skip?_of_typing accepts typing
  have ahead : s.graph.ahead? s.store knock.next = some answer := by decide +kernel
  have stands : s.completeText.currentDialogue? = some answer := by decide +kernel
  refine ⟨current, free, rfl, auto, skips, ?_⟩
  rcases kept_text_skips_pause s current free rfl auto with
    ⟨-, clears⟩ | ⟨next, found, -, -, ⟨appends, -⟩ | ⟨-, nowhere⟩⟩
  · cases clears answer ahead
  · cases ahead.symm.trans found
    exact appends
  · cases stands.symm.trans nowhere

/-- The hush comes first. The answer that lies ahead makes the session go on without a pause, and it
is held before it comes there. -/
theorem knock_hushed :
    let knocking := (Session.ofGraph (knockGraph ["hush", "answer"]) default).after
      [.start, .setAutoAdvance true, .tick .zero]
    let s := knocking.after [.input .skip]
    knocking.currentDialogue? = some knock ∧ knock.choices = [] ∧ knocking.phase = .running ∧
      knocking.autoAdvance = true ∧ .textCompleted "knock" "Knock".toList ∈ s.events ∧
        s.timetable.now = knocking.timetable.now ∧ s.position = some "hush" ∧
          s.phase = .holding ∧ s.currentDialogue? = none := by
  decide +kernel

end Parley
