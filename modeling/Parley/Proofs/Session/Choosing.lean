import Parley.Proofs.Session.Answer
import Parley.Proofs.Session.Screen

/-! The choices on display are those of the frame that was shown last, and of the node that was
written: whatever happens in between, taking one leads where its author sent it. -/
namespace Parley

/-- The frame shown last. -/
def lastFrame? (stream : List Event) : Option Frame := (stream.filterMap Event.frame?).getLast?

theorem lastFrame?_append (stream es : List Event) :
    lastFrame? (stream ++ es) = (es.filterMap Event.frame?).getLast?.or (lastFrame? stream) := by
  rw [lastFrame?, List.filterMap_append, List.getLast?_append, lastFrame?]

theorem lastFrame?_append_of_mute (mute : ∀ e ∈ es, e.frame? = none) (stream : List Event) :
    lastFrame? (stream ++ es) = lastFrame? stream := by
  rw [lastFrame?_append, List.filterMap_eq_nil_iff.mpr mute]
  rfl

/-- What is on offer stands in the frame shown last, and its node is current. -/
def Session.OffersFrame (stream : List Event) (s : Session) : Prop :=
  s.choices = [] ∨ ∃ frame, lastFrame? stream = some frame ∧ s.position = some frame.node ∧
    s.choices = frame.choices

namespace Session.OffersFrame

variable {s t : Session}

theorem carry (kept : s.OffersFrame past) (mute : ∀ e ∈ es, e.frame? = none)
    (position : t.position = s.position) (choices : t.choices = s.choices) :
    t.OffersFrame (past ++ es) := by
  rw [OffersFrame, lastFrame?_append_of_mute mute, position, choices]
  exact kept

theorem setUp (current : s.currentDialogue? = some d) (past : List Event) :
    (s.opened d).OffersFrame (past ++ s.openingEvents d) := by
  refine .inr ⟨s.frame d, ?_, position_of_dialogue current, rfl⟩
  rw [lastFrame?_append, filterMap_openingEvents (fun _ => rfl) s d]
  rfl

end Session.OffersFrame

theorem Leg.offersFrame (leg : Leg a s es b t) (here : Situation a s)
    (kept : s.OffersFrame past) : t.OffersFrame (past ++ es) := by
  cases leg with
  | clock | write | release | press | resumeMusic | hold | speak | showAll | stay | pause =>
    exact kept.carry (by simp [Event.frame?]) rfl rfl
  | autoAdvance on => cases on <;> exact kept.carry (by simp) rfl rfl
  | stroke shown =>
    obtain ⟨speed, stroked⟩ := Session.stroked_eq s _
    rw [stroked]
    exact kept.carry (by simp [Event.frame?]) rfl rfl
  | setUp delaying current => exact .setUp current past
  -- All that leaves a node clears its offers away.
  | pressOn | start | depart | resume | choose | pass => exact .inl rfl
  | finish active | ended _ active =>
    rw [Session.finish_of_active active]
    exact .inl rfl
  | arrive landed found =>
    rw [Session.arrived_eq]
    cases here with
    | leaving _ _ choices => exact .inl choices
  | halt | stall =>
    cases here with
    | leaving _ _ choices => exact .inl choices

theorem offersFrame_after (graph : Graph) (pacing : Pacing) (ops : List Operation) :
    ((Session.ofGraph graph pacing).after ops).OffersFrame
      ((Session.ofGraph graph pacing).stream ops) :=
  holds_after (I := fun stream _ s => s.OffersFrame stream) (fun _ kept => kept)
    (fun here leg kept => leg.offersFrame here kept) (.inl rfl) ops

namespace Session

variable {s : Session}

/-- Leave the current node for a target, as a start does for the entry. -/
def goTo (s : Session) (target : Option NodeId) : Session :=
  s.leaveNode.land (s.graph.travel s.store target)

/-- What is on offer is what the frame shown last offers, entry by entry what was written in the
current node. -/
structure Displays (stream : List Event) (s : Session) (d : Dialogue) : Prop where
  current : s.currentDialogue? = some d
  shown : ∃ frame, lastFrame? stream = some frame ∧ frame.node = d.id ∧ s.choices = frame.choices
  complete : s.choices.length = d.choices.length
  written : ∀ (index : Nat) (offer : Offer), s.choices[index]? = some offer →
    offer.index = index ∧ d.choices[index]?.map Choice.next = some offer.next ∧
      (offer.enabled = true → offer.visible = true)

/-- What happens when the offer at a place is asked for. -/
structure Chooses (s : Session) (index : Nat) (reply : Reply) (next : Session) : Prop where
  accepted : reply = .accepted true ↔ s.acceptsPlayerInput = true ∧
    ∃ offer, s.choices[index]? = some offer ∧ offer.enabled = true
  taken : reply = .accepted true → ∃ d c, s.currentDialogue? = some d ∧
    d.choices[index]? = some c ∧
    (∀ store, s.graph.follow? store s.position index = some (s.graph.travel store c.next)) ∧
    next = (s.emit (.choiceSelected index c.next)).goTo c.next

theorem offer_eq {index : Nat} (here : Situation .resting s)
    (offered : s.choices[index]? = some offer) :
    offer.index = index ∧ (offer.enabled = true → offer.visible = true) := by
  obtain ⟨d, c, store, -, -, rfl⟩ := offer_written here offered
  refine ⟨rfl, ?_⟩
  intro enabled
  have holds : Condition.allHold c.conditions store = true := enabled
  simp [Choice.offer, holds]

theorem displays_of_offersFrame {stream : List Event} (here : Situation .resting s)
    (kept : s.OffersFrame stream) (offering : s.choices ≠ []) : ∃ d, s.Displays stream d := by
  obtain ⟨index, within⟩ : ∃ index, index < s.choices.length :=
    ⟨0, List.length_pos_iff.mpr offering⟩
  obtain ⟨d, -, -, current, -, -⟩ := offer_written here (List.getElem?_eq_getElem within)
  obtain none | ⟨frame, shown, position, choices⟩ := kept
  · exact absurd none offering
  · have node : d.id = frame.node :=
      Option.some.inj ((position_of_dialogue current).symm.trans position)
    refine ⟨d, current, ⟨frame, shown, node.symm, choices⟩, ?_, ?_⟩
    · have active : s.phase ≠ .idle := by
        intro idle
        exact offering (here.of_idle idle).2.2.1
      obtain ⟨-, -, -, -, none | ⟨d', store, current', choices⟩⟩ := here.of_active active
      · exact absurd none offering
      · cases Option.some.inj (current.symm.trans current')
        rw [choices, Dialogue.length_offers]
    · intro index offer offered
      obtain ⟨own, visible⟩ := offer_eq here offered
      obtain ⟨d', c, store, current', written, rfl⟩ := offer_written here offered
      cases Option.some.inj (current.symm.trans current')
      refine ⟨own, ?_, visible⟩
      rw [written]
      rfl

theorem chooses_of_situation (here : Situation .resting s) (index : Nat) :
    s.Chooses index (s.perform (.input (.choose index))).1
      (s.perform (.input (.choose index))).2 := by
  have takes {offer : Offer} (running : s.phase = .running)
      (offered : s.choices[index]? = some offer) (enabled : offer.enabled = true) :
      ∃ d c, s.currentDialogue? = some d ∧ d.choices[index]? = some c ∧
        s.choose? index = some ((s.emit (.choiceSelected index c.next)).goTo c.next) := by
    have visible := (offer_eq here offered).2 enabled
    obtain ⟨d, c, store, current, written, rfl⟩ := offer_written here offered
    have moves := choose?_eq running offered enabled visible current written
    exact ⟨d, c, current, written, moves⟩
  rcases s.perform_input (.choose index) with ⟨t, accepts, performs⟩ | ⟨refuses, performs⟩
  · rw [performs]
    obtain ⟨running, offer, offered, enabled, -⟩ := choose?_accepted accepts
    obtain ⟨d, c, current, written, moves⟩ := takes running offered enabled
    constructor
    · exact ⟨fun _ => ⟨by simp [acceptsPlayerInput, running], offer, offered, enabled⟩, fun _ => rfl⟩
    · intro _
      refine ⟨d, c, current, written, Graph.follow?_eq current written, ?_⟩
      exact Option.some.inj (accepts.symm.trans moves)
  · rw [performs]
    constructor
    · constructor
      · intro granted
        cases granted
      · rintro ⟨free, offer, offered, enabled⟩
        have running : s.phase = .running := by simpa [acceptsPlayerInput] using free
        obtain ⟨d, c, -, -, moves⟩ := takes running offered enabled
        cases refuses.symm.trans moves
    · intro granted
      cases granted

end Session

/-- After every run the choices on display are those shown last and those written in the current
node; one that is enabled can be taken while the player may act, and leads to the target that was
written for it. -/
theorem choices_after (graph : Graph) (pacing : Pacing) (ops : List Operation) :
    let s := (Session.ofGraph graph pacing).after ops
    (s.choices = [] ∨ ∃ d, s.Displays ((Session.ofGraph graph pacing).stream ops) d) ∧
      ∀ index, s.Chooses index (s.perform (.input (.choose index))).1
        (s.perform (.input (.choose index))).2 := by
  intro s
  have here := situation_after graph pacing ops
  constructor
  · by_cases none : s.choices = []
    · exact .inl none
    · exact .inr (Session.displays_of_offersFrame here (offersFrame_after graph pacing ops) none)
  · exact Session.chooses_of_situation here

end Parley
