import Parley.Proofs.Session.Situation
import Parley.Proofs.Typewriter

/-! What the functions of a session come down to. Each has a few ways to go, and what is said of a
function is said of these. -/
namespace Parley.Session

variable {s t : Session}

/-- Where a move ends. An idle session has nothing to end. -/
inductive Lands (s : Session) : Session → Prop
  | idle (phase : s.phase = .idle) (position : Option NodeId) :
    Lands s { s with position := position }
  | ended (active : s.phase ≠ .idle) : Lands s ((s.reset .idle).emit .sessionEnded)
  | arrived {id : NodeId} (found : s.graph.dialogue? id = some d) :
    Lands s ({ s with position := some id }.arrived id d)
  | held (id : NodeId) : Lands s ({ s with position := some id }.emit (.nodeEntered id)).hold
  | stalled (id : NodeId) : Lands s ({ s with position := some id }.emit (.stalled id))

theorem lands_land (s : Session) (landing : Landing) : s.Lands (s.land landing) := by
  have ends (position : Option NodeId) :
      s.Lands ({ s with position := position } : Session).finish := by
    let moved : Session := { s with position := position }
    show s.Lands moved.finish
    by_cases idle : s.phase = .idle
    · have same : moved.finish = moved := if_pos idle
      rw [same]
      exact .idle idle position
    · rw [finish_of_active (s := moved) idle]
      exact .ended idle
  cases landing with
  | ended => exact ends none
  | dialogue id =>
    let moved : Session := { s with position := some id }
    show s.Lands (moved.enterDialogue id)
    cases found : s.graph.dialogue? id with
    | none =>
      rw [enterDialogue_of_none (s := moved) found]
      exact ends (some id)
    | some d =>
      rw [enterDialogue_eq (s := moved) found]
      exact .arrived found
  | hold id => exact .held id
  | stalled id => exact .stalled id

theorem lands_proceed (s : Session) : s.leaveNode.Lands s.proceed :=
  lands_land _ _

theorem lands_goNext (s : Session) : s.departed.Lands s.goNext :=
  (s.cue .stopSounds).lands_proceed

theorem completeText_of_none (lost : s.currentDialogue? = none) :
    s.completeText = s.cancel .reveal := by
  have stopped : (s.cancel .reveal).currentDialogue? = none := lost
  unfold completeText
  simp only [stopped]

theorem completeText_eq (current : s.currentDialogue? = some d) :
    s.completeText =
      if s.phase = .awaiting ∨ d.choices ≠ [] then s.told d
      else if s.autoAdvance then
        if s.nextKeepsText d then (s.told d).goNext
        else (s.told d).schedule .autoAdvance s.pacing.autoAdvanceInterval
      else if d.settings.advanceOnClick = false ∨ s.fastForward = true then (s.told d).goNext
      else s.told d := by
  have stopped : (s.cancel .reveal).currentDialogue? = some d := current
  simp only [completeText, stopped, List.isEmpty_iff, Bool.not_eq_true]
  rfl

/-- Behind a text that is told, the session stays, pauses, or goes on. -/
theorem completeText_cases (current : s.currentDialogue? = some d) :
    s.completeText = s.told d ∨
      s.completeText = (s.told d).schedule .autoAdvance s.pacing.autoAdvanceInterval ∨
      s.completeText = (s.told d).goNext := by
  rw [completeText_eq current]
  split
  · exact .inl rfl
  · split
    · split
      · exact .inr (.inr rfl)
      · exact .inr (.inl rfl)
    · split
      · exact .inr (.inr rfl)
      · exact .inl rfl

/-- A step of typing shows a character, or completes the text. -/
theorem revealStep_cases (s : Session) :
    (∃ t, s.typewriter.step = (.finished, t) ∧
      s.revealStep = { s with typewriter := t }.completeText) ∨
      ∃ c t, s.typewriter.step = (.revealed c, t) ∧ s.revealStep = s.stroked t := by
  unfold revealStep
  split
  case h_1 t finished => exact .inl ⟨t, finished, rfl⟩
  case h_2 c t shown => exact .inr ⟨c, t, shown, rfl⟩

theorem emitAll_eq (s : Session) (es : List Event) :
    s.emitAll es = { s with events := s.events ++ es.toArray } := by
  induction es generalizing s with
  | nil => simp [emitAll]
  | cons e rest ih =>
    have step : s.emitAll (e :: rest) = (s.emit e).emitAll rest := rfl
    rw [step, ih]
    simp [emit]

theorem setUp_of_none (lost : s.currentDialogue? = none) : s.setUp = s.cancel .nodeDelay := by
  have started : (s.cancel .nodeDelay).currentDialogue? = none := lost
  unfold setUp
  simp only [started]

theorem setUp_eq (current : s.currentDialogue? = some d) : s.setUp = (s.opened d).revealStep := by
  have started : (s.cancel .nodeDelay).currentDialogue? = some d := current
  have appended (events : Array Event) (es fs : List Event) (e : Event) :
      (events ++ es.toArray).push e ++ fs.toArray = events ++ (es ++ e :: fs).toArray := by
    simp
  unfold setUp
  simp only [started, emitAll_eq, emit, appended]
  rfl

theorem setUp_cancel (s : Session) : (s.cancel .nodeDelay).setUp = s.setUp := by
  have twice : (s.cancel .nodeDelay).cancel .nodeDelay = s.cancel .nodeDelay := by
    simp only [cancel, Timetable.cancel_cancel]
  unfold setUp
  rw [twice]

/-- Fast-forward cuts a delay, leaves the node, or does nothing. -/
theorem pushFastForward_cases (s : Session) :
    s.pushFastForward = s ∨
      s.phase = .running ∧ s.isDelaying = true ∧ s.pushFastForward = s.setUp ∨
      s.phase = .running ∧ s.pushFastForward = s.goNext := by
  unfold pushFastForward
  split
  case h_1 => exact .inl rfl
  case h_2 d current =>
    split
    case isTrue => exact .inl rfl
    case isFalse free =>
      have running : s.phase = .running := by
        have accepts : s.acceptsPlayerInput = true := Decidable.of_not_not (not_or.mp free).1
        simpa [acceptsPlayerInput] using accepts
      split
      case isTrue delaying =>
        split
        case isTrue => exact .inr (.inl ⟨running, delaying, rfl⟩)
        case isFalse => exact .inl rfl
      case isFalse =>
        split
        case isTrue => exact .inr (.inr ⟨running, rfl⟩)
        case isFalse => exact .inl rfl

/-- A click shows the rest of a text, cuts a delay, or leaves the node. -/
theorem advance?_cases (accepted : s.advance? = some t) :
    s.isTyping = true ∧ t = s.finishReveal ∨ s.isDelaying = true ∧ t = s.setUp ∨
      s.phase = .running ∧ t = s.goNext := by
  unfold advance? at accepted
  split at accepted
  case isTrue => cases accepted
  case isFalse accepts =>
    have running : s.phase = .running := by simpa [acceptsPlayerInput] using accepts
    split at accepted
    case h_1 => cases accepted
    case h_2 d current =>
      split at accepted
      case isTrue => cases accepted
      case isFalse plain =>
        split at accepted
        case isTrue skips => exact .inl ⟨skips.1, (Option.some.inj accepted).symm⟩
        case isFalse =>
          split at accepted
          case isTrue cuts => exact .inr (.inl ⟨cuts.1, (Option.some.inj accepted).symm⟩)
          case isFalse =>
            split at accepted
            case isTrue => exact .inr (.inr ⟨running, (Option.some.inj accepted).symm⟩)
            case isFalse => cases accepted

/-- What is on offer was written in the current node. -/
theorem offer_written {index : Nat} (here : Situation .resting s)
    (offered : s.choices[index]? = some offer) :
    ∃ d c store, s.currentDialogue? = some d ∧ d.choices[index]? = some c ∧
      offer = c.offer store index := by
  have active : s.phase ≠ .idle := by
    intro idle
    simp [(here.of_idle idle).2.2.1] at offered
  obtain ⟨id, n, position, node, none | ⟨d, store, current, choices⟩⟩ := here.of_active active
  · simp [none] at offered
  · rw [choices, Dialogue.offers, List.getElem?_mapIdx] at offered
    obtain ⟨c, written, rfl⟩ := Option.map_eq_some_iff.mp offered
    exact ⟨d, c, store, current, written, rfl⟩

/-- Only an offer that is enabled and on display is taken. -/
theorem choose?_accepted (accepted : s.choose? index = some t) :
    s.phase = .running ∧ ∃ offer, s.choices[index]? = some offer ∧ offer.enabled = true ∧
      offer.visible = true := by
  unfold choose? at accepted
  split at accepted
  case isTrue => cases accepted
  case isFalse accepts =>
    have running : s.phase = .running := by simpa [acceptsPlayerInput] using accepts
    split at accepted
    case h_1 => cases accepted
    case h_2 offer offered =>
      split at accepted
      case isTrue => cases accepted
      case isFalse selectable =>
        obtain ⟨enabled, visible⟩ := not_or.mp selectable
        exact ⟨running, offer, offered, Decidable.of_not_not enabled, Decidable.of_not_not visible⟩

/-- Taking an offer moves the session to what was written for it. -/
theorem choose?_eq {index : Nat} (running : s.phase = .running)
    (offered : s.choices[index]? = some offer) (enabled : offer.enabled = true)
    (visible : offer.visible = true) (current : s.currentDialogue? = some d)
    (written : d.choices[index]? = some c) :
    s.choose? index = some ((s.emit (.choiceSelected index offer.next)).leaveNode.land
      (s.graph.travel s.store c.next)) := by
  let left := (s.emit (.choiceSelected index offer.next)).leaveNode
  have followed : left.graph.follow? left.store left.position index =
      some (s.graph.travel s.store c.next) := Graph.follow?_eq current written s.store
  simp only [choose?, acceptsPlayerInput, running, offered, enabled, visible, decide_true,
    not_true_eq_false, or_self, if_false, followed, left]

/-- Neither idle nor held, a session plays or waits for the host. -/
theorem active_of_not (active : ¬(s.phase = .idle ∨ s.phase = .holding)) :
    s.phase = .running ∨ s.phase = .awaiting := by
  cases h : s.phase with
  | idle => exact absurd (.inl h) active
  | holding => exact absurd (.inr h) active
  | running => exact .inl rfl
  | awaiting => exact .inr rfl

/-- What a request comes to that is accepted. -/
inductive Response (s : Session) : Input → Session → Prop
  | reveal (typing : s.isTyping = true) : Response s i s.finishReveal
  | cut (delaying : s.isDelaying = true) : Response s i s.setUp
  | go (active : s.phase = .running ∨ s.phase = .awaiting) : Response s i s.goNext
  | choose {index : Nat} (running : s.phase = .running) (current : s.currentDialogue? = some d)
      (offered : s.choices[index]? = some offer) (enabled : offer.enabled = true)
      (visible : offer.visible = true) (written : d.choices[index]? = some c) :
    Response s i ((s.emit (.choiceSelected index offer.next)).leaveNode.land
      (s.graph.travel s.store c.next))
  | hold (active : s.phase = .running ∨ s.phase = .awaiting) : Response s i s.hold
  | resume (held : s.phase = .holding) :
    Response s .resume (({ s with phase := .running }.emit .resumed).proceed.cue .resumeMusic)
  | finish (active : s.phase ≠ .idle) : Response s i s.finish

theorem response_of_respond? (here : Situation .resting s) (accepted : s.respond? i = some t) :
    s.Response i t := by
  cases i with
  | advance =>
    rcases advance?_cases accepted with ⟨typing, rfl⟩ | ⟨delaying, rfl⟩ | ⟨running, rfl⟩
    · exact .reveal typing
    · exact .cut delaying
    · exact .go (.inl running)
  | choose index =>
    obtain ⟨running, offer, offered, enabled, visible⟩ := choose?_accepted accepted
    obtain ⟨d, c, store, current, written, -⟩ := offer_written here offered
    have moves := choose?_eq running offered enabled visible current written
    cases moves.symm.trans accepted
    exact .choose running current offered enabled visible written
  | skip =>
    obtain ⟨free, same⟩ := Option.ite_none_right_eq_some.mp accepted
    cases same
    exact .reveal free.2
  | interrupt =>
    obtain ⟨active, same⟩ := Option.ite_none_left_eq_some.mp accepted
    cases same
    exact .hold (active_of_not active)
  | resume =>
    obtain ⟨held, same⟩ := Option.ite_none_right_eq_some.mp accepted
    cases same
    exact .resume held
  | proceed =>
    obtain ⟨active, same⟩ := Option.ite_none_left_eq_some.mp accepted
    cases same
    exact .go (active_of_not active)
  | escape =>
    obtain ⟨⟨-, free⟩, same⟩ := Option.ite_none_right_eq_some.mp accepted
    cases same
    have running : s.phase = .running := by simpa [acceptsPlayerInput] using free
    exact .finish (Phase.ne_idle (.inl running))

theorem runDue_of_none (idle : s.timetable.take? limit = none) (budget : Nat) :
    s.runDue budget limit = s := by
  cases budget with
  | zero => rfl
  | succ budget => rw [runDue, idle]

theorem runDue_succ (taken : s.timetable.take? limit = some (kind, rest)) (budget : Nat) :
    s.runDue (budget + 1) limit =
      ({ s with timetable := rest }.runTask kind).runDue budget limit := by
  rw [runDue, taken]

end Parley.Session
