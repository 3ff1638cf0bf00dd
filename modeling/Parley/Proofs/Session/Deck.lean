import Parley.Proofs.Graph.Traveller
import Parley.Proofs.Session.Run
import Parley.Session.Deck

/-! What happens on a deck is what happens in the session that it shows: each action on the one is
met by the function of its name on the other. -/
namespace Parley

/-- Tasks are planned only while a session is running or awaits a signal. -/
theorem Situation.active_of_due (here : Situation .resting s)
    (taken : s.timetable.take? limit = some (kind, rest)) :
    s.phase = .running ∨ s.phase = .awaiting := by
  obtain ⟨due, first, -⟩ := Timetable.take?_eq_some taken
  have listed := (Timetable.mem_of_next? first).1
  cases here with
  | idle _ _ tasks | held _ _ _ tasks | stalled _ _ _ tasks | finished _ _ tasks =>
    simp [tasks] at listed
  | delaying running | pausing _ running => exact .inl running
  | typing phase => exact phase ▸ Dialogue.phase_cases _

namespace Session

/-- To leave a node is to await nothing. -/
theorem proceed_of_active {s : Session} (active : s.phase = .running ∨ s.phase = .awaiting) :
    { s with phase := .running }.proceed = s.proceed := by
  have left : { s with phase := .running }.leaveNode = s.leaveNode := by
    rcases active with running | awaiting
    · simp [leaveNode, running]
    · simp [leaveNode, awaiting]
  simp only [proceed, left]

end Session

namespace Deck

/-- The deck shows a session, and a deck that is off has no other switch on. -/
structure Shows (d : Deck) (s : Session) : Prop where
  session : d.session = s
  off : d.running = false → d.held = false ∧ d.awaiting = false

variable {d : Deck} {s : Session}

theorem currentDialogue?_eq (d : Deck) : d.currentDialogue? = d.session.currentDialogue? := by
  simp only [currentDialogue?, Traveller.currentNode?, Session.currentDialogue?, Deck.session]
  cases d.traveller.current with
  | none => rfl
  | some id => rfl

theorem phase_eq_idle_iff : d.phase = .idle ↔ d.running = false := by
  cases running : d.running <;> cases held : d.held <;> cases awaiting : d.awaiting <;>
    simp [phase, *]

theorem phase_eq_holding_iff : d.phase = .holding ↔ d.running = true ∧ d.held = true := by
  cases running : d.running <;> cases held : d.held <;> cases awaiting : d.awaiting <;>
    simp [phase, *]

theorem phase_eq_awaiting_iff :
    d.phase = .awaiting ↔ d.running = true ∧ d.held = false ∧ d.awaiting = true := by
  cases running : d.running <;> cases held : d.held <;> cases awaiting : d.awaiting <;>
    simp [phase, *]

theorem phase_eq_running_iff :
    d.phase = .running ↔ d.running = true ∧ d.held = false ∧ d.awaiting = false := by
  cases running : d.running <;> cases held : d.held <;> cases awaiting : d.awaiting <;>
    simp [phase, *]

theorem run_move {way : Graph → Store → StateM Traveller α}
    (moves : (way d.graph d.store).run d.traveller = (x, t)) :
    (move way).run d = (x, { d with traveller := t }) := by
  show (((way d.graph d.store).run d.traveller).1,
    { d with traveller := ((way d.graph d.store).run d.traveller).2 }) = _
  rw [moves]

namespace Shows

theorem ite {x y : Action Unit} {t u : Session} [Decidable p] [Decidable q] (same : p ↔ q)
    (yes : q → (x.run d).2.Shows t) (no : ¬q → (y.run d).2.Shows u) :
    ((if p then x else y).run d).2.Shows (if q then t else u) := by
  by_cases holds : q
  · rw [if_pos holds, if_pos (same.mpr holds)]
    exact yes holds
  · rw [if_neg holds, if_neg fun here => holds (same.mp here)]
    exact no holds

section

variable (shows : d.Shows s)
include shows

theorem emit (e : Event) : ((Deck.emit e).run d).2.Shows (s.emit e) := by
  obtain ⟨rfl, off⟩ := shows
  exact ⟨rfl, off⟩

theorem emitAll (es : List Event) : ((Deck.emitAll es).run d).2.Shows (s.emitAll es) := by
  induction es generalizing d s with
  | nil => exact shows
  | cons e es ih => exact ih (shows.emit e)

theorem schedule (kind : TaskKind) (after : Duration) :
    ((Deck.schedule kind after).run d).2.Shows (s.schedule kind after) := by
  obtain ⟨rfl, off⟩ := shows
  exact ⟨rfl, off⟩

theorem cancel (kind : TaskKind) : ((Deck.cancel kind).run d).2.Shows (s.cancel kind) := by
  obtain ⟨rfl, off⟩ := shows
  exact ⟨rfl, off⟩

theorem reset (running : Bool) :
    ((Deck.reset running).run d).2.Shows (s.reset (if running then .running else .idle)) := by
  obtain ⟨rfl, -⟩ := shows
  cases running with
  | false => exact ⟨rfl, fun _ => ⟨rfl, rfl⟩⟩
  | true => exact ⟨rfl, nofun⟩

theorem finish : (Deck.finish.run d).2.Shows s.finish := by
  have idle : s.phase = .idle ↔ d.running = false := shows.session ▸ phase_eq_idle_iff
  unfold Session.finish
  show (StateT.run (if d.running = true then (_ : Action Unit) else _) d).2.Shows _
  by_cases running : d.running = true
  · rw [if_pos running, if_neg (by simp [idle, running])]
    exact (shows.reset false).emit .sessionEnded
  · rw [if_neg running, if_pos (by simpa [idle] using running)]
    exact shows

theorem leaveNode : (Deck.leaveNode.run d).2.Shows s.leaveNode := by
  obtain ⟨rfl, off⟩ := shows
  have phase : Deck.phase { d with
      timetable := d.timetable.cancelAll, choices := [], awaiting := false } =
      if d.phase = .awaiting then .running else d.phase := by
    cases running : d.running <;> cases held : d.held <;> cases awaiting : d.awaiting <;>
      simp [Deck.phase, *]
  refine ⟨?_, fun stopped => ⟨(off stopped).1, rfl⟩⟩
  show Deck.session { d with
    timetable := d.timetable.cancelAll, choices := [], awaiting := false } = _
  simp only [Deck.session, Session.leaveNode, phase]
  rfl

theorem hold (active : s.phase ≠ .idle) : (Deck.hold.run d).2.Shows s.hold := by
  obtain ⟨rfl, off⟩ := shows
  have running : d.running = true := by simpa [phase_eq_idle_iff, Deck.session] using active
  have phase : Deck.phase { d with held := true } = .holding :=
    phase_eq_holding_iff.mpr ⟨running, rfl⟩
  refine ⟨?_, fun stopped => Bool.noConfusion (running.symm.trans stopped)⟩
  show _ = ({ d.session with phase := .holding, timetable := _ }.cue .pauseMusic).emit .held
  rw [← phase]
  rfl

theorem typed (typewriter : Typewriter) :
    ({ d with typewriter := typewriter } : Deck).Shows { s with typewriter := typewriter } := by
  obtain ⟨rfl, off⟩ := shows
  exact ⟨rfl, off⟩

theorem enterDialogue (id : NodeId) :
    ((Deck.enterDialogue id).run d).2.Shows (s.enterDialogue id) := by
  have graph : s.graph = d.graph := shows.session ▸ rfl
  unfold Session.enterDialogue Deck.enterDialogue
  rw [run_get, graph]
  cases d.graph.dialogue? id with
  | none => exact shows.finish
  | some n =>
    have entered := shows.emit (.nodeEntered id)
    obtain ⟨rfl, -⟩ := shows
    cases keeps : n.settings.keepPreviousText with
    | false =>
      simp only [keeps]
      exact ((entered.typed .empty).emit .textCleared).schedule _ _
    | true =>
      simp only [keeps]
      exact entered.schedule _ _

/-- While nobody holds the deck, what it awaits is what the session awaits. -/
theorem switches (active : s.phase = .running ∨ s.phase = .awaiting) :
    d.running = true ∧ d.held = false ∧ (d.awaiting = true ↔ s.phase = .awaiting) := by
  obtain ⟨rfl, -⟩ := shows
  rcases active with running | awaiting
  · have on := phase_eq_running_iff.mp running
    have free : d.session.phase ≠ .awaiting := by simp [running]
    exact ⟨on.1, on.2.1, by simp [on.2.2, free]⟩
  · have on := phase_eq_awaiting_iff.mp awaiting
    exact ⟨on.1, on.2.1, by simp [on.2.2, awaiting]⟩

theorem currentDialogue? : d.currentDialogue? = s.currentDialogue? :=
  d.currentDialogue?_eq.trans (congrArg _ shows.session)

theorem acceptsPlayerInput : d.acceptsPlayerInput = s.acceptsPlayerInput := by
  obtain ⟨rfl, -⟩ := shows
  rw [Bool.eq_iff_iff]
  simp [Deck.acceptsPlayerInput, Session.acceptsPlayerInput, Deck.session, phase_eq_running_iff,
    and_assoc]

theorem land (active : s.phase ≠ .idle) (landing : Landing) :
    ((Deck.land landing).run { d with traveller := ⟨landing.position⟩ }).2.Shows
      (s.land landing) := by
  have moved : ({ d with traveller := ⟨landing.position⟩ } : Deck).Shows
      { s with position := landing.position } := by
    obtain ⟨rfl, off⟩ := shows
    exact ⟨rfl, off⟩
  cases landing with
  | ended => exact moved.finish
  | dialogue id => exact moved.enterDialogue id
  | hold id => exact (moved.emit (.nodeEntered id)).hold active
  | stalled id => exact moved.emit (.stalled id)

theorem proceed (active : s.phase ≠ .idle) : (Deck.proceed.run d).2.Shows s.proceed := by
  have left := shows.leaveNode
  have still : s.leaveNode.phase ≠ .idle := by
    unfold Session.leaveNode
    split
    · nofun
    · exact active
  have arrives := left.land still (s.leaveNode.graph.proceed s.leaveNode.store s.leaveNode.position)
  show ((Deck.land ((move Traveller.proceed).run (Deck.leaveNode.run d).2).1).run
    ((move Traveller.proceed).run (Deck.leaveNode.run d).2).2).2.Shows _
  rw [run_move (Traveller.run_proceed _ _ _)]
  obtain ⟨rfl, -⟩ := shows
  exact arrives

theorem goNext (active : s.phase ≠ .idle) : (Deck.goNext.run d).2.Shows s.goNext :=
  (shows.emit _).proceed active

theorem follow (active : s.phase ≠ .idle) (index : Nat) :
    ((Deck.follow index).run d).2.Shows
      (match s.graph.follow? s.store s.position index with
      | some landing => s.land landing
      | none => s) := by
  have lands := shows.land active
  unfold Deck.follow
  rw [run_bind, run_move (Traveller.run_choose? _ _ _ index)]
  obtain ⟨rfl, off⟩ := shows
  simp only [Deck.session]
  cases d.graph.follow? d.store d.traveller.current index with
  | none => exact ⟨rfl, off⟩
  | some landing => exact lands landing

theorem completeText (active : s.phase = .running ∨ s.phase = .awaiting) :
    (Deck.completeText.run d).2.Shows s.completeText := by
  have waits := (shows.switches active).2.2
  have stopped := shows.cancel .reveal
  have here : ((Deck.cancel .reveal).run d).2.currentDialogue? = s.currentDialogue? :=
    stopped.currentDialogue?
  unfold Deck.completeText
  rw [run_bind, run_get, here]
  cases current : s.currentDialogue? with
  | none =>
    rw [Session.completeText_of_none current]
    exact stopped
  | some n =>
    rw [Session.completeText_eq current]
    have told := stopped.emit (.textCompleted n.id s.visibleText)
    have waiting : d.awaiting = true ∨ ¬n.choices.isEmpty = true ↔
        s.phase = .awaiting ∨ n.choices ≠ [] := by
      rw [waits, List.isEmpty_iff]
    have idle := Phase.ne_idle active
    obtain ⟨rfl, -⟩ := shows
    refine ite waiting (fun _ => told) fun _ => ite Iff.rfl (fun _ => ?_) fun _ => ?_
    · exact ite Iff.rfl (fun _ => told.goNext idle) fun _ => told.schedule _ _
    · exact ite (or_congr (by rw [Bool.not_eq_true]) Iff.rfl) (fun _ => told.goNext idle)
        fun _ => told

theorem adoptSpeed : (Deck.adoptSpeed.run d).2.Shows s.adoptSpeed := by
  have here := shows.currentDialogue?
  obtain ⟨rfl, off⟩ := shows
  have store : d.session.store = d.store := rfl
  unfold Session.adoptSpeed Deck.adoptSpeed
  rw [run_get, here, store]
  cases d.session.currentDialogue?.bind fun n =>
      n.settings.printSpeed.resolveActive d.store with
  | none => exact ⟨rfl, off⟩
  | some speed => exact ⟨rfl, off⟩

theorem planReveal : (StateT.run (do
      let interval ← Deck.revealInterval
      Deck.schedule .reveal interval : Action Unit) d).2.Shows
    (s.adoptSpeed.schedule .reveal s.adoptSpeed.revealInterval) := by
  have paced := shows.adoptSpeed
  have interval : (Deck.revealInterval.run d).1 = s.adoptSpeed.revealInterval := by
    rw [← paced.session]
    rfl
  have planned := paced.schedule .reveal s.adoptSpeed.revealInterval
  rw [← interval] at planned ⊢
  exact planned

theorem revealStep (active : s.phase = .running ∨ s.phase = .awaiting) :
    (Deck.revealStep.run d).2.Shows s.revealStep := by
  unfold Deck.revealStep
  rw [run_bind]
  cases step : s.typewriter.step with
  | mk stroke t =>
    have typed := shows.typed t
    obtain ⟨rfl, -⟩ := shows
    have types : Deck.type.run d = (stroke, { d with typewriter := t }) := by
      show (d.typewriter.step.1, { d with typewriter := d.typewriter.step.2 }) = _
      rw [show d.typewriter.step = (stroke, t) from step]
    rw [types, Session.revealStep, step]
    cases stroke with
    | finished => exact typed.completeText active
    | revealed c =>
      have shown := typed.emit (.textRevealed t.shown)
      exact shown.planReveal

theorem offering (choices : List Offer) :
    ({ d with choices := choices } : Deck).Shows { s with choices := choices } := by
  obtain ⟨rfl, off⟩ := shows
  exact ⟨rfl, off⟩

theorem feed (text : List Char) :
    ({ d with typewriter := d.typewriter.feed text } : Deck).Shows
      { s with typewriter := s.typewriter.feed text } := by
  obtain ⟨rfl, off⟩ := shows
  exact ⟨rfl, off⟩

theorem awaits (active : s.phase = .running ∨ s.phase = .awaiting) (awaiting : Bool) :
    ({ d with awaiting := awaiting } : Deck).Shows
      { s with phase := if awaiting then .awaiting else .running } := by
  obtain ⟨running, free, -⟩ := shows.switches active
  obtain ⟨rfl, -⟩ := shows
  have phase : Deck.phase { d with awaiting := awaiting } =
      if awaiting then .awaiting else .running := by
    simp [Deck.phase, running, free]
  rw [← phase]
  exact ⟨rfl, fun stopped => Bool.noConfusion (running.symm.trans stopped)⟩

theorem releases (held : s.phase = .holding) :
    ({ d with held := false } : Deck).Shows
      { s with phase := if d.awaiting then .awaiting else .running } := by
  obtain ⟨rfl, -⟩ := shows
  obtain ⟨running, -⟩ := phase_eq_holding_iff.mp held
  have phase : Deck.phase { d with held := false } =
      if d.awaiting then .awaiting else .running := by
    simp [Deck.phase, running]
  rw [← phase]
  exact ⟨rfl, fun stopped => Bool.noConfusion (running.symm.trans stopped)⟩

theorem setUp (active : s.phase = .running ∨ s.phase = .awaiting) :
    (Deck.setUp.run d).2.Shows s.setUp := by
  have stopped := shows.cancel .nodeDelay
  have here : ((Deck.cancel .nodeDelay).run d).2.currentDialogue? = s.currentDialogue? :=
    stopped.currentDialogue?
  unfold Deck.setUp
  rw [run_bind, run_get, here]
  cases current : s.currentDialogue? with
  | none =>
    rw [Session.setUp_of_none current]
    exact stopped
  | some n =>
    rw [Session.setUp_eq current]
    have announced := (stopped.awaits active n.settings.awaitContinue).emitAll
      ((Session.cuesBefore s.store n.settings).map Event.cue)
    have shown := (announced.offering (s.frame n).choices).emit (.dialogueShown (s.frame n))
    have cued := shown.emitAll ((Session.cuesAfter s.store n.settings).map Event.cue)
    have fed := cued.feed (s.frame n).text
    -- The session puts out at once what the deck puts out piece by piece.
    have appended (events : Array Event) (es fs : List Event) (e : Event) :
        (events ++ es.toArray).push e ++ fs.toArray = events ++ (es ++ e :: fs).toArray := by
      simp
    simp only [Session.emitAll_eq, Session.emit, appended] at fed
    have told := revealStep (s := s.opened n) fed n.phase_cases
    obtain ⟨rfl, -⟩ := shows
    exact told

theorem finishReveal (active : s.phase = .running ∨ s.phase = .awaiting) :
    (Deck.finishReveal.run d).2.Shows s.finishReveal := by
  have shown := (shows.cancel .reveal).typed s.typewriter.showAll
  obtain ⟨rfl, -⟩ := shows
  exact shown.completeText active

theorem pushFastForward : (Deck.pushFastForward.run d).2.Shows s.pushFastForward := by
  have here := shows.currentDialogue?
  have accepts := shows.acceptsPlayerInput
  unfold Session.pushFastForward Deck.pushFastForward
  rw [run_get, here, accepts]
  -- The deck asks for input first and for the node then, the session for both at once.
  cases s.currentDialogue? with
  | none =>
    by_cases accepted : s.acceptsPlayerInput = true
    · rw [if_pos accepted]
      exact shows
    · rw [if_neg accepted]
      exact shows
  | some n =>
    by_cases accepted : s.acceptsPlayerInput = true
    · have running : s.phase = .running := by
        simpa [Session.acceptsPlayerInput] using accepted
      have setUp := shows.setUp (.inl running)
      have goNext := shows.goNext (Phase.ne_idle (.inl running))
      obtain ⟨rfl, off⟩ := shows
      rw [if_pos accepted]
      refine ite (by simp [accepted]) (fun _ => ⟨rfl, off⟩) fun _ => ?_
      refine ite Iff.rfl (fun _ => ?_) fun _ => ?_
      · exact ite Iff.rfl (fun _ => setUp) fun _ => ⟨rfl, off⟩
      · exact ite Iff.rfl (fun _ => goNext) fun _ => ⟨rfl, off⟩
    · simp only
      rw [if_neg accepted, if_pos (.inl accepted)]
      exact shows

theorem start : (Deck.start.run d).2.Shows s.start := by
  have fresh := shows.reset true
  obtain ⟨rfl, -⟩ := shows
  have seeded : ({ ((Deck.reset true).run d).2 with store := .seed d.graph.declarations } :
      Deck).Shows { d.session.reset .running with store := .seed d.graph.declarations } :=
    ⟨rfl, nofun⟩
  have left := (seeded.emit .sessionStarted).leaveNode
  have running : d.session.begun.phase ≠ .idle := nofun
  have arrives := left.land running (d.graph.travel (.seed d.graph.declarations) d.graph.entry)
  show ((Deck.land ((move fun graph store => Traveller.goTo graph store d.graph.entry).run _).1).run
    ((move fun graph store => Traveller.goTo graph store d.graph.entry).run _).2).2.Shows _
  rw [run_move (Traveller.run_goTo _ _ _ d.graph.entry)]
  exact arrives

theorem runTask (active : s.phase = .running ∨ s.phase = .awaiting) (kind : TaskKind) :
    ((Deck.runTask kind).run d).2.Shows (s.runTask kind) := by
  cases kind with
  | nodeDelay => exact shows.setUp active
  | reveal => exact shows.revealStep active
  | autoAdvance => exact shows.goNext (Phase.ne_idle active)

theorem keep (timetable : Timetable) :
    ({ d with timetable := timetable } : Deck).Shows { s with timetable := timetable } := by
  obtain ⟨rfl, off⟩ := shows
  exact ⟨rfl, off⟩

theorem runDue (here : Situation .resting s) (limit : Duration) (budget : Nat) :
    ((Deck.runDue limit budget).run d).2.Shows (Session.runDue budget limit s) := by
  induction budget generalizing d s with
  | zero => exact shows
  | succ budget ih =>
    have plans : s.timetable = d.timetable := shows.session ▸ rfl
    unfold Session.runDue Deck.runDue
    rw [run_get, plans]
    cases taken : d.timetable.take? limit with
    | none => exact shows
    | some due =>
      obtain ⟨kind, rest⟩ := due
      rw [← plans] at taken
      -- What is due is due to a deck that is on: one that is off has no tasks.
      obtain ⟨es, course⟩ := Session.runTask_course here taken
      exact ih ((shows.keep rest).runTask (here.active_of_due taken) kind) (course.situation here)

theorem tick (here : Situation .resting s) (dt : Duration) :
    ((Deck.tick dt).run d).2.Shows (s.tick dt) := by
  have ran := shows.runDue here (d.timetable.now + dt) (max 1 d.pacing.maxTasksPerTick)
  obtain ⟨rfl, -⟩ := shows
  have settled {e : Deck} {t : Session} (shows : e.Shows t) (limit : Duration) :
      ({ e with timetable := e.timetable.settle limit } : Deck).Shows
        { t with timetable := t.timetable.settle limit } := by
    obtain ⟨rfl, off⟩ := shows
    exact ⟨rfl, off⟩
  exact settled ran _

theorem setFastForward (on : Bool) :
    ((Deck.setFastForward on).run d).2.Shows (s.setFastForward on) := by
  obtain ⟨rfl, off⟩ := shows
  cases on with
  | false => exact ⟨rfl, off⟩
  | true =>
    exact pushFastForward (d := { d with fastForward := true, autoAdvance := false }) ⟨rfl, off⟩

theorem setAutoAdvance (on : Bool) :
    ((Deck.setAutoAdvance on).run d).2.Shows (s.setAutoAdvance on) := by
  obtain ⟨rfl, off⟩ := shows
  cases on with
  | false => exact ⟨rfl, off⟩
  | true => exact ⟨rfl, off⟩

end
end Shows

end Deck
end Parley
