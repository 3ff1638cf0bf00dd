import Parley.Proofs.Session.Deck

/-! The requests that a deck takes. A deck that refuses one is left as it was, whatever its switches
say, and where it accepts one the session accepts it too; so a run on a deck answers as the run on
its session does, and a deck that is off stays neither held nor awaiting anything. -/
namespace Parley.Deck

/-- A request is accepted and leads to a session, or it is refused and the deck is as it was. -/
inductive Answers (d : Deck) : Bool × Deck → Option Session → Prop
  | accepted (shows : e.Shows t) : Answers d (true, e) (some t)
  | refused : Answers d (false, d) none

variable {d : Deck} {s : Session}

namespace Answers

theorem unchanged {answer : Bool × Deck} (answers : Answers d answer next?)
    (refused : answer.1 = false) : answer.2 = d := by
  cases answers with
  | accepted => cases refused
  | refused => rfl

theorem ite {x y : Action Bool} {t? u? : Option Session} [Decidable p] [Decidable q]
    (same : p ↔ q) (yes : q → Answers d (x.run d) t?) (no : ¬q → Answers d (y.run d) u?) :
    Answers d ((if p then x else y).run d) (if q then t? else u?) := by
  by_cases holds : q
  · rw [if_pos holds, if_pos (same.mpr holds)]
    exact yes holds
  · rw [if_neg holds, if_neg fun here => holds (same.mp here)]
    exact no holds

section

variable (shows : d.Shows s)
include shows

/-- Where nobody is to be disturbed. -/
theorem barred_iff :
    ¬d.running = true ∨ d.held = true ↔ s.phase = .idle ∨ s.phase = .holding := by
  have idle : s.phase = .idle ↔ d.running = false := shows.session ▸ phase_eq_idle_iff
  have holding : s.phase = .holding ↔ d.running = true ∧ d.held = true :=
    shows.session ▸ phase_eq_holding_iff
  rw [idle, holding, Bool.not_eq_true]
  cases d.running with
  | false => simp
  | true => simp

theorem interrupt : Answers d (Deck.interrupt.run d) s.interrupt? := by
  refine ite (barred_iff shows) (fun _ => .refused) fun free => .accepted ?_
  exact shows.hold fun idle => free (.inl idle)

theorem continue_ : Answers d (Deck.continue_.run d) s.continue? := by
  refine ite (barred_iff shows) (fun _ => .refused) fun free => .accepted ?_
  have active : s.phase = .running ∨ s.phase = .awaiting := by
    cases phase : s.phase <;> simp_all
  -- Leaving the node clears the switch that was cleared before.
  have gone := (shows.awaits active false).goNext nofun
  have same : { s with phase := .running }.goNext = s.goNext :=
    Session.proceed_of_active (s := s.cue .stopSounds) active
  exact same ▸ gone

theorem resume : Answers d (Deck.resume.run d) s.resume? := by
  have holding : s.phase = .holding ↔ d.running = true ∧ d.held = true :=
    shows.session ▸ phase_eq_holding_iff
  have free : ¬d.held = true ↔ ¬s.phase = .holding := by
    have off := shows.off
    rw [holding]
    cases running : d.running <;> simp_all
  -- Only one switch is looked at, and a deck that is off does not have it on.
  unfold Session.resume?
  rw [← ite_not]
  refine ite free (fun _ => .refused) fun held => .accepted ?_
  have held := Decidable.not_not.mp held
  have released := (shows.releases held).emit .resumed
  have active : (if d.awaiting then Phase.awaiting else .running) = .running ∨
      (if d.awaiting then Phase.awaiting else .running) = .awaiting := by
    split
    · exact .inr rfl
    · exact .inl rfl
  have gone := released.proceed (Phase.ne_idle active)
  rw [← Session.proceed_of_active active] at gone
  exact gone.emit (.cue .resumeMusic)

theorem refuses_iff : ¬d.acceptsPlayerInput = true ↔ ¬s.acceptsPlayerInput = true := by
  rw [shows.acceptsPlayerInput]

theorem escape : Answers d (Deck.escape.run d) s.escape? := by
  have allows : s.allowEscape = d.allowEscape := shows.session ▸ rfl
  unfold Session.escape?
  rw [← ite_not, allows]
  refine ite ?_ (fun _ => .refused) fun free => .accepted shows.finish
  rw [refuses_iff shows, Decidable.not_and_iff_not_or_not]

theorem skip : Answers d (Deck.skip.run d) s.skip? := by
  have types : s.isTyping = d.isTyping := shows.session ▸ rfl
  unfold Session.skip?
  rw [← ite_not, types]
  refine ite ?_ (fun _ => .refused) fun typing => .accepted ?_
  · rw [refuses_iff shows, Decidable.not_and_iff_not_or_not]
  · have running : s.phase = .running := by
      simpa [Session.acceptsPlayerInput] using (Decidable.not_not.mp typing).1
    exact shows.finishReveal (.inl running)

theorem advance : Answers d (Deck.advance.run d) s.advance? := by
  have here := shows.currentDialogue?
  refine ite (refuses_iff shows) (fun _ => .refused) fun accepts => ?_
  have running : s.phase = .running := by
    simpa [Session.acceptsPlayerInput] using accepts
  rw [here]
  cases s.currentDialogue? with
  | none => exact .refused
  | some n =>
    have finishReveal := shows.finishReveal (.inl running)
    have setUp := shows.setUp (.inl running)
    have goNext := shows.goNext (Phase.ne_idle (.inl running))
    obtain ⟨rfl, -⟩ := shows
    refine ite Iff.rfl (fun _ => .refused) fun _ => ?_
    refine ite Iff.rfl (fun _ => .accepted finishReveal) fun _ => ?_
    refine ite Iff.rfl (fun _ => .accepted setUp) fun _ => ?_
    exact ite Iff.rfl (fun _ => .accepted goNext) fun _ => .refused

theorem choose (index : Nat) : Answers d ((Deck.choose index).run d) (s.choose? index) := by
  refine ite (refuses_iff shows) (fun _ => .refused) fun accepts => ?_
  have running : s.phase = .running := by
    simpa [Session.acceptsPlayerInput] using accepts
  have offers : s.choices = d.choices := shows.session ▸ rfl
  rw [offers]
  cases d.choices[index]? with
  | none => exact .refused
  | some offer =>
    refine ite Iff.rfl (fun _ => .refused) fun _ => ?_
    have active : (s.emit (.choiceSelected index offer.next)).leaveNode.phase ≠ .idle := by
      simp [Session.leaveNode, Session.emit, running]
    exact .accepted ((shows.emit (.choiceSelected index offer.next)).leaveNode.follow active index)

theorem take (i : Input) : Answers d ((Deck.take i).run d) (s.respond? i) := by
  cases i with
  | advance => exact advance shows
  | choose index => exact choose shows index
  | skip => exact skip shows
  | interrupt => exact interrupt shows
  | resume => exact resume shows
  | proceed => exact continue_ shows
  | escape => exact escape shows

end
end Answers

/-- The answer to a write and the deck behind it, by what the store makes of it. -/
def wrote (d : Deck) : Option Store → Bool × Deck
  | some store => (true, { d with store := store })
  | none => (false, d)

theorem run_setVariable [Storable α] (d : Deck) (name : String) (x : α) :
    (Deck.setVariable name x).run d = d.wrote (d.store.set? name x) := by
  unfold Deck.setVariable Store.set? Store.write? Store.kind?
  rw [run_get]
  cases d.store.value? name with
  | none =>
    cases Storable.toValue? x with
    | none => rfl
    | some new => rfl
  | some old =>
    cases Storable.toValue? x with
    | none => rfl
    | some new =>
      simp only [Option.bind_some, Option.map_some]
      by_cases same : new.kind = old.kind
      · rw [if_pos same, if_pos (congrArg some same.symm)]
        rfl
      · rw [if_neg same, if_neg fun other => same (Option.some.inj other).symm]
        rfl

theorem run_write (d : Deck) (name : String) (value : Value) :
    (Deck.write name value).run d = d.wrote (d.store.write? name value) := by
  cases value with
  | bool b => exact d.run_setVariable name b
  | int i => exact d.run_setVariable name i
  | float x => exact d.run_setVariable name x
  | string text => exact d.run_setVariable name text

theorem Answers.write (shows : d.Shows s) (name : String) (value : Value) :
    Answers d ((Deck.write name value).run d) (s.write? name value) := by
  obtain ⟨rfl, off⟩ := shows
  rw [run_write]
  show Answers d _ ((d.store.write? name value).map _)
  cases d.store.write? name value with
  | none => exact .refused
  | some store => exact .accepted ⟨rfl, off⟩

/-- What was done on a deck is told to the host, and the deck shows the session behind it. -/
structure Follows (done : Reply × Deck) (told : Reply × Session) : Prop where
  reply : done.1 = told.1
  shows : done.2.Shows told.2

theorem Answers.follows {answer : Bool × Deck} (answers : Answers d answer next?)
    (shows : d.Shows s) : Follows (.accepted answer.1, answer.2) (s.answer next?) := by
  cases answers with
  | accepted later => exact ⟨rfl, later⟩
  | refused => exact ⟨rfl, shows⟩

theorem Shows.perform (shows : d.Shows s) (here : Situation .resting s) (op : Operation) :
    Follows ((Deck.perform op).run d) (s.perform op) := by
  cases op with
  | start => exact ⟨rfl, shows.start⟩
  | finish => exact ⟨rfl, shows.finish⟩
  | tick dt => exact ⟨rfl, shows.tick here dt⟩
  | setFastForward on => exact ⟨rfl, shows.setFastForward on⟩
  | setAutoAdvance on => exact ⟨rfl, shows.setAutoAdvance on⟩
  | input i => exact (Answers.take shows i).follows shows
  | write name value => exact (Answers.write shows name value).follows shows
  | poll =>
    obtain ⟨rfl, off⟩ := shows
    exact ⟨rfl, rfl, off⟩
  | drain =>
    obtain ⟨rfl, off⟩ := shows
    exact ⟨rfl, rfl, off⟩

theorem Shows.performAll (shows : d.Shows s) (here : Situation .resting s)
    (ops : List Operation) :
    ((Deck.performAll ops).run d).1 = (s.performAll ops).1 ∧
      ((Deck.performAll ops).run d).2.Shows (s.performAll ops).2 := by
  induction ops generalizing d s with
  | nil => exact ⟨rfl, shows⟩
  | cons op ops ih =>
    have performed := shows.perform here op
    have later := ih performed.shows (Session.perform_situation here op)
    exact ⟨congr (congrArg List.cons performed.reply) later.1, later.2⟩

/-- The deck behind a run. -/
def after (d : Deck) (ops : List Operation) : Deck := ((Deck.performAll ops).run d).2

theorem shows_ofGraph (graph : Graph) (pacing : Pacing) :
    (Deck.ofGraph graph pacing).Shows (.ofGraph graph pacing) :=
  ⟨rfl, fun _ => ⟨rfl, rfl⟩⟩

theorem shows_after (graph : Graph) (pacing : Pacing) (ops : List Operation) :
    ((Deck.ofGraph graph pacing).after ops).Shows ((Session.ofGraph graph pacing).after ops) :=
  ((shows_ofGraph graph pacing).performAll (situation_ofGraph graph pacing) ops).2

end Parley.Deck
