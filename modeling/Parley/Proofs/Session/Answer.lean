import Parley.Proofs.Session.Request
import Parley.Proofs.Session.Skipping

/-! How a deck takes the requests of its player. A refused request changes nothing, not even a
switch that no phase shows; an accepted one is told of in the stream; and the phase decides about
those requests that do not depend on what is on display. -/
namespace Parley

namespace Session

variable {s t : Session}

theorem perform_input (s : Session) (i : Input) :
    (∃ t, s.respond? i = some t ∧ s.perform (.input i) = (.accepted true, t)) ∨
      s.respond? i = none ∧ s.perform (.input i) = (.accepted false, s) := by
  cases responds : s.respond? i with
  | none => exact .inr ⟨rfl, by simp only [perform, responds, answer]⟩
  | some t => exact .inl ⟨t, rfl, by simp only [perform, responds, answer]⟩

section Verdicts

variable (i : Input)

theorem respond?_of_idle (idle : s.phase = .idle) : s.respond? i = none := by
  cases i <;> simp [respond?, advance?, choose?, skip?, interrupt?, resume?, continue?, escape?,
    acceptsPlayerInput, idle]

theorem respond?_of_holding (held : s.phase = .holding) :
    (s.respond? i).isSome = true ↔ i = .resume := by
  cases i <;> simp [respond?, advance?, choose?, skip?, interrupt?, resume?, continue?, escape?,
    acceptsPlayerInput, held]

theorem respond?_of_awaiting (awaiting : s.phase = .awaiting) :
    (s.respond? i).isSome = true ↔ i = .interrupt ∨ i = .proceed := by
  cases i <;> simp [respond?, advance?, choose?, skip?, interrupt?, resume?, continue?, escape?,
    acceptsPlayerInput, awaiting]

theorem respond?_of_running (running : s.phase = .running) :
    (i = .interrupt ∨ i = .proceed → (s.respond? i).isSome = true) ∧
      (i = .resume → s.respond? i = none) := by
  constructor
  · rintro (rfl | rfl)
    · simp [respond?, interrupt?, running]
    · simp [respond?, continue?, running]
  · rintro rfl
    simp [respond?, resume?, running]

end Verdicts

/-- There are events in the later session that the earlier one does not have. -/
def Tells (s t : Session) : Prop := ∃ es, es ≠ [] ∧ t.events.toList = s.events.toList ++ es

theorem tells_of_legs (first : Leg a s es b t) (loud : es ≠ []) (rest : Course b t fs c u) :
    s.Tells u := by
  refine ⟨es ++ fs, ?_, (Course.next first rest).events⟩
  intro silent
  exact loud (List.append_eq_nil_iff.mp silent).1

theorem goNext_tells (here : Situation .resting s)
    (active : s.phase = .running ∨ s.phase = .awaiting) : s.Tells s.goNext := by
  have leg := Leg.depart active
  obtain ⟨es, rest⟩ := proceed_course (s := s.cue .stopSounds) (leg.situation here)
  exact tells_of_legs leg (by simp) rest

theorem setUp_tells (here : Situation .resting s) (delaying : s.isDelaying = true) :
    s.Tells s.setUp := by
  obtain ⟨d, due, -, current, -⟩ := here.of_delaying delaying
  have leg := Leg.setUp delaying current
  obtain ⟨es, rest⟩ := revealStep_course (leg.situation here)
  rw [setUp_eq current]
  exact tells_of_legs leg (by simp [openingEvents]) rest

theorem finishReveal_tells (here : Situation .resting s) (typing : s.isTyping = true) :
    s.Tells s.finishReveal := by
  obtain ⟨d, due, store, -, current, -⟩ := here.of_typing typing
  obtain ⟨new, appended, e, listed, -⟩ := completeText_tells
    (s := { s.cancel .reveal with typewriter := s.typewriter.showAll }) current
  refine ⟨new.toList, List.ne_nil_of_mem listed, ?_⟩
  rw [finishReveal, appended, Array.toList_append]
  rfl

theorem respond?_tells (here : Situation .resting s) (accepted : s.respond? i = some t) :
    s.Tells t := by
  cases response_of_respond? here accepted with
  | reveal typing => exact finishReveal_tells here typing
  | cut delaying => exact setUp_tells here delaying
  | go active => exact goNext_tells here active
  | choose running current offered enabled visible written =>
    have leg := Leg.choose running current offered enabled visible written
    obtain ⟨es, rest⟩ := land_course (leg.situation here)
    exact tells_of_legs leg (by simp) rest
  | hold active => exact tells_of_legs (.hold active) (by simp) .refl
  | resume held =>
    have leg := Leg.resume held
    obtain ⟨es, rest⟩ := land_course (leg.situation here)
    exact tells_of_legs leg (by simp) (rest.trans (.single .resumeMusic))
  | finish active => exact tells_of_legs (.finish active) (by simp) .refl

end Session

namespace Deck

/-- How a deck takes a request: the answer, and the deck behind it. -/
structure Takes (d : Deck) (i : Input) (answer : Bool × Deck) : Prop where
  refused : answer.1 = false → answer.2 = d
  told : answer.1 = true → ∃ es, es ≠ [] ∧ answer.2.events.toList = d.events.toList ++ es
  idle : d.phase = .idle → answer.1 = false
  holding : d.phase = .holding → (answer.1 = true ↔ i = .resume)
  awaiting : d.phase = .awaiting → (answer.1 = true ↔ i = .interrupt ∨ i = .proceed)
  running : d.phase = .running → (i = .interrupt ∨ i = .proceed → answer.1 = true) ∧
    (i = .resume → answer.1 = false)

variable {d : Deck} {s : Session}

/-- The verdict on a request is the one that the session on the deck gives. -/
theorem Answers.verdict {answer : Bool × Deck} (answers : Answers d answer next?) :
    answer.1 = true ↔ next?.isSome = true := by
  cases answers with
  | accepted => exact ⟨fun _ => rfl, fun _ => rfl⟩
  | refused => exact ⟨nofun, nofun⟩

theorem Answers.told {answer : Bool × Deck} (answers : Answers d answer next?)
    (tells : ∀ t, next? = some t → d.session.Tells t) (accepted : answer.1 = true) :
    ∃ es, es ≠ [] ∧ answer.2.events.toList = d.events.toList ++ es := by
  cases answers with
  | accepted shows =>
    obtain ⟨es, loud, appended⟩ := tells _ rfl
    rw [← shows.session] at appended
    exact ⟨es, loud, appended⟩
  | refused => cases accepted

theorem takes_of_shows (shows : d.Shows s) (here : Situation .resting s) (i : Input) :
    d.Takes i ((Deck.take i).run d) := by
  have answers := Answers.take shows i
  obtain ⟨rfl, -⟩ := shows
  have verdict := answers.verdict
  refine ⟨answers.unchanged, answers.told fun t accepted => Session.respond?_tells here accepted,
    ?idle, ?holding, ?awaiting, ?running⟩
  case idle =>
    intro idle
    rw [← Bool.not_eq_true, verdict, Session.respond?_of_idle i idle]
    nofun
  case holding =>
    intro held
    exact verdict.trans (Session.respond?_of_holding i held)
  case awaiting =>
    intro awaiting
    exact verdict.trans (Session.respond?_of_awaiting i awaiting)
  case running =>
    intro running
    obtain ⟨accepts, refuses⟩ := Session.respond?_of_running (s := d.session) i running
    refine ⟨fun wanted => verdict.mpr (accepts wanted), fun resumes => ?_⟩
    rw [← Bool.not_eq_true, verdict, refuses resumes]
    nofun

end Deck

/-- After every run, each request is either refused and leaves the whole deck as it was, or it is
accepted and told of. -/
theorem takes_after (graph : Graph) (pacing : Pacing) (ops : List Operation) (i : Input) :
    let d := (Deck.ofGraph graph pacing).after ops
    d.Takes i ((Deck.take i).run d) :=
  Deck.takes_of_shows (Deck.shows_after graph pacing ops) (situation_after graph pacing ops) i

end Parley
