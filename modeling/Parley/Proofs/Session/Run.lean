import Parley.Proofs.Session.Course

/-! Runs: any operations in any order, from any situation at rest. What every leg keeps is kept by
every run, together with the stream of all events emitted so far. -/
namespace Parley

/-- The events that an answer hands over. -/
def Reply.fetched : Reply → List Event
  | .events es => es
  | _ => []

/-- Whether events are handed over. -/
def Operation.fetches : Operation → Bool
  | poll | drain => true
  | _ => false

namespace Session

/-- All events of a run, in the order in which they were emitted: those that the host has fetched,
and those that it has not. -/
def stream (s : Session) (ops : List Operation) : List Event :=
  (s.performAll ops).1.flatMap Reply.fetched ++ (s.performAll ops).2.events.toList

/-- The session after a run. -/
def after (s : Session) (ops : List Operation) : Session := (s.performAll ops).2

@[simp] theorem after_nil (s : Session) : s.after [] = s := rfl

@[simp] theorem after_cons (s : Session) (op : Operation) (ops : List Operation) :
    s.after (op :: ops) = (s.perform op).2.after ops := rfl

@[simp] theorem stream_nil (s : Session) : s.stream [] = s.events.toList := rfl

theorem stream_cons (s : Session) (op : Operation) (ops : List Operation) :
    s.stream (op :: ops) = (s.perform op).1.fetched ++ (s.perform op).2.stream ops := by
  simp [stream, performAll]

theorem poll_toList (s : Session) : s.poll.1.toList ++ s.poll.2.events.toList = s.events.toList := by
  unfold poll
  cases s.events with
  | mk events => cases events <;> simp

/-- What an operation fetches is a matter of the events that wait. -/
theorem perform_fetch (s : Session) (fetches : op.fetches = true) :
    ∃ got rest, got ++ Array.toList rest = s.events.toList ∧ ∀ t : Session, t.events = s.events →
      t.perform op = (.events got, { t with events := rest }) := by
  cases op with
  | poll =>
    refine ⟨s.poll.1.toList, s.poll.2.events, s.poll_toList, fun t same => ?_⟩
    simp only [perform, poll, same]
  | drain =>
    refine ⟨s.events.toList, #[], List.append_nil _, fun t same => ?_⟩
    simp only [perform, drain, same]
  | _ => cases fetches

/-- An operation that fetches nothing answers with a verdict alone. -/
theorem fetched_of_keeps (s : Session) (keeps : op.fetches = false) :
    (s.perform op).1.fetched = [] := by
  have answered (next? : Option Session) : (s.answer next?).1.fetched = [] := by
    cases next? with
    | none => rfl
    | some next => rfl
  cases op with
  | input i => exact answered _
  | write name value => exact answered _
  | poll | drain => cases keeps
  | _ => rfl

theorem after_append (s : Session) (ops more : List Operation) :
    s.after (ops ++ more) = (s.after ops).after more := by
  induction ops generalizing s with
  | nil => rfl
  | cons op ops ih => exact ih _

/-- A run that goes on has fetched what it had fetched before. -/
theorem exists_stream (s : Session) (ops : List Operation) :
    ∃ past, s.stream ops = past ++ (s.after ops).events.toList ∧
      ∀ more, s.stream (ops ++ more) = past ++ (s.after ops).stream more := by
  induction ops generalizing s with
  | nil => exact ⟨[], rfl, fun _ => rfl⟩
  | cons op ops ih =>
    obtain ⟨past, now, later⟩ := ih (s.perform op).2
    refine ⟨(s.perform op).1.fetched ++ past, ?_, fun more => ?_⟩
    · rw [stream_cons, now, List.append_assoc, after_cons]
    · rw [List.cons_append, stream_cons, later, List.append_assoc, after_cons]

/-- Operations that fetch nothing leave their events to be fetched later. -/
theorem stream_append (s : Session) (keeps : ∀ op ∈ calls, op.fetches = false)
    (ops : List Operation) : s.stream (calls ++ ops) = (s.after calls).stream ops := by
  induction calls generalizing s with
  | nil => rfl
  | cons op calls ih =>
    have silent := fetched_of_keeps s (keeps op List.mem_cons_self)
    rw [List.cons_append, stream_cons, silent, after_cons, List.nil_append]
    exact ih _ fun op listed => keeps op (List.mem_cons_of_mem _ listed)

/-- An operation is a course of legs, or it only fetches events. -/
theorem perform_course {s : Session} (here : Situation .resting s) (op : Operation) :
    (∃ es, Course .resting s es .resting (s.perform op).2 ∧ (s.perform op).1.fetched = []) ∨
      ∃ rest, (s.perform op).2 = { s with events := rest } ∧
        (s.perform op).1.fetched ++ rest.toList = s.events.toList := by
  have answered {next? : Option Session}
      (course : ∀ t, next? = some t → ∃ es, Course .resting s es .resting t) :
      ∃ es, Course .resting s es .resting (s.answer next?).2 ∧
        (s.answer next?).1.fetched = [] := by
    cases next? with
    | none => exact ⟨[], .refl, rfl⟩
    | some t =>
      obtain ⟨es, course⟩ := course t rfl
      exact ⟨es, course, rfl⟩
  have silent {t : Session} (course : ∃ es, Course .resting s es .resting t) :
      ∃ es, Course .resting s es .resting t ∧ Reply.done.fetched = [] := by
    obtain ⟨es, course⟩ := course
    exact ⟨es, course, rfl⟩
  cases op with
  | start => exact .inl (silent (start_course here))
  | finish => exact .inl (silent (finish_course s))
  | tick dt => exact .inl (silent (tick_course here dt))
  | setFastForward on => exact .inl (silent (setFastForward_course here on))
  | setAutoAdvance on => exact .inl (silent ⟨_, .single (.autoAdvance on)⟩)
  | input i => exact .inl (answered fun t accepted => respond?_course here accepted)
  | write name value =>
    refine .inl (answered fun t accepted => ?_)
    obtain ⟨store, written, rfl⟩ := Option.map_eq_some_iff.mp accepted
    exact ⟨_, .single (.write written)⟩
  | poll => exact .inr ⟨_, rfl, s.poll_toList⟩
  | drain => exact .inr ⟨#[], rfl, List.append_nil _⟩

theorem perform_situation {s : Session} (here : Situation .resting s) (op : Operation) :
    Situation .resting (s.perform op).2 := by
  rcases perform_course here op with ⟨es, steps, -⟩ | ⟨rest, same, -⟩
  · exact steps.situation here
  · rw [same]
    exact here.carry rfl rfl rfl rfl rfl rfl fun _ _ _ _ waits => waits

/-- What every leg keeps of the stream, the stance and the session holds after every run, if it
does not depend on which events have been fetched. -/
theorem run_induction {I : List Event → Stance → Session → Prop}
    (fetch : ∀ {past s} (rest : Array Event), I past .resting s →
      I past .resting { s with events := rest })
    (leg : ∀ {past a s es b t}, Situation a s → Leg a s es b t → I past a s → I (past ++ es) b t)
    {past : List Event} {s : Session} (here : Situation .resting s)
    (start : I (past ++ s.events.toList) .resting s) (ops : List Operation) :
    Situation .resting (s.after ops) ∧ I (past ++ s.stream ops) .resting (s.after ops) := by
  have course {past a s es b t} (course : Course a s es b t) :
      Situation a s → I past a s → I (past ++ es) b t := by
    induction course generalizing past with
    | refl => exact fun _ kept => (List.append_nil past).symm ▸ kept
    | next first rest ih =>
      intro here kept
      rw [← List.append_assoc]
      exact ih (first.situation here) (leg here first kept)
  induction ops generalizing past s with
  | nil => exact ⟨here, start⟩
  | cons op ops ih =>
    rw [stream_cons, after_cons, ← List.append_assoc]
    refine ih (perform_situation here op) ?_
    rcases perform_course here op with ⟨es, steps, none⟩ | ⟨rest, same, fetched⟩
    · rw [none, List.append_nil, steps.events, ← List.append_assoc]
      exact course steps here start
    · rw [same, List.append_assoc, fetched]
      exact fetch rest start

end Session

theorem situation_ofGraph (graph : Graph) (pacing : Pacing) :
    Situation .resting (.ofGraph graph pacing) :=
  .idle rfl rfl rfl rfl rfl

/-- What holds of a new session, and is kept by every leg, holds after every run. -/
theorem holds_after {I : List Event → Stance → Session → Prop}
    (fetch : ∀ {past s} (rest : Array Event), I past .resting s →
      I past .resting { s with events := rest })
    (leg : ∀ {past a s es b t}, Situation a s → Leg a s es b t → I past a s → I (past ++ es) b t)
    (start : I [] .resting (.ofGraph graph pacing)) (ops : List Operation) :
    I ((Session.ofGraph graph pacing).stream ops) .resting
      ((Session.ofGraph graph pacing).after ops) :=
  (@Session.run_induction I fetch leg [] _ (situation_ofGraph graph pacing) start ops).2

theorem situation_after (graph : Graph) (pacing : Pacing) (ops : List Operation) :
    Situation .resting ((Session.ofGraph graph pacing).after ops) :=
  holds_after (I := fun _ => Situation)
    (fun _ here => here.carry rfl rfl rfl rfl rfl rfl fun _ _ _ _ waits => waits)
    (fun _ leg here => leg.situation here) (situation_ofGraph graph pacing) ops

theorem Leg.fixed (leg : Leg a s es b t) : t.graph = s.graph ∧ t.pacing = s.pacing := by
  cases leg with
  | autoAdvance on => cases on <;> exact ⟨rfl, rfl⟩
  | finish active | ended _ active =>
    rw [Session.finish_of_active active]
    exact ⟨rfl, rfl⟩
  | stroke shown =>
    obtain ⟨speed, stroked⟩ := Session.stroked_eq s _
    rw [stroked]
    exact ⟨rfl, rfl⟩
  | arrive landed found =>
    rw [Session.arrived_eq]
    exact ⟨rfl, rfl⟩
  | _ => exact ⟨rfl, rfl⟩

theorem Course.fixed (course : Course a s es b t) :
    t.graph = s.graph ∧ t.pacing = s.pacing := by
  induction course with
  | refl => exact ⟨rfl, rfl⟩
  | next leg rest ih => exact ⟨ih.1.trans leg.fixed.1, ih.2.trans leg.fixed.2⟩

theorem fixed_after (graph : Graph) (pacing : Pacing) (ops : List Operation) :
    ((Session.ofGraph graph pacing).after ops).graph = graph ∧
      ((Session.ofGraph graph pacing).after ops).pacing = pacing :=
  holds_after (I := fun _ _ s => s.graph = graph ∧ s.pacing = pacing) (fun _ kept => kept)
    (fun _ leg kept => ⟨leg.fixed.1.trans kept.1, leg.fixed.2.trans kept.2⟩) ⟨rfl, rfl⟩ ops

end Parley
