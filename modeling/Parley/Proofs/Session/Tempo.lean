import Parley.Proofs.Session.Later
import Parley.Story.Tavern

/-! How fast a story is told does not change it. Delays, speeds and ticks decide when an event
comes, and so how many have come by some time, but neither which events come nor in what order. -/
namespace Parley

/-- The node without a delay and a speed of its own. -/
def Dialogue.unpaced (d : Dialogue) : Dialogue :=
  { d with settings := { d.settings with preDelay := default, printSpeed := default } }

def Rewording.unpaced : Rewording := ⟨Dialogue.unpaced, fun _ => rfl, fun _ => rfl, fun _ => rfl⟩

/-- The graph without the delays and speeds of its nodes. -/
def Graph.unpaced (g : Graph) : Graph := Rewording.unpaced.graph g

/-- Graphs whose nodes differ in nothing but their delays and speeds. -/
theorem Rewording.graph_unpaced {w : Rewording} (paces : ∀ d, (w.dialogue d).unpaced = d.unpaced)
    (g : Graph) : (w.graph g).unpaced = g.unpaced :=
  graph_overwritten paces g

def Pacing.atOnce : Pacing := ⟨.zero, .zero, .zero, 0⟩

/-- The clock stands still, and whatever is planned is due. -/
def Retelling.atOnce (earlier : Array Event) : Retelling where
  toRewording := .unpaced
  pacing _ := .atOnce
  clock _ := .zero
  wait _ := .zero
  speed _ := .zero
  earlier := earlier
  awaits _ := rfl
  clicks _ := rfl
  keeps _ := rfl
  frame_eq _ _ := rfl
  before_eq _ _ := rfl
  after_eq _ _ := rfl
  clock_add _ _ := (Duration.zero_add _).symm
  wait_zero := rfl
  wait_seconds _ := by decide +kernel
  delay_eq _ _ := rfl
  speed_eq _ _ _ := rfl
  base_eq _ := rfl
  fast_eq _ := rfl
  auto_eq _ := rfl

/-- Operations that ask nothing of a session: time passes, or events are handed over. -/
def Operation.isPassive (op : Operation) : Bool := op.lasts || op.fetches

namespace Session

variable {s : Session}

theorem runDue_add (s : Session) (first second : Nat) (limit : Duration) :
    s.runDue (first + second) limit = (s.runDue first limit).runDue second limit := by
  induction first generalizing s with
  | zero => rw [Nat.zero_add, runDue]
  | succ first ih =>
    rw [Nat.succ_add]
    cases taken : s.timetable.take? limit with
    | none => rw [runDue_of_none taken, runDue_of_none taken, runDue_of_none taken]
    | some taking => rw [runDue_succ taken, runDue_succ taken, ih]

theorem runDue_appends (s : Session) (budget : Nat) (limit : Duration) :
    s.events.toList <+: (s.runDue budget limit).events.toList := by
  induction budget generalizing s with
  | zero => exact List.prefix_refl _
  | succ budget ih =>
    cases taken : s.timetable.take? limit with
    | none => simp [runDue_of_none taken]
    | some taking =>
      obtain ⟨kind, rest⟩ := taking
      have told := appends_of_told (f := (runTask · kind)) (fun r s => r.session_runTask s kind)
        { s with timetable := rest }
      have ran : s.events.toList <+: ({ s with timetable := rest }.runTask kind).events.toList := by
        rw [told, Array.toList_append]
        exact List.prefix_append _ _
      rw [runDue_succ taken]
      exact ran.trans (ih _)

theorem runDue_mono (s : Session) (few : budget ≤ more) (limit : Duration) :
    (s.runDue budget limit).events.toList <+: (s.runDue more limit).events.toList := by
  have runs := runDue_add s budget (more - budget) limit
  rw [Nat.add_sub_cancel' few] at runs
  rw [runs]
  exact runDue_appends _ _ _

end Session

namespace Retelling

variable {s : Session} {earlier : Array Event}

theorem atOnce_ofGraph (graph : Graph) (pacing : Pacing) :
    (atOnce #[]).session (.ofGraph graph pacing) = .ofGraph graph.unpaced .atOnce :=
  rfl

theorem atOnce_next (here : Situation .resting s)
    (taken : s.timetable.take? limit = some (kind, rest)) :
    ((atOnce earlier).session s).runDue 1 .zero =
      (atOnce earlier).session ({ s with timetable := rest }.runTask kind) := by
  rcases here.planned with none | ⟨task, single⟩
  · cases (Timetable.take?_of_nil none limit).symm.trans taken
  · rw [Timetable.take?_of_single single] at taken
    obtain ⟨due, same⟩ := Option.ite_none_right_eq_some.mp taken
    cases same
    have planned : ((atOnce earlier).session s).timetable.tasks = [⟨task.kind, .zero⟩] := by
      show s.timetable.tasks.map _ = _
      rw [single]
      rfl
    have first := (Timetable.take?_of_single planned .zero).trans (if_pos (Nat.le_refl _))
    rw [Session.runDue_succ first, Session.runDue, ← session_runTask]
    rfl

theorem atOnce_runDue (here : Situation .resting s) (budget : Nat) (limit : Duration) :
    ∃ ran, (atOnce earlier).session (s.runDue budget limit) =
      ((atOnce earlier).session s).runDue ran .zero := by
  induction budget generalizing s with
  | zero => exact ⟨0, rfl⟩
  | succ budget ih =>
    cases taken : s.timetable.take? limit with
    | none =>
      refine ⟨0, ?_⟩
      rw [Session.runDue_of_none taken]
      rfl
    | some taking =>
      obtain ⟨kind, rest⟩ := taking
      obtain ⟨es, course⟩ := Session.runTask_course here taken
      obtain ⟨ran, same⟩ := ih (course.situation here)
      refine ⟨1 + ran, ?_⟩
      rw [Session.runDue_succ taken, same, ← atOnce_next here taken, Session.runDue_add]

theorem atOnce_fetched {before rest : Array Event} (whole : before ++ rest = earlier ++ s.events) :
    (atOnce before).session { s with events := rest } = (atOnce earlier).session s :=
  congrArg (fun events => { (atOnce earlier).session s with events := events }) whole

/-- However time passes and events are fetched, the events of a run are those of the first so many
tasks that run at once. -/
theorem atOnce_stream (earlier : Array Event) (here : Situation .resting s)
    (passive : ∀ op ∈ ops, op.isPassive = true) :
    ∃ ran, earlier.toList ++ s.stream ops =
      (((atOnce earlier).session s).runDue ran .zero).events.toList := by
  induction ops generalizing s earlier with
  | nil => exact ⟨0, Array.toList_append.symm⟩
  | cons op ops ih =>
    have later : ∀ op ∈ ops, op.isPassive = true :=
      fun _ listed => passive _ (List.mem_cons_of_mem _ listed)
    have next := Session.perform_situation here op
    rw [Session.stream_cons]
    cases fetches : op.fetches with
    | true =>
      obtain ⟨got, rest, whole, fetch⟩ := s.perform_fetch fetches
      have stays := fetch s rfl
      rw [stays] at next ⊢
      -- What was fetched counts among the earlier events from here on.
      obtain ⟨ran, told⟩ := ih (earlier ++ got.toArray) next later
      refine ⟨ran, ?_⟩
      have events : earlier ++ got.toArray ++ rest = earlier ++ s.events := by
        rw [Array.append_assoc]
        apply Array.ext'
        simp [← whole]
      rw [← atOnce_fetched events, ← told]
      simp [Reply.fetched]
    | false =>
      cases op with
      | tick dt =>
        obtain ⟨ran, passed⟩ := atOnce_runDue here (max 1 s.pacing.maxTasksPerTick)
          (s.timetable.now + dt)
        obtain ⟨more, told⟩ := ih earlier next later
        refine ⟨ran + more, ?_⟩
        rw [Session.runDue_add, ← passed]
        exact told
      | poll | drain => cases fetches
      | _ => cases passive _ List.mem_cons_self

end Retelling

/-- A story that was started and asked for some things is told in the order in which the unpaced
graph tells it at once; how far depends on the time that passed. -/
theorem stream_atOnce (graph : Graph) (pacing : Pacing)
    (instant : ∀ op ∈ calls, op.lasts = false ∧ op.fetches = false)
    (passive : ∀ op ∈ ops, op.isPassive = true) :
    ∃ ran, (Session.ofGraph graph pacing).stream (.start :: calls ++ ops) =
      (((Session.ofGraph graph.unpaced .atOnce).after (.start :: calls)).runDue ran
        .zero).events.toList := by
  have starting : ∀ op ∈ Operation.start :: calls, op.lasts = false ∧ op.fetches = false := by
    intro op listed
    rcases List.mem_cons.mp listed with rfl | later
    · exact ⟨rfl, rfl⟩
    · exact instant op later
  have here := situation_after graph pacing (.start :: calls)
  obtain ⟨ran, told⟩ := Retelling.atOnce_stream #[] here passive
  refine ⟨ran, ?_⟩
  rw [Session.stream_append _ fun op listed => (starting op listed).2]
  rw [← Retelling.session_after _ _ starting, Retelling.atOnce_ofGraph] at told
  exact told

/-- Two graphs that differ in nothing but the delays and speeds of their nodes tell one story, with
any pacing and however time passes in either: after the start and the same further requests, the
events of one playthrough so far are the first ones of the other. -/
theorem tempo_prefix {g h : Graph} (alike : g.unpaced = h.unpaced) (p q : Pacing)
    (instant : ∀ op ∈ calls, op.lasts = false ∧ op.fetches = false)
    (first : ∀ op ∈ ops, op.isPassive = true) (second : ∀ op ∈ others, op.isPassive = true) :
    (Session.ofGraph g p).stream (.start :: calls ++ ops) <+:
        (Session.ofGraph h q).stream (.start :: calls ++ others) ∨
      (Session.ofGraph h q).stream (.start :: calls ++ others) <+:
        (Session.ofGraph g p).stream (.start :: calls ++ ops) := by
  obtain ⟨ran, told⟩ := stream_atOnce g p instant first
  obtain ⟨ran', told'⟩ := stream_atOnce h q instant second
  rw [told, told', alike]
  rcases Nat.le_total ran ran' with fewer | fewer
  · exact .inl (Session.runDue_mono _ fewer _)
  · exact .inr (Session.runDue_mono _ fewer _)

namespace Story.Tavern

/-- Every line is spoken after a pause of two seconds, and as slowly as the host likes. -/
def drawling : Rewording where
  dialogue d := { d with
    settings := { d.settings with
      preDelay := .inactive (.ofInt 2)
      printSpeed := .following "typing_speed" .nan } }
  id_eq _ := rfl
  next_eq _ := rfl
  choices_eq _ := rfl

/-- One task falls due in each tick, and the second one shows a character only. -/
def slowly : List Operation := [.tick (.ofMillis 2000), .drain, .tick (.ofMillis 40)]

def briskly : List Operation := [.tick (.ofMillis 900), .poll, .tick (.ofMillis 5000)]

/-- The keeper drawls to a host who lets one task run in each tick, or speaks briskly to another.
Either way he says the same things, on his own. -/
theorem drawl_prefix :
    (drawling.graph graph).unpaced = graph.unpaced ∧
      ((Session.ofGraph (drawling.graph graph) ⟨.nan, .zero, .ofInt (-1), 1⟩).stream
          (.start :: [.setAutoAdvance true] ++ slowly) <+:
        (Session.ofGraph graph default).stream (.start :: [.setAutoAdvance true] ++ briskly) ∨
      (Session.ofGraph graph default).stream (.start :: [.setAutoAdvance true] ++ briskly) <+:
        (Session.ofGraph (drawling.graph graph) ⟨.nan, .zero, .ofInt (-1), 1⟩).stream
          (.start :: [.setAutoAdvance true] ++ slowly)) := by
  have alike : (drawling.graph graph).unpaced = graph.unpaced :=
    Rewording.graph_unpaced (fun _ => rfl) graph
  exact ⟨alike, tempo_prefix alike _ _ (by decide) (by decide) (by decide)⟩

end Story.Tavern
end Parley
