import Parley.Proofs.Graph.Reading
import Parley.Proofs.Session.Run
import Parley.Story.Tavern

/-! Variables that no node names. Two sessions that differ in nothing else play alike, so whatever
the host writes to such variables, and whenever it does, the player cannot tell. -/
namespace Parley

/-- Whether the variables may be others afterwards. -/
def Operation.rewrites : Operation → Bool
  | start | write .. => true
  | _ => false

namespace Session

/-- The session with other variables. -/
def reading (s : Session) (store : Store) : Session := { s with store := store }

variable {s : Session} {store : Store} {id : NodeId}

theorem reading_finish : (s.reading store).finish = s.finish.reading store := by
  by_cases idle : s.phase = .idle
  · have same : s.finish = s := if_pos idle
    rw [same]
    exact if_pos idle
  · rw [finish_of_active idle]
    exact if_neg idle

theorem node_of_current (current : s.currentDialogue? = some d) :
    ∃ id, s.graph.node? id = some (.dialogue d) := by
  obtain ⟨id, -, found⟩ := Option.bind_eq_some_iff.mp current
  exact ⟨id, Graph.dialogue?_eq_some_iff.mp found⟩

section Agree

variable (agree : store.Agree s.graph.sources s.store)
include agree

theorem agree_of_current (current : s.currentDialogue? = some d) :
    store.Agree (Node.dialogue d).sources s.store := by
  obtain ⟨id, found⟩ := node_of_current current
  exact Graph.node_agree agree found

theorem reading_enterDialogue (id : NodeId) :
    (s.reading store).enterDialogue id = (s.enterDialogue id).reading store := by
  cases found : s.graph.dialogue? id with
  | none =>
    have lost : (s.reading store).graph.dialogue? id = none := found
    rw [enterDialogue_of_none found, enterDialogue_of_none lost, reading_finish]
  | some d =>
    have same : (s.reading store).graph.dialogue? id = some d := found
    have node := Graph.node_agree agree (Graph.dialogue?_eq_some_iff.mp found)
    have delay : d.settings.preDelay.resolve store = d.settings.preDelay.resolve s.store :=
      Presentation.preDelay_congr (Dialogue.settings_agree node)
    rw [enterDialogue_eq found, enterDialogue_eq same, arrived_eq, arrived_eq]
    simp only [reading, schedule, delay]

theorem reading_land (landing : Landing) :
    (s.reading store).land landing = (s.land landing).reading store := by
  cases landing with
  | ended => exact reading_finish (s := { s with position := none })
  | dialogue id => exact reading_enterDialogue (s := { s with position := some id }) agree id
  | hold id => rfl
  | stalled id => rfl

theorem reading_proceed : (s.reading store).proceed = s.proceed.reading store := by
  have same : s.graph.proceed store s.position = s.graph.proceed s.store s.position :=
    Graph.proceed_congr agree s.position
  show (s.leaveNode.reading store).land (s.graph.proceed store s.position) = _
  rw [same]
  exact reading_land (s := s.leaveNode) agree _

theorem reading_goNext : (s.reading store).goNext = s.goNext.reading store :=
  reading_proceed (s := s.cue .stopSounds) agree

theorem reading_completeText : (s.reading store).completeText = s.completeText.reading store := by
  cases current : s.currentDialogue? with
  | none =>
    have lost : (s.reading store).currentDialogue? = none := current
    rw [completeText_of_none current, completeText_of_none lost]
    rfl
  | some d =>
    have same : (s.reading store).currentDialogue? = some d := current
    have ahead : (s.reading store).nextKeepsText d = s.nextKeepsText d := by
      have next : s.graph.ahead? store d.next = s.graph.ahead? s.store d.next :=
        Graph.ahead?_congr agree d.next
      simp only [nextKeepsText, reading, next]
    have gone : ((s.reading store).told d).goNext = (s.told d).goNext.reading store :=
      reading_goNext (s := s.told d) agree
    rw [completeText_eq current, completeText_eq same, ahead, gone]
    simp only [apply_ite fun s : Session => s.reading store]
    rfl

theorem reading_adoptSpeed : (s.reading store).adoptSpeed = s.adoptSpeed.reading store := by
  cases current : s.currentDialogue? with
  | none =>
    have lost : (s.reading store).currentDialogue? = none := current
    simp only [adoptSpeed, current, lost, Option.bind_none]
  | some d =>
    have same : (s.reading store).currentDialogue? = some d := current
    have speed : d.settings.printSpeed.resolveActive (s.reading store).store =
        d.settings.printSpeed.resolveActive s.store :=
      Presentation.printSpeed_congr (Dialogue.settings_agree (agree_of_current agree current))
    simp only [adoptSpeed, current, same, Option.bind_some, speed]
    cases d.settings.printSpeed.resolveActive s.store with
    | none => rfl
    | some speed => rfl

theorem reading_stroked (t : Typewriter) :
    (s.reading store).stroked t = (s.stroked t).reading store := by
  let told := { s with typewriter := t }.emit (.textRevealed t.shown)
  have told' : { s.reading store with typewriter := t }.emit (.textRevealed t.shown) =
      told.reading store := rfl
  have paced : (told.reading store).adoptSpeed = told.adoptSpeed.reading store :=
    reading_adoptSpeed (s := told) agree
  simp only [stroked, told', paced]
  rfl

theorem reading_revealStep : (s.reading store).revealStep = s.revealStep.reading store := by
  have step : (s.reading store).typewriter.step = s.typewriter.step := rfl
  unfold revealStep
  rw [step]
  split
  case h_1 t finished => exact reading_completeText (s := { s with typewriter := t }) agree
  case h_2 c t shown => exact reading_stroked agree t

theorem reading_frame (current : s.currentDialogue? = some d) :
    (s.reading store).frame d = s.frame d := by
  have node := agree_of_current agree current
  have settings := Dialogue.settings_agree node
  have align : d.settings.textAlign.resolveActive store =
      d.settings.textAlign.resolveActive s.store := settings.resolveActive (by simp)
  have wrap : d.settings.wrapText.resolveActive store =
      d.settings.wrapText.resolveActive s.store := settings.resolveActive (by simp)
  have transition : d.settings.boxTransition.resolveActive store =
      d.settings.boxTransition.resolveActive s.store := settings.resolveActive (by simp)
  have boxColor : d.settings.boxColor.resolveActive store =
      d.settings.boxColor.resolveActive s.store := settings.resolveActive (by simp)
  have boxImage : d.settings.boxImage.resolveActive store =
      d.settings.boxImage.resolveActive s.store := settings.resolveActive (by simp)
  have plateColor : d.settings.namePlateColor.resolveActive store =
      d.settings.namePlateColor.resolveActive s.store := settings.resolveActive (by simp)
  have plateImage : d.settings.namePlateImage.resolveActive store =
      d.settings.namePlateImage.resolveActive s.store := settings.resolveActive (by simp)
  simp only [frame, reading, Dialogue.plates_congr node, Dialogue.offers_congr node,
    Presentation.style_congr settings, align, wrap, transition, boxColor, boxImage, plateColor,
    plateImage]

theorem reading_opened (current : s.currentDialogue? = some d) :
    (s.reading store).opened d = (s.opened d).reading store := by
  have node := agree_of_current agree current
  have settings := Dialogue.settings_agree node
  have frame := reading_frame agree current
  have opening : (s.reading store).openingEvents d = s.openingEvents d := by
    simp only [openingEvents, frame]
    simp only [reading, Presentation.cuesBefore_congr settings,
      Presentation.cuesAfter_congr settings]
  unfold opened
  rw [opening, frame]
  simp only [reading, cancel, Dialogue.offers_congr node]

theorem reading_setUp : (s.reading store).setUp = s.setUp.reading store := by
  cases current : s.currentDialogue? with
  | none =>
    have lost : (s.reading store).currentDialogue? = none := current
    rw [setUp_of_none current, setUp_of_none lost]
    rfl
  | some d =>
    have same : (s.reading store).currentDialogue? = some d := current
    rw [setUp_eq current, setUp_eq same, reading_opened agree current]
    exact reading_revealStep (s := s.opened d) agree

theorem reading_finishReveal : (s.reading store).finishReveal = s.finishReveal.reading store :=
  reading_completeText (s := { s.cancel .reveal with typewriter := s.typewriter.showAll }) agree

theorem reading_runTask (kind : TaskKind) :
    (s.reading store).runTask kind = (s.runTask kind).reading store := by
  cases kind with
  | nodeDelay => exact reading_setUp agree
  | reveal => exact reading_revealStep agree
  | autoAdvance => exact reading_goNext agree

theorem reading_pushFastForward :
    (s.reading store).pushFastForward = s.pushFastForward.reading store := by
  have current : (s.reading store).currentDialogue? = s.currentDialogue? := rfl
  have setUp := reading_setUp agree
  have gone := reading_goNext agree
  unfold pushFastForward
  rw [current, setUp, gone]
  cases s.currentDialogue? with
  | none => rfl
  | some d =>
    simp only [apply_ite fun s : Session => s.reading store]
    rfl

theorem reading_setFastForward (on : Bool) :
    (s.reading store).setFastForward on = (s.setFastForward on).reading store := by
  cases on with
  | true => exact reading_pushFastForward (s := s.pressed) agree
  | false => rfl

theorem reading_advance? :
    (s.reading store).advance? = s.advance?.map fun s => s.reading store := by
  have current : (s.reading store).currentDialogue? = s.currentDialogue? := rfl
  unfold advance?
  rw [current, reading_finishReveal agree, reading_setUp agree, reading_goNext agree]
  cases s.currentDialogue? with
  | none =>
    simp only [apply_ite (Option.map fun s : Session => s.reading store)]
    rfl
  | some d =>
    simp only [apply_ite (Option.map fun s : Session => s.reading store)]
    rfl

theorem reading_choose? (index : Nat) :
    (s.reading store).choose? index = (s.choose? index).map fun s => s.reading store := by
  have choices : (s.reading store).choices = s.choices := rfl
  have accepts : (s.reading store).acceptsPlayerInput = s.acceptsPlayerInput := rfl
  unfold choose?
  rw [choices, accepts]
  split
  case isTrue => rfl
  case isFalse =>
    cases s.choices[index]? with
    | none => rfl
    | some offer =>
      let left := (s.emit (.choiceSelected index offer.next)).leaveNode
      have left' : ((s.reading store).emit (.choiceSelected index offer.next)).leaveNode =
          left.reading store := rfl
      have follow : (left.reading store).graph.follow? (left.reading store).store
          (left.reading store).position index = left.graph.follow? left.store left.position index :=
        Graph.follow?_congr agree s.position index
      simp only [left', follow]
      split
      case isTrue => rfl
      case isFalse =>
        show some _ = some _
        cases left.graph.follow? left.store left.position index with
        | none => rfl
        | some landing => exact congrArg some (reading_land (s := left) agree landing)

theorem reading_resume? :
    (s.reading store).resume? = s.resume?.map fun s => s.reading store := by
  let released := { s with phase := .running }.emit .resumed
  have released' : { s.reading store with phase := .running }.emit .resumed =
      released.reading store := rfl
  have gone : (released.reading store).proceed = released.proceed.reading store :=
    reading_proceed (s := released) agree
  unfold resume?
  rw [released', gone]
  simp only [apply_ite (Option.map fun s : Session => s.reading store)]
  rfl

theorem reading_respond? (i : Input) :
    (s.reading store).respond? i = (s.respond? i).map fun s => s.reading store := by
  have finished : (s.reading store).finish = s.finish.reading store := reading_finish
  cases i with
  | advance => exact reading_advance? agree
  | choose index => exact reading_choose? agree index
  | resume => exact reading_resume? agree
  | skip =>
    simp only [respond?, skip?, reading_finishReveal agree,
      apply_ite (Option.map fun s : Session => s.reading store)]
    rfl
  | interrupt =>
    simp only [respond?, interrupt?, apply_ite (Option.map fun s : Session => s.reading store)]
    rfl
  | proceed =>
    simp only [respond?, continue?, reading_goNext agree,
      apply_ite (Option.map fun s : Session => s.reading store)]
    rfl
  | escape =>
    simp only [respond?, escape?, finished,
      apply_ite (Option.map fun s : Session => s.reading store)]
    rfl

end Agree

/-- What plays alike with its own variables leaves them alone. -/
theorem store_of_reading {f : Session → Session}
    (alike : f (s.reading s.store) = (f s).reading s.store) : (f s).store = s.store := by
  have same := congrArg store alike
  exact same

theorem reading_runDue (here : Situation .resting s) (budget : Nat)
    (agree : store.Agree s.graph.sources s.store) :
    (s.reading store).runDue budget limit = (s.runDue budget limit).reading store := by
  induction budget generalizing s with
  | zero => rfl
  | succ budget ih =>
    cases taken : s.timetable.take? limit with
    | none =>
      have none : (s.reading store).timetable.take? limit = none := taken
      rw [runDue_of_none taken, runDue_of_none none]
    | some next =>
      obtain ⟨kind, rest⟩ := next
      have same : (s.reading store).timetable.take? limit = some (kind, rest) := taken
      obtain ⟨es, course⟩ := runTask_course here taken
      let due := { s with timetable := rest }
      have ran : (due.reading store).runTask kind = (due.runTask kind).reading store :=
        reading_runTask (s := due) agree kind
      have keeps : (due.runTask kind).store = s.store :=
        store_of_reading (f := fun s => s.runTask kind)
          (reading_runTask (s := due) (.refl _ _) kind)
      rw [runDue_succ taken, runDue_succ same, ← ih (course.situation here)]
      · exact congrArg (runDue budget limit) ran
      · rw [course.fixed.1, keeps]
        exact agree

theorem reading_tick (here : Situation .resting s)
    (agree : store.Agree s.graph.sources s.store) (dt : Duration) :
    (s.reading store).tick dt = (s.tick dt).reading store := by
  let limit := s.timetable.now + dt
  let late (t : Session) : Session := { t with timetable := t.timetable.settle limit }
  have ran : runDue (max 1 s.pacing.maxTasksPerTick) limit (s.reading store) =
      (runDue (max 1 s.pacing.maxTasksPerTick) limit s).reading store :=
    reading_runDue here _ agree
  exact congrArg late ran

theorem reading_answer (next? : Option Session) :
    (s.reading store).answer (next?.map fun s => s.reading store) =
      ((s.answer next?).1, (s.answer next?).2.reading store) := by
  cases next? with
  | none => rfl
  | some next => rfl

/-- Where nothing is written, an operation has the same answer and leads to the same session, but
for the variables. -/
theorem reading_perform (here : Situation .resting s)
    (agree : store.Agree s.graph.sources s.store) (keeps : op.rewrites = false) :
    (s.reading store).perform op = ((s.perform op).1, (s.perform op).2.reading store) := by
  cases op with
  | start | write => cases keeps
  | finish => exact congrArg (Prod.mk Reply.done) reading_finish
  | tick dt => exact congrArg (Prod.mk Reply.done) (reading_tick here agree dt)
  | setFastForward on => exact congrArg (Prod.mk Reply.done) (reading_setFastForward agree on)
  | setAutoAdvance on => cases on <;> rfl
  | input i =>
    show (s.reading store).answer ((s.reading store).respond? i) = _
    rw [reading_respond? agree, reading_answer]
    rfl
  | poll | drain => rfl

/-- Only a start and a write change the variables. -/
theorem store_perform (here : Situation .resting s) (keeps : op.rewrites = false) :
    (s.perform op).2.store = s.store :=
  congrArg (fun after => after.2.store) (reading_perform here (.refl _ _) keeps)

end Session

/-- Two sessions differ in nothing but variables that no node names. -/
structure Session.ReadsAlike (s t : Session) : Prop where
  same : t = s.reading t.store
  agree : t.store.Agree s.graph.sources s.store

/-- Whether the operation writes a variable that no node of a graph names. -/
def Operation.unread (g : Graph) : Operation → Bool
  | write name _ => name ∉ g.sources
  | _ => false

/-- An operation of a run, with its answer and the session that it led to. -/
structure Entry where
  op : Operation
  reply : Reply
  after : Session

/-- All of an entry but the variables. -/
def Entry.blind (e : Entry) : Entry := { e with after := e.after.reading .empty }

namespace Session

def diary (s : Session) : List Operation → List Entry
  | [] => []
  | op :: ops => ⟨op, (s.perform op).1, (s.perform op).2⟩ :: (s.perform op).2.diary ops

/-- What a run shows: all answers and all sessions without their variables, except at writes that
nobody reads. -/
def shown (s : Session) (ops : List Operation) : List Entry :=
  ((s.diary ops).filter fun e => !e.op.unread s.graph).map Entry.blind

variable {s t : Session} {op : Operation}

theorem perform_graph (here : Situation .resting s) (op : Operation) :
    (s.perform op).2.graph = s.graph := by
  rcases perform_course here op with ⟨es, course, -⟩ | ⟨rest, same, -⟩
  · exact course.fixed.1
  · rw [same]

namespace ReadsAlike

theorem refl (s : Session) : s.ReadsAlike s := ⟨rfl, .refl _ _⟩

theorem graph (alike : s.ReadsAlike t) : t.graph = s.graph := by
  rw [alike.same]
  rfl

theorem events (alike : s.ReadsAlike t) : t.events = s.events := by
  rw [alike.same]
  rfl

theorem blind (alike : s.ReadsAlike t) : t.reading .empty = s.reading .empty := by
  rw [alike.same]
  rfl

/-- Where one of two sessions that read alike does something, the other does the same. -/
theorem perform (alike : s.ReadsAlike t) (here : Situation .resting s)
    (read : op.unread s.graph = false) :
    (t.perform op).1 = (s.perform op).1 ∧ (s.perform op).2.ReadsAlike (t.perform op).2 := by
  obtain ⟨same, agree⟩ := alike
  cases rewrites : op.rewrites with
  | false =>
    have played := reading_perform here agree rewrites
    rw [← same] at played
    rw [played]
    refine ⟨rfl, rfl, ?_⟩
    rw [perform_graph here, store_perform here rewrites]
    exact agree
  | true =>
    cases op with
    | start =>
      have begun : t.start = s.start := by
        rw [same]
        rfl
      simp only [Session.perform, begun]
      exact ⟨trivial, .refl _⟩
    | write name value =>
      have listed : name ∈ s.graph.sources := by simpa [Operation.unread] using read
      simp only [Session.perform, Session.write?]
      rcases agree.write? listed value with ⟨refused, refused'⟩ | ⟨a, b, first, second, agree⟩
      · rw [refused, refused']
        exact ⟨rfl, same, agree⟩
      · rw [first, second]
        refine ⟨rfl, ?_, agree⟩
        rw [same]
        rfl
    | _ => cases rewrites

/-- A write that nobody reads makes no difference. -/
theorem unread (alike : s.ReadsAlike t) (unread : op.unread s.graph = true) :
    (s.perform op).2.ReadsAlike t := by
  obtain ⟨same, agree⟩ := alike
  cases op with
  | write name value =>
    have fresh : name ∉ s.graph.sources := by simpa [Operation.unread] using unread
    simp only [Session.perform, Session.write?]
    cases written : s.store.write? name value with
    | none => exact ⟨same, agree⟩
    | some store =>
      refine ⟨same, fun wanted listed => ?_⟩
      rw [agree wanted listed]
      exact (Store.Agree.of_write written fresh wanted listed).symm
  | _ => cases unread

end ReadsAlike

/-- A run shows what it shows without the writes that nobody reads. -/
theorem shown_filter (here : Situation .resting s) (alike : s.ReadsAlike t)
    (ops : List Operation) :
    s.shown ops = t.shown (ops.filter fun op => !op.unread s.graph) ∧
      s.stream ops = t.stream (ops.filter fun op => !op.unread s.graph) ∧
      (s.after ops).ReadsAlike (t.after (ops.filter fun op => !op.unread s.graph)) := by
  induction ops generalizing s t with
  | nil => exact ⟨rfl, congrArg Array.toList alike.events.symm, alike⟩
  | cons op ops ih =>
    have fixed := perform_graph here op
    have later := perform_situation here op
    cases unread : op.unread s.graph with
    | true =>
      have keeps : op.fetches = false := by
        cases op with
        | write name value => rfl
        | _ => cases unread
      have rest := ih later (alike.unread unread)
      rw [fixed] at rest
      rw [List.filter_cons_of_neg (by simp [unread]), stream_cons, fetched_of_keeps s keeps,
        after_cons, List.nil_append]
      refine ⟨?_, rest.2⟩
      rw [← rest.1, shown, diary, List.filter_cons_of_neg (by simp [unread]), shown, fixed]
    | false =>
      obtain ⟨reply, alike'⟩ := alike.perform here unread
      have fixed' : (t.perform op).2.graph = s.graph := alike'.graph.trans fixed
      obtain ⟨shown', stream', after'⟩ := ih later alike'
      rw [fixed] at shown' stream' after'
      rw [List.filter_cons_of_pos (by simp [unread]), stream_cons, stream_cons, reply, stream']
      refine ⟨?_, rfl, after'⟩
      have entry : Entry.blind ⟨op, (t.perform op).1, (t.perform op).2⟩ =
          Entry.blind ⟨op, (s.perform op).1, (s.perform op).2⟩ := by
        rw [Entry.blind, alike'.blind, reply]
        rfl
      have unread' : op.unread t.graph = false := alike.graph.symm ▸ unread
      rw [shown, diary, shown, diary, List.filter_cons_of_pos (by simp [unread]),
        List.filter_cons_of_pos (by simp [unread']), List.map_cons, List.map_cons, entry]
      rw [shown, shown, fixed, fixed'] at shown'
      rw [alike.graph, shown']

end Session

/-- The problems of a graph tell of every undeclared variable that a node names, and no others are
ever read: whatever is written to a variable that no node names, and whenever it is, all answers,
all events and all that is told of a session are the same. -/
theorem unread_writes_unnoticed (graph : Graph) (pacing : Pacing) :
    (∀ n ∈ graph.nodeList, ∀ name ∈ n.sources, name ∉ graph.declarations.map Variable.name →
      .undeclaredVariable n.id name ∈ graph.lint) ∧
    ∀ ops ops' : List Operation,
      (ops.filter fun op => !op.unread graph) = (ops'.filter fun op => !op.unread graph) →
      (Session.ofGraph graph pacing).shown ops = (Session.ofGraph graph pacing).shown ops' ∧
        (Session.ofGraph graph pacing).stream ops = (Session.ofGraph graph pacing).stream ops' ∧
        ((Session.ofGraph graph pacing).after ops).reading .empty =
          ((Session.ofGraph graph pacing).after ops').reading .empty := by
  constructor
  · intro n listed name named undeclared
    exact Graph.undeclared_reported listed named undeclared
  · intro ops ops' alike
    have here := situation_ofGraph graph pacing
    obtain ⟨shown, stream, after⟩ := Session.shown_filter here (.refl _) ops
    obtain ⟨shown', stream', after'⟩ := Session.shown_filter here (.refl _) ops'
    have same : (ops.filter fun op => !op.unread (Session.ofGraph graph pacing).graph) =
        ops'.filter fun op => !op.unread (Session.ofGraph graph pacing).graph := alike
    rw [same] at shown stream after
    refine ⟨shown.trans shown'.symm, stream.trans stream'.symm, ?_⟩
    exact after.blind.symm.trans after'.blind

/-- No node of the tavern scene asks for the player's name. -/
theorem tavern_guest_unnoticed :
    let inn := Session.ofGraph Story.Tavern.graph default
    let named : List Operation :=
      [.start, .write "player_name" (.string "Ann"), .tick (.ofMillis 600)]
    let nameless : List Operation := [.start, .tick (.ofMillis 600)]
    (inn.after named).store.value? "player_name" = some (.string "Ann") ∧
      inn.shown named = inn.shown nameless ∧ inn.stream named = inn.stream nameless ∧
      (inn.after named).reading .empty = (inn.after nameless).reading .empty := by
  intro inn named nameless
  refine ⟨by decide +kernel, ?_⟩
  exact (unread_writes_unnoticed Story.Tavern.graph default).2 named nameless (by decide +kernel)

end Parley
