import Mathlib.Data.List.Basic
import Mathlib.Data.List.Find
import Parley.Graph.Lint
import Parley.Proofs.Graph.Rest
import Parley.Proofs.Store
import Parley.Session.Basic

/-! What is read of the variables: nothing but those that the nodes name. Where two stores have the
same values under the names of a node, every field, condition and choice of it comes out alike, and
every move and every search goes the same way where they have them under the names of a graph. -/
namespace Parley

/-- The variables that the nodes of a graph name. -/
def Graph.sources (g : Graph) : List String := g.nodeList.flatMap Node.sources

variable {a b : Store}

namespace Bindable

theorem resolve_congr [Storable α] {field : Bindable α}
    (agree : a.Agree field.source?.toList b) : field.resolve a = field.resolve b := by
  unfold resolve
  cases named : field.source? with
  | none => rfl
  | some name =>
    have same : a.value? name = b.value? name := agree name (by simp [named])
    simp only [Option.bind_some, Store.get?, same]

end Bindable

/-- A field that is listed comes out alike. -/
theorem Store.Agree.resolve [Storable α] {field : Bindable α} {fields : List (Option String)}
    (agree : a.Agree (fields.filterMap fun s => s) b) (listed : field.source? ∈ fields) :
    field.resolve a = field.resolve b := by
  apply Bindable.resolve_congr
  intro name named
  refine agree name (List.mem_filterMap.mpr ⟨field.source?, listed, ?_⟩)
  exact Option.mem_toList.mp named

theorem Store.Agree.resolveActive [Storable α] {field : Bindable α}
    {fields : List (Option String)} (agree : a.Agree (fields.filterMap fun s => s) b)
    (listed : field.source? ∈ fields) : field.resolveActive a = field.resolveActive b := by
  unfold Bindable.resolveActive
  rw [agree.resolve listed]

namespace Condition

theorem holds_congr {c : Condition} (agree : a.Agree c.sources b) : c.holds a = c.holds b := by
  obtain ⟨comparison, equals, operands⟩ := c
  unfold sources at agree
  cases operands with
  | bool left right | string left right =>
    have same : equals.resolve a = equals.resolve b := agree.resolve (by simp)
    have first : left.resolve a = left.resolve b := agree.resolve (by simp)
    have second : right.resolve a = right.resolve b := agree.resolve (by simp)
    simp only [holds, same, first, second]
  | int left right | float left right =>
    have same : comparison.resolve a = comparison.resolve b := agree.resolve (by simp)
    have first : left.resolve a = left.resolve b := agree.resolve (by simp)
    have second : right.resolve a = right.resolve b := agree.resolve (by simp)
    simp only [holds, same, first, second]

theorem allHold_congr {conditions : List Condition}
    (agree : a.Agree (conditions.flatMap sources) b) :
    allHold conditions a = allHold conditions b := by
  induction conditions with
  | nil => rfl
  | cons c rest ih =>
    rw [List.flatMap_cons] at agree
    have first : c.holds a = c.holds b :=
      holds_congr (agree.mono (List.subset_append_left _ _))
    have others := ih (agree.mono (List.subset_append_right _ _))
    simp only [allHold, List.all_cons, first] at others ⊢
    rw [others]

end Condition

namespace Presentation

variable {p : Presentation} (agree : a.Agree p.sources b)
include agree

theorem preDelay_congr : p.preDelay.resolve a = p.preDelay.resolve b := agree.resolve (by simp)

theorem printSpeed_congr : p.printSpeed.resolveActive a = p.printSpeed.resolveActive b :=
  agree.resolveActive (by simp)

theorem style_congr (text : List Char) : Markup.style p a text = Markup.style p b text := by
  have bold : p.bold.resolve a = p.bold.resolve b := agree.resolve (by simp)
  have italic : p.italic.resolve a = p.italic.resolve b := agree.resolve (by simp)
  have underline : p.underline.resolve a = p.underline.resolve b := agree.resolve (by simp)
  have color : p.color.resolveActive a = p.color.resolveActive b :=
    agree.resolveActive (by simp)
  have font : p.font.resolveActive a = p.font.resolveActive b := agree.resolveActive (by simp)
  simp only [Markup.style, bold, italic, underline, color, font]

theorem cuesBefore_congr : Session.cuesBefore a p = Session.cuesBefore b p := by
  have broadcast : p.broadcast.resolveActive a = p.broadcast.resolveActive b :=
    agree.resolveActive (by simp)
  have background : p.background.resolveActive a = p.background.resolveActive b :=
    agree.resolveActive (by simp)
  have transition : p.backgroundTransition.resolve a = p.backgroundTransition.resolve b :=
    agree.resolve (by simp)
  simp only [Session.cuesBefore, broadcast, background, transition]

theorem cuesAfter_congr : Session.cuesAfter a p = Session.cuesAfter b p := by
  have tracks : p.musicQueue.resolveActive a = p.musicQueue.resolveActive b :=
    agree.resolveActive (by simp)
  have looping : p.musicLoop.resolve a = p.musicLoop.resolve b := agree.resolve (by simp)
  have shuffle : p.musicShuffle.resolve a = p.musicShuffle.resolve b := agree.resolve (by simp)
  have sounds : p.sounds.resolveActive a = p.sounds.resolveActive b :=
    agree.resolveActive (by simp)
  simp only [Session.cuesAfter, tracks, looping, shuffle, sounds]

end Presentation

theorem Speaker.plateName?_congr {speaker : Speaker}
    (agree : a.Agree ([speaker.name.source?, speaker.talking.source?,
      speaker.hideName.source?].filterMap fun n => n) b) :
    Session.plateName? a speaker = Session.plateName? b speaker := by
  have name : speaker.name.resolve a = speaker.name.resolve b := agree.resolve (by simp)
  have talking : speaker.talking.resolve a = speaker.talking.resolve b :=
    agree.resolve (by simp)
  have hides : speaker.hideName.resolve a = speaker.hideName.resolve b :=
    agree.resolve (by simp)
  simp only [Session.plateName?, name, talking, hides]

theorem Choice.offer_congr {c : Choice}
    (agree : a.Agree (([c.text.source?, c.showIfUnmet.source?].filterMap fun n => n) ++
      c.conditions.flatMap Condition.sources) b) (index : Nat) :
    c.offer a index = c.offer b index := by
  have fields := agree.mono (List.subset_append_left _ _)
  have text : c.text.resolve a = c.text.resolve b := fields.resolve (by simp)
  have stays : c.showIfUnmet.resolve a = c.showIfUnmet.resolve b := fields.resolve (by simp)
  have enabled : Condition.allHold c.conditions a = Condition.allHold c.conditions b :=
    Condition.allHold_congr (agree.mono (List.subset_append_right _ _))
  simp only [Choice.offer, text, stays, enabled]

namespace Dialogue

variable {d : Dialogue} (agree : a.Agree (Node.dialogue d).sources b)
include agree

theorem settings_agree : a.Agree d.settings.sources b :=
  agree.mono fun _ listed => List.mem_append_left _ (List.mem_append_left _ listed)

theorem plates_congr :
    d.speakers.filterMap (Session.plateName? a) = d.speakers.filterMap (Session.plateName? b) := by
  apply List.filterMap_congr
  intro speaker listed
  apply Speaker.plateName?_congr
  intro name named
  refine agree name (List.mem_append_left _ (List.mem_append_right _ ?_))
  exact List.mem_flatMap.mpr ⟨speaker, listed, named⟩

theorem offers_congr : d.offers a = d.offers b := by
  have alike (index : Nat) (c : Choice) (written : d.choices[index]? = some c) :
      c.offer a index = c.offer b index := by
    apply Choice.offer_congr
    intro name named
    refine agree name (List.mem_append_right _ ?_)
    exact List.mem_flatMap.mpr ⟨c, List.mem_of_getElem? written, named⟩
  apply List.ext_getElem?
  intro index
  simp only [offers, List.getElem?_mapIdx]
  cases written : d.choices[index]? with
  | none => rfl
  | some c => exact congrArg some (alike index c written)

end Dialogue

namespace Splitter

variable {s : Splitter} (agree : a.Agree (Node.splitter s).sources b)
include agree

theorem isOpen_congr : ∀ branch ∈ s.branches, branch.isOpen a = branch.isOpen b := by
  intro branch listed
  apply Condition.allHold_congr
  intro name named
  exact agree name (List.mem_flatMap.mpr ⟨branch, listed, named⟩)

theorem exit_congr : s.exit a = s.exit b := by
  have same : (s.branches.find? fun branch => branch.isOpen a) =
      s.branches.find? fun branch => branch.isOpen b :=
    List.find?_congr (isOpen_congr agree)
  simp only [exit, same]

theorem openTargets_congr : s.openTargets a = s.openTargets b := by
  have same : (s.branches.filter fun branch => branch.isOpen a) =
      s.branches.filter fun branch => branch.isOpen b :=
    List.filter_congr (isOpen_congr agree)
  simp only [openTargets, same]

end Splitter

namespace Graph

variable {g : Graph} {id : NodeId}

theorem sources_subset {n : Node} (found : g.node? id = some n) : n.sources ⊆ g.sources :=
  fun _ named => List.mem_flatMap.mpr ⟨n, (node?_listed found).1, named⟩

/-- The problems of a graph tell of every variable that a node names and nobody declares. -/
theorem undeclared_reported {n : Node} (listed : n ∈ g.nodeList) (named : name ∈ n.sources)
    (undeclared : name ∉ g.declarations.map Variable.name) :
    .undeclaredVariable n.id name ∈ g.lint := by
  have reported : name ∈ sourceNames n := by
    have known : name ∈ (Registry.ofList n.sources : Registry String fun s => s).names :=
      Registry.mem_names_ofList.mpr (by simpa using named)
    rwa [Registry.names, List.map_id'] at known
  have issue : .undeclaredVariable n.id name ∈ g.variableIssues n := by
    refine List.mem_map.mpr ⟨name, List.mem_filter.mpr ⟨reported, ?_⟩, rfl⟩
    exact decide_eq_true undeclared
  refine List.mem_append_left _ (List.mem_append_right _ ?_)
  exact List.mem_flatMap.mpr ⟨n, listed, List.mem_append_right _ issue⟩

section Moves

variable (agree : a.Agree g.sources b)
include agree

theorem node_agree {n : Node} (found : g.node? id = some n) : a.Agree n.sources b :=
  agree.mono (sources_subset found)

theorem travelWithin_congr (hops : Nat) (target : Option NodeId) :
    g.travelWithin a hops target = g.travelWithin b hops target := by
  have alike {s : Splitter} {target : Option NodeId}
      (found : target.bind g.node? = some (.splitter s)) : s.exit a = s.exit b := by
    obtain ⟨id, -, found⟩ := Option.bind_eq_some_iff.mp found
    exact Splitter.exit_congr (node_agree agree found)
  fun_induction g.travelWithin b hops target with
  | case1 _ _ found | case2 _ _ _ found | case3 _ _ _ found =>
    rw [travelWithin]
    simp only [found]
  | case4 _ _ s found stall =>
    rw [travelWithin]
    simp only [found, alike found, stall]
  | case5 _ s found _ onward =>
    rw [travelWithin]
    simp only [found, alike found, onward]
  | case6 _ s found next hops onward ih =>
    rw [travelWithin]
    simpa only [found, alike found, onward] using ih

theorem travel_congr (target : Option NodeId) : g.travel a target = g.travel b target :=
  travelWithin_congr agree hopLimit target

theorem proceed_congr (position : Option NodeId) : g.proceed a position = g.proceed b position :=
  travel_congr agree _

theorem follow?_congr (position : Option NodeId) (index : Nat) :
    g.follow? a position index = g.follow? b position index := by
  simp only [follow?, travel_congr agree]

theorem searchWithin_congr (hops : Nat) : g.searchWithin a hops = g.searchWithin b hops := by
  induction hops with
  | zero => rfl
  | succ hops ih =>
    funext id barren
    simp only [searchWithin, ih]
    split
    case isTrue => rfl
    case isFalse =>
      cases found : g.node? id with
      | none => rfl
      | some n =>
        cases n with
        | dialogue d => rfl
        | interrupt i => rfl
        | splitter s => simp only [Splitter.openTargets_congr (node_agree agree found)]

theorem ahead?_congr (target : Option NodeId) : g.ahead? a target = g.ahead? b target := by
  simp only [ahead?, searchWithin_congr agree]

end Moves

end Graph
end Parley
