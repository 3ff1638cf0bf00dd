/-! Tables whose entries carry their own name. Entries are kept in increasing order of name, at
most one for each, so two tables that answer every look-up alike are equal, whatever the order in
which they were filled. -/
namespace Parley

/-- Put an entry in its place, instead of the one with the same name if there is one. -/
def insertByName (name : α → String) (x : α) : List α → List α
  | [] => [x]
  | y :: rest =>
    if name x < name y then x :: y :: rest
    else if name x = name y then x :: rest
    else y :: insertByName name x rest

theorem mem_insertByName {name : α → String} {x y : α} {entries : List α}
    (h : y ∈ insertByName name x entries) : y = x ∨ y ∈ entries := by
  induction entries with
  | nil => exact .inl (List.mem_singleton.mp h)
  | cons z rest ih =>
    simp only [insertByName] at h
    split at h
    · simpa using h
    · split at h
      · rcases List.mem_cons.mp h with rfl | h
        · exact .inl rfl
        · exact .inr (List.mem_cons_of_mem _ h)
      · rcases List.mem_cons.mp h with rfl | h
        · exact .inr List.mem_cons_self
        · exact (ih h).imp id (List.mem_cons_of_mem _)

/-- Increasing order of names. -/
def Increasing (name : α → String) (entries : List α) : Prop :=
  entries.Pairwise fun a b => name a < name b

theorem Increasing.insertByName {name : α → String} {entries : List α}
    (sorted : Increasing name entries) (x : α) :
    Increasing name (Parley.insertByName name x entries) := by
  induction entries with
  | nil => exact List.pairwise_singleton _ _
  | cons y rest ih =>
    have ⟨below, tail⟩ := List.pairwise_cons.mp sorted
    simp only [Parley.insertByName]
    split
    case isTrue first =>
      refine List.pairwise_cons.mpr ⟨fun z hz => ?_, sorted⟩
      rcases List.mem_cons.mp hz with rfl | hz
      · exact first
      · exact String.lt_trans first (below z hz)
    case isFalse notFirst =>
      split
      case isTrue same => exact List.pairwise_cons.mpr ⟨fun z hz => same ▸ below z hz, tail⟩
      case isFalse different =>
        refine List.pairwise_cons.mpr ⟨fun z hz => ?_, ih tail⟩
        rcases mem_insertByName hz with rfl | hz
        · refine Decidable.byContradiction fun notAfter => different ?_
          exact String.le_antisymm (String.not_lt.mp notAfter) (String.not_lt.mp notFirst)
        · exact below z hz

theorem insertByName_last {name : α → String} {x : α} {entries : List α}
    (last : ∀ y ∈ entries, name y < name x) : insertByName name x entries = entries ++ [x] := by
  induction entries with
  | nil => rfl
  | cons y rest ih =>
    have before : name y < name x := last y List.mem_cons_self
    have notFirst : ¬name x < name y := String.lt_asymm before
    have different : name x ≠ name y := fun same => String.lt_irrefl (name y) (same ▸ before)
    rw [insertByName, if_neg notFirst, if_neg different,
      ih fun z later => last z (List.mem_cons_of_mem _ later)]
    rfl

structure Registry (α : Type) (name : α → String) where
  entries : List α
  increasing : Increasing name entries

namespace Registry

variable {α : Type} {name : α → String}

theorem ext {a b : Registry α name} (h : a.entries = b.entries) : a = b := by
  cases a; cases b; simp_all

def empty : Registry α name := ⟨[], List.Pairwise.nil⟩

instance : Inhabited (Registry α name) := ⟨empty⟩

/-- Add an entry; it replaces the one of the same name. -/
def insert (r : Registry α name) (x : α) : Registry α name :=
  ⟨insertByName name x r.entries, r.increasing.insertByName x⟩

/-- All entries of a list; of several with one name the last stays. -/
def ofList (xs : List α) : Registry α name := xs.foldl insert empty

/-- A table is filled anew by its own entries. -/
theorem ofList_entries (r : Registry α name) : ofList r.entries = r := by
  have filled (xs : List α) (acc : Registry α name) (sorted : Increasing name (acc.entries ++ xs)) :
      (xs.foldl insert acc).entries = acc.entries ++ xs := by
    induction xs generalizing acc with
    | nil => exact (List.append_nil _).symm
    | cons x xs ih =>
      have last : ∀ y ∈ acc.entries, name y < name x := fun y listed =>
        (List.pairwise_append.mp sorted).2.2 y listed x List.mem_cons_self
      have grown : (acc.insert x).entries = acc.entries ++ [x] := insertByName_last last
      have moved : acc.entries ++ x :: xs = (acc.insert x).entries ++ xs := by
        rw [grown, List.append_assoc]
        rfl
      rw [moved] at sorted ⊢
      exact ih _ sorted
  exact ext (filled r.entries empty r.increasing)

def find? (r : Registry α name) (wanted : String) : Option α :=
  r.entries.find? fun x => name x = wanted

def contains (r : Registry α name) (wanted : String) : Bool := (r.find? wanted).isSome

def size (r : Registry α name) : Nat := r.entries.length

/-- The names in increasing order. -/
def names (r : Registry α name) : List String := r.entries.map name

end Registry
end Parley
