/-
# Regions of a store without safe texts

A template that is rendered can reach a part of the store only: what the names lead to, and what
it makes itself.  A `Region` is such a part, with room for everything that is made later, so that
it stays the same during a run.  `Region.Holds` says that no safe text lies in it: no container
holds one, and no object of the caller gives one or can say that it is markup already.

* `Region.Plain` are the values that may lie in a region;
* `Store.Reaches` are the values that some values lead to, and `Region.of` is the region of them;
* each change that a run makes to a store keeps the region (`Holds.setDict` and so on).
-/
import TextTemplate.Expression.Filter

namespace TextTemplate

/-! ## 1. Regions -/

/-- Some of the containers and objects of a store. -/
structure Region where
  lists : Ref → Prop
  tuples : Ref → Prop
  dicts : Ref → Prop
  objects : Ref → Prop

namespace Region

/-- The value refers to nothing outside the region, and is no function with safe results. -/
def Has (R : Region) : Value → Prop
  | .list r => R.lists r
  | .tuple r => R.tuples r
  | .dict r => R.dicts r
  | .view _ r _ => R.dicts r
  | .object r => R.objects r
  | .function .. => False
  | _ => True

/-- The value may lie in the region: it is no safe text either. -/
def Plain (R : Region) (v : Value) : Prop := R.Has v ∧ Filter.isSafe v = false

/-- All entries of a mapping may lie in the region. -/
def PlainDict (R : Region) (d : Dict) : Prop := ∀ e ∈ d, R.Plain e.label ∧ R.Plain e.value

end Region

/-- The values that an object gives, by whatever is done with it. -/
inductive Object.Gives (o : Object) : Value → Prop where
  | attribute {a : String × Value} (mem : a ∈ o.attributes) : Gives o a.2
  | method {m : Method} {v : Value} (mem : m ∈ o.methods) (returns : m.outcome = .returns v) :
      Gives o v
  | property {a : String × Outcome} {v : Value} (mem : a ∈ o.properties)
      (returns : a.2 = .returns v) : Gives o v
  | item {items : List (Key × Outcome)} {a : Key × Outcome} {v : Value}
      (some : o.items = some items) (mem : a ∈ items) (returns : a.2 = .returns v) : Gives o v
  | call {v : Value} (some : o.call = some (.returns v)) : Gives o v
  | iteration {v : Value} (some : o.iteration = some v) : Gives o v

/-- Can a member be called? -/
def Store.canCall (s : Store) : Member → Bool
  | .value v => s.isCallable v
  | .method .. => true
  | .data .. => true

/-- An object cannot say that it is markup: it has no method that does. -/
def Store.Unmarked (s : Store) (o : Object) : Prop :=
  ∀ m, o.attribute? markupAttribute = some (.ok m) → s.canCall m = false

/-- No safe text lies in a region of a store, and all that is made later lies in the region. -/
structure Region.Holds (R : Region) (s : Store) : Prop where
  lists : ∀ r, R.lists r → ∀ v ∈ s.list r, R.Plain v
  tuples : ∀ r, R.tuples r → ∀ v ∈ s.tuple r, R.Plain v
  dicts : ∀ r, R.dicts r → R.PlainDict (s.dict r)
  objects : ∀ r, R.objects r → ∀ v, (s.object r).Gives v → R.Plain v
  unmarked : ∀ r, R.objects r → s.Unmarked (s.object r)
  newLists : ∀ r, s.lists.size ≤ r → R.lists r
  newTuples : ∀ r, s.tuples.size ≤ r → R.tuples r
  newDicts : ∀ r, s.dicts.size ≤ r → R.dicts r

namespace Region

variable {R : Region}

theorem plain_text (s : String) : R.Plain (.plain s) := ⟨trivial, rfl⟩

theorem plain_int (n : Int) : R.Plain (.int n) := ⟨trivial, rfl⟩

theorem plain_float (x : Decimal.Binary64) : R.Plain (.float x) := ⟨trivial, rfl⟩

theorem plain_nan (i : Nat) : R.Plain (.nan i) := ⟨trivial, rfl⟩

theorem plain_bool (b : Bool) : R.Plain (.bool b) := ⟨trivial, rfl⟩

theorem plain_none : R.Plain .none := ⟨trivial, rfl⟩

theorem PlainDict.insert {d : Dict} (h : R.PlainDict d) (k : Key) {label value : Value}
    (hl : R.Plain label) (hv : R.Plain value) : R.PlainDict (d.insert k label value) := by
  induction d with
  | nil =>
    intro e he
    rcases List.mem_singleton.mp he with rfl
    exact ⟨hl, hv⟩
  | cons e' rest ih =>
    obtain ⟨he', hrest⟩ := List.forall_mem_cons.mp h
    unfold Dict.insert
    split
    · exact List.forall_mem_cons.mpr ⟨⟨he'.1, hv⟩, hrest⟩
    · exact List.forall_mem_cons.mpr ⟨he', ih hrest⟩

theorem PlainDict.find? {d : Dict} (h : R.PlainDict d) {k : Key} {v : Value}
    (hv : d.find? k = some v) : R.Plain v := by
  induction d with
  | nil => cases hv
  | cons e rest ih =>
    obtain ⟨he, hrest⟩ := List.forall_mem_cons.mp h
    unfold Dict.find? at hv
    split at hv
    · cases hv
      exact he.2
    · exact ih hrest hv

/-! ## 2. Changes of a store -/

namespace Holds

variable {s : Store}

/-- A changed list. -/
theorem setList (h : R.Holds s) (r : Ref) {items : List Value} (hi : ∀ v ∈ items, R.Plain v) :
    R.Holds (s.setList r items) := by
  refine { h with lists := fun r' hr v hv => ?_, newLists := fun r' hr => ?_ }
  · unfold Store.list Store.setList at hv
    rw [Array.getElem?_setIfInBounds] at hv
    split at hv
    · split at hv
      · exact hi v hv
      · cases hv
    · exact h.lists r' hr v hv
  · refine h.newLists r' ?_
    rw [← Array.size_setIfInBounds]
    exact hr

/-- A changed mapping. -/
theorem setDict (h : R.Holds s) (r : Ref) {d : Dict} (hd : R.PlainDict d) :
    R.Holds (s.setDict r d) := by
  refine { h with dicts := fun r' hr e he => ?_, newDicts := fun r' hr => ?_ }
  · unfold Store.dict Store.setDict at he
    rw [Array.getElem?_setIfInBounds] at he
    split at he
    · split at he
      · exact hd e he
      · cases he
    · exact h.dicts r' hr e he
  · refine h.newDicts r' ?_
    rw [← Array.size_setIfInBounds]
    exact hr

/-- A new list lies in the region. -/
theorem newList (h : R.Holds s) {items : List Value} (hi : ∀ v ∈ items, R.Plain v) :
    R.Holds (s.newList items).2 ∧ R.Plain (s.newList items).1 := by
  refine ⟨{ h with lists := fun r hr v hv => ?_, newLists := fun r hr => ?_ },
    h.newLists _ (Nat.le_refl _), rfl⟩
  · unfold Store.list Store.newList at hv
    rw [Array.getElem?_push] at hv
    split at hv
    · exact hi v hv
    · exact h.lists r hr v hv
  · have hsize : (s.lists.push items).size ≤ r := hr
    rw [Array.size_push] at hsize
    exact h.newLists r (Nat.le_of_succ_le hsize)

/-- A new tuple lies in the region. -/
theorem newTuple (h : R.Holds s) {items : List Value} (hi : ∀ v ∈ items, R.Plain v) :
    R.Holds (s.newTuple items).2 ∧ R.Plain (s.newTuple items).1 := by
  refine ⟨{ h with tuples := fun r hr v hv => ?_, newTuples := fun r hr => ?_ },
    h.newTuples _ (Nat.le_refl _), rfl⟩
  · unfold Store.tuple Store.newTuple at hv
    rw [Array.getElem?_push] at hv
    split at hv
    · exact hi v hv
    · exact h.tuples r hr v hv
  · have hsize : (s.tuples.push items).size ≤ r := hr
    rw [Array.size_push] at hsize
    exact h.newTuples r (Nat.le_of_succ_le hsize)

/-- A new mapping lies in the region. -/
theorem newDict (h : R.Holds s) {d : Dict} (hd : R.PlainDict d) :
    R.Holds (s.newDict d).2 ∧ R.Plain (s.newDict d).1 := by
  refine ⟨{ h with dicts := fun r hr e he => ?_, newDicts := fun r hr => ?_ },
    h.newDicts _ (Nat.le_refl _), rfl⟩
  · unfold Store.dict Store.newDict at he
    rw [Array.getElem?_push] at he
    split at he
    · exact hd e he
    · exact h.dicts r hr e he
  · have hsize : (s.dicts.push d).size ≤ r := hr
    rw [Array.size_push] at hsize
    exact h.newDicts r (Nat.le_of_succ_le hsize)

/-- A new identity changes nothing that lies in the region. -/
theorem newIdentity (h : R.Holds s) : R.Holds s.newIdentity.2 := { h with }

end Holds
end Region

/-! ## 3. What can be reached -/

/-- The values that some values lead to. -/
inductive Store.Reaches (s : Store) (roots : Value → Prop) : Value → Prop where
  | root {v : Value} (root : roots v) : Reaches s roots v
  | list {r : Ref} {v : Value} (outer : Reaches s roots (.list r)) (mem : v ∈ s.list r) :
      Reaches s roots v
  | tuple {r : Ref} {v : Value} (outer : Reaches s roots (.tuple r)) (mem : v ∈ s.tuple r) :
      Reaches s roots v
  | label {r : Ref} {e : Entry} (outer : Reaches s roots (.dict r)) (mem : e ∈ s.dict r) :
      Reaches s roots e.label
  | value {r : Ref} {e : Entry} (outer : Reaches s roots (.dict r)) (mem : e ∈ s.dict r) :
      Reaches s roots e.value
  | view {kind : ViewKind} {r : Ref} {i : Nat} (outer : Reaches s roots (.view kind r i)) :
      Reaches s roots (.dict r)
  | object {r : Ref} {v : Value} (outer : Reaches s roots (.object r))
      (gives : (s.object r).Gives v) : Reaches s roots v

/-- Nothing that some values lead to is a safe text, a function with safe results, or an object
that can say that it is markup already. -/
structure Store.Clean (s : Store) (roots : Value → Prop) : Prop where
  unsafe_text : ∀ t, ¬s.Reaches roots (.markup t)
  no_function : ∀ r i, ¬s.Reaches roots (.function r i)
  unmarked : ∀ r, s.Reaches roots (.object r) → s.Unmarked (s.object r)

/-- The region of what some values lead to, with room for what is made later. -/
def Region.of (s : Store) (roots : Value → Prop) : Region where
  lists r := s.Reaches roots (.list r) ∨ s.lists.size ≤ r
  tuples r := s.Reaches roots (.tuple r) ∨ s.tuples.size ≤ r
  dicts r := s.Reaches roots (.dict r) ∨ s.dicts.size ≤ r
  objects r := s.Reaches roots (.object r)

namespace Region

variable {s : Store} {roots : Value → Prop}

theorem plain_of_reaches (h : s.Clean roots) {v : Value} (hv : s.Reaches roots v) :
    (Region.of s roots).Plain v := by
  cases v with
  | text t safe =>
    cases safe with
    | false => exact plain_text t
    | true => exact absurd hv (h.unsafe_text t)
  | list r => exact ⟨.inl hv, rfl⟩
  | tuple r => exact ⟨.inl hv, rfl⟩
  | dict r => exact ⟨.inl hv, rfl⟩
  | view kind r i => exact ⟨.inl hv.view, rfl⟩
  | object r => exact ⟨hv, rfl⟩
  | function r i => exact absurd hv (h.no_function r i)
  | _ => exact ⟨trivial, rfl⟩

/-- **The region of what can be reached** holds no safe text, if none can be reached. -/
theorem holds_of_clean (h : s.Clean roots) : (Region.of s roots).Holds s where
  lists r hr v hv := by
    rcases hr with hr | hr
    · exact plain_of_reaches h (hr.list hv)
    · rw [Store.list, Array.getElem?_eq_none hr] at hv
      cases hv
  tuples r hr v hv := by
    rcases hr with hr | hr
    · exact plain_of_reaches h (hr.tuple hv)
    · rw [Store.tuple, Array.getElem?_eq_none hr] at hv
      cases hv
  dicts r hr e he := by
    rcases hr with hr | hr
    · exact ⟨plain_of_reaches h (hr.label he), plain_of_reaches h (hr.value he)⟩
    · rw [Store.dict, Array.getElem?_eq_none hr] at he
      cases he
  objects r hr v hv := plain_of_reaches h (hr.object hv)
  unmarked r hr := h.unmarked r hr
  newLists r hr := .inr hr
  newTuples r hr := .inr hr
  newDicts r hr := .inr hr

end Region
end TextTemplate
