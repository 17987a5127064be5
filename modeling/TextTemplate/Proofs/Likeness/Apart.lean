/-
# A root layer that no value leads to

A template changes the root layer of its scopes by writing names in it.  It could also change it
through a method of the container that the layer lies in, if a value led to that container:
`Scopes.Apart` says that none does.

Then a run is like itself, with each container that values lead to paired with itself, and so is
the next state of the store, and the root layer stays the same but for some names.

* `Store.Leads` are the values that some values lead to, and `Scopes.Exposes` those that names
  stand for;
* `Scopes.diagonal` pairs the containers that values lead to with themselves;
* `Scopes.Apart.likeness` adds what happens to the root layer, and `Scopes.Apart.roots` which names
  may be written in it.
-/
import TextTemplate.Proofs.Likeness.Execution

namespace TextTemplate

open Correspondence Likeness Relator

/-! ## 1. What values lead to -/

/-- What a piece of the caller's code gives, or raises an error about. -/
def Outcome.Carries : Outcome → Value → Prop
  | .returns v, w => w = v
  | .raises _ a, w => a = some w

/-- The values that an object gives or raises errors about, by whatever is done with it. -/
inductive Object.Shows (o : Object) : Value → Prop where
  | member {a : String × Value} (mem : a ∈ o.attributes) : Shows o a.2
  | method {m : Method} {v : Value} (mem : m ∈ o.methods) (carries : m.outcome.Carries v) :
      Shows o v
  | property {a : String × Outcome} {v : Value} (mem : a ∈ o.properties)
      (carries : a.2.Carries v) : Shows o v
  | item {items : List (Key × Outcome)} {a : Key × Outcome} {v : Value}
      (some : o.items = some items) (mem : a ∈ items) (carries : a.2.Carries v) : Shows o v
  | call {outcome : Outcome} {v : Value} (some : o.call = some outcome)
      (carries : outcome.Carries v) : Shows o v
  | iteration {v : Value} (some : o.iteration = some v) : Shows o v

/-- The values that some values lead to.  A view leads to the entries of its mapping, but not to
the mapping itself. -/
inductive Store.Leads (s : Store) (roots : Value → Prop) : Value → Prop where
  | root {v : Value} (root : roots v) : Leads s roots v
  | list {r : Ref} {v : Value} (outer : Leads s roots (.list r)) (mem : v ∈ s.list r) :
      Leads s roots v
  | tuple {r : Ref} {v : Value} (outer : Leads s roots (.tuple r)) (mem : v ∈ s.tuple r) :
      Leads s roots v
  | label {r : Ref} {e : Entry} (outer : Leads s roots (.dict r)) (mem : e ∈ s.dict r) :
      Leads s roots e.label
  | value {r : Ref} {e : Entry} (outer : Leads s roots (.dict r)) (mem : e ∈ s.dict r) :
      Leads s roots e.value
  | viewLabel {kind : ViewKind} {r : Ref} {i : Nat} {e : Entry}
      (outer : Leads s roots (.view kind r i)) (mem : e ∈ s.dict r) : Leads s roots e.label
  | viewValue {kind : ViewKind} {r : Ref} {i : Nat} {e : Entry}
      (outer : Leads s roots (.view kind r i)) (mem : e ∈ s.dict r) : Leads s roots e.value
  | object {r : Ref} {v : Value} (outer : Leads s roots (.object r))
      (shows' : (s.object r).Shows v) : Leads s roots v
  | function {r : Ref} {i : Nat} {v : Value} (outer : Leads s roots (.function r i))
      (shows' : (s.object r).Shows v) : Leads s roots v

/-- What holds of some values and of all that the containers and objects hold, holds of whatever the
values lead to. -/
theorem Store.Leads.all {s : Store} {roots P : Value → Prop} (hroots : ∀ v, roots v → P v)
    (hlist : ∀ r, ∀ v ∈ s.list r, P v) (htuple : ∀ r, ∀ v ∈ s.tuple r, P v)
    (hdict : ∀ r, ∀ e ∈ s.dict r, P e.label ∧ P e.value)
    (hobject : ∀ r v, (s.object r).Shows v → P v) {v : Value} (h : s.Leads roots v) : P v := by
  cases h with
  | root root => exact hroots _ root
  | list outer mem => exact hlist _ _ mem
  | tuple outer mem => exact htuple _ _ mem
  | label outer mem => exact (hdict _ _ mem).1
  | value outer mem => exact (hdict _ _ mem).2
  | viewLabel outer mem => exact (hdict _ _ mem).1
  | viewValue outer mem => exact (hdict _ _ mem).2
  | object outer shows' => exact hobject _ _ shows'
  | function outer shows' => exact hobject _ _ shows'

/-- The mapping whose entries a value shows: its own, or those that it is a view of. -/
def Value.mapping? : Value → Option Ref
  | .dict r | .view _ r _ => some r
  | _ => .none

namespace Scopes

/-- The values that names lead to at once: what the layers hold.  A root layer that is neither a
mapping nor a list cannot be changed, and counts as a value itself. -/
inductive Exposes (s : Store) (c : Scopes) : Value → Prop where
  | pushedLabel {layer : Dict} {e : Entry} (here : layer ∈ c.pushed) (mem : e ∈ layer) :
      Exposes s c e.label
  | pushedValue {layer : Dict} {e : Entry} (here : layer ∈ c.pushed) (mem : e ∈ layer) :
      Exposes s c e.value
  | rootLabel {r : Ref} {e : Entry} (root : c.root = .dict r) (mem : e ∈ s.dict r) :
      Exposes s c e.label
  | rootValue {r : Ref} {e : Entry} (root : c.root = .dict r) (mem : e ∈ s.dict r) :
      Exposes s c e.value
  | rootItem {r : Ref} {v : Value} (root : c.root = .list r) (mem : v ∈ s.list r) : Exposes s c v
  | root (dict : ∀ r, c.root ≠ .dict r) (list : ∀ r, c.root ≠ .list r) : Exposes s c c.root

/-- The values that names lead to. -/
abbrev Leads (s : Store) (c : Scopes) : Value → Prop := s.Leads (c.Exposes s)

/-- The root layer lies in a container that no name leads to.  So no method of a value that a
template can get at changes the layer. -/
structure Apart (s : Store) (c : Scopes) : Prop where
  mapping : ∀ r, c.root.mapping? = some r → r < s.dicts.size ∧ ¬ c.Leads s (.dict r)
  list : ∀ r, c.root = .list r → r < s.lists.size ∧ ¬ c.Leads s (.list r)

/-- A mapping is apart from what names lead to if nothing holds it, neither a container nor a layer,
and there are no objects. -/
theorem Apart.of_unheld {s : Store} {c : Scopes} {r : Ref} (hroot : c.root = .dict r)
    (hr : r < s.dicts.size) (hlists : ∀ items ∈ s.lists, ∀ v ∈ items, v ≠ .dict r)
    (htuples : ∀ items ∈ s.tuples, ∀ v ∈ items, v ≠ .dict r)
    (hdicts : ∀ d ∈ s.dicts, ∀ e ∈ d, e.label ≠ .dict r ∧ e.value ≠ .dict r)
    (hobjects : s.objects = #[])
    (hpushed : ∀ layer ∈ c.pushed, ∀ e ∈ layer, e.label ≠ .dict r ∧ e.value ≠ .dict r) :
    c.Apart s := by
  have hitems : ∀ {rows : Array (List Value)}, (∀ items ∈ rows, ∀ v ∈ items, v ≠ .dict r) →
      ∀ q : Ref, ∀ v ∈ (rows[q]?).getD [], v ≠ .dict r := by
    intro rows h q v hv
    cases hq : rows[q]? with
    | none => rw [hq] at hv; cases hv
    | some items =>
      rw [hq] at hv
      exact h items (Array.mem_of_getElem? hq) v hv
  have hentries : ∀ q : Ref, ∀ e ∈ s.dict q, e.label ≠ .dict r ∧ e.value ≠ .dict r := by
    intro q e he
    unfold Store.dict at he
    cases hq : s.dicts[q]? with
    | none => rw [hq] at he; cases he
    | some d =>
      rw [hq] at he
      exact hdicts d (Array.mem_of_getElem? hq) e he
  have hexposed : ∀ v, c.Exposes s v → v ≠ .dict r := by
    intro v hv
    cases hv with
    | pushedLabel here mem => exact (hpushed _ here _ mem).1
    | pushedValue here mem => exact (hpushed _ here _ mem).2
    | rootLabel _ mem => exact (hentries _ _ mem).1
    | rootValue _ mem => exact (hentries _ _ mem).2
    | rootItem _ mem => exact hitems hlists _ _ mem
    | root dict _ => exact absurd hroot (dict r)
  have hobject : ∀ q v, (s.object q).Shows v → v ≠ .dict r := by
    intro q v hv
    have hnone : s.object q = ⟨"", none, [], [], [], none, none, false, none⟩ := by
      simp [Store.object, hobjects]
    rw [hnone] at hv
    cases hv with
    | member mem => exact absurd mem List.not_mem_nil
    | method mem _ => exact absurd mem List.not_mem_nil
    | property mem _ => exact absurd mem List.not_mem_nil
    | item some _ _ => exact nomatch some
    | call some _ => exact nomatch some
    | iteration some => exact nomatch some
  constructor
  · intro q hq
    rw [hroot] at hq
    cases hq
    exact ⟨hr, fun h => h.all hexposed (hitems hlists) (hitems htuples) hentries hobject rfl⟩
  · intro q hq
    exact nomatch hroot.symm.trans hq

end Scopes

/-! ## 2. Each container paired with itself -/

theorem diagonal_unique {α : Type} (P : α → Prop) : BiUnique fun a b => a = b ∧ P a :=
  ⟨fun _ _ _ h h' => h.1.trans h'.1.symm, fun _ _ _ h h' => h.1.symm.trans h'.1⟩

/-- Each container that names lead to paired with itself, and each that does not exist yet. -/
def Scopes.diagonal (s : Store) (c : Scopes) : Correspondence where
  rows r r' := r = r' ∧ (c.Leads s (.list r) ∨ c.root = .list r ∨ s.lists.size ≤ r)
  lists r r' := r = r' ∧ (c.Leads s (.list r) ∨ s.lists.size ≤ r)
  tuples r r' := r = r' ∧ (c.Leads s (.tuple r) ∨ s.tuples.size ≤ r)
  mappings r r' := r = r' ∧ (c.Leads s (.dict r) ∨ (∃ kind i, c.Leads s (.view kind r i)) ∨
    c.root = .dict r ∨ s.dicts.size ≤ r)
  dicts r r' := r = r' ∧ (c.Leads s (.dict r) ∨ s.dicts.size ≤ r)
  marks r r' := r = r' ∧ True
  objects r r' := r = r' ∧ (c.Leads s (.object r) ∨ ∃ i, c.Leads s (.function r i))
  identities i i' := i = i' ∧ True
  rows_unique := diagonal_unique _
  tuples_unique := diagonal_unique _
  mappings_unique := diagonal_unique _
  marks_unique := diagonal_unique _
  identities_unique := diagonal_unique _
  rows_of_lists h := ⟨h.1, h.2.imp_right .inr⟩
  mappings_of_dicts h := ⟨h.1, h.2.imp_right fun h => .inr (.inr h)⟩
  marks_of_objects h := ⟨h.1, trivial⟩

section Diagonal

variable {s : Store} {c : Scopes} {v v' : Value}

theorem Correspondence.Like.eq (h : (c.diagonal s).Like v v') : v = v' := by
  cases h with
  | nan same => rw [same.1]
  | list same => rw [same.1]
  | tuple same => rw [same.1]
  | dict same => rw [same.1]
  | view kind same view => rw [same.1, view.1]
  | object same => rw [same.1]
  | function same function => rw [same.1, function.1]
  | _ => rfl

theorem Correspondence.LikeKey.eq {k k' : Key} (h : (c.diagonal s).LikeKey k k') : k = k' := by
  induction h with
  | nan same => rw [same.1]
  | view same => rw [same.1]
  | object same => rw [same.1]
  | function same => rw [same.1]
  | pair _ _ hh ht => rw [hh, ht]
  | _ => rfl

theorem Correspondence.LikeItems.eq {xs xs' : List Value} (h : (c.diagonal s).LikeItems xs xs') :
    xs = xs' := by
  induction h with
  | nil => rfl
  | cons hx _ ih => rw [hx.eq, ih]

theorem Correspondence.LikeDict.eq {d d' : Dict} (h : (c.diagonal s).LikeDict d d') : d = d' := by
  induction h with
  | nil => rfl
  | @cons e e' _ _ he _ ih =>
    obtain ⟨k, l, v⟩ := e
    obtain ⟨k', l', v'⟩ := e'
    obtain ⟨hk, hl, hv⟩ := he
    rw [ih, show k = k' from hk.eq, show l = l' from hl.eq, show v = v' from hv.eq]

namespace Scopes

/-- **What names lead to is like itself.** -/
theorem Leads.like (h : c.Leads s v) : (c.diagonal s).Like v v := by
  cases v with
  | none => exact .none
  | bool b => exact .bool b
  | int n => exact .int n
  | float x => exact .float x
  | nan i => exact .nan ⟨rfl, trivial⟩
  | text t safe => exact .text t safe
  | range start stop => exact .range start stop
  | list r => exact .list ⟨rfl, .inl h⟩
  | tuple r => exact .tuple ⟨rfl, .inl h⟩
  | dict r => exact .dict ⟨rfl, .inl h⟩
  | view kind r i => exact .view kind ⟨rfl, .inr (.inl ⟨kind, i, h⟩)⟩ ⟨rfl, trivial⟩
  | object r => exact .object ⟨rfl, .inl h⟩
  | function r i => exact .function ⟨rfl, .inr ⟨i, h⟩⟩ ⟨rfl, trivial⟩

theorem likeKey_self (s : Store) (c : Scopes) : ∀ k : Key, (c.diagonal s).LikeKey k k
  | .none => .none
  | .int n => .int n
  | .float x => .float x
  | .nan _ => .nan ⟨rfl, trivial⟩
  | .text t => .text t
  | .range start length => .range start length
  | .view _ => .view ⟨rfl, trivial⟩
  | .object _ => .object ⟨rfl, trivial⟩
  | .function _ => .function ⟨rfl, trivial⟩
  | .unit => .unit
  | .pair head tail => .pair (likeKey_self s c head) (likeKey_self s c tail)

theorem likeItems_self {xs : List Value} (h : ∀ v ∈ xs, c.Leads s v) :
    (c.diagonal s).LikeItems xs xs := List.forall₂_same.mpr fun v hv => (h v hv).like

theorem likeDict_self {d : Dict} (h : ∀ e ∈ d, c.Leads s e.label ∧ c.Leads s e.value) :
    (c.diagonal s).LikeDict d d :=
  List.forall₂_same.mpr fun e he => ⟨likeKey_self s c e.key, (h e he).1.like, (h e he).2.like⟩

theorem likeOption_self {α : Type} {P : α → α → Prop} : ∀ {o : Option α},
    (∀ a, o = some a → P a a) → Option.Rel P o o
  | none, _ => .none
  | some a, h => .some (h a rfl)

theorem likeOutcome_self {o : Outcome} (h : ∀ v, o.Carries v → c.Leads s v) :
    (c.diagonal s).LikeOutcome o o := by
  cases o with
  | returns v => exact .returns (h v rfl).like
  | raises kind a => exact .raises kind (likeOption_self fun v hv => (h v hv).like)

/-- An object that shows only what names lead to is like itself. -/
theorem likeObject_self {o : Object} (h : ∀ v, o.Shows v → c.Leads s v) :
    (c.diagonal s).LikeObject o o where
  name := rfl
  ownText := rfl
  attributes := List.forall₂_same.mpr fun _ ha => ⟨rfl, (h _ (.member ha)).like⟩
  methods := List.forall₂_same.mpr fun _ hm =>
    ⟨rfl, rfl, likeOutcome_self fun v hv => h v (.method hm hv)⟩
  properties := List.forall₂_same.mpr fun _ ha =>
    ⟨rfl, likeOutcome_self fun v hv => h v (.property ha hv)⟩
  items := likeOption_self fun _ hitems => List.forall₂_same.mpr fun _ ha =>
    ⟨likeKey_self s c _, likeOutcome_self fun v hv => h v (.item hitems ha hv)⟩
  call := likeOption_self fun _ hcall => likeOutcome_self fun v hv => h v (.call hcall hv)
  noCall := rfl
  iteration := likeOption_self fun _ hv => (h _ (.iteration hv)).like

/-- **The containers that names lead to hold what names lead to.** -/
theorem contents_self (s : Store) (c : Scopes) :
    (∀ {r}, (c.diagonal s).rows r r → (c.diagonal s).LikeItems (s.list r) (s.list r)) ∧
    (∀ {r}, (c.diagonal s).tuples r r → (c.diagonal s).LikeItems (s.tuple r) (s.tuple r)) ∧
    (∀ {r}, (c.diagonal s).mappings r r → (c.diagonal s).LikeDict (s.dict r) (s.dict r)) ∧
    ∀ {r}, (c.diagonal s).objects r r → (c.diagonal s).LikeObject (s.object r) (s.object r) := by
  refine ⟨?_, ?_, ?_, ?_⟩
  · rintro r ⟨-, h | h | h⟩
    · exact likeItems_self fun v hv => h.list hv
    · exact likeItems_self fun v hv => .root (.rootItem h hv)
    · rw [Store.list, Array.getElem?_eq_none h]
      exact .nil
  · rintro r ⟨-, h | h⟩
    · exact likeItems_self fun v hv => h.tuple hv
    · rw [Store.tuple, Array.getElem?_eq_none h]
      exact .nil
  · rintro r ⟨-, h | ⟨kind, i, h⟩ | h | h⟩
    · exact likeDict_self fun e he => ⟨h.label he, h.value he⟩
    · exact likeDict_self fun e he => ⟨h.viewLabel he, h.viewValue he⟩
    · exact likeDict_self fun e he => ⟨.root (.rootLabel h he), .root (.rootValue h he)⟩
    · rw [Store.dict, Array.getElem?_eq_none h]
      exact .nil
  · rintro r ⟨-, h | ⟨i, h⟩⟩
    · exact likeObject_self fun v hv => h.object hv
    · exact likeObject_self fun v hv => h.function hv

/-- The root layer can be looked into, on both sides alike. -/
theorem readable_root (s : Store) (c : Scopes) : (c.diagonal s).Readable c.root c.root := by
  by_cases hdict : ∃ r, c.root = .dict r
  · obtain ⟨r, hr⟩ := hdict
    rw [hr]
    exact .dict ⟨rfl, .inr (.inr (.inl hr))⟩
  by_cases hlist : ∃ r, c.root = .list r
  · obtain ⟨r, hr⟩ := hlist
    rw [hr]
    exact .list ⟨rfl, .inr (.inl hr)⟩
  have hroot : c.Leads s c.root :=
    .root (.root (fun r hr => hdict ⟨r, hr⟩) fun r hr => hlist ⟨r, hr⟩)
  exact .like hroot.like

end Scopes
end Diagonal

/-! ## 3. The root layer -/

/-- The root layer is the same in two stores, but for what stands at some names. -/
structure RootKept (writes : String → Prop) (root : Value) (s s' : Store) : Prop where
  mapping : ∀ r, root.mapping? = some r → ∀ k, (∀ name, writes name → k ≠ .text name) →
    (s'.dict r).find? k = (s.dict r).find? k
  list : ∀ r, root = .list r → s'.list r = s.list r

theorem Store.list_setList (s : Store) (q r : Ref) (items : List Value) :
    (s.setList q items).list r = if q = r ∧ r < s.lists.size then items else s.list r :=
  Paired.getD_setIfInBounds s.lists q r items []

theorem Store.list_newList {s : Store} {r : Ref} (h : r < s.lists.size) (items : List Value) :
    (s.newList items).2.list r = s.list r := by
  unfold Store.list Store.newList
  dsimp only
  rw [Array.getElem?_push, if_neg (Nat.ne_of_lt h)]

namespace Scopes.Apart

variable {s since : Store} {c : Scopes} {writes : String → Prop}

/-- **A run is like itself**: the stores are the same, and the root layer is what it was in an
earlier store, but for what stands at the names that are written. -/
def likeness (h : c.Apart s) (since : Store) (writes : String → Prop) : Likeness where
  toCorrespondence := c.diagonal s
  rest s₁ s₂ := s₁ = s₂ ∧ s.lists.size ≤ s₁.lists.size ∧ s.dicts.size ≤ s₁.dicts.size ∧
    RootKept writes c.root since s₁
  rest_setList := by
    rintro s₁ _ r _ items items' ⟨rfl, hlists, hdicts, hkept⟩ ⟨rfl, hr⟩ hitems
    refine ⟨by rw [hitems.eq], ?_, hdicts, hkept.mapping, fun q hq => ?_⟩
    · rwa [Store.setList, Array.size_setIfInBounds]
    · obtain ⟨hsize, hapart⟩ := h.list q hq
      have hne : r ≠ q := by
        rintro rfl
        exact hr.elim hapart (Nat.not_le.mpr hsize)
      rw [Store.list_setList, if_neg fun e => hne e.1]
      exact hkept.list q hq
  rest_setDict := by
    rintro s₁ _ r _ d d' ⟨rfl, hlists, hdicts, hkept⟩ ⟨rfl, hr⟩ hd
    refine ⟨by rw [hd.eq], hlists, ?_, fun q hq => ?_, hkept.list⟩
    · rwa [Store.setDict, Array.size_setIfInBounds]
    · obtain ⟨hsize, hapart⟩ := h.mapping q hq
      have hne : r ≠ q := by
        rintro rfl
        exact hr.elim hapart (Nat.not_le.mpr hsize)
      rw [Store.dict_setDict, if_neg fun e => hne e.1]
      exact hkept.mapping q hq
  rest_newList := by
    rintro s₁ _ items items' ⟨rfl, hlists, hdicts, hkept⟩ hitems
    refine ⟨by rw [hitems.eq], ?_, hdicts, hkept.mapping, fun q hq => ?_⟩
    · exact Nat.le_trans hlists (by simp [Store.newList])
    · rw [Store.list_newList (Nat.lt_of_lt_of_le (h.list q hq).1 hlists)]
      exact hkept.list q hq
  rest_newTuple := by
    rintro s₁ _ items items' ⟨rfl, hlists, hdicts, hkept⟩ hitems
    exact ⟨by rw [hitems.eq], hlists, hdicts, hkept.mapping, hkept.list⟩
  rest_newDict := by
    rintro s₁ _ d d' ⟨rfl, hlists, hdicts, hkept⟩ hd
    refine ⟨by rw [hd.eq], hlists, ?_, fun q hq => ?_, hkept.list⟩
    · exact Nat.le_trans hdicts (by simp [Store.newDict])
    · rw [Store.dict_newDict (Nat.lt_of_lt_of_le (h.mapping q hq).1 hdicts)]
      exact hkept.mapping q hq
  rest_newIdentity := by
    rintro s₁ _ ⟨rfl, hlists, hdicts, hkept⟩
    exact ⟨rfl, hlists, hdicts, hkept.mapping, hkept.list⟩

/-- A state of a run that is like itself. -/
theorem store_eq (h : c.Apart s) {s₁ s₂ : Store} (hs : (h.likeness since writes).Holds s₁ s₂) :
    s₁ = s₂ := hs.rest.1

/-- **In the beginning** the store is like itself. -/
theorem holds (h : c.Apart s) (writes : String → Prop) : (h.likeness s writes).Holds s s := by
  obtain ⟨hlists, htuples, hdicts, hobjects⟩ := contents_self s c
  refine
    { lists := ⟨?_, fun i => ⟨rfl, .inr (Nat.le_add_right ..)⟩⟩
      tuples := ⟨?_, fun i => ⟨rfl, .inr (Nat.le_add_right ..)⟩⟩
      dicts := ⟨?_, fun i => ⟨rfl, .inr (Nat.le_add_right ..)⟩⟩
      objects := ?_
      identities := fun i => ⟨rfl, trivial⟩
      depth := rfl
      rest := ⟨rfl, Nat.le_refl _, Nat.le_refl _, fun _ _ _ _ => rfl, fun _ _ => rfl⟩ }
  · rintro r _ ⟨rfl, hr⟩
    exact hlists ⟨rfl, hr⟩
  · rintro r _ ⟨rfl, hr⟩
    exact htuples ⟨rfl, hr⟩
  · rintro r _ ⟨rfl, hr⟩
    exact hdicts ⟨rfl, hr⟩
  · rintro r _ ⟨rfl, hr⟩
    exact hobjects ⟨rfl, hr⟩

/-- Writing a name in a root layer that is a mapping. -/
theorem writeRoot (h : c.Apart s) {s₁ s₂ : Store} (hs : (h.likeness since writes).Holds s₁ s₂)
    {r : Ref} (hr : c.root = .dict r) {name : String} (hname : writes name) {v v' : Value}
    (hv : (h.likeness since writes).Like v v') : (h.likeness since writes).Holds
      (s₁.setDict r ((s₁.dict r).insert (.text name) (.plain name) v))
      (s₂.setDict r ((s₂.dict r).insert (.text name) (.plain name) v')) := by
  have hroot : (h.likeness since writes).mappings r r := ⟨rfl, .inr (.inr (.inl hr))⟩
  obtain ⟨heq, hlists, hdicts, hkept⟩ := hs.rest
  refine { hs with
    dicts := hs.dicts.set (h.likeness since writes).mappings_unique
      (h.likeness since writes).mappings_of_dicts hroot
      ((hs.dict hroot).insert (.text name) (.plain name) hv)
    depth := by rw [heq]; simp only [Store.depth, Store.setDict, Array.size_setIfInBounds]
    rest := ⟨by rw [heq, hv.eq], hlists, ?_, fun q hq k hk => ?_, fun q hq => ?_⟩ }
  · rwa [Store.setDict, Array.size_setIfInBounds]
  · rw [hr] at hq
    cases hq
    rw [Store.dict_setDict]
    split
    · rw [Dict.find?_insert_ne _ _ _ (hk name hname).symm]
      exact hkept.mapping r (by rw [hr]; rfl) k hk
    · exact hkept.mapping r (by rw [hr]; rfl) k hk
  · rw [hr] at hq
    cases hq

/-- A name: a text or an integer. -/
inductive IsName : Value → Prop where
  | text (name : String) : IsName (.plain name)
  | int (n : Int) : IsName (.int n)

/-- The root layer on both sides: every name may be read, and some may be written. -/
def roots (h : c.Apart s) (since : Store) (writes : String → Prop) :
    (h.likeness since writes).Roots where
  root := c.root
  root' := c.root
  reads := IsName
  writes := writes
  hashable := by
    rintro name (⟨t⟩ | ⟨n⟩)
    · exact ⟨_, fun _ => ⟨rfl, .text t⟩⟩
    · exact ⟨_, fun _ => ⟨rfl, .int n⟩⟩
  lookup := by
    have hlookup : ∀ {name k}, (∀ s : Store, s.key? name = .ok k) →
        (h.likeness since writes).Like name name →
        (h.likeness since writes).Alike (h.likeness since writes).Like
          ((ofRoot c.root).lookup name) ((ofRoot c.root).lookup name) := by
      intro name k hk hname s₁ s₂ hs
      rw [lookup_ofRoot _ (hk s₁), lookup_ofRoot _ (hk s₂)]
      exact inRoot_alike (readable_root s c) k hname s₁ s₂ hs
    rintro name (⟨t⟩ | ⟨n⟩)
    · exact hlookup (fun _ => rfl) (.plain t)
    · exact hlookup (fun _ => rfl) (.int n)
  write := by
    intro name v v' hname hv
    unfold Eval.setItem
    refine .bind .get fun s₁ s₂ hs => ?_
    cases hroot : c.root with
    | dict r => exact .set (h.writeRoot hs hroot hname hv) trivial
    | _ => exact .failClosed trivial

/-- Every expression reads names only. -/
theorem within (h : c.Apart s) (e : Expression) : e.Within (h.roots since writes).reads := by
  have hsegment : ∀ segment, SegmentWithin (h.roots since writes).reads segment := fun segment =>
    ⟨.text segment, fun n _ => .int n⟩
  have hoperand : ∀ o : Operand, o.Within (h.roots since writes).reads := by
    intro o
    unfold Operand.Within
    split
    · exact hsegment _
    · trivial
  exact ⟨hoperand _, fun _ _ o _ => hoperand o⟩

/-- **In the beginning** a world is like itself. -/
theorem likeWorld {w : World} (h : w.scopes.Apart w.store) (writes : String → Prop) :
    LikeWorld (h.roots w.store writes) w w where
  store := h.holds writes
  scopes := ⟨rfl, rfl, List.forall₂_same.mpr fun _ hlayer => likeDict_self fun _ he =>
    ⟨.root (.pushedLabel hlayer he), .root (.pushedValue hlayer he)⟩⟩
  settings := rfl

/-- Later on a world that is like itself can be taken as the beginning. -/
theorem likeWorld_from (h : c.Apart s) {w : World} (hw : LikeWorld (h.roots since writes) w w)
    (writes' : String → Prop) : LikeWorld (h.roots w.store writes') w w where
  store :=
    { lists := hw.store.lists
      tuples := hw.store.tuples
      dicts := hw.store.dicts
      objects := hw.store.objects
      identities := hw.store.identities
      depth := rfl
      rest := ⟨rfl, hw.store.rest.2.1, hw.store.rest.2.2.1, fun _ _ _ _ => rfl, fun _ _ => rfl⟩ }
  scopes := ⟨hw.scopes.root, hw.scopes.root', hw.scopes.pushed⟩
  settings := rfl

end Scopes.Apart
end TextTemplate
