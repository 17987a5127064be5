/-
# Values of one store that are alike

Values of one store are alike, with the same sharing between them, if a correspondence between its
containers pairs them and pairs only containers that hold the same (`Correspondence.Matches`).  A
run makes containers of its own; `Correspondence.extend` pairs each of these with the one that is
made at the same time in another run.
-/
import TextTemplate.Proofs.Likeness.Stores

namespace TextTemplate

open Relator

/-! ## 1. Greater correspondences -/

/-- One correspondence pairs at most what another one pairs. -/
structure Correspondence.Below (C D : Correspondence) : Prop where
  lists : ∀ {r r'}, C.lists r r' → D.lists r r'
  tuples : ∀ {r r'}, C.tuples r r' → D.tuples r r'
  mappings : ∀ {r r'}, C.mappings r r' → D.mappings r r'
  dicts : ∀ {r r'}, C.dicts r r' → D.dicts r r'
  marks : ∀ {r r'}, C.marks r r' → D.marks r r'
  objects : ∀ {r r'}, C.objects r r' → D.objects r r'
  identities : ∀ {i i'}, C.identities i i' → D.identities i i'

namespace Correspondence

variable {C D : Correspondence}

theorem Like.mono (h : C.Below D) {v v' : Value} (hv : C.Like v v') : D.Like v v' := by
  cases hv with
  | nan same => exact .nan (h.identities same)
  | list same => exact .list (h.lists same)
  | tuple same => exact .tuple (h.tuples same)
  | dict same => exact .dict (h.dicts same)
  | view kind same view => exact .view kind (h.mappings same) (h.identities view)
  | object same => exact .object (h.objects same)
  | function same function => exact .function (h.objects same) (h.identities function)
  | none => exact .none
  | bool b => exact .bool b
  | int n => exact .int n
  | float x => exact .float x
  | text t safe => exact .text t safe
  | range start stop => exact .range start stop

theorem LikeKey.mono (h : C.Below D) {k k' : Key} (hk : C.LikeKey k k') : D.LikeKey k k' := by
  induction hk with
  | nan same => exact .nan (h.identities same)
  | view same => exact .view (h.identities same)
  | object same => exact .object (h.marks same)
  | function same => exact .function (h.identities same)
  | pair _ _ ihh iht => exact .pair ihh iht
  | none => exact .none
  | int n => exact .int n
  | float x => exact .float x
  | text t => exact .text t
  | range start length => exact .range start length
  | unit => exact .unit

theorem LikeItems.mono (h : C.Below D) {xs xs' : List Value} (hx : C.LikeItems xs xs') :
    D.LikeItems xs xs' := hx.imp fun _ _ => Like.mono h

theorem LikeDict.mono (h : C.Below D) {d d' : Dict} (hd : C.LikeDict d d') : D.LikeDict d d' :=
  hd.imp fun _ _ he => ⟨he.key.mono h, he.label.mono h, he.value.mono h⟩

theorem optionRel_mono {α β : Type} {P Q : α → β → Prop} (h : ∀ a b, P a b → Q a b)
    {o : Option α} {o' : Option β} (ho : Option.Rel P o o') : Option.Rel Q o o' := by
  cases ho with
  | none => exact .none
  | some hp => exact .some (h _ _ hp)

theorem LikeOutcome.mono (h : C.Below D) {o o' : Outcome} (ho : C.LikeOutcome o o') :
    D.LikeOutcome o o' := by
  cases ho with
  | returns like => exact .returns (like.mono h)
  | raises kind like => exact .raises kind (optionRel_mono (fun _ _ => Like.mono h) like)

/-- **Objects stay alike.** -/
theorem LikeObject.mono (h : C.Below D) {o o' : Object} (ho : C.LikeObject o o') :
    D.LikeObject o o' where
  name := ho.name
  ownText := ho.ownText
  attributes := ho.attributes.imp fun _ _ ha => ⟨ha.1, ha.2.mono h⟩
  methods := ho.methods.imp fun _ _ hm => ⟨hm.name, hm.needsArgument, hm.outcome.mono h⟩
  properties := ho.properties.imp fun _ _ hp => ⟨hp.1, hp.2.mono h⟩
  items := optionRel_mono (fun _ _ hi => hi.imp fun _ _ hk => ⟨hk.1.mono h, hk.2.mono h⟩) ho.items
  call := optionRel_mono (fun _ _ => LikeOutcome.mono h) ho.call
  noCall := ho.noCall
  iteration := optionRel_mono (fun _ _ => Like.mono h) ho.iteration

/-! ## 2. Correspondences in one store -/

/-- The correspondence pairs containers and objects of a store that hold the same. -/
structure Matches (C : Correspondence) (s : Store) : Prop where
  rows : ∀ {r r'}, C.rows r r' → r < s.lists.size ∧ r' < s.lists.size
  tuples : ∀ {r r'}, C.tuples r r' → r < s.tuples.size ∧ r' < s.tuples.size
  mappings : ∀ {r r'}, C.mappings r r' → r < s.dicts.size ∧ r' < s.dicts.size
  identities : ∀ {i i'}, C.identities i i' → i < s.identities ∧ i' < s.identities
  list : ∀ {r r'}, C.rows r r' → C.LikeItems (s.list r) (s.list r')
  tuple : ∀ {r r'}, C.tuples r r' → C.LikeItems (s.tuple r) (s.tuple r')
  dict : ∀ {r r'}, C.mappings r r' → C.LikeDict (s.dict r) (s.dict r')
  object : ∀ {r r'}, C.objects r r' → C.LikeObject (s.object r) (s.object r')

/-- The pairs of a relation, and each place behind the end of an array with itself. -/
def WithFresh (size : Nat) (R : Nat → Nat → Prop) (r r' : Nat) : Prop :=
  R r r' ∨ (r = r' ∧ size ≤ r)

theorem withFresh_unique {size : Nat} {R : Nat → Nat → Prop} (hR : BiUnique R)
    (hsize : ∀ {r r'}, R r r' → r < size ∧ r' < size) : BiUnique (WithFresh size R) := by
  constructor
  · rintro a b c (h | ⟨rfl, h⟩) (h' | ⟨rfl, h'⟩)
    · exact hR.1 h h'
    · exact absurd (hsize h).2 (Nat.not_lt.mpr h')
    · exact absurd (hsize h').2 (Nat.not_lt.mpr h)
    · rfl
  · rintro a b c (h | ⟨rfl, h⟩) (h' | ⟨rfl, h'⟩)
    · exact hR.2 h h'
    · exact absurd (hsize h).1 (Nat.not_lt.mpr h')
    · exact absurd (hsize h').1 (Nat.not_lt.mpr h)
    · rfl

/-- The correspondence, and each container that does not exist yet paired with itself. -/
def extend (C : Correspondence) (s : Store) (h : C.Matches s) : Correspondence where
  rows := WithFresh s.lists.size C.rows
  lists := WithFresh s.lists.size C.lists
  tuples := WithFresh s.tuples.size C.tuples
  mappings := WithFresh s.dicts.size C.mappings
  dicts := WithFresh s.dicts.size C.dicts
  marks := C.marks
  objects := C.objects
  identities := WithFresh s.identities C.identities
  rows_unique := withFresh_unique C.rows_unique h.rows
  tuples_unique := withFresh_unique C.tuples_unique h.tuples
  mappings_unique := withFresh_unique C.mappings_unique h.mappings
  marks_unique := C.marks_unique
  identities_unique := withFresh_unique C.identities_unique h.identities
  rows_of_lists := Or.imp_left C.rows_of_lists
  mappings_of_dicts := Or.imp_left C.mappings_of_dicts
  marks_of_objects := C.marks_of_objects

theorem below_extend {s : Store} (h : C.Matches s) : C.Below (C.extend s h) where
  lists := .inl
  tuples := .inl
  mappings := .inl
  dicts := .inl
  marks := id
  objects := id
  identities := .inl

/-- An array whose paired places hold the same, and which holds nothing behind its end. -/
theorem paired_extend {α : Type} (xs : Array α) {R F : Nat → Nat → Prop} {P Q : α → α → Prop}
    {d : α} (hPQ : ∀ x x', P x x' → Q x x') (hd : Q d d)
    (h : ∀ {r r'}, R r r' → P (xs[r]?.getD d) (xs[r']?.getD d)) :
    Paired (WithFresh xs.size R) (WithFresh xs.size F) Q d xs xs where
  contents := by
    rintro r r' (hr | ⟨rfl, hr⟩)
    · exact hPQ _ _ (h hr)
    · rw [Array.getElem?_eq_none hr]
      exact hd
  fresh i := .inr ⟨rfl, Nat.le_add_right ..⟩

end Correspondence

open Correspondence in
/-- **A store is like itself** along a correspondence of its containers. -/
theorem Likeness.holds_extend {L : Likeness} {C : Correspondence} {s : Store} (h : C.Matches s)
    (hL : L.toCorrespondence = C.extend s h) (hrest : L.rest s s) : L.Holds s s := by
  have hbelow : C.Below L.toCorrespondence := hL ▸ below_extend h
  refine ⟨?_, ?_, ?_, ?_, ?_, rfl, hrest⟩
  · have hpaired := paired_extend s.lists (F := C.lists) (P := C.LikeItems)
      (fun _ _ => LikeItems.mono hbelow) .nil h.list
    rw [hL] at hpaired ⊢
    exact hpaired
  · have hpaired := paired_extend s.tuples (F := C.tuples) (P := C.LikeItems)
      (fun _ _ => LikeItems.mono hbelow) .nil h.tuple
    rw [hL] at hpaired ⊢
    exact hpaired
  · have hpaired := paired_extend s.dicts (F := C.dicts) (P := C.LikeDict)
      (fun _ _ => LikeDict.mono hbelow) .nil h.dict
    rw [hL] at hpaired ⊢
    exact hpaired
  · intro r r' hr
    rw [hL] at hr
    exact (h.object hr).mono hbelow
  · intro i
    rw [hL]
    exact .inr ⟨rfl, Nat.le_add_right ..⟩

end TextTemplate
