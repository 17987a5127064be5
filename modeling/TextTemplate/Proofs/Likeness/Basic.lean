/-
# Values that are alike

What a template does with values does not depend on where in a store they lie.  A
**correspondence** pairs the containers, objects and identities of one store with those of
another, one to one.  Two values are **alike** if they are the same but for references, and their
references are paired.

* `Correspondence` is the type, and `Correspondence.Like` says that two values are alike;
* `LikeKey`, `LikeDict` and `LikeObject` say the same of keys, mappings and objects;
* `Like.eq_iff`: two values are equal exactly when those that they are like are equal.

Besides the containers that values refer to, a correspondence may pair others, of which only the
contents are alike: they can be looked at through a view, or as the root of the scopes, but no
value leads to them, so nothing changes them behind one's back.
-/
import Mathlib.Data.List.Forall2
import TextTemplate.Error

namespace TextTemplate

open Relator

/-! ## 1. Correspondences -/

/-- A one-to-one correspondence between the containers, objects and identities of two stores. -/
structure Correspondence where
  /-- Lists with the same items. -/
  rows : Ref → Ref → Prop
  /-- Lists that values refer to. -/
  lists : Ref → Ref → Prop
  tuples : Ref → Ref → Prop
  /-- Mappings with the same entries. -/
  mappings : Ref → Ref → Prop
  /-- Mappings that values refer to. -/
  dicts : Ref → Ref → Prop
  /-- Objects that keys refer to. -/
  marks : Ref → Ref → Prop
  /-- Objects that values refer to. -/
  objects : Ref → Ref → Prop
  identities : Nat → Nat → Prop
  rows_unique : BiUnique rows
  tuples_unique : BiUnique tuples
  mappings_unique : BiUnique mappings
  marks_unique : BiUnique marks
  identities_unique : BiUnique identities
  rows_of_lists : ∀ {r r'}, lists r r' → rows r r'
  mappings_of_dicts : ∀ {r r'}, dicts r r' → mappings r r'
  marks_of_objects : ∀ {r r'}, objects r r' → marks r r'

namespace Correspondence

/-- Two values are the same but for references and identities, which are paired. -/
inductive Like (C : Correspondence) : Value → Value → Prop where
  | none : Like C .none .none
  | bool (b : Bool) : Like C (.bool b) (.bool b)
  | int (n : Int) : Like C (.int n) (.int n)
  | float (x : Decimal.Binary64) : Like C (.float x) (.float x)
  | nan {i i' : Nat} (same : C.identities i i') : Like C (.nan i) (.nan i')
  | text (t : String) (safe : Bool) : Like C (.text t safe) (.text t safe)
  | range (start stop : Int) : Like C (.range start stop) (.range start stop)
  | list {r r' : Ref} (same : C.lists r r') : Like C (.list r) (.list r')
  | tuple {r r' : Ref} (same : C.tuples r r') : Like C (.tuple r) (.tuple r')
  | dict {r r' : Ref} (same : C.dicts r r') : Like C (.dict r) (.dict r')
  | view (kind : ViewKind) {r r' : Ref} {i i' : Nat} (same : C.mappings r r')
      (view : C.identities i i') : Like C (.view kind r i) (.view kind r' i')
  | object {r r' : Ref} (same : C.objects r r') : Like C (.object r) (.object r')
  | function {r r' : Ref} {i i' : Nat} (same : C.objects r r') (function : C.identities i i') :
      Like C (.function r i) (.function r' i')

/-- Two keys are the same but for references and identities. -/
inductive LikeKey (C : Correspondence) : Key → Key → Prop where
  | none : LikeKey C .none .none
  | int (n : Int) : LikeKey C (.int n) (.int n)
  | float (x : Decimal.Binary64) : LikeKey C (.float x) (.float x)
  | nan {i i' : Nat} (same : C.identities i i') : LikeKey C (.nan i) (.nan i')
  | text (t : String) : LikeKey C (.text t) (.text t)
  | range (start : Int) (length : Nat) : LikeKey C (.range start length) (.range start length)
  | view {i i' : Nat} (same : C.identities i i') : LikeKey C (.view i) (.view i')
  | object {r r' : Ref} (same : C.marks r r') : LikeKey C (.object r) (.object r')
  | function {i i' : Nat} (same : C.identities i i') : LikeKey C (.function i) (.function i')
  | unit : LikeKey C .unit .unit
  | pair {h h' t t' : Key} (head : LikeKey C h h') (tail : LikeKey C t t') :
      LikeKey C (.pair h t) (.pair h' t')

/-- Two entries of mappings are alike. -/
structure LikeEntry (C : Correspondence) (e e' : Entry) : Prop where
  key : C.LikeKey e.key e'.key
  label : C.Like e.label e'.label
  value : C.Like e.value e'.value

/-- Two mappings are alike, entry by entry. -/
abbrev LikeDict (C : Correspondence) : Dict → Dict → Prop := List.Forall₂ C.LikeEntry

/-- Two rows of values are alike. -/
abbrev LikeItems (C : Correspondence) : List Value → List Value → Prop := List.Forall₂ C.Like

/-- Two pieces of the caller's code do the same. -/
inductive LikeOutcome (C : Correspondence) : Outcome → Outcome → Prop where
  | returns {v v' : Value} (like : C.Like v v') : LikeOutcome C (.returns v) (.returns v')
  | raises (kind : ErrorKind) {a a' : Option Value} (like : Option.Rel C.Like a a') :
      LikeOutcome C (.raises kind a) (.raises kind a')

/-- Two methods do the same. -/
structure LikeMethod (C : Correspondence) (m m' : Method) : Prop where
  name : m.name = m'.name
  needsArgument : m.needsArgument = m'.needsArgument
  outcome : C.LikeOutcome m.outcome m'.outcome

/-- Two entries of tables are alike: the names are the same, and what stands there is alike. -/
def LikeNamed {α β : Type} (P : α → β → Prop) (a : String × α) (b : String × β) : Prop :=
  a.1 = b.1 ∧ P a.2 b.2

/-- Two outcomes at keys are alike. -/
def LikeItem (C : Correspondence) (a b : Key × Outcome) : Prop :=
  C.LikeKey a.1 b.1 ∧ C.LikeOutcome a.2 b.2

/-- Two objects are alike: whatever is done with them gives the same. -/
structure LikeObject (C : Correspondence) (o o' : Object) : Prop where
  name : o.name = o'.name
  ownText : o.ownText = o'.ownText
  attributes : List.Forall₂ (LikeNamed C.Like) o.attributes o'.attributes
  methods : List.Forall₂ C.LikeMethod o.methods o'.methods
  properties : List.Forall₂ (LikeNamed C.LikeOutcome) o.properties o'.properties
  items : Option.Rel (List.Forall₂ C.LikeItem) o.items o'.items
  call : Option.Rel C.LikeOutcome o.call o'.call
  noCall : o.noCall = o'.noCall
  iteration : Option.Rel C.Like o.iteration o'.iteration

variable {C : Correspondence}

/-! ## 2. Likeness is one to one -/

theorem lists_unique : BiUnique C.lists :=
  ⟨fun _ _ _ h h' => C.rows_unique.1 (C.rows_of_lists h) (C.rows_of_lists h'),
    fun _ _ _ h h' => C.rows_unique.2 (C.rows_of_lists h) (C.rows_of_lists h')⟩

theorem dicts_unique : BiUnique C.dicts :=
  ⟨fun _ _ _ h h' => C.mappings_unique.1 (C.mappings_of_dicts h) (C.mappings_of_dicts h'),
    fun _ _ _ h h' => C.mappings_unique.2 (C.mappings_of_dicts h) (C.mappings_of_dicts h')⟩

theorem objects_unique : BiUnique C.objects :=
  ⟨fun _ _ _ h h' => C.marks_unique.1 (C.marks_of_objects h) (C.marks_of_objects h'),
    fun _ _ _ h h' => C.marks_unique.2 (C.marks_of_objects h) (C.marks_of_objects h')⟩

/-- **A value is like one value at most**, on either side. -/
theorem like_unique : BiUnique C.Like := by
  constructor
  · intro v w u h h'
    cases h with
    | nan h => cases h' with | nan h' => rw [C.identities_unique.1 h h']
    | list h => cases h' with | list h' => rw [lists_unique.1 h h']
    | tuple h => cases h' with | tuple h' => rw [C.tuples_unique.1 h h']
    | dict h => cases h' with | dict h' => rw [dicts_unique.1 h h']
    | view _ h hi => cases h' with
      | view _ h' hi' => rw [C.mappings_unique.1 h h', C.identities_unique.1 hi hi']
    | object h => cases h' with | object h' => rw [objects_unique.1 h h']
    | function h hi => cases h' with
      | function h' hi' => rw [objects_unique.1 h h', C.identities_unique.1 hi hi']
    | _ => cases h'; rfl
  · intro u v w h h'
    cases h with
    | nan h => cases h' with | nan h' => rw [C.identities_unique.2 h h']
    | list h => cases h' with | list h' => rw [lists_unique.2 h h']
    | tuple h => cases h' with | tuple h' => rw [C.tuples_unique.2 h h']
    | dict h => cases h' with | dict h' => rw [dicts_unique.2 h h']
    | view _ h hi => cases h' with
      | view _ h' hi' => rw [C.mappings_unique.2 h h', C.identities_unique.2 hi hi']
    | object h => cases h' with | object h' => rw [objects_unique.2 h h']
    | function h hi => cases h' with
      | function h' hi' => rw [objects_unique.2 h h', C.identities_unique.2 hi hi']
    | _ => cases h'; rfl

/-- A key is like one key at most, on either side. -/
theorem likeKey_unique : BiUnique C.LikeKey := by
  constructor
  · intro k l m h h'
    induction h generalizing l with
    | nan h => cases h' with | nan h' => rw [C.identities_unique.1 h h']
    | view h => cases h' with | view h' => rw [C.identities_unique.1 h h']
    | object h => cases h' with | object h' => rw [C.marks_unique.1 h h']
    | function h => cases h' with | function h' => rw [C.identities_unique.1 h h']
    | pair _ _ ihh iht => cases h' with | pair h' t' => rw [ihh h', iht t']
    | _ => cases h'; rfl
  · intro k l m h h'
    induction h generalizing m with
    | nan h => cases h' with | nan h' => rw [C.identities_unique.2 h h']
    | view h => cases h' with | view h' => rw [C.identities_unique.2 h h']
    | object h => cases h' with | object h' => rw [C.marks_unique.2 h h']
    | function h => cases h' with | function h' => rw [C.identities_unique.2 h h']
    | pair _ _ ihh iht => cases h' with | pair h' t' => rw [ihh h', iht t']
    | _ => cases h'; rfl

/-- What is equal on one side of a one-to-one relation is equal on the other. -/
theorem eq_iff_of_unique {α β : Type} {P : α → β → Prop} (hP : BiUnique P) {a b : α} {a' b' : β}
    (ha : P a a') (hb : P b b') : a = b ↔ a' = b' := by
  constructor
  · rintro rfl
    exact hP.2 ha hb
  · rintro rfl
    exact hP.1 ha hb

/-- **Two values are equal exactly when those that they are like are equal.** -/
theorem Like.eq_iff {v v' w w' : Value} (hv : C.Like v v') (hw : C.Like w w') :
    v = w ↔ v' = w' := eq_iff_of_unique like_unique hv hw

theorem LikeKey.eq_iff {k k' l l' : Key} (hk : C.LikeKey k k') (hl : C.LikeKey l l') :
    k = l ↔ k' = l' := eq_iff_of_unique likeKey_unique hk hl

/-! ## 3. Mappings and tables -/

/-- **Mappings that are alike hold the same at a key.** -/
theorem LikeDict.find? {d d' : Dict} {k k' : Key} (hd : C.LikeDict d d') (hk : C.LikeKey k k') :
    Option.Rel C.Like (d.find? k) (d'.find? k') := by
  induction hd with
  | nil => exact .none
  | @cons e e' _ _ he _ ih =>
    unfold Dict.find?
    by_cases h : e.key = k
    · rw [if_pos h, if_pos ((he.key.eq_iff hk).mp h)]
      exact .some he.value
    · rw [if_neg h, if_neg (mt (he.key.eq_iff hk).mpr h)]
      exact ih

theorem LikeDict.insert {d d' : Dict} {k k' : Key} {l l' v v' : Value} (hd : C.LikeDict d d')
    (hk : C.LikeKey k k') (hl : C.Like l l') (hv : C.Like v v') :
    C.LikeDict (d.insert k l v) (d'.insert k' l' v') := by
  induction hd with
  | nil => exact .cons ⟨hk, hl, hv⟩ .nil
  | @cons e e' _ _ he hrest ih =>
    unfold Dict.insert
    by_cases h : e.key = k
    · rw [if_pos h, if_pos ((he.key.eq_iff hk).mp h)]
      exact .cons ⟨he.key, he.label, hv⟩ hrest
    · rw [if_neg h, if_neg (mt (he.key.eq_iff hk).mpr h)]
      exact .cons he ih

theorem LikeDict.labels {d d' : Dict} (hd : C.LikeDict d d') :
    C.LikeItems (d.map (·.label)) (d'.map (·.label)) := by
  induction hd with
  | nil => exact .nil
  | cons he _ ih => exact .cons he.label ih

theorem LikeDict.values {d d' : Dict} (hd : C.LikeDict d d') :
    C.LikeItems (d.map (·.value)) (d'.map (·.value)) := by
  induction hd with
  | nil => exact .nil
  | cons he _ ih => exact .cons he.value ih

/-- What stands under a name in tables that are alike is alike. -/
theorem likeNamed_lookup {α β : Type} {P : α → β → Prop} {t : List (String × α)}
    {t' : List (String × β)} (h : List.Forall₂ (LikeNamed P) t t') (name : String) :
    Option.Rel P (t.lookup name) (t'.lookup name) := by
  induction h with
  | nil => exact .none
  | @cons a b _ _ hab _ ih =>
    obtain ⟨n, x⟩ := a
    obtain ⟨m, y⟩ := b
    obtain ⟨rfl, hP⟩ := hab
    simp only [List.lookup_cons]
    split
    · exact .some hP
    · exact ih

/-- What an object gives at a key is what an object like it gives there. -/
theorem likeItem_lookup {items items' : List (Key × Outcome)}
    (h : List.Forall₂ C.LikeItem items items') {k k' : Key} (hk : C.LikeKey k k') :
    Option.Rel C.LikeOutcome (items.lookup k) (items'.lookup k') := by
  induction h with
  | nil => exact .none
  | @cons a b _ _ hab _ ih =>
    obtain ⟨l, x⟩ := a
    obtain ⟨m, y⟩ := b
    obtain ⟨hkey, hout⟩ := hab
    have hsame : (k == l) = (k' == m) := by
      rw [Bool.eq_iff_iff, beq_iff_eq, beq_iff_eq]
      exact hk.eq_iff hkey
    simp only [List.lookup_cons, hsame]
    split
    · exact .some hout
    · exact ih

/-! ## 4. What does not depend on references -/

variable {v v' : Value}

theorem Like.typeName_eq (h : C.Like v v') : v.typeName = v'.typeName := by
  cases h with
  | text t safe => cases safe <;> rfl
  | view kind => cases kind <;> rfl
  | _ => rfl

theorem Like.plain (t : String) : C.Like (.plain t) (.plain t) := .text t false

theorem Like.markup (t : String) : C.Like (.markup t) (.markup t) := .text t true

theorem LikeItems.getElem? {xs xs' : List Value} (h : C.LikeItems xs xs') (i : Nat) :
    Option.Rel C.Like xs[i]? xs'[i]? := by
  induction h generalizing i with
  | nil => exact .none
  | cons hx _ ih =>
    cases i with
    | zero => exact .some hx
    | succ i => exact ih i

theorem like_getD {o o' : Option Value} (h : Option.Rel C.Like o o') (hv : C.Like v v') :
    C.Like (o.getD v) (o'.getD v') := by
  cases h with
  | none => exact hv
  | some h => exact h

end Correspondence
end TextTemplate
