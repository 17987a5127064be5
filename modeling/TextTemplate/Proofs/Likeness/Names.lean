/-
# Names in scopes that are alike

Two scopes are alike if the layers pushed above their roots are.  The roots themselves need not
be: it is enough that the names that are read are bound alike in both and that the names that are
written can be written in both (`Roots`).

* `LikeScopes` relates scopes, `lookup_alike` and `write_alike` use them;
* `Operand.Within` says that an operand reads only such names, and then `resolveOrNone_alike`
  says that its values are alike.
-/
import TextTemplate.Expression.Operand
import TextTemplate.Proofs.Likeness.Calls

namespace TextTemplate

open Correspondence

/-! ## 1. Which names are read -/

/-- A path that begins with the segment reads only some names: the segment as a name, and as an
integer if it is one. -/
structure SegmentWithin (reads : Value → Prop) (segment : String) : Prop where
  name : reads (.plain segment)
  index : ∀ n, segmentIndex? segment = some n → reads (.int n)

/-- An operand reads only some names. -/
def Operand.Within (reads : Value → Prop) (o : Operand) : Prop :=
  match o.form with
  | .path (first :: _) => SegmentWithin reads first
  | _ => True

/-! ## 2. Scopes -/

/-- Two root layers, the names that are bound alike in both, and the names that can be written in
both. -/
structure Likeness.Roots (L : Likeness) where
  root : Value
  root' : Value
  reads : Value → Prop
  writes : String → Prop
  /-- Only texts and integers are names. -/
  hashable : ∀ {name}, reads name → ∃ k, ∀ s : Store, s.key? name = .ok k ∧ L.LikeKey k k
  lookup : ∀ {name}, reads name →
    L.Alike L.Like ((Scopes.ofRoot root).lookup name) ((Scopes.ofRoot root').lookup name)
  write : ∀ {name v v'}, writes name → L.Like v v' → L.Alike (fun _ _ => True)
    (Eval.setItem root (.plain name) v) (Eval.setItem root' (.plain name) v')

/-- Two scopes have the given roots and layers above them that are alike. -/
structure Likeness.LikeScopes {L : Likeness} (R : L.Roots) (c c' : Scopes) : Prop where
  root : c.root = R.root
  root' : c'.root = R.root'
  pushed : List.Forall₂ L.LikeDict c.pushed c'.pushed

namespace Likeness

variable {L : Likeness} {R : L.Roots} {s s' : Store} {c c' : Scopes} {v v' name : Value}

theorem key?_plain (s : Store) (t : String) : s.key? (.plain t) = .ok (.text t) := rfl

theorem key?_int (s : Store) (n : Int) : s.key? (.int n) = .ok (.int n) := rfl

theorem findPushed?_like {layers layers' : List Dict}
    (h : List.Forall₂ L.LikeDict layers layers') {k : Key} (hk : L.LikeKey k k) :
    Option.Rel L.Like (layers.findSome? (·.find? k)) (layers'.findSome? (·.find? k)) := by
  induction h with
  | nil => exact .none
  | @cons d d' _ _ hd _ ih =>
    have hfound := LikeDict.find? hd hk
    rw [List.findSome?_cons, List.findSome?_cons]
    generalize d.find? k = o, d'.find? k = o' at hfound
    cases hfound with
    | none => exact ih
    | some h => exact .some h

theorem constants_eq : Scopes.constants = [⟨.text "True", .plain "True", .bool true⟩,
    ⟨.text "False", .plain "False", .bool false⟩, ⟨.text "None", .plain "None", .none⟩] := rfl

/-- The constants refer to nothing. -/
theorem constants_like {C : Correspondence} {k : Key} {v : Value}
    (h : Scopes.constants.find? k = some v) :
    C.Like v v := by
  rw [constants_eq] at h
  simp only [Dict.find?] at h
  split at h
  · cases h
    exact .bool true
  · split at h
    · cases h
      exact .bool false
    · split at h
      · cases h
        exact .none
      · cases h

/-- A name that no pushed layer binds is looked up in the root layer and then among the
constants. -/
def inRoot (root name : Value) (k : Key) : Eval Value := do
  if ← Eval.contains root name then Eval.read (·.item root name)
  else
    match Scopes.constants.find? k with
    | some v => pure v
    | none => Eval.fail (.missingKey name)

/-- A name is looked up in the pushed layers first. -/
theorem lookup_eq (c : Scopes) {k : Key} (hk : s.key? name = .ok k) :
    c.lookup name s = (match c.findPushed? k with
      | some v => pure v
      | none => inRoot c.root name k) s := by
  unfold Scopes.lookup
  rw [Outcome.bind_of_ok (show (get : Eval Store) s = .ok s s from rfl), hk]
  rfl

theorem lookup_ofRoot (root : Value) {k : Key} (hk : s.key? name = .ok k) :
    (Scopes.ofRoot root).lookup name s = inRoot root name k s := lookup_eq _ hk

/-- **A root layer that can be looked into alike** binds names alike. -/
theorem inRoot_alike {root root' : Value} (hroot : L.Readable root root') (k : Key)
    (hname : L.Like name name) : L.Alike L.Like (inRoot root name k) (inRoot root' name k) := by
  refine (contains_alike hroot hname).bind ?_
  rintro has _ rfl
  cases has with
  | true => exact .read fun _ _ hs => item_like hs hroot hname
  | false =>
    cases hc : Scopes.constants.find? k with
    | some v => exact .pure (constants_like hc)
    | none => exact .fail (.missingKey hname)

/-- **Names that are read are bound alike.** -/
theorem lookup_alike (hc : LikeScopes R c c') (hname : R.reads name) :
    L.Alike L.Like (c.lookup name) (c'.lookup name) := by
  intro s s' hs
  obtain ⟨k, hk⟩ := R.hashable hname
  have hfound := findPushed?_like hc.pushed (hk s).2
  rw [lookup_eq c (hk s).1, lookup_eq c' (hk s').1]
  unfold Scopes.findPushed?
  generalize c.pushed.findSome? (·.find? k) = o, c'.pushed.findSome? (·.find? k) = o' at hfound
  cases hfound with
  | some h => exact .ok hs h
  | none =>
    have hroot := R.lookup hname s s' hs
    rw [lookup_ofRoot _ (hk s).1, lookup_ofRoot _ (hk s').1] at hroot
    dsimp only
    rw [hc.root, hc.root']
    exact hroot

theorem lookupOr_alike (hc : LikeScopes R c c') (hname : R.reads name) (hv : L.Like v v') :
    L.Alike L.Like (c.lookupOr name v) (c'.lookupOr name v') := by
  refine (lookup_alike hc hname).tryCatch fun e e' he => ?_
  rw [he.kind_eq]
  split
  · exact .pure hv
  · exact .throw he

/-- **Writing a name in the root layers.** -/
theorem writeRoot_alike (hc : LikeScopes R c c') {name : String} (hname : R.writes name)
    (hv : L.Like v v') :
    L.Alike (fun _ _ => True) (c.writeRoot (.plain name) v) (c'.writeRoot (.plain name) v') := by
  unfold Scopes.writeRoot
  rw [hc.root, hc.root']
  exact R.write hname hv

/-- **Binding a name in the innermost layer.**  Without a pushed layer that is the root. -/
theorem write_alike (hc : LikeScopes R c c') {name : String}
    (hname : c.pushed ≠ [] ∨ R.writes name) (hv : L.Like v v') :
    L.Alike (fun d d' => LikeScopes R d d' ∧ (c.pushed ≠ [] → d.pushed ≠ []))
      (c.write (.plain name) v) (c'.write (.plain name) v') := by
  have hpushed := hc.pushed
  unfold Scopes.write
  generalize hp : c.pushed = layers, hp' : c'.pushed = layers' at hpushed
  cases hpushed with
  | nil =>
    exact (writeRoot_alike hc (hname.resolve_left (absurd hp)) hv).bind fun _ _ _ =>
      .pure ⟨hc, fun h => absurd rfl h⟩
  | cons hd hrest =>
    refine .bind .get fun s s' _ => ?_
    exact .pure ⟨⟨hc.root, hc.root', .cons (hd.insert (.text name) (.plain name) hv) hrest⟩,
      fun _ => List.cons_ne_nil _ _⟩

/-! ## 3. Paths -/

/-- The last attempt of a lookup. -/
theorem atIndex_alike {E : Error → Error → Prop} (hE : ∀ e e', L.LikeError e e' → E e e')
    {segment : String} {w w' : Subject} {item item' : Value → Eval Value}
    (hitem : ∀ n, segmentIndex? segment = some n →
      L.Alike L.Like (item (.int n)) (item' (.int n)))
    (hfail : E (Error.of (.lookup segment w)) (Error.of (.lookup segment w'))) :
    L.AlikeBy E L.Like (Eval.atIndex segment w item) (Eval.atIndex segment w' item') := by
  unfold Eval.atIndex
  cases hn : segmentIndex? segment with
  | none => exact .throw hfail
  | some n =>
    refine ((hitem n hn).unless.weaken hE).bind fun o o' ho => ?_
    cases ho with
    | some h => exact .pure h
    | none => exact .throw hfail

/-- **The first segment of a path.**  Where it leads nowhere, the errors tell of different
scopes. -/
theorem firstSegment_alike (hc : LikeScopes R c c') {segment : String}
    (hw : SegmentWithin R.reads segment) :
    L.AlikeBy L.LooseError L.Like (c.segment segment) (c'.segment segment) := by
  unfold Scopes.segment
  refine ((lookup_alike hc hw.name).unless.loosen).bind fun o o' ho => ?_
  cases ho with
  | some h => exact (settle_alike (.value h)).loosen
  | none =>
    dsimp only
    split
    · exact .make fun _ _ hs => hs.newDict .nil
    · have hindex : L.AlikeBy L.LooseError L.Like (Eval.atIndex segment (.scopes c) c.lookup)
          (Eval.atIndex segment (.scopes c') c'.lookup) :=
        atIndex_alike (fun _ _ => .inl) (fun n hn => lookup_alike hc (hw.index n hn))
          (.inr ⟨rfl, rfl⟩)
      exact hindex.bind fun _ _ h => (settle_alike (.value h)).loosen

/-- **A further segment of a path.** -/
theorem segment_alike (h : L.Like v v') (segment : String) :
    L.Alike L.Like (Eval.segment v segment) (Eval.segment v' segment) := by
  have hitem : ∀ key, L.Like key key → L.Alike L.Like (Eval.read (·.item v key))
      (Eval.read (·.item v' key)) := fun key hkey => .read fun _ _ hs => item_like hs (.like h) hkey
  unfold Eval.segment
  refine (hitem _ (.plain segment)).unless.bind fun o o' ho => ?_
  cases ho with
  | some h => exact settle_alike (.value h)
  | none =>
    refine .bind .get fun s s' hs => ?_
    have hattribute := attribute?_like hs h segment
    generalize s.attribute? v segment = a, s'.attribute? v' segment = a' at hattribute
    cases hattribute with
    | some hm =>
      cases hm with
      | ok hm => exact settle_alike hm
      | error hc => exact .fail hc
    | none =>
      exact (atIndex_alike (fun _ _ => id) (fun n _ => hitem _ (.int n))
        (.of (.lookup segment h))).bind fun _ _ h => settle_alike (.value h)

theorem path_alike (hc : LikeScopes R c c') {first : String} (rest : List String)
    (hw : SegmentWithin R.reads first) :
    L.AlikeBy L.LooseError L.Like (c.path (first :: rest)) (c'.path (first :: rest)) := by
  refine (firstSegment_alike hc hw).bind fun v v' hv => ?_
  exact .foldlM (List.forall₂_same.mpr fun _ _ => rfl) hv
    fun a b m n hab hmn => hmn ▸ (segment_alike hab m).loosen

/-! ## 4. Operands -/

theorem operand_alike (hc : LikeScopes R c c') {o : Operand} (hw : o.Within R.reads) :
    L.AlikeBy L.LooseError L.Like (o.resolve c) (o.resolve c') := by
  obtain ⟨text, form⟩ := o
  cases form with
  | text t => exact .pure (.plain t)
  | integer n => exact .pure (.int n)
  | range first last => exact .pure (.range _ _)
  | path segments =>
    cases segments with
    | nil => exact .pure .none
    | cons first rest => exact path_alike hc rest hw

/-- What a lookup finds, or nothing. -/
theorem orNone_alike {x y : Eval Value} (h : L.AlikeBy L.LooseError L.Like x y) :
    L.Alike L.Like (Eval.orNone x) (Eval.orNone y) := by
  refine (h.unlessBy fun e e' he => ⟨he.kind_eq, fun hpass => ?_⟩).bind fun o o' ho =>
    .pure (like_getD ho .none)
  rcases he with he | ⟨he, -⟩
  · exact he
  · rw [he] at hpass
    cases hpass

/-- **An operand that reads only such names has values that are alike.** -/
theorem resolveOrNone_alike (hc : LikeScopes R c c') {o : Operand} (hw : o.Within R.reads) :
    L.Alike L.Like (o.resolveOrNone c) (o.resolveOrNone c') := orNone_alike (operand_alike hc hw)

end Likeness
end TextTemplate
