/-
# Questions about values that are alike

Whatever can be asked about a value without running the caller's code has the same answer for a
value like it: whether it counts as true, what it is equal to, how it is ordered and how it is
written; and its key is like the other's key.

References are followed to the same depth on both sides, so each of these is an induction on that
depth (`keyWithin_like`, `equalWithin_eq`, `relatedWithin_eq`, `writtenWithin_eq`).
-/
import TextTemplate.Proofs.Likeness.Computations
import TextTemplate.Value.Order
import TextTemplate.Value.Iteration

namespace TextTemplate

/-! ## 1. Rows and answers -/

section Rows

variable {α β γ ε : Type} {R : α → β → Prop} {xs : List α} {ys : List β}

/-- Related rows give the same, if related items do. -/
theorem mapM_eq_of_rel {m : Type → Type} [Monad m] [LawfulMonad m] {f : α → m γ} {g : β → m γ}
    (h : List.Forall₂ R xs ys) (hf : ∀ a b, R a b → f a = g b) : xs.mapM f = ys.mapM g := by
  induction h with
  | nil => rfl
  | cons hab _ ih => rw [List.mapM_cons, List.mapM_cons, hf _ _ hab, ih]

theorem allM_eq_of_rel {f : α → Option Bool} {g : β → Option Bool} (h : List.Forall₂ R xs ys)
    (hf : ∀ a b, R a b → f a = g b) : xs.allM f = ys.allM g := by
  induction h with
  | nil => rfl
  | cons hab _ ih =>
    unfold List.allM
    rw [hf _ _ hab, ih]

theorem anyM_eq_of_rel {f : α → Option Bool} {g : β → Option Bool} (h : List.Forall₂ R xs ys)
    (hf : ∀ a b, R a b → f a = g b) : xs.anyM f = ys.anyM g := by
  induction h with
  | nil => rfl
  | cons hab _ ih =>
    unfold List.anyM
    rw [hf _ _ hab, ih]

theorem any_eq_of_rel {f : α → Bool} {g : β → Bool} (h : List.Forall₂ R xs ys)
    (hf : ∀ a b, R a b → f a = g b) : xs.any f = ys.any g := by
  induction h with
  | nil => rfl
  | cons hab _ ih => rw [List.any_cons, List.any_cons, hf _ _ hab, ih]

theorem isEmpty_eq_of_rel (h : List.Forall₂ R xs ys) : xs.isEmpty = ys.isEmpty := by
  cases h <;> rfl

theorem zip_rel {xs' : List α} {ys' : List β} (h : List.Forall₂ R xs ys)
    (h' : List.Forall₂ R xs' ys') :
    List.Forall₂ (fun p q => R p.1 q.1 ∧ R p.2 q.2) (xs.zip xs') (ys.zip ys') := by
  induction h generalizing xs' ys' with
  | nil => exact .nil
  | cons hab _ ih =>
    cases h' with
    | nil => exact .nil
    | cons hab' h' => exact .cons ⟨hab, hab'⟩ (ih h')

theorem getLast?_rel (h : List.Forall₂ R xs ys) : Option.Rel R xs.getLast? ys.getLast? := by
  have hrev : List.Forall₂ R xs.reverse ys.reverse := List.rel_reverse h
  rw [List.getLast?_eq_head?_reverse, List.getLast?_eq_head?_reverse]
  generalize xs.reverse = us, ys.reverse = vs at hrev
  cases hrev with
  | nil => exact .none
  | cons hab _ => exact .some hab

theorem dropLast_rel (h : List.Forall₂ R xs ys) : List.Forall₂ R xs.dropLast ys.dropLast := by
  rw [List.dropLast_eq_take, List.dropLast_eq_take, h.length_eq]
  exact List.forall₂_take _ h

theorem bind_eq_of_rel {o : Option α} {p : Option β} {f : α → Option γ} {g : β → Option γ}
    (h : Option.Rel R o p) (hf : ∀ a b, R a b → f a = g b) : (o >>= f) = (p >>= g) := by
  cases h with
  | none => rfl
  | some h => exact hf _ _ h

theorem isSome_eq_of_rel {o : Option α} {p : Option β} (h : Option.Rel R o p) :
    o.isSome = p.isSome := by
  cases h <;> rfl

/-- Two answers are alike: related results, or the same error. -/
inductive LikeAnswer (R : α → β → Prop) : Except ε α → Except ε β → Prop where
  | ok {a : α} {b : β} (like : R a b) : LikeAnswer R (.ok a) (.ok b)
  | error (e : ε) : LikeAnswer R (.error e) (.error e)

theorem LikeAnswer.toOption {x : Except ε α} {y : Except ε β} (h : LikeAnswer R x y) :
    Option.Rel R x.toOption y.toOption := by
  cases h with
  | ok h => exact .some h
  | error => exact .none

theorem LikeAnswer.bind {δ : Type} {P : γ → δ → Prop} {x : Except ε α} {y : Except ε β}
    {f : α → Except ε γ} {g : β → Except ε δ} (h : LikeAnswer R x y)
    (hf : ∀ a b, R a b → LikeAnswer P (f a) (g b)) : LikeAnswer P (x >>= f) (y >>= g) := by
  cases h with
  | ok h => exact hf _ _ h
  | error e => exact .error e

theorem LikeAnswer.mapM {δ : Type} {P : γ → δ → Prop} {f : α → Except ε γ} {g : β → Except ε δ}
    (h : List.Forall₂ R xs ys) (hf : ∀ a b, R a b → LikeAnswer P (f a) (g b)) :
    LikeAnswer (List.Forall₂ P) (xs.mapM f) (ys.mapM g) := by
  induction h with
  | nil => exact .ok .nil
  | cons hab _ ih =>
    rw [List.mapM_cons, List.mapM_cons]
    exact (hf _ _ hab).bind fun c d hcd => ih.bind fun cs ds hrest => .ok (.cons hcd hrest)

end Rows

namespace Likeness

open Correspondence

variable {L : Likeness} {s s' : Store} {v v' w w' a a' b b' : Value}

theorem numeric?_eq (h : L.Like v v') : v.numeric? = v'.numeric? := by cases h <;> rfl

theorem index?_eq (h : L.Like v v') : v.index? = v'.index? := by cases h <;> rfl

theorem beq_eq (ha : L.Like a a') (hb : L.Like b b') : (a == b) = (a' == b') := by
  rw [Bool.eq_iff_iff, beq_iff_eq, beq_iff_eq]
  exact ha.eq_iff hb

/-! ## 2. Keys -/

theorem foldr_pair_like {ks ks' : List Key} (h : List.Forall₂ L.LikeKey ks ks') :
    L.LikeKey (ks.foldr .pair .unit) (ks'.foldr .pair .unit) := by
  induction h with
  | nil => exact .unit
  | cons hk _ ih => exact .pair hk ih

/-- The key of a value, with references followed to some depth, is like the key of a value like
it. -/
theorem keyWithin_like (hs : L.Holds s s') : ∀ (fuel : Nat) {v v' : Value}, L.Like v v' →
    LikeAnswer L.LikeKey (s.keyWithin fuel v) (s'.keyWithin fuel v')
  | 0, v, v', h => by
    unfold Store.keyWithin
    rw [h.typeName_eq]
    exact .error _
  | fuel + 1, v, v', h => by
    cases h with
    | none => exact .ok .none
    | bool b => exact .ok (.int _)
    | int n => exact .ok (.int n)
    | float x =>
      unfold Store.keyWithin
      dsimp only
      split
      · exact .ok (.int _)
      · exact .ok (.float x)
    | nan h => exact .ok (.nan h)
    | text t safe => exact .ok (.text t)
    | range start stop => exact .ok (.range _ _)
    | list h => exact .error _
    | tuple h =>
      exact (LikeAnswer.mapM (hs.tuple h) fun u u' hu => keyWithin_like hs fuel hu).bind
        fun ks ks' hk => .ok (foldr_pair_like hk)
    | dict h => exact .error _
    | view kind h hi => cases kind with
      | values => exact .ok (.view hi)
      | _ => exact .error _
    | object h => exact .ok (.object (L.marks_of_objects h))
    | function h hi => exact .ok (.function hi)

/-- **The keys of values that are alike are alike.** -/
theorem key?_like (hs : L.Holds s s') (h : L.Like v v') :
    LikeAnswer L.LikeKey (s.key? v) (s'.key? v') := by
  unfold Store.key?
  rw [hs.depth]
  exact keyWithin_like hs _ h

/-! ## 3. Equality -/

/-- Two comparisons have the same answer for values that are alike. -/
def SameTest (L : Likeness) (same same' : Value → Value → Option Bool) : Prop :=
  ∀ a a' b b', L.Like a a' → L.Like b b' → same a b = same' a' b'

/-- Two members of views are alike. -/
inductive LikeViewMember (L : Likeness) : Store.ViewMember → Store.ViewMember → Prop where
  | single {v v' : Value} (like : L.Like v v') : LikeViewMember L (.single v) (.single v')
  | pair {v v' w w' : Value} (label : L.Like v v') (value : L.Like w w') :
      LikeViewMember L (.pair v w) (.pair v' w')

theorem memberOf_like (hs : L.Holds s s') (h : L.Like v v') :
    L.LikeViewMember (s.memberOf v) (s'.memberOf v') := by
  cases h with
  | tuple h =>
    have hitems := hs.tuple h
    unfold Store.memberOf
    dsimp only
    generalize s.tuple _ = xs, s'.tuple _ = ys at hitems
    cases hitems with
    | nil => exact .single (.tuple h)
    | cons h₁ hitems =>
      cases hitems with
      | nil => exact .single (.tuple h)
      | cons h₂ hitems =>
        cases hitems with
        | nil => exact .pair h₁ h₂
        | cons h₃ hitems => exact .single (.tuple h)
  | none => exact .single .none
  | bool b => exact .single (.bool b)
  | int n => exact .single (.int n)
  | float x => exact .single (.float x)
  | nan h => exact .single (.nan h)
  | text t safe => exact .single (.text t safe)
  | range start stop => exact .single (.range start stop)
  | list h => exact .single (.list h)
  | dict h => exact .single (.dict h)
  | view kind h hi => exact .single (.view kind h hi)
  | object h => exact .single (.object h)
  | function h hi => exact .single (.function h hi)

variable {r r' q q' : Ref} {kind kind' : ViewKind}

theorem viewMembers_like (hs : L.Holds s s') (hr : L.mappings r r') :
    List.Forall₂ L.LikeViewMember (s.viewMembers kind r) (s'.viewMembers kind r') := by
  have hd := hs.dict hr
  unfold Store.viewMembers
  generalize s.dict r = d, s'.dict r' = d' at hd
  induction hd with
  | nil => exact .nil
  | cons he _ ih =>
    refine .cons ?_ ih
    cases kind with
    | pairs => exact .pair he.label he.value
    | _ => exact .single he.label

theorem viewContains_eq (hs : L.Holds s s') {same same' : Value → Value → Option Bool}
    (hsame : L.SameTest same same') (hr : L.mappings r r') {m m' : Store.ViewMember}
    (hm : L.LikeViewMember m m') :
    s.viewContains same kind r m = s'.viewContains same' kind r' m' := by
  have hd := hs.dict hr
  cases hm with
  | single hv =>
    cases kind with
    | pairs => rfl
    | _ => exact bind_eq_of_rel (key?_like hs hv).toOption fun k k' hk =>
        congrArg some (isSome_eq_of_rel (hd.find? hk))
  | pair hl hv =>
    cases kind with
    | pairs =>
      refine bind_eq_of_rel (key?_like hs hl).toOption fun k k' hk => ?_
      have hfound := hd.find? hk
      generalize (s.dict r).find? k = o, (s'.dict r').find? k' = o' at hfound
      cases hfound with
      | none => rfl
      | some hfound => exact hsame _ _ _ _ hfound hv
    | _ => exact bind_eq_of_rel (key?_like hs hl).toOption fun k k' hk =>
        bind_eq_of_rel (key?_like hs hv).toOption fun m m' hm =>
          congrArg some (isSome_eq_of_rel (hd.find? (.pair hk (.pair hm .unit))))

theorem viewWithin_eq (hs : L.Holds s s') {same same' : Value → Value → Option Bool}
    (hsame : L.SameTest same same') (hr : L.mappings r r') (hq : L.mappings q q') :
    s.viewWithin same kind r kind' q = s'.viewWithin same' kind r' kind' q' :=
  allM_eq_of_rel (viewMembers_like hs hr) fun _ _ hm => viewContains_eq hs hsame hq hm

/-- A test that takes the same value for equal to itself. -/
theorem SameTest.orSame {same same' : Value → Value → Option Bool} (h : L.SameTest same same') :
    L.SameTest (fun x y => if x = y then some true else same x y)
      (fun x y => if x = y then some true else same' x y) := by
  intro a a' b b' ha hb
  dsimp only
  by_cases hab : a = b
  · rw [if_pos hab, if_pos ((ha.eq_iff hb).mp hab)]
  · rw [if_neg hab, if_neg (mt (ha.eq_iff hb).mpr hab)]
    exact h a a' b b' ha hb

/-- Rows are compared item by item. -/
theorem sameItems_eq {same same' : Value → Value → Option Bool} (h : L.SameTest same same')
    {xs xs' ys ys' : List Value} (hx : L.LikeItems xs xs') (hy : L.LikeItems ys ys') :
    (if xs.length = ys.length then (xs.zip ys).allM fun p => same p.1 p.2 else some false) =
      if xs'.length = ys'.length then (xs'.zip ys').allM fun p => same' p.1 p.2
      else some false := by
  rw [hx.length_eq, hy.length_eq,
    allM_eq_of_rel (zip_rel hx hy) fun p q hpq => h _ _ _ _ hpq.1 hpq.2]

/-- Mappings are compared key by key. -/
theorem sameEntries_eq {same same' : Value → Value → Option Bool} (h : L.SameTest same same')
    {d d' e e' : Dict} (hd : L.LikeDict d d') (he : L.LikeDict e e') :
    (d.allM fun x => match e.find? x.key with
      | some v => same x.value v
      | none => some false) =
      d'.allM fun x => match e'.find? x.key with
        | some v => same' x.value v
        | none => some false := by
  refine allM_eq_of_rel hd fun x y hxy => ?_
  have hfound := he.find? hxy.key
  generalize e.find? x.key = o, e'.find? y.key = o' at hfound
  cases hfound with
  | none => rfl
  | some hv => exact h _ _ _ _ hxy.value hv

/-- Equality, with references followed to some depth. -/
theorem equalWithin_eq (hs : L.Holds s s') : ∀ fuel,
    L.SameTest (s.equalWithin fuel) (s'.equalWithin fuel)
  | 0 => fun _ _ _ _ _ _ => rfl
  | fuel + 1 => by
    have hsame := (equalWithin_eq hs fuel).orSame
    intro a a' b b' ha hb
    have hbeq := beq_eq ha hb
    cases ha with
    | list h =>
      cases hb with
      | list h' =>
        exact sameItems_eq hsame (hs.list (L.rows_of_lists h)) (hs.list (L.rows_of_lists h'))
      | _ => rfl
    | tuple h =>
      cases hb with
      | tuple h' => exact sameItems_eq hsame (hs.tuple h) (hs.tuple h')
      | _ => rfl
    | dict h =>
      cases hb with
      | dict h' =>
        have hd := hs.dict (L.mappings_of_dicts h)
        have he := hs.dict (L.mappings_of_dicts h')
        unfold Store.equalWithin
        dsimp only [Value.numeric?]
        rw [hd.length_eq, he.length_eq]
        split
        · exact sameEntries_eq hsame hd he
        · rfl
      | _ => rfl
    | view kind h hi =>
      cases hb with
      | view kind' h' hi' =>
        have hviews := eq_iff_of_unique L.identities_unique hi hi'
        unfold Store.equalWithin
        dsimp only [Value.numeric?]
        rw [(hs.dict h).length_eq, (hs.dict h').length_eq, viewWithin_eq hs hsame h h']
        simp only [beq_eq_decide, hviews]
      | _ => rfl
    | object h =>
      cases hb with
      | object h' => exact congrArg some hbeq
      | _ => rfl
    | function h hi =>
      cases hb with
      | function h' hi' => exact congrArg some hbeq
      | _ => rfl
    | _ => cases hb <;> rfl

/-- **Values that are alike are equal to the same.** -/
theorem equal?_eq (hs : L.Holds s s') : L.SameTest s.equal? s'.equal? := by
  unfold Store.equal?
  rw [hs.depth]
  exact equalWithin_eq hs _

theorem same?_eq (hs : L.Holds s s') : L.SameTest s.same? s'.same? := (equal?_eq hs).orSame

theorem anySame?_eq (hs : L.Holds s s') (h : L.Like v v') {xs xs' : List Value}
    (hx : L.LikeItems xs xs') : s.anySame? v xs = s'.anySame? v' xs' :=
  anyM_eq_of_rel hx fun _ _ hu => same?_eq hs _ _ _ _ hu h

/-! ## 4. Truth and order -/

/-- **Values that are alike count as true alike.** -/
theorem truth_eq (hs : L.Holds s s') (h : L.Like v v') : s.truth v = s'.truth v' := by
  cases h with
  | list h => exact congrArg (!·) (isEmpty_eq_of_rel (hs.list (L.rows_of_lists h)))
  | tuple h => exact congrArg (!·) (isEmpty_eq_of_rel (hs.tuple h))
  | dict h => exact congrArg (!·) (isEmpty_eq_of_rel (hs.dict (L.mappings_of_dicts h)))
  | view kind h => exact congrArg (!·) (isEmpty_eq_of_rel (hs.dict h))
  | _ => rfl

/-- Two pairs of values are alike. -/
def LikePair (L : Likeness) (p q : Value × Value) : Prop := L.Like p.1 q.1 ∧ L.Like p.2 q.2

theorem firstDifference?_like (hs : L.Holds s s') {ps qs : List (Value × Value)}
    (h : List.Forall₂ L.LikePair ps qs) :
    Option.Rel (Option.Rel L.LikePair) (s.firstDifference? ps) (s'.firstDifference? qs) := by
  induction h with
  | nil => exact .some .none
  | @cons p q _ _ hpq _ ih =>
    unfold Store.firstDifference?
    rw [same?_eq hs _ _ _ _ hpq.1 hpq.2]
    cases s'.same? q.1 q.2 with
    | none => exact .none
    | some b =>
      cases b with
      | true => exact ih
      | false => exact .some (.some hpq)

/-- The order of rows is that of their first parts that differ. -/
theorem relatedItems_eq (hs : L.Holds s s') (relation : OrderRelation)
    {rec rec' : Value → Value → Except TypeFault Bool}
    (hrec : ∀ a a' b b', L.Like a a' → L.Like b b' → rec a b = rec' a' b') (type : String)
    {xs xs' ys ys' : List Value} (hx : L.LikeItems xs xs') (hy : L.LikeItems ys ys') :
    (match s.firstDifference? (xs.zip ys) with
      | none => Except.error (TypeFault.unhashable type)
      | some (some (x, y)) => rec x y
      | some none => .ok (relation.holds (compare xs.length ys.length))) =
      match s'.firstDifference? (xs'.zip ys') with
      | none => .error (.unhashable type)
      | some (some (x, y)) => rec' x y
      | some none => .ok (relation.holds (compare xs'.length ys'.length)) := by
  have hdiff := firstDifference?_like hs (zip_rel hx hy)
  rw [hx.length_eq, hy.length_eq]
  generalize s.firstDifference? (xs.zip ys) = o, s'.firstDifference? (xs'.zip ys') = o' at hdiff
  cases hdiff with
  | none => rfl
  | some hdiff =>
    cases hdiff with
    | none => rfl
    | some hpq => exact hrec _ _ _ _ hpq.1 hpq.2

/-- The order of views is inclusion. -/
theorem relatedViews_eq (hs : L.Holds s s') (relation : OrderRelation) (hr : L.mappings r r')
    (hq : L.mappings q q') (type : String) :
    (match (match relation with
        | .less | .atMost => s.viewWithin s.same? kind r kind' q
        | .greater | .atLeast => s.viewWithin s.same? kind' q kind r) with
      | some answer => Except.ok answer
      | none => .error (TypeFault.unhashable type)) =
      match (match relation with
        | .less | .atMost => s'.viewWithin s'.same? kind r' kind' q'
        | .greater | .atLeast => s'.viewWithin s'.same? kind' q' kind r') with
      | some answer => Except.ok answer
      | none => .error (TypeFault.unhashable type) := by
  rw [viewWithin_eq hs (same?_eq hs) hr hq, viewWithin_eq hs (same?_eq hs) hq hr]

/-- The order, with references followed to some depth. -/
theorem relatedWithin_eq (hs : L.Holds s s') (relation : OrderRelation) : ∀ (fuel : Nat)
    (a a' b b' : Value), L.Like a a' → L.Like b b' →
      s.relatedWithin relation fuel a b = s'.relatedWithin relation fuel a' b'
  | 0, a, a', b, b', ha, hb => by
    unfold Store.relatedWithin
    rw [ha.typeName_eq, hb.typeName_eq]
  | fuel + 1, a, a', b, b', ha, hb => by
    have ih := relatedWithin_eq hs relation fuel
    cases ha with
    | list h =>
      cases hb with
      | list h' =>
        exact relatedItems_eq hs relation ih "list" (hs.list (L.rows_of_lists h))
          (hs.list (L.rows_of_lists h'))
      | view kind' h' hi' => cases kind' <;> rfl
      | text t safe => cases safe <;> rfl
      | _ => rfl
    | tuple h =>
      cases hb with
      | tuple h' => exact relatedItems_eq hs relation ih "tuple" (hs.tuple h) (hs.tuple h')
      | view kind' h' hi' => cases kind' <;> rfl
      | text t safe => cases safe <;> rfl
      | _ => rfl
    | view kind h hi =>
      cases hb with
      | view kind' h' hi' =>
        unfold Store.relatedWithin
        dsimp only [Value.numeric?]
        rw [(hs.dict h).length_eq, (hs.dict h').length_eq]
        split
        · split
          · rw [(Like.view kind h hi).typeName_eq]
            exact relatedViews_eq hs relation h h' _
          · rfl
        · rw [(Like.view kind h hi).typeName_eq, (Like.view kind' h' hi').typeName_eq]
      | text t safe => cases kind <;> cases safe <;> rfl
      | _ => cases kind <;> rfl
    | _ =>
      cases hb with
      | view kind' h' hi' => cases kind' <;> rfl
      | _ => rfl

/-- **Values that are alike have the same order.** -/
theorem related_eq (hs : L.Holds s s') (relation : OrderRelation) (ha : L.Like a a')
    (hb : L.Like b b') : s.related relation a b = s'.related relation a' b' := by
  unfold Store.related
  rw [hs.depth]
  exact relatedWithin_eq hs relation _ a a' b b' ha hb

/-! ## 5. Writing -/

/-- How a value is written, with references followed to some depth. -/
theorem writtenWithin_eq (hs : L.Holds s s') : ∀ (fuel : Nat) (v v' : Value), L.Like v v' →
    s.writtenWithin fuel v = s'.writtenWithin fuel v'
  | 0, _, _, _ => rfl
  | fuel + 1, v, v', h => by
    have ih := writtenWithin_eq hs fuel
    cases h with
    | list h =>
      unfold Store.writtenWithin
      dsimp only
      rw [mapM_eq_of_rel (hs.list (L.rows_of_lists h)) ih]
    | tuple h =>
      unfold Store.writtenWithin
      dsimp only
      rw [mapM_eq_of_rel (hs.tuple h) ih]
    | dict h =>
      unfold Store.writtenWithin
      dsimp only
      rw [mapM_eq_of_rel (hs.dict (L.mappings_of_dicts h)) fun e e' he => by
        rw [ih _ _ he.label, ih _ _ he.value]]
    | view kind h hi =>
      unfold Store.writtenWithin
      dsimp only
      rw [(Like.view kind h hi).typeName_eq, mapM_eq_of_rel (hs.dict h) fun e e' he => ?_]
      cases kind with
      | pairs => simp only [ih _ _ he.label, ih _ _ he.value]
      | keys => exact ih _ _ he.label
      | values => exact ih _ _ he.value
    | object h => exact congrArg (some <| objectText ·) (hs.objects h).name
    | _ => rfl

/-- **Values that are alike are written alike.** -/
theorem written?_eq (hs : L.Holds s s') (h : L.Like v v') : s.written? v = s'.written? v' := by
  unfold Store.written?
  rw [hs.depth]
  exact writtenWithin_eq hs _ _ _ h

theorem written_eq (hs : L.Holds s s') (h : L.Like v v') : s.written v = s'.written v' :=
  congrArg (·.getD "...") (written?_eq hs h)

/-- **Values that are alike are shown alike.** -/
theorem shown?_eq (hs : L.Holds s s') (h : L.Like v v') : s.shown? v = s'.shown? v' := by
  have hwritten := written?_eq hs h
  cases h with
  | object h =>
    have ho := hs.objects h
    unfold Store.shown?
    dsimp only
    rw [ho.ownText, ho.name]
  | text t safe => rfl
  | _ => exact hwritten

theorem shown_eq (hs : L.Holds s s') (h : L.Like v v') : s.shown v = s'.shown v' :=
  congrArg (·.getD "...") (shown?_eq hs h)

/-- Whether a value holds a function, with references followed to some depth. -/
theorem holdsFunctionWithin_eq (hs : L.Holds s s') : ∀ (fuel : Nat) (v v' : Value),
    L.Like v v' → s.holdsFunctionWithin fuel v = s'.holdsFunctionWithin fuel v'
  | 0, _, _, _ => rfl
  | fuel + 1, v, v', h => by
    have ih := holdsFunctionWithin_eq hs fuel
    have hentry : ∀ e e', L.LikeEntry e e' →
        (s.holdsFunctionWithin fuel e.label || s.holdsFunctionWithin fuel e.value) =
          (s'.holdsFunctionWithin fuel e'.label || s'.holdsFunctionWithin fuel e'.value) :=
      fun e e' he => by rw [ih _ _ he.label, ih _ _ he.value]
    cases h with
    | list h => exact any_eq_of_rel (hs.list (L.rows_of_lists h)) ih
    | tuple h => exact any_eq_of_rel (hs.tuple h) ih
    | dict h => exact any_eq_of_rel (hs.dict (L.mappings_of_dicts h)) hentry
    | view kind h hi =>
      cases kind with
      | pairs => exact any_eq_of_rel (hs.dict h) hentry
      | keys => exact any_eq_of_rel (hs.dict h) fun e e' he => ih _ _ he.label
      | values => exact any_eq_of_rel (hs.dict h) fun e e' he => ih _ _ he.value
    | _ => rfl

theorem wording?_eq (hs : L.Holds s s') (h : L.Like v v') (text : String) :
    s.wording? v text = s'.wording? v' text := by
  unfold Store.wording? Store.holdsFunction
  rw [hs.depth, holdsFunctionWithin_eq hs _ _ _ h]

/-- **Causes that are alike are worded alike.** -/
theorem message?_eq (hs : L.Holds s s') {c c' : Cause} (h : L.LikeCause c c') :
    c.message? s = c'.message? s' := by
  cases h with
  | closed h => cases c <;> first | rfl | exact h.elim
  | lookup segment h =>
    have htext := written_eq hs h
    unfold Cause.message?
    dsimp only [Subject.written]
    rw [htext, wording?_eq hs h]
  | missingKey h =>
    unfold Cause.message?
    dsimp only
    rw [written_eq hs h, wording?_eq hs h]
  | raised kind h =>
    cases h with
    | none => rfl
    | some h =>
      unfold Cause.message?
      dsimp only
      unfold Store.raisedText
      rw [written_eq hs h, shown_eq hs h, wording?_eq hs h]

/-- Causes that are alike have the same first argument in debugging information. -/
theorem argumentText_eq (hs : L.Holds s s') {c c' : Cause} (h : L.LikeCause c c') :
    c.argumentText s = c'.argumentText s' := by
  have hmessage := message?_eq hs h
  cases h with
  | closed h => cases c <;> first | rfl | exact h.elim
  | lookup segment h => exact congrArg (fun m => CauseText.text (m.getD "")) hmessage
  | missingKey h =>
    unfold Cause.argumentText
    dsimp only
    rw [shown?_eq hs h]
  | raised kind h =>
    cases h with
    | none => rfl
    | some h =>
      unfold Cause.argumentText
      dsimp only
      rw [shown?_eq hs h]

end Likeness
end TextTemplate
