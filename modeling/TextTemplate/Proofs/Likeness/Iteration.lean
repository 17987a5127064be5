/-
# Iterating over values that are alike

The streams of values that are alike give items that are alike, and then fail alike or not at all.
So the values have the same length, hold members that are alike, and are taken apart alike.

* `stream?_alike`: streams;
* `items_alike`, `pairOf_alike`, `contains_alike` and `length_like`: what is asked of them.
-/
import TextTemplate.Proofs.Likeness.Access

namespace TextTemplate

open Correspondence

/-! ## 1. Streams -/

/-- Two streams are alike. -/
structure Correspondence.LikeStream (C : Correspondence) (st st' : Stream) : Prop where
  items : C.LikeItems st.items st'.items
  failure : Option.Rel C.LikeCause st.failure st'.failure

namespace Likeness

variable {L : Likeness} {s s' : Store} {v v' w w' : Value}

/-- A stream that nothing follows. -/
theorem whole_like {xs xs' : List Value} (h : L.LikeItems xs xs') :
    Option.Rel L.LikeStream (some ⟨xs, none⟩) (some ⟨xs', none⟩) := .some ⟨h, .none⟩

/-- The same items on both sides. -/
theorem map_like {α : Type} {f : α → Value} (h : ∀ a, L.Like (f a) (f a)) (xs : List α) :
    L.LikeItems (xs.map f) (xs.map f) := by
  induction xs with
  | nil => exact .nil
  | cons x xs ih => exact .cons (h x) ih

theorem indexedItems_like (hs : L.Holds s s') (h : L.Like v v') : ∀ fuel index,
    L.LikeStream (s.indexedItems v fuel index) (s'.indexedItems v' fuel index)
  | 0, _ => ⟨.nil, .none⟩
  | fuel + 1, index => by
    have ih := indexedItems_like hs h fuel (index + 1)
    have hitem := item_like hs (.like h) (.int index)
    unfold Store.indexedItems
    generalize s.item v (.int index) = x, s'.item v' (.int index) = x' at hitem
    cases hitem with
    | ok hfound => exact ⟨.cons hfound ih.items, ih.failure⟩
    | error hc =>
      dsimp only
      rw [hc.kind_eq]
      split
      · exact ⟨.nil, .none⟩
      · exact ⟨.nil, .some hc⟩

theorem pairTuples_alike {E : Error → Error → Prop} {d d' : Dict} (hd : L.LikeDict d d') :
    L.AlikeBy E L.LikeItems (Eval.pairTuples d) (Eval.pairTuples d') := by
  induction hd with
  | nil => exact .pure .nil
  | @cons e e' _ _ he _ ih =>
    refine .bind (P := L.Like) (.make fun s s' hs => ?_) fun pair pair' hpair => ?_
    · exact hs.newTuple (.cons he.label (.cons he.value .nil))
    · exact ih.bind fun pairs pairs' hpairs => .pure (.cons hpair hpairs)

/-- The stream of a value, with references followed to some depth. -/
theorem streamWithin_alike {E : Error → Error → Prop} : ∀ (fuel : Nat) {v v' : Value},
    L.Like v v' →
    L.AlikeBy E (Option.Rel L.LikeStream) (Eval.streamWithin fuel v) (Eval.streamWithin fuel v')
  | 0, _, _, _ => .pure .none
  | fuel + 1, v, v', h => by
    unfold Eval.streamWithin
    refine .bind .get fun s s' hs => ?_
    cases h with
    | text t _ => exact .pure (whole_like (map_like (fun c => .plain _) t.toList))
    | range start stop => exact .pure (whole_like (map_like (fun i => .int _) _))
    | list h => exact .pure (whole_like (hs.list (L.rows_of_lists h)))
    | tuple h => exact .pure (whole_like (hs.tuple h))
    | dict h => exact .pure (whole_like (hs.dict (L.mappings_of_dicts h)).labels)
    | view kind h hi =>
      cases kind with
      | keys => exact .pure (whole_like (hs.dict h).labels)
      | values => exact .pure (whole_like (hs.dict h).values)
      | pairs => exact (pairTuples_alike (hs.dict h)).bind fun _ _ hp => .pure (whole_like hp)
    | @object r r' h =>
      have hiteration := (hs.objects h).iteration
      have hitems := (hs.objects h).items
      dsimp only
      generalize (s.object r).iteration = o, (s'.object r').iteration = o' at hiteration
      cases hiteration with
      | @some inner inner' hinner =>
        dsimp only
        refine (streamWithin_alike fuel hinner).bind fun st st' hst => ?_
        cases hst with
        | some hst => exact .pure (.some hst)
        | none =>
          dsimp only
          rw [hinner.typeName_eq]
          exact .pure (.some ⟨.nil, .some (.closed trivial)⟩)
      | none =>
        generalize (s.object r).items = p, (s'.object r').items = p' at hitems
        cases hitems with
        | none => exact .pure .none
        | some hitems =>
          dsimp only
          rw [hitems.length_eq]
          exact .pure (.some (indexedItems_like hs (.object h) _ _))
    | _ => exact .pure .none

/-- **The streams of values that are alike are alike.** -/
theorem stream?_alike {E : Error → Error → Prop} (h : L.Like v v') :
    L.AlikeBy E (Option.Rel L.LikeStream) (Eval.stream? v) (Eval.stream? v') := by
  unfold Eval.stream?
  refine .bind .get fun s s' hs => ?_
  rw [hs.depth]
  exact streamWithin_alike _ h

theorem all_like {st st' : Stream} (h : L.LikeStream st st') :
    L.LikeExcept L.LikeItems st.all st'.all := by
  obtain ⟨items, failure⟩ := st
  obtain ⟨items', failure'⟩ := st'
  obtain ⟨hitems, hfailure⟩ := h
  cases hfailure with
  | none => exact .ok hitems
  | some hc => exact .error hc

/-- All items of values that are alike. -/
theorem items_alike (h : L.Like v v') : L.Alike L.LikeItems (Eval.items v) (Eval.items v') := by
  unfold Eval.items
  refine (stream?_alike h).bind fun o o' ho => ?_
  cases ho with
  | some hst => exact .read fun _ _ _ => all_like hst
  | none =>
    dsimp only
    rw [h.typeName_eq]
    exact .failClosed trivial

/-- **Values that are alike are taken apart alike.** -/
theorem pairOf_alike (h : L.Like v v') : L.Alike L.LikePair (Eval.pairOf v) (Eval.pairOf v') := by
  unfold Eval.pairOf
  refine (stream?_alike h).bind fun o o' ho => ?_
  cases ho with
  | none =>
    dsimp only
    rw [h.typeName_eq]
    exact .failClosed trivial
  | @some st st' hst =>
    obtain ⟨items, failure⟩ := st
    obtain ⟨items', failure'⟩ := st'
    obtain ⟨hitems, hfailure⟩ := hst
    cases hitems with
    | nil =>
      cases hfailure with
      | none => exact .failClosed trivial
      | some hc => exact .fail hc
    | cons ha hrest =>
      cases hrest with
      | nil =>
        cases hfailure with
        | none => exact .failClosed trivial
        | some hc => exact .fail hc
      | cons hb hrest =>
        cases hrest with
        | cons => exact .failClosed trivial
        | nil =>
          cases hfailure with
          | none => exact .pure ⟨ha, hb⟩
          | some hc => exact .fail hc

/-! ## 2. Membership -/

theorem rangeContains_eq (start stop : Int) (h : L.Like v v') :
    rangeContains start stop v = rangeContains start stop v' := by
  cases h <;> rfl

theorem decided_alike {answer answer' : Option Bool} (heq : answer = answer') (h : L.Like v v') :
    L.Alike Eq (Eval.decided answer v) (Eval.decided answer' v') := by
  subst heq
  cases answer with
  | some b => exact .pure rfl
  | none =>
    unfold Eval.decided
    dsimp only
    rw [h.typeName_eq]
    exact .failClosed trivial

/-- Is there an entry of a mapping at the key of a value? -/
theorem dictContains_alike {r r' : Ref} (hr : L.mappings r r') (h : L.Like v v') :
    L.Alike Eq (Eval.contains (.dict r) v) (Eval.contains (.dict r') v') := by
  unfold Eval.contains
  refine .bind .get fun s s' hs => ?_
  have hkey := key?_like hs h
  dsimp only
  generalize s.key? v = x, s'.key? v' = x' at hkey
  cases hkey with
  | error type => exact .failClosed trivial
  | ok hk => exact .pure (isSome_eq_of_rel ((hs.dict hr).find? hk))

/-- Is a value among the items of a list? -/
theorem listContains_alike {r r' : Ref} (hr : L.rows r r') (h : L.Like v v') :
    L.Alike Eq (Eval.contains (.list r) v) (Eval.contains (.list r') v') := by
  unfold Eval.contains
  exact .bind .get fun s s' hs => decided_alike (anySame?_eq hs h (hs.list hr)) h

/-- Is a value among the items of an object's stream? -/
theorem objectContains_alike {r r' : Ref} (hr : L.objects r r') (h : L.Like v v') :
    L.Alike Eq (Eval.contains (.object r) v) (Eval.contains (.object r') v') := by
  unfold Eval.contains
  refine .bind .get fun s s' _ => ?_
  dsimp only
  refine (stream?_alike (.object hr)).bind fun o o' ho => ?_
  cases ho with
  | none => exact .failClosed trivial
  | @some st st' hst =>
    dsimp only
    refine .bind .get fun t t' ht => ?_
    refine (decided_alike (anySame?_eq ht h hst.items) h).bind ?_
    rintro found _ rfl
    cases found with
    | true => exact .pure rfl
    | false =>
      have hfailure := hst.failure
      generalize st.failure = f, st'.failure = f' at hfailure
      cases hfailure with
      | none => exact .pure rfl
      | some hc => exact .fail hc

/-- **Containers that are alike hold values that are alike, or neither holds its own.** -/
theorem contains_alike (hw : L.Readable w w') (h : L.Like v v') :
    L.Alike Eq (Eval.contains w v) (Eval.contains w' v') := by
  cases hw with
  | list hr => exact listContains_alike hr h
  | dict hr => exact dictContains_alike hr h
  | like hw =>
    cases hw with
    | list hr => exact listContains_alike (L.rows_of_lists hr) h
    | dict hr => exact dictContains_alike (L.mappings_of_dicts hr) h
    | object hr => exact objectContains_alike hr h
    | tuple hr =>
      unfold Eval.contains
      exact .bind .get fun s s' hs => decided_alike (anySame?_eq hs h (hs.tuple hr)) h
    | text t safe =>
      unfold Eval.contains
      refine .bind .get fun s s' _ => ?_
      have htype := h.typeName_eq
      cases h with
      | text u _ => exact .pure rfl
      | _ =>
        dsimp only
        first
          | exact .failClosed trivial
          | (rw [htype]; exact .failClosed trivial)
    | range start stop =>
      unfold Eval.contains
      exact .bind .get fun _ _ _ => .pure (rangeContains_eq start stop h)
    | view kind hr hi =>
      unfold Eval.contains
      refine .bind .get fun s s' hs => ?_
      cases kind with
      | values => exact decided_alike (anySame?_eq hs h (hs.dict hr).values) h
      | keys =>
        exact decided_alike (viewContains_eq hs (same?_eq hs) hr (memberOf_like hs h)) h
      | pairs =>
        exact decided_alike (viewContains_eq hs (same?_eq hs) hr (memberOf_like hs h)) h
    | _ =>
      unfold Eval.contains
      exact .bind .get fun _ _ _ => .failClosed trivial

/-! ## 3. Length -/

theorem length_like (hs : L.Holds s s') (h : L.Like v v') :
    L.LikeExcept Eq (s.length v) (s'.length v') := by
  cases h with
  | text t safe => exact .ok rfl
  | range start stop =>
    unfold Store.length
    dsimp only
    split
    · exact .ok rfl
    · exact .closed trivial
  | list hr => exact .ok (hs.list (L.rows_of_lists hr)).length_eq
  | tuple hr => exact .ok (hs.tuple hr).length_eq
  | dict hr => exact .ok (hs.dict (L.mappings_of_dicts hr)).length_eq
  | view kind hr hi => cases kind <;> exact .ok (hs.dict hr).length_eq
  | _ => exact .closed trivial

end Likeness
end TextTemplate
