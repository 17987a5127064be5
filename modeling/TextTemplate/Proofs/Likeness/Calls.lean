/-
# Computing with values that are alike

Sums, texts, methods and calls: what comes of values that are alike is alike, what is changed in
place stays alike, and what is made is alike.

* `plus_alike` and `minus_alike`: arithmetic;
* `callData_alike`: the methods of plain data, sorting among them;
* `call_alike` and `settle_alike`: calls, and the value that a lookup goes on with;
* `asMarkup_alike`: escaping.
-/
import TextTemplate.Proofs.Likeness.Iteration
import TextTemplate.Proofs.Sorting.Naturality
import TextTemplate.Value.Call

namespace TextTemplate.Likeness

open Correspondence TextTemplate.Decimal TextTemplate.Text

variable {L : Likeness} {s s' : Store} {v v' w w' : Value}

/-! ## 1. Numbers -/

theorem toInteger_like (h : L.Like v v') : L.LikeExcept Eq v.toInteger v'.toInteger := by
  cases h with
  | float x =>
    unfold Value.toInteger
    dsimp only
    split
    · exact .ok rfl
    · exact .closed trivial
  | text t safe =>
    unfold Value.toInteger
    dsimp only
    split
    · exact .ok rfl
    · exact .closed trivial
    · exact .closed trivial
  | bool b => exact .ok rfl
  | int n => exact .ok rfl
  | view kind => cases kind <;> exact .closed trivial
  | _ => exact .closed trivial

theorem nearestFloat_like (n : Int) : L.LikeExcept Eq (nearestFloat n) (nearestFloat n) := by
  unfold nearestFloat
  split
  · exact .ok rfl
  · exact .closed trivial

theorem toFloat_like (h : L.Like v v') : L.LikeExcept Eq v.toFloat v'.toFloat := by
  cases h with
  | bool b => exact (nearestFloat_like _).map fun _ _ hx => congrArg some hx
  | int n => exact (nearestFloat_like _).map fun _ _ hx => congrArg some hx
  | float x => exact .ok rfl
  | nan h => exact .ok rfl
  | text t safe =>
    unfold Value.toFloat
    dsimp only
    split
    · exact .ok rfl
    · exact .ok rfl
    · exact .closed trivial
  | view kind => cases kind <;> exact .closed trivial
  | _ => exact .closed trivial

theorem readNumber_like (h : L.Like v v') : L.LikeExcept Eq v.readNumber v'.readNumber := by
  have hinteger := toInteger_like h
  unfold Value.readNumber
  rw [numeric?_eq h]
  split
  · exact .ok rfl
  · generalize v.toInteger = x, v'.toInteger = x' at hinteger
    cases hinteger with
    | ok h => exact .ok (congrArg _ h)
    | error hc =>
      dsimp only
      rw [hc.kind_eq]
      split
      · refine (toFloat_like h).bind ?_
        rintro x _ rfl
        cases x <;> exact .ok rfl
      · exact .error hc

theorem ofFloat_alike {E : Error → Error → Prop} (x : Option Binary64) :
    L.AlikeBy E L.Like (Eval.ofFloat x) (Eval.ofFloat x) := by
  cases x with
  | some x => exact .pure (.float x)
  | none => exact (AlikeBy.make fun _ _ hs => hs.newIdentity).bind fun _ _ h => .pure (.nan h)

/-- The same operation on the same numbers. -/
theorem arithmetic_alike (exact : Int → Int → Int)
    (rounded : Binary64 → Binary64 → Option Binary64) (x y : Numeric) :
    L.Alike L.Like (Eval.arithmetic exact rounded x y) (Eval.arithmetic exact rounded x y) := by
  have hnearest : ∀ n, L.Alike Eq (Eval.read fun _ => nearestFloat n)
      (Eval.read fun _ => nearestFloat n) := fun n => .read fun _ _ _ => nearestFloat_like n
  unfold Eval.arithmetic
  split
  · exact .pure (.int _)
  · refine (hnearest _).bind ?_
    rintro z _ rfl
    exact ofFloat_alike _
  · refine (hnearest _).bind ?_
    rintro z _ rfl
    exact ofFloat_alike _
  · exact ofFloat_alike _
  · exact (hnearest _).bind fun _ _ _ => ofFloat_alike _
  · exact (hnearest _).bind fun _ _ _ => ofFloat_alike _
  · exact ofFloat_alike _

/-- **Sums of values that are alike are alike.** -/
theorem plus_alike (hv : L.Like v v') (hw : L.Like w w') :
    L.Alike L.Like (Eval.plus v w) (Eval.plus v' w') := by
  unfold Eval.plus
  refine .bind .get fun s s' hs => ?_
  rw [numeric?_eq hv, numeric?_eq hw]
  split
  · exact arithmetic_alike _ _ _ _
  · have htype := hw.typeName_eq
    have htype' := hv.typeName_eq
    cases hv with
    | text t safe =>
      cases hw with
      | text u safe' => exact .pure (.text _ _)
      | view kind => cases kind <;> exact .failClosed trivial
      | _ => exact .failClosed trivial
    | list h =>
      cases hw with
      | list h' =>
        exact .make fun _ _ ht => ht.newList (List.rel_append (hs.list (L.rows_of_lists h))
          (hs.list (L.rows_of_lists h')))
      | view kind => cases kind <;> exact .failClosed trivial
      | _ => exact .failClosed trivial
    | tuple h =>
      cases hw with
      | tuple h' =>
        exact .make fun _ _ ht => ht.newTuple (List.rel_append (hs.tuple h) (hs.tuple h'))
      | view kind => cases kind <;> exact .failClosed trivial
      | _ => exact .failClosed trivial
    | view kind =>
      dsimp only
      rw [htype, htype']
      exact .failClosed trivial
    | _ =>
      dsimp only
      rw [htype]
      exact .failClosed trivial

/-- **Differences of values that are alike are alike.** -/
theorem minus_alike (hv : L.Like v v') (hw : L.Like w w') :
    L.Alike L.Like (Eval.minus v w) (Eval.minus v' w') := by
  unfold Eval.minus
  refine (AlikeBy.read fun _ _ _ => readNumber_like hv).bind ?_
  rintro x _ rfl
  refine (AlikeBy.read fun _ _ _ => readNumber_like hw).bind ?_
  rintro y _ rfl
  exact arithmetic_alike _ _ _ _

/-! ## 2. Texts -/

/-- **Values that are alike have the same text in the output.** -/
theorem text_alike (h : L.Like v v') : L.Alike Eq (Eval.text v) (Eval.text v') := by
  refine .read fun s s' hs => ?_
  rw [shown?_eq hs h]
  split
  · exact .ok rfl
  · exact .closed trivial

/-- The texts of values that are alike, as values. -/
theorem textAs_alike (h : L.Like v v') {f : String → Value} (hf : ∀ t, L.Like (f t) (f t)) :
    L.Alike L.Like (do pure (f (← Eval.text v))) (do pure (f (← Eval.text v'))) := by
  refine (text_alike h).bind ?_
  rintro t _ rfl
  exact .pure (hf t)

theorem isMarkup_like (hs : L.Holds s s') (h : L.Like v v') :
    L.LikeExcept Eq (s.isMarkup v) (s'.isMarkup v') := by
  have hattribute := hasAttribute_like hs h markupAttribute
  cases h with
  | text t safe => exact .ok rfl
  | _ => exact hattribute

theorem markSafe_alike (h : L.Like v v') :
    L.Alike L.Like (Eval.markSafe v) (Eval.markSafe v') := by
  have hnew : L.Alike L.identities (Eval.make (·.newIdentity)) (Eval.make (·.newIdentity)) :=
    .make fun _ _ hs => hs.newIdentity
  have hmarked := textAs_alike h (f := .markup) .markup
  unfold Eval.markSafe
  refine (AlikeBy.read fun _ _ hs => isMarkup_like hs h).bind ?_
  rintro safe _ rfl
  cases safe with
  | true => exact .pure h
  | false =>
    cases h with
    | function h hi => exact hnew.bind fun _ _ hj => .pure (.function h hj)
    | @object r r' h =>
      refine .bind .get fun s s' hs => ?_
      rw [isCallable_eq hs (.object h)]
      split
      · exact hnew.bind fun _ _ hj => .pure (.function h hj)
      · exact hmarked
    | _ => exact hmarked

/-! ## 3. Methods of plain data -/

/-- Rows that are alike are the two sides of a row of pairs. -/
theorem exists_pairs {xs xs' : List Value} (h : L.LikeItems xs xs') :
    ∃ ps : List {p : Value × Value // L.Like p.1 p.2},
      ps.map (·.1.1) = xs ∧ ps.map (·.1.2) = xs' := by
  induction h with
  | nil => exact ⟨[], rfl, rfl⟩
  | @cons x x' _ _ hx _ ih =>
    obtain ⟨ps, rfl, rfl⟩ := ih
    exact ⟨⟨(x, x'), hx⟩ :: ps, rfl, rfl⟩

theorem sides_like (ps : List {p : Value × Value // L.Like p.1 p.2}) :
    L.LikeItems (ps.map (·.1.1)) (ps.map (·.1.2)) := by
  induction ps with
  | nil => exact .nil
  | cons p ps ih => exact .cons p.2 ih

/-- **Rows that are alike are sorted alike**, or sorting stops half way in both. -/
theorem sortItems_like (hs : L.Holds s s') {xs xs' : List Value} (h : L.LikeItems xs xs') :
    L.LikeItems (Sorting.sortItems (s.related .less) xs).1
      (Sorting.sortItems (s'.related .less) xs').1 ∧
    (Sorting.sortItems (s.related .less) xs).2 = (Sorting.sortItems (s'.related .less) xs').2 := by
  obtain ⟨ps, rfl, rfl⟩ := exists_pairs h
  let less (p q : {p : Value × Value // L.Like p.1 p.2}) := s.related .less p.1.1 q.1.1
  have hless : ∀ p q, s.related .less p.1.1 q.1.1 = less p q := fun _ _ => rfl
  have hless' : ∀ p q, s'.related .less p.1.2 q.1.2 = less p q := fun p q =>
    (related_eq hs .less p.2 q.2).symm
  have hleft := Sorting.sortItems_map (g := fun p => p.1.1) hless ps
  have hright := Sorting.sortItems_map (g := fun p => p.1.2) hless' ps
  rw [hleft, hright]
  exact ⟨sides_like _, rfl⟩

/-- A change of lists that are alike, and then a result. -/
theorem setList_alike {r r' : Ref} (hr : L.lists r r') (hs : L.Holds s s')
    {xs xs' : List Value} (h : L.LikeItems xs xs') {α : Type} {P : α → α → Prop} {x x' : Eval α}
    (hx : L.Alike P x x') :
    L.Alike P (do set (s.setList r xs); x) (do set (s'.setList r' xs'); x') :=
  AlikeBy.bind (P := fun _ _ => True) (.set (hs.setList hr h) trivial) fun _ _ _ => hx

theorem view_alike (kind : ViewKind) {r r' : Ref} (hr : L.mappings r r') :
    L.Alike L.Like (do pure (.view kind r (← Eval.make (·.newIdentity))))
      (do pure (.view kind r' (← Eval.make (·.newIdentity)))) :=
  (AlikeBy.make fun _ _ hs => hs.newIdentity).bind fun _ _ hi => .pure (.view kind hr hi)

/-- A change of mappings that are alike, and then a result. -/
theorem setDict_alike {r r' : Ref} (hr : L.dicts r r') (hs : L.Holds s s')
    {d d' : Dict} (h : L.LikeDict d d') {α : Type} {P : α → α → Prop} {x x' : Eval α}
    (hx : L.Alike P x x') :
    L.Alike P (do set (s.setDict r d); x) (do set (s'.setDict r' d'); x') :=
  AlikeBy.bind (P := fun _ _ => True) (.set (hs.setDict hr h) trivial) fun _ _ _ => hx

theorem popPair_alike {r r' : Ref} (hr : L.dicts r r') :
    L.Alike L.Like (Eval.callData (.dict r) .popPair) (Eval.callData (.dict r') .popPair) := by
  unfold Eval.callData
  refine .bind .get fun s s' hs => ?_
  have hd := hs.dict (L.mappings_of_dicts hr)
  have hlast := getLast?_rel hd
  dsimp only
  generalize (s.dict r).getLast? = o, (s'.dict r').getLast? = o' at hlast
  cases hlast with
  | none => exact .failClosed trivial
  | some he =>
    exact setDict_alike hr hs (dropLast_rel hd)
      (.make fun _ _ ht => ht.newTuple (.cons he.label (.cons he.value .nil)))

theorem popLast_alike {r r' : Ref} (hr : L.lists r r') :
    L.Alike L.Like (Eval.callData (.list r) .popLast) (Eval.callData (.list r') .popLast) := by
  unfold Eval.callData
  refine .bind .get fun s s' hs => ?_
  have hx := hs.list (L.rows_of_lists hr)
  have hlast := getLast?_rel hx
  dsimp only
  generalize (s.list r).getLast? = o, (s'.list r').getLast? = o' at hlast
  cases hlast with
  | none => exact .failClosed trivial
  | some h => exact setList_alike hr hs (dropLast_rel hx) (.pure h)

theorem sort_alike {r r' : Ref} (hr : L.lists r r') :
    L.Alike L.Like (Eval.callData (.list r) .sort) (Eval.callData (.list r') .sort) := by
  unfold Eval.callData
  refine .bind .get fun s s' hs => ?_
  obtain ⟨hitems, hfault⟩ := sortItems_like hs (hs.list (L.rows_of_lists hr))
  dsimp only
  rw [hfault]
  refine setList_alike hr hs hitems ?_
  split
  · exact .pure .none
  · exact .failClosed trivial

/-- **Methods of plain data on values that are alike.** -/
theorem callData_alike (h : L.Like v v') (m : DataMethod) :
    L.Alike L.Like (Eval.callData v m) (Eval.callData v' m) := by
  cases h with
  | text t safe =>
    unfold Eval.callData
    refine .bind .get fun s s' hs => ?_
    cases m with
    | upper => exact .pure (.plain _)
    | lower => exact .pure (.plain _)
    | title => exact .pure (.plain _)
    | strip => exact .pure (.plain _)
    | stripLeft => exact .pure (.plain _)
    | stripRight => exact .pure (.plain _)
    | split => exact .make fun _ _ ht => ht.newList (map_like (fun _ => .plain _) _)
    | _ => exact .failClosed trivial
  | dict h =>
    cases m with
    | popPair => exact popPair_alike h
    | pairs => exact .bind .get fun _ _ _ => view_alike .pairs (L.mappings_of_dicts h)
    | keys => exact .bind .get fun _ _ _ => view_alike .keys (L.mappings_of_dicts h)
    | values => exact .bind .get fun _ _ _ => view_alike .values (L.mappings_of_dicts h)
    | copyEntries =>
      exact .bind .get fun _ _ hs => .make fun _ _ ht =>
        ht.newDict (hs.dict (L.mappings_of_dicts h))
    | clearEntries => exact .bind .get fun _ _ hs => setDict_alike h hs .nil (.pure .none)
    | update => exact .bind .get fun _ _ _ => .pure .none
    | _ => exact .bind .get fun _ _ _ => .failClosed trivial
  | list h =>
    have hx := fun {s s' : Store} (hs : L.Holds s s') => hs.list (L.rows_of_lists h)
    cases m with
    | popLast => exact popLast_alike h
    | sort => exact sort_alike h
    | copy => exact .bind .get fun _ _ hs => .make fun _ _ ht => ht.newList (hx hs)
    | reverse =>
      exact .bind .get fun _ _ hs => setList_alike h hs (List.rel_reverse (hx hs)) (.pure .none)
    | clear => exact .bind .get fun _ _ hs => setList_alike h hs .nil (.pure .none)
    | _ => exact .bind .get fun _ _ _ => .failClosed trivial
  | int n =>
    cases m with
    | bitLength => exact .bind .get fun _ _ _ => .pure (.int _)
    | conjugate => exact .bind .get fun _ _ _ => .pure (.int _)
    | _ => exact .bind .get fun _ _ _ => .failClosed trivial
  | bool b =>
    cases m with
    | bitLength => exact .bind .get fun _ _ _ => .pure (.int _)
    | conjugate => exact .bind .get fun _ _ _ => .pure (.int _)
    | _ => exact .bind .get fun _ _ _ => .failClosed trivial
  | float x =>
    cases m with
    | isInteger => exact .bind .get fun _ _ _ => .pure (.bool _)
    | conjugate => exact .bind .get fun _ _ _ => .pure (.float x)
    | _ => exact .bind .get fun _ _ _ => .failClosed trivial
  | nan h =>
    cases m with
    | isInteger => exact .bind .get fun _ _ _ => .pure (.bool _)
    | conjugate => exact .bind .get fun _ _ _ => .pure (.nan h)
    | _ => exact .bind .get fun _ _ _ => .failClosed trivial
  | _ => cases m <;> exact .bind .get fun _ _ _ => .failClosed trivial

/-! ## 4. Calls -/

/-- What pieces of the caller's code that do the same give. -/
theorem outcome_alike {o o' : Outcome} (h : L.LikeOutcome o o') :
    L.Alike L.Like (Eval.read fun _ => o.run) (Eval.read fun _ => o'.run) :=
  .read fun _ _ _ => h.run

/-- **Calling values that are alike.** -/
theorem callValue_alike (h : L.Like v v') :
    L.Alike L.Like (Eval.callValue v) (Eval.callValue v') := by
  have hrefused : L.Alike L.Like (Eval.fail (.type (.notCallable v.typeName)) : Eval Value)
      (Eval.fail (.type (.notCallable v'.typeName))) := h.typeName_eq ▸ .failClosed trivial
  unfold Eval.callValue
  refine .bind .get fun s s' hs => ?_
  cases h with
  | @object r r' h =>
    have hcall := (hs.objects h).call
    dsimp only
    generalize (s.object r).call = o, (s'.object r').call = o' at hcall
    cases hcall with
    | none => exact hrefused
    | some ho => exact outcome_alike ho
  | @function r r' i i' h hi =>
    have hcall := (hs.objects h).call
    dsimp only
    generalize (s.object r).call = o, (s'.object r').call = o' at hcall
    cases hcall with
    | none => exact hrefused
    | some ho => exact (outcome_alike ho).bind fun _ _ hv => markSafe_alike hv
  | _ => exact hrefused

/-- **Calling members that are alike.** -/
theorem call_alike {m m' : Member} (h : L.LikeMember m m') :
    L.Alike L.Like (Eval.call m) (Eval.call m') := by
  cases h with
  | value h => exact callValue_alike h
  | data h m => exact callData_alike h m
  | method object h =>
    unfold Eval.call
    dsimp only
    rw [h.name, h.needsArgument]
    split
    · exact .failClosed trivial
    · exact outcome_alike h.outcome

theorem failsOnType_eq {o o' : Outcome} (h : L.LikeOutcome o o') :
    o.failsOnType = o'.failsOnType := by
  cases h with
  | returns h => rfl
  | raises kind h =>
    unfold Outcome.failsOnType
    dsimp only
    rw [(likeCause_raising kind h).kind_eq]

theorem declinesCall_alike (h : L.Like v v') :
    L.Alike Eq (Eval.declinesCall v) (Eval.declinesCall v') := by
  unfold Eval.declinesCall
  refine .bind .get fun s s' hs => ?_
  have hattribute := attribute?_like hs h noCallAttribute
  generalize s.attribute? v noCallAttribute = o, s'.attribute? v' noCallAttribute = o'
    at hattribute
  cases hattribute with
  | none => exact .pure rfl
  | some hm =>
    cases hm with
    | error hc =>
      dsimp only
      rw [hc.kind_eq]
      split
      · exact .pure rfl
      · exact .fail hc
    | ok hm =>
      cases hm with
      | value hw => exact .bind .get fun t t' ht => .pure (truth_eq ht hw)
      | method object hm => exact .pure rfl
      | data hw m => exact .pure rfl

theorem refuseCall_alike (h : L.Like v v') :
    L.Alike L.Like (Eval.refuseCall v) (Eval.refuseCall v') := by
  unfold Eval.refuseCall
  refine .bind .get fun s s' hs => ?_
  have hattribute := attribute?_like hs h nameAttribute
  rw [written_eq hs h, h.typeName_eq]
  generalize s.attribute? v nameAttribute = o, s'.attribute? v' nameAttribute = o' at hattribute
  cases hattribute with
  | none => exact .failClosed trivial
  | some hm =>
    cases hm with
    | ok hm => exact .failClosed trivial
    | error hc =>
      dsimp only
      rw [hc.kind_eq]
      split
      · exact .failClosed trivial
      · exact .fail hc

/-- **A lookup goes on with values that are alike.** -/
theorem settle_alike {m m' : Member} (h : L.LikeMember m m') :
    L.Alike L.Like (Eval.settle m) (Eval.settle m') := by
  unfold Eval.settle
  cases h with
  | data h m => exact callData_alike h m
  | method object h =>
    dsimp only
    rw [h.name, h.needsArgument]
    split
    · exact .failClosed trivial
    · exact outcome_alike h.outcome
  | value h =>
    cases h with
    | @object r r' h =>
      refine .bind .get fun s s' hs => ?_
      have hcall := (hs.objects h).call
      generalize (s.object r).call = o, (s'.object r').call = o' at hcall
      cases hcall with
      | none => exact .pure (.object h)
      | some ho =>
        refine (declinesCall_alike (.object h)).bind ?_
        rintro declines _ rfl
        rw [failsOnType_eq ho]
        split
        · exact .pure (.object h)
        · split
          · exact refuseCall_alike (.object h)
          · exact outcome_alike ho
    | function h hi =>
      refine (declinesCall_alike (.function h hi)).bind ?_
      rintro declines _ rfl
      split
      · exact .pure (.function h hi)
      · exact callValue_alike (.function h hi)
    | nan h => exact .pure (.nan h)
    | list h => exact .pure (.list h)
    | tuple h => exact .pure (.tuple h)
    | dict h => exact .pure (.dict h)
    | view kind h hi => exact .pure (.view kind h hi)
    | none => exact .pure .none
    | bool b => exact .pure (.bool b)
    | int n => exact .pure (.int n)
    | float x => exact .pure (.float x)
    | text t safe => exact .pure (.text t safe)
    | range start stop => exact .pure (.range start stop)

/-! ## 5. Escaping -/

theorem escaped_alike (h : L.Like v v') : L.Alike L.Like (Eval.escaped v) (Eval.escaped v') :=
  textAs_alike h (f := fun t => .markup (escapeMarkup t)) fun _ => .markup _

/-- A value that is no markup yet. -/
theorem asMarkup_of_ne (v : Value) (h : ∀ t, v ≠ .text t true) :
    Eval.asMarkup v = (do
      if ← Eval.read (·.hasAttribute v markupAttribute) then
        match (← get).attribute? v markupAttribute with
        | some (.ok member) => Eval.call member
        | some (.error cause) => Eval.fail cause
        | none => Eval.escaped v
      else Eval.escaped v) := by
  unfold Eval.asMarkup
  split
  · exact absurd rfl (h _)
  · rfl

/-- **Values that are alike are alike as markup.** -/
theorem asMarkup_alike (h : L.Like v v') :
    L.Alike L.Like (Eval.asMarkup v) (Eval.asMarkup v') := by
  by_cases hsafe : ∃ t, v = .text t true
  · obtain ⟨t, rfl⟩ := hsafe
    cases h
    exact .pure (.markup t)
  · have hsafe' : ∀ t, v' ≠ .text t true := by
      rintro t rfl
      cases h
      exact hsafe ⟨t, rfl⟩
    rw [asMarkup_of_ne v fun t ht => hsafe ⟨t, ht⟩, asMarkup_of_ne v' hsafe']
    refine (AlikeBy.read fun _ _ hs => hasAttribute_like hs h markupAttribute).bind ?_
    rintro has _ rfl
    cases has with
    | false => exact escaped_alike h
    | true =>
      refine .bind .get fun s s' hs => ?_
      have hattribute := attribute?_like hs h markupAttribute
      generalize s.attribute? v markupAttribute = o, s'.attribute? v' markupAttribute = o'
        at hattribute
      cases hattribute with
      | none => exact escaped_alike h
      | some hm =>
        cases hm with
        | ok hm => exact call_alike hm
        | error hc => exact .fail hc

end TextTemplate.Likeness
