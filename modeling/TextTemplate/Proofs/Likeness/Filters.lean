/-
# Filters on values that are alike

A filter is **uniform** if it does not matter to it where values lie: on values that are alike it
gives values that are alike, or fails alike.  All standard filters are uniform, and with uniform
filters whole expressions have values that are alike.

* `Filter.Uniform` is the property, `Filter.standard_uniform` says that the standard filters have
  it;
* `expression_alike` is about expressions.
-/
import TextTemplate.Expression.Basic
import TextTemplate.Proofs.Likeness.Names
import TextTemplate.Proofs.Safety.Join
import TextTemplate.Standard.Filters

namespace TextTemplate

open Likeness Correspondence TextTemplate.Text

/-- The filter does the same to arguments that are alike, wherever they lie, and its flags are the
same on both sides. -/
structure Filter.Uniform (L : Likeness) (f : Filter) : Prop where
  body : ∀ {args args' : List Value}, L.LikeItems args args' →
    L.Alike L.Like (f.body args) (f.body args')
  flag : ∀ {v : Value}, f.safeFlag = some v → L.Like v v
  innerFlag : ∀ {v : Value}, f.inner.bind (·.safeFlag) = some v → L.Like v v

variable {L : Likeness} {v v' w w' : Value} {args args' : List Value}

/-! ## 1. Using filters -/

namespace Filter

variable {f : Filter}

theorem flag_eq {flag : Option Value} (h : ∀ {v : Value}, flag = some v → L.Like v v)
    {s s' : Store} (hs : L.Holds s s') : flag.any s.truth = flag.any s'.truth := by
  cases flag with
  | none => rfl
  | some v => exact truth_eq hs (h rfl)

theorem keepsSafe_eq (h : f.Uniform L) {s s' : Store} (hs : L.Holds s s') :
    f.keepsSafe s = f.keepsSafe s' := flag_eq h.flag hs

theorem innerKeepsSafe_eq (h : f.Uniform L) {s s' : Store} (hs : L.Holds s s') :
    f.innerKeepsSafe s = f.innerKeepsSafe s' := flag_eq h.innerFlag hs

theorem isSafe_eq (h : L.Like v v') : isSafe v = isSafe v' := by cases h <;> rfl

theorem callBody_alike (h : f.Uniform L) (ha : L.LikeItems args args') :
    L.Alike L.Like (f.callBody args) (f.callBody args') := by
  unfold callBody
  rw [ha.length_eq]
  dsimp only
  split
  · exact .failClosed trivial
  · split
    · exact .failClosed trivial
    · exact h.body ha

theorem argumentText_alike (h : L.Like v v') :
    L.Alike L.Like (argumentText v) (argumentText v') := by
  have htext := textAs_alike h (f := .plain) .plain
  cases h with
  | none => exact .pure (.plain "")
  | text t safe => exact .pure (.text t safe)
  | _ => exact htext

/-- A result, marked as safe if it is to be. -/
theorem marked_alike (h : f.Uniform L) {b : Bool} (hw : L.Like w w') :
    L.Alike L.Like (do if b && f.innerKeepsSafe (← get) then Eval.markSafe w else pure w)
      (do if b && f.innerKeepsSafe (← get) then Eval.markSafe w' else pure w') := by
  refine .bind .get fun s s' hs => ?_
  rw [innerKeepsSafe_eq h hs]
  split
  · exact markSafe_alike hw
  · exact .pure hw

theorem call_alike (h : f.Uniform L) (ha : L.LikeItems args args') :
    L.Alike L.Like (f.call args) (f.call args') := by
  unfold call
  split
  · cases ha with
    | nil => exact .failClosed trivial
    | cons hv hrest =>
      refine (argumentText_alike hv).bind fun text text' htext => ?_
      refine (callBody_alike h (.cons htext hrest)).bind fun result result' hresult => ?_
      rw [isSafe_eq htext]
      exact marked_alike h hresult
  · exact callBody_alike h ha

/-- **A uniform filter gives values that are alike.** -/
theorem apply_alike (h : f.Uniform L) (hv : L.Like v v') {a a' : Option Value}
    (ha : Option.Rel L.Like a a') : L.Alike L.Like (f.apply v a) (f.apply v' a') := by
  have hargs : L.LikeItems (v :: a.toList) (v' :: a'.toList) := by
    cases ha with
    | none => exact .cons hv .nil
    | some hw => exact .cons hv (.cons hw .nil)
  unfold apply
  refine (call_alike h hargs).bind fun result result' hresult => ?_
  refine .bind .get fun s s' hs => ?_
  rw [isSafe_eq hv, keepsSafe_eq h hs]
  split
  · exact markSafe_alike hresult
  · exact .pure hresult

/-! ## 2. The standard filters -/

/-- A body that works on two arguments only. -/
theorem alike_of_two {body : List Value → Eval Value}
    (h : ∀ v v' w w', L.Like v v' → L.Like w w' → L.Alike L.Like (body [v, w]) (body [v', w']))
    (hnone : ∀ args, (∀ v w, args = [v, w] → False) → body args = pure .none)
    (ha : L.LikeItems args args') :
    L.Alike L.Like (body args) (body args') := by
  by_cases htwo : ∃ v w, args = [v, w]
  · obtain ⟨v, w, rfl⟩ := htwo
    cases ha with
    | cons hv hrest =>
      cases hrest with
      | cons hw hrest =>
        cases hrest
        exact h _ _ _ _ hv hw
  · have htwo' : ∀ v w, args' = [v, w] → False := by
      rintro v w rfl
      cases ha with
      | cons hv hrest =>
        cases hrest with
        | cons hw hrest =>
          cases hrest
          exact htwo ⟨_, _, rfl⟩
    rw [hnone args fun v w hvw => htwo ⟨v, w, hvw⟩, hnone args' htwo']
    exact .pure .none

/-- A body that works on one argument only. -/
theorem alike_of_one {body : List Value → Eval Value}
    (h : ∀ v v', L.Like v v' → L.Alike L.Like (body [v]) (body [v']))
    (hnone : ∀ args, (∀ v, args = [v] → False) → body args = pure .none)
    (ha : L.LikeItems args args') :
    L.Alike L.Like (body args) (body args') := by
  by_cases hone : ∃ v, args = [v]
  · obtain ⟨v, rfl⟩ := hone
    cases ha with
    | cons hv hrest =>
      cases hrest
      exact h _ _ hv
  · have hone' : ∀ v, args' = [v] → False := by
      rintro v rfl
      cases ha with
      | cons hv hrest =>
        cases hrest
        exact hone ⟨_, rfl⟩
    rw [hnone args fun v hv => hone ⟨v, hv⟩, hnone args' hone']
    exact .pure .none

theorem onChars_alike (f : List Char → List Char) (ha : L.LikeItems args args') :
    L.Alike L.Like (onChars f args) (onChars f args') := by
  cases ha with
  | nil => exact .pure (.plain "")
  | cons hv _ =>
    cases hv with
    | text t safe => exact .pure (.plain _)
    | _ => exact .pure (.plain "")

theorem capfirst_alike (ha : L.LikeItems args args') :
    L.Alike L.Like (capfirstBody args) (capfirstBody args') := by
  have hchars := onChars_alike capitalize ha
  by_cases hempty : ∃ safe rest, args = .text "" safe :: rest
  · obtain ⟨safe, rest, rfl⟩ := hempty
    cases ha with
    | cons hv _ =>
      cases hv
      exact .pure (.text "" safe)
  · have hempty' : ¬ ∃ safe rest, args' = .text "" safe :: rest := by
      rintro ⟨safe, rest, rfl⟩
      cases ha with
      | cons hv _ =>
        cases hv
        exact hempty ⟨_, _, rfl⟩
    have heq : ∀ xs, (¬ ∃ safe rest, xs = Value.text "" safe :: rest) →
        capfirstBody xs = onChars capitalize xs := by
      intro xs hxs
      unfold capfirstBody
      split
      · exact absurd ⟨_, _, rfl⟩ hxs
      · rfl
    rw [heq _ hempty, heq _ hempty']
    exact hchars

theorem escape_alike (ha : L.LikeItems args args') :
    L.Alike L.Like (escapeBody args) (escapeBody args') := by
  cases ha with
  | nil => exact .pure (.markup "")
  | cons hv _ =>
    cases hv with
    | text t safe => exact .pure (.markup _)
    | _ => exact .pure (.markup "")

theorem escapeScript_alike (ha : L.LikeItems args args') :
    L.Alike L.Like (escapeScriptBody args) (escapeScriptBody args') := by
  cases ha with
  | nil => exact .pure (.markup "")
  | cons hv _ =>
    cases hv with
    | text t safe => exact .pure (.markup _)
    | _ => exact .pure (.markup "")

/-- Something made of two integers that are read off values. -/
theorem integers_like {α : Type} {P : α → α → Prop} (hv : L.Like v v') (hw : L.Like w w')
    {f : Int → Int → α} (hf : ∀ m n, P (f m n) (f m n)) :
    L.LikeExcept P (do let m ← v.toInteger; let n ← w.toInteger; Except.ok (f m n))
      (do let m ← v'.toInteger; let n ← w'.toInteger; Except.ok (f m n)) := by
  refine (toInteger_like hv).bind ?_
  rintro m _ rfl
  refine (toInteger_like hw).bind ?_
  rintro n _ rfl
  exact .ok (hf m n)

theorem add_alike (hv : L.Like v v') (hw : L.Like w w') :
    L.Alike L.Like (addBody [v, w]) (addBody [v', w']) := by
  refine (AlikeBy.read fun _ _ _ => integers_like hv hw (P := L.Like) fun _ _ => .int _).unless.bind
    fun o o' ho => ?_
  cases ho with
  | some h => exact .pure h
  | none => exact ((plus_alike hv hw).unless).bind fun _ _ ho => .pure (like_getD ho (.plain ""))

theorem subtract_alike (hv : L.Like v v') (hw : L.Like w w') :
    L.Alike L.Like (subtractBody [v, w]) (subtractBody [v', w']) :=
  ((minus_alike hv hw).unless).bind fun _ _ ho => .pure (like_getD ho (.plain ""))

/-- What a computation gives, or something else where it fails. -/
theorem orElse_eq {α : Type} {o o' : Option α} (h : Option.Rel Eq o o') (d : α) :
    o.getD d = o'.getD d := by
  cases h with
  | none => rfl
  | some h => exact h

theorem divisibleby_alike (hv : L.Like v v') (hw : L.Like w w') :
    L.Alike L.Like (divisiblebyBody [v, w]) (divisiblebyBody [v', w']) := by
  refine (AlikeBy.read fun _ _ _ => integers_like hv hw fun _ _ => rfl).unless.bind
    fun o o' ho => ?_
  rw [orElse_eq ho]
  exact .pure (.bool _)

theorem pluralize_alike (ha : L.LikeItems args args') :
    L.Alike L.Like (pluralizeBody args) (pluralizeBody args') := by
  have hcount : L.Like (args.headD .none) (args'.headD .none) := by
    cases ha with
    | nil => exact .none
    | cons hv _ => exact hv
  have hforms : L.Like (args.tail.headD (.plain "s,")) (args'.tail.headD (.plain "s,")) := by
    cases ha with
    | nil => exact .plain _
    | cons _ hrest =>
      cases hrest with
      | nil => exact .plain _
      | cons hw _ => exact hw
  unfold pluralizeBody
  refine (text_alike hforms).bind ?_
  rintro forms _ rfl
  dsimp only
  refine (AlikeBy.read fun _ _ _ => toFloat_like hcount).unless.bind fun o o' ho => ?_
  cases ho with
  | none => exact .pure (.plain _)
  | @some x x' h =>
    subst h
    cases x with
    | none => exact .pure (.plain _)
    | some x =>
      dsimp only
      split
      · exact .pure (.plain _)
      · exact .pure (.plain _)

theorem contains_alike (hv : L.Like v v') (hw : L.Like w w') :
    L.Alike L.Like (containsBody [v, w]) (containsBody [v', w']) := by
  refine (Likeness.contains_alike (.like hv) hw).unless.bind fun o o' ho => ?_
  rw [orElse_eq ho]
  exact .pure (.bool _)

theorem item_alike (index : Int) (hv : L.Like v v') :
    L.Alike L.Like (itemBody index [v]) (itemBody index [v']) :=
  ((AlikeBy.read fun _ _ hs => item_like hs (.like hv) (.int index)).unless).bind fun _ _ ho =>
    .pure (like_getD ho (.plain ""))

theorem streamTexts_alike {st st' : Stream} (h : L.LikeStream st st') :
    L.Alike Eq (streamTexts st) (streamTexts st') := by
  have hfailure := h.failure
  unfold streamTexts
  refine (AlikeBy.mapM h.items fun _ _ hv => text_alike hv).bind fun texts texts' htexts => ?_
  obtain rfl := List.forall₂_eq_eq_eq.subst (motive := fun R => R texts texts') htexts
  generalize st.failure = o, st'.failure = o' at hfailure
  cases hfailure with
  | none => exact .pure rfl
  | some hc => exact .fail hc

theorem join_alike (hv : L.Like v v') (hw : L.Like w w') :
    L.Alike L.Like (joinBody [v, w]) (joinBody [v', w']) := by
  have hjoined : L.Alike L.Like (Filter.joined v w) (Filter.joined v' w') := by
    refine (text_alike hw).bind ?_
    rintro between _ rfl
    refine (stream?_alike hv).bind fun o o' ho => ?_
    cases ho with
    | none =>
      dsimp only
      rw [hv.typeName_eq]
      exact .failClosed trivial
    | some hst =>
      refine (streamTexts_alike hst).bind ?_
      rintro texts _ rfl
      exact .pure (.plain _)
  exact hjoined.unless.bind fun _ _ ho => .pure (like_getD ho hv)

theorem length_alike (hv : L.Like v v') :
    L.Alike L.Like (lengthBody [v]) (lengthBody [v']) := by
  refine (AlikeBy.read fun _ _ hs => length_like hs hv).unless.bind fun o o' ho => ?_
  rw [orElse_eq ho]
  exact .pure (.int _)

theorem safe_alike (hv : L.Like v v') : L.Alike L.Like (safeBody [v]) (safeBody [v']) := by
  unfold safeBody
  dsimp only
  have hnone : v = .none ↔ v' = .none := hv.eq_iff .none
  by_cases h : v = .none
  · rw [if_pos h, if_pos (hnone.mp h)]
    exact markSafe_alike (.plain "")
  · rw [if_neg h, if_neg (mt hnone.mpr h)]
    exact markSafe_alike hv

theorem default_alike (hv : L.Like v v') (hw : L.Like w w') :
    L.Alike L.Like (defaultBody [v, w]) (defaultBody [v', w']) := by
  refine .bind .get fun s s' hs => ?_
  rw [truth_eq hs hv]
  split
  · exact .pure hv
  · exact .pure hw

theorem uniform_text (name : String) (safe : Bool) {body : List Value → Eval Value}
    (h : ∀ {args args' : List Value}, L.LikeItems args args' →
      L.Alike L.Like (body args) (body args')) : (text name safe body).Uniform L where
  body := h
  flag hflag := by
    cases hflag
    exact .bool safe
  innerFlag hflag := by
    cases hflag
    exact .bool safe

theorem uniform_any (name : String) (parameters : List String) (safe : Bool)
    {body : List Value → Eval Value}
    (h : ∀ {args args' : List Value}, L.LikeItems args args' →
      L.Alike L.Like (body args) (body args')) : (any name parameters safe body).Uniform L where
  body := h
  flag hflag := by
    cases hflag
    exact .bool safe
  innerFlag hflag := nomatch hflag

/-- A filter on a value and an argument. -/
theorem uniform_two (name : String) (parameters : List String) (safe : Bool)
    {body : List Value → Eval Value}
    (h : ∀ {v v' w w' : Value}, L.Like v v' → L.Like w w' →
      L.Alike L.Like (body [v, w]) (body [v', w']))
    (hnone : ∀ args, (∀ v w, args = [v, w] → False) → body args = pure .none) :
    (any name parameters safe body).Uniform L :=
  uniform_any name parameters safe fun ha => alike_of_two (fun _ _ _ _ => h) hnone ha

/-- A filter on a value alone. -/
theorem uniform_one (name : String) (parameters : List String) (safe : Bool)
    {body : List Value → Eval Value}
    (h : ∀ {v v' : Value}, L.Like v v' → L.Alike L.Like (body [v]) (body [v']))
    (hnone : ∀ args, (∀ v, args = [v] → False) → body args = pure .none) :
    (any name parameters safe body).Uniform L :=
  uniform_any name parameters safe fun ha => alike_of_one (fun _ _ => h) hnone ha

/-- **All standard filters are uniform.** -/
theorem standard_uniform {name : String} {f : Filter} (h : (name, f) ∈ standard) :
    f.Uniform L := by
  simp only [standard, List.mem_cons, Prod.mk.injEq, List.not_mem_nil, or_false] at h
  rcases h with ⟨rfl, rfl⟩ | ⟨rfl, rfl⟩ | ⟨rfl, rfl⟩ | ⟨rfl, rfl⟩ | ⟨rfl, rfl⟩ | ⟨rfl, rfl⟩ |
    ⟨rfl, rfl⟩ | ⟨rfl, rfl⟩ | ⟨rfl, rfl⟩ | ⟨rfl, rfl⟩ | ⟨rfl, rfl⟩ | ⟨rfl, rfl⟩ | ⟨rfl, rfl⟩ |
    ⟨rfl, rfl⟩ | ⟨rfl, rfl⟩ | ⟨rfl, rfl⟩ | ⟨rfl, rfl⟩
  · exact uniform_text "upper" false (onChars_alike upper)
  · exact uniform_text "lower" false (onChars_alike lower)
  · exact uniform_text "capfirst" true capfirst_alike
  · exact uniform_text "title" true (onChars_alike title)
  · exact uniform_two "add" withArgument false add_alike addBody.eq_2
  · exact uniform_two "subtract" withArgument false subtract_alike subtractBody.eq_2
  · exact uniform_two "divisibleby" withArgument false divisibleby_alike divisiblebyBody.eq_2
  · exact uniform_two "contains" withArgument false contains_alike containsBody.eq_2
  · exact uniform_one "safe" alone true safe_alike safeBody.eq_2
  · exact uniform_text "escape_filter" true escape_alike
  · exact uniform_text "escapejs" false escapeScript_alike
  · exact uniform_one "first" alone false (item_alike 0) (itemBody.eq_2 0)
  · exact uniform_one "last" alone false (item_alike (-1)) (itemBody.eq_2 (-1))
  · exact uniform_two "join" withArgument true join_alike joinBody.eq_2
  · exact uniform_one "length" alone false length_alike lengthBody.eq_2
  · exact uniform_two "default" withArgument false default_alike defaultBody.eq_2
  · have hany := uniform_any (L := L) "pluralize" withArgument false pluralize_alike
    exact ⟨pluralize_alike, hany.flag, hany.innerFlag⟩

end Filter

/-! ## 3. Expressions -/

/-- An expression reads only some names. -/
structure Expression.Within (reads : Value → Prop) (e : Expression) : Prop where
  base : e.base.Within reads
  arguments : ∀ a ∈ e.filters, ∀ o, a.argument = some o → o.Within reads

/-- All filters of a table are uniform. -/
def UniformFilters (L : Likeness) (filters : Table Filter) : Prop :=
  ∀ name f, filters.find? name = some f → f.Uniform L

theorem uniformFilters_standard : UniformFilters L Filter.standard := fun _ _ hf =>
  Filter.standard_uniform (Outcome.mem_of_lookup hf)

namespace Likeness

variable {R : L.Roots} {c c' : Scopes} {filters : Table Filter}

theorem applyFilter_alike (hf : UniformFilters L filters) (hc : LikeScopes R c c')
    (hv : L.Like v v') {a : Application}
    (ha : ∀ o, a.argument = some o → o.Within R.reads) :
    L.Alike L.Like (Expression.applyFilter filters c v a)
      (Expression.applyFilter filters c' v' a) := by
  unfold Expression.applyFilter
  cases hfind : filters.find? a.name with
  | none => exact .failClosed trivial
  | some f =>
    have hargument : L.Alike (Option.Rel L.Like) (a.argument.mapM (·.resolveOrNone c))
        (a.argument.mapM (·.resolveOrNone c')) := by
      cases ho : a.argument with
      | none => exact .pure .none
      | some o => exact (resolveOrNone_alike hc (ha o ho)).bind fun _ _ h => .pure (.some h)
    exact hargument.bind fun _ _ hw => Filter.apply_alike (hf _ f hfind) hv hw

/-- **An expression that reads only such names has values that are alike.** -/
theorem expression_alike (hf : UniformFilters L filters) (hc : LikeScopes R c c')
    {e : Expression} (he : e.Within R.reads) :
    L.Alike L.Like (e.resolve filters c) (e.resolve filters c') := by
  unfold Expression.resolve
  refine (resolveOrNone_alike hc he.base).bind fun v v' hv => ?_
  have hsame : List.Forall₂ (fun a a' => a = a' ∧ ∀ o, a.argument = some o → o.Within R.reads)
      e.filters e.filters := List.forall₂_same.mpr fun a ha => ⟨rfl, he.arguments a ha⟩
  refine .foldlM hsame hv fun u u' a a' hu ha => ?_
  obtain ⟨rfl, ha⟩ := ha
  exact applyFilter_alike hf hc hu ha

end Likeness
end TextTemplate
