/-
# `join` and safe texts

`join` puts its argument between the items of its value.  It keeps safe texts safe, and the items of
a safe text are its characters; so a text that is not escaped gets into one that will not be escaped
any more.  `Filter.join_sound_iff` says exactly when that spoils the text.
-/
import TextTemplate.Proofs.Safety.Filters

namespace TextTemplate

open TextTemplate.Outcome TextTemplate.Text

variable {R : Region} {s : Store}

namespace Filter

/-! ## 1. `join` on any value -/

/-- The standard filter `join`. -/
def join : Filter := any "join" withArgument true joinBody

/-- The texts of the items of a value, with another text between them. -/
def joined (v w : Value) : Eval Value := do
  let between ← Eval.text w
  match ← Eval.stream? v with
  | none => Eval.fail (.type (.notIterable v.typeName))
  | some st => do pure (.plain (between.intercalate (← streamTexts st)))

theorem joinBody_eq (v w : Value) : joinBody [v, w] =
    (do pure ((← Eval.unless (· == .mistyped) (joined v w)).getD v)) := rfl

/-- `join` puts something untamed between the characters of a safe text. -/
def Injects (v w : Value) (s : Store) : Prop :=
  ∃ t between, v = .markup t ∧ 2 ≤ t.toList.length ∧ s.shown? w = some between ∧ ¬Tame between

theorem not_injects_of_not_safe {v w : Value} (h : isSafe v = false) : ¬Injects v w s := by
  rintro ⟨t, between, rfl, -⟩
  cases h

/-- What `join` gives before it is marked: a plain text, or the value as it was. -/
theorem keeps_joinBody {v : Value} (hv : R.Has v) (w : Value) :
    R.Keeps (joinBody [v, w]) fun r => r = v ∨ ∃ t, r = .plain t := by
  have htexts : ∀ st : Stream, R.Keeps (streamTexts st) fun _ => True := by
    intro st
    refine .bind (.mapM fun item _ => Region.keeps_text item) fun texts _ => ?_
    split
    · exact .pure trivial
    · exact .fail _
  have hjoined : R.Keeps (joined v w) fun r => ∃ t, r = .plain t := by
    refine .bind (Region.keeps_text w) fun between _ => .bind (Region.keeps_stream hv) fun o _ => ?_
    split
    · exact .fail _
    · exact .bind (htexts _) fun texts _ => .pure ⟨_, rfl⟩
  rw [joinBody_eq]
  refine .bind (.unless hjoined) fun o ho => .pure ?_
  cases o with
  | none => exact .inl rfl
  | some r => exact .inr (ho r rfl)

/-- **`join` gives** what lies in the region, and what is sound if its value is no safe text. -/
theorem keeps_join {v : Value} (hv : R.Has v) (argument : Option Value) :
    R.Keeps (join.apply v argument) fun v' => R.Has v' ∧ (isSafe v = false → v'.Sound) := by
  have hcall : R.Keeps (join.call (v :: argument.toList)) fun r => r = v ∨ ∃ t, r = .plain t := by
    have honText : ¬join.onText = true := by decide
    unfold call
    rw [if_neg honText]
    refine keeps_callBody fun hleast _ => ?_
    cases argument with
    | none => exact absurd hleast (Nat.lt_irrefl 1)
    | some w => exact keeps_joinBody hv w
  refine .bind hcall fun r hr => .bind .get fun s _ => ?_
  rw [keepsSafe_of_flag rfl s, Bool.true_and]
  by_cases hsafe : isSafe v = true
  · have htext : ∃ t safe, r = .text t safe := by
      rcases hr with rfl | ⟨t, rfl⟩
      · obtain ⟨t, rfl⟩ := eq_markup_of_isSafe hsafe
        exact ⟨t, true, rfl⟩
      · exact ⟨t, false, rfl⟩
    obtain ⟨t, safe, rfl⟩ := htext
    rw [if_pos hsafe]
    refine (Region.keeps_markSafe t safe).mono fun v' hv' => ?_
    subst hv'
    exact ⟨trivial, fun h => absurd hsafe (Bool.eq_false_iff.mp h)⟩
  · rw [if_neg hsafe]
    refine .pure ⟨?_, fun h => ?_⟩
    · rcases hr with rfl | ⟨t, rfl⟩
      · exact hv
      · trivial
    · rcases hr with rfl | ⟨t, rfl⟩
      · exact Value.sound_of_not_safe h
      · exact Value.sound_of_not_safe rfl

/-! ## 2. `join` on a safe text -/

theorem text_of_shown {v : Value} {t : String} (h : s.shown? v = some t) :
    Eval.text v s = .ok t s := by
  refine Eval.read_of_ok ?_
  rw [h]

theorem text_of_not_shown {v : Value} (h : s.shown? v = none) :
    Eval.text v s = .error (Error.of (.value .integerTextTooLong)) s := by
  refine Eval.read_of_error ?_
  rw [h]

/-- The characters of a text, each as a text. -/
def characters (t : String) : List String := t.toList.map String.singleton

theorem tame_characters (t : String) : (∀ u ∈ characters t, Tame u) ↔ Tame t := by
  unfold characters
  rw [List.forall_mem_map]
  exact forall₂_congr fun c _ => tame_singleton

/-- The items of a safe text are its characters. -/
theorem stream_markup (t : String) (s : Store) : Eval.stream? (.markup t) s =
    .ok (some ⟨t.toList.map fun c => .plain (String.singleton c), none⟩) s := rfl

theorem streamTexts_plain (cs : List Char) (s : Store) :
    streamTexts ⟨cs.map fun c => .plain (String.singleton c), none⟩ s =
      .ok (cs.map String.singleton) s := by
  have htexts : (cs.map fun c => Value.plain (String.singleton c)).mapM Eval.text s =
      .ok (cs.map String.singleton) s := by
    induction cs with
    | nil => rfl
    | cons c cs ih =>
      rw [List.map_cons, List.mapM_cons]
      have htext : Eval.text (.plain (String.singleton c)) s = .ok (String.singleton c) s := rfl
      rw [bind_of_ok htext, bind_of_ok ih]
      rfl
  unfold streamTexts
  rw [bind_of_ok htexts]
  rfl

/-- What `join` gives for a safe text, before it is marked. -/
theorem joinBody_markup {t : String} {w r : Value} {s' : Store}
    (h : joinBody [.markup t, w] s = .ok r s') : ∃ between, s.shown? w = some between ∧
      r = .plain (between.intercalate (characters t)) := by
  rw [joinBody_eq] at h
  cases hshown : s.shown? w with
  | none =>
    have hfails : joined (.markup t) w s = .error (Error.of (.value .integerTextTooLong)) s :=
      bind_of_error (text_of_not_shown hshown)
    rw [bind_of_error (Eval.unless_of_error hfails rfl)] at h
    cases h
  | some between =>
    have hjoined : joined (.markup t) w s =
        .ok (.plain (between.intercalate (characters t))) s := by
      unfold joined
      rw [bind_of_ok (text_of_shown hshown), bind_of_ok (stream_markup t s)]
      dsimp only
      rw [bind_of_ok (streamTexts_plain t.toList s)]
      rfl
    rw [bind_of_ok (Eval.unless_of_ok hjoined)] at h
    cases h
    exact ⟨between, rfl, rfl⟩

/-- **What `join` gives is sound** if its value was, and nothing untamed is put between the
characters of a safe text. -/
theorem join_sound_iff {v w v' : Value} {s' : Store} (hs : R.Holds s) (hv : R.Has v)
    (h : join.apply v (some w) s = .ok v' s') :
    v'.Sound ↔ v.Sound ∧ ¬Injects v w s := by
  cases hsafe : isSafe v with
  | false =>
    have hsound := ((keeps_join hv (some w) s hs).1 v' s' h).2.2 hsafe
    refine ⟨fun _ => ⟨Value.sound_of_not_safe hsafe, not_injects_of_not_safe hsafe⟩,
      fun _ => hsound⟩
  | true =>
    obtain ⟨t, rfl⟩ := eq_markup_of_isSafe hsafe
    obtain ⟨r, s₁, hcall, h⟩ := bind_eq_ok.mp h
    obtain ⟨between, hshown, rfl⟩ := joinBody_markup hcall
    have hmark : (join.keepsSafe s₁ && isSafe (.markup t)) = true := by
      rw [keepsSafe_of_flag rfl]
      rfl
    have hv' : v' = .markup (between.intercalate (characters t)) := by
      rw [bind_of_ok (get_apply s₁), if_pos hmark] at h
      cases h
      rfl
    have hlength : (characters t).length = t.toList.length := List.length_map _
    rw [hv', Value.sound_text, Value.sound_text, tame_intercalate, tame_characters, hlength]
    constructor
    · intro hsound
      obtain ⟨htame, hbetween⟩ := hsound rfl
      refine ⟨fun _ => htame, ?_⟩
      rintro ⟨t', between', ht', htwo, hshown', huntamed⟩
      cases ht'
      rw [hshown] at hshown'
      cases hshown'
      exact huntamed (hbetween htwo)
    · rintro ⟨htame, hinjects⟩ -
      refine ⟨htame rfl, fun htwo => ?_⟩
      by_cases hbetween : Tame between
      · exact hbetween
      · exact absurd ⟨t, between, rfl, htwo, hshown, hbetween⟩ hinjects

/-! ## 3. The table -/

/-- The standard filters that leave an untamed safe text untamed. -/
def passing : List String := ["capfirst", "title", "join", "default"]

/-- **Each standard filter but `safe`** gives what is sound, or gives what is sound if its value
was, or is `join`. -/
theorem standard_cases (R : Region) {name : String} {f : Filter}
    (h : standard.find? name = some f) (hname : name ≠ "safe") :
    (name ∉ passing ∧ Seals R f) ∨ (name ∈ passing ∧ name ≠ "join" ∧ Passes R f) ∨
      (name = "join" ∧ f = join) := by
  have hmem : (name, f) ∈ standard := mem_of_lookup h
  simp only [standard, List.mem_cons, Prod.mk.injEq, List.not_mem_nil, or_false] at hmem
  rcases hmem with ⟨rfl, rfl⟩ | ⟨rfl, rfl⟩ | ⟨rfl, rfl⟩ | ⟨rfl, rfl⟩ | ⟨rfl, rfl⟩ | ⟨rfl, rfl⟩ |
    ⟨rfl, rfl⟩ | ⟨rfl, rfl⟩ | ⟨rfl, rfl⟩ | ⟨rfl, rfl⟩ | ⟨rfl, rfl⟩ | ⟨rfl, rfl⟩ | ⟨rfl, rfl⟩ |
    ⟨rfl, rfl⟩ | ⟨rfl, rfl⟩ | ⟨rfl, rfl⟩ | ⟨rfl, rfl⟩
  · exact .inl ⟨by decide, seals_onChars "upper" upper⟩
  · exact .inl ⟨by decide, seals_onChars "lower" lower⟩
  · exact .inr (.inl ⟨by decide, by decide, fun v argument _ _ =>
      keeps_text_kept keeps_capfirstBody v argument⟩)
  · exact .inr (.inl ⟨by decide, by decide, passes_title⟩)
  · exact .inl ⟨by decide, seals_any "add" withArgument 0 fun v rest => keeps_add⟩
  · exact .inl ⟨by decide, seals_any "subtract" withArgument 0 fun v rest _ _ => keeps_subtract⟩
  · exact .inl ⟨by decide, seals_any "divisibleby" withArgument 0 fun v rest _ _ =>
      keeps_divisibleby⟩
  · exact .inl ⟨by decide, seals_any "contains" withArgument 0 fun v rest hv _ =>
      keeps_containsBody hv⟩
  · exact absurd rfl hname
  · exact .inl ⟨by decide, seals_escaping "escape_filter" true tame_escapeMarkup fun _ _ _ => rfl⟩
  · exact .inl ⟨by decide, seals_escaping "escapejs" false tame_escapeScript fun _ _ _ => rfl⟩
  · exact .inl ⟨by decide, seals_any "first" alone 0 fun v rest hv _ => keeps_itemBody hv 0⟩
  · exact .inl ⟨by decide, seals_any "last" alone 0 fun v rest hv _ => keeps_itemBody hv (-1)⟩
  · exact .inr (.inr ⟨rfl, rfl⟩)
  · exact .inl ⟨by decide, seals_any "length" alone 0 fun v rest _ _ => keeps_lengthBody⟩
  · exact .inr (.inl ⟨by decide, by decide, passes_default⟩)
  · exact .inl ⟨by decide, seals_any "pluralize" withArgument 1 fun v rest _ _ =>
      keeps_pluralizeBody⟩

end Filter
end TextTemplate
