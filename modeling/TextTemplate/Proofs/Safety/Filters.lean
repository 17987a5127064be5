/-
# What the standard filters do to safe texts

A safe text is **sound** if it is tame.  Most standard filters give plain texts and numbers, or
escape a text themselves: what they give is sound.  Some keep a safe text and change its case at
most: what they give is sound if it was sound before.

* `Region.SoundIf` says when a value of a region is sound;
* `Filter.Seals` and `Filter.Passes` are the two kinds of filters;
* `keeps_apply_text` and `keeps_apply_any` reduce the use of a filter to its body.
-/
import TextTemplate.Proofs.Safety.Names
import TextTemplate.Proofs.Safety.Tame
import TextTemplate.Standard.Filters

namespace TextTemplate

open TextTemplate.Outcome TextTemplate.Text

variable {R : Region} {s : Store}

/-! ## 1. Sound values -/

/-- The value is tame, if it is a safe text. -/
def Value.Sound (v : Value) : Prop := ∀ t, v = .markup t → Tame t

theorem Value.sound_of_not_safe {v : Value} (h : Filter.isSafe v = false) : v.Sound := by
  rintro t rfl
  cases h

theorem Filter.eq_markup_of_isSafe {v : Value} (h : Filter.isSafe v = true) :
    ∃ t, v = .markup t := by
  cases v with
  | text t safe =>
    have hsafe : safe = true := h
    exact ⟨t, by rw [hsafe]⟩
  | _ => cases h

theorem Value.sound_text {t : String} {safe : Bool} :
    (Value.text t safe).Sound ↔ (safe = true → Tame t) := by
  constructor
  · rintro h rfl
    exact h t rfl
  · intro h u hu
    injection hu with ht hsafe
    exact ht ▸ h hsafe

namespace Region

/-- The value refers to nothing outside the region, and it is sound exactly if something holds. -/
def SoundIf (R : Region) (P : Prop) (v : Value) : Prop := R.Has v ∧ (v.Sound ↔ P)

theorem Plain.soundIf {v : Value} {P : Prop} (h : R.Plain v) (hP : P) : R.SoundIf P v :=
  ⟨h.1, fun _ => hP, fun _ => Value.sound_of_not_safe h.2⟩

theorem keeps_text (v : Value) : R.Keeps (Eval.text v) fun _ => True :=
  .read fun _ _ _ _ => trivial

/-- The text of a text. -/
theorem keeps_text_text (t : String) (safe : Bool) :
    R.Keeps (Eval.text (.text t safe)) (· = t) := by
  refine .read fun s u _ hu => ?_
  cases hu
  rfl

/-- Marking a text as safe. -/
theorem keeps_markSafe (t : String) (safe : Bool) :
    R.Keeps (Eval.markSafe (.text t safe)) (· = .markup t) := by
  have hmarkup : R.Keeps (Eval.read (·.isMarkup (.text t safe))) (· = safe) := by
    refine .read fun s b _ hb => ?_
    cases hb
    rfl
  unfold Eval.markSafe
  refine .bind hmarkup fun b hb => ?_
  rw [hb]
  cases safe with
  | true => exact .pure rfl
  | false => exact .bind (keeps_text_text t false) fun u hu => .pure (by rw [hu])

end Region

/-! ## 2. Calling a filter -/

namespace Filter

/-- The filter keeps safe texts safe, or does not. -/
theorem keepsSafe_of_flag {f : Filter} {b : Bool} (h : f.safeFlag = some (.bool b)) (s : Store) :
    f.keepsSafe s = b := by
  rw [keepsSafe, h]
  cases b <;> rfl

/-- So it does, or does not, by the flag of the function that it was made of. -/
theorem innerKeepsSafe_of_flag {f : Filter} {b : Bool}
    (h : f.inner.bind (·.safeFlag) = some (.bool b)) (s : Store) : f.innerKeepsSafe s = b := by
  rw [innerKeepsSafe, h]
  cases b <;> rfl

/-- The body is called with as many arguments as the parameters allow. -/
theorem keeps_callBody {f : Filter} {arguments : List Value} {Q : Value → Prop}
    (h : f.parameters.length - f.optional ≤ arguments.length →
      arguments.length ≤ f.parameters.length → R.Keeps (f.body arguments) Q) :
    R.Keeps (f.callBody arguments) Q := by
  unfold callBody
  dsimp only
  split
  · exact .fail _
  · rename_i hmost
    split
    · exact .fail _
    · rename_i hleast
      exact h (Nat.le_of_not_lt hleast) (Nat.le_of_not_lt hmost)

/-- The text that a filter on texts works on. -/
theorem keeps_argumentText (v : Value) : R.Keeps (argumentText v) fun text =>
    ∃ t safe, text = .text t safe ∧ isSafe v = safe ∧ (safe = true → v = .markup t) := by
  unfold argumentText
  cases v with
  | none => exact .pure ⟨"", false, rfl, rfl, fun h => by cases h⟩
  | text t safe =>
    refine .pure ⟨t, safe, rfl, rfl, fun h => ?_⟩
    rw [h]
  | _ =>
    exact .bind (Region.keeps_text _) fun t _ => .pure ⟨t, false, rfl, rfl, fun h => by cases h⟩

/-- **A filter on texts** gives the text that its body gives.  It is safe if the body makes it
safe, or the filter keeps safe texts safe and the value was one. -/
theorem keeps_apply_text {f : Filter} {keeps : Bool} {Q : String → Bool → String → Bool → Prop}
    (ht : f.onText = true) (hflag : f.safeFlag = some (.bool keeps))
    (hinner : f.inner.bind (·.safeFlag) = some (.bool keeps))
    (hbody : ∀ t safe rest, R.Keeps (f.body (.text t safe :: rest)) fun v' =>
      ∃ u safe', v' = .text u safe' ∧ Q t safe u safe') (v : Value) (argument : Option Value) :
    R.Keeps (f.apply v argument) fun v' => ∃ t safe u safe', isSafe v = safe ∧
      (safe = true → v = .markup t) ∧ Q t safe u safe' ∧
      v' = .text u (safe' || (safe && keeps)) := by
  have hcall : R.Keeps (f.call (v :: argument.toList)) fun v' => ∃ t safe u safe',
      isSafe v = safe ∧ (safe = true → v = .markup t) ∧ Q t safe u safe' ∧
        v' = .text u (safe' || (safe && keeps)) := by
    unfold call
    rw [if_pos ht]
    refine .bind (keeps_argumentText v) fun text ⟨t, safe, htext, hv, hsafe⟩ => ?_
    subst htext
    refine .bind (keeps_callBody fun _ _ => hbody t safe _) fun result ⟨u, safe', hresult, hQ⟩ => ?_
    subst hresult
    refine .bind .get fun s _ => ?_
    rw [innerKeepsSafe_of_flag hinner s]
    by_cases hmark : (isSafe (.text t safe) && keeps) = true
    · rw [if_pos hmark]
      refine (Region.keeps_markSafe u safe').mono fun v' hv' =>
        ⟨t, safe, u, safe', hv, hsafe, hQ, ?_⟩
      have hmark' : (safe && keeps) = true := hmark
      rw [hv', hmark', Bool.or_true]
    · rw [if_neg hmark]
      refine .pure ⟨t, safe, u, safe', hv, hsafe, hQ, ?_⟩
      have hmark' : (safe && keeps) = false := Bool.eq_false_iff.mpr hmark
      rw [hmark', Bool.or_false]
  refine .bind hcall fun v' ⟨t, safe, u, safe', hv, hsafe, hQ, hv'⟩ => .bind .get fun s _ => ?_
  subst hv'
  rw [keepsSafe_of_flag hflag s, hv]
  by_cases hmark : (keeps && safe) = true
  · rw [if_pos hmark]
    refine (Region.keeps_markSafe u _).mono fun v' hv' => ⟨t, safe, u, safe', rfl, hsafe, hQ, ?_⟩
    rw [hv', Bool.and_comm, hmark, Bool.or_true]
  · rw [if_neg hmark]
    exact .pure ⟨t, safe, u, safe', rfl, hsafe, hQ, rfl⟩

/-- **A filter on any value** that does not keep safe texts safe gives what its body gives. -/
theorem keeps_apply_any {f : Filter} (ht : f.onText = false)
    (hflag : f.safeFlag = some (.bool false)) {v : Value} {argument : Option Value}
    {Q : Value → Prop} (hbody : f.parameters.length - f.optional ≤ (v :: argument.toList).length →
      R.Keeps (f.body (v :: argument.toList)) Q) : R.Keeps (f.apply v argument) Q := by
  have hcall : R.Keeps (f.call (v :: argument.toList)) Q := by
    have honText : ¬f.onText = true := by
      rw [ht]
      decide
    unfold call
    rw [if_neg honText]
    exact keeps_callBody fun hleast _ => hbody hleast
  refine .bind hcall fun v' hv' => .bind .get fun s _ => ?_
  rw [keepsSafe_of_flag hflag s]
  exact .pure hv'

/-! ## 3. Filters on texts -/

/-- A filter that makes plain texts, or escapes a text, gives what is sound. -/
theorem keeps_text_sound {name : String} {keeps : Bool} {body : List Value → Eval Value}
    (hbody : ∀ t safe rest, R.Keeps (body (.text t safe :: rest)) fun v' =>
      ∃ u safe', v' = .text u safe' ∧ ((safe' || (safe && keeps)) = true → Tame u))
    (v : Value) (argument : Option Value) :
    R.Keeps ((text name keeps body).apply v argument) (R.SoundIf True) := by
  refine (keeps_apply_text rfl rfl rfl hbody v argument).mono fun v' hv' => ?_
  obtain ⟨t, safe, u, safe', -, -, htame, rfl⟩ := hv'
  exact ⟨trivial, fun _ => trivial, fun _ => Value.sound_text.mpr htame⟩

/-- A filter that keeps safe texts safe and leaves a text as tame as it is, gives what is sound if
the value was. -/
theorem keeps_text_kept {name : String} {body : List Value → Eval Value}
    (hbody : ∀ t safe rest, R.Keeps (body (.text t safe :: rest)) fun v' =>
      ∃ u safe', v' = .text u safe' ∧ (safe' = true → safe = true) ∧ (Tame u ↔ Tame t))
    (v : Value) (argument : Option Value) :
    R.Keeps ((text name true body).apply v argument) (R.SoundIf v.Sound) := by
  refine (keeps_apply_text rfl rfl rfl hbody v argument).mono fun v' hv' => ?_
  obtain ⟨t, safe, u, safe', hv, hmarkup, ⟨hsafe, htame⟩, rfl⟩ := hv'
  refine ⟨trivial, Value.sound_text.trans ?_⟩
  cases safe with
  | false =>
    have hplain : safe' = false := Bool.eq_false_iff.mpr fun h => Bool.false_ne_true (hsafe h)
    rw [hplain]
    exact ⟨fun _ => Value.sound_of_not_safe hv, fun _ h => by cases h⟩
  | true =>
    rw [hmarkup rfl, Bool.and_true, Bool.or_true]
    refine ⟨fun h => ?_, fun h _ => htame.mpr (h t rfl)⟩
    exact Value.sound_text.mpr fun _ => htame.mp (h rfl)

/-- A body that gives a plain text. -/
theorem keeps_onChars (f : List Char → List Char) (t : String) (safe : Bool) (rest : List Value) :
    R.Keeps (onChars f (.text t safe :: rest)) (· = .plain (String.ofList (f t.toList))) :=
  .pure rfl

theorem tame_ofList_iff {f : List Char → List Char} (hf : ∀ cs, TameChars (f cs) ↔ TameChars cs)
    (t : String) : Tame (String.ofList (f t.toList)) ↔ Tame t := by
  unfold Tame
  rw [String.toList_ofList]
  exact hf t.toList

theorem tameChars_capitalize (cs : List Char) : TameChars (capitalize cs) ↔ TameChars cs := by
  cases cs with
  | nil => exact Iff.rfl
  | cons c cs =>
    have hfirst : TameChars (upper [c]) ↔ c ∉ markupChars :=
      tameChars_upper.trans List.forall_mem_singleton
    exact tameChars_append.trans ((and_congr_left' hfirst).trans tameChars_cons.symm)

theorem keeps_capfirstBody (t : String) (safe : Bool) (rest : List Value) :
    R.Keeps (capfirstBody (.text t safe :: rest)) fun v' =>
      ∃ u safe', v' = .text u safe' ∧ (safe' = true → safe = true) ∧ (Tame u ↔ Tame t) := by
  unfold capfirstBody
  split
  · rename_i safe' rest' h
    injection h with hv _
    injection hv with ht hsafe
    rw [ht, hsafe]
    exact .pure ⟨"", safe', rfl, id, Iff.rfl⟩
  · refine (keeps_onChars capitalize t safe rest).mono fun v' hv' => ?_
    exact ⟨_, false, hv', (fun h => by cases h), tame_ofList_iff tameChars_capitalize t⟩

/-! ## 4. Filters on any value -/

section Bodies

variable {v : Value} {rest : List Value}

theorem keeps_add (hv : R.Has v) (hrest : ∀ w ∈ rest, R.Plain w) :
    R.Keeps (addBody (v :: rest)) R.Plain := by
  unfold addBody
  split
  · rename_i v' w h
    cases h
    have hsum : R.Keeps (Eval.read fun _ => do
        let m ← v.toInteger
        let n ← w.toInteger
        .ok (.int (m + n))) R.Plain := by
      refine .read fun s sum _ hsum => ?_
      obtain ⟨m, -, hsum⟩ := except_bind_eq_ok hsum
      obtain ⟨n, -, hsum⟩ := except_bind_eq_ok hsum
      cases hsum
      exact Region.plain_int _
    refine .bind (.unless hsum) fun o ho => ?_
    split
    · exact .pure (ho _ rfl)
    · refine .bind (.unless (Region.keeps_plus hv (hrest w List.mem_cons_self))) fun o ho =>
        .pure ?_
      cases o with
      | none => exact Region.plain_text ""
      | some sum => exact ho sum rfl
  · exact .pure Region.plain_none

theorem keeps_subtract : R.Keeps (subtractBody (v :: rest)) R.Plain := by
  unfold subtractBody
  split
  · refine .bind (.unless (Region.keeps_minus _ _)) fun o ho => .pure ?_
    cases o with
    | none => exact Region.plain_text ""
    | some difference => exact ho difference rfl
  · exact .pure Region.plain_none

theorem keeps_divisibleby : R.Keeps (divisiblebyBody (v :: rest)) R.Plain := by
  unfold divisiblebyBody
  split
  · rename_i v' w h
    have hdivides : R.Keeps (Eval.read fun _ => do
        let m ← v'.toInteger
        let n ← w.toInteger
        .ok (decide (n ≠ 0 ∧ m % n = 0))) fun _ => True := .read fun _ _ _ _ => trivial
    exact .bind (.unless hdivides) fun o _ => .pure (Region.plain_bool _)
  · exact .pure Region.plain_none

theorem keeps_containsBody (hv : R.Has v) : R.Keeps (containsBody (v :: rest)) R.Plain := by
  unfold containsBody
  split
  · rename_i v' w h
    cases h
    exact .bind (.unless (Region.keeps_contains hv w)) fun o _ => .pure (Region.plain_bool _)
  · exact .pure Region.plain_none

theorem keeps_itemBody (hv : R.Has v) (index : Int) :
    R.Keeps (itemBody index (v :: rest)) R.Plain := by
  unfold itemBody
  split
  · rename_i v' h
    cases h
    have hitem : R.Keeps (Eval.read (·.item v (.int index))) R.Plain :=
      .read fun s found hs hfound => hs.item hv hfound
    refine .bind (.unless hitem) fun o ho => .pure ?_
    cases o with
    | none => exact Region.plain_text ""
    | some found => exact ho found rfl
  · exact .pure Region.plain_none

theorem keeps_lengthBody : R.Keeps (lengthBody (v :: rest)) R.Plain := by
  unfold lengthBody
  split
  · rename_i v' h
    have hlength : R.Keeps (Eval.read (·.length v')) fun _ => True := .read fun _ _ _ _ => trivial
    exact .bind (.unless hlength) fun o _ => .pure (Region.plain_int _)
  · exact .pure Region.plain_none

theorem keeps_defaultBody {w : Value} (hv : R.Has v) (hw : R.Plain w) :
    R.Keeps (defaultBody [v, w]) (R.SoundIf v.Sound) := by
  refine .bind .get fun s _ => .pure ?_
  by_cases htruth : s.truth v = true
  · rw [if_pos htruth]
    exact ⟨hv, Iff.rfl⟩
  · rw [if_neg htruth]
    refine hw.soundIf ?_
    -- only the empty text counts as false
    rintro t rfl
    have hempty : t = "" := by
      simpa [Store.truth] using htruth
    rw [hempty]
    decide

theorem keeps_pluralizeBody : R.Keeps (pluralizeBody (v :: rest)) R.Plain := by
  unfold pluralizeBody
  have hcount : R.Keeps (Eval.read fun _ => v.toFloat) fun _ => True := .read fun _ _ _ _ => trivial
  refine .bind (Region.keeps_text _) fun forms _ => .bind (.unless hcount) fun o _ => ?_
  split
  · refine .pure ?_
    split
    · exact Region.plain_text _
    · exact Region.plain_text _
  · exact .pure (Region.plain_text _)

end Bodies

/-! ## 5. Which filter does which -/

/-- Whatever the filter is applied to, it gives what is sound. -/
def Seals (R : Region) (f : Filter) : Prop :=
  ∀ v argument, R.Has v → (∀ w ∈ argument, R.Plain w) →
    R.Keeps (f.apply v argument) (R.SoundIf True)

/-- What the filter gives is sound if its value was. -/
def Passes (R : Region) (f : Filter) : Prop :=
  ∀ v argument, R.Has v → (∀ w ∈ argument, R.Plain w) →
    R.Keeps (f.apply v argument) (R.SoundIf v.Sound)

theorem seals_onChars (name : String) (g : List Char → List Char) :
    Seals R (text name false (onChars g)) := by
  intro v argument _ _
  refine keeps_text_sound (fun t safe rest => (keeps_onChars g t safe rest).mono ?_) v argument
  intro v' hv'
  refine ⟨_, false, hv', fun h => ?_⟩
  rw [Bool.and_false] at h
  cases h

theorem seals_escaping (name : String) (keeps : Bool) {body : List Value → Eval Value}
    {escape : String → String} (htame : ∀ t, Tame (escape t))
    (hbody : ∀ t safe rest, body (.text t safe :: rest) = pure (.markup (escape t))) :
    Seals R (text name keeps body) := by
  intro v argument _ _
  refine keeps_text_sound (fun t safe rest => ?_) v argument
  rw [hbody]
  exact .pure ⟨escape t, true, rfl, fun _ => htame t⟩

/-- A filter on any value whose body gives nothing safe. -/
theorem seals_any (name : String) (parameters : List String) (optional : Nat)
    {body : List Value → Eval Value} (hbody : ∀ v rest, R.Has v → (∀ w ∈ rest, R.Plain w) →
      R.Keeps (body (v :: rest)) R.Plain) :
    Seals R { any name parameters false body with optional := optional } := by
  intro v argument hv hargument
  refine keeps_apply_any rfl rfl fun _ => (hbody v _ hv fun w hw => ?_).mono fun v' hv' => ?_
  · exact hargument w (Option.mem_toList.mp hw)
  · exact hv'.soundIf trivial

theorem passes_title : Passes R (text "title" true (onChars title)) := by
  intro v argument _ _
  refine keeps_text_kept (fun t safe rest => (keeps_onChars title t safe rest).mono ?_) v argument
  intro v' hv'
  exact ⟨_, false, hv', (fun h => by cases h), tame_ofList_iff (fun _ => tameChars_title) t⟩

theorem passes_default : Passes R (any "default" withArgument false defaultBody) := by
  intro v argument hv hargument
  refine keeps_apply_any rfl rfl fun hleast => ?_
  cases argument with
  | none => exact absurd hleast (Nat.lt_irrefl 1)
  | some w => exact keeps_defaultBody hv (hargument w rfl)

end Filter
end TextTemplate
