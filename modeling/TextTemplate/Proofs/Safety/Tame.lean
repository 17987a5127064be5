/-
# Texts without markup

A text is **tame** if none of `<`, `>` and the two quotes is in it, so that it is read as text
wherever it stands in a page.  Escaping makes a text tame, for markup and for scripts alike.  The
case of a text has nothing to do with it: each of the four is its own upper, lower and title case,
and no other character has one of them as its case.
-/
import TextTemplate.Proofs.Outcome
import TextTemplate.Text.Case
import TextTemplate.Text.Markup

namespace TextTemplate.Text

open TextTemplate.Outcome

/-! ## 1. Tame texts -/

/-- The characters by which a text can be read as markup. -/
def markupChars : List Char := ['<', '>', '"', '\'']

/-- None of the characters can be read as markup. -/
def TameChars (cs : List Char) : Prop := ∀ c ∈ cs, c ∉ markupChars

/-- Nothing in the text can be read as markup. -/
def Tame (s : String) : Prop := TameChars s.toList

instance (cs : List Char) : Decidable (TameChars cs) := List.decidableBAll _ cs

instance (s : String) : Decidable (Tame s) := inferInstanceAs (Decidable (TameChars s.toList))

/-- A property of the four characters. -/
theorem forall_markupChars {p : Char → Prop} :
    (∀ c ∈ markupChars, p c) ↔ p '<' ∧ p '>' ∧ p '"' ∧ p '\'' := by
  simp only [markupChars, List.forall_mem_cons, List.not_mem_nil, false_implies, implies_true,
    and_true]

theorem tame_ofList {cs : List Char} (h : TameChars cs) : Tame (String.ofList cs) := by
  unfold Tame
  rwa [String.toList_ofList]

theorem tameChars_cons {c : Char} {cs : List Char} :
    TameChars (c :: cs) ↔ c ∉ markupChars ∧ TameChars cs := List.forall_mem_cons

theorem tameChars_append {cs ds : List Char} :
    TameChars (cs ++ ds) ↔ TameChars cs ∧ TameChars ds := List.forall_mem_append

theorem tameChars_flatMap {cs : List Char} {f : Char → List Char} :
    TameChars (cs.flatMap f) ↔ ∀ c ∈ cs, TameChars (f c) := by
  constructor
  · intro h c hc d hd
    exact h d (List.mem_flatMap.mpr ⟨c, hc, hd⟩)
  · intro h d hd
    obtain ⟨c, hc, hd⟩ := List.mem_flatMap.mp hd
    exact h c hc d hd

theorem tame_append {s t : String} : Tame (s ++ t) ↔ Tame s ∧ Tame t := by
  unfold Tame
  rw [String.toList_append]
  exact tameChars_append

/-- The characters of a text, one by one. -/
theorem tame_singleton {c : Char} : Tame (String.singleton c) ↔ c ∉ markupChars := by
  unfold Tame
  rw [String.toList_singleton]
  exact List.forall_mem_singleton

/-- **Texts with a text between them** are tame if all of them are, and so is what stands between
them if there are two or more. -/
theorem tame_intercalate {between : String} : ∀ {texts : List String},
    Tame (between.intercalate texts) ↔
      (∀ t ∈ texts, Tame t) ∧ (2 ≤ texts.length → Tame between)
  | [] => by
    rw [String.intercalate_nil]
    refine ⟨fun _ => ⟨fun t ht => absurd ht List.not_mem_nil, fun h => ?_⟩, fun _ => by decide⟩
    exact absurd h (by decide)
  | [t] => by
    rw [String.intercalate_singleton, List.forall_mem_singleton]
    refine ⟨fun h => ⟨h, fun h2 => ?_⟩, And.left⟩
    exact absurd h2 (Nat.lt_irrefl 1)
  | t :: u :: texts => by
    have ih := @tame_intercalate between (u :: texts)
    rw [String.intercalate_cons_cons, tame_append, tame_append, ih]
    constructor
    · rintro ⟨⟨ht, hb⟩, htexts, -⟩
      exact ⟨List.forall_mem_cons.mpr ⟨ht, htexts⟩, fun _ => hb⟩
    · rintro ⟨hall, hb⟩
      obtain ⟨ht, htexts⟩ := List.forall_mem_cons.mp hall
      have hb := hb (Nat.le_add_left 2 _)
      exact ⟨⟨ht, hb⟩, htexts, fun _ => hb⟩

/-! ## 2. Escaping -/

theorem tame_escapeMarkup (s : String) : Tame (escapeMarkup s) :=
  tame_ofList (tameChars_flatMap.mpr fun _ _ _ hd hm => not_mem_markupReference hm hd)

/-- The digits of a code point are tame. -/
theorem tameChars_scriptReference (n : Nat) : TameChars (scriptReference n) := by
  have hdigit : ∀ n < 16, upperHexDigit n ∉ markupChars := by decide
  intro c hc
  simp only [scriptReference, List.mem_cons, List.not_mem_nil, or_false] at hc
  rcases hc with rfl | rfl | rfl | rfl | rfl | rfl
  · decide
  · decide
  all_goals exact hdigit _ (Nat.mod_lt _ (by decide))

theorem tame_escapeScript (s : String) : Tame (escapeScript s) := by
  refine tame_ofList (tameChars_flatMap.mpr fun c _ => ?_)
  by_cases hc : isScriptSpecial c = true
  · rw [if_pos hc]
    exact tameChars_scriptReference _
  · rw [if_neg hc]
    intro d hd hm
    obtain rfl := List.mem_singleton.mp hd
    have hspecial : ∀ d ∈ markupChars, isScriptSpecial d = true :=
      forall_markupChars.mpr (by decide)
    exact hc (hspecial d hm)

/-! ## 3. Case -/

/-- Characters with a greater code point than `>` are tame. -/
theorem ofNat_not_mem {n : Nat} (h : 0x3e < n) : Char.ofNat n ∉ markupChars := by
  have hcodes : ∀ c ∈ markupChars, c.toNat ≠ 0 ∧ c.toNat ≤ 0x3e :=
    forall_markupChars.mpr (by decide)
  intro hm
  obtain ⟨hzero, hle⟩ := hcodes _ hm
  by_cases hvalid : n.isValidChar
  · rw [Char.ofNat, dif_pos hvalid] at hle
    exact absurd hle (Nat.not_le_of_lt h)
  · rw [Char.ofNat, dif_neg hvalid] at hzero
    exact hzero rfl

theorem mapByRuns_eq_or_lt {runs : List CaseRun} (h : ∀ r ∈ runs, 0x3e < r.image) (n : Nat) :
    mapByRuns n runs = n ∨ 0x3e < mapByRuns n runs := by
  induction runs with
  | nil => exact .inl rfl
  | cons r rest ih =>
    obtain ⟨hr, hrest⟩ := List.forall_mem_cons.mp h
    unfold mapByRuns
    split
    · exact .inr (Nat.lt_add_right _ hr)
    · exact ih hrest

/-- **The image of a tame character is tame**, if the tables lead to greater code points only. -/
theorem tameChars_mapCase {expansions : List (Nat × List Nat)} {runs : List CaseRun}
    (he : ∀ e ∈ expansions, ∀ n ∈ e.2, 0x3e < n) (hr : ∀ r ∈ runs, 0x3e < r.image) {c : Char}
    (hc : c ∉ markupChars) : TameChars (mapCase expansions runs c) := by
  unfold mapCase
  split
  · rename_i image hlookup
    intro d hd
    obtain ⟨n, hn, rfl⟩ := List.mem_map.mp hd
    exact ofNat_not_mem (he _ (mem_of_lookup hlookup) n hn)
  · intro d hd
    obtain rfl := List.mem_singleton.mp hd
    rcases mapByRuns_eq_or_lt hr c.toNat with h | h
    · rw [h, Char.ofNat_toNat]
      exact hc
    · exact ofNat_not_mem h

/-- A property of all characters of seven bits. -/
theorem of_lt_0x80 {p : Char → Prop} (h : ∀ n < 0x80, p (Char.ofNat n)) {c : Char}
    (hc : c.toNat < 0x80) : p c := by
  rw [← Char.ofNat_toNat c]
  exact h c.toNat hc

/-- **A character in another case** is as tame as the character, if that is so for the characters of
seven bits and the tables lead to greater code points only. -/
theorem tameChars_cased {image : Char → Char} {expansions : List (Nat × List Nat)}
    {runs : List CaseRun}
    (hseven : ∀ n < 0x80, (image (Char.ofNat n) ∈ markupChars ↔ Char.ofNat n ∈ markupChars))
    (he : ∀ e ∈ expansions, ∀ n ∈ e.2, 0x3e < n) (hr : ∀ r ∈ runs, 0x3e < r.image) {c : Char} :
    TameChars (if c.toNat < 0x80 then [image c] else mapCase expansions runs c) ↔
      c ∉ markupChars := by
  by_cases hlt : c.toNat < 0x80
  · rw [if_pos hlt]
    have himage : image c ∈ markupChars ↔ c ∈ markupChars :=
      of_lt_0x80 (p := fun c => image c ∈ markupChars ↔ c ∈ markupChars) hseven hlt
    exact List.forall_mem_singleton.trans (not_congr himage)
  · rw [if_neg hlt]
    have hcodes : ∀ c ∈ markupChars, c.toNat < 0x80 := forall_markupChars.mpr (by decide)
    have hc : c ∉ markupChars := fun hm => hlt (hcodes c hm)
    exact ⟨fun _ => hc, fun _ => tameChars_mapCase he hr hc⟩

theorem tameChars_upperOf {c : Char} : TameChars (upperOf c) ↔ c ∉ markupChars :=
  tameChars_cased (by decide +kernel) (by decide +kernel) (by decide +kernel)

theorem tameChars_titleOf {c : Char} : TameChars (titleOf c) ↔ c ∉ markupChars :=
  tameChars_cased (by decide +kernel) (by decide +kernel) (by decide +kernel)

theorem tameChars_lowerOf {c : Char} : TameChars (lowerOf c) ↔ c ∉ markupChars :=
  tameChars_cased (by decide +kernel) (by decide +kernel) (by decide +kernel)

theorem tameChars_lowerBetween {c : Char} (before after : List Char) :
    TameChars (lowerBetween before c after) ↔ c ∉ markupChars := by
  have hsigma : TameChars ['ς'] ∧ TameChars ['σ'] ∧ 'Σ' ∉ markupChars := by decide
  obtain ⟨hfinal, hinner, hcapital⟩ := hsigma
  unfold lowerBetween
  split
  · rename_i hc
    rw [hc]
    split
    · exact ⟨fun _ => hcapital, fun _ => hfinal⟩
    · exact ⟨fun _ => hcapital, fun _ => hinner⟩
  · exact tameChars_lowerOf

/-- **A text in upper case** is as tame as the text. -/
theorem tameChars_upper {cs : List Char} : TameChars (upper cs) ↔ TameChars cs := by
  refine tameChars_flatMap.trans ⟨fun h c hc => ?_, fun h c hc => ?_⟩
  · exact tameChars_upperOf.mp (h c hc)
  · exact tameChars_upperOf.mpr (h c hc)

/-- **A text in title case** is as tame as the text. -/
theorem tameChars_title {cs : List Char} : TameChars (title cs) ↔ TameChars cs := by
  have hfrom : ∀ cs before : List Char, TameChars (titleFrom before cs) ↔ TameChars cs := by
    intro cs
    induction cs with
    | nil => exact fun before => Iff.rfl
    | cons c cs ih =>
      intro before
      have himage : ∀ inWord : Bool,
          TameChars (if inWord then lowerBetween before c cs else titleOf c) ↔
            c ∉ markupChars := by
        intro inWord
        cases inWord with
        | true => exact tameChars_lowerBetween before cs
        | false => exact tameChars_titleOf
      exact tameChars_append.trans
        ((and_congr (himage _) (ih (c :: before))).trans tameChars_cons.symm)
  exact hfrom cs []

end TextTemplate.Text
