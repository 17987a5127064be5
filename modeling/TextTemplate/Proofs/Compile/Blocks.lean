/-
# The open blocks of a source

At every place of a source some blocks are open, one inside the other.  They follow from the
markers before the place, and say which markers may stand there: `else` and `elif` where a
conditional is the innermost block and has had no `else` yet, `empty` where a loop is, and each
closing statement where a block of its kind is.

Empty parts are where this is more than one rule.  A **strict** scan takes the rules by the letter:
an empty part is no conditional, and a loop has one.  A scan that is not strict lets an empty part
go on with `elif` and `else` as if it were a conditional, and lets another empty part follow.

* `Opened` is a kind of open block, `Opened.next` the open blocks behind a marker;
* `Scan.take` takes in a token, `scan` all of them;
* `scan_strict_iff` says that the strict scan differs at empty parts only.
-/
import TextTemplate.Proofs.Tree.Basic

namespace TextTemplate

open TextTemplate.Text

/-! ## 1. Blocks -/

/-- A block that is open at a place of a source. -/
inductive Opened where
  /-- A conditional, and whether its `else` has been met. -/
  | conditional (otherwise : Bool)
  | loop
  /-- An empty part of a loop, and whether an `else` has been met in it. -/
  | emptyPart (otherwise : Bool)
  | skipped
  deriving DecidableEq, Repr

namespace Opened

/-- The open blocks behind an `elif` or an `else`. -/
def continued (strict otherwise : Bool) : List Opened → Option (List Opened)
  | conditional false :: outer => some (conditional otherwise :: outer)
  | emptyPart false :: outer => if strict then none else some (emptyPart otherwise :: outer)
  | _ => none

/-- The open blocks behind an `empty`. -/
def emptied (strict : Bool) : List Opened → Option (List Opened)
  | loop :: outer => some (emptyPart false :: outer)
  | emptyPart _ :: outer => if strict then none else some (emptyPart false :: outer)
  | _ => none

/-- The open blocks behind an `endif`. -/
def endConditional : List Opened → Option (List Opened)
  | conditional _ :: outer => some outer
  | _ => none

/-- The open blocks behind an `endfor`. -/
def endLoop : List Opened → Option (List Opened)
  | loop :: outer => some outer
  | emptyPart _ :: outer => some outer
  | _ => none

/-- The open blocks behind an `endcomment`. -/
def endSkipped : List Opened → Option (List Opened)
  | skipped :: outer => some outer
  | _ => none

/-- The open blocks behind a marker, the innermost first, if the marker may stand there. -/
def next (strict : Bool) (opened : List Opened) : Marker → Option (List Opened)
  | .leaf _ => some opened
  | .conditional _ => some (conditional false :: opened)
  | .alternative _ => continued strict false opened
  | .otherwise => continued strict true opened
  | .loop .. => some (loop :: opened)
  | .empty => emptied strict opened
  | .skipped => some (skipped :: opened)
  | .endConditional => endConditional opened
  | .endLoop => endLoop opened
  | .endSkipped => endSkipped opened

end Opened

/-! ## 2. Scanning -/

/-- A place in a source: the numbers given out before it, and the blocks open there. -/
structure Scan where
  numbers : Numbers
  opened : List Opened
  deriving DecidableEq, Repr

/-- Take in a token. -/
def Scan.take (strict : Bool) (c : Scan) (t : Token) : Option Scan :=
  (Marker.read? c.numbers t).bind fun m =>
    (Opened.next strict c.opened m).map fun opened => ⟨m.advance c.numbers, opened⟩

/-- Take in some tokens at the beginning of a source, with the next serial number. -/
def scan (strict : Bool) (serial : Nat) (tokens : List Token) : Option Scan :=
  tokens.foldlM (Scan.take strict) ⟨⟨0, serial⟩, []⟩

/-- **A token that is taken in**: its marker, and the blocks behind it. -/
theorem Scan.take_eq_some {strict : Bool} {c c' : Scan} {t : Token}
    (h : c.take strict t = some c') : ∃ m opened, Marker.read? c.numbers t = some m ∧
      Opened.next strict c.opened m = some opened ∧ c' = ⟨m.advance c.numbers, opened⟩ := by
  obtain ⟨m, hm, h⟩ := Option.bind_eq_some_iff.mp h
  obtain ⟨opened, ho, h⟩ := Option.map_eq_some_iff.mp h
  exact ⟨m, opened, hm, ho, h.symm⟩

/-- What has been scanned is scanned in front of a token, and the token is taken in there. -/
theorem scan_split {strict : Bool} {serial : Nat} {before after : List Token} {t : Token}
    {c : Scan} (h : scan strict serial (before ++ t :: after) = some c) :
    ∃ c₁ c₂, scan strict serial before = some c₁ ∧ c₁.take strict t = some c₂ ∧
      after.foldlM (Scan.take strict) c₂ = some c := by
  rw [scan, List.foldlM_append] at h
  obtain ⟨c₁, h₁, h⟩ := Option.bind_eq_some_iff.mp h
  rw [List.foldlM_cons] at h
  obtain ⟨c₂, h₂, h⟩ := Option.bind_eq_some_iff.mp h
  exact ⟨c₁, c₂, h₁, h₂, h⟩

/-! ## 3. Statements by their word -/

namespace Token

/-- The token is a statement with a word. -/
def Says (t : Token) (word : String) : Prop :=
  t.kind = .statement ∧ t.command = word.toList

/-- The token is an `else` or an `elif`. -/
def Continues (t : Token) : Prop := t.Says "else" ∨ t.Says "elif"

end Token

namespace Marker

variable {n : Numbers} {t : Token} {m : Marker}

theorem stated_of_word {word : String} (h : read? n t = some m) (ht : t.Says word) :
    Stated n t.remainder word m := by
  rcases cases_of_read h with ⟨hk, -⟩ | ⟨-, -, hs⟩
  · exact absurd ht.1 hk
  · rw [ht.2, String.ofList_toList] at hs
    exact hs

theorem says_of_stated {word : String} (h : read? n t = some m)
    (hw : ∀ command, Stated n t.remainder command m → command = word)
    (hm : ∀ l : Leaf, m ≠ .leaf l) : t.Says word := by
  rcases cases_of_read h with ⟨-, l, hl⟩ | ⟨hk, -, hs⟩
  · exact absurd hl (hm l)
  · refine ⟨hk, ?_⟩
    rw [← hw _ hs, String.toList_ofList]

namespace Stated

variable {remainder : List Char} {word : String}

theorem eq_otherwise (h : Stated n remainder word m) (hw : word = "else") : m = .otherwise := by
  cases h with
  | otherwise => rfl
  | _ => exact absurd hw (by decide)

theorem eq_alternative (h : Stated n remainder word m) (hw : word = "elif") :
    ∃ c, m = .alternative c := by
  cases h with
  | alternative read => exact ⟨_, rfl⟩
  | _ => exact absurd hw (by decide)

theorem eq_empty (h : Stated n remainder word m) (hw : word = "empty") : m = .empty := by
  cases h with
  | empty => rfl
  | _ => exact absurd hw (by decide)

end Stated

/-- **An `else` or an `elif` by its word and by its marker.** -/
theorem continues_iff (h : read? n t = some m) :
    t.Continues ↔ m = .otherwise ∨ ∃ c, m = .alternative c := by
  constructor
  · rintro (ht | ht)
    · exact .inl ((stated_of_word h ht).eq_otherwise rfl)
    · exact .inr ((stated_of_word h ht).eq_alternative rfl)
  · rintro (rfl | ⟨c, rfl⟩)
    · refine .inl (says_of_stated h (fun command hs => ?_) fun l hl => by cases hl)
      cases hs
      rfl
    · refine .inr (says_of_stated h (fun command hs => ?_) fun l hl => by cases hl)
      cases hs
      rfl

theorem says_empty_iff (h : read? n t = some m) : t.Says "empty" ↔ m = .empty := by
  constructor
  · intro ht
    exact (stated_of_word h ht).eq_empty rfl
  · rintro rfl
    refine says_of_stated h (fun command hs => ?_) fun l hl => by cases hl
    cases hs
    rfl

end Marker

/-! ## 4. Empty parts -/

/-- Where an empty part is the innermost block, the token neither goes on with it nor begins
another one. -/
def Scan.Lets (c : Scan) (t : Token) : Prop :=
  ∀ otherwise outer, c.opened = .emptyPart otherwise :: outer → ¬t.Continues ∧ ¬t.Says "empty"

/-- Every empty part of a source, from a place on, is just a body, and the only one of its loop. -/
def Scan.Plain (c : Scan) (tokens : List Token) : Prop :=
  ∀ before t after c', tokens = before ++ t :: after →
    before.foldlM (Scan.take false) c = some c' → c'.Lets t

namespace Opened

/-- The marker goes on with an empty part that is the innermost block, or begins another one. -/
def Extends (m : Marker) (opened : List Opened) : Prop :=
  (m = .otherwise ∨ (∃ c, m = .alternative c) ∨ m = .empty) ∧
    ∃ otherwise outer, opened = emptyPart otherwise :: outer

theorem continued_strict (otherwise : Bool) (opened : List Opened) :
    (∃ b outer, opened = emptyPart b :: outer) ∧ continued true otherwise opened = none ∨
      (¬∃ b outer, opened = emptyPart b :: outer) ∧
        continued true otherwise opened = continued false otherwise opened := by
  rcases opened with _ | ⟨_ | _ | b | _, outer⟩
  · exact .inr ⟨by simp, rfl⟩
  · exact .inr ⟨by simp, by cases ‹Bool› <;> rfl⟩
  · exact .inr ⟨by simp, rfl⟩
  · exact .inl ⟨⟨b, outer, rfl⟩, by cases b <;> rfl⟩
  · exact .inr ⟨by simp, rfl⟩

theorem emptied_strict (opened : List Opened) :
    (∃ b outer, opened = emptyPart b :: outer) ∧ emptied true opened = none ∨
      (¬∃ b outer, opened = emptyPart b :: outer) ∧ emptied true opened = emptied false opened := by
  rcases opened with _ | ⟨_ | _ | b | _, outer⟩
  · exact .inr ⟨by simp, rfl⟩
  · exact .inr ⟨by simp, rfl⟩
  · exact .inr ⟨by simp, rfl⟩
  · exact .inl ⟨⟨b, outer, rfl⟩, rfl⟩
  · exact .inr ⟨by simp, rfl⟩

/-- **A strict scan refuses what extends an empty part**, and does all else as any scan. -/
theorem next_strict (opened : List Opened) (m : Marker) :
    Extends m opened ∧ next true opened m = none ∨
      ¬Extends m opened ∧ next true opened m = next false opened m := by
  cases m with
  | otherwise =>
    rcases continued_strict true opened with ⟨hb, h⟩ | ⟨hb, h⟩
    · exact .inl ⟨⟨.inl rfl, hb⟩, h⟩
    · exact .inr ⟨fun he => hb he.2, h⟩
  | alternative c =>
    rcases continued_strict false opened with ⟨hb, h⟩ | ⟨hb, h⟩
    · exact .inl ⟨⟨.inr (.inl ⟨c, rfl⟩), hb⟩, h⟩
    · exact .inr ⟨fun he => hb he.2, h⟩
  | empty =>
    rcases emptied_strict opened with ⟨hb, h⟩ | ⟨hb, h⟩
    · exact .inl ⟨⟨.inr (.inr rfl), hb⟩, h⟩
    · exact .inr ⟨fun he => hb he.2, h⟩
  | _ => exact .inr ⟨fun he => by simp [Extends] at he, rfl⟩

end Opened

/-- A token is let where its marker extends no empty part. -/
theorem Scan.lets_iff {c : Scan} {t : Token} {m : Marker}
    (h : Marker.read? c.numbers t = some m) : c.Lets t ↔ ¬Opened.Extends m c.opened := by
  rw [Lets, Opened.Extends, Marker.continues_iff h, Marker.says_empty_iff h]
  constructor
  · rintro hlets ⟨hm, b, outer, ho⟩
    obtain ⟨hcontinues, hempty⟩ := hlets b outer ho
    rcases hm with hm | hm | hm
    · exact hcontinues (.inl hm)
    · exact hcontinues (.inr hm)
    · exact hempty hm
  · intro hextends b outer ho
    refine ⟨fun hm => hextends ⟨?_, b, outer, ho⟩,
      fun hm => hextends ⟨.inr (.inr hm), b, outer, ho⟩⟩
    rcases hm with hm | hm
    · exact .inl hm
    · exact .inr (.inl hm)

/-- A strict step is a step at which the token is let. -/
theorem Scan.take_strict_iff {c c' : Scan} {t : Token} :
    c.take true t = some c' ↔ c.take false t = some c' ∧ c.Lets t := by
  cases hm : Marker.read? c.numbers t with
  | none => simp [take, hm]
  | some m =>
    have htake : ∀ strict, c.take strict t = (Opened.next strict c.opened m).map fun opened =>
        ⟨m.advance c.numbers, opened⟩ := fun strict => by rw [take, hm, Option.bind_some]
    rw [lets_iff hm, htake, htake]
    rcases Opened.next_strict c.opened m with ⟨he, h⟩ | ⟨he, h⟩
    · rw [h]
      exact ⟨fun hc => (by cases hc), fun hc => absurd he hc.2⟩
    · rw [h]
      exact ⟨fun hc => ⟨hc, he⟩, fun hc => hc.1⟩

theorem Scan.foldlM_strict_iff {c' : Scan} : ∀ {tokens : List Token} {c : Scan},
    tokens.foldlM (Scan.take true) c = some c' ↔
      tokens.foldlM (Scan.take false) c = some c' ∧ c.Plain tokens
  | [], c => by
    refine ⟨fun h => ⟨h, ?_⟩, fun h => h.1⟩
    intro before t after c' hsplit
    simp at hsplit
  | t :: tokens, c => by
    rw [List.foldlM_cons, List.foldlM_cons]
    constructor
    · intro h
      obtain ⟨c₁, h₁, h⟩ := Option.bind_eq_some_iff.mp h
      obtain ⟨h₁, hlets⟩ := take_strict_iff.mp h₁
      obtain ⟨h, hplain⟩ := foldlM_strict_iff.mp h
      refine ⟨Option.bind_eq_some_iff.mpr ⟨c₁, h₁, h⟩, ?_⟩
      rintro (_ | ⟨u, before⟩) t' after c₂ hsplit hc₂
      · cases hsplit
        cases hc₂
        exact hlets
      · cases hsplit
        rw [List.foldlM_cons, h₁] at hc₂
        exact hplain before t' after c₂ rfl hc₂
    · rintro ⟨h, hplain⟩
      obtain ⟨c₁, h₁, h⟩ := Option.bind_eq_some_iff.mp h
      refine Option.bind_eq_some_iff.mpr ⟨c₁, take_strict_iff.mpr ⟨h₁, ?_⟩, ?_⟩
      · exact hplain [] t tokens c rfl rfl
      · refine foldlM_strict_iff.mpr ⟨h, fun before t' after c₂ hsplit hc₂ => ?_⟩
        refine hplain (t :: before) t' after c₂ (by rw [hsplit]; rfl) ?_
        rw [List.foldlM_cons, h₁]
        exact hc₂

/-- **The strict scan differs at empty parts only.** -/
theorem scan_strict_iff {serial : Nat} {tokens : List Token} {c : Scan} :
    scan true serial tokens = some c ↔
      scan false serial tokens = some c ∧ Scan.Plain ⟨⟨0, serial⟩, []⟩ tokens :=
  Scan.foldlM_strict_iff

end TextTemplate
