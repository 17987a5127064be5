/-
# Cycles of several templates in one context

Each compilation numbers its cycles anew, so cycles of different templates that have the same number
count their turns under one name.  In a context that the templates share they take their turns
together: what a cycle gives depends on the turns of all of them.

* `Template.shared_turns` is what such a cycle gives, and when the turns of the others make no
  difference;
* `Template.cycle_moved_on` are two templates of one cycle each, where the second one does not begin
  with its first value.
-/
import Mathlib.Data.Nat.ModEq
import TextTemplate.Proofs.Cycles.Tags

namespace TextTemplate

open TextTemplate.Outcome

/-! ## 1. Turns of one's own -/

/-- The turns under a counter that are not of a kind. -/
def foreignTurns (counter : String) (own : Turn → Bool) (turns : List Turn) : Nat :=
  turns.countP fun τ => τ.counter = counter ∧ ¬ own τ

/-- All turns under a counter are those of a kind and the others. -/
theorem turnsUnder_eq_add {counter : String} {own : Turn → Bool}
    (hown : ∀ τ, own τ → τ.counter = counter) (turns : List Turn) :
    turnsUnder counter turns = turns.countP own + foreignTurns counter own turns := by
  unfold turnsUnder foreignTurns
  rw [List.countP_eq_countP_filter_add turns _ own, List.countP_filter, List.countP_filter]
  refine congrArg₂ (· + ·) (List.countP_congr fun τ _ => ?_) (List.countP_congr fun τ _ => ?_)
  · simpa using hown τ
  · simp

/-- The turns of a kind alone are counted right if the length of the row divides how many others
there are, and else not. -/
theorem own_turns_due_iff {counter : String} {own : Turn → Bool}
    (hown : ∀ τ, own τ → τ.counter = counter) (turns : List Turn) (length : Nat) :
    turns.countP own % length = turnsUnder counter turns % length ↔
      length ∣ foreignTurns counter own turns := by
  have hle : turns.countP own ≤ turnsUnder counter turns := by
    rw [turnsUnder_eq_add hown]
    exact Nat.le_add_right _ _
  have hforeign : turnsUnder counter turns - turns.countP own =
      foreignTurns counter own turns := by
    rw [turnsUnder_eq_add hown]
    exact Nat.add_sub_cancel_left ..
  rw [← hforeign]
  exact Nat.modEq_iff_dvd' hle

/-! ## 2. Templates that share a context -/

namespace Template

/-- **Cycles of the same number take their turns together.**  Take templates of the usual tags, also
such as render templates inside, and render them one after another in a context whose root layer is
a mapping that no value leads to.  If no template that is run binds the name of counter number
`ordinal`, and nothing is bound to it at first, then a cycle with this number, in whichever
template, gives the value that is due by all turns so far of all cycles with this number.  By the
turns of some of them alone, such as those of the cycle itself, the value at the same place is due
just if the length of the row divides the number of the other turns.  In the end the root layer
holds the number of all turns. -/
theorem shared_turns {templates : List Template} (husual : ∀ t ∈ templates, t.Usual) {c : Context}
    {s : Store} (h : c.scopes.Apart s) {r : Ref} (hroot : c.scopes.root = .dict r) {ordinal : Nat}
    (hnames : ∀ x ∈ rendered templates c s, x.1.UnboundIn x.2.1 x.2.2 (Tag.cycleCounter ordinal))
    (hpushed : c.scopes.Free (Tag.cycleCounter ordinal))
    (hunbound : (s.dict r).find? (.text (Tag.cycleCounter ordinal)) = none) :
    (∀ before (τ : Turn) after, turnsAll templates c s = before ++ τ :: after →
      τ.counter = Tag.cycleCounter ordinal →
        τ.Gives r (turnsUnder (Tag.cycleCounter ordinal) before) ∧
        ∀ own : Turn → Bool, (∀ τ', own τ' → τ'.counter = Tag.cycleCounter ordinal) →
          (before.countP own % τ.values.length =
              turnsUnder (Tag.cycleCounter ordinal) before % τ.values.length ↔
            τ.values.length ∣ foreignTurns (Tag.cycleCounter ordinal) own before)) ∧
    ((renderAll templates c s).2.dict r).find? (.text (Tag.cycleCounter ordinal)) =
      boundAfter (turnsUnder (Tag.cycleCounter ordinal) (turnsAll templates c s)) := by
  have htaken : TakenFrom r (Tag.cycleCounter ordinal) 0 (turnsAll templates c s)
      (renderAll templates c s).2 :=
    turnsAll_taken h hroot (Scopes.constants_counter ordinal) husual
      (h.likeWorld (w := ⟨c, s⟩) _) hpushed hnames hunbound
  constructor
  · intro before τ after hturns hτ
    have hdue := htaken.due
    rw [hturns] at hdue
    have hgives := hdue.gives hτ
    rw [Nat.zero_add] at hgives
    exact ⟨hgives, fun own hown => own_turns_due_iff hown before τ.values.length⟩
  · have hbehind := htaken.behind
    rw [Nat.zero_add] at hbehind
    exact hbehind

/-- The source of a cycle of two letters. -/
def lettersSource : Value := .plain "\x7b% cycle 'a' 'b' %\x7d"

/-- The source of a cycle of two other letters. -/
def otherLettersSource : Value := .plain "\x7b% cycle 'c' 'd' %\x7d"

/-- A context over a mapping without names. -/
def freshContext : Context := ⟨.ofRoot (.dict 0), some ⟨.bool true, none, none⟩⟩

/-- A store with that mapping. -/
def freshStore : Store := { Store.empty with dicts := #[[]] }

/-- The two templates, rendered in the context. -/
theorem compile_letters : ∃ t u s₁ s₂,
    compile Engine.standard none lettersSource .empty .empty = .ok t s₁ ∧
    compile Engine.standard none otherLettersSource .empty s₁ = .ok u s₂ ∧
    t.program.boundNames = [] ∧ u.program.boundNames = [] ∧
    (u.render freshContext freshStore).1.toOption = some (.markup "c") ∧
    (rendered [t, u] freshContext freshStore).map (fun (t, c, s) => (t.render c s).1.toOption) =
      [some (.markup "a"), some (.markup "d")] ∧
    (turnsAll [t, u] freshContext freshStore).map (·.counter) =
      [Tag.cycleCounter 0, Tag.cycleCounter 0] := by
  have hrun : ((do
        let t ← compile Engine.standard none lettersSource .empty
        let u ← compile Engine.standard none otherLettersSource .empty
        pure (t, u) : Eval (Template × Template)).run' .empty).map (fun (t, u) =>
      (t.program.boundNames, u.program.boundNames,
        (u.render freshContext freshStore).1.toOption,
        (rendered [t, u] freshContext freshStore).map
          (fun (t, c, s) => (t.render c s).1.toOption),
        (turnsAll [t, u] freshContext freshStore).map (·.counter))) =
      some ([], [], some (.markup "c"), [some (.markup "a"), some (.markup "d")],
        [Tag.cycleCounter 0, Tag.cycleCounter 0]) := by cbv
  obtain ⟨⟨t, u⟩, s₂, hc, hrun⟩ := exists_of_run' hrun
  obtain ⟨t, s₁, ht, hc⟩ := bind_eq_ok.mp hc
  obtain ⟨u, s₂', hu, hc⟩ := bind_eq_ok.mp hc
  cases hc
  simp only [Prod.mk.injEq] at hrun
  exact ⟨t, u, s₁, s₂, ht, hu, hrun⟩

/-- Nothing is bound in the context that a template of one cycle and another one share.  By itself
the second one begins with its first value, but behind the first one with its second value. -/
theorem cycle_moved_on : ∃ t u s₁ s₂,
    compile Engine.standard none lettersSource .empty .empty = .ok t s₁ ∧
    compile Engine.standard none otherLettersSource .empty s₁ = .ok u s₂ ∧
    (∀ n, (freshStore.dict 0).find? (.text (Tag.cycleCounter n)) = none) ∧
    (u.render freshContext freshStore).1.toOption = some (.markup "c") ∧
    (rendered [t, u] freshContext freshStore).map (fun (t, c, s) => (t.render c s).1.toOption) =
      [some (.markup "a"), some (.markup "d")] := by
  obtain ⟨t, u, s₁, s₂, ht, hu, -, -, halone, hboth, -⟩ := compile_letters
  exact ⟨t, u, s₁, s₂, ht, hu, fun n => rfl, halone, hboth⟩

/-- The turn of the second template counts as the second one. -/
theorem shared_turns_letters : ∃ t u s₁ s₂ τ₁ τ₂,
    compile Engine.standard none lettersSource .empty .empty = .ok t s₁ ∧
    compile Engine.standard none otherLettersSource .empty s₁ = .ok u s₂ ∧
    (∀ v ∈ [t, u], v.Usual) ∧ freshContext.scopes.Apart freshStore ∧
    (∀ x ∈ rendered [t, u] freshContext freshStore,
      x.1.UnboundIn x.2.1 x.2.2 (Tag.cycleCounter 0)) ∧
    freshContext.scopes.Free (Tag.cycleCounter 0) ∧
    (freshStore.dict 0).find? (.text (Tag.cycleCounter 0)) = none ∧
    turnsAll [t, u] freshContext freshStore = [τ₁, τ₂] ∧
    τ₁.counter = Tag.cycleCounter 0 ∧ τ₂.counter = Tag.cycleCounter 0 ∧
    τ₁.Gives 0 0 ∧ τ₂.Gives 0 1 ∧
    ((renderAll [t, u] freshContext freshStore).2.dict 0).find? (.text (Tag.cycleCounter 0)) =
      some (.int 2) := by
  obtain ⟨t, u, s₁, s₂, ht, hu, hnames, hnames', -, -, hcounters⟩ := compile_letters
  have hboth : ∀ v ∈ [t, u], v.Usual ∧ v.grammar.tags = Tag.standard ∧
      v.program.boundNames = [] := by
    obtain ⟨husual, htags⟩ := Usual.of_standard ht
    obtain ⟨husual', htags'⟩ := Usual.of_standard hu
    simp only [List.forall_mem_cons]
    exact ⟨⟨husual, htags, hnames⟩, ⟨husual', htags', hnames'⟩,
      fun v hv => absurd hv List.not_mem_nil⟩
  have hunbound : ∀ x ∈ rendered [t, u] freshContext freshStore,
      x.1.UnboundIn x.2.1 x.2.2 (Tag.cycleCounter 0) := by
    intro x hx
    obtain ⟨hx, htags, hbound⟩ := hboth x.1 (mem_rendered hx)
    refine hx.unboundIn htags ?_ _ _
    rw [hbound]
    exact List.not_mem_nil
  have hapart : freshContext.scopes.Apart freshStore :=
    .of_unheld rfl (by decide) (by decide) (by decide) (by decide) rfl (by decide)
  have hfree : freshContext.scopes.Free (Tag.cycleCounter 0) :=
    fun layer hlayer => absurd hlayer List.not_mem_nil
  obtain ⟨τ₁, rest, hturns, h₁, hrest⟩ := List.map_eq_cons_iff.mp hcounters
  obtain ⟨τ₂, rest, rfl, h₂, hrest⟩ := List.map_eq_cons_iff.mp hrest
  obtain rfl := List.map_eq_nil_iff.mp hrest
  obtain ⟨hgives, hbehind⟩ :=
    shared_turns (fun v hv => (hboth v hv).1) hapart rfl hunbound hfree rfl
  have hfirst := (hgives [] τ₁ [τ₂] hturns h₁).1
  have hsecond := (hgives [τ₁] τ₂ [] hturns h₂).1
  rw [turnsUnder_cons_of_eq h₁] at hsecond
  rw [hturns, turnsUnder_cons_of_eq h₁, turnsUnder_cons_of_eq h₂] at hbehind
  exact ⟨t, u, s₁, s₂, τ₁, τ₂, ht, hu, fun v hv => (hboth v hv).1, hapart, hunbound, hfree, rfl,
    hturns, h₁, h₂, hfirst, hsecond, hbehind⟩

end Template
end TextTemplate
