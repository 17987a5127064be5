/-
# What is written

A value is written as markup.  A safe text is written as it is, and all else is escaped; so what is
written is tame exactly if the value is sound (`Region.Holds.output_tame_iff`).

Two instructions write a value.  Both choose an expression first, a cycle by counting its turns;
`Instruction.choice?` is that choice, and `Linked.step_of_choice` says what they do with it.
-/
import TextTemplate.Proofs.Run.Frames
import TextTemplate.Proofs.Safety.Expressions

namespace TextTemplate

open TextTemplate.Outcome TextTemplate.Text

variable {R : Region} {s s' : Store} {v o : Value}

/-! ## 1. Markup -/

/-- What cannot be called is no markup. -/
theorem Eval.call_ne_ok {m : Member} (h : s.canCall m = false) : Eval.call m s ≠ .ok o s' := by
  intro hok
  cases m with
  | value v =>
    have hcall : s.isCallable v = false := h
    unfold Eval.call Eval.callValue at hok
    obtain ⟨s₁, s₂, hget, hok⟩ := bind_eq_ok.mp hok
    cases hget
    cases v with
    | object r =>
      have hnone : (s.object r).call = none :=
        Option.not_isSome_iff_eq_none.mp (Bool.eq_false_iff.mp hcall)
      simp only [hnone] at hok
      cases hok
    | function r i => cases hcall
    | _ => cases hok
  | method object m => cases h
  | data v m => cases h

namespace Region.Holds

/-- An attribute by which a value of the region could say that it is markup cannot be called. -/
theorem canCall_markup (hs : R.Holds s) (hv : R.Has v) {m : Member}
    (hm : s.attribute? v markupAttribute = some (.ok m)) : s.canCall m = false := by
  cases v with
  | object r => exact hs.unmarked r hv m hm
  | function r i => exact hv.elim
  | _ => cases hm

/-- An escaped value. -/
theorem escaped_eq_ok (h : Eval.escaped v s = .ok o s') :
    s' = s ∧ ∃ t, o = .markup (escapeMarkup t) := by
  obtain ⟨t, s₁, ht, hpure⟩ := bind_eq_ok.mp h
  obtain ⟨-, rfl⟩ := Eval.read_eq_ok ht
  cases hpure
  exact ⟨rfl, t, rfl⟩

/-- What is no safe text is escaped, if it cannot say that it is markup. -/
theorem asMarkup_of_not_safe (hs : R.Holds s) (hv : R.Has v) (hsafe : Filter.isSafe v = false)
    (h : Eval.asMarkup v s = .ok o s') : s' = s ∧ ∃ t, o = .markup (escapeMarkup t) := by
  unfold Eval.asMarkup at h
  split at h
  · cases hsafe
  · obtain ⟨given, s₁, hgiven, hrest⟩ := bind_eq_ok.mp h
    rw [(Eval.read_eq_ok hgiven).2] at hrest
    cases given with
    | false => exact escaped_eq_ok hrest
    | true =>
      obtain ⟨s₂, s₃, hget, hrest⟩ := bind_eq_ok.mp hrest
      cases hget
      cases hm : s.attribute? v markupAttribute with
      | none =>
        rw [hm] at hrest
        exact escaped_eq_ok hrest
      | some found =>
        rw [hm] at hrest
        cases found with
        | error cause => cases hrest
        | ok m => exact absurd hrest (Eval.call_ne_ok (hs.canCall_markup hv hm))

/-- **A value as markup** is tame exactly if the value is sound. -/
theorem asMarkup_tame_iff (hs : R.Holds s) (hv : R.Has v) (h : Eval.asMarkup v s = .ok o s') :
    s' = s ∧ ∃ t, o = .markup t ∧ (Tame t ↔ v.Sound) := by
  cases hsafe : Filter.isSafe v with
  | true =>
    obtain ⟨t, rfl⟩ := Filter.eq_markup_of_isSafe hsafe
    cases h
    exact ⟨rfl, t, rfl, fun htame => Value.sound_text.mpr fun _ => htame,
      fun hsound => hsound t rfl⟩
  | false =>
    obtain ⟨rfl, t, rfl⟩ := hs.asMarkup_of_not_safe hv hsafe h
    refine ⟨rfl, _, rfl, fun _ => Value.sound_of_not_safe hsafe, fun _ => ?_⟩
    exact tame_escapeMarkup t

/-- **A value that is written**: while output is escaped it is written as markup, and is tame
exactly if it is sound. -/
theorem output_tame_iff {autoescape : Value} (hs : R.Holds s) (hv : R.Has v)
    (h : Eval.output autoescape v s = .ok o s') :
    s' = s ∧ (s.truth autoescape = true → ∃ t, o = .markup t ∧ (Tame t ↔ v.Sound)) := by
  unfold Eval.output at h
  rw [bind_of_ok (get_apply s)] at h
  by_cases hon : s.truth autoescape = true
  · rw [if_pos hon] at h
    by_cases hnone : v = .none
    · rw [if_pos hnone] at h
      cases h
      subst hnone
      refine ⟨rfl, fun _ => ⟨_, rfl, ?_⟩⟩
      exact ⟨fun _ => Value.sound_of_not_safe rfl, fun _ => tame_escapeMarkup _⟩
    · rw [if_neg hnone] at h
      obtain ⟨hs', t, ho, htame⟩ := hs.asMarkup_tame_iff hv h
      exact ⟨hs', fun _ => ⟨t, ho, htame⟩⟩
  · rw [if_neg hon] at h
    obtain ⟨t, s₁, ht, hpure⟩ := bind_eq_ok.mp h
    rw [(Eval.read_eq_ok ht).2] at hpure
    cases hpure
    exact ⟨rfl, fun h => absurd h hon⟩

end Region.Holds

/-- Writing a value keeps the region. -/
theorem Region.keeps_output (autoescape : Value) (hv : R.Has v) :
    R.Keeps (Eval.output autoescape v) fun _ => True := by
  have hescaped : ∀ w, R.Keeps (Eval.escaped w) fun _ => True := fun w =>
    .bind (keeps_text w) fun _ _ => .pure trivial
  have hmarkup : ∀ w, R.Has w → R.Keeps (Eval.asMarkup w) fun _ => True := by
    intro w hw
    unfold Eval.asMarkup
    split
    · exact .pure trivial
    · have hattribute : R.Keeps (Eval.read (·.hasAttribute w markupAttribute)) fun _ => True :=
        .read fun _ _ _ _ => trivial
      refine .bind hattribute fun given _ => ?_
      split
      · refine .bind .get fun s hs => ?_
        split
        · rename_i m hm
          exact (keeps_call (hs.attribute hw hm)).mono fun _ _ => trivial
        · exact .fail _
        · exact hescaped w
      · exact hescaped w
  have hshown : R.Has (if v = .none then .plain "" else v) := by
    split
    · trivial
    · exact hv
  unfold Eval.output
  refine .bind .get fun s _ => ?_
  split
  · exact hmarkup _ hshown
  · exact .bind (keeps_text _) fun _ _ => .pure trivial

/-! ## 2. Cycles -/

/-- The expression whose turn it is, after the turns have been counted. -/
def Eval.inTurn (c : Scopes) (values : List Expression) (counter : String) : Eval Expression := do
  let count ← c.lookupOr (.plain counter) (.int 0)
  let next ← Eval.plus count (.int 1)
  c.writeRoot (.plain counter) next
  let i ← Eval.read fun _ => turn count values.length
  match values[i]? with
  | none => Eval.fail (.index .list)
  | some value => pure value

/-- A cycle writes the expression whose turn it is. -/
theorem Run.cycle_eq (env : Environment) (values : List Expression) (counter : String) :
    Run.cycle env values counter = (do
      let c ← Run.scopes
      let v ← Run.eval do
        let e ← Eval.inTurn c values counter
        Eval.output env.autoescape (← e.resolve env.filters c)
      Run.write v) := by
  unfold Run.cycle Eval.inTurn
  refine bind_congr fun c => ?_
  congr 2
  simp only [bind_assoc]
  refine bind_congr fun count => bind_congr fun next => bind_congr fun _ => bind_congr fun i => ?_
  cases values[i]? with
  | none => rfl
  | some value => rfl

/-! ## 3. Instructions that write a value -/

/-- The choice of the expression whose value the instruction writes, if it writes one. -/
def Instruction.choice? (c : Scopes) : Instruction → Option (Eval Expression)
  | .expression e => some (pure e)
  | .cycle values counter => some (Eval.inTurn c values counter)
  | _ => none

namespace Linked

variable {env : Environment} {i : Linked} {place place' : Nat} {f f' : Frame}
  {choice : Eval Expression}

theorem execute_of_choice (h : i.instruction.choice? f.world.scopes = some choice) :
    i.execute env place f = (do
      let v ← Run.eval do
        let e ← choice
        Eval.output env.autoescape (← e.resolve env.filters f.world.scopes)
      Run.write v
      pure none : Run (Option Nat)) f := by
  unfold execute
  cases hi : i.instruction with
  | expression e =>
    rw [hi] at h
    cases h
    rfl
  | cycle values counter =>
    rw [hi] at h
    cases h
    have hscopes : Run.scopes f = .ok f.world.scopes f := rfl
    dsimp only
    rw [Run.cycle_eq, bind_assoc, bind_of_ok hscopes, bind_assoc]
  | _ =>
    rw [hi] at h
    cases h

/-- **An instruction that writes a value** chooses an expression, resolves it and writes what that
gives. -/
theorem step_of_choice (h : i.instruction.choice? f.world.scopes = some choice)
    (step : i.step env place f = .ok place' f') :
    ∃ e s₁ v s₂ o s₃, choice f.world.store = .ok e s₁ ∧
      e.resolve env.filters f.world.scopes s₁ = .ok v s₂ ∧
      Eval.output env.autoescape v s₂ = .ok o s₃ ∧
      f' = { f with world := { f.world with store := s₃ }, output := o :: f.output } := by
  unfold Linked.step at step
  rw [execute_of_choice h] at step
  split at step
  · cases step
  · rename_i target f₃ hexecute
    cases step
    obtain ⟨o, f₁, heval, hwrite⟩ := bind_eq_ok.mp hexecute
    obtain ⟨s₃, hvalue, rfl⟩ := Run.eval_eq_ok.mp heval
    cases hwrite
    obtain ⟨e, s₁, he, hvalue⟩ := bind_eq_ok.mp hvalue
    obtain ⟨v, s₂, hv, ho⟩ := bind_eq_ok.mp hvalue
    exact ⟨e, s₁, v, s₂, o, s₃, he, hv, ho, rfl⟩

end Linked
end TextTemplate
