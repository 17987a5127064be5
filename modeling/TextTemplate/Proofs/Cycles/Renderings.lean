/-
# The turns of renderings

The count under a counter is right through a whole rendering, with the templates inside it, and
through any row of renderings in one context, whether they give output or fail.

* `Template.Unbound` says that no template that is run binds a name;
* `Template.Usual.taken` is a run of a template, by induction on how deep templates lie in it;
* `Template.Usual.render_taken` is a rendering, and `Template.turnsAll_taken` a row of them.
-/
import TextTemplate.Proofs.Cycles.Counting

namespace TextTemplate

open Correspondence Likeness TextTemplate.Outcome

variable {r : Ref} {counter : String} {n : Nat}

theorem Store.SameValues.counted {s s' : Store} (h : s.SameValues s')
    (hn : s.Counted r counter n) : s'.Counted r counter n := by
  unfold Store.SameValues at h
  rw [h]
  exact hn

namespace Template

/-! ## 1. Runs of templates -/

section Runs

variable {s : Store} {c : Scopes} {autoescape : Value} {t : Template} {levels : Nat} {w : World}

/-- No template that is run where one is binds the name of a loop or of a serial number to it. -/
def Unbound (autoescape : Value) (levels : Nat) (t : Template) (w : World) (name : String) : Prop :=
  ∀ levels' u w', Runs autoescape levels t w levels' u w' → name ∉ u.program.boundNames

/-- A template that is refused leaves the values. -/
theorem store_of_refuse (t : Template) (v : Value) (w : World) :
    (World.behind (inWorld (t.refuse v) w)).store = w.store := by
  have hstore : ∀ s, ∃ e, t.refuse v s = .error e s := by
    intro s
    unfold refuse
    cases ht : s.shown? v with
    | none =>
      have hfails : Eval.text v s = .error (Error.of (.value .integerTextTooLong)) s :=
        Eval.read_of_error (by rw [ht])
      exact ⟨_, bind_of_error hfails⟩
    | some text =>
      have hshown : Eval.text v s = .ok text s := Eval.read_of_ok (by rw [ht])
      exact ⟨_, bind_of_ok hshown⟩
  obtain ⟨e, he⟩ := hstore w.store
  rw [inWorld_of_error he]
  rfl

/-- The turns of a usual template can be counted, within its levels. -/
theorem Usual.countable (ht : t.Usual) (levels : Nat) (h : c.Apart s) (hroot : c.root = .dict r)
    (hname : Scopes.constants.find? (.text counter) = none)
    (hw : LikeWorld (h.roots s fun _ => True) w w) (hfree : w.scopes.Free counter)
    (hunbound : counter ∉ t.program.boundNames) : ∃ level,
      Program.Countable h r counter t.program
        (t.environment autoescape (nestedWithin levels t autoescape)) level w := by
  obtain ⟨level, hp⟩ := ht.runnable h fun _ _ => trivial
  obtain ⟨engine, name, source, o, s₀, s₁, hcompiled⟩ := ht.compiled
  have hemitted := emitted hcompiled ht.tags.ordinary
  exact ⟨level,
    { runnable := hp
      nestedLike := ht.nestedLike h hw fun _ _ => trivial
      world := hw
      steady := fun since writes => environment_alike t (ht.filters h since writes)
        (fun _ _ hs => by rw [h.store_eq hs]) _ _
      root := hroot
      free := hfree
      unbound := hunbound
      noConstant := hname
      values := fun i hi values counter' heq =>
        (hemitted.counted _ (List.mem_map_of_mem hi.val) values counter' heq).1 }⟩

/-- **A run of a template takes its turns in order**, with those in the templates inside. -/
theorem Usual.taken (ht : t.Usual) (h : c.Apart s) (hroot : c.root = .dict r)
    (hname : Scopes.constants.find? (.text counter) = none)
    (hw : LikeWorld (h.roots s fun _ => True) w w) (hbound : w.Bound)
    (hfree : w.scopes.Free counter) (hunbound : Unbound autoescape levels t w counter)
    (hn : w.store.Counted r counter n) :
    TakenFrom r counter n (turnsWithin levels t autoescape w)
      (World.behind (runWithin levels t autoescape w)).store := by
  induction levels generalizing t w n with
  | zero =>
    obtain ⟨level, hp⟩ :=
      ht.countable 0 h hroot hname hw hfree (hunbound _ _ _ (.self ..))
    rw [runWithin_eq]
    refine hp.run ?_ hn
    intro place f i source v s₁ n steps here hi hv hn
    have hstore := t.store_of_refuse v { f.world with store := s₁ }
    refine .none ?_
    show Store.Counted r counter n (World.behind (inWorld (t.refuse v) _)).store
    rw [hstore]
    exact hn
  | succ levels ih =>
    obtain ⟨level, hp⟩ :=
      ht.countable (levels + 1) h hroot hname hw hfree (hunbound _ _ _ (.self ..))
    rw [runWithin_eq]
    refine hp.run ?_ hn
    intro place f i source v s₁ n steps here hi hv hn
    have hspared := compile_spares ht.innerTags.sparing none v s₁
    show TakenFrom r counter n _ (World.behind (nestedWithin (levels + 1) t autoescape v _)).store
    dsimp only
    cases hcompile : compile t.engine none v .empty s₁ with
    | error e s₂ =>
      rw [hcompile] at hspared
      rw [nestedWithin_of_error (w := { f.world with store := s₁ }) hcompile]
      exact .none (hspared.1.counted hn)
    | ok inner s₂ =>
      rw [hcompile] at hspared
      rw [nestedWithin_of_ok (w := ⟨f.world.toContext, s₁⟩) hcompile]
      obtain ⟨-, habove⟩ := Program.reached_like hp.runnable hp.nestedLike hw steps
      -- inside the context is bound already, so that the template there is just run
      have hbound' : f.world.Bound := hbound.of_template habove.template
      have hruns : ∀ {levels' u w'},
          Runs autoescape levels inner ⟨f.world.toContext, s₂⟩ levels' u w' →
          Runs autoescape (levels + 1) t w levels' u w' := by
        intro levels' u w' hu
        rw [← Context.boundTo_of_bound hbound' inner] at hu
        exact .inner steps here hi hv hcompile hu
      obtain ⟨hinner, hworld, -⟩ := ht.like_of_runs h hw (fun _ _ => trivial) (hruns (.self ..))
      have hkept := (steps.free hp.unbound hp.runnable.restores ⟨hp.free, by simp⟩).scopes
      unfold renderWithin
      rw [tied_of_bound (w := ⟨f.world.toContext, s₂⟩) hbound']
      exact ih hinner hworld hbound' hkept (fun _ _ _ hu => hunbound _ _ _ (hruns hu))
        (Store.SameValues.counted hspared hn)

end Runs

/-! ## 2. Renderings -/

section Renderings

variable {s₀ : Store} {c₀ : Scopes}

/-- No template that is run in a rendering binds the name. -/
def UnboundIn (t : Template) (c : Context) (s : Store) (name : String) : Prop :=
  ∀ settings, c.settings = some settings →
    Unbound settings.autoescape maxLevels t ⟨c.boundTo t, s⟩ name

/-- **A rendering takes its turns in order**, and leaves a world in which the next one can begin. -/
theorem Usual.render_taken {t : Template} (ht : t.Usual) (h : c₀.Apart s₀)
    (hroot : c₀.root = .dict r) (hname : Scopes.constants.find? (.text counter) = none)
    {c : Context} {s : Store} (hw : LikeWorld (h.roots s₀ fun _ => True) ⟨c, s⟩ ⟨c, s⟩)
    (hfree : c.scopes.Free counter) (hunbound : t.UnboundIn c s counter)
    (hn : s.Counted r counter n) :
    TakenFrom r counter n (t.turns c s) (t.render c s).2.2 ∧
      (t.render c s).2.1.scopes = c.scopes ∧
      LikeWorld (h.roots s₀ fun _ => True) ⟨(t.render c s).2.1, (t.render c s).2.2⟩
        ⟨(t.render c s).2.1, (t.render c s).2.2⟩ := by
  cases hc : c.settings with
  | none =>
    have hrender : t.render c s = (.error (Error.of (Context.missing "template")), c, s) := by
      unfold render
      rw [hc]
    have hturns : t.turns c s = [] := by
      unfold turns
      rw [hc]
    rw [hrender, hturns]
    exact ⟨.none hn, rfl, hw⟩
  | some b =>
    have hturns : t.turns c s = turnsWithin maxLevels t b.autoescape ⟨c.boundTo t, s⟩ := by
      unfold turns
      rw [hc]
    have htaken := ht.taken h hroot hname (hw.boundTo t) (Context.bound_boundTo hc t) hfree
      (hunbound b hc) hn
    have hrestored := tied_restores (t := t) (ht.restores maxLevels b.autoescape) ⟨c, s⟩
    have hlike : SameWorld (h.roots s₀ fun _ => True) (h.likeness s₀ fun _ => True).Like
        (renderWithin maxLevels t b.autoescape ⟨c, s⟩)
        (renderWithin maxLevels t b.autoescape ⟨c, s⟩) :=
      tied_alike hw (ht.runWithin_like h (hw.boundTo t) fun _ _ => trivial)
    obtain ⟨hcontext, hstore⟩ := t.render_behind (s := s) hc
    rw [hturns]
    refine ⟨(t.render_leaves hc).2 ▸ htaken, hcontext ▸ hrestored.scopes, ?_⟩
    rw [hcontext, hstore]
    generalize renderWithin maxLevels t b.autoescape ⟨c, s⟩ = result at hlike ⊢
    cases hlike with
    | ok world _ => exact world
    | error world _ => exact world

/-- **A row of renderings in one context** takes its turns in order. -/
theorem turnsAll_taken (h : c₀.Apart s₀) (hroot : c₀.root = .dict r)
    (hname : Scopes.constants.find? (.text counter) = none) {templates : List Template}
    (husual : ∀ t ∈ templates, t.Usual) {c : Context} {s : Store}
    (hw : LikeWorld (h.roots s₀ fun _ => True) ⟨c, s⟩ ⟨c, s⟩) (hfree : c.scopes.Free counter)
    (hunbound : ∀ x ∈ rendered templates c s, x.1.UnboundIn x.2.1 x.2.2 counter)
    (hn : s.Counted r counter n) :
    TakenFrom r counter n (turnsAll templates c s) (renderAll templates c s).2 := by
  induction templates generalizing c s n with
  | nil => exact .none hn
  | cons t templates ih =>
    obtain ⟨ht, husual⟩ := List.forall_mem_cons.mp husual
    obtain ⟨hhere, hunbound⟩ := List.forall_mem_cons.mp hunbound
    obtain ⟨htaken, hscopes, hnext⟩ := ht.render_taken h hroot hname hw hfree hhere hn
    refine htaken.append (ih husual hnext ?_ hunbound htaken.behind)
    rw [hscopes]
    exact hfree

end Renderings
end Template
end TextTemplate
