/-
# Contexts that are bound to a template

While a template is rendered, its context is bound: a free one to that template, one that is bound
already to the template that it was bound to.  So a template inside finds the context bound and is
just run.

* `Context.Bound` says that a context is bound, `Context.boundTo` is the context that the program
  of a template finds;
* `Context.Kept` says that a context has kept its layers and its template, and `Restores` that a
  computation leaves it so;
* `Template.tied_restores` is the case of a rendering.
-/
import TextTemplate.Proofs.Outcome
import TextTemplate.Template

namespace TextTemplate

open TextTemplate.Outcome

namespace Context

/-! ## 1. Bound contexts -/

/-- The template that is being rendered, if one is; a bare context has no place for one. -/
def template? (c : Context) : Option (Option Template) := c.settings.map (·.template)

/-- The context is bound to a template. -/
def Bound (c : Context) : Prop := c.isBound = .ok true

/-- The context that the program of a template finds: a free one is bound to the template. -/
def boundTo (c : Context) (t : Template) : Context :=
  { c with settings := c.settings.map fun b =>
      if b.template.isSome then b else { b with template := some t, templateName := t.name } }

/-- The context has kept its layers and the template that it is bound to. -/
structure Kept (c c' : Context) : Prop where
  scopes : c'.scopes = c.scopes
  template : c'.template? = c.template?

/-- What has become of a context behind a rendering: it is the same, or it has been released. -/
inductive MayRelease (c : Context) : Context → Prop where
  | same : MayRelease c c
  | released : MayRelease c c.release

variable {c c' c'' : Context} {b : RenderSettings} {t : Template}

theorem Kept.refl (c : Context) : c.Kept c := ⟨rfl, rfl⟩

theorem Kept.trans (h : c.Kept c') (h' : c'.Kept c'') : c.Kept c'' :=
  ⟨h'.scopes.trans h.scopes, h'.template.trans h.template⟩

theorem isBound_eq (c : Context) : c.isBound =
    c.template?.elim (.error (missing "template")) fun template => .ok template.isSome := by
  unfold isBound template?
  cases c.settings <;> rfl

theorem bound_iff : c.Bound ↔ ∃ t, c.template? = some (some t) := by
  unfold Bound
  rw [isBound_eq]
  constructor
  · intro h
    match hc : c.template? with
    | none => rw [hc] at h; cases h
    | some none => rw [hc] at h; cases h
    | some (some t) => exact ⟨t, rfl⟩
  · rintro ⟨t, ht⟩
    rw [ht]
    rfl

theorem Bound.of_template (hc : c.Bound) (h : c'.template? = c.template?) : c'.Bound := by
  obtain ⟨t, ht⟩ := bound_iff.mp hc
  exact bound_iff.mpr ⟨t, h.trans ht⟩

/-- A context with settings is bound or free. -/
theorem bound_or_free (hc : c.settings = some b) : c.Bound ∨ b.template = none := by
  cases hb : b.template with
  | none => exact .inr rfl
  | some u => exact .inl (bound_iff.mpr ⟨u, by rw [template?, hc, ← hb]; rfl⟩)

@[simp] theorem boundTo_scopes (c : Context) (t : Template) : (c.boundTo t).scopes = c.scopes := rfl

/-- A context with settings is bound while a template is rendered in it. -/
theorem bound_boundTo (hc : c.settings = some b) (t : Template) : (c.boundTo t).Bound := by
  unfold Bound isBound boundTo
  rw [hc]
  dsimp only [Option.map_some]
  split
  · rename_i h
    rw [h]
  · rfl

/-- A context that is bound stays as it is. -/
theorem boundTo_of_bound (hc : c.Bound) (t : Template) : c.boundTo t = c := by
  obtain ⟨u, hu⟩ := bound_iff.mp hc
  obtain ⟨scopes, settings⟩ := c
  cases settings with
  | none => cases hu
  | some b =>
    have htemplate : b.template = some u := Option.some.inj hu
    unfold boundTo
    dsimp only [Option.map_some]
    rw [htemplate]
    rfl

/-- A context that is released has no template, if it has a place for one. -/
theorem template?_release (c : Context) : c.release.template? = c.template?.map fun _ => none := by
  unfold release template?
  cases c.settings <;> rfl

theorem MayRelease.scopes (h : c.MayRelease c') : c'.scopes = c.scopes := by
  cases h <;> rfl

theorem MayRelease.settings (h : c.MayRelease c') : c'.settings.isSome = c.settings.isSome := by
  cases h with
  | same => rfl
  | released => exact Option.isSome_map

/-- Binding a free context, and taking over the name of the template. -/
theorem bind_of_free (hc : c.settings = some b) (hfree : b.template = none) (t : Template) :
    ∃ c', c.bind t = .ok c' ∧ c'.named t.name = c.boundTo t := by
  obtain ⟨scopes, settings⟩ := c
  cases hc
  have hnone : ¬ b.template.isSome := by
    rw [hfree]
    decide
  refine ⟨⟨scopes, some { b with template := some t }⟩, ?_, ?_⟩
  · unfold bind
    dsimp only
    rw [hfree]
  · unfold named boundTo
    dsimp only [Option.map_some]
    rw [if_neg hnone]

end Context

/-! ## 2. Computations that restore the context -/

/-- The world that a computation leaves. -/
def World.behind {α : Type} : EStateM.Result Error World α → World
  | .ok _ w => w
  | .error _ w => w

/-- A computation on the world restores the context, whether it succeeds or fails. -/
def Restores {α : Type} (y : EStateM Error World α) : Prop :=
  ∀ w : World, w.Kept (World.behind (y w)).toContext

/-- One computation after another. -/
theorem Restores.bind {α β : Type} {x : EStateM Error World α} {g : α → EStateM Error World β}
    (hx : Restores x)
    (hg : ∀ w a w', x w = .ok a w' → w'.Kept (World.behind (g a w')).toContext) :
    Restores (x >>= g) := by
  intro w
  have hkept := hx w
  cases hr : x w with
  | error e w' =>
    rw [hr] at hkept
    rw [bind_of_error hr]
    exact hkept
  | ok a w' =>
    rw [hr] at hkept
    rw [bind_of_ok hr]
    exact hkept.trans (hg w a w' hr)

/-! ## 3. Renderings -/

namespace Template

variable {t : Template} {x : EStateM Error World Value} {w w' : World} {b : RenderSettings}
  {v : Value} {e : Error}

/-- In a bound context nothing is bound or released. -/
theorem tied_of_bound (hw : w.Bound) (t : Template) (x : EStateM Error World Value) :
    t.tied x w = x w := by
  unfold tied
  rw [show w.isBound = .ok true from hw]

/-- In a bare context nothing is rendered. -/
theorem tied_of_bare (hw : w.settings = none) (t : Template) (x : EStateM Error World Value) :
    t.tied x w = .error (Error.of (Context.missing "template")) w := by
  have hbare : w.isBound = .error (Context.missing "template") := by
    unfold Context.isBound
    rw [hw]
  unfold tied
  rw [hbare]

/-- A free context is bound to the template and released again. -/
theorem tied_of_free (hw : w.settings = some b) (hfree : b.template = none) (t : Template)
    (x : EStateM Error World Value) : t.tied x w =
      match x { w with toContext := w.boundTo t } with
      | .ok v w' => .ok v { w' with toContext := w'.release }
      | .error e w' => .error e { w' with toContext := w'.release } := by
  have hisBound : w.isBound = .ok false := by
    unfold Context.isBound
    rw [hw]
    dsimp only
    rw [hfree]
    rfl
  obtain ⟨c, hbind, hnamed⟩ := Context.bind_of_free hw hfree t
  unfold tied
  rw [hisBound]
  dsimp only
  rw [hbind]
  dsimp only
  cases hx : x { w with toContext := w.boundTo t } <;> simp only [hnamed, hx]

/-- What is computed in a rendering is what the computation gives in a bound context. -/
theorem tied_of_ok (hw : w.settings = some b)
    (h : x { w with toContext := w.boundTo t } = .ok v w') :
    ∃ c, w'.MayRelease c ∧ t.tied x w = .ok v { w' with toContext := c } := by
  rcases w.bound_or_free hw with hbound | hfree
  · rw [tied_of_bound hbound]
    rw [Context.boundTo_of_bound hbound] at h
    exact ⟨w'.toContext, .same, h⟩
  · rw [tied_of_free hw hfree, h]
    exact ⟨w'.release, .released, rfl⟩

theorem tied_of_error (hw : w.settings = some b)
    (h : x { w with toContext := w.boundTo t } = .error e w') :
    ∃ c, w'.MayRelease c ∧ t.tied x w = .error e { w' with toContext := c } := by
  rcases w.bound_or_free hw with hbound | hfree
  · rw [tied_of_bound hbound]
    rw [Context.boundTo_of_bound hbound] at h
    exact ⟨w'.toContext, .same, h⟩
  · rw [tied_of_free hw hfree, h]
    exact ⟨w'.release, .released, rfl⟩

/-- **A rendering restores the context** if its run does: a context that was free is free again, one
that was bound is bound as before. -/
theorem tied_restores (hx : Restores x) : Restores (t.tied x) := by
  intro w
  cases hw : w.settings with
  | none =>
    rw [tied_of_bare hw]
    exact .refl _
  | some b =>
    rcases w.bound_or_free hw with hbound | hfree
    · rw [tied_of_bound hbound]
      exact hx w
    · have hkept := hx { w with toContext := w.boundTo t }
      have hrelease : ∀ {c : Context}, (w.boundTo t).Kept c → w.Kept c.release := by
        intro c hc
        refine ⟨hc.scopes, ?_⟩
        rw [Context.template?_release, hc.template]
        unfold Context.template? Context.boundTo
        rw [hw, ← hfree]
        rfl
      rw [tied_of_free hw hfree]
      cases hr : x { w with toContext := w.boundTo t } with
      | ok v w' =>
        rw [hr] at hkept
        exact hrelease hkept
      | error e w' =>
        rw [hr] at hkept
        exact hrelease hkept

section Render

variable {c : Context} {s : Store}

/-- **What a rendering gives** is what the template's program gives in a bound context. -/
theorem render_of_ok (hc : c.settings = some b)
    (h : runWithin maxLevels t b.autoescape ⟨c.boundTo t, s⟩ = .ok v w') :
    ∃ c', c'.scopes = w'.scopes ∧ t.render c s = (.ok v, c', w'.store) := by
  obtain ⟨c', hreleased, htied⟩ := tied_of_ok (w := ⟨c, s⟩) hc h
  refine ⟨c', hreleased.scopes, ?_⟩
  unfold render renderWithin
  rw [hc]
  dsimp only
  rw [htied]

theorem render_of_error (hc : c.settings = some b)
    (h : runWithin maxLevels t b.autoescape ⟨c.boundTo t, s⟩ = .error e w') :
    ∃ c', c'.scopes = w'.scopes ∧ t.render c s = (.error e, c', w'.store) := by
  obtain ⟨c', hreleased, htied⟩ := tied_of_error (w := ⟨c, s⟩) hc h
  refine ⟨c', hreleased.scopes, ?_⟩
  unfold render renderWithin
  rw [hc]
  dsimp only
  rw [htied]

/-- What a rendering leaves. -/
theorem render_behind (hc : c.settings = some b) :
    (t.render c s).2.1 = (World.behind (renderWithin maxLevels t b.autoescape ⟨c, s⟩)).toContext ∧
    (t.render c s).2.2 = (World.behind (renderWithin maxLevels t b.autoescape ⟨c, s⟩)).store := by
  unfold render
  rw [hc]
  dsimp only
  cases renderWithin maxLevels t b.autoescape ⟨c, s⟩ <;> exact ⟨rfl, rfl⟩

/-- The values and the layers that a rendering leaves are those that the program leaves. -/
theorem render_leaves (hc : c.settings = some b) :
    (t.render c s).2.1.scopes =
      (World.behind (runWithin maxLevels t b.autoescape ⟨c.boundTo t, s⟩)).scopes ∧
    (t.render c s).2.2 =
      (World.behind (runWithin maxLevels t b.autoescape ⟨c.boundTo t, s⟩)).store := by
  cases hr : runWithin maxLevels t b.autoescape ⟨c.boundTo t, s⟩ with
  | ok v w =>
    obtain ⟨c', hscopes, hrender⟩ := render_of_ok hc hr
    rw [hrender]
    exact ⟨hscopes, rfl⟩
  | error e w =>
    obtain ⟨c', hscopes, hrender⟩ := render_of_error hc hr
    rw [hrender]
    exact ⟨hscopes, rfl⟩

end Render
end Template
end TextTemplate
