/-
# A rendering restores the context

Whatever comes of a rendering, its output or an error in whatever loop or template inside, the
layers are the same afterwards, and the context is bound to the template that it was bound to
before, or to none.  In the root layer only names have changed that the programs write: the counters
of their cycles and the names of their serial numbers.

* `Template.Usual` says what a template is made of, `Template.Runs` which templates are run;
* `Program.Runnable` is what it takes to run a program beside itself, and `Program.run_like` says
  that such a run is like itself, so that the root layer is kept;
* `Usual.nestedLike` says so of the templates inside, by induction on how deep they lie;
* `Template.render_restores` is the whole rendering.

The whole of Mathlib is imported: the example is run by `cbv`, and the equations of the functions
that it goes through come from many of its parts.
-/
import Mathlib
import TextTemplate.Proofs.Compile.Serial
import TextTemplate.Proofs.Likeness.Methods
import TextTemplate.Proofs.Run.Layers

namespace TextTemplate

open Correspondence Likeness TextTemplate.Outcome

/-! ## 1. Templates of the usual tags -/

/-- The tags are the standard ones, and perhaps the one that renders a template inside. -/
def UsualTags (tags : Table Tag) : Prop :=
  ∀ name tag, tags.find? name = some tag → (∃ n, (n, tag) ∈ Tag.standard) ∨ tag = Tag.sub

namespace UsualTags

variable {tags : Table Tag}

theorem ordinary (h : UsualTags tags) : OrdinaryTags tags := by
  intro name tag hfind
  rcases h name tag hfind with ⟨n, hn⟩ | rfl
  · exact Tag.ordinary_standard hn
  · exact Tag.ordinary_sub

theorem sparing (h : UsualTags tags) : SparingTags tags := by
  intro name tag hfind
  rcases h name tag hfind with ⟨n, hn⟩ | rfl
  · exact Tag.sparing_standard hn
  · exact Tag.sparing_sub

theorem standard : UsualTags Tag.standard := fun name _ hfind =>
  .inl ⟨name, mem_of_lookup hfind⟩

/-- The tag that renders a template inside, added under any name. -/
theorem nesting (h : UsualTags tags) (name : String) : UsualTags (tags ++ [(name, Tag.sub)]) := by
  intro name' tag hfind
  unfold Table.find? at hfind
  rw [List.lookup_append] at hfind
  cases htag : tags.lookup name' with
  | some tag' =>
    rw [htag] at hfind
    cases hfind
    exact h name' tag htag
  | none =>
    rw [htag] at hfind
    exact .inr (Prod.mk.inj (List.mem_singleton.mp (mem_of_lookup hfind))).2

end UsualTags

/-- Where no value leads to the root layer, the filters do not change it, and they give no value
that leads to it. -/
def SparingFilters (filters : Table Filter) : Prop :=
  ∀ {s : Store} {c : Scopes} (h : c.Apart s) (since : Store) (writes : String → Prop),
    UniformFilters (h.likeness since writes) filters

theorem SparingFilters.standard : SparingFilters Filter.standard := fun _ _ _ =>
  uniformFilters_standard

namespace Template

/-- The template has been compiled with the usual tags and with filters that keep off the root
layer, and so are those that it renders in turn. -/
structure Usual (t : Template) : Prop where
  compiled : ∃ engine name source o s s', compile engine name source o s = .ok t s'
  tags : UsualTags t.grammar.tags
  filters : SparingFilters t.grammar.filters
  innerTags : UsualTags t.engine.grammar.tags
  innerFilters : SparingFilters t.engine.grammar.filters

/-- What an engine of the usual tags compiles is usual, if its filters keep off the root layer. -/
theorem Usual.of_compile {engine : Engine} (htags : UsualTags engine.grammar.tags)
    (hfilters : SparingFilters engine.grammar.filters) {t : Template} {name : Option String}
    {source : Value} {s s' : Store} (ht : compile engine name source .empty s = .ok t s') :
    t.Usual := by
  obtain ⟨hengine, hgrammar⟩ := grammar_of_compile ht
  exact
    { compiled := ⟨_, _, _, _, _, _, ht⟩
      tags := hgrammar ▸ htags
      filters := hgrammar ▸ hfilters
      innerTags := hengine ▸ htags
      innerFilters := hengine ▸ hfilters }

/-- What the standard engine compiles is usual. -/
theorem Usual.of_standard {t : Template} {name : Option String} {source : Value} {s s' : Store}
    (ht : compile .standard name source .empty s = .ok t s') :
    t.Usual ∧ t.grammar.tags = Tag.standard :=
  ⟨.of_compile UsualTags.standard SparingFilters.standard ht,
    congrArg Grammar.tags (grammar_of_compile ht).2⟩

/-- A template inside is of the same kind. -/
theorem Usual.inner {t u : Template} (ht : t.Usual) {v : Value} {s s' : Store}
    (hu : compile t.engine none v .empty s = .ok u s') : u.Usual :=
  .of_compile ht.innerTags ht.innerFilters hu

/-- Where a template is run in a world, within some levels, a template is run in a world: that one,
or one that is run where a template inside is, to whose source some steps have led. -/
inductive Runs (autoescape : Value) : Nat → Template → World → Nat → Template → World → Prop where
  | self (levels : Nat) (t : Template) (w : World) : Runs autoescape levels t w levels t w
  | inner {levels levels' place : Nat} {t u inner : Template} {w w' : World} {f : Frame}
      {i : Linked} {source : Expression} {v : Value} {s s' : Store}
      (steps : t.program.Reaches (t.environment autoescape (nestedWithin (levels + 1) t autoescape))
        0 ⟨w, [], [], []⟩ place f)
      (here : t.program.code[place]? = some i) (nested : i.instruction = .nested source)
      (value : source.resolve t.grammar.filters f.world.scopes f.world.store = .ok v s)
      (compiled : compile t.engine none v .empty s = .ok inner s')
      (runs : Runs autoescape levels inner ⟨f.world.boundTo inner, s'⟩ levels' u w') :
      Runs autoescape (levels + 1) t w levels' u w'

end Template

/-- The program writes a name in the root layer: it counts the turns of a cycle under it, or binds
a serial number to it. -/
inductive Program.Writes (p : Program) : String → Prop where
  | counter {i : Linked} {values : List Expression} {n : Nat} (here : i ∈ p.code)
      (cycle : i.instruction = .cycle values (Tag.cycleCounter n)) : Writes p (Tag.cycleCounter n)
  | serial {i : Linked} {name : String} {n : Int} (here : i ∈ p.code)
      (assign : i.instruction = .assign name (.int n)) : Writes p name

/-- The names that the templates write in the root layer which are run where one is. -/
def Template.Written (autoescape : Value) (levels : Nat) (t : Template) (w : World)
    (name : String) : Prop :=
  ∃ levels' u w', Runs autoescape levels t w levels' u w' ∧ u.program.Writes name

/-! ## 2. A program that is run beside itself -/

/-- What binds the names of a loop needs a layer. -/
theorem Instruction.needsLayer_of_binds {i : Instruction} (h : i.Binds) : i.NeedsLayer := by
  cases i <;> trivial

namespace Program

variable {L : Likeness} {R : L.Roots} {p : Program} {env : Environment} {level : Nat → Nat}
  {w : World}

/-- The program can be run beside itself: its places have levels, it reads and writes only what it
may, and what it finds around it is like itself and restores the scopes. -/
structure Runnable (R : L.Roots) (p : Program) (env : Environment) (level : Nat → Nat) :
    Prop where
  levels : p.HasLevels level
  within : ∀ i ∈ p.code, i.instruction.Within R
  environment : LikeEnvironment L env env
  restores : ∀ v, Restores (env.nested v)

/-- Where the program is run beside itself, what comes out of each template inside is like
itself. -/
def NestedLike (R : L.Roots) (p : Program) (env : Environment) (w : World) : Prop :=
  ∀ {place f i source}, p.Reaches env 0 ⟨w, [], [], []⟩ place f → p.code[place]? = some i →
    i.instruction = .nested source → LikeFrame R False f f → LikeNested R env env source f f

/-- **A step** leads from a state that is like itself to another one. -/
theorem step_like (hp : p.Runnable R env level) {place : Nat} {f : Frame} {i : Linked}
    (here : p.code[place]? = some i) {base : Scopes}
    (hlayers : base.Above (level place) f.world.scopes) (hf : LikeFrame R False f f)
    (hnested : ∀ source, i.instruction = .nested source → LikeNested R env env source f f) :
    SameRun R False Eq (i.step env place f) (i.step env place f) := by
  refine step_alike hp.environment (hp.within i (Array.mem_of_getElem? here)) place hf
    (fun hbinds => ?_) hnested
  have hinside := hp.levels.inside here (Instruction.needsLayer_of_binds hbinds)
  obtain ⟨layer, rest, hpushed, -⟩ := hlayers.exists_layer hinside
  exact .inl (hpushed ▸ List.cons_ne_nil layer rest)

/-- **The states that a run reaches** are like themselves. -/
theorem reached_like (hp : p.Runnable R env level) (hnested : p.NestedLike R env w)
    (hw : LikeWorld R w w) {place : Nat} {f : Frame}
    (steps : p.Reaches env 0 ⟨w, [], [], []⟩ place f) :
    LikeFrame R False f f ∧ w.Above (level place) f.world.toContext := by
  have habove : w.Above (level 0) w.toContext := hp.levels.above_start w.toContext
  refine ⟨?_, steps.above hp.levels hp.restores habove⟩
  generalize hf₀ : (⟨w, [], [], []⟩ : Frame) = f₀, h₀ : (0 : Nat) = start at steps
  induction steps with
  | refl =>
    subst hf₀
    exact ⟨hw, .nil, .nil, rfl, False.elim⟩
  | tail steps here step ih =>
    subst hf₀ h₀
    have hf := ih rfl
    have hr := step_like hp here (steps.above hp.levels hp.restores habove).scopes hf
      fun source hi => hnested steps here hi hf
    rw [step] at hr
    cases hr with
    | ok frame _ => exact frame

/-- **A run** comes to an end that is like itself. -/
theorem run_like (hp : p.Runnable R env level) (hnested : p.NestedLike R env w)
    (hw : LikeWorld R w w) : SameWorld R L.Like (p.run env w) (p.run env w) := by
  have hreached : ∀ {place f}, p.Reaches env 0 ⟨w, [], [], []⟩ place f →
      LikeFrame R False f f ∧ w.Above (level place) f.world.toContext :=
    reached_like hp hnested hw
  have hclose : ∀ {f}, LikeFrame R False f f → LikeWorld R
      { f.world with scopes := f.world.scopes.unwind w.scopes.depth }
      { f.world with scopes := f.world.scopes.unwind w.scopes.depth } := fun hf =>
    { hf.world with scopes := unwind_alike hf.world.scopes rfl }
  have hends := p.runFrom_ends env spareSteps 0 ⟨w, [], [], []⟩
  unfold Program.run
  dsimp only
  generalize p.runFrom env spareSteps 0 ⟨w, [], [], []⟩ = r at hends
  cases hends with
  | spent steps => exact .error (hclose (hreached steps).1) (.of (.closed trivial))
  | fails steps here step =>
    obtain ⟨hf, hlayers⟩ := hreached steps
    have hr := step_like hp here hlayers.scopes hf fun source hi => hnested steps here hi hf
    rw [step] at hr
    cases hr with
    | error frame like => exact .error (hclose frame) like
  | done steps =>
    have hf := (hreached steps).1
    dsimp only
    split
    · exact .ok (hclose hf) (.markup _)
    · rename_i cause hcause
      exact .error (hclose hf) (.of (.closed (joinOutput_closed _ hcause)))

end Program

/-! ## 3. Templates that are run beside themselves -/

/-- What is like itself stays so where only the next serial number is another one. -/
theorem Scopes.Apart.holds_of_sameValues {s since : Store} {c : Scopes} (h : c.Apart s)
    {writes : String → Prop} {s₁ s₂ : Store} (hs : (h.likeness since writes).Holds s₁ s₁)
    (hsame : s₁.SameValues s₂) : (h.likeness since writes).Holds s₂ s₂ := by
  obtain ⟨-, hlists, hdicts, hkept⟩ := hs.rest
  unfold Store.SameValues at hsame
  rw [hsame]
  exact
    { lists := hs.lists
      tuples := hs.tuples
      dicts := hs.dicts
      objects := hs.objects
      identities := hs.identities
      depth := rfl
      rest := ⟨rfl, hlists, hdicts, ⟨hkept.mapping, hkept.list⟩⟩ }

namespace Template

theorem Impersonal.closed {e : Error} (h : Impersonal e) : e.cause.Closed := by
  rcases h with ⟨fault, h⟩ | ⟨fault, h⟩
  · rw [h]
    trivial
  · rw [h]
    trivial

/-- A template that lies too deep is refused alike. -/
theorem refuse_alike {L : Likeness} (t : Template) {v v' : Value} (hv : L.Like v v') :
    L.Alike L.Like (t.refuse v) (t.refuse v') := by
  unfold refuse
  refine (text_alike hv).bind ?_
  rintro text _ rfl
  refine .throw ⟨?_, rfl, rfl⟩
  rw [Assembly.cause_at?]
  exact .closed trivial

/-- A computation on values is like itself in worlds too. -/
theorem inWorld_like {L : Likeness} {R : L.Roots} {α : Type} {P : α → α → Prop} {x : Eval α}
    (hx : L.Alike P x x) {w : World} (hw : LikeWorld R w w) :
    SameWorld R P (inWorld x w) (inWorld x w) := by
  have hr := hx _ _ hw.store
  unfold inWorld
  generalize x w.store = r at hr
  cases hr with
  | ok holds like => exact .ok { hw with store := holds } like
  | error holds like => exact .error { hw with store := holds } like

section Runs

variable {s since : Store} {c : Scopes} {writes : String → Prop} {autoescape : Value}
  {t u : Template} {w w' : World} {levels levels' : Nat}

/-- The instructions of a usual template read and write only what they may. -/
theorem Usual.within (ht : t.Usual) (h : c.Apart s)
    (hwrites : ∀ name, t.program.Writes name → writes name) :
    ∀ i ∈ t.program.code, i.instruction.Within (h.roots since writes) := by
  obtain ⟨engine, name, source, o, s₀, s₁, hcompiled⟩ := ht.compiled
  have hemitted := emitted hcompiled ht.tags.ordinary
  intro i hi
  have hmem : i.instruction ∈ t.program.code.toList.map (·.instruction) :=
    List.mem_map_of_mem hi.val
  refine ⟨fun e _ => h.within e, fun values counter hcycle => ?_, fun name v hassign => ?_⟩
  · obtain ⟨-, n, rfl⟩ := hemitted.counted _ hmem values counter hcycle
    exact ⟨.text _, hwrites _ (.counter hi hcycle)⟩
  · obtain ⟨n, rfl⟩ := hemitted.assigned _ hmem name v hassign
    exact ⟨hwrites _ (.serial hi hassign), .int n⟩

/-- A usual template restores the context, and so do the templates inside. -/
theorem Usual.restores (ht : t.Usual) (levels : Nat) (autoescape : Value) :
    Restores (runWithin levels t autoescape) := by
  obtain ⟨engine, name, source, o, s₀, s₁, hcompiled⟩ := ht.compiled
  exact restores_runWithin levels hcompiled ht.tags.ordinary ht.innerTags.ordinary autoescape

/-- What renders a template inside restores the context. -/
theorem Usual.restores_nestedWithin (ht : t.Usual) (levels : Nat) (autoescape v : Value) :
    Restores (nestedWithin levels t autoescape v) := by
  cases levels with
  | zero => exact restores_inWorld _
  | succ levels =>
    refine .bind (restores_inWorld _) fun w inner w' hinner => ?_
    obtain ⟨s', hcompile, -⟩ := eq_ok_of_inWorld hinner
    exact tied_restores ((ht.inner hcompile).restores levels autoescape) w'

/-- **The program of a usual template can be run beside itself.** -/
theorem Usual.runnable (ht : t.Usual) (h : c.Apart s)
    (hwrites : ∀ name, t.program.Writes name → writes name) : ∃ level,
      t.program.Runnable (h.roots since writes)
        (t.environment autoescape (nestedWithin levels t autoescape)) level := by
  obtain ⟨engine, name, source, o, s₀, s₁, hcompiled⟩ := ht.compiled
  obtain ⟨s₂, compilation, hp, -, -⟩ := program_of_compile hcompiled
  exact ⟨_,
    { levels := Compile.hasLevels_of_program ht.tags.ordinary hp
      within := ht.within h hwrites
      environment := environment_alike t (ht.filters h since writes)
        (fun _ _ hs => by rw [h.store_eq hs]) _ _
      restores := ht.restores_nestedWithin levels autoescape }⟩

/-- A template inside that does not compile. -/
theorem nestedWithin_of_error {v : Value} {s' : Store} {e : Error}
    (h : compile t.engine none v .empty w.store = .error e s') :
    nestedWithin (levels + 1) t autoescape v w = .error e { w with store := s' } :=
  bind_of_error (inWorld_of_error h)

/-- A template inside that compiles is rendered. -/
theorem nestedWithin_of_ok {v : Value} {s' : Store} {inner : Template}
    (h : compile t.engine none v .empty w.store = .ok inner s') :
    nestedWithin (levels + 1) t autoescape v w =
      renderWithin levels inner autoescape { w with store := s' } :=
  bind_of_ok (inWorld_of_ok h)

/-- A template whose renderings inside are like themselves is run beside itself. -/
theorem Usual.runWithin_like_of_nested (ht : t.Usual) (h : c.Apart s)
    (hw : LikeWorld (h.roots since writes) w w)
    (hwrites : ∀ name, t.program.Writes name → writes name)
    (hnested : t.program.NestedLike (h.roots since writes)
      (t.environment autoescape (nestedWithin levels t autoescape)) w) :
    SameWorld (h.roots since writes) (h.likeness since writes).Like
      (runWithin levels t autoescape w) (runWithin levels t autoescape w) := by
  obtain ⟨level, hp⟩ := ht.runnable h hwrites
  rw [runWithin_eq]
  exact Program.run_like hp hnested hw

theorem Written.self {name : String} (h : t.program.Writes name) :
    Written autoescape levels t w name := ⟨levels, t, w, .self .., h⟩

/-- **What is rendered inside is like itself**, over a root layer that no value leads to, if each
template that is compiled there has a run like itself. -/
theorem Usual.likeNested_of_inner (ht : t.Usual) (h : c.Apart s) {f : Frame} {source : Expression}
    (hf : LikeFrame (h.roots since writes) False f f)
    (hinner : ∀ {v s₁ inner s₂ levels'},
      source.resolve t.grammar.filters f.world.scopes f.world.store = .ok v s₁ →
      compile t.engine none v .empty s₁ = .ok inner s₂ → levels = levels' + 1 → inner.Usual →
      LikeWorld (h.roots since writes) ⟨f.world.boundTo inner, s₂⟩ ⟨f.world.boundTo inner, s₂⟩ →
      SameWorld (h.roots since writes) (h.likeness since writes).Like
        (runWithin levels' inner autoescape ⟨f.world.boundTo inner, s₂⟩)
        (runWithin levels' inner autoescape ⟨f.world.boundTo inner, s₂⟩)) :
    LikeNested (h.roots since writes) (t.environment autoescape (nestedWithin levels t autoescape))
      (t.environment autoescape (nestedWithin levels t autoescape)) source f f := by
  intro v v' s₁ s₁' hv hv' hlike hs
  cases hv.symm.trans hv'
  have hgives : (t.environment autoescape (nestedWithin levels t autoescape)).nested v =
      nestedWithin levels t autoescape v := rfl
  rw [hgives]
  cases levels with
  | zero => exact inWorld_like (refuse_alike t hlike) { hf.world with store := hs }
  | succ levels =>
    have hspared := compile_spares ht.innerTags.sparing none v s₁
    cases hcompile : compile t.engine none v .empty s₁ with
    | error e s₂ =>
      rw [hcompile] at hspared
      rw [nestedWithin_of_error (w := { f.world with store := s₁ }) hcompile]
      exact .error { hf.world with store := h.holds_of_sameValues hs hspared.1 }
        ⟨.closed hspared.2.closed, rfl, rfl⟩
    | ok inner s₂ =>
      rw [hcompile] at hspared
      rw [nestedWithin_of_ok (w := { f.world with store := s₁ }) hcompile]
      have hworld : LikeWorld (h.roots since writes) { f.world with store := s₂ }
          { f.world with store := s₂ } :=
        { hf.world with store := h.holds_of_sameValues hs hspared }
      exact tied_alike hworld (hinner hv hcompile rfl (ht.inner hcompile) (hworld.boundTo inner))

/-- **Templates inside are run beside themselves**, over a root layer that no value leads to, if no
other names are written there than may be. -/
theorem Usual.nestedLike (ht : t.Usual) (h : c.Apart s)
    (hw : LikeWorld (h.roots since writes) w w)
    (hwrites : ∀ name, Written autoescape levels t w name → writes name) :
    t.program.NestedLike (h.roots since writes)
      (t.environment autoescape (nestedWithin levels t autoescape)) w := by
  induction levels generalizing t w with
  | zero =>
    intro place f i source _ _ _ hf
    exact ht.likeNested_of_inner h hf fun _ _ hlevels => by cases hlevels
  | succ levels ih =>
    intro place f i source steps here hi hf
    refine ht.likeNested_of_inner h hf ?_
    rintro v s₁ inner s₂ _ hv hcompile ⟨⟩ husual hworld
    have hinner : ∀ name, Written autoescape levels inner ⟨f.world.boundTo inner, s₂⟩ name →
        writes name := by
      rintro name ⟨levels', u, w', hu, hname⟩
      exact hwrites name ⟨levels', u, w', .inner steps here hi hv hcompile hu, hname⟩
    exact husual.runWithin_like_of_nested h hworld
      (fun name hname => hinner name (.self hname)) (ih husual hworld hinner)

/-- **A run of a template is like itself.** -/
theorem Usual.runWithin_like (ht : t.Usual) (h : c.Apart s)
    (hw : LikeWorld (h.roots since writes) w w)
    (hwrites : ∀ name, Written autoescape levels t w name → writes name) :
    SameWorld (h.roots since writes) (h.likeness since writes).Like
      (runWithin levels t autoescape w) (runWithin levels t autoescape w) :=
  ht.runWithin_like_of_nested h hw (fun name hname => hwrites name (.self hname))
    (ht.nestedLike h hw hwrites)

/-- **The worlds in which templates are run** inside a run that is like itself are like themselves
too, and the templates are usual ones.  If the context is bound, it is bound there too. -/
theorem Usual.like_of_runs (ht : t.Usual) (h : c.Apart s)
    (hw : LikeWorld (h.roots since writes) w w)
    (hwrites : ∀ name, Written autoescape levels t w name → writes name)
    (hu : Runs autoescape levels t w levels' u w') :
    u.Usual ∧ LikeWorld (h.roots since writes) w' w' ∧ (w.Bound → w'.Bound) := by
  induction hu with
  | self => exact ⟨ht, hw, id⟩
  | @inner levels levels' place t u inner w w' f i source v s₁ s₂ steps here hi hv hcompile hu ih =>
    obtain ⟨level, hp⟩ := ht.runnable h fun name hname => hwrites name (.self hname)
    obtain ⟨hf, habove⟩ := Program.reached_like hp (ht.nestedLike h hw hwrites) hw steps
    have hvalue := expression_alike (ht.filters h since writes) hf.world.scopes (h.within source)
      _ _ hf.world.store
    rw [hv] at hvalue
    have hspared := compile_spares ht.innerTags.sparing none v s₁
    rw [hcompile] at hspared
    cases hvalue with
    | ok hs _ =>
      have hworld : LikeWorld (h.roots since writes) { f.world with store := s₂ }
          { f.world with store := s₂ } :=
        { hf.world with store := h.holds_of_sameValues hs hspared }
      have hinner : ∀ name, Written autoescape levels inner ⟨f.world.boundTo inner, s₂⟩ name →
          writes name := by
        rintro name ⟨l, x, y, hx, hname⟩
        exact hwrites name ⟨l, x, y, .inner steps here hi hv hcompile hx, hname⟩
      obtain ⟨husual, hlike, hbound⟩ := ih (ht.inner hcompile) (hworld.boundTo inner) hinner
      refine ⟨husual, hlike, fun hw => hbound ?_⟩
      have hf : f.world.Bound := hw.of_template habove.template
      exact (Context.boundTo_of_bound hf inner).symm ▸ hf

/-! ## 4. Renderings -/

/-- A rendering in a world leaves the layers as they are, and the context is bound to the template
that it was bound to, or to none.  In the root layer no other names change than those that are
written by the templates which are run there. -/
structure Restored (autoescape : Value) (levels : Nat) (t : Template) (w : World) : Prop
    extends w.Kept (World.behind (renderWithin levels t autoescape w)).toContext where
  root : RootKept (Written autoescape levels t w) w.scopes.root w.store
    (World.behind (renderWithin levels t autoescape w)).store

/-- **Every rendering restores the context**, the outermost one and those inside. -/
theorem Usual.restored_of_runs (ht : t.Usual) (h : w.scopes.Apart w.store) (hbound : w.Bound)
    (hu : Runs autoescape levels t w levels' u w') : Restored autoescape levels' u w' := by
  obtain ⟨husual, hworld, hbound'⟩ := ht.like_of_runs h (h.likeWorld _) (fun _ hname => hname) hu
  have hroot : w'.scopes.root = w.scopes.root := hworld.scopes.root
  refine { toKept := tied_restores (husual.restores levels' autoescape) w', root := ?_ }
  have hr := husual.runWithin_like h (h.likeWorld_from hworld (Written autoescape levels' u w'))
    fun _ hname => hname
  unfold renderWithin
  rw [hroot, tied_of_bound (hbound' hbound)]
  generalize runWithin levels' u autoescape w' = r at hr ⊢
  cases hr with
  | ok world _ => exact world.store.rest.2.2.2
  | error world _ => exact world.store.rest.2.2.2

end Runs

/-- **A rendering restores the context**, whether it gives output or fails.  Take a template of the
usual tags and a context with any layers pushed, free or bound to a template, in which the methods
of the values that names lead to do not themselves change a layer.  Behind the rendering there are
the same layers, and the context is bound to the template that it was bound to before, or to none.
In the root layer there have changed no other names than the counters of the cycles and the names of
the serial numbers in the templates that were run.  All this is so of each template that was
rendered inside. -/
theorem render_restores {t : Template} (ht : t.Usual) {c : Context} {s : Store}
    (hrooted : c.scopes.Rooted s) (hmethods : c.scopes.Undisturbed s) :
    (t.render c s).2.1.scopes = c.scopes ∧
    (t.render c s).2.1.settings.map (·.template) = c.settings.map (·.template) ∧
    RootKept (fun name => ∃ b, c.settings = some b ∧
        Written b.autoescape maxLevels t ⟨c.boundTo t, s⟩ name)
      c.scopes.root s (t.render c s).2.2 ∧
    ∀ b, c.settings = some b → ∀ levels u w,
      Runs b.autoescape maxLevels t ⟨c.boundTo t, s⟩ levels u w →
        Restored b.autoescape levels u w := by
  have h : c.scopes.Apart s := hmethods.apart hrooted
  cases hc : c.settings with
  | none =>
    have hrender : t.render c s = (.error (Error.of (Context.missing "template")), c, s) := by
      unfold render
      rw [hc]
    rw [hrender, hc]
    exact ⟨rfl, rfl, ⟨fun _ _ _ _ => rfl, fun _ _ => rfl⟩, fun b hb => nomatch hb⟩
  | some b =>
    have hbound : (c.boundTo t).Bound := Context.bound_boundTo hc t
    have hrestored : Restored b.autoescape maxLevels t ⟨c.boundTo t, s⟩ :=
      ht.restored_of_runs h hbound (.self maxLevels t _)
    have hroot := hrestored.root
    unfold renderWithin at hroot
    rw [tied_of_bound hbound] at hroot
    have hkept := tied_restores (t := t) (ht.restores maxLevels b.autoescape) ⟨c, s⟩
    rw [(render_behind hc).1, (render_leaves hc).2, ← hc]
    refine ⟨hkept.scopes, hkept.template, ?_, ?_⟩
    · exact ⟨fun r hr k hk => hroot.mapping r hr k fun name hname =>
        hk name ⟨b, hc, hname⟩, hroot.list⟩
    · intro b' hb' levels u w hu
      cases hc.symm.trans hb'
      exact ht.restored_of_runs h hbound hu

/-- The standard engine with the tag that renders a template inside. -/
def nestingEngine : Engine :=
  { Engine.standard with
    grammar := { Grammar.standard with tags := Tag.standard ++ [("sub", Tag.sub)] } }

/-- A store with a list and a mapping in which `x` is the list and `y` is the source of a template
that fails in a loop. -/
def failingStore : Store :=
  { Store.empty with
    lists := #[[.plain "a", .plain "b"]]
    dicts := #[.ofBindings [("x", .list 0),
      ("y", .plain "\x7b% for b in x %\x7d\x7b\x7b b|unknown \x7d\x7d\x7b% endfor %\x7d")]] }

/-- Scopes over the mapping with a layer that binds `z`. -/
def pushedScopes : Scopes := ⟨.dict 0, [.ofBindings [("z", .int 1)]]⟩

/-- The mapping is held nowhere in the store. -/
theorem pushedScopes_apart : pushedScopes.Apart failingStore :=
  .of_unheld rfl (by decide) (by decide) (by decide) (by decide) rfl (by decide)

/-- A context over these scopes that is free. -/
def freeContext : Context := ⟨pushedScopes, some ⟨.bool true, none, none⟩⟩

/-- The source of a loop with a cycle and with a template inside. -/
def nestingSource : Value :=
  .plain "\x7b% for a in x %\x7d\x7b% cycle a z %\x7d\x7b% sub y %\x7d\x7b% endfor %\x7d"

/-- The template inside fails in its loop, in the first round of the loop around it.  The layers are
restored, the context is free again, and in the root layer there is the counter of the cycle. -/
theorem render_restores_nested : ∃ t s₁,
    compile nestingEngine none nestingSource .empty .empty = .ok t s₁ ∧
    t.Usual ∧ freeContext.scopes.Rooted failingStore ∧
    freeContext.scopes.Undisturbed failingStore ∧
    (t.render freeContext failingStore).1.toOption = none ∧
    (t.render freeContext failingStore).2.1.scopes = pushedScopes ∧
    (t.render freeContext failingStore).2.1.settings.map (·.template) = some none ∧
    (failingStore.dict 0).find? (.text (Tag.cycleCounter 0)) = none ∧
    ((t.render freeContext failingStore).2.2.dict 0).find? (.text (Tag.cycleCounter 0)) =
      some (.int 1) ∧
    RootKept (Written (.bool true) maxLevels t ⟨freeContext.boundTo t, failingStore⟩) (.dict 0)
      failingStore (t.render freeContext failingStore).2.2 := by
  have hrun : ((compile nestingEngine none nestingSource .empty).run' .empty).map (fun t =>
      ((t.render freeContext failingStore).1.toOption,
        ((t.render freeContext failingStore).2.2.dict 0).find? (.text (Tag.cycleCounter 0)))) =
      some (none, some (.int 1)) := by cbv
  obtain ⟨t, s₁, hc, hrun⟩ := exists_of_run' hrun
  obtain ⟨hfails, hcounter⟩ := Prod.mk.inj hrun
  have ht : t.Usual := .of_compile (UsualTags.standard.nesting "sub") SparingFilters.standard hc
  have hrooted : freeContext.scopes.Rooted failingStore := pushedScopes_apart.rooted
  have hmethods : freeContext.scopes.Undisturbed failingStore := pushedScopes_apart.undisturbed
  obtain ⟨hscopes, hbound, hroot, -⟩ := render_restores ht (c := freeContext) hrooted hmethods
  refine ⟨t, s₁, hc, ht, hrooted, hmethods, hfails, hscopes, hbound, by decide, hcounter, ?_⟩
  refine ⟨fun r hr k hk => hroot.mapping r hr k ?_, hroot.list⟩
  rintro name ⟨_, ⟨⟩, hname⟩
  exact hk name hname

end Template
end TextTemplate
