/-
# A run leaves the context alone that it finds

A run finds some layers of names and pushes others above them.  It binds names only in layers of
its own, and it never takes away one that it has found: at each place it has as many layers of its
own as the level of the place says.  So the layers are the same again when it ends, also when it
fails, in whatever loop that may be.  Nor does it bind or release the context.

* `Scopes.Above` says how many layers there are above those that were found, and `Context.Above`
  says so of a context that has kept its template;
* `Run.Stays` says that a computation inside a run keeps to a level, `execute_behind` is the case of
  each instruction and `runFrom_behind` a whole run;
* `Program.restores_run` and `Template.restores_runWithin` say that the context is restored.
-/
import TextTemplate.Proofs.Compile.Levels
import TextTemplate.Proofs.Run.Contexts
import TextTemplate.Proofs.Run.Frames

namespace TextTemplate

open TextTemplate.Outcome

/-! ## 1. Layers above others -/

/-- There are `n` layers above the ones that were found, and the root is the one that was found. -/
structure Scopes.Above (base : Scopes) (n : Nat) (c : Scopes) : Prop where
  root : c.root = base.root
  pushed : ∃ inner : List Dict, c.pushed = inner ++ base.pushed ∧ inner.length = n

namespace Scopes.Above

variable {base c : Scopes} {n : Nat}

theorem refl (c : Scopes) : c.Above 0 c := ⟨rfl, [], rfl, rfl⟩

theorem push (h : base.Above n c) (layer : Dict) : base.Above (n + 1) (c.push layer) := by
  obtain ⟨inner, hpushed, hlength⟩ := h.pushed
  exact ⟨h.root, layer :: inner, congrArg (layer :: ·) hpushed, congrArg (· + 1) hlength⟩

/-- While there are layers above, one of them is the innermost layer. -/
theorem exists_layer (h : base.Above n c) (hn : 0 < n) :
    ∃ layer rest, c.pushed = layer :: rest ∧ base.Above (n - 1) { c with pushed := rest } := by
  obtain ⟨inner, hpushed, rfl⟩ := h.pushed
  cases inner with
  | nil => exact absurd hn (Nat.lt_irrefl 0)
  | cons layer inner => exact ⟨layer, _, hpushed, h.root, inner, rfl, rfl⟩

/-- A name is written in a layer above. -/
theorem write (h : base.Above n c) (hn : 0 < n) {name v : Value} {s s' : Store} {c' : Scopes}
    (hw : c.write name v s = .ok c' s') : base.Above n c' := by
  obtain ⟨layer, rest, hpushed, hrest⟩ := h.exists_layer hn
  unfold Scopes.write at hw
  rw [hpushed] at hw
  dsimp only at hw
  rw [bind_of_ok (get_apply s)] at hw
  cases hk : s.key? name with
  | error type => rw [hk] at hw; cases hw
  | ok k =>
    rw [hk] at hw
    cases hw
    have habove := hrest.push (layer.insert k name v)
    rwa [Nat.sub_add_cancel hn] at habove

/-- Dropping the layers above leaves what was found. -/
theorem unwind (h : base.Above n c) : c.unwind base.depth = base := by
  obtain ⟨inner, hpushed, -⟩ := h.pushed
  have hinner : c.pushed.length - (max base.depth 2 - 2) = inner.length := by
    rw [hpushed, List.length_append]
    unfold Scopes.depth
    omega
  have hunwind : c.unwind base.depth = ⟨c.root, c.pushed.drop inner.length⟩ := by
    unfold Scopes.unwind
    rw [hinner]
  rw [hunwind, hpushed, List.drop_left, h.root]

end Scopes.Above

/-- There are `n` layers above those of a context, and it has kept its template. -/
structure Context.Above (base : Context) (n : Nat) (c : Context) : Prop where
  scopes : base.scopes.Above n c.scopes
  template : c.template? = base.template?

/-! ## 2. Computations inside a run -/

/-- Behind a computation there are `n` layers above those that were found, and the result has a
property; if it has failed, there may be any number of them. -/
def Context.Behind {α : Type} (base : Context) (n : Nat) (Q : α → Prop) :
    EStateM.Result Error Frame α → Prop
  | .ok a f => base.Above n f.world.toContext ∧ Q a
  | .error _ f => ∃ m, base.Above m f.world.toContext

/-- A computation inside a run leaves as many layers as there were above those that were found, and
the template. -/
def Run.Stays {α : Type} (base : Context) (n : Nat) (x : Run α) (Q : α → Prop) : Prop :=
  ∀ f, base.Above n f.world.toContext → base.Behind n Q (x f)

namespace Run.Stays

variable {base : Context} {c : Scopes} {n : Nat} {α β : Type} {x : Run α} {g : α → Run β}
  {Q : α → Prop} {P : β → Prop}

theorem pure {a : α} (h : Q a) : Stays base n (Pure.pure a) Q := fun _ hf => ⟨hf, h⟩

theorem bind (hx : Stays base n x Q) (hg : ∀ a, Q a → Stays base n (g a) P) :
    Stays base n (x >>= g) P := by
  intro f hf
  have hr := hx f hf
  cases hxf : x f with
  | error e f' =>
    rw [hxf] at hr
    rw [bind_of_error hxf]
    exact hr
  | ok a f' =>
    rw [hxf] at hr
    rw [bind_of_ok hxf]
    exact hg a hr.2 f' hr.1

theorem get :
    Stays base n (MonadState.get : Run Frame) fun f => base.Above n f.world.toContext :=
  fun _ hf => ⟨hf, hf⟩

/-- A change of the state that leaves the context. -/
theorem change {h : Frame → Frame} (hcontext : ∀ f, (h f).world.toContext = f.world.toContext) :
    Stays base n (modify h) fun _ => True := by
  intro f hf
  refine ⟨?_, trivial⟩
  rw [hcontext]
  exact hf

/-- A computation on values leaves the context. -/
theorem eval (y : Eval α) : Stays base n (Run.eval y) fun _ => True := by
  intro f hf
  unfold Run.eval
  cases y f.world.store with
  | ok a s => exact ⟨hf, trivial⟩
  | error e s => exact ⟨n, hf⟩

/-- What fails leaves the context. -/
theorem fail (cause : Cause) : Stays base n (Run.eval (Eval.fail cause) : Run α) Q :=
  fun _ hf => ⟨n, hf⟩

theorem scopes : Stays base n Run.scopes fun c => base.scopes.Above n c :=
  .bind .get fun _ h => .pure h.scopes

theorem setScopes (hc : base.scopes.Above n c) : Stays base n (Run.setScopes c) fun _ => True :=
  fun _ hf => ⟨⟨hc, hf.template⟩, trivial⟩

theorem write (v : Value) : Stays base n (Run.write v) fun _ => True := .change fun _ => rfl

/-- A name is bound in a layer above. -/
theorem bindName (hn : 0 < n) (name : String) (v : Value) :
    Stays base n (Run.bind name v) fun _ => True := by
  have hwrite : ∀ c, base.scopes.Above n c →
      Stays base n (Run.eval (c.write (.plain name) v)) fun c' => base.scopes.Above n c' := by
    intro c hc f hf
    unfold Run.eval
    cases hw : c.write (.plain name) v f.world.store with
    | ok c' s => exact ⟨hf, hc.write hn hw⟩
    | error e s => exact ⟨n, hf⟩
  exact .bind .scopes fun c hc => .bind (hwrite c hc) fun c' hc' => .setScopes hc'

/-- The names of a loop are bound in a layer above. -/
theorem bindItem (hn : 0 < n) (names : List String) (item : LoopItem) :
    Stays base n (Run.bindItem names item) fun _ => True := by
  have hpair : ∀ key value, Stays base n (Run.bindPair names key value) fun _ => True := by
    intro key value
    unfold Run.bindPair
    split
    · exact .eval _
    · exact .bindName hn _ _
    · exact .bind (.bindName hn _ _) fun _ _ => .bindName hn _ _
  cases item with
  | pair key value => exact hpair key value
  | packed v => exact .bind (.eval _) fun p _ => hpair p.1 p.2

/-- A computation on the world that restores the context. -/
theorem inWorld {y : EStateM Error World α} (hy : Restores y) :
    Stays base n (Run.inWorld y) fun _ => True := by
  intro f hf
  have hkept := hy f.world
  have habove : ∀ {c : Context}, f.world.Kept c → base.Above n c := fun hc =>
    ⟨hc.scopes.symm ▸ hf.scopes, hc.template.trans hf.template⟩
  unfold Run.inWorld
  cases hw : y f.world with
  | ok a w' =>
    rw [hw] at hkept
    exact ⟨habove hkept, trivial⟩
  | error e w' =>
    rw [hw] at hkept
    exact ⟨n, habove hkept⟩

end Run.Stays

/-! ## 3. Instructions -/

section Instructions

variable {base : Context} {n : Nat} {env : Environment} {i : Linked}

/-- What an instruction may give: it goes on behind itself, or jumps to its target. -/
def Linked.MayGive (i : Linked) (target : Option Nat) : Prop := target = none ∨ target = i.target

/-- **Carrying out an instruction** that neither adds a layer nor takes one away. -/
theorem Linked.execute_stays (hnested : ∀ v, Restores (env.nested v))
    (hpush : i.instruction ≠ .pushScope) (hpop : i.instruction ≠ .popScope)
    (hn : i.instruction.NeedsLayer → 0 < n) (place : Nat) :
    Run.Stays base n (i.execute env place) i.MayGive := by
  have hnext : Run.Stays base n (Pure.pure none) i.MayGive := .pure (.inl rfl)
  have hjump : Run.Stays base n (Pure.pure i.target) i.MayGive := .pure (.inr rfl)
  unfold Linked.execute
  cases hins : i.instruction with
  | literal text => exact .bind (.write _) fun _ _ => hnext
  | expression e =>
    exact .bind .scopes fun c _ => .bind (.eval _) fun v _ => .bind (.write v) fun _ _ => hnext
  | pushScope => exact absurd hins hpush
  | popScope => exact absurd hins hpop
  | branch condition chained =>
    refine .bind .scopes fun c _ => .bind .get fun f _ => .bind (.eval _) fun holds _ => ?_
    cases holds with
    | true => exact hnext
    | false => exact hjump
  | otherwise => exact hjump
  | skip => exact hjump
  | loopStart sequence names =>
    have hlayer : 0 < n := hn (hins ▸ trivial)
    refine .bind .scopes fun c _ => .bind (.eval _) fun items _ => ?_
    cases items with
    | nil => exact hjump
    | cons item rest =>
      exact .bind (.change fun _ => rfl) fun _ _ => .bind (.bindItem hlayer names item) fun _ _ =>
        hnext
  | loopNext =>
    have hlayer : 0 < n := hn (hins ▸ trivial)
    refine .bind .get fun f _ => ?_
    split
    · exact .fail _
    · split
      · exact .bind (.change fun _ => rfl) fun _ _ => hnext
      · exact .bind (.change fun _ => rfl) fun _ _ => .bind (.bindItem hlayer _ _) fun _ _ => hjump
  | setFlag name => exact .bind (.change fun _ => rfl) fun _ _ => hnext
  | clearFlag name => exact .bind (.change fun _ => rfl) fun _ _ => hnext
  | cycle values counter =>
    exact .bind (.bind .scopes fun c _ => .bind (.eval _) fun v _ => .write v) fun _ _ => hnext
  | assign name v => exact .bind .scopes fun c _ => .bind (.eval _) fun _ _ => hnext
  | nested source =>
    exact .bind .scopes fun c _ => .bind (.eval _) fun v _ =>
      .bind (.inWorld (hnested v)) fun u _ => .bind (.write u) fun _ _ => hnext
  | endBranch => exact hnext
  | endSkip => exact hnext
  | noop => exact hnext

/-- Behind a step there are as many layers as the level of the place says where the run goes on. -/
def StepBehind (base : Context) (level : Nat → Nat) : EStateM.Result Error Frame Nat → Prop
  | .ok next f => base.Above (level next) f.world.toContext
  | .error _ f => ∃ m, base.Above m f.world.toContext

theorem Linked.step_pushScope (hi : i.instruction = .pushScope) (place : Nat) (f : Frame) :
    i.step env place f = .ok (place + 1)
      { f with world := { f.world with scopes := f.world.scopes.push [] } } := by
  unfold Linked.step Linked.execute
  rw [hi]
  rfl

theorem Linked.step_popScope (hi : i.instruction = .popScope) (place : Nat) {f : Frame}
    {layer : Dict} {rest : List Dict} (hpushed : f.world.scopes.pushed = layer :: rest) :
    i.step env place f = .ok (place + 1)
      { f with world := { f.world with scopes := { f.world.scopes with pushed := rest } } } := by
  have hscopes : Run.scopes f = .ok f.world.scopes f := rfl
  have hpop : f.world.scopes.pop? = some (layer, { f.world.scopes with pushed := rest }) := by
    unfold Scopes.pop?
    rw [hpushed]
  unfold Linked.step Linked.execute
  rw [hi]
  dsimp only
  rw [bind_of_ok hscopes, hpop]
  rfl

/-- **A step** leads to a place with as many layers as its level says. -/
theorem Linked.step_behind {p : Program} {level : Nat → Nat} (hp : p.HasLevels level)
    (hnested : ∀ v, Restores (env.nested v)) {place : Nat} (here : p.code[place]? = some i)
    {f : Frame} (hf : base.Above (level place) f.world.toContext) :
    StepBehind base level (i.step env place f) := by
  have hbehind := hp.behind here
  by_cases hpush : i.instruction = .pushScope
  · have habove : base.scopes.Above (level (place + 1)) (f.world.scopes.push []) := by
      rw [hbehind, hpush]
      exact hf.scopes.push []
    rw [step_pushScope hpush]
    exact ⟨habove, hf.template⟩
  by_cases hpop : i.instruction = .popScope
  · obtain ⟨layer, rest, hpushed, hrest⟩ :=
      hf.scopes.exists_layer (hp.inside here (by rw [hpop]; trivial))
    have habove : base.scopes.Above (level (place + 1)) { f.world.scopes with pushed := rest } := by
      rw [hbehind, hpop]
      exact hrest
    rw [step_popScope hpop place hpushed]
    exact ⟨habove, hf.template⟩
  have hlevel : level (place + 1) = level place := by
    rw [hbehind]
    cases hins : i.instruction <;> first | rfl | exact absurd hins hpush | exact absurd hins hpop
  have hstays := execute_stays hnested hpush hpop (hp.inside here) place f hf
  unfold step
  cases hr : i.execute env place f with
  | error e f' =>
    rw [hr] at hstays
    exact hstays
  | ok target f' =>
    rw [hr] at hstays
    obtain ⟨habove, htarget⟩ := hstays
    have hnext : level (target.getD (place + 1)) = level place := by
      rcases htarget with rfl | rfl
      · exact hlevel
      · cases ht : i.target with
        | none => exact hlevel
        | some target => exact hp.jump here ht
    have hgoes : base.Above (level (target.getD (place + 1))) f'.world.toContext := by
      rw [hnext]
      exact habove
    exact hgoes

end Instructions

/-! ## 4. Runs -/

/-- The state that a run leaves. -/
def Frame.behind {α : Type} : EStateM.Result Error Frame α → Frame
  | .ok _ f => f
  | .error _ f => f

section Runs

variable {p : Program} {level : Nat → Nat} {env : Environment}

/-- Steps lead to places with as many layers as their levels say. -/
theorem Program.Reaches.above {base : Context} (hp : p.HasLevels level)
    (hnested : ∀ v, Restores (env.nested v)) {place place' : Nat} {f f' : Frame}
    (h : p.Reaches env place f place' f') (hf : base.Above (level place) f.world.toContext) :
    base.Above (level place') f'.world.toContext := by
  induction h with
  | refl => exact hf
  | tail _ here step ih =>
    have hstep := Linked.step_behind hp hnested here (ih hf)
    rwa [step] at hstep

/-- **A run** leaves the layers that it has found under its own. -/
theorem Program.runFrom_behind {base : Context} (hp : p.HasLevels level)
    (hnested : ∀ v, Restores (env.nested v)) (spare place : Nat) {f : Frame}
    (hf : base.Above (level place) f.world.toContext) :
    ∃ n, base.Above n (Frame.behind (p.runFrom env spare place f)).world.toContext := by
  have hends := p.runFrom_ends env spare place f
  generalize p.runFrom env spare place f = r at hends
  cases hends with
  | done steps => exact ⟨_, steps.above hp hnested hf⟩
  | spent steps => exact ⟨_, steps.above hp hnested hf⟩
  | fails steps here step =>
    have hstep := Linked.step_behind hp hnested here (steps.above hp hnested hf)
    rwa [step] at hstep

/-- In the beginning no layer has been added. -/
theorem Program.HasLevels.above_start (hp : p.HasLevels level) (c : Context) :
    c.Above (level 0) c := by
  rw [hp.start]
  exact ⟨.refl c.scopes, rfl⟩

/-- **A program restores the context**, whether it succeeds or fails. -/
theorem Program.restores_run (hp : p.HasLevels level) (hnested : ∀ v, Restores (env.nested v)) :
    Restores (p.run env) := by
  intro w
  obtain ⟨n, habove⟩ :=
    p.runFrom_behind hp hnested spareSteps 0 (f := ⟨w, [], [], []⟩) (hp.above_start w.toContext)
  unfold Program.run
  cases hr : p.runFrom env spareSteps 0 ⟨w, [], [], []⟩ with
  | error e f =>
    rw [hr] at habove
    exact ⟨habove.scopes.unwind, habove.template⟩
  | ok u f =>
    rw [hr] at habove
    dsimp only
    split
    · exact ⟨habove.scopes.unwind, habove.template⟩
    · exact ⟨habove.scopes.unwind, habove.template⟩

end Runs

/-! ## 5. Templates -/

namespace Template

/-- A computation on values leaves the context. -/
theorem restores_inWorld {α : Type} (x : Eval α) : Restores (inWorld x) := by
  intro w
  unfold inWorld
  cases x w.store <;> exact .refl _

section InWorld

variable {α : Type} {x : Eval α} {w w' : World} {a : α} {e : Error} {s : Store}

theorem inWorld_of_ok (h : x w.store = .ok a s) : inWorld x w = .ok a { w with store := s } := by
  unfold inWorld
  rw [h]

theorem inWorld_of_error (h : x w.store = .error e s) :
    inWorld x w = .error e { w with store := s } := by
  unfold inWorld
  rw [h]

theorem eq_ok_of_inWorld (h : inWorld x w = .ok a w') :
    ∃ s, x w.store = .ok a s ∧ w' = { w with store := s } := by
  cases hx : x w.store with
  | ok b s =>
    cases h.symm.trans (inWorld_of_ok hx)
    exact ⟨s, rfl, rfl⟩
  | error e s => cases h.symm.trans (inWorld_of_error hx)

end InWorld

/-- What renders a template inside another one, within some levels: it is compiled with the same
engine and rendered, or refused if no level is left. -/
def nestedWithin (levels : Nat) (t : Template) (autoescape source : Value) :
    EStateM Error World Value :=
  match levels with
  | 0 => inWorld (t.refuse source)
  | levels + 1 => do
    let inner ← inWorld (compile t.engine none source .empty)
    renderWithin levels inner autoescape

/-- **A template is run as its program.** -/
theorem runWithin_eq (levels : Nat) (t : Template) (autoescape : Value) :
    runWithin levels t autoescape =
      t.program.run (t.environment autoescape (nestedWithin levels t autoescape)) := by
  cases levels with
  | zero => rfl
  | succ levels => rfl

/-- **A template restores the context**, and so do the templates that it renders in turn. -/
theorem restores_runWithin (levels : Nat) {t : Template} {engine : Engine} {name : Option String}
    {source : Value} {o : Overrides} {s s' : Store}
    (ht : compile engine name source o s = .ok t s') (htags : OrdinaryTags t.grammar.tags)
    (hengine : OrdinaryTags t.engine.grammar.tags) (autoescape : Value) :
    Restores (runWithin levels t autoescape) := by
  induction levels generalizing t engine name source o s s' with
  | zero =>
    obtain ⟨s₀, c, hp, -, -⟩ := program_of_compile ht
    rw [runWithin_eq]
    exact Program.restores_run (Compile.hasLevels_of_program htags hp) fun v =>
      restores_inWorld _
  | succ levels ih =>
    obtain ⟨s₀, c, hp, -, -⟩ := program_of_compile ht
    rw [runWithin_eq]
    refine Program.restores_run (Compile.hasLevels_of_program htags hp) fun v =>
      .bind (restores_inWorld _) fun w inner w' hinner => ?_
    obtain ⟨s', hcompile, -⟩ := eq_ok_of_inWorld hinner
    obtain ⟨hsame, hgrammar⟩ := grammar_of_compile hcompile
    have hinnerTags : OrdinaryTags inner.grammar.tags := hgrammar ▸ hengine
    have hinnerEngine : OrdinaryTags inner.engine.grammar.tags := hsame ▸ hengine
    exact tied_restores (ih hcompile hinnerTags hinnerEngine) w'

end Template
end TextTemplate
