/-
# What a computation of a run leaves alone

The running loops and the flags of a frame are the business of the instructions that jump.  All
else that a run does is **framed**: it neither looks at them nor changes them.  It is **local** if
besides it leaves as many layers of names as it found, where it succeeds.

* `Run.reframe` gives a frame other loops and flags;
* `Run.Framed` and `Run.Local` are the two properties, with a lemma for each way to put
  computations together.
-/
import TextTemplate.Program.Machine
import TextTemplate.Proofs.Outcome

namespace TextTemplate

open TextTemplate.Outcome

namespace Run

/-! ## 1. Frames -/

/-- Attach the place of a token in the source to the errors of a computation. -/
def located {α : Type} (env : Environment) (t : Token) (x : Run α) : Run α := fun f =>
  match x f with
  | .ok a f' => .ok a f'
  | .error e f' => .error (env.locate f'.world.store (some t) e) f'

theorem located_of_ok {α : Type} {env : Environment} {t : Token} {x : Run α} {f f' : Frame} {a : α}
    (h : x f = .ok a f') : located env t x f = .ok a f' := by
  unfold located
  rw [h]

theorem located_of_error {α : Type} {env : Environment} {t : Token} {x : Run α} {f f' : Frame}
    {e : Error} (h : x f = .error e f') :
    located env t x f = .error (env.locate f'.world.store (some t) e) f' := by
  unfold located
  rw [h]

/-- A frame with other loops and flags. -/
def reframe (loops : List Loop) (flags : List String) (f : Frame) : Frame :=
  { f with loops := loops, flags := flags }

/-- A result with other loops and flags. -/
def reframeResult {α : Type} (loops : List Loop) (flags : List String) :
    EStateM.Result Error Frame α → EStateM.Result Error Frame α
  | .ok a f => .ok a (reframe loops flags f)
  | .error e f => .error e (reframe loops flags f)

/-- The computation neither looks at the running loops and the flags nor changes them. -/
def Framed {α : Type} (x : Run α) : Prop :=
  ∀ f loops flags, x (reframe loops flags f) = reframeResult loops flags (x f)

/-- Besides, where it succeeds it leaves as many layers as it found. -/
structure Local {α : Type} (x : Run α) : Prop where
  framed : Framed x
  depth : ∀ {f a f'}, x f = .ok a f' → f'.world.scopes.depth = f.world.scopes.depth

/-- A computation on values succeeds in a run where it succeeds, and changes the values alone. -/
theorem eval_eq_ok {α : Type} {x : Eval α} {f f' : Frame} {a : α} : Run.eval x f = .ok a f' ↔
    ∃ s, x f.world.store = .ok a s ∧ f' = { f with world := { f.world with store := s } } := by
  unfold Run.eval
  cases x f.world.store with
  | ok b s =>
    constructor
    · intro h
      cases h
      exact ⟨s, rfl, rfl⟩
    · rintro ⟨s', hx, rfl⟩
      cases hx
      rfl
  | error e s =>
    constructor
    · intro h
      cases h
    · rintro ⟨s', hx, -⟩
      cases hx

theorem eval_of_ok {α : Type} {x : Eval α} {f : Frame} {a : α} {s : Store}
    (h : x f.world.store = .ok a s) :
    Run.eval x f = .ok a { f with world := { f.world with store := s } } :=
  eval_eq_ok.mpr ⟨s, h, rfl⟩

/-- Where it fails, the run fails as it does. -/
theorem eval_of_error {α : Type} {x : Eval α} {f : Frame} {e : Error} {s : Store}
    (h : x f.world.store = .error e s) :
    Run.eval x f = .error e { f with world := { f.world with store := s } } := by
  unfold Run.eval
  rw [h]

/-- A computation on the world changes the world alone. -/
theorem inWorld_of_ok {α : Type} {y : EStateM Error World α} {f : Frame} {a : α} {w : World}
    (h : y f.world = .ok a w) : Run.inWorld y f = .ok a { f with world := w } := by
  unfold Run.inWorld
  rw [h]

theorem inWorld_of_error {α : Type} {y : EStateM Error World α} {f : Frame} {e : Error} {w : World}
    (h : y f.world = .error e w) : Run.inWorld y f = .error e { f with world := w } := by
  unfold Run.inWorld
  rw [h]

/-! ## 2. Framed computations -/

namespace Framed

variable {α β : Type} {x : Run α} {g : α → Run β}

theorem pure (a : α) : Framed (Pure.pure a : Run α) := fun _ _ _ => rfl

theorem bind (hx : Framed x) (hg : ∀ a, Framed (g a)) : Framed (x >>= g) := by
  intro f loops flags
  simp only [Bind.bind, EStateM.bind, hx f loops flags]
  cases x f with
  | ok a f' => exact hg a f' loops flags
  | error e f' => rfl

theorem located (hx : Framed x) (env : Environment) (t : Token) : Framed (located env t x) := by
  intro f loops flags
  simp only [Run.located, hx f loops flags]
  cases x f <;> rfl

theorem eval (y : Eval α) : Framed (Run.eval y) := by
  intro f loops flags
  simp only [Run.eval, reframe]
  cases y f.world.store <;> rfl

theorem scopes : Framed Run.scopes := fun _ _ _ => rfl

theorem setScopes (c : Scopes) : Framed (Run.setScopes c) := fun _ _ _ => rfl

theorem ok {f f' : Frame} {a : α} (hx : Framed x) (h : x f = .ok a f') (loops : List Loop)
    (flags : List String) : x (reframe loops flags f) = .ok a (reframe loops flags f') := by
  rw [hx, h]
  rfl

theorem error {f f' : Frame} {e : Error} (hx : Framed x) (h : x f = .error e f')
    (loops : List Loop) (flags : List String) :
    x (reframe loops flags f) = .error e (reframe loops flags f') := by
  rw [hx, h]
  rfl

end Framed

/-! ## 3. Local computations -/

namespace Local

variable {α β : Type} {x : Run α} {g : α → Run β}

theorem pure (a : α) : Local (Pure.pure a : Run α) where
  framed := .pure a
  depth h := by injection h with _ h; rw [h]

theorem bind (hx : Local x) (hg : ∀ a, Local (g a)) : Local (x >>= g) where
  framed := hx.framed.bind fun a => (hg a).framed
  depth := by
    intro f b f'' h
    obtain ⟨a, f', hxf, hgf⟩ := bind_eq_ok.mp h
    exact ((hg a).depth hgf).trans (hx.depth hxf)

theorem located (hx : Local x) (env : Environment) (t : Token) : Local (located env t x) where
  framed := hx.framed.located env t
  depth := by
    intro f a f' h
    simp only [Run.located] at h
    cases hxf : x f with
    | error e f'' => rw [hxf] at h; cases h
    | ok a' f'' =>
      rw [hxf] at h
      injection h with _ h
      exact h ▸ hx.depth hxf

theorem eval (y : Eval α) : Local (Run.eval y) where
  framed := .eval y
  depth := by
    intro f a f' h
    simp only [Run.eval] at h
    split at h
    · injection h with _ h
      rw [← h]
    · cases h

theorem scopes : Local Run.scopes where
  framed := .scopes
  depth h := by injection h with _ h; rw [h]

theorem write (v : Value) : Local (Run.write v) where
  framed _ _ _ := rfl
  depth h := by injection h with _ h; rw [← h]

end Local

/-! ## 4. Writing names -/

/-- Writing a name leaves as many layers as there were. -/
theorem depth_of_write {c c' : Scopes} {name v : Value} {s s' : Store}
    (h : c.write name v s = .ok c' s') : c'.depth = c.depth := by
  obtain ⟨root, pushed⟩ := c
  cases pushed with
  | nil =>
    have hw : Scopes.write ⟨root, []⟩ name v =
      Scopes.writeRoot ⟨root, []⟩ name v >>= fun _ => Pure.pure ⟨root, []⟩ := rfl
    rw [hw] at h
    obtain ⟨u, s₁, -, h⟩ := bind_eq_ok.mp h
    injection h with h _
    rw [← h]
  | cons layer rest =>
    simp only [Scopes.write, bind_of_ok (get_apply s)] at h
    cases hk : s.key? name with
    | error type => rw [hk] at h; cases h
    | ok k =>
      rw [hk] at h
      injection h with h _
      rw [← h]
      rfl

theorem bind_local (name : String) (v : Value) : Local (Run.bind name v) where
  framed := Framed.bind .scopes fun c => Framed.bind (.eval _) fun c' => .setScopes c'
  depth := by
    intro f a f' h
    have hbind : Run.bind name v f =
        (Run.eval (f.world.scopes.write (.plain name) v) >>= Run.setScopes) f := rfl
    rw [hbind] at h
    obtain ⟨c, f₁, hw, h⟩ := bind_eq_ok.mp h
    injection h with _ h
    rw [← h]
    simp only [Run.eval] at hw
    cases hc : f.world.scopes.write (.plain name) v f.world.store with
    | error e s => rw [hc] at hw; cases hw
    | ok c' s =>
      rw [hc] at hw
      injection hw with hw _
      exact hw ▸ depth_of_write hc

theorem bindItem_local (names : List String) (item : LoopItem) : Local (bindItem names item) := by
  rcases names with _ | ⟨first, _ | ⟨second, names⟩⟩
  · cases item with
    | pair key value => exact (Local.pure (key, value)).bind fun _ => .eval _
    | packed v => exact (Local.eval (Eval.pairOf v)).bind fun _ => .eval _
  · cases item with
    | pair key value => exact (Local.pure (key, value)).bind fun kv => bind_local first kv.2
    | packed v => exact (Local.eval (Eval.pairOf v)).bind fun kv => bind_local first kv.2
  · cases item with
    | pair key value =>
      exact (Local.pure (key, value)).bind fun kv =>
        (bind_local first kv.1).bind fun _ => bind_local second kv.2
    | packed v =>
      exact (Local.eval (Eval.pairOf v)).bind fun kv =>
        (bind_local first kv.1).bind fun _ => bind_local second kv.2

end Run
end TextTemplate
