/-
# Rows of steps

A run is a row of steps of its program.  `Program.Reaches` says that some steps lead from one
place and frame to another; `Program.Leads` says in addition that each of them lowers the rank, so
that a run goes that way without a spare step (`runFrom_of_leads`).

`Program.Carries` compares a stretch of a program with the result of a computation: where that
succeeds, the steps lead to its frame at the end of the stretch, and where it fails they fail with
the same error in the same world.  Stretches are put together with `Carries.bind`.
-/
import TextTemplate.Proofs.Run.Descent
import TextTemplate.Proofs.Run.Frames

namespace TextTemplate

open TextTemplate.Outcome

/-! ## 1. Steps -/

namespace Program

variable {p : Program} {env : Environment}

/-- Some steps lead from a place and a frame to others. -/
inductive Reaches (p : Program) (env : Environment) : Nat → Frame → Nat → Frame → Prop where
  | refl (place : Nat) (f : Frame) : Reaches p env place f place f
  | tail {place place' place'' : Nat} {f f' f'' : Frame} {i : Linked}
      (steps : Reaches p env place f place' f') (here : p.code[place']? = some i)
      (step : i.step env place' f' = .ok place'' f'') : Reaches p env place f place'' f''

/-- Some steps that all lower the rank lead from a place and a frame to others. -/
inductive Leads (p : Program) (env : Environment) : Nat → Frame → Nat → Frame → Prop where
  | refl (place : Nat) (f : Frame) : Leads p env place f place f
  | step {place place' place'' : Nat} {f f' f'' : Frame} {i : Linked}
      (here : p.code[place]? = some i) (step : i.step env place f = .ok place' f')
      (below : (p.rank place' f').below (p.rank place f) = true)
      (steps : Leads p env place' f' place'' f'') : Leads p env place f place'' f''

/-- Some steps lead to one that fails with an error, in a world. -/
def Fails (p : Program) (env : Environment) (place : Nat) (f : Frame) (e : Error) (w : World) :
    Prop :=
  ∃ place' f' i f'', p.Leads env place f place' f' ∧ p.code[place']? = some i ∧
    i.step env place' f' = .error e f'' ∧ f''.world = w

theorem Leads.trans {a b c : Nat} {f g h : Frame} (hab : p.Leads env a f b g)
    (hbc : p.Leads env b g c h) : p.Leads env a f c h := by
  induction hab with
  | refl => exact hbc
  | step here step below _ ih => exact .step here step below (ih hbc)

theorem Fails.after {a b : Nat} {f g : Frame} {e : Error} {w : World}
    (hab : p.Leads env a f b g) (hb : p.Fails env b g e w) : p.Fails env a f e w := by
  obtain ⟨place, f', i, f'', hl, here, step, hw⟩ := hb
  exact ⟨place, f', i, f'', hab.trans hl, here, step, hw⟩

/-! ## 2. Runs -/

theorem runFrom_of_leads {a b : Nat} {f g : Frame} (h : p.Leads env a f b g) (spare : Nat) :
    p.runFrom env spare a f = p.runFrom env spare b g := by
  induction h with
  | refl => rfl
  | step here step below _ ih =>
    rw [runFrom, here]
    simp only [step, below, if_true]
    exact ih

/-- A run ends in a step that fails. -/
theorem runFrom_of_error {place : Nat} {f f' : Frame} {i : Linked} {e : Error}
    (here : p.code[place]? = some i) (step : i.step env place f = .error e f') (spare : Nat) :
    p.runFrom env spare place f = .error e f' := by
  rw [runFrom, here]
  simp only [step]

theorem runFrom_of_fails {place : Nat} {f : Frame} {e : Error} {w : World}
    (h : p.Fails env place f e w) (spare : Nat) :
    ∃ f', p.runFrom env spare place f = .error e f' ∧ f'.world = w := by
  obtain ⟨place', f', i, f'', hl, here, step, hw⟩ := h
  exact ⟨f'', (runFrom_of_leads hl spare).trans (runFrom_of_error here step spare), hw⟩

theorem runFrom_of_end {place : Nat} {f : Frame} (h : p.code[place]? = none) (spare : Nat) :
    p.runFrom env spare place f = .ok () f := by
  rw [runFrom, h]

section Behind

variable {spare place next : Nat} {f f' : Frame} {i : Linked}

/-- A run goes on behind a step that lowers the rank. -/
theorem runFrom_of_below (here : p.code[place]? = some i) (hok : i.step env place f = .ok next f')
    (hbelow : (p.rank next f').below (p.rank place f) = true) :
    p.runFrom env spare place f = p.runFrom env spare next f' := by
  rw [runFrom, here]
  simp only [hok, if_pos hbelow]

/-- Behind one that does not, it ends if no step is to spare. -/
theorem runFrom_of_spent (here : p.code[place]? = some i) (hok : i.step env place f = .ok next f')
    (hbelow : ¬ (p.rank next f').below (p.rank place f) = true) :
    p.runFrom env 0 place f = .error (Error.of .tooDeep) f' := by
  rw [runFrom, here]
  simp only [hok, if_neg hbelow]

/-- Otherwise it goes on, with one step less to spare. -/
theorem runFrom_of_spare (here : p.code[place]? = some i) (hok : i.step env place f = .ok next f')
    (hbelow : ¬ (p.rank next f').below (p.rank place f) = true) :
    p.runFrom env (spare + 1) place f = p.runFrom env spare next f' := by
  rw [runFrom, here]
  simp only [hok, if_neg hbelow]

end Behind

theorem Reaches.head {a b c : Nat} {f g h : Frame} {i : Linked} (here : p.code[a]? = some i)
    (step : i.step env a f = .ok b g) (steps : p.Reaches env b g c h) :
    p.Reaches env a f c h := by
  induction steps with
  | refl => exact .tail (.refl a f) here step
  | tail _ here' step' ih => exact .tail (ih step) here' step'

/-- How a run can end: behind the last instruction, where no step is to spare, or in a step that
fails. -/
inductive Ends (p : Program) (env : Environment) (place : Nat) (f : Frame) :
    EStateM.Result Error Frame Unit → Prop where
  | done {place' : Nat} {f' : Frame} (steps : p.Reaches env place f place' f') :
      Ends p env place f (.ok () f')
  | spent {place' : Nat} {f' : Frame} (steps : p.Reaches env place f place' f') :
      Ends p env place f (.error (Error.of .tooDeep) f')
  | fails {place' : Nat} {f' f'' : Frame} {i : Linked} {e : Error}
      (steps : p.Reaches env place f place' f') (here : p.code[place']? = some i)
      (step : i.step env place' f' = .error e f'') : Ends p env place f (.error e f'')

theorem Ends.after {a b : Nat} {f g : Frame} {i : Linked} {r : EStateM.Result Error Frame Unit}
    (here : p.code[a]? = some i) (step : i.step env a f = .ok b g) (h : p.Ends env b g r) :
    p.Ends env a f r := by
  cases h with
  | done steps => exact .done (steps.head here step)
  | spent steps => exact .spent (steps.head here step)
  | fails steps here' step' => exact .fails (steps.head here step) here' step'

/-- **A run ends** in a state that its steps reach. -/
theorem runFrom_ends (p : Program) (env : Environment) (spare place : Nat) (f : Frame) :
    p.Ends env place f (p.runFrom env spare place f) := by
  fun_induction p.runFrom env spare place f with
  | case1 spare place f hend => exact .done (.refl place f)
  | case2 spare place f i here e f' hfails => exact .fails (.refl place f) here hfails
  | case3 spare place f i here next f' hok hbelow ih => exact ih.after here hok
  | case4 place f i here next f' hok hbelow => exact .spent (.tail (.refl place f) here hok)
  | case5 place f i here next f' hok hbelow spare ih => exact ih.after here hok

/-! ## 3. Stretches -/

/-- From one place to another, and to other loops and flags, the program gives a result: it goes
there with the frame of the result, or fails as the result does. -/
def Carries (p : Program) (env : Environment) (place : Nat) (f : Frame) (place' : Nat)
    (loops : List Loop) (flags : List String) : EStateM.Result Error Frame Unit → Prop
  | .ok _ f' => p.Leads env place f place' (Run.reframe loops flags f')
  | .error e f' => p.Fails env place f e f'.world

namespace Carries

variable {loops loops' : List Loop} {flags flags' : List String}

/-- Steps in front of a stretch. -/
theorem after {a b c : Nat} {f g : Frame} {r : EStateM.Result Error Frame Unit}
    (hab : p.Leads env a f b g) (hb : p.Carries env b g c loops flags r) :
    p.Carries env a f c loops flags r := by
  cases r with
  | ok u f' => exact hab.trans hb
  | error e f' => exact Fails.after hab hb

/-- Steps behind a stretch, which change the loops and the flags alone. -/
theorem before {a b c : Nat} {f : Frame} {r : EStateM.Result Error Frame Unit}
    (hab : p.Carries env a f b loops flags r)
    (hbc : ∀ f', p.Leads env b (Run.reframe loops flags f') c (Run.reframe loops' flags' f')) :
    p.Carries env a f c loops' flags' r := by
  cases r with
  | ok u f' => exact Leads.trans hab (hbc f')
  | error e f' => exact hab

/-- A stretch that does nothing. -/
theorem pure (place : Nat) (f : Frame) :
    p.Carries env place (Run.reframe loops flags f) place loops flags
      ((Pure.pure () : Run Unit) f) := Leads.refl ..

/-- **Two stretches, one after the other.** -/
theorem bind {a b c : Nat} {f f₀ : Frame} {x y : Run Unit}
    (hx : p.Carries env a f b loops flags (x f₀))
    (hy : ∀ f', x f₀ = .ok () f' →
      p.Carries env b (Run.reframe loops flags f') c loops' flags' (y f')) :
    p.Carries env a f c loops' flags' ((x >>= fun _ => y) f₀) := by
  cases hxf : x f₀ with
  | error e f' =>
    rw [hxf] at hx
    rw [bind_of_error hxf]
    exact hx
  | ok u f' =>
    rw [hxf] at hx
    rw [bind_of_ok hxf]
    exact (hy f' hxf).after hx

end Carries

end Program
end TextTemplate
