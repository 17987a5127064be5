/-
# Names that a run leaves free

Above the root layer names are bound by loops alone.  So a name that no loop of a program binds
stays free there: if none of the layers that a run finds binds it, then none does at any place of
the run.

* `Program.boundNames` are the names of the loops and of the serial numbers of a program;
* `Scopes.Free` says that no layer above the root binds a name, `Frame.Free` that the running loops
  do not bind it either;
* `Run.KeepsFree` is a computation inside a run, `Linked.execute_keepsFree` an instruction, and
  `Program.Reaches.free` a whole run.
-/
import TextTemplate.Proofs.Assembly.Loops
import TextTemplate.Proofs.Run.Layers
import TextTemplate.Proofs.Safety.Execution

namespace TextTemplate

open TextTemplate.Outcome

/-! ## 1. Names and layers -/

/-- The names that an instruction binds: those of a loop, or that of a serial number. -/
def Instruction.boundNames : Instruction → List String
  | loopStart _ names => names
  | assign name _ => [name]
  | _ => []

/-- The names that a program binds, other than those of its counters. -/
def Program.boundNames (p : Program) : List String :=
  p.code.toList.flatMap (·.instruction.boundNames)

/-- No layer above the root binds the name. -/
def Scopes.Free (name : String) (c : Scopes) : Prop :=
  ∀ layer ∈ c.pushed, layer.find? (.text name) = none

/-- Besides, no running loop binds it. -/
structure Frame.Free (name : String) (f : Frame) : Prop where
  scopes : f.world.scopes.Free name
  loops : ∀ l ∈ f.loops, name ∉ l.names

namespace Scopes.Free

variable {name : String} {c c' : Scopes}

theorem findPushed? (h : c.Free name) : c.findPushed? (.text name) = none :=
  List.findSome?_eq_none_iff.mpr h

theorem push (h : c.Free name) : (c.push []).Free name := List.forall_mem_cons.mpr ⟨rfl, h⟩

theorem pop {layer : Dict} (h : c.Free name) (hpop : c.pop? = some (layer, c')) :
    c'.Free name := by
  unfold Scopes.pop? at hpop
  split at hpop
  · cases hpop
  · rename_i layer' rest hpushed
    cases hpop
    intro layer hlayer
    exact h layer (hpushed ▸ List.mem_cons_of_mem _ hlayer)

/-- Another name is written. -/
theorem write (h : c.Free name) {other : String} (hne : other ≠ name) {v : Value} {s s' : Store}
    (hw : c.write (.plain other) v s = .ok c' s') : c'.Free name := by
  obtain ⟨root, pushed⟩ := c
  cases pushed with
  | nil =>
    obtain ⟨_, s₁, -, hw⟩ := bind_eq_ok.mp hw
    cases hw
    exact h
  | cons layer rest =>
    obtain ⟨hlayer, hrest⟩ := List.forall_mem_cons.mp h
    cases hw
    refine List.forall_mem_cons.mpr ⟨?_, hrest⟩
    rw [Dict.find?_insert_ne _ _ _ (fun hk => hne (Key.text.inj hk))]
    exact hlayer

end Scopes.Free

/-! ## 2. Computations inside a run -/

/-- Where it succeeds, a computation inside a run leaves the name free, and its result has a
property. -/
def Run.KeepsFree {α : Type} (name : String) (x : Run α) (Q : α → Prop) : Prop :=
  ∀ f, f.Free name → ∀ a f', x f = .ok a f' → f'.Free name ∧ Q a

namespace Run.KeepsFree

variable {name : String} {α β : Type} {x : Run α} {g : α → Run β} {Q : α → Prop} {P : β → Prop}

theorem pure {a : α} (h : Q a) : KeepsFree name (Pure.pure a) Q := by
  rintro f hf _ _ ⟨⟩
  exact ⟨hf, h⟩

theorem bind (hx : KeepsFree name x Q) (hg : ∀ a, Q a → KeepsFree name (g a) P) :
    KeepsFree name (x >>= g) P := by
  intro f hf b f'' h
  obtain ⟨a, f', ha, hb⟩ := bind_eq_ok.mp h
  obtain ⟨hf', hQ⟩ := hx f hf a f' ha
  exact hg a hQ f' hf' b f'' hb

theorem get : KeepsFree name (MonadState.get : Run Frame) (Frame.Free name) := by
  rintro f hf _ _ ⟨⟩
  exact ⟨hf, hf⟩

theorem change {h : Frame → Frame} (hfree : ∀ f, f.Free name → (h f).Free name) :
    KeepsFree name (modify h) fun _ => True := by
  rintro f hf _ _ ⟨⟩
  exact ⟨hfree f hf, trivial⟩

/-- A computation on values leaves the layers and the loops. -/
theorem eval (y : Eval α) : KeepsFree name (Run.eval y) fun _ => True := by
  intro f hf a f' h
  obtain ⟨s, -, rfl⟩ := Run.eval_eq_ok.mp h
  exact ⟨⟨hf.scopes, hf.loops⟩, trivial⟩

theorem fail (cause : Cause) : KeepsFree name (Run.eval (Eval.fail cause) : Run α) Q := by
  rintro f - a f' ⟨⟩

theorem scopes : KeepsFree name Run.scopes (Scopes.Free name) :=
  .bind .get fun _ hf => .pure hf.scopes

theorem setScopes {c : Scopes} (hc : c.Free name) :
    KeepsFree name (Run.setScopes c) fun _ => True := .change fun _ hf => ⟨hc, hf.loops⟩

theorem write (v : Value) : KeepsFree name (Run.write v) fun _ => True :=
  .change fun _ hf => ⟨hf.scopes, hf.loops⟩

theorem setFlags (h : List String → List String) :
    KeepsFree name (modify fun f => { f with flags := h f.flags }) fun _ => True :=
  .change fun _ hf => ⟨hf.scopes, hf.loops⟩

/-- Other running loops. -/
theorem setLoops {loops : List Loop} (h : ∀ l ∈ loops, name ∉ l.names) :
    KeepsFree name (modify fun f => { f with loops := loops }) fun _ => True :=
  .change fun _ hf => ⟨hf.scopes, h⟩

/-- Another name is bound. -/
theorem bindName {other : String} (hne : other ≠ name) (v : Value) :
    KeepsFree name (Run.bind other v) fun _ => True := by
  have hwrite : ∀ c : Scopes, c.Free name →
      KeepsFree name (Run.eval (c.write (.plain other) v)) (Scopes.Free name) := by
    intro c hc f hf c' f' h
    obtain ⟨s, hw, rfl⟩ := Run.eval_eq_ok.mp h
    exact ⟨⟨hf.scopes, hf.loops⟩, hc.write hne hw⟩
  exact .bind .scopes fun c hc => .bind (hwrite c hc) fun c' hc' => .setScopes hc'

/-- The names of a loop are bound, and the name is none of them. -/
theorem bindItem {names : List String} (hname : name ∉ names) (item : LoopItem) :
    KeepsFree name (Run.bindItem names item) fun _ => True := by
  have hne : ∀ other ∈ names, other ≠ name := fun other hother heq => hname (heq ▸ hother)
  have hpair : ∀ key value, KeepsFree name (Run.bindPair names key value) fun _ => True := by
    intro key value
    unfold Run.bindPair
    split
    · exact .fail _
    · exact .bindName (hne _ List.mem_cons_self) _
    · exact .bind (.bindName (hne _ List.mem_cons_self) _) fun _ _ =>
        .bindName (hne _ (List.mem_cons_of_mem _ List.mem_cons_self)) _
  cases item with
  | pair key value => exact hpair key value
  | packed v => exact .bind (.eval _) fun p _ => hpair p.1 p.2

/-- A computation on the world that restores the context. -/
theorem inWorld {y : EStateM Error World α} (hy : Restores y) :
    KeepsFree name (Run.inWorld y) fun _ => True := by
  intro f hf a f' h
  have hkept := hy f.world
  unfold Run.inWorld at h
  cases hw : y f.world with
  | error e w =>
    rw [hw] at h
    cases h
  | ok b w =>
    rw [hw] at h hkept
    cases h
    exact ⟨⟨hkept.scopes.symm ▸ hf.scopes, hf.loops⟩, trivial⟩

end Run.KeepsFree

/-! ## 3. Instructions and runs -/

section Runs

variable {name : String} {env : Environment} {i : Linked} {p : Program} {place place' : Nat}
  {f f' : Frame}

/-- **An instruction** that does not bind the name leaves it free. -/
theorem Linked.execute_keepsFree (hnested : ∀ v, Restores (env.nested v))
    (hi : name ∉ i.instruction.boundNames) (place : Nat) :
    Run.KeepsFree name (i.execute env place) fun _ => True := by
  have hpure : ∀ target : Option Nat, Run.KeepsFree name (pure target) fun _ => True :=
    fun target => .pure trivial
  unfold Linked.execute
  cases hins : i.instruction with
  | literal text => exact .bind (.write _) fun _ _ => hpure _
  | expression e =>
    exact .bind .scopes fun c _ => .bind (.eval _) fun v _ => .bind (.write v) fun _ _ => hpure _
  | pushScope => exact .bind .scopes fun c hc => .bind (.setScopes hc.push) fun _ _ => hpure _
  | popScope =>
    refine .bind .scopes fun c hc => ?_
    split
    · rename_i layer c' hpop
      exact .bind (.setScopes (hc.pop hpop)) fun _ _ => hpure _
    · exact .fail _
  | branch condition chained =>
    exact .bind .scopes fun c _ => .bind .get fun f _ => .bind (.eval _) fun _ _ => hpure _
  | otherwise => exact hpure _
  | skip => exact hpure _
  | loopStart sequence names =>
    rw [hins] at hi
    refine .bind .scopes fun c _ => .bind (.eval _) fun items _ => ?_
    split
    · exact hpure _
    · rename_i item rest
      have hloops : ∀ f : Frame, f.Free name →
          Frame.Free name { f with loops := .make place names rest :: f.loops } := fun f hf =>
        ⟨hf.scopes, List.forall_mem_cons.mpr ⟨hi, hf.loops⟩⟩
      exact .bind (.change hloops) fun _ _ => .bind (.bindItem hi item) fun _ _ => hpure _
  | loopNext =>
    refine .bind .get fun f hf => ?_
    split
    · exact .fail _
    · rename_i loop outer hloops
      obtain ⟨hloop, houter⟩ := List.forall_mem_cons.mp (hloops ▸ hf.loops)
      split
      · exact .bind (.setLoops houter) fun _ _ => hpure _
      · rename_i item rest hnext
        have hrest : name ∉ rest.names := (Loop.next?_start hnext).2 ▸ hloop
        exact .bind (.setLoops (List.forall_mem_cons.mpr ⟨hrest, houter⟩)) fun _ _ =>
          .bind (.bindItem hloop item) fun _ _ => hpure _
  | setFlag flag => exact .bind (.setFlags _) fun _ _ => hpure _
  | clearFlag flag => exact .bind (.setFlags _) fun _ _ => hpure _
  | cycle values counter =>
    exact .bind (.bind .scopes fun c _ => .bind (.eval _) fun v _ => .write v) fun _ _ => hpure _
  | assign bound v => exact .bind .scopes fun c _ => .bind (.eval _) fun _ _ => hpure _
  | nested source =>
    exact .bind .scopes fun c _ => .bind (.eval _) fun v _ =>
      .bind (.inWorld (hnested v)) fun u _ => .bind (.write u) fun _ _ => hpure _
  | endBranch => exact hpure _
  | endSkip => exact hpure _
  | noop => exact hpure _

theorem Linked.step_free (hnested : ∀ v, Restores (env.nested v))
    (hi : name ∉ i.instruction.boundNames) (hf : f.Free name)
    (h : i.step env place f = .ok place' f') : f'.Free name := by
  unfold step at h
  split at h
  · cases h
  · rename_i target f₁ hexecute
    cases h
    exact (execute_keepsFree hnested hi place f hf target f' hexecute).1

/-- An instruction binds no other names than its program. -/
theorem Program.not_mem_boundNames (hp : name ∉ p.boundNames) (here : p.code[place]? = some i) :
    name ∉ i.instruction.boundNames := fun hi =>
  hp (List.mem_flatMap.mpr ⟨i, (Array.mem_of_getElem? here).val, hi⟩)

/-- **A run** of a program that does not bind the name leaves it free. -/
theorem Program.Reaches.free (hp : name ∉ p.boundNames) (hnested : ∀ v, Restores (env.nested v))
    (hf : f.Free name) (h : p.Reaches env place f place' f') : f'.Free name := by
  induction h with
  | refl => exact hf
  | tail _ here step ih =>
    exact Linked.step_free hnested (not_mem_boundNames hp here) (ih hf) step

end Runs
end TextTemplate
