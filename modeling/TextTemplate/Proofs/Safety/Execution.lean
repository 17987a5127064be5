/-
# A run keeps a region

A run of a program keeps a region if the program has ordinary instructions only and marks nothing as
safe: no value in the store, in the scopes or in a running loop becomes a safe text.

* `Region.HoldsFrame` is the invariant of a run;
* `Region.keepsRun_execute` is a step, one case for each instruction;
* `Program.Reaches.holdsFrame` is a whole run.
-/
import TextTemplate.Proofs.Run.Steps
import TextTemplate.Proofs.Safety.Output

namespace TextTemplate

open TextTemplate.Outcome TextTemplate.Text

variable {R : Region} {s s' : Store} {c : Scopes} {v : Value} {f f' : Frame}

/-! ## 1. Conditions and loops -/

/-- The expressions of a condition. -/
def Condition.expressions : Condition → List Expression
  | truth e => [e]
  | negation c => c.expressions
  | comparison _ left right => [left, right]
  | flagUnset _ => []

/-- What a loop binds in one round lies in the region. -/
def Region.PlainItem (R : Region) : LoopItem → Prop
  | .pair key value => R.Plain key ∧ R.Plain value
  | .packed v => R.Plain v

namespace Region

theorem keeps_comparison (op : Comparator) (a : Value) {b : Value} (hb : R.Has b) :
    R.Keeps (op.holds a b) fun _ => True := by
  have hoccurs : R.Keeps (Comparator.occurs a b) fun _ => True :=
    .bind (.unless (keeps_contains hb a)) fun _ _ => .pure trivial
  unfold Comparator.holds
  refine .bind .get fun s _ => ?_
  split
  · exact .pure trivial
  · exact .pure trivial
  · exact .pure trivial
  · exact .pure trivial
  · exact hoccurs
  · exact .bind hoccurs fun _ _ => .pure trivial
  · exact .pure trivial

theorem keeps_condition (hc : R.PlainScopes c) (flags : List String) : ∀ (condition : Condition),
    (∀ e ∈ condition.expressions, e.MarksNothing) →
      R.Keeps (condition.holds Filter.standard c flags) fun _ => True
  | .truth e, he =>
    .bind (keeps_resolve hc (he e List.mem_cons_self)) fun _ _ =>
      .bind .get fun _ _ => .pure trivial
  | .negation condition, he =>
    .bind (keeps_condition hc flags condition he) fun _ _ => .pure trivial
  | .comparison op left right, he => by
    obtain ⟨hleft, hright⟩ := List.forall_mem_cons.mp he
    exact .bind (keeps_resolve hc hleft) fun a _ =>
      .bind (keeps_resolve hc (List.forall_mem_singleton.mp hright)) fun b hb =>
        keeps_comparison op a hb
  | .flagUnset name, _ => .pure trivial

/-- **The items of a loop** lie in the region. -/
theorem keeps_loopItems (hv : R.Has v) :
    R.Keeps (Eval.loopItems v) fun items => ∀ item ∈ items, R.PlainItem item := by
  have hnone : ∀ item ∈ ([] : List LoopItem), R.PlainItem item :=
    fun item hitem => absurd hitem List.not_mem_nil
  unfold Eval.loopItems
  split
  · rename_i r
    refine .bind .get fun s hs => .pure fun item hitem => ?_
    obtain ⟨e, he, rfl⟩ := List.mem_map.mp hitem
    exact hs.dicts r hv e he
  · have hattribute : R.Keeps (Eval.read (·.hasAttribute v "items")) fun _ => True :=
      .read fun _ _ _ _ => trivial
    refine .bind hattribute fun pairs _ => ?_
    split
    · refine .bind .get fun s hs => ?_
      split
      · rename_i m hm
        refine .bind (keeps_call (hs.attribute hv hm)) fun given hgiven =>
          .bind (keeps_items hgiven.1) fun items hitems => .pure fun item hitem => ?_
        obtain ⟨w, hw, rfl⟩ := List.mem_map.mp hitem
        exact hitems w hw
      · exact .fail _
      · exact .pure hnone
    · refine .bind (keeps_stream hv) fun o ho => ?_
      split
      · exact .pure hnone
      · rename_i st
        split
        · refine .pure fun item hitem => ?_
          obtain ⟨i, hi, rfl⟩ := List.mem_mapIdx.mp hitem
          exact ⟨plain_int _, ho st rfl _ (List.getElem_mem hi)⟩
        · split
          · exact .pure hnone
          · exact .fail _

/-- The expression whose turn it is stands in the cycle. -/
theorem keeps_inTurn (hc : R.PlainScopes c) (values : List Expression) (counter : String) :
    R.Keeps (Eval.inTurn c values counter) (· ∈ values) := by
  have hturn : ∀ count, R.Keeps (Eval.read fun _ => turn count values.length) fun _ => True :=
    fun count => .read fun _ _ _ _ => trivial
  unfold Eval.inTurn
  refine .bind (keeps_lookupOr hc _ (plain_int 0)) fun count hcount =>
    .bind (keeps_plus hcount.1 (plain_int 1)) fun next hnext =>
      .bind (keeps_writeRoot hc (plain_text counter) hnext) fun _ _ =>
        .bind (hturn count) fun i _ => ?_
  split
  · exact .fail _
  · rename_i value hvalue
    exact .pure (List.mem_of_getElem? hvalue)

end Region

/-! ## 2. Frames -/

/-- **The invariant of a run**: no safe text lies in the store, in the scopes or in what is left of
the running loops. -/
structure Region.HoldsFrame (R : Region) (f : Frame) : Prop where
  store : R.Holds f.world.store
  scopes : R.PlainScopes f.world.scopes
  loops : ∀ l ∈ f.loops, ∀ item ∈ l.rest, R.PlainItem item

/-- Bind the names of a loop to a key and a value. -/
def Run.bindPair (names : List String) (key value : Value) : Run Unit :=
  match names with
  | [] => Run.eval (Eval.fail (.index .list))
  | [name] => Run.bind name value
  | first :: second :: _ => do
    Run.bind first key
    Run.bind second value

/-- The computation of a run keeps the invariant where it succeeds, and its results have a
property. -/
def Region.KeepsRun {α : Type} (R : Region) (x : Run α) (Q : α → Prop) : Prop :=
  ∀ f, R.HoldsFrame f → ∀ a f', x f = .ok a f' → R.HoldsFrame f' ∧ Q a

namespace Region.KeepsRun

variable {α β : Type} {x : Run α} {g : α → Run β} {Q : α → Prop} {P : β → Prop}

theorem pure {a : α} (h : Q a) : R.KeepsRun (Pure.pure a) Q := by
  intro f hf a' f' hx
  cases hx
  exact ⟨hf, h⟩

theorem bind (hx : R.KeepsRun x Q) (hg : ∀ a, Q a → R.KeepsRun (g a) P) :
    R.KeepsRun (x >>= g) P := by
  intro f hf b f'' h
  obtain ⟨a, f', ha, hb⟩ := bind_eq_ok.mp h
  obtain ⟨hf', hQ⟩ := hx f hf a f' ha
  exact hg a hQ f' hf' b f'' hb

theorem get : R.KeepsRun (MonadState.get : Run Frame) R.HoldsFrame := by
  intro f hf a f' h
  rw [get_apply] at h
  cases h
  exact ⟨hf, hf⟩

theorem change {g : Frame → Frame} (h : ∀ f, R.HoldsFrame f → R.HoldsFrame (g f)) :
    R.KeepsRun (modify g) fun _ => True := by
  intro f hf a f' hx
  rw [modify_apply] at hx
  cases hx
  exact ⟨h f hf, trivial⟩

/-- A computation on values inside a run. -/
theorem eval {x : Eval α} (hx : R.Keeps x Q) : R.KeepsRun (Run.eval x) Q := by
  intro f hf a f' h
  obtain ⟨s, ha, rfl⟩ := Run.eval_eq_ok.mp h
  obtain ⟨hs, hQ⟩ := (hx f.world.store hf.store).1 a s ha
  exact ⟨{ hf with store := hs }, hQ⟩

theorem scopes : R.KeepsRun Run.scopes R.PlainScopes :=
  .bind .get fun _ hf => .pure hf.scopes

theorem setScopes (hc : R.PlainScopes c) : R.KeepsRun (Run.setScopes c) fun _ => True :=
  .change fun _ hf => { hf with scopes := hc }

theorem write (v : Value) : R.KeepsRun (Run.write v) fun _ => True :=
  .change fun _ hf => { hf with }

/-- Other running loops. -/
theorem setLoops {loops : List Loop} (h : ∀ l ∈ loops, ∀ item ∈ l.rest, R.PlainItem item) :
    R.KeepsRun (modify fun f => { f with loops := loops }) fun _ => True :=
  .change fun _ hf => { hf with loops := h }

theorem setFlags (g : List String → List String) :
    R.KeepsRun (modify fun f => { f with flags := g f.flags }) fun _ => True :=
  .change fun _ hf => { hf with }

/-- Binding a name to a value of the region. -/
theorem bindName (name : String) (hv : R.Plain v) : R.KeepsRun (Run.bind name v) fun _ => True :=
  .bind .scopes fun _ hc => .bind (.eval (keeps_write hc (plain_text name) hv)) fun _ hc' =>
    .setScopes hc'

/-- Binding the names of a loop to an item. -/
theorem bindItem (names : List String) {item : LoopItem} (hitem : R.PlainItem item) :
    R.KeepsRun (Run.bindItem names item) fun _ => True := by
  have hpair : ∀ key value, R.Plain key → R.Plain value →
      R.KeepsRun (Run.bindPair names key value) fun _ => True := by
    intro key value hkey hvalue
    unfold Run.bindPair
    split
    · exact .eval (.fail _)
    · exact .bindName _ hvalue
    · exact .bind (.bindName _ hkey) fun _ _ => .bindName _ hvalue
  cases item with
  | pair key value => exact hpair key value hitem.1 hitem.2
  | packed v =>
    exact .bind (.eval (keeps_pairOf hitem.1)) fun p hp => hpair p.1 p.2 hp.1 hp.2

end Region.KeepsRun

/-! ## 3. Instructions -/

namespace Instruction

/-- The expressions of an instruction. -/
def expressions : Instruction → List Expression
  | expression e => [e]
  | branch condition _ => condition.expressions
  | loopStart sequence _ => [sequence]
  | cycle values _ => values
  | nested source => [source]
  | _ => []

/-- The instruction renders no other template, and assigns integers alone.  The standard tags give
such instructions. -/
def Ordinary : Instruction → Prop
  | assign _ v => ∃ n, v = .int n
  | nested _ => False
  | _ => True

end Instruction

/-- What is left of a loop after its next item. -/
theorem Loop.next?_eq_some {l rest : Loop} {item : LoopItem} (h : l.next? = some (item, rest)) :
    l.rest = item :: rest.rest := by
  unfold Loop.next? at h
  split at h
  · cases h
  · rename_i item' rest' hrest
    cases h
    exact hrest

/-- **Carrying out an instruction** keeps the invariant of a run. -/
theorem Region.keepsRun_execute {env : Environment} (henv : env.filters = Filter.standard)
    {i : Linked} (hi : i.instruction.Ordinary)
    (he : ∀ e ∈ i.instruction.expressions, e.MarksNothing) (place : Nat) :
    R.KeepsRun (i.execute env place) fun _ => True := by
  have hpure : ∀ target : Option Nat, R.KeepsRun (pure target) fun _ => True :=
    fun target => .pure trivial
  have hvalue : ∀ {c : Scopes} {e : Expression}, R.PlainScopes c → e.MarksNothing → R.Keeps (do
      Eval.output env.autoescape (← e.resolve env.filters c)) fun _ => True := by
    intro c e hc he
    rw [henv]
    exact .bind (keeps_resolve hc he) fun v hv => keeps_output _ hv
  unfold Linked.execute
  cases hins : i.instruction with
  | literal text => exact .bind (.write _) fun _ _ => hpure _
  | expression e =>
    rw [hins] at he
    exact .bind .scopes fun c hc => .bind (.eval (hvalue hc (he e List.mem_cons_self))) fun v _ =>
      .bind (.write v) fun _ _ => hpure _
  | pushScope => exact .bind .scopes fun c hc => .bind (.setScopes hc.push) fun _ _ => hpure _
  | popScope =>
    refine .bind .scopes fun c hc => ?_
    split
    · rename_i layer c' hpop
      exact .bind (.setScopes (hc.pop hpop)) fun _ _ => hpure _
    · exact .eval (.fail _)
  | branch condition chained =>
    rw [hins] at he
    rw [henv]
    exact .bind .scopes fun c hc => .bind .get fun f _ =>
      .bind (.eval (keeps_condition hc f.flags condition he)) fun _ _ => hpure _
  | otherwise => exact hpure _
  | skip => exact hpure _
  | loopStart sequence names =>
    rw [hins] at he
    have hitems : ∀ {c : Scopes}, R.PlainScopes c → R.Keeps (do
        Eval.loopItems (← sequence.resolve env.filters c))
        fun items => ∀ item ∈ items, R.PlainItem item := by
      intro c hc
      rw [henv]
      exact .bind (keeps_resolve hc (he sequence List.mem_cons_self)) fun v hv => keeps_loopItems hv
    refine .bind .scopes fun c hc => .bind (.eval (hitems hc)) fun items hitems => ?_
    split
    · exact hpure _
    · rename_i item rest
      obtain ⟨hitem, hrest⟩ := List.forall_mem_cons.mp hitems
      have hloops : ∀ f, R.HoldsFrame f →
          R.HoldsFrame { f with loops := .make place names rest :: f.loops } := fun f hf =>
        { hf with loops := List.forall_mem_cons.mpr ⟨hrest, hf.loops⟩ }
      exact .bind (.change hloops) fun _ _ => .bind (.bindItem names hitem) fun _ _ => hpure _
  | loopNext =>
    refine .bind .get fun f hf => ?_
    split
    · exact .eval (.fail _)
    · rename_i loop outer hloops
      have hall := hf.loops
      rw [hloops] at hall
      obtain ⟨hloop, houter⟩ := List.forall_mem_cons.mp hall
      split
      · exact .bind (.setLoops houter) fun _ _ => hpure _
      · rename_i item rest hnext
        rw [Loop.next?_eq_some hnext] at hloop
        obtain ⟨hitem, hrest⟩ := List.forall_mem_cons.mp hloop
        exact .bind (.setLoops (List.forall_mem_cons.mpr ⟨hrest, houter⟩)) fun _ _ =>
          .bind (.bindItem loop.names hitem) fun _ _ => hpure _
  | setFlag name => exact .bind (.setFlags _) fun _ _ => hpure _
  | clearFlag name => exact .bind (.setFlags _) fun _ _ => hpure _
  | cycle values counter =>
    rw [hins] at he
    dsimp only
    rw [Run.cycle_eq]
    exact .bind (.bind .scopes fun c hc =>
      .bind (.eval (.bind (keeps_inTurn hc values counter) fun e hmem => hvalue hc (he e hmem)))
        fun v _ => .write v) fun _ _ => hpure _
  | assign name v =>
    rw [hins] at hi
    obtain ⟨n, rfl⟩ := hi
    exact .bind .scopes fun c hc =>
      .bind (.eval (keeps_writeRoot hc (plain_text name) (plain_int n))) fun _ _ => hpure _
  | nested source =>
    rw [hins] at hi
    exact hi.elim
  | endBranch => exact hpure _
  | endSkip => exact hpure _
  | noop => exact hpure _

/-! ## 4. Runs -/

/-- The program has ordinary instructions only, and its expressions mark nothing as safe. -/
structure Program.Unmarking (p : Program) : Prop where
  ordinary : ∀ i ∈ p.code, i.instruction.Ordinary
  marksNothing : ∀ i ∈ p.code, ∀ e ∈ i.instruction.expressions, e.MarksNothing

/-- **A step** keeps the invariant of a run. -/
theorem Region.HoldsFrame.step {p : Program} {env : Environment} {i : Linked} {place place' : Nat}
    (henv : env.filters = Filter.standard) (hp : p.Unmarking) (hf : R.HoldsFrame f)
    (here : p.code[place]? = some i) (step : i.step env place f = .ok place' f') :
    R.HoldsFrame f' := by
  have hmem : i ∈ p.code := Array.mem_of_getElem? here
  unfold Linked.step at step
  split at step
  · cases step
  · rename_i target f₁ hexecute
    injection step with _ hf₁
    subst hf₁
    exact (keepsRun_execute henv (hp.ordinary i hmem) (hp.marksNothing i hmem) place f hf
      target f₁ hexecute).1

/-- **A run** keeps its invariant. -/
theorem Program.Reaches.holdsFrame {p : Program} {env : Environment} {place place' : Nat}
    (henv : env.filters = Filter.standard) (hp : p.Unmarking) (hf : R.HoldsFrame f)
    (h : p.Reaches env place f place' f') : R.HoldsFrame f' := by
  induction h with
  | refl => exact hf
  | tail _ here step ih => exact (ih hf).step henv hp here step

end TextTemplate
