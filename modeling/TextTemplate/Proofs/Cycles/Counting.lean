/-
# Counting turns

A cycle counts its turns in the root layer and reads the count through all layers.  No other
instruction changes what stands there under the counter, if no loop and no serial number has that
name and no value leads to the root layer.  So the count is the number of turns that there have
been, at each place of a run, and each turn gives the value that is due.

* `Eval.inTurn_counter` is what a cycle chooses, and `Linked.step_of_inTurn` what comes of it;
* `Linked.step_keeps_counter` says that the other instructions leave the count;
* `Program.Countable` is what it takes to count turns in a run, `Countable.step` an instruction that
  is carried out, and `Countable.run` the whole run.
-/
import TextTemplate.Proofs.Cycles.Names
import TextTemplate.Proofs.Cycles.Turns
import TextTemplate.Proofs.Likeness.Reading
import TextTemplate.Proofs.Likeness.Restoring

namespace TextTemplate

open Correspondence Likeness TextTemplate.Outcome

variable {r : Ref} {counter : String} {n : Nat}

/-! ## 1. What a cycle chooses -/

section Choice

variable {s : Store} {c : Scopes} {values : List Expression}

theorem Store.counted_counting (hr : r < s.dicts.size) :
    (s.counting r counter (n + 1)).Counted r counter (n + 1) := by
  unfold Counted counting
  rw [Store.dict_setDict, if_pos ⟨rfl, hr⟩, Dict.find?_insert_self]
  rfl

/-- **The count is read**: zero before the first turn. -/
theorem Scopes.lookupOr_counter (hroot : c.root = .dict r) (hfree : c.Free counter)
    (hname : constants.find? (.text counter) = none) (hn : s.Counted r counter n) :
    c.lookupOr (.plain counter) (.int 0) s = .ok (.int n) s := by
  have hlookup : c.lookup (.plain counter) s =
      (boundAfter n).elim (Eval.fail (.missingKey (.plain counter))) pure s := by
    rw [lookup_eq c (key?_plain s counter), hfree.findPushed?, hroot]
    dsimp only
    rw [← lookup_ofRoot _ (key?_plain s counter), lookup_dict (key?_plain s counter), hn, hname,
      Option.or_none]
    cases boundAfter n <;> rfl
  unfold Scopes.lookupOr
  cases n with
  | zero => rw [tryCatch_of_error hlookup]; rfl
  | succ n => rw [tryCatch_of_ok hlookup]; rfl

/-- **A cycle chooses the value that is due**, and counts the turn. -/
theorem Eval.inTurn_counter (hroot : c.root = .dict r) (hfree : c.Free counter)
    (hname : Scopes.constants.find? (.text counter) = none) (hn : s.Counted r counter n)
    (hvalues : values ≠ []) : ∃ e, values[n % values.length]? = some e ∧
      Eval.inTurn c values counter s = .ok e (s.counting r counter (n + 1)) := by
  have hlength : 0 < values.length := List.length_pos_of_ne_nil hvalues
  have hlt : n % values.length < values.length := Nat.mod_lt n hlength
  have hturn : turn (.int n) values.length = .ok (n % values.length) := by
    have hne : values.length ≠ 0 := Nat.ne_of_gt hlength
    simp only [turn, Value.numeric?, if_neg hne]
    rw [← Int.natCast_emod, Int.toNat_natCast]
  have hwrite : c.writeRoot (.plain counter) (.int (n + 1)) s =
      .ok () (s.counting r counter (n + 1)) := by
    unfold Scopes.writeRoot
    rw [hroot]
    rfl
  refine ⟨values[n % values.length], List.getElem?_eq_getElem hlt, ?_⟩
  unfold Eval.inTurn
  rw [bind_of_ok (Scopes.lookupOr_counter hroot hfree hname hn)]
  refine (bind_of_ok (a := Value.int (n + 1)) rfl).trans ?_
  rw [bind_of_ok hwrite, bind_of_ok (Eval.read_of_ok hturn), List.getElem?_eq_getElem hlt]
  rfl

end Choice

/-! ## 2. Instructions -/

theorem Run.eval_bind_of_ok {α β : Type} {x : Eval α} {y : α → Eval β} {f : Frame} {a : α}
    {s : Store} (h : x f.world.store = .ok a s) :
    Run.eval (x >>= y) f = Run.eval (y a) { f with world.store := s } := by
  unfold Run.eval
  rw [bind_of_ok h]

section Instructions

variable {env : Environment} {i : Linked} {place : Nat} {f : Frame}

/-- **What comes of a cycle** is what comes of the expression that it chooses, in the store that the
choice leaves. -/
theorem Linked.step_of_inTurn (env : Environment) (place : Nat) {values : List Expression}
    {e : Expression} {s : Store} (hi : i.instruction = .cycle values counter)
    (h : Eval.inTurn f.world.scopes values counter f.world.store = .ok e s) :
    i.step env place f =
      step env { i with instruction := .expression e } place { f with world.store := s } := by
  have hcycle : i.instruction.choice? f.world.scopes =
      some (Eval.inTurn f.world.scopes values counter) := by rw [hi]; rfl
  have hmarker : Instruction.choice? f.world.scopes (.expression e) = some (pure e) := rfl
  unfold step
  rw [execute_of_choice hcycle, execute_of_choice (f := { f with world.store := s }) hmarker]
  have heval := Run.eval_bind_of_ok (f := f) h
    (y := fun e => do Eval.output env.autoescape (← e.resolve env.filters f.world.scopes))
  simp only [Bind.bind, EStateM.bind] at heval ⊢
  rw [heval]
  rfl

/-- What has been counted is kept where the root layer is, but for other names. -/
theorem RootKept.counted {root : Value} {s s' : Store} (hroot : root = .dict r)
    (h : RootKept (· ≠ counter) root s s') (hn : s.Counted r counter n) :
    s'.Counted r counter n := by
  refine (h.mapping r (by rw [hroot]; rfl) (.text counter) ?_).trans hn
  rintro name hne heq
  exact hne (Key.text.inj heq).symm

section Apart

variable {s since : Store} {c : Scopes} {writes : String → Prop}

/-- Later on a run that is like itself can be taken as beginning there. -/
theorem Scopes.Apart.likeFrame_from (h : c.Apart s)
    (hf : LikeFrame (h.roots since writes) False f f) (writes' : String → Prop) :
    LikeFrame (h.roots f.world.store writes') False f f where
  world := h.likeWorld_from hf.world writes'
  output := hf.output
  loops := by
    refine hf.loops.imp fun l l' hl => ⟨hl.start, hl.names, hl.rest.imp fun item item' hitem => ?_⟩
    cases hitem with
    | pair key value => exact .pair key value
    | packed like => exact .packed like
  flags := rfl
  layer := False.elim

/-- What is found around a run is like itself at each place. -/
def Environment.Steady (h : c.Apart s) (env : Environment) : Prop :=
  ∀ since writes, LikeEnvironment (h.likeness since writes) env env

/-- **An instruction leaves the count** if it is no cycle under the counter, does not bind its name
and renders nothing inside. -/
theorem Linked.step_keeps_counter (h : c.Apart s) (hroot : c.root = .dict r)
    (henv : env.Steady h) (hf : LikeFrame (h.roots since writes) False f f)
    (hi : i.instruction.Within (h.roots since writes))
    (hlayer : i.instruction.Binds → f.world.scopes.pushed ≠ [])
    (hplain : ∀ source, i.instruction ≠ .nested source)
    (hcycle : ∀ values, i.instruction ≠ .cycle values counter)
    (hbinds : counter ∉ i.instruction.boundNames) (place : Nat)
    (hn : f.world.store.Counted r counter n) :
    (Frame.behind (i.step env place f)).world.store.Counted r counter n := by
  have hother : i.instruction.Within (h.roots f.world.store (· ≠ counter)) := by
    refine ⟨hi.expressions, fun values counter' heq => ⟨(hi.counter values counter' heq).1, ?_⟩,
      fun name v heq => ⟨?_, (hi.assigned name v heq).2⟩⟩
    · rintro rfl
      exact hcycle values heq
    · rintro rfl
      exact hbinds (heq ▸ List.mem_singleton_self _)
  have hr := step_alike (henv f.world.store (· ≠ counter)) hother place (h.likeFrame_from hf _)
    (fun hb => .inl (hlayer hb)) fun source heq => absurd heq (hplain source)
  generalize i.step env place f = result at hr
  cases hr with
  | ok frame _ => exact RootKept.counted hroot frame.world.store.rest.2.2.2 hn
  | error frame _ => exact RootKept.counted hroot frame.world.store.rest.2.2.2 hn

/-- **A cycle under the counter** gives the value that is due, and one more turn is counted. -/
theorem Linked.step_counts (h : c.Apart s) (hroot : c.root = .dict r) (henv : env.Steady h)
    (hf : LikeFrame (h.roots since fun _ => True) False f f) (hfree : f.world.scopes.Free counter)
    (hname : Scopes.constants.find? (.text counter) = none) {values : List Expression}
    (hi : i.instruction = .cycle values counter) (hvalues : values ≠ [])
    (place : Nat) (hn : f.world.store.Counted r counter n) :
    Turn.Gives r n ⟨env, ⟨i, place, f⟩, values, counter, hi⟩ ∧
      (Frame.behind (i.step env place f)).world.store.Counted r counter (n + 1) := by
  have hhere : f.world.scopes.root = .dict r := hf.world.scopes.root.trans hroot
  have hsize : r < f.world.store.dicts.size :=
    Nat.lt_of_lt_of_le (h.mapping r (by rw [hroot]; rfl)).1 hf.world.store.rest.2.2.1
  obtain ⟨e, hvalue, hchoice⟩ := Eval.inTurn_counter hhere hfree hname hn hvalues
  have hstep := step_of_inTurn env place hi hchoice
  refine ⟨⟨e, hvalue, hstep⟩, ?_⟩
  -- behind the choice the run goes on as at a marker, in the store where the turn is counted
  have hcounting : LikeFrame (h.roots since fun _ => True) False
      { f with world.store := f.world.store.counting r counter (n + 1) }
      { f with world.store := f.world.store.counting r counter (n + 1) } :=
    { hf with world := { hf.world with
        store := h.writeRoot hf.world.store hroot trivial (.int (n + 1)) } }
  have hmarker : Instruction.Within (h.roots since fun _ => True) (.expression e) :=
    ⟨fun e _ => h.within e, (fun _ _ heq => nomatch heq), (fun _ _ heq => nomatch heq)⟩
  rw [hstep]
  exact step_keeps_counter (i := { i with instruction := .expression e }) h hroot henv hcounting
    hmarker False.elim (fun _ heq => nomatch heq) (fun _ heq => nomatch heq) List.not_mem_nil place
    (Store.counted_counting hsize)

/-- **The source of a template inside** leaves the count, whether it has a value or not. -/
theorem Expression.resolve_keeps_counter (h : c.Apart s) (hroot : c.root = .dict r)
    (henv : env.Steady h) (hf : LikeFrame (h.roots since writes) False f f) (e : Expression)
    (hn : f.world.store.Counted r counter n) :
    match e.resolve env.filters f.world.scopes f.world.store with
    | .ok _ s' | .error _ s' => s'.Counted r counter n := by
  have hw := (h.likeFrame_from hf (· ≠ counter)).world
  have hr := expression_alike (henv f.world.store (· ≠ counter)).uniform hw.scopes (h.within e)
    _ _ hw.store
  generalize e.resolve env.filters f.world.scopes f.world.store = result at hr
  cases hr with
  | ok holds _ => exact RootKept.counted hroot holds.rest.2.2.2 hn
  | error holds _ => exact RootKept.counted hroot holds.rest.2.2.2 hn

end Apart
end Instructions

/-! ## 3. Visits -/

section Visits

variable {env : Environment} {inside : Value → World → List Turn} {v : Visit}

theorem Visit.turns_of_cycle {values : List Expression}
    (h : v.linked.instruction = .cycle values counter) :
    v.turns env inside = [⟨env, v, values, counter, h⟩] := by
  unfold turns
  split
  · rename_i values' counter' h'
    cases h.symm.trans h'
    rfl
  · rename_i h'
    cases h.symm.trans h'
  · rename_i hother _
    exact (hother values counter h).elim

theorem Visit.turns_of_nested {source : Expression} (h : v.linked.instruction = .nested source) :
    v.turns env inside =
      match source.resolve env.filters v.frame.world.scopes v.frame.world.store with
      | .ok value s => inside value { v.frame.world with store := s }
      | .error _ _ => [] := by
  unfold turns
  split
  · rename_i h'
    cases h.symm.trans h'
  · rename_i h'
    cases h.symm.trans h'
    rfl
  · rename_i hother
    exact (hother source h).elim

theorem Visit.turns_of_other
    (hcycle : ∀ values counter, v.linked.instruction ≠ .cycle values counter)
    (hnested : ∀ source, v.linked.instruction ≠ .nested source) : v.turns env inside = [] := by
  unfold turns
  split
  · rename_i h'
    exact (hcycle _ _ h').elim
  · rename_i h'
    exact (hnested _ h').elim
  · rfl

end Visits

/-! ## 4. Runs -/

namespace Program

section Countable

variable {s : Store} {c : Scopes} {p : Program} {env : Environment} {level : Nat → Nat} {w : World}
  {inside : Value → World → List Turn}

/-- What it takes to count the turns under a counter in a run: the program can be run beside itself,
neither the layers nor the program bind the counter's name, and each cycle has values. -/
structure Countable (h : c.Apart s) (r : Ref) (counter : String) (p : Program) (env : Environment)
    (level : Nat → Nat) (w : World) : Prop where
  runnable : p.Runnable (h.roots s fun _ => True) env level
  nestedLike : p.NestedLike (h.roots s fun _ => True) env w
  world : LikeWorld (h.roots s fun _ => True) w w
  steady : env.Steady h
  root : c.root = .dict r
  free : w.scopes.Free counter
  unbound : counter ∉ p.boundNames
  noConstant : Scopes.constants.find? (.text counter) = none
  values : ∀ i ∈ p.code, ∀ values counter, i.instruction = .cycle values counter → values ≠ []

/-- The turns in the templates inside are taken in order, wherever the run comes to one. -/
def InsideTaken (r : Ref) (counter : String) (p : Program) (env : Environment)
    (inside : Value → World → List Turn) (w : World) : Prop :=
  ∀ {place f i source v s n}, p.Reaches env 0 ⟨w, [], [], []⟩ place f → p.code[place]? = some i →
    i.instruction = .nested source →
    source.resolve env.filters f.world.scopes f.world.store = .ok v s → s.Counted r counter n →
    TakenFrom r counter n (inside v { f.world with store := s })
      (World.behind (env.nested v { f.world with store := s })).store

/-- The values that a template inside leaves are those that rendering it leaves. -/
theorem behind_of_nested {i : Linked} {source : Expression} {place : Nat} {f : Frame}
    (hi : i.instruction = .nested source) :
    (Frame.behind (i.step env place f)).world.store =
      match source.resolve env.filters f.world.scopes f.world.store with
      | .ok v s => (World.behind (env.nested v { f.world with store := s })).store
      | .error _ s => s := by
  have hscopes : Run.scopes f = .ok f.world.scopes f := rfl
  unfold Linked.step Linked.execute
  rw [hi]
  dsimp only
  rw [bind_of_ok hscopes]
  cases hv : source.resolve env.filters f.world.scopes f.world.store with
  | error e s =>
    rw [bind_of_error (Run.eval_of_error hv)]
    rfl
  | ok v s =>
    rw [bind_of_ok (Run.eval_of_ok hv)]
    dsimp only
    cases hn : env.nested v { f.world with store := s } with
    | error e w =>
      rw [bind_of_error (Run.inWorld_of_error hn)]
      rfl
    | ok u w =>
      rw [bind_of_ok (Run.inWorld_of_ok hn)]
      rfl

/-- **An instruction that is carried out**: its turns are taken in order. -/
theorem Countable.step {h : c.Apart s} (hp : Countable h r counter p env level w)
    (hinside : InsideTaken r counter p env inside w) {place : Nat} {f : Frame} {i : Linked}
    (steps : p.Reaches env 0 ⟨w, [], [], []⟩ place f) (here : p.code[place]? = some i)
    (hn : f.world.store.Counted r counter n) :
    TakenFrom r counter n (Visit.turns env inside ⟨i, place, f⟩)
      (Frame.behind (i.step env place f)).world.store := by
  obtain ⟨hf, hlayers⟩ := reached_like hp.runnable hp.nestedLike hp.world steps
  have hmem : i ∈ p.code := Array.mem_of_getElem? here
  have hwithin := hp.runnable.within i hmem
  have hlayer : i.instruction.Binds → f.world.scopes.pushed ≠ [] := by
    intro hb
    have hin := hp.runnable.levels.inside here (Instruction.needsLayer_of_binds hb)
    obtain ⟨layer, rest, hpushed, -⟩ := hlayers.scopes.exists_layer hin
    exact hpushed ▸ List.cons_ne_nil layer rest
  have hbinds := not_mem_boundNames hp.unbound here
  by_cases hnested : ∃ source, i.instruction = .nested source
  · obtain ⟨source, hi⟩ := hnested
    have hkept := Expression.resolve_keeps_counter h hp.root hp.steady hf source hn
    rw [Visit.turns_of_nested hi, behind_of_nested hi]
    dsimp only
    cases hv : source.resolve env.filters f.world.scopes f.world.store with
    | error e s' =>
      rw [hv] at hkept
      exact .none hkept
    | ok v s' =>
      rw [hv] at hkept
      exact hinside steps here hi hv hkept
  have hplain : ∀ source, i.instruction ≠ .nested source := fun source hi => hnested ⟨source, hi⟩
  by_cases hcycle : ∃ values counter, i.instruction = .cycle values counter
  · obtain ⟨values, counter', hi⟩ := hcycle
    rw [Visit.turns_of_cycle hi]
    by_cases hcounter : counter' = counter
    · subst hcounter
      have hfree := (steps.free hp.unbound hp.runnable.restores ⟨hp.free, by simp⟩).scopes
      obtain ⟨hgives, hcounted⟩ := Linked.step_counts h hp.root hp.steady hf hfree
        hp.noConstant hi (hp.values i hmem values counter' hi) place hn
      exact .single rfl hgives hcounted
    · have hother : ∀ values', i.instruction ≠ .cycle values' counter := fun values' hi' =>
        hcounter (Instruction.cycle.inj (hi.symm.trans hi')).2
      exact .other hcounter (Linked.step_keeps_counter h hp.root hp.steady hf hwithin hlayer hplain
        hother hbinds place hn)
  · have hno : ∀ values counter, i.instruction ≠ .cycle values counter :=
      fun values counter' hi => hcycle ⟨values, counter', hi⟩
    rw [Visit.turns_of_other hno hplain]
    exact .none (Linked.step_keeps_counter h hp.root hp.steady hf hwithin hlayer hplain
      (fun values => hno values counter) hbinds place hn)

/-- **A run from a place on** takes its turns in order. -/
theorem Countable.runFrom {h : c.Apart s} (hp : Countable h r counter p env level w)
    (hinside : InsideTaken r counter p env inside w) (spare place : Nat) {f : Frame}
    (steps : p.Reaches env 0 ⟨w, [], [], []⟩ place f) (hn : f.world.store.Counted r counter n) :
    TakenFrom r counter n ((p.visitsFrom env spare place f).flatMap (Visit.turns env inside))
      (Frame.behind (p.runFrom env spare place f)).world.store := by
  fun_induction p.visitsFrom env spare place f generalizing n with
  | case1 spare place f hend =>
    rw [runFrom_of_end hend]
    exact .none hn
  | case2 spare place f i here e f' hfails =>
    have hstep := hp.step hinside steps here hn
    rw [hfails] at hstep
    rw [Program.runFrom, here]
    simp only [hfails, List.flatMap_cons, List.flatMap_nil, List.append_nil]
    exact hstep
  | case3 spare place f i here next f' hok hbelow ih =>
    have hstep := hp.step hinside steps here hn
    rw [hok] at hstep
    rw [runFrom_of_below here hok hbelow, List.flatMap_cons]
    exact hstep.append (ih (steps.tail here hok) hstep.behind)
  | case4 place f i here next f' hok hbelow =>
    have hstep := hp.step hinside steps here hn
    rw [hok] at hstep
    rw [runFrom_of_spent here hok hbelow]
    simp only [List.flatMap_cons, List.flatMap_nil, List.append_nil]
    exact hstep
  | case5 place f i here next f' hok hbelow spare ih =>
    have hstep := hp.step hinside steps here hn
    rw [hok] at hstep
    rw [runFrom_of_spare here hok hbelow, List.flatMap_cons]
    exact hstep.append (ih (steps.tail here hok) hstep.behind)

/-- **A run of a program** takes its turns in order. -/
theorem Countable.run {h : c.Apart s} (hp : Countable h r counter p env level w)
    (hinside : InsideTaken r counter p env inside w) (hn : w.store.Counted r counter n) :
    TakenFrom r counter n (p.turns env inside w) (World.behind (p.run env w)).store := by
  have hr := hp.runFrom hinside spareSteps 0 (.refl 0 ⟨w, [], [], []⟩) hn
  unfold Program.turns Program.run
  dsimp only
  generalize p.runFrom env spareSteps 0 ⟨w, [], [], []⟩ = result at hr ⊢
  cases result with
  | error e f => exact hr
  | ok u f =>
    dsimp only
    split
    · exact hr
    · exact hr

end Countable
end Program
end TextTemplate
