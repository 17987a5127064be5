/-
# Rounds of loops

A loop begins a round when its names are bound to an item, in the layer that has been pushed for it.
The round lasts until the run comes back to the end of that loop.  Until then the layer stays where
it is, and each layer above it binds the names of a loop that is running inside, and no others.  So
whatever happens in the round, its names stand for the item, but for those that a loop inside binds.

* `Linked.Begins` is the beginning of a round, and `Linked.begun_of_step` what comes of it;
* `Layered` says that each loop has a layer of its own, which `Emitted.layered` finds in the code;
* `InRound` is the invariant of a round, `InRound.step` and `InRound.reached` carry it along a run;
* `InRound.findPushed?` reads the names of the round.
-/
import Mathlib.Data.List.Forall2
import TextTemplate.Proofs.Cycles.Names

namespace TextTemplate

open TextTemplate.Outcome

/-! ## 1. Binding an item -/

/-- The names of a loop with what they stand for in a round.  One name stands for the value
alone. -/
def bindings : List String → Value → Value → List (String × Value)
  | [], _, _ => []
  | [name], _, value => [(name, value)]
  | first :: second :: _, key, value => [(first, key), (second, value)]

/-- The key and the value that an item of a loop consists of. -/
inductive LoopItem.Gives (s : Store) : LoopItem → Value → Value → Prop where
  | pair (key value : Value) : Gives s (.pair key value) key value
  | packed {v key value : Value} {s' : Store} (taken : Eval.pairOf v s = .ok (key, value) s') :
      Gives s (.packed v) key value

/-- A mapping with some names bound anew, one after another. -/
def Dict.bindAll (d : Dict) (bound : List (String × Value)) : Dict :=
  bound.foldl (fun d b => d.bind b.1 b.2) d

namespace Dict

theorem find?_bindAll_of_not_mem {name : String} {bound : List (String × Value)} (d : Dict)
    (h : name ∉ bound.map Prod.fst) : (d.bindAll bound).find? (.text name) =
      d.find? (.text name) := by
  induction bound generalizing d with
  | nil => rfl
  | cons b bound ih =>
    obtain ⟨hne, hrest⟩ := not_or.mp (mt List.mem_cons.mpr h)
    refine (ih (d.bind b.1 b.2) hrest).trans ?_
    exact find?_insert_ne _ _ _ fun heq => hne (Key.text.inj heq).symm

/-- A name that is bound once stands for what it has been bound to. -/
theorem find?_bindAll {name : String} {v : Value} {bound : List (String × Value)} (d : Dict)
    (hnodup : (bound.map Prod.fst).Nodup) (h : (name, v) ∈ bound) :
    (d.bindAll bound).find? (.text name) = some v := by
  induction bound generalizing d with
  | nil => cases h
  | cons b bound ih =>
    obtain ⟨hnot, hnodup⟩ := List.nodup_cons.mp hnodup
    rcases List.mem_cons.mp h with rfl | h
    · exact (find?_bindAll_of_not_mem _ hnot).trans (find?_insert_self _ _ _ _)
    · exact ih (d.bind b.1 b.2) hnodup h

end Dict

section Items

variable {names : List String} {key value : Value} {item : LoopItem} {f f' : Frame} {layer : Dict}
  {rest : List Dict}

/-- No other names are bound than those of the loop. -/
theorem names_of_bindings : List.Sublist ((bindings names key value).map Prod.fst) names := by
  match names with
  | [] => exact .slnil
  | [name] => exact .refl _
  | first :: second :: names => exact .cons_cons _ (.cons_cons _ (List.nil_sublist _))

/-- The frame with a name bound in the innermost layer. -/
theorem Run.bind_pushed (hpushed : f.world.scopes.pushed = layer :: rest) (name : String)
    (v : Value) : Run.bind name v f =
      .ok ⟨⟩ { f with world.scopes.pushed := layer.bind name v :: rest } := by
  have hwrite : f.world.scopes.write (.plain name) v f.world.store =
      .ok { f.world.scopes with pushed := layer.bind name v :: rest } f.world.store := by
    unfold Scopes.write
    rw [hpushed]
    rfl
  have hscopes : Run.scopes f = .ok f.world.scopes f := rfl
  unfold Run.bind
  rw [bind_of_ok hscopes, bind_of_ok (Run.eval_of_ok hwrite)]
  rfl

/-- A key and a value are bound in the innermost layer. -/
theorem Run.bindPair_pushed (hnames : names ≠ [])
    (hpushed : f.world.scopes.pushed = layer :: rest) (key value : Value) :
    Run.bindPair names key value f = .ok ⟨⟩ { f with
      world.scopes.pushed := layer.bindAll (bindings names key value) :: rest } := by
  match names with
  | [] => exact absurd rfl hnames
  | [name] => exact Run.bind_pushed hpushed name value
  | first :: second :: names =>
    exact (bind_of_ok (Run.bind_pushed hpushed first key)).trans (Run.bind_pushed rfl second value)

/-- **An item is bound in the innermost layer.** -/
theorem Run.bindItem_pushed {u : Unit} (h : Run.bindItem names item f = .ok u f')
    (hpushed : f.world.scopes.pushed = layer :: rest) :
    f'.loops = f.loops ∧ ∃ key value, item.Gives f.world.store key value ∧
      f'.world.scopes.pushed = layer.bindAll (bindings names key value) :: rest := by
  have hpair : ∀ {g g' : Frame} {key value : Value}, g.world.scopes.pushed = layer :: rest →
      Run.bindPair names key value g = .ok u g' →
      g'.world.scopes.pushed = layer.bindAll (bindings names key value) :: rest := by
    intro g g' key value hg hbind
    by_cases hnames : names = []
    · subst hnames
      cases hbind
    · cases (Run.bindPair_pushed hnames hg key value).symm.trans hbind
      rfl
  refine ⟨Run.KeepsLoops.framed (Run.bindItem_local names item).framed _ _ _ h, ?_⟩
  cases item with
  | pair key value => exact ⟨key, value, .pair key value, hpair hpushed h⟩
  | packed v =>
    obtain ⟨⟨key, value⟩, g, heval, hbind⟩ := bind_eq_ok.mp h
    obtain ⟨s, htaken, rfl⟩ := Run.eval_eq_ok.mp heval
    exact ⟨key, value, .packed htaken, hpair (g := { f with world.store := s }) hpushed hbind⟩

end Items

/-! ## 2. The beginning of a round -/

section Begins

variable {env : Environment} {i : Linked} {place next : Nat} {f f' : Frame}

/-- **The instruction begins a round of a loop** with an item: the first round at the start of the
loop, or another one at its end.  `outer` are the loops around it, and `s` the values when the names
are bound. -/
inductive Linked.Begins (env : Environment) (i : Linked) (place : Nat) (f : Frame)
    (item : LoopItem) (l : Loop) (outer : List Loop) (s : Store) : Prop where
  | first {sequence : Expression} {names : List String} {rest : List LoopItem}
      (here : i.instruction = .loopStart sequence names)
      (items : (sequence.resolve env.filters f.world.scopes >>= Eval.loopItems) f.world.store =
        .ok (item :: rest) s)
      (loop : l = .make place names rest) (running : f.loops = outer)
  | again {before : Loop} (here : i.instruction = .loopNext) (running : f.loops = before :: outer)
      (took : before.next? = some (item, l)) (store : f.world.store = s)

/-- **What comes of the beginning of a round**: the loop is running, and its names stand for the
item in the innermost layer. -/
theorem Linked.begun_of_step {item : LoopItem} {l : Loop} {outer : List Loop} {s : Store}
    {layer : Dict} {rest : List Dict} (hb : i.Begins env place f item l outer s)
    (hpushed : f.world.scopes.pushed = layer :: rest)
    (hstep : i.step env place f = .ok next f') :
    f'.loops = l :: outer ∧ ∃ key value, item.Gives s key value ∧
      f'.world.scopes.pushed = layer.bindAll (bindings l.names key value) :: rest := by
  obtain ⟨target, hr⟩ : ∃ target, i.execute env place f = .ok target f' := by
    unfold step at hstep
    split at hstep
    · cases hstep
    · rename_i target f₁ hr
      cases hstep
      exact ⟨target, hr⟩
  unfold execute at hr
  cases hb with
  | first here items loop running =>
    subst loop running
    rw [here] at hr
    obtain ⟨c, f₁, hc, hr⟩ := bind_eq_ok.mp hr
    cases hc
    obtain ⟨found, f₂, heval, hr⟩ := bind_eq_ok.mp hr
    obtain ⟨s', hitems, rfl⟩ := Run.eval_eq_ok.mp heval
    cases items.symm.trans hitems
    obtain ⟨u, f₃, hadd, hr⟩ := bind_eq_ok.mp hr
    cases hadd
    obtain ⟨u', f₄, hitem, hr⟩ := bind_eq_ok.mp hr
    cases hr
    exact Run.bindItem_pushed hitem hpushed
  | @again before here running took store =>
    subst store
    rw [here] at hr
    obtain ⟨g, f₁, hget, hr⟩ := bind_eq_ok.mp hr
    cases hget
    simp only [running, took] at hr
    obtain ⟨u, f₂, hset, hr⟩ := bind_eq_ok.mp hr
    cases hset
    obtain ⟨u', f₃, hitem, hr⟩ := bind_eq_ok.mp hr
    cases hr
    rw [(Loop.next?_start took).2]
    exact Run.bindItem_pushed hitem hpushed

/-- **The start of a loop** begins the first round, or leaves the loops and the layers if there is
nothing to iterate over. -/
theorem Linked.step_loopStart {sequence : Expression} {names : List String}
    (hi : i.instruction = .loopStart sequence names) (hstep : i.step env place f = .ok next f') :
    (f'.loops = f.loops ∧ f'.world.scopes = f.world.scopes) ∧
        next = i.target.getD (place + 1) ∨
      ∃ item l s, i.Begins env place f item l f.loops s ∧ f'.loops = l :: f.loops ∧
        next = place + 1 := by
  unfold step at hstep
  split at hstep
  · cases hstep
  rename_i target f₁ hr
  cases hstep
  unfold execute at hr
  rw [hi] at hr
  obtain ⟨c, f₁, hc, hr⟩ := bind_eq_ok.mp hr
  cases hc
  obtain ⟨found, f₂, heval, hr⟩ := bind_eq_ok.mp hr
  obtain ⟨s', hitems, rfl⟩ := Run.eval_eq_ok.mp heval
  cases found with
  | nil =>
    cases hr
    exact .inl ⟨⟨rfl, rfl⟩, rfl⟩
  | cons item rest =>
    obtain ⟨u, f₃, hadd, hr⟩ := bind_eq_ok.mp hr
    obtain ⟨u', f₄, hitem, hr⟩ := bind_eq_ok.mp hr
    cases hr
    cases hadd
    have hloops := Run.KeepsLoops.framed (Run.bindItem_local names item).framed _ _ _ hitem
    exact .inr ⟨item, _, s', .first hi hitems rfl rfl, hloops, rfl⟩

/-- **The end of a loop** begins another round, or ends the innermost loop and leaves the layers. -/
theorem Linked.step_loopNext (hi : i.instruction = .loopNext)
    (hstep : i.step env place f = .ok next f') : ∃ before outer, f.loops = before :: outer ∧
      ((f'.loops = outer ∧ f'.world.scopes = f.world.scopes) ∧ next = place + 1 ∨
        ∃ item l, i.Begins env place f item l outer f.world.store ∧ l.names = before.names ∧
          next = i.target.getD (place + 1)) := by
  unfold step at hstep
  split at hstep
  · cases hstep
  rename_i target f₁ hr
  cases hstep
  unfold execute at hr
  rw [hi] at hr
  obtain ⟨g, f₁, hget, hr⟩ := bind_eq_ok.mp hr
  cases hget
  cases hloops : f.loops with
  | nil =>
    rw [hloops] at hr
    cases hr
  | cons before outer =>
    simp only [hloops] at hr
    refine ⟨before, outer, rfl, ?_⟩
    cases hnext : before.next? with
    | none =>
      rw [hnext] at hr
      cases hr
      exact .inl ⟨⟨rfl, rfl⟩, rfl⟩
    | some taken =>
      obtain ⟨item, l⟩ := taken
      rw [hnext] at hr
      obtain ⟨u, f₃, hset, hr⟩ := bind_eq_ok.mp hr
      obtain ⟨u', f₄, hitem, hr⟩ := bind_eq_ok.mp hr
      cases hr
      exact .inr ⟨item, l, .again hi hloops hnext rfl, (Loop.next?_start hnext).2, rfl⟩

/-- **Another instruction** leaves the loops, and leaves the layers unless it pushes one or takes
one away. -/
theorem Linked.step_other (hnested : ∀ v, Restores (env.nested v))
    (hpush : i.instruction ≠ .pushScope) (hpop : i.instruction ≠ .popScope)
    (hstart : ∀ sequence names, i.instruction ≠ .loopStart sequence names)
    (hnext : i.instruction ≠ .loopNext) (hstep : i.step env place f = .ok next f') :
    f'.loops = f.loops ∧ f'.world.scopes.pushed = f.world.scopes.pushed := by
  have hneeds : ¬ i.instruction.NeedsLayer := by
    intro hneeds
    cases hi : i.instruction with
    | popScope => exact hpop hi
    | loopStart sequence names => exact hstart sequence names hi
    | loopNext => exact hnext hi
    | _ =>
      rw [hi] at hneeds
      exact hneeds
  have habove : f.world.Above 0 f.world.toContext := ⟨.refl f.world.scopes, rfl⟩
  have hstays := execute_stays hnested hpush hpop (fun h => absurd h hneeds) place f habove
  unfold step at hstep
  split at hstep
  · cases hstep
  rename_i target f₁ hr
  cases hstep
  rw [hr] at hstays
  obtain ⟨inner, hpushed, hlength⟩ := hstays.1.scopes.pushed
  obtain rfl := List.eq_nil_of_length_eq_zero hlength
  exact ⟨execute_keepsLoops place hstart hnext f target f' hr, hpushed⟩

end Begins

/-! ## 3. The layers of the code -/

/-- **Each loop of the code has a layer of its own**: it is pushed in front of the start and taken
away behind the end. -/
structure Layered (code : List Instruction) : Prop where
  pushed : ∀ {place}, code[place]? = some .pushScope →
    ∃ sequence names, code[place + 1]? = some (.loopStart sequence names)
  popped : ∀ {place}, code[place]? = some .loopNext → code[place + 1]? = some .popScope
  starts : ∀ {place sequence names}, code[place + 1]? = some (.loopStart sequence names) →
    code[place]? = some .pushScope
  pops : ∀ {place}, code[place + 1]? = some .popScope → code[place]? = some .loopNext

section Layers

variable {code : List Instruction} {place : Nat} {i : Instruction}

/-- The first instruction that is emitted neither starts a loop nor takes a layer away. -/
theorem Emitted.head {names : List String} {row : List Instruction} (h : Emitted names row) :
    (∀ sequence bound, row[0]? ≠ some (.loopStart sequence bound)) ∧ row[0]? ≠ some .popScope := by
  cases h with
  | nil => exact ⟨by simp, by simp⟩
  | single hs =>
    constructor
    · rintro sequence bound ⟨⟩
      exact hs
    · rintro ⟨⟩
      exact hs
  | enter => exact ⟨by simp, by simp⟩
  | leave => exact ⟨by simp, by simp⟩

/-- **What is emitted has a layer for each loop.** -/
theorem Emitted.layered {names : List String} {row : List Instruction} (h : Emitted names row) :
    Layered row := by
  induction h with
  | nil => exact ⟨by simp, by simp, by simp, by simp⟩
  | @single i row hs _ rest ih =>
    obtain ⟨hstart, hpop⟩ := rest.head
    constructor
    · rintro (_ | place) h
      · cases h
        exact hs.elim
      · exact ih.pushed h
    · rintro (_ | place) h
      · cases h
        exact hs.elim
      · exact ih.popped h
    · rintro (_ | place) sequence bound h
      · exact absurd h (hstart sequence bound)
      · exact ih.starts h
    · rintro (_ | place) h
      · exact absurd h hpop
      · exact ih.pops h
  | @enter e row bound _ rest ih =>
    obtain ⟨hstart, hpop⟩ := rest.head
    constructor
    · rintro (_ | _ | place) h
      · exact ⟨e, bound, rfl⟩
      · cases h
      · exact ih.pushed h
    · rintro (_ | _ | place) h
      · cases h
      · cases h
      · exact ih.popped h
    · rintro (_ | _ | place) sequence bound' h
      · rfl
      · exact absurd h (hstart sequence bound')
      · exact ih.starts h
    · rintro (_ | _ | place) h
      · cases h
      · exact absurd h hpop
      · exact ih.pops h
  | @leave row rest ih =>
    obtain ⟨hstart, hpop⟩ := rest.head
    constructor
    · rintro (_ | _ | place) h
      · cases h
      · cases h
      · exact ih.pushed h
    · rintro (_ | _ | place) h
      · rfl
      · cases h
      · exact ih.popped h
    · rintro (_ | _ | place) sequence bound h
      · cases h
      · exact absurd h (hstart sequence bound)
      · exact ih.starts h
    · rintro (_ | _ | place) h
      · rfl
      · exact absurd h hpop
      · exact ih.pops h

/-- The layers at a place that belong to no running loop: the new one at the start of a loop, and
the one that has been left at the end of a loop. -/
inductive Spare (code : List Instruction) (place : Nat) : List Dict → Prop where
  | fresh {sequence : Expression} {names : List String}
      (here : code[place]? = some (.loopStart sequence names)) : Spare code place [[]]
  | left (here : code[place]? = some .popScope) (layer : Dict) : Spare code place [layer]
  | none (hstart : ∀ sequence names, code[place]? ≠ some (.loopStart sequence names))
      (hpop : code[place]? ≠ some .popScope) : Spare code place []

/-- Behind an instruction that neither pushes a layer nor ends a loop there is none. -/
theorem Layered.spare_succ (h : Layered code) (here : code[place]? = some i)
    (hpush : i ≠ .pushScope) (hnext : i ≠ .loopNext) : Spare code (place + 1) [] :=
  .none (fun _ _ hstart => hpush (Option.some.inj (here.symm.trans (h.starts hstart))))
    fun hpop => hnext (Option.some.inj (here.symm.trans (h.pops hpop)))

/-- Nor is there one where a jump leads that does not skip a loop. -/
theorem Layered.spare_target (h : Layered code) {target : Nat}
    (haims : Aims code place (some target))
    (hstart : ∀ sequence names, code[place]? ≠ some (.loopStart sequence names)) :
    Spare code target [] := by
  generalize htarget : some target = t at haims
  cases haims with
  | branch facing stop =>
    cases htarget
    rcases stop with rfl | rfl
    · exact h.spare_succ facing.there (by simp) (by simp)
    · exact h.spare_succ facing.there (by simp) (by simp)
  | otherwise facing =>
    cases htarget
    exact h.spare_succ facing.there (by simp) (by simp)
  | loopStart facing => exact absurd facing.here (hstart _ _)
  | loopNext facing =>
    cases htarget
    exact h.spare_succ facing.here (by simp) (by simp)
  | skip facing =>
    cases htarget
    exact h.spare_succ facing.there (by simp) (by simp)
  | overtaken => cases htarget
  | still => cases htarget

end Layers

/-! ## 4. The invariant of a round -/

namespace Program

/-- Steps that are all allowed lead from a place and a frame to others. -/
inductive ReachesBy (p : Program) (env : Environment) (allowed : Linked → Frame → Prop) :
    Nat → Frame → Nat → Frame → Prop where
  | refl (place : Nat) (f : Frame) : ReachesBy p env allowed place f place f
  | tail {place place' place'' : Nat} {f f' f'' : Frame} {i : Linked}
      (steps : ReachesBy p env allowed place f place' f') (here : p.code[place']? = some i)
      (allows : allowed i f') (step : i.step env place' f' = .ok place'' f'') :
      ReachesBy p env allowed place f place'' f''

/-- Allowed steps are steps. -/
theorem ReachesBy.reaches {p : Program} {env : Environment} {allowed : Linked → Frame → Prop}
    {start place place' : Nat} {f₀ f f' : Frame} (h : p.ReachesBy env allowed place f place' f')
    (before : p.Reaches env start f₀ place f) : p.Reaches env start f₀ place' f' := by
  induction h with
  | refl => exact before
  | tail _ here _ hstep ih => exact (ih before).tail here hstep

end Program

/-- A step that does not come to the end of the innermost one of some running loops. -/
def WithinRound (rounds : List Loop) (i : Linked) (f : Frame) : Prop :=
  i.instruction = .loopNext → f.loops ≠ rounds

/-- The layer binds no other names than those of the loop. -/
def Loop.Owns (l : Loop) (layer : Dict) : Prop :=
  ∀ name, name ∉ l.names → layer.find? (.text name) = none

theorem Loop.Owns.bindAll {l l' : Loop} {layer : Dict} (h : l.Owns layer)
    (hnames : l'.names = l.names) (key value : Value) :
    l'.Owns (layer.bindAll (bindings l'.names key value)) := by
  intro name hname
  rw [Dict.find?_bindAll_of_not_mem layer fun hmem => hname (names_of_bindings.subset hmem)]
  exact h name (hnames ▸ hname)

/-- **A run is in a round** of a loop with an item: some step has begun the round, and since then
the run has not come back to the end of the loop. -/
def Program.RoundOf (p : Program) (env : Environment) (w : World) (l : Loop) (outer : List Loop)
    (item : LoopItem) (s : Store) (place : Nat) (f : Frame) : Prop :=
  ∃ start f₀ i next f₁, p.Reaches env 0 ⟨w, [], [], []⟩ start f₀ ∧ p.code[start]? = some i ∧
    i.Begins env start f₀ item l outer s ∧ i.step env start f₀ = .ok next f₁ ∧
    p.ReachesBy env (WithinRound (l :: outer)) next f₁ place f

section Rounds

variable {p : Program} {env : Environment} {w : World} {place next : Nat} {f f' : Frame}

theorem Program.RoundOf.tail {l : Loop} {outer : List Loop} {item : LoopItem} {s : Store}
    {i : Linked} (h : p.RoundOf env w l outer item s place f) (here : p.code[place]? = some i)
    (hwithin : WithinRound (l :: outer) i f) (hstep : i.step env place f = .ok next f') :
    p.RoundOf env w l outer item s next f' := by
  obtain ⟨start, f₀, i₀, next₀, f₁, hreaches, here₀, hb, hstep₀, hsteps⟩ := h
  exact ⟨start, f₀, i₀, next₀, f₁, hreaches, here₀, hb, hstep₀, hsteps.tail here hwithin hstep⟩

/-- **Where a loop is running, the run is in a round of it.** -/
theorem Program.Reaches.exists_round (h : p.Reaches env 0 ⟨w, [], [], []⟩ place f)
    {inner : List Loop} {l : Loop} {outer : List Loop} (hloops : f.loops = inner ++ l :: outer) :
    ∃ item s, p.RoundOf env w l outer item s place f := by
  generalize hf₀ : (⟨w, [], [], []⟩ : Frame) = f₀ at h
  induction h generalizing inner l outer with
  | refl =>
    subst hf₀
    simp at hloops
  | @tail place next f₀ f f' i steps here hstep ih =>
    subst hf₀
    -- the step begins the round, or the round goes on, because a loop inside is not over yet
    have hbegun : ∀ {item outer' s}, i.Begins env place f item l outer' s → outer' = outer →
        ∃ item s, p.RoundOf env w l outer item s next f' := by
      rintro item _ s hb rfl
      exact ⟨item, s, place, f, i, next, f', steps, here, hb, hstep, .refl next f'⟩
    have hgoes : ∀ inner' : List Loop, f.loops = inner' ++ l :: outer →
        (i.instruction = .loopNext → inner' ≠ []) →
        ∃ item s, p.RoundOf env w l outer item s next f' := by
      intro inner' hbefore hinner
      obtain ⟨item, s, hround⟩ := ih hbefore rfl
      refine ⟨item, s, hround.tail here (fun hi heq => hinner hi ?_) hstep⟩
      exact List.append_left_eq_self.mp (hbefore.symm.trans heq)
    cases Linked.step_loops hstep with
    | passes plain other loops goes =>
      exact hgoes inner (loops.symm.trans hloops) fun hi => absurd hi other
    | jumps other loops goes =>
      exact hgoes inner (loops.symm.trans hloops) fun hi => absurd hi other
    | enters start' loops goes =>
      rcases Linked.step_loopStart start' hstep with
        ⟨⟨hkept, -⟩, -⟩ | ⟨item, l', s, hb, hbegins, -⟩
      · exact absurd (hkept.symm.trans loops) (by simp)
      · rw [hbegins] at hloops
        cases inner with
        | nil =>
          obtain ⟨rfl, houter⟩ := List.cons.inj hloops
          exact hbegun hb houter
        | cons m inner =>
          refine hgoes inner (List.cons.inj hloops).2 fun hi => ?_
          rw [start'] at hi
          cases hi
    | again loopNext before took loops goes =>
      rw [loops] at hloops
      cases inner with
      | nil =>
        obtain ⟨rfl, rfl⟩ := List.cons.inj hloops
        exact hbegun (.again loopNext before took rfl) rfl
      | cons m inner =>
        obtain ⟨-, rfl⟩ := List.cons.inj hloops
        exact hgoes (_ :: inner) before fun _ => List.cons_ne_nil _ _
    | @leaves l' outer' loopNext before loops goes =>
      rw [← loops, hloops] at before
      exact hgoes (l' :: inner) before fun _ => List.cons_ne_nil _ _

end Rounds

/-- **Inside a round**: other loops are running inside the loops of the round, and above its layers
there are those of the loops inside, each binding the names of its loop and no others, and perhaps
a spare one. -/
def InRound (code : List Instruction) (rounds : List Loop) (kept : List Dict) (place : Nat)
    (f : Frame) : Prop :=
  ∃ inner own spare, f.loops = inner ++ rounds ∧
    f.world.scopes.pushed = spare ++ (own ++ kept) ∧ Spare code place spare ∧
    List.Forall₂ Loop.Owns inner own

namespace InRound

section Steps

variable {code : List Instruction} {env : Environment} {place next : Nat} {f f' : Frame}
  {i : Linked} {rounds : List Loop} {kept : List Dict}

theorem pushScope (h : InRound code rounds kept place f) (hcode : Layered code)
    (hi : i.instruction = .pushScope) (here : code[place]? = some i.instruction)
    (hstep : i.step env place f = .ok next f') : InRound code rounds kept next f' := by
  obtain ⟨inner, own, spare, hloops, hpushed, hspare, hown⟩ := h
  rw [hi] at here
  obtain ⟨sequence, names, hstart⟩ := hcode.pushed here
  cases (Linked.step_pushScope hi place f).symm.trans hstep
  cases hspare with
  | fresh here' => cases Option.some.inj (here.symm.trans here')
  | left here' => cases Option.some.inj (here.symm.trans here')
  | none => exact ⟨inner, own, [[]], hloops, congrArg ([] :: ·) hpushed, .fresh hstart, hown⟩

theorem popScope (h : InRound code rounds kept place f) (hcode : Layered code)
    (hi : i.instruction = .popScope) (here : code[place]? = some i.instruction)
    (hstep : i.step env place f = .ok next f') : InRound code rounds kept next f' := by
  obtain ⟨inner, own, spare, hloops, hpushed, hspare, hown⟩ := h
  rw [hi] at here
  cases hspare with
  | fresh here' => cases Option.some.inj (here.symm.trans here')
  | none _ hpop => exact absurd here hpop
  | left _ layer =>
    cases (Linked.step_popScope hi place hpushed).symm.trans hstep
    exact ⟨inner, own, [], hloops, rfl, hcode.spare_succ here (by simp) (by simp), hown⟩

theorem loopStart {sequence : Expression} {names : List String}
    (h : InRound code rounds kept place f) (hcode : Layered code)
    (hi : i.instruction = .loopStart sequence names) (here : code[place]? = some i.instruction)
    (haims : Aims code place i.target) (hstep : i.step env place f = .ok next f') :
    InRound code rounds kept next f' := by
  obtain ⟨inner, own, spare, hloops, hpushed, hspare, hown⟩ := h
  rw [hi] at here
  cases hspare with
  | left here' => cases Option.some.inj (here.symm.trans here')
  | none hstart => exact absurd here (hstart _ _)
  | fresh =>
    rcases Linked.step_loopStart hi hstep with
      ⟨⟨hloops', hscopes'⟩, hgoes⟩ | ⟨item, l, s, hbegins, -, rfl⟩
    · -- with nothing to iterate over the new layer is the one that is left behind the end
      obtain ⟨stop, hfacing, htarget⟩ := haims.facing_of_loopStart here
      rw [htarget] at hgoes
      refine ⟨inner, own, [[]], hloops'.trans hloops, ?_, ?_, hown⟩
      · rw [hscopes', hpushed]
      · exact hgoes ▸ .left (hcode.popped hfacing.there) []
    · obtain ⟨hloops', key, value, -, hpushed'⟩ := Linked.begun_of_step hbegins hpushed hstep
      have hnew : l.Owns [] := fun _ _ => rfl
      refine ⟨l :: inner, _ :: own, [], ?_, hpushed', ?_, .cons (hnew.bindAll rfl key value) hown⟩
      · rw [hloops', hloops]
        rfl
      · exact hcode.spare_succ here (by simp) (by simp)

theorem loopNext (h : InRound code rounds kept place f) (hcode : Layered code)
    (hi : i.instruction = .loopNext) (here : code[place]? = some i.instruction)
    (haims : Aims code place i.target) (hwithin : f.loops ≠ rounds)
    (hstep : i.step env place f = .ok next f') : InRound code rounds kept next f' := by
  obtain ⟨inner, own, spare, hloops, hpushed, hspare, hown⟩ := h
  rw [hi] at here
  obtain ⟨before, outer, hbefore, hgoes⟩ := Linked.step_loopNext hi hstep
  cases hown with
  | nil => exact absurd hloops hwithin
  | @cons l layer inner own hl hown =>
    obtain ⟨rfl, rfl⟩ := List.cons.inj (hbefore.symm.trans hloops)
    cases hspare with
    | fresh here' => cases Option.some.inj (here.symm.trans here')
    | left here' => cases Option.some.inj (here.symm.trans here')
    | none =>
      rcases hgoes with ⟨⟨hloops', hscopes'⟩, rfl⟩ | ⟨item, l', hbegins, hnames, hgoes⟩
      · refine ⟨inner, own, [layer], hloops', ?_, .left (hcode.popped here) layer, hown⟩
        rw [hscopes', hpushed]
        rfl
      · obtain ⟨start, sequence, names, hfacing, htarget⟩ := haims.facing_of_loopNext here
        rw [htarget] at hgoes
        obtain ⟨hloops', key, value, -, hpushed'⟩ := Linked.begun_of_step hbegins hpushed hstep
        refine ⟨l' :: inner, _ :: own, [], hloops', hpushed', ?_,
          .cons (hl.bindAll hnames key value) hown⟩
        exact hgoes ▸ hcode.spare_succ hfacing.here (by simp) (by simp)

theorem other (h : InRound code rounds kept place f) (hcode : Layered code)
    (hnested : ∀ v, Restores (env.nested v)) (hpush : i.instruction ≠ .pushScope)
    (hpop : i.instruction ≠ .popScope)
    (hstart : ∀ sequence names, i.instruction ≠ .loopStart sequence names)
    (hnext : i.instruction ≠ .loopNext) (here : code[place]? = some i.instruction)
    (haims : Aims code place i.target) (hstep : i.step env place f = .ok next f') :
    InRound code rounds kept next f' := by
  obtain ⟨inner, own, spare, hloops, hpushed, hspare, hown⟩ := h
  obtain ⟨hloops', hpushed'⟩ := Linked.step_other hnested hpush hpop hstart hnext hstep
  have hstart' : ∀ sequence names, code[place]? ≠ some (.loopStart sequence names) :=
    fun sequence names heq => hstart _ _ (Option.some.inj (here.symm.trans heq))
  cases hspare with
  | fresh here' => exact absurd here' (hstart' _ _)
  | left here' => exact absurd (Option.some.inj (here.symm.trans here')) hpop
  | none =>
    refine ⟨inner, own, [], hloops'.trans hloops, hpushed'.trans hpushed, ?_, hown⟩
    rcases Linked.step_goes hstep with rfl | htarget
    · exact hcode.spare_succ here hpush hnext
    · rw [htarget] at haims
      exact hcode.spare_target haims hstart'

end Steps

variable {items : List Item} {p : Program} {env : Environment} {place place' next : Nat}
  {f f' : Frame} {i : Linked} {rounds : List Loop} {kept : List Dict}

/-- **The beginning of a round**: its names stand for the item in the layer of the round. -/
theorem begin (hlabels : (items.map (·.label)).Nodup) (hp : Program.assemble items = .ok p)
    (hcode : Layered (codeOf items)) (here : p.code[place]? = some i) {item : LoopItem} {l : Loop}
    {outer : List Loop} {s : Store} (hb : i.Begins env place f item l outer s) {layer : Dict}
    {rest : List Dict} (hpushed : f.world.scopes.pushed = layer :: rest)
    (hstep : i.step env place f = .ok next f') : ∃ key value, item.Gives s key value ∧
      InRound (codeOf items) (l :: outer) (layer.bindAll (bindings l.names key value) :: rest)
        next f' := by
  obtain ⟨hi, haims⟩ := Program.aims_of_assemble hlabels hp here
  obtain ⟨hloops, key, value, hgives, hbound⟩ := Linked.begun_of_step hb hpushed hstep
  have hgoes : Spare (codeOf items) next [] := by
    cases hb with
    | first hins _ _ running =>
      rcases Linked.step_loopStart hins hstep with ⟨⟨hkept, -⟩, -⟩ | ⟨_, _, _, -, -, rfl⟩
      · rw [hloops, running] at hkept
        exact absurd hkept (List.cons_ne_self _ _)
      · exact hcode.spare_succ hi (by simp [hins]) (by simp [hins])
    | again hins running =>
      obtain ⟨before, outer', hbefore, ⟨⟨hkept, -⟩, -⟩ | ⟨_, _, -, -, hnext⟩⟩ :=
        Linked.step_loopNext hins hstep
      · obtain ⟨-, rfl⟩ := List.cons.inj (running.symm.trans hbefore)
        rw [hloops] at hkept
        exact absurd hkept (List.cons_ne_self _ _)
      · rw [hins] at hi
        obtain ⟨start, sequence, names, hfacing, htarget⟩ := haims.facing_of_loopNext hi
        rw [htarget] at hnext
        exact hnext ▸ hcode.spare_succ hfacing.here (by simp) (by simp)
  exact ⟨key, value, hgives, [], [], [], hloops, hbound, hgoes, .nil⟩

/-- **A step** that does not come to the end of the round stays inside. -/
theorem step (hlabels : (items.map (·.label)).Nodup) (hp : Program.assemble items = .ok p)
    (hcode : Layered (codeOf items)) (hnested : ∀ v, Restores (env.nested v))
    (h : InRound (codeOf items) rounds kept place f) (here : p.code[place]? = some i)
    (hwithin : WithinRound rounds i f) (hstep : i.step env place f = .ok next f') :
    InRound (codeOf items) rounds kept next f' := by
  obtain ⟨hi, haims⟩ := Program.aims_of_assemble hlabels hp here
  cases hins : i.instruction with
  | pushScope => exact h.pushScope hcode hins hi hstep
  | popScope => exact h.popScope hcode hins hi hstep
  | loopStart sequence names => exact h.loopStart hcode hins hi haims hstep
  | loopNext => exact h.loopNext hcode hins hi haims (hwithin hins) hstep
  | _ =>
    exact h.other hcode hnested (by simp [hins]) (by simp [hins]) (by simp [hins])
      (by simp [hins]) hi haims hstep

/-- **While the round lasts**, the run stays inside. -/
theorem reached (hlabels : (items.map (·.label)).Nodup) (hp : Program.assemble items = .ok p)
    (hcode : Layered (codeOf items)) (hnested : ∀ v, Restores (env.nested v))
    (h : InRound (codeOf items) rounds kept place f)
    (hsteps : p.ReachesBy env (WithinRound rounds) place f place' f') :
    InRound (codeOf items) rounds kept place' f' := by
  induction hsteps with
  | refl => exact h
  | tail _ here hwithin hstep ih => exact (ih h).step hlabels hp hcode hnested here hwithin hstep

/-- **The names of a round**: what its layer binds is found, unless a loop inside binds it. -/
theorem findPushed? {code : List Instruction} {layer : Dict} {rest : List Dict}
    (h : InRound code rounds (layer :: rest) place f) :
    ∃ inner, f.loops = inner ++ rounds ∧ (code[place]? ≠ some .popScope →
      ∀ {name : String} {v : Value}, (∀ l ∈ inner, name ∉ l.names) →
        layer.find? (.text name) = some v → f.world.scopes.findPushed? (.text name) = some v) := by
  obtain ⟨inner, own, spare, hloops, hpushed, hspare, hown⟩ := h
  refine ⟨inner, hloops, fun hpop {name v} hfree hfind => ?_⟩
  have hspare : ∀ d ∈ spare, d.find? (.text name) = none := by
    cases hspare with
    | fresh => exact List.forall_mem_singleton.mpr rfl
    | left here => exact absurd here hpop
    | none => exact fun d hd => absurd hd List.not_mem_nil
  have hown : ∀ d ∈ own, d.find? (.text name) = none := by
    clear hloops hpushed
    induction hown with
    | nil => exact fun d hd => absurd hd List.not_mem_nil
    | cons hl _ ih =>
      obtain ⟨hname, hfree⟩ := List.forall_mem_cons.mp hfree
      exact List.forall_mem_cons.mpr ⟨hl name hname, ih hfree⟩
  unfold Scopes.findPushed?
  rw [hpushed, List.findSome?_append, List.findSome?_append,
    List.findSome?_eq_none_iff.mpr hspare, List.findSome?_eq_none_iff.mpr hown,
    List.findSome?_cons, hfind]
  rfl

end InRound

end TextTemplate
