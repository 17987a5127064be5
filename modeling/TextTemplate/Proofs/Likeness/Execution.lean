/-
# Two runs side by side

Two runs of a program are **alike** if their worlds, their output and their loops are, and their
flags are the same.  A step keeps them alike: both go on at the same place or fail alike, for the
program reads only names that are bound alike in both.

* `LikeFrame` relates the states of two runs, `AlikeRun` computations inside them;
* `Instruction.Within` says which names an instruction reads and writes;
* `execute_alike` is a step, one case for each instruction; `run_alike` is a whole run.
-/
import TextTemplate.Proofs.Likeness.Filters
import TextTemplate.Proofs.Run.Contexts
import TextTemplate.Proofs.Safety.Execution

namespace TextTemplate

open Correspondence Likeness TextTemplate.Outcome

variable {L : Likeness} {R : L.Roots} {s s' : Store} {c c' : Scopes} {v v' w w' : Value}
  {filters : Table Filter}

/-! ## 1. The items of a loop -/

/-- The pairs that a value gives by itself, each to be taken apart. -/
def Eval.ownPairs (v : Value) : Eval (List LoopItem) := do
  match (← get).attribute? v "items" with
  | some (.ok member) => do
    let items ← Eval.items (← Eval.call member)
    pure (items.map .packed)
  | some (.error cause) => Eval.fail cause
  | none => pure []

/-- The items of a value with their numbers.  What cannot be iterated over has none. -/
def Eval.numberedItems (v : Value) : Eval (List LoopItem) := do
  match ← Eval.stream? v with
  | none => pure []
  | some st =>
    match st.failure with
    | none => pure (st.items.mapIdx fun i item => .pair (.int i) item)
    | some cause => if cause.kind = .mistyped then pure [] else Eval.fail cause

theorem Eval.loopItems_eq (h : ∀ r, v ≠ .dict r) : Eval.loopItems v = (do
    if ← Eval.read (·.hasAttribute v "items") then Eval.ownPairs v else Eval.numberedItems v) := by
  unfold Eval.loopItems
  split
  · exact absurd rfl (h _)
  · rfl

/-! ## 2. Conditions, output and loops -/

namespace Likeness

theorem occurs_alike (hv : L.Like v v') (hw : L.Like w w') :
    L.Alike Eq (Comparator.occurs v w) (Comparator.occurs v' w') :=
  (contains_alike (.like hw) hv).unless.bind fun _ _ ho => .pure (Filter.orElse_eq ho false)

/-- **A comparison of values that are alike.** -/
theorem comparator_alike (op : Comparator) (hv : L.Like v v') (hw : L.Like w w') :
    L.Alike Eq (op.holds v w) (op.holds v' w') := by
  unfold Comparator.holds
  refine .bind .get fun s s' hs => ?_
  have hequal := equal?_eq hs v v' w w' hv hw
  cases op with
  | equal => exact .pure (congrArg (Comparator.settled · true) hequal)
  | identical => exact .pure (congrArg (Comparator.settled · true) hequal)
  | unequal => exact .pure (congrArg (Comparator.settled · false) hequal)
  | different => exact .pure (congrArg (Comparator.settled · false) hequal)
  | inside => exact occurs_alike hv hw
  | outside => exact (occurs_alike hv hw).bind fun _ _ h => .pure (congrArg (! ·) h)
  | ordered relation =>
    exact .pure (congrArg (fun x => Comparator.settled (Except.toOption x) true)
      (related_eq hs relation hv hw))

/-- **A condition holds in both or in neither.** -/
theorem condition_alike (hf : UniformFilters L filters) (hc : LikeScopes R c c')
    (flags : List String) : ∀ (condition : Condition),
    (∀ e ∈ condition.expressions, e.Within R.reads) →
    L.Alike Eq (condition.holds filters c flags) (condition.holds filters c' flags)
  | .truth e, he => by
    unfold Condition.holds
    refine (expression_alike hf hc (he e List.mem_cons_self)).bind fun v v' hv => ?_
    exact .bind .get fun s s' hs => .pure (truth_eq hs hv)
  | .negation condition, he => by
    unfold Condition.holds
    exact (condition_alike hf hc flags condition he).bind fun _ _ h => .pure (congrArg (! ·) h)
  | .comparison op left right, he => by
    obtain ⟨hleft, hright⟩ := List.forall_mem_cons.mp he
    unfold Condition.holds
    refine (expression_alike hf hc hleft).bind fun v v' hv => ?_
    exact (expression_alike hf hc (List.forall_mem_singleton.mp hright)).bind fun w w' hw =>
      comparator_alike op hv hw
  | .flagUnset name, _ => .pure rfl

/-- **The output of values that are alike**, escaped in both or in neither. -/
theorem output_alike (ha : ∀ s s', L.Holds s s' → s.truth v = s'.truth v') (hw : L.Like w w') :
    L.Alike L.Like (Eval.output v w) (Eval.output v' w') := by
  have hnone : w = .none ↔ w' = .none := hw.eq_iff .none
  have hshown : L.Like (if w = .none then .plain "" else w) (if w' = .none then .plain "" else w')
      := by
    by_cases h : w = .none
    · rw [if_pos h, if_pos (hnone.mp h)]
      exact .plain ""
    · rw [if_neg h, if_neg (mt hnone.mpr h)]
      exact hw
  unfold Eval.output
  refine .bind .get fun s s' hs => ?_
  rw [ha s s' hs]
  split
  · exact asMarkup_alike hshown
  · exact textAs_alike hshown .plain

/-- What two loops bind in a round is alike. -/
inductive LikeLoopItem (L : Likeness) : LoopItem → LoopItem → Prop where
  | pair {k k' v v' : Value} (key : L.Like k k') (value : L.Like v v') :
      LikeLoopItem L (.pair k v) (.pair k' v')
  | packed {v v' : Value} (like : L.Like v v') : LikeLoopItem L (.packed v) (.packed v')

/-- The pairs that an object gives by itself. -/
theorem ownPairs_alike (h : L.Like v v') :
    L.Alike (List.Forall₂ (LikeLoopItem L)) (Eval.ownPairs v) (Eval.ownPairs v') := by
  refine .bind .get fun s s' hs => ?_
  have hattribute := attribute?_like hs h "items"
  generalize s.attribute? v "items" = o, s'.attribute? v' "items" = o' at hattribute
  cases hattribute with
  | none => exact .pure .nil
  | some hm =>
    cases hm with
    | error hc => exact .fail hc
    | ok hm =>
      refine (call_alike hm).bind fun given given' hgiven =>
        (items_alike hgiven).bind fun items items' hitems => .pure ?_
      exact List.rel_map (R := L.Like) (fun _ _ h => .packed h) hitems

theorem numbered_like {xs xs' : List Value} (h : L.LikeItems xs xs') :
    List.Forall₂ (LikeLoopItem L) (xs.mapIdx fun i item => .pair (.int i) item)
      (xs'.mapIdx fun i item => .pair (.int i) item) := by
  refine List.forall₂_iff_get.mpr ⟨by simp only [List.length_mapIdx, h.length_eq], ?_⟩
  intro i hi hi'
  simp only [List.get_eq_getElem, List.getElem_mapIdx]
  rw [List.length_mapIdx] at hi hi'
  exact .pair (.int _) (h.get hi hi')

/-- The items of a stream with their numbers. -/
theorem numberedItems_alike (h : L.Like v v') :
    L.Alike (List.Forall₂ (LikeLoopItem L)) (Eval.numberedItems v) (Eval.numberedItems v') := by
  refine (stream?_alike h).bind fun o o' ho => ?_
  cases ho with
  | none => exact .pure .nil
  | @some st st' hst =>
    have hfailure := hst.failure
    dsimp only
    generalize st.failure = f, st'.failure = f' at hfailure
    cases hfailure with
    | none => exact .pure (numbered_like hst.items)
    | some hc =>
      dsimp only
      rw [hc.kind_eq]
      split
      · exact .pure .nil
      · exact .fail hc

/-- **The items of loops over values that are alike.** -/
theorem loopItems_alike (h : L.Like v v') :
    L.Alike (List.Forall₂ (LikeLoopItem L)) (Eval.loopItems v) (Eval.loopItems v') := by
  by_cases hdict : ∃ r, v = .dict r
  · obtain ⟨r, rfl⟩ := hdict
    cases h with
    | dict hr =>
      exact .bind .get fun s s' hs => .pure (List.rel_map (R := L.LikeEntry)
        (fun _ _ he => .pair he.label he.value) (hs.dict (L.mappings_of_dicts hr)))
  · have hdict' : ∀ r, v' ≠ .dict r := by
      rintro r rfl
      cases h
      exact hdict ⟨_, rfl⟩
    rw [Eval.loopItems_eq fun r hr => hdict ⟨r, hr⟩, Eval.loopItems_eq hdict']
    refine (AlikeBy.read fun _ _ hs => hasAttribute_like hs h "items").bind ?_
    rintro has _ rfl
    cases has with
    | true => exact ownPairs_alike h
    | false => exact numberedItems_alike h

/-- The expression whose turn it is, the same on both sides. -/
theorem inTurn_alike (hc : LikeScopes R c c') (values : List Expression) {counter : String}
    (hreads : R.reads (.plain counter)) (hwrites : R.writes counter) :
    L.Alike (fun e e' => e = e' ∧ e ∈ values) (Eval.inTurn c values counter)
      (Eval.inTurn c' values counter) := by
  unfold Eval.inTurn
  refine (lookupOr_alike hc hreads (.int 0)).bind fun count count' hcount =>
    (plus_alike hcount (.int 1)).bind fun next next' hnext =>
    (writeRoot_alike hc hwrites hnext).bind fun _ _ _ => ?_
  have hturn : ∀ s s', L.Holds s s' →
      L.LikeExcept Eq (turn count values.length) (turn count' values.length) := by
    intro _ _ _
    unfold turn
    rw [numeric?_eq hcount, hcount.typeName_eq]
    split
    · split
      · exact .closed trivial
      · exact .ok rfl
    · split
      · exact .closed trivial
      · exact .closed trivial
  refine (AlikeBy.read hturn).bind ?_
  rintro i _ rfl
  cases hvalue : values[i]? with
  | none => exact .failClosed trivial
  | some e => exact .pure ⟨rfl, List.mem_of_getElem? hvalue⟩

end Likeness

/-! ## 3. Frames -/

namespace Likeness

/-- Two running loops are alike. -/
structure LikeLoop (L : Likeness) (l l' : Loop) : Prop where
  start : l.start = l'.start
  names : l.names = l'.names
  rest : List.Forall₂ (LikeLoopItem L) l.rest l'.rest

/-- Two worlds are alike.  The contexts are both bare, or none is. -/
structure LikeWorld (R : L.Roots) (w w' : World) : Prop where
  store : L.Holds w.store w'.store
  scopes : LikeScopes R w.scopes w'.scopes
  settings : w.settings.isSome = w'.settings.isSome

/-- Worlds that are alike stay so when their contexts are bound to a template. -/
theorem LikeWorld.boundTo {w w' : World} (hw : LikeWorld R w w') (t : Template) :
    LikeWorld R ⟨w.boundTo t, w.store⟩ ⟨w'.boundTo t, w'.store⟩ where
  store := hw.store
  scopes := hw.scopes
  settings := by
    have hsettings := hw.settings
    unfold Context.boundTo
    rwa [Option.isSome_map, Option.isSome_map]

/-- The states of two runs are alike.  If `layered` holds, there is a layer above the roots. -/
structure LikeFrame (R : L.Roots) (layered : Prop) (f f' : Frame) : Prop where
  world : LikeWorld R f.world f'.world
  output : L.LikeItems f.output f'.output
  loops : List.Forall₂ (LikeLoop L) f.loops f'.loops
  flags : f.flags = f'.flags
  layer : layered → f.world.scopes.pushed ≠ []

/-- Two results of computations inside runs are alike. -/
inductive SameRun (R : L.Roots) (layered : Prop) {α β : Type} (P : α → β → Prop) :
    EStateM.Result Error Frame α → EStateM.Result Error Frame β → Prop where
  | ok {f f' : Frame} {a : α} {b : β} (frame : LikeFrame R layered f f') (like : P a b) :
      SameRun R layered P (.ok a f) (.ok b f')
  | error {f f' : Frame} {e e' : Error} (frame : LikeFrame R layered f f')
      (like : L.LikeError e e') : SameRun R layered P (.error e f) (.error e' f')

/-- One computation after another, in states that are alike. -/
theorem SameRun.bind {layered : Prop} {α β γ δ : Type} {P : α → β → Prop} {Q : γ → δ → Prop}
    {x : Run α} {y : Run β} {g : α → Run γ} {k : β → Run δ} {f f' : Frame}
    (hx : SameRun R layered P (x f) (y f'))
    (hg : ∀ a b f₁ f₁', x f = .ok a f₁ → y f' = .ok b f₁' → LikeFrame R layered f₁ f₁' → P a b →
      SameRun R layered Q (g a f₁) (k b f₁')) :
    SameRun R layered Q ((x >>= g) f) ((y >>= k) f') := by
  cases hx' : x f with
  | ok a f₁ =>
    cases hy' : y f' with
    | ok b f₁' =>
      rw [hx', hy'] at hx
      cases hx with
      | ok frame like =>
        rw [bind_of_ok hx', bind_of_ok hy']
        exact hg a b f₁ f₁' hx' hy' frame like
    | error e' f₁' => rw [hx', hy'] at hx; cases hx
  | error e f₁ =>
    cases hy' : y f' with
    | ok b f₁' => rw [hx', hy'] at hx; cases hx
    | error e' f₁' =>
      rw [hx', hy'] at hx
      cases hx with
      | error frame like =>
        rw [bind_of_error hx', bind_of_error hy']
        exact .error frame like

/-- In states that are alike two computations inside runs have results that are alike. -/
def AlikeRun (R : L.Roots) (layered : Prop) {α β : Type} (P : α → β → Prop) (x : Run α)
    (y : Run β) : Prop :=
  ∀ f f', LikeFrame R layered f f' → SameRun R layered P (x f) (y f')

namespace AlikeRun

variable {layered : Prop} {α β γ δ : Type} {P : α → β → Prop} {Q : γ → δ → Prop} {x : Run α}
  {y : Run β} {g : α → Run γ} {k : β → Run δ}

theorem pure {a : α} {b : β} (h : P a b) :
    AlikeRun R layered P (Pure.pure a) (Pure.pure b) := fun _ _ hf => .ok hf h

theorem bind (hx : AlikeRun R layered P x y)
    (hg : ∀ a b, P a b → AlikeRun R layered Q (g a) (k b)) :
    AlikeRun R layered Q (x >>= g) (y >>= k) := fun f f' hf =>
  (hx f f' hf).bind fun a b f₁ f₁' _ _ hf₁ hab => hg a b hab f₁ f₁' hf₁

theorem get : AlikeRun R layered (LikeFrame R layered) (MonadState.get : Run Frame)
    (MonadState.get : Run Frame) := fun _ _ hf => .ok hf hf

/-- A change of the states. -/
theorem change {g g' : Frame → Frame}
    (h : ∀ f f', LikeFrame R layered f f' → LikeFrame R layered (g f) (g' f')) :
    AlikeRun R layered (fun _ _ => True) (modify g) (modify g') :=
  fun f f' hf => .ok (h f f' hf) trivial

/-- A computation on values inside runs. -/
theorem eval {x : Eval α} {y : Eval β} (h : L.Alike P x y) :
    AlikeRun R layered P (Run.eval x) (Run.eval y) := by
  intro f f' hf
  have hr := h _ _ hf.world.store
  unfold Run.eval
  generalize x f.world.store = r, y f'.world.store = r' at hr
  cases hr with
  | ok holds like => exact .ok { hf with world := { hf.world with store := holds } } like
  | error holds like => exact .error { hf with world := { hf.world with store := holds } } like

theorem scopes : AlikeRun R layered
    (fun c c' => LikeScopes R c c' ∧ (layered → c.pushed ≠ [])) Run.scopes Run.scopes :=
  .bind .get fun _ _ hf => .pure ⟨hf.world.scopes, hf.layer⟩

theorem setScopes (hc : LikeScopes R c c') (hlayer : layered → c.pushed ≠ []) :
    AlikeRun R layered (fun _ _ => True) (Run.setScopes c) (Run.setScopes c') :=
  .change fun _ _ hf => { hf with world := { hf.world with scopes := hc }, layer := hlayer }

theorem write (hv : L.Like v v') :
    AlikeRun R layered (fun _ _ => True) (Run.write v) (Run.write v') :=
  .change fun _ _ hf => { hf with output := .cons hv hf.output }

/-- Other running loops. -/
theorem setLoops {loops loops' : List Loop} (h : List.Forall₂ (LikeLoop L) loops loops') :
    AlikeRun R layered (fun _ _ => True) (modify fun f => { f with loops := loops })
      (modify fun f => { f with loops := loops' }) :=
  .change fun _ _ hf => { hf with loops := h }

theorem setFlags (g : List String → List String) :
    AlikeRun R layered (fun _ _ => True) (modify fun f => { f with flags := g f.flags })
      (modify fun f => { f with flags := g f.flags }) :=
  .change fun _ _ hf => { hf with flags := congrArg g hf.flags }

/-- **Binding a name**, in a layer above the root or as a name that can be written there. -/
theorem bindName {name : String} (hname : layered ∨ R.writes name) (hv : L.Like v v') :
    AlikeRun R layered (fun _ _ => True) (Run.bind name v) (Run.bind name v') := by
  refine .bind .scopes fun c c' hc => ?_
  exact .bind (.eval (write_alike hc.1 (hname.imp_left hc.2) hv)) fun d d' hd =>
    .setScopes hd.1 fun h => hd.2 (hc.2 h)

/-- **Binding the names of a loop** to items that are alike. -/
theorem bindItem {names : List String} (hnames : layered ∨ ∀ name, R.writes name)
    {item item' : LoopItem} (hitem : LikeLoopItem L item item') :
    AlikeRun R layered (fun _ _ => True) (Run.bindItem names item) (Run.bindItem names item') := by
  have hname : ∀ name, layered ∨ R.writes name := fun name => hnames.imp_right (· name)
  have hpair : ∀ k k' v v', L.Like k k' → L.Like v v' →
      AlikeRun R layered (fun _ _ => True) (Run.bindPair names k v) (Run.bindPair names k' v') := by
    intro k k' v v' hk hv
    unfold Run.bindPair
    split
    · exact .eval (.failClosed trivial)
    · exact .bindName (hname _) hv
    · exact .bind (.bindName (hname _) hk) fun _ _ _ => .bindName (hname _) hv
  cases hitem with
  | pair hk hv => exact hpair _ _ _ _ hk hv
  | packed hv => exact .bind (.eval (pairOf_alike hv)) fun p q hpq => hpair _ _ _ _ hpq.1 hpq.2

end AlikeRun
end Likeness

/-! ## 4. Instructions -/

/-- The instruction reads and writes only some names of the root, and what it binds refers to
nothing. -/
structure Instruction.Within {L : Likeness} (R : L.Roots) (i : Instruction) : Prop where
  expressions : ∀ e ∈ i.expressions, e.Within R.reads
  counter : ∀ values counter, i = .cycle values counter →
    R.reads (.plain counter) ∧ R.writes counter
  assigned : ∀ name v, i = .assign name v → R.writes name ∧ L.Like v v

/-- The instruction binds the names of a loop. -/
def Instruction.Binds : Instruction → Prop
  | loopStart .. | loopNext => True
  | _ => False

namespace Likeness

/-- Two results in worlds are alike. -/
inductive SameWorld (R : L.Roots) {α β : Type} (P : α → β → Prop) :
    EStateM.Result Error World α → EStateM.Result Error World β → Prop where
  | ok {w w' : World} {a : α} {b : β} (world : LikeWorld R w w') (like : P a b) :
      SameWorld R P (.ok a w) (.ok b w')
  | error {w w' : World} {e e' : Error} (world : LikeWorld R w w') (like : L.LikeError e e') :
      SameWorld R P (.error e w) (.error e' w')

/-- Two programs find around them what is alike. -/
structure LikeEnvironment (L : Likeness) (env env' : Environment) : Prop where
  filters : env.filters = env'.filters
  uniform : UniformFilters L env.filters
  autoescape : ∀ s s', L.Holds s s' → s.truth env.autoescape = s'.truth env'.autoescape
  locate : ∀ s s' token e e', L.Holds s s' → L.LikeError e e' →
    L.LikeError (env.locate s token e) (env'.locate s' token e')

variable {env env' : Environment}

/-- The output of an expression. -/
theorem outputOf_alike (henv : LikeEnvironment L env env') (hc : LikeScopes R c c')
    {e : Expression} (he : e.Within R.reads) :
    L.Alike L.Like (do Eval.output env.autoescape (← e.resolve env.filters c))
      (do Eval.output env'.autoescape (← e.resolve env'.filters c')) := by
  rw [← henv.filters]
  exact (expression_alike henv.uniform hc he).bind fun _ _ hv => output_alike henv.autoescape hv

/-- A loop starts on both sides. -/
theorem loopStart_alike (henv : LikeEnvironment L env env') {layered : Prop}
    (hnames : layered ∨ ∀ name, R.writes name) {i : Linked} {sequence : Expression}
    {names : List String} (hi : i.instruction = .loopStart sequence names)
    (he : sequence.Within R.reads) (place : Nat) :
    AlikeRun R layered Eq (i.execute env place) (i.execute env' place) := by
  have hitems : ∀ {c c' : Scopes}, LikeScopes R c c' → L.Alike (List.Forall₂ (LikeLoopItem L))
      (do Eval.loopItems (← sequence.resolve env.filters c))
      (do Eval.loopItems (← sequence.resolve env'.filters c')) := by
    intro c c' hc
    rw [← henv.filters]
    exact (expression_alike henv.uniform hc he).bind fun _ _ hv => loopItems_alike hv
  unfold Linked.execute
  rw [hi]
  refine .bind .scopes fun c c' hc => .bind (.eval (hitems hc.1)) fun items items' hall => ?_
  cases hall with
  | nil => exact .pure rfl
  | @cons item item' rest rest' hitem hrest =>
    have hloops : ∀ f f', LikeFrame R layered f f' → LikeFrame R layered
        { f with loops := .make place names rest :: f.loops }
        { f' with loops := .make place names rest' :: f'.loops } := fun f f' hf =>
      { hf with loops := .cons ⟨rfl, rfl, hrest⟩ hf.loops }
    exact .bind (.change hloops) fun _ _ _ => .bind (.bindItem hnames hitem) fun _ _ _ => .pure rfl

theorem next?_alike {l l' : Loop} (h : LikeLoop L l l') :
    Option.Rel (fun p q => LikeLoopItem L p.1 q.1 ∧ LikeLoop L p.2 q.2) l.next? l'.next? := by
  obtain ⟨start, names, rest, left, hleft⟩ := l
  obtain ⟨start', names', rest', left', hleft'⟩ := l'
  obtain ⟨hstart, hnames, hrest⟩ := h
  dsimp only at hrest
  cases hrest with
  | nil => exact .none
  | cons hitem hrest => exact .some ⟨hitem, hstart, hnames, hrest⟩

/-- The innermost loop goes on on both sides, or ends on both. -/
theorem loopNext_alike {layered : Prop} (hnames : layered ∨ ∀ name, R.writes name) {i : Linked}
    (hi : i.instruction = .loopNext) (place : Nat) :
    AlikeRun R layered Eq (i.execute env place) (i.execute env' place) := by
  unfold Linked.execute
  rw [hi]
  refine .bind .get fun f f' hf => ?_
  have hloops := hf.loops
  generalize f.loops = loops, f'.loops = loops' at hloops
  cases hloops with
  | nil => exact .eval (.failClosed trivial)
  | @cons l l' _ _ hl houter =>
    have hnext := next?_alike hl
    dsimp only
    generalize l.next? = o, l'.next? = o' at hnext
    cases hnext with
    | none => exact .bind (.setLoops houter) fun _ _ _ => .pure rfl
    | some hp =>
      dsimp only
      rw [hl.names]
      exact .bind (.setLoops (.cons hp.2 houter)) fun _ _ _ =>
        .bind (.bindItem hnames hp.1) fun _ _ _ => .pure rfl

/-- What comes out of a template inside is alike in two states. -/
def LikeNested (R : L.Roots) (env env' : Environment) (source : Expression) (f f' : Frame) :
    Prop :=
  ∀ v v' s s', source.resolve env.filters f.world.scopes f.world.store = .ok v s →
    source.resolve env'.filters f'.world.scopes f'.world.store = .ok v' s' →
    L.Like v v' → L.Holds s s' → SameWorld R L.Like
      (env.nested v { f.world with store := s }) (env'.nested v' { f'.world with store := s' })

/-- A template inside is rendered on both sides. -/
theorem nested_alike (henv : LikeEnvironment L env env') {i : Linked} {source : Expression}
    (hi : i.instruction = .nested source) (he : source.Within R.reads) (place : Nat)
    {f f' : Frame} (hf : LikeFrame R False f f') (hnested : LikeNested R env env' source f f') :
    SameRun R False Eq (i.execute env place f) (i.execute env' place f') := by
  unfold Linked.execute
  rw [hi]
  refine (AlikeRun.scopes f f' hf).bind fun c c' f₁ f₁' hc hc' _ _ => ?_
  cases hc
  cases hc'
  have hvalue : L.Alike L.Like (source.resolve env.filters f.world.scopes)
      (source.resolve env'.filters f'.world.scopes) := by
    rw [← henv.filters]
    exact expression_alike henv.uniform hf.world.scopes he
  refine (AlikeRun.eval hvalue f f' hf).bind fun v v' f₁ f₁' hv hv' hf₁ hlike => ?_
  obtain ⟨s, hs, rfl⟩ := Run.eval_eq_ok.mp hv
  obtain ⟨s', hs', rfl⟩ := Run.eval_eq_ok.mp hv'
  have hworld := hnested v v' s s' hs hs' hlike hf₁.world.store
  have hrun : SameRun R False L.Like
      (Run.inWorld (env.nested v) { f with world := { f.world with store := s } })
      (Run.inWorld (env'.nested v') { f' with world := { f'.world with store := s' } }) := by
    unfold Run.inWorld
    dsimp only
    generalize env.nested v _ = r, env'.nested v' _ = r' at hworld
    cases hworld with
    | ok world like => exact .ok { hf₁ with world := world, layer := False.elim } like
    | error world like => exact .error { hf₁ with world := world, layer := False.elim } like
  refine hrun.bind fun u u' f₂ f₂' _ _ hf₂ hu => ?_
  exact AlikeRun.bind (.write hu) (fun _ _ _ => .pure rfl) f₂ f₂' hf₂

/-- An instruction that binds no names of a loop and renders no template inside. -/
theorem execute_unbinding (henv : LikeEnvironment L env env') {i : Linked}
    (hi : i.instruction.Within R) (hbinds : ¬ i.instruction.Binds)
    (hplain : ∀ source, i.instruction ≠ .nested source)
    (place : Nat) :
    AlikeRun R False Eq (i.execute env place) (i.execute env' place) := by
  have hpure : ∀ target : Option Nat, AlikeRun R False Eq (pure target) (pure target) :=
    fun target => .pure rfl
  unfold Linked.execute
  cases hins : i.instruction with
  | literal text => exact .bind (.write (.plain text)) fun _ _ _ => hpure _
  | expression e =>
    rw [hins] at hi
    exact .bind .scopes fun c c' hc =>
      .bind (.eval (outputOf_alike henv hc.1 (hi.expressions e List.mem_cons_self))) fun v v' hv =>
        .bind (.write hv) fun _ _ _ => hpure _
  | pushScope =>
    refine .bind .scopes fun c c' hc => .bind (.setScopes ?_ fun h => h.elim) fun _ _ _ => hpure _
    exact ⟨hc.1.root, hc.1.root', .cons .nil hc.1.pushed⟩
  | popScope =>
    refine .bind .scopes fun c c' hc => ?_
    obtain ⟨root, pushed⟩ := c
    obtain ⟨root', pushed'⟩ := c'
    obtain ⟨⟨hroot, hroot', hpushed⟩, -⟩ := hc
    dsimp only at hpushed
    cases hpushed with
    | nil => exact .eval (.failClosed trivial)
    | cons _ hrest =>
      exact .bind (.setScopes ⟨hroot, hroot', hrest⟩ fun h => h.elim) fun _ _ _ => hpure _
  | branch condition chained =>
    rw [hins] at hi
    refine .bind .scopes fun c c' hc => .bind .get fun f f' hf => ?_
    rw [← henv.filters, ← hf.flags]
    refine .bind (.eval (condition_alike henv.uniform hc.1 f.flags condition hi.expressions)) ?_
    rintro holds _ rfl
    exact .pure rfl
  | otherwise => exact hpure _
  | skip => exact hpure _
  | loopStart sequence names => exact (hbinds (hins ▸ trivial)).elim
  | loopNext => exact (hbinds (hins ▸ trivial)).elim
  | setFlag name => exact .bind (.setFlags _) fun _ _ _ => hpure _
  | clearFlag name => exact .bind (.setFlags _) fun _ _ _ => hpure _
  | cycle values counter =>
    rw [hins] at hi
    obtain ⟨hreads, hwrites⟩ := hi.counter values counter rfl
    dsimp only
    rw [Run.cycle_eq, Run.cycle_eq]
    refine .bind (.bind .scopes fun c c' hc => .bind (.eval ?_) fun v v' hv => .write hv)
      fun _ _ _ => hpure _
    refine (inTurn_alike hc.1 values hreads hwrites).bind ?_
    rintro e _ ⟨rfl, hmem⟩
    exact outputOf_alike henv hc.1 (hi.expressions e hmem)
  | assign name v =>
    rw [hins] at hi
    obtain ⟨hwrites, hv⟩ := hi.assigned name v rfl
    exact .bind .scopes fun c c' hc =>
      .bind (.eval (writeRoot_alike hc.1 hwrites hv)) fun _ _ _ => hpure _
  | nested source => exact absurd hins (hplain source)
  | endBranch => exact hpure _
  | endSkip => exact hpure _
  | noop => exact hpure _

theorem SameRun.forget {layered : Prop} {α β : Type} {P : α → β → Prop}
    {r : EStateM.Result Error Frame α} {r' : EStateM.Result Error Frame β}
    (h : SameRun R layered P r r') : SameRun R False P r r' := by
  cases h with
  | ok frame like => exact .ok { frame with layer := False.elim } like
  | error frame like => exact .error { frame with layer := False.elim } like

/-- **Carrying out an instruction** on both sides.  What binds the names of a loop needs a layer
above the root, or a root in which every name can be written. -/
theorem execute_alike (henv : LikeEnvironment L env env') {i : Linked}
    (hi : i.instruction.Within R) (place : Nat) {f f' : Frame} (hf : LikeFrame R False f f')
    (hbinds : i.instruction.Binds → f.world.scopes.pushed ≠ [] ∨ ∀ name, R.writes name)
    (hnested : ∀ source, i.instruction = .nested source → LikeNested R env env' source f f') :
    SameRun R False Eq (i.execute env place f) (i.execute env' place f') := by
  have hlayer : ∀ h : i.instruction.Binds, LikeFrame R (f.world.scopes.pushed ≠ []) f f' :=
    fun _ => { hf with layer := id }
  cases hins : i.instruction with
  | loopStart sequence names =>
    have hb : i.instruction.Binds := hins ▸ trivial
    rw [hins] at hi
    exact (loopStart_alike henv (hbinds hb) hins (hi.expressions sequence List.mem_cons_self)
      place f f' (hlayer hb)).forget
  | loopNext =>
    have hb : i.instruction.Binds := hins ▸ trivial
    exact (loopNext_alike (hbinds hb) hins place f f' (hlayer hb)).forget
  | nested source =>
    rw [hins] at hi
    exact nested_alike henv hins (hi.expressions source List.mem_cons_self) place hf
      (hnested source hins)
  | _ =>
    exact execute_unbinding henv hi (by rw [hins]; exact id) (by rw [hins]; nofun) place f f' hf

/-- **A step** on both sides: both go on at the same place, or fail alike. -/
theorem step_alike (henv : LikeEnvironment L env env') {i : Linked}
    (hi : i.instruction.Within R) (place : Nat) {f f' : Frame} (hf : LikeFrame R False f f')
    (hbinds : i.instruction.Binds → f.world.scopes.pushed ≠ [] ∨ ∀ name, R.writes name)
    (hnested : ∀ source, i.instruction = .nested source → LikeNested R env env' source f f') :
    SameRun R False Eq (i.step env place f) (i.step env' place f') := by
  have hr := execute_alike henv hi place hf hbinds hnested
  unfold Linked.step
  generalize i.execute env place f = r, i.execute env' place f' = r' at hr
  cases hr with
  | ok frame like => exact .ok frame (congrArg (·.getD (place + 1)) like)
  | error frame like => exact .error frame (henv.locate _ _ _ _ _ frame.world.store like)

/-! ## 5. Runs -/

theorem rank_eq (p : Program) (place : Nat) {f f' : Frame} (hf : LikeFrame R False f f') :
    p.rank place f = p.rank place f' := by
  have hloops : ∀ {ls ls' : List Loop}, List.Forall₂ (LikeLoop L) ls ls' →
      ls.map (fun l => (l.start, l.left)) = ls'.map (fun l => (l.start, l.left)) := by
    intro ls ls' h
    induction h with
    | nil => rfl
    | @cons l l' _ _ hl _ ih =>
      have hleft : l.left = l'.left := by rw [l.left_eq, l'.left_eq, hl.rest.length_eq]
      rw [List.map_cons, List.map_cons, ih, hl.start, hleft]
  unfold Program.rank
  rw [hloops hf.loops]

/-- What is alike to a success is a success. -/
theorem SameRun.eq_ok {layered : Prop} {α : Type} {f : Frame} {a : α}
    {r : EStateM.Result Error Frame α} (h : SameRun R layered Eq (.ok a f) r) :
    ∃ f', r = .ok a f' ∧ LikeFrame R layered f f' := by
  cases h with
  | ok frame like =>
    subst like
    exact ⟨_, rfl, frame⟩

/-- **A run** on both sides of a program that reads only names that are bound alike, with roots in
which every name can be written, and without a template inside. -/
theorem runFrom_alike (henv : LikeEnvironment L env env') {p : Program}
    (hp : ∀ i ∈ p.code, i.instruction.Within R ∧ ∀ source, i.instruction ≠ .nested source)
    (hwrites : ∀ name, R.writes name) (spare place : Nat) {f f' : Frame}
    (hf : LikeFrame R False f f') :
    SameRun R False Eq (p.runFrom env spare place f) (p.runFrom env' spare place f') := by
  have hstep : ∀ {place : Nat} {i : Linked} {f f' : Frame}, p.code[place]? = some i →
      LikeFrame R False f f' →
      SameRun R False Eq (i.step env place f) (i.step env' place f') := by
    intro place i f f' here hf
    have hi := hp i (Array.mem_of_getElem? here)
    exact step_alike henv hi.1 place hf (fun _ => .inr hwrites) fun source h => (hi.2 source h).elim
  fun_induction p.runFrom env spare place f generalizing f' with
  | case1 spare place f hend =>
    rw [Program.runFrom_of_end hend]
    exact .ok hf rfl
  | case2 spare place f i here e f₁ hfails =>
    have hr := hstep here hf
    rw [hfails] at hr
    rw [Program.runFrom, here]
    dsimp only
    generalize i.step env' place f' = r' at hr
    cases hr with
    | error frame like => exact .error frame like
  | case3 spare place f i here next f₁ hok hbelow ih =>
    obtain ⟨f₁', hok', frame⟩ := (hok ▸ hstep here hf).eq_ok
    rw [rank_eq p place hf, rank_eq p next frame] at hbelow
    rw [Program.runFrom_of_below here hok' hbelow]
    exact ih frame
  | case4 place f i here next f₁ hok hbelow =>
    obtain ⟨f₁', hok', frame⟩ := (hok ▸ hstep here hf).eq_ok
    rw [rank_eq p place hf, rank_eq p next frame] at hbelow
    rw [Program.runFrom_of_spent here hok' hbelow]
    exact .error frame (.of (.closed trivial))
  | case5 place f i here next f₁ hok hbelow spare ih =>
    obtain ⟨f₁', hok', frame⟩ := (hok ▸ hstep here hf).eq_ok
    rw [rank_eq p place hf, rank_eq p next frame] at hbelow
    rw [Program.runFrom_of_spare here hok' hbelow]
    exact ih frame

/-- The output of two runs put together. -/
theorem joinOutput_like {vs vs' : List Value} (h : L.LikeItems vs vs') :
    joinOutput vs = joinOutput vs' := by
  induction h with
  | nil => rfl
  | @cons v v' vs vs' hv hvs ih =>
    unfold joinOutput
    rw [ih, hvs.length_eq]
    cases hv with
    | view kind => cases kind <;> rfl
    | _ => rfl

theorem joinOutput_closed : ∀ (vs : List Value) {cause : Cause}, joinOutput vs = .error cause →
    cause.Closed
  | [], _, h => nomatch h
  | v :: vs, cause, h => by
    unfold joinOutput at h
    cases hvs : joinOutput vs with
    | error e =>
      rw [hvs] at h
      cases h
      exact joinOutput_closed vs hvs
    | ok before =>
      rw [hvs] at h
      cases v <;> cases h <;> trivial

theorem unwind_alike (hc : LikeScopes R c c') {depth depth' : Nat} (h : depth = depth') :
    LikeScopes R (c.unwind depth) (c'.unwind depth') := by
  refine ⟨hc.root, hc.root', ?_⟩
  unfold Scopes.unwind
  rw [h, hc.pushed.length_eq]
  exact List.forall₂_drop _ hc.pushed

/-- **Two runs of a program** give the same output, or fail alike. -/
theorem run_alike (henv : LikeEnvironment L env env') {p : Program}
    (hp : ∀ i ∈ p.code, i.instruction.Within R ∧ ∀ source, i.instruction ≠ .nested source)
    (hwrites : ∀ name, R.writes name) {w w' : World} (hw : LikeWorld R w w') :
    SameWorld R Eq (p.run env w) (p.run env' w') := by
  have hstart : LikeFrame R False ⟨w, [], [], []⟩ ⟨w', [], [], []⟩ :=
    ⟨hw, .nil, .nil, rfl, False.elim⟩
  have hr := runFrom_alike henv hp hwrites Program.spareSteps 0 hstart
  have hdepth : w.scopes.depth = w'.scopes.depth :=
    congrArg (· + 2) hw.scopes.pushed.length_eq
  have hclose : ∀ {f f' : Frame}, LikeFrame R False f f' → LikeWorld R
      { f.world with scopes := f.world.scopes.unwind w.scopes.depth }
      { f'.world with scopes := f'.world.scopes.unwind w'.scopes.depth } := fun hf =>
    { hf.world with scopes := unwind_alike hf.world.scopes hdepth }
  unfold Program.run
  dsimp only
  generalize p.runFrom env _ 0 _ = r, p.runFrom env' _ 0 _ = r' at hr
  cases hr with
  | error frame like => exact .error (hclose frame) like
  | ok frame like =>
    dsimp only
    rw [joinOutput_like frame.output]
    split
    · exact .ok (hclose frame) rfl
    · rename_i cause hcause
      exact .error (hclose frame) (.of (.closed (joinOutput_closed _ hcause)))

end Likeness

/-! ## 6. Templates -/

namespace Template

/-- Attaching places to errors that are alike keeps them alike. -/
theorem locate_alike {L : Likeness} (t : Template) {s s' : Store} (hs : L.Holds s s')
    (token : Option Token) {e e' : Error} (he : L.LikeError e e') :
    L.LikeError (t.locate s token e) (t.locate s' token e') := by
  unfold locate
  rw [← he.debug]
  split
  · split
    · unfold Error.placed
      rw [argumentText_eq hs he.cause]
      split
      · exact ⟨he.cause, he.token, rfl⟩
      · exact ⟨he.cause, he.token, rfl⟩
      · exact .of (.closed trivial)
    · exact he
  · exact he

/-- A template finds around it what is alike on both sides, if output is escaped on both or on
none. -/
theorem environment_alike (t : Template) (hfilters : UniformFilters L t.grammar.filters)
    {autoescape autoescape' : Value}
    (ha : ∀ s s', L.Holds s s' → s.truth autoescape = s'.truth autoescape')
    (nested nested' : Value → EStateM Error World Value) :
    LikeEnvironment L (t.environment autoescape nested) (t.environment autoescape' nested') where
  filters := rfl
  uniform := hfilters
  autoescape := ha
  locate := fun _ _ token _ _ hs he => t.locate_alike hs token he

/-- Renderings are alike if what is run in bound contexts is. -/
theorem tied_alike {L : Likeness} {R : L.Roots} {P : Value → Value → Prop} {t : Template}
    {x x' : EStateM Error World Value} {w w' : World} (hw : LikeWorld R w w')
    (h : SameWorld R P (x ⟨w.boundTo t, w.store⟩) (x' ⟨w'.boundTo t, w'.store⟩)) :
    SameWorld R P (t.tied x w) (t.tied x' w') := by
  have hsettings := hw.settings
  cases hb : w.settings with
  | none =>
    cases hb' : w'.settings with
    | none =>
      rw [tied_of_bare hb, tied_of_bare hb']
      exact .error hw (.of (.closed trivial))
    | some b' =>
      rw [hb, hb'] at hsettings
      cases hsettings
  | some b =>
    cases hb' : w'.settings with
    | none =>
      rw [hb, hb'] at hsettings
      cases hsettings
    | some b' =>
      generalize hr : x ⟨w.boundTo t, w.store⟩ = r, hr' : x' ⟨w'.boundTo t, w'.store⟩ = r' at h
      have hbehind : ∀ {v v' : World} {c c' : Context}, LikeWorld R v v' →
          v.MayRelease c → v'.MayRelease c' → LikeWorld R ⟨c, v.store⟩ ⟨c', v'.store⟩ := by
        intro v v' c c' hv hc hc'
        exact
          { store := hv.store
            scopes := hc.scopes ▸ hc'.scopes ▸ hv.scopes
            settings := hc.settings.trans (hv.settings.trans hc'.settings.symm) }
      cases h with
      | ok world like =>
        obtain ⟨c, hc, htied⟩ := tied_of_ok hb hr
        obtain ⟨c', hc', htied'⟩ := tied_of_ok hb' hr'
        rw [htied, htied']
        exact .ok (hbehind world hc hc') like
      | error world like =>
        obtain ⟨c, hc, htied⟩ := tied_of_error hb hr
        obtain ⟨c', hc', htied'⟩ := tied_of_error hb' hr'
        rw [htied, htied']
        exact .error (hbehind world hc hc') like

end Template
end TextTemplate
