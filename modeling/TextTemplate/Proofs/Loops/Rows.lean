/-
# What a loop goes over

A loop may go over any value.  A mapping gives its keys with their values, and so does a value that
has a member `items` to call; what else can be iterated over gives its items with their numbers; and
what cannot, gives nothing, so that the empty part of the loop is rendered.

* `Store.Gives` says what a loop goes over, or which failure of the value's own code it ends with;
* `Store.Mistyped` are the values whose member `items` is no method to call for pairs; what a loop
  over them does is left open;
* `Run.goOver` are the rounds: an item is taken apart, its key and its value are bound, which cannot
  fail, and the body is run;
* `Program.loop_over` says that the code of a loop does all this, whatever the value is.
-/
import TextTemplate.Proofs.Binding.Rounds
import TextTemplate.Proofs.Binding.Texts
import TextTemplate.Proofs.Compile.Placement
import TextTemplate.Proofs.Likeness.Execution
import TextTemplate.Proofs.Loops.Streams
import TextTemplate.Proofs.Tree.Compiling

namespace TextTemplate

open TextTemplate.Outcome

/-! ## 1. The items of a loop -/

namespace Store

/-- The value has no member `items`. -/
def IsRow (s : Store) (v : Value) : Prop :=
  (∀ r, v ≠ .dict r) ∧ s.hasAttribute v "items" = .ok false

/-- **What a loop over a value goes over.**  An error comes from the value's own code: a property, a
method or an item of it has failed, and not with a type error. -/
inductive Gives (s : Store) : Value → EStateM.Result Error Store (List LoopItem) → Prop where
  | mapping (r : Ref) :
      s.Gives (.dict r) (.ok ((s.dict r).map fun e => .pair e.label e.value) s)
  /-- The pairs are taken apart one by one, at the beginning of each round. -/
  | pairs {v : Value} {member : Member} {items : List Value} {s' : Store} (other : ∀ r, v ≠ .dict r)
      (has : s.attribute? v "items" = some (.ok member))
      (called : (Eval.call member >>= Eval.items) s = .ok items s') :
      s.Gives v (.ok (items.map .packed) s')
  | numbered {v : Value} {items : List Value} {s' : Store} (row : s.IsRow v)
      (iterates : s.Iterates v ⟨items, none⟩ s') :
      s.Gives v (.ok (items.mapIdx fun i item => .pair (.int i) item) s')
  | nothing {v : Value} (row : s.IsRow v) (not : s.NotIterable v) : s.Gives v (.ok [] s)
  /-- A type error on the way counts as having nothing to iterate over. -/
  | broken {v : Value} {items : List Value} {cause : Cause} {s' : Store} (row : s.IsRow v)
      (iterates : s.Iterates v ⟨items, some cause⟩ s') (kind : cause.kind = .mistyped) :
      s.Gives v (.ok [] s')
  | indexed {v : Value} {items : List Value} {cause : Cause} {s' : Store} {r : Ref} {index : Nat}
      (row : s.IsRow v) (iterates : s.Iterates v ⟨items, some cause⟩ s') (leads : s.LeadsTo v r)
      (raised : s.item (.object r) (.int index) = .error cause) (kind : cause.kind ≠ .mistyped) :
      s.Gives v (.error (Error.of cause) s')
  | property {v : Value} {cause : Cause} (other : ∀ r, v ≠ .dict r)
      (raised : s.attribute? v "items" = some (.error cause))
      (there : cause.kind ≠ .missingAttribute) (kind : cause.kind ≠ .mistyped) :
      s.Gives v (.error (Error.of cause) s)
  | method {v : Value} {member : Member} {e : Error} {s' : Store} (other : ∀ r, v ≠ .dict r)
      (has : s.attribute? v "items" = some (.ok member))
      (raised : (Eval.call member >>= Eval.items) s = .error e s') (kind : e.kind ≠ .mistyped) :
      s.Gives v (.error e s')

/-- Reading the member `items`, calling it, or iterating over what it returns is a type error. -/
def Mistyped (s : Store) (v : Value) : Prop :=
  (∃ cause, s.attribute? v "items" = some (.error cause) ∧ cause.kind = .mistyped) ∨
    ∃ member e s', s.attribute? v "items" = some (.ok member) ∧
      (Eval.call member >>= Eval.items) s = .error e s' ∧ e.kind = .mistyped

variable {s : Store} {v : Value}

/-- A row that ends gives its items, or nothing, or the failure of an item. -/
theorem exists_gives_of_row (row : s.IsRow v) (hends : s.Ends v) : ∃ given, s.Gives v given := by
  rcases hends.iterates with not | ⟨⟨items, failure⟩, s', iterates⟩
  · exact ⟨_, .nothing row not⟩
  cases failure with
  | none => exact ⟨_, .numbered row iterates⟩
  | some cause =>
    by_cases kind : cause.kind = .mistyped
    · exact ⟨_, .broken row iterates kind⟩
    rcases iterates.failure rfl with mistyped | ⟨r, index, leads, raised⟩
    · exact absurd mistyped kind
    · exact ⟨_, .indexed row iterates leads raised kind⟩

/-- **Every value gives something**, as long as a row ends. -/
theorem exists_gives (hends : s.IsRow v → s.Ends v) (hitems : ¬ s.Mistyped v) :
    ∃ given, s.Gives v given := by
  by_cases hdict : ∃ r, v = .dict r
  · obtain ⟨r, rfl⟩ := hdict
    exact ⟨_, .mapping r⟩
  have hother : ∀ r, v ≠ .dict r := fun r heq => hdict ⟨r, heq⟩
  have hrow : s.hasAttribute v "items" = .ok false → ∃ given, s.Gives v given := fun hmissing =>
    exists_gives_of_row ⟨hother, hmissing⟩ (hends ⟨hother, hmissing⟩)
  cases hattribute : s.attribute? v "items" with
  | none =>
    refine hrow ?_
    unfold hasAttribute
    rw [hattribute]
  | some outcome =>
    cases outcome with
    | error cause =>
      by_cases hmissing : cause.kind = .missingAttribute
      · refine hrow ?_
        unfold hasAttribute
        rw [hattribute]
        exact if_pos hmissing
      · refine ⟨_, .property hother hattribute hmissing fun kind => hitems ?_⟩
        exact .inl ⟨cause, hattribute, kind⟩
    | ok member =>
      cases hcalled : (Eval.call member >>= Eval.items) s with
      | ok items s' => exact ⟨_, .pairs hother hattribute hcalled⟩
      | error e s' =>
        refine ⟨_, .method hother hattribute hcalled fun kind => hitems ?_⟩
        exact .inr ⟨member, e, s', hattribute, hcalled, kind⟩

end Store

namespace Eval

variable {s s' : Store} {v : Value}

/-- The items of a row are numbered. -/
theorem loopItems_of_row (h : s.IsRow v) : loopItems v s = numberedItems v s := by
  rw [loopItems_eq h.1, bind_of_ok (read_of_ok h.2)]
  rfl

/-- The items of another value are the pairs that it gives by itself. -/
theorem loopItems_of_member {member : Member} (other : ∀ r, v ≠ .dict r)
    (h : s.attribute? v "items" = some (.ok member)) :
    loopItems v s = (call member >>= items >>= fun given => pure (given.map .packed)) s := by
  have hhas : s.hasAttribute v "items" = .ok true := by
    unfold Store.hasAttribute
    rw [h]
  rw [loopItems_eq other, bind_of_ok (read_of_ok hhas), if_pos rfl, bind_assoc]
  unfold ownPairs
  rw [bind_of_ok (get_apply s), h]

/-- **What a value gives is what its loop goes over.** -/
theorem loopItems_of_gives {given : EStateM.Result Error Store (List LoopItem)}
    (h : s.Gives v given) : loopItems v s = given := by
  cases h with
  | mapping r => rfl
  | pairs other has called => rw [loopItems_of_member other has, bind_of_ok called]; rfl
  | numbered row iterates =>
    rw [loopItems_of_row row]
    exact bind_of_ok (stream?_of_iterates iterates)
  | nothing row not =>
    rw [loopItems_of_row row]
    exact bind_of_ok (stream?_of_notIterable not)
  | broken row iterates kind =>
    rw [loopItems_of_row row]
    refine (bind_of_ok (stream?_of_iterates iterates)).trans ?_
    dsimp only
    rw [if_pos kind]
    rfl
  | indexed row iterates leads raised kind =>
    rw [loopItems_of_row row]
    refine (bind_of_ok (stream?_of_iterates iterates)).trans ?_
    dsimp only
    rw [if_neg kind]
    rfl
  | @property v cause other raised there kind =>
    have hfails : s.hasAttribute v "items" = .error cause := by
      unfold Store.hasAttribute
      rw [raised]
      exact if_neg there
    rw [loopItems_eq other, bind_of_error (read_of_error hfails)]
  | method other has raised kind => rw [loopItems_of_member other has, bind_of_error raised]

end Eval

/-! ## 2. Rounds -/

/-- The key and the value of an item. -/
def LoopItem.parts : LoopItem → Eval (Value × Value)
  | .pair key value => pure (key, value)
  | .packed v => Eval.pairOf v

namespace Run

/-- Bind some names in the innermost layer. -/
def bindAll (bound : List (String × Value)) : Run Unit :=
  modify fun f => { f with
    world.scopes.pushed := f.world.scopes.pushed.modifyHead (·.bindAll bound) }

/-- **The rounds of a loop** over some items.  An item that cannot be taken apart fails at one token
in the first round, and at another in the following ones. -/
def goOver (env : Environment) (names : List String) (body : Run Unit) (later : Token) :
    (now : Token) → List LoopItem → Run Unit
  | _, [] => pure ()
  | now, item :: rest => do
    let (key, value) ← located env now (eval item.parts)
    bindAll (bindings names key value)
    body
    goOver env names body later later rest

variable {names : List String} {f : Frame}

theorem bindItem_eq (names : List String) (item : LoopItem) :
    bindItem names item = (eval item.parts >>= fun taken => bindPair names taken.1 taken.2) := by
  cases item <;> rfl

/-- **Only taking an item apart can fail**, and not binding what it consists of. -/
theorem located_bindItem (hnames : names ≠ []) (hpushed : f.world.scopes.pushed ≠ [])
    (env : Environment) (t : Token) (item : LoopItem) : located env t (bindItem names item) f =
      (located env t (eval item.parts) >>= fun taken =>
        bindAll (bindings names taken.1 taken.2)) f := by
  rw [bindItem_eq]
  cases htaken : item.parts f.world.store with
  | error e s =>
    have heval : eval item.parts f = .error e { f with world.store := s } := eval_of_error htaken
    rw [bind_of_error (located_of_error heval)]
    exact located_of_error (bind_of_error heval)
  | ok taken s =>
    have heval : eval item.parts f = .ok taken { f with world.store := s } := eval_of_ok htaken
    obtain ⟨layer, rest, hlayer⟩ := List.exists_cons_of_ne_nil hpushed
    have hbind := bindPair_pushed (f := { f with world.store := s }) hnames hlayer taken.1 taken.2
    rw [bind_of_ok (located_of_ok heval)]
    refine (located_of_ok ((bind_of_ok heval).trans hbind)).trans ?_
    unfold bindAll
    rw [modify_apply, hlayer]
    rfl

/-- **The rounds of a loop that binds some names.** -/
theorem rounds_eq_goOver {env : Environment} {body : Run Unit} {later : Token} (hnames : names ≠ [])
    (hbody : Local body) : ∀ (items : List LoopItem) (now : Token) (f : Frame),
      f.world.scopes.pushed ≠ [] →
      rounds env names body later now items f = goOver env names body later now items f
  | [], _, _, _ => rfl
  | item :: rest, now, f, hpushed => by
    have hlocal := (bindItem_local names item).located env now
    have hbind := located_bindItem hnames hpushed env now item
    have hgo : goOver env names body later now (item :: rest) f =
        ((located env now (eval item.parts) >>= fun taken =>
          bindAll (bindings names taken.1 taken.2)) >>= fun _ =>
            body >>= fun _ => goOver env names body later later rest) f := by
      rw [bind_assoc]
      rfl
    rw [hgo, rounds]
    cases hfirst : located env now (bindItem names item) f with
    | error e f' =>
      rw [bind_of_error hfirst, bind_of_error (hbind.symm.trans hfirst)]
    | ok u f₁ =>
      rw [bind_of_ok hfirst, bind_of_ok (hbind.symm.trans hfirst)]
      cases hrun : body f₁ with
      | error e f' => rw [bind_of_error hrun, bind_of_error hrun]
      | ok u f₂ =>
        rw [bind_of_ok hrun, bind_of_ok hrun]
        refine rounds_eq_goOver hnames hbody rest later f₂ fun hnone => hpushed ?_
        have hdepth := (hbody.depth hrun).trans (hlocal.depth hfirst)
        unfold Scopes.depth at hdepth
        rw [hnone] at hdepth
        exact List.length_eq_zero_iff.mp (Nat.succ.inj (Nat.succ.inj hdepth)).symm

end Run

/-! ## 3. Loops -/

section Loops

variable {p : Program} {env : Environment} {t closing : Token} {names : List String}
  {e : Expression} {body : Tree} {parts : EmptyParts} {depth k : Nat} {n : Numbers}
  {l : List Loop} {g : List String} {f : Frame} {v : Value} {s s' : Store}

/-- The target of a loop has a name at least. -/
theorem Tag.ne_nil_of_loopTarget {remainder sequence : List Char}
    (h : Tag.loopTarget remainder = some (names, sequence)) : names ≠ [] := by
  obtain ⟨⟨target, behind⟩, -, h⟩ := Option.bind_eq_some_iff.mp h
  obtain ⟨first, rest, hcut, -⟩ := splitAt_eq_cons ',' target
  dsimp only at h
  split at h
  · cases h
  · cases h
    rw [hcut]
    exact List.cons_ne_nil _ _

theorem Marker.Stated.names_ne_nil {remainder : List Char} {command : String} {m : Marker}
    (h : Marker.Stated n remainder command m) (hm : m = .loop names e) : names ≠ [] := by
  cases h with
  | loop target read =>
    cases hm
    exact Tag.ne_nil_of_loopTarget target
  | _ => cases hm

/-- A loop that has been read binds a name at least. -/
theorem Marker.names_ne_nil_of_read (h : Marker.read? n t = some (.loop names e)) : names ≠ [] := by
  rcases Marker.cases_of_read h with ⟨-, leaf, hleaf⟩ | ⟨-, -, hstated⟩
  · cases hleaf
  · exact hstated.names_ne_nil rfl

/-- The frame of a loop: a layer has been added, and the sequence evaluated. -/
def Frame.entered (f : Frame) (s : Store) : Frame :=
  { f with world := { f.world with scopes := f.world.scopes.push [], store := s } }

theorem Run.loopItems_of_gives {given : EStateM.Result Error Store (List LoopItem)}
    (hv : e.resolve env.filters (f.world.scopes.push []) f.world.store = .ok v s)
    (h : s.Gives v given) : Run.loopItems env e (f.entered f.world.store) =
      match given with
      | .ok items s' => .ok items (f.entered s')
      | .error fault s' => .error fault (f.entered s') := by
  have heval : Run.loopItems env e (f.entered f.world.store) =
      Run.eval (e.resolve env.filters (f.world.scopes.push []) >>= Eval.loopItems)
        (f.entered f.world.store) := rfl
  have hgiven : (e.resolve env.filters (f.world.scopes.push []) >>= Eval.loopItems)
      f.world.store = given := (bind_of_ok hv).trans (Eval.loopItems_of_gives h)
  rw [heval]
  cases given with
  | ok items s' => exact Run.eval_of_ok hgiven
  | error fault s' => exact Run.eval_of_error hgiven

/-- **A loop goes over what its value gives**, and renders its empty part if that is nothing. -/
theorem Tree.render_loop {items : List LoopItem} (hnames : names ≠ [])
    (hv : e.resolve env.filters (f.world.scopes.push []) f.world.store = .ok v s)
    (h : s.Gives v (.ok items s')) : (Tree.loop t names e body parts closing .nil).render env f =
      (do
        Run.inLayer (Run.goOver env names (body.render env) (parts.endOfBody closing) t items)
        parts.render env items.isEmpty) { f with world.store := s' } := by
  have hpush : Run.pushLayer f = .ok () (f.entered f.world.store) := rfl
  have hpush' : Run.pushLayer { f with world.store := s' } = .ok () (f.entered s') := rfl
  have hitems : Run.located env t (Run.loopItems env e) (f.entered f.world.store) =
      .ok items (f.entered s') := Run.located_of_ok (Run.loopItems_of_gives hv h)
  have hrounds : Run.rounds env names (body.render env) (parts.endOfBody closing) t items
      (f.entered s') = _ :=
    Run.rounds_eq_goOver hnames (body.render_local env) items t _ (List.cons_ne_nil _ _)
  rw [Tree.render, Run.inLayer_bind, bind_of_ok hpush, Run.inLayer_bind, bind_of_ok hpush']
  simp only [bind_assoc, pure_bind, Tree.render]
  rw [bind_of_ok hitems]
  cases hgo : Run.goOver env names (body.render env) (parts.endOfBody closing) t items
      (f.entered s') with
  | error fault f' => rw [bind_of_error hgo, bind_of_error (hrounds.trans hgo)]
  | ok u f' =>
    rw [bind_of_ok hgo, bind_of_ok (hrounds.trans hgo)]
    simp only [bind_pure_unit]

/-- A loop fails at its own token if its value does. -/
theorem Tree.render_loop_error {fault : Error}
    (hv : e.resolve env.filters (f.world.scopes.push []) f.world.store = .ok v s)
    (h : s.Gives v (.error fault s')) :
    (Tree.loop t names e body parts closing .nil).render env f =
      .error (env.locate s' (some t) fault) (f.entered s') := by
  have hpush : Run.pushLayer f = .ok () (f.entered f.world.store) := rfl
  have hitems : Run.located env t (Run.loopItems env e) (f.entered f.world.store) =
      .error (env.locate s' (some t) fault) (f.entered s') :=
    Run.located_of_error (Run.loopItems_of_gives hv h)
  rw [Tree.render, Run.inLayer_bind, bind_of_ok hpush]
  simp only [bind_assoc]
  rw [bind_of_error hitems]

/-- **A loop may go over any value.**  Wherever a program holds the code of a loop, it goes over
what the value of its sequence gives and then renders the empty part if that was nothing, or fails
at the token of the loop as the value's own code does; and as long as a row ends and a member
`items` can be called, the value gives one or the other. -/
theorem Program.loop_over
    (has : p.Has k ((Tree.loop t names e body parts closing .nil).linked depth k))
    (reads : (Tree.loop t names e body parts closing .nil).Reads n) (hl : Enclose l k)
    (hg : Clear depth g)
    (hv : e.resolve env.filters (f.world.scopes.push []) f.world.store = .ok v s) :
    (∀ items s', s.Gives v (.ok items s') →
      p.Carries env k (Run.reframe l g f)
        (k + (Tree.loop t names e body parts closing .nil).size) l g
        ((do
          Run.inLayer (Run.goOver env names (body.render env) (parts.endOfBody closing) t items)
          parts.render env items.isEmpty) { f with world.store := s' })) ∧
    (∀ fault s', s.Gives v (.error fault s') →
      p.Fails env k (Run.reframe l g f) (env.locate s' (some t) fault)
        { f.world with scopes := f.world.scopes.push [], store := s' }) ∧
    ((s.IsRow v → s.Ends v) → ¬ s.Mistyped v → ∃ given, s.Gives v given) := by
  have hcarries : p.Carries env k _ _ l g _ := Tree.carries _ f has reads hl hg
  refine ⟨fun items s' h => ?_, fun fault s' h => ?_, Store.exists_gives⟩
  · rw [Tree.render_loop (Marker.names_ne_nil_of_read reads.1) hv h] at hcarries
    exact hcarries
  · rw [Tree.render_loop_error hv h] at hcarries
    exact hcarries

end Loops

/-- A loop that shows both its names, with an empty part. -/
def rowsSource : String :=
  "\x7b% for k, x in o %\x7d\x7b\x7b k \x7d\x7d\x7b\x7b x \x7d\x7d\x7b% empty %\x7de" ++
  "\x7b% endfor %\x7d"

/-- What it renders in each round. -/
def rowsBody : Tree :=
  .leaf ⟨.expression, "k", 19, 26, 1⟩ (.expression (.variable "k"))
    (.leaf ⟨.expression, "x", 26, 33, 1⟩ (.expression (.variable "x")) .nil)

/-- What it renders when there are no items. -/
def rowsEmpty : EmptyParts :=
  .part ⟨.statement, "empty", 33, 44, 1⟩ (.leaf ⟨.text, "e", 44, 45, 1⟩ (.text "e") .nil) .done
    .none

/-- The same as a tree. -/
def rowsTree : Tree :=
  .loop ⟨.statement, "for k, x in o", 0, 19, 1⟩ ["k", "x"] (.variable "o") rowsBody rowsEmpty
    ⟨.statement, "endfor", 45, 57, 1⟩ .nil

theorem rowsTree_reads : rowsTree.Reads ⟨0, Store.firstSerial⟩ := by decide +kernel

/-- Two objects: one is read at 0 and 1, the other iterates over a list and has pairs to give. -/
def rowsStore : Store :=
  { Store.empty with
    lists := #[[.plain "z"], [.tuple 0]]
    tuples := #[[.plain "a", .plain "b"]]
    dicts := #[[⟨.text "o", .plain "o", .object 0⟩], [⟨.text "o", .plain "o", .object 1⟩]]
    objects := #[
      { name := "indexed", ownText := none, attributes := [], methods := [], properties := []
        items := some [(.int 0, .returns (.plain "p")), (.int 1, .returns (.plain "q")),
          (.int 2, .raises .badIndex none)]
        call := none, noCall := false, iteration := none },
      { name := "paired", ownText := none, attributes := []
        methods := [⟨"items", false, .returns (.list 1)⟩], properties := [], items := none
        call := none, noCall := false, iteration := some (.list 0) }] }

/-- An object that is read at 0 and 1 gives what it has there, with its numbers. -/
theorem rowsStore_gives : rowsStore.Gives (.object 0)
    (.ok [.pair (.int 0) (.plain "p"), .pair (.int 1) (.plain "q")] rowsStore) := by
  have hindexed : rowsStore.Indexed (.object 0) 0 ⟨[.plain "p", .plain "q"], none⟩ :=
    .found rfl (.found rfl (.out rfl rfl))
  have hrow : rowsStore.IsRow (.object 0) := ⟨by simp, rfl⟩
  exact .numbered hrow (.indexed rfl rfl hindexed)

/-- A loop over that object. -/
theorem Program.loop_over_indexed :
    let p : Program := ⟨(rowsTree.linked 0 0).toArray⟩
    let env : Environment := .detached Filter.standard (.bool true)
    let f : Frame := ⟨⟨⟨⟨.dict 0, []⟩, none⟩, rowsStore⟩, [], [], []⟩
    p.Has 0 (rowsTree.linked 0 0) ∧ rowsTree.Reads ⟨0, Store.firstSerial⟩ ∧
    (Expression.variable "o").resolve env.filters (f.world.scopes.push []) rowsStore =
      .ok (.object 0) rowsStore ∧
    p.Carries env 0 f rowsTree.size [] [] ((do
      Run.inLayer (Run.goOver env ["k", "x"] (rowsBody.render env)
        ⟨.statement, "empty", 33, 44, 1⟩ ⟨.statement, "for k, x in o", 0, 19, 1⟩
        [.pair (.int 0) (.plain "p"), .pair (.int 1) (.plain "q")])
      rowsEmpty.render env false) f) := by
  intro p env f
  have has : p.Has 0 (rowsTree.linked 0 0) := Program.has_self
  have hv : (Expression.variable "o").resolve env.filters (f.world.scopes.push []) rowsStore =
      .ok (.object 0) rowsStore := Expression.resolve_of_bound rfl rfl rfl rfl
  have henclose : Enclose [] 0 := trivial
  have hclear : Clear 0 [] := fun _ _ => List.not_mem_nil
  -- with its value in sight the program would be run to compare the two sides
  clear_value p env
  obtain ⟨hgoes, -, -⟩ := loop_over (f := f) has rowsTree_reads henclose hclear hv
  have hcarries := hgoes _ _ rowsStore_gives
  rw [Nat.zero_add] at hcarries
  exact ⟨has, rowsTree_reads, hv, hcarries⟩

/-- **What has pairs to give is not numbered**, although it can be iterated over. -/
theorem Program.loop_prefers_pairs :
    rowsStore.Iterates (.object 1) ⟨[.plain "z"], none⟩ rowsStore ∧
      ∃ p c, Compile.program Tag.standard (Delimiters.standard.tokens rowsSource) (.start .empty) =
          .ok p c ∧
        givenBy (p.run (.detached Filter.standard (.bool true))
            ⟨⟨⟨.dict 1, []⟩, none⟩, rowsStore⟩) =
          some (.markup "ab") := by
  have hsource : Delimiters.standard.tokens rowsSource = rowsTree.tokens := by decide +kernel
  obtain ⟨c, hp, -⟩ := rowsTree.program_tokens .empty rowsTree_reads
  refine ⟨.inner rfl (.list 0), _, c, hsource ▸ hp, ?_⟩
  rw [rowsTree.run_linked rowsTree_reads]
  decide +kernel

end TextTemplate
