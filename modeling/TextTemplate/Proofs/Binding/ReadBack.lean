/-
# Bound names are read back

A loop binds its names in each round, and a tag may bind a serial number.  Behind it a marker with
the text that the tag has read shows what has been bound, as long as nothing else is bound to the
name in between, if the text is read back; otherwise the marker does not ask for the name.

* `Frame.ReadsAs` is what comes of a marker, given what its name stands for;
* `Tag.loopTexts` are the texts that a loop reads its names from;
* `Template.Leaves` are the steps that bind nothing to a name in the root layer, and
  `Usual.step_leaves` says that what it stands for there is the same behind one;
* `Template.names_read_back` is the result, for every run of a template.
-/
import TextTemplate.Proofs.Binding.Rounds
import TextTemplate.Proofs.Binding.Texts
import TextTemplate.Proofs.Cycles.Counting

namespace TextTemplate

open Correspondence Likeness TextTemplate.Outcome TextTemplate.Text

/-! ## 1. Markers in a run -/

/-- **What comes of a marker** with the text of a name that stands for a value.  If the text is read
back, it is the value; otherwise the marker does not ask for the name, and has the same value
whatever the layers bind to it. -/
structure Frame.ReadsAs (filters : Table Filter) (f : Frame) (text : List Char) (v : Value) :
    Prop where
  value : ReadsBack text → ∃ e, Expression.read (strip text) = .ok e ∧
    e.resolve filters f.world.scopes f.world.store = .ok v f.world.store
  other : ¬ ReadsBack text → ∀ e, Expression.read (strip text) = .ok e →
    ¬ e.Asks (nameOf text) ∧ ∀ c, f.world.scopes.SameBut (nameOf text) c →
      e.resolve filters c = e.resolve filters f.world.scopes

theorem Frame.readsAs_of_lookup {filters : Table Filter} {f : Frame} {text : List Char} {v : Value}
    (hname : plainName text ≠ [])
    (hlookup : f.world.scopes.lookup (.plain (nameOf text)) f.world.store = .ok v f.world.store)
    (hv : f.world.store.isCallable v = false) : f.ReadsAs filters text v where
  value hback := by
    obtain ⟨e, hread, hform, hfilters⟩ := hback.read hname
    exact ⟨e, hread, Expression.resolve_of_bound hform hfilters hlookup hv⟩
  other hback e hread := by
    have hasks := not_asks_of_read hread hback
    exact ⟨hasks, fun c hc => Expression.resolve_sameBut hc hasks filters⟩

/-! ## 2. The names of a loop -/

namespace Tag

/-- The texts that a loop reads its names from. -/
def loopTexts (remainder : List Char) : List (List Char) :=
  (before? loopWord remainder).elim [] fun cut => splitAt ',' cut.1

theorem names_of_loopTarget {remainder sequence : List Char} {names : List String}
    (h : loopTarget remainder = some (names, sequence)) :
    names = (loopTexts remainder).map nameOf ∧ names.length ≤ 2 ∧
      ∀ text ∈ loopTexts remainder, plainName text ≠ [] := by
  obtain ⟨⟨target, behind⟩, hcut, h⟩ := Option.bind_eq_some_iff.mp h
  have htexts : loopTexts remainder = splitAt ',' target := by
    unfold loopTexts
    rw [hcut]
    rfl
  dsimp only at h
  split at h
  · cases h
  · rename_i haccepted
    cases h
    obtain ⟨-, hfew⟩ := not_or.mp haccepted
    obtain ⟨hlength, hempty⟩ := not_or.mp hfew
    refine ⟨?_, ?_, fun text htext hnil => hempty ?_⟩
    · rw [htexts, List.map_map]
      rfl
    · rw [List.length_map]
      exact Nat.le_of_not_lt hlength
    · refine List.any_eq_true.mpr ⟨plainName text, List.mem_map_of_mem (htexts ▸ htext), ?_⟩
      rw [hnil]
      rfl

end Tag

/-- In a round each name of the loop stands for something. -/
theorem exists_binding {names : List String} (h : names.length ≤ 2) (key value : Value)
    {name : String} (hname : name ∈ names) : ∃ v, (name, v) ∈ bindings names key value := by
  match names with
  | [] => cases hname
  | [only] =>
    obtain rfl := List.mem_singleton.mp hname
    exact ⟨value, List.mem_cons_self⟩
  | [first, second] =>
    rcases List.mem_cons.mp hname with rfl | hname
    · exact ⟨key, List.mem_cons_self⟩
    · obtain rfl := List.mem_singleton.mp hname
      exact ⟨value, List.mem_cons_of_mem _ List.mem_cons_self⟩
  | _ :: _ :: _ :: _ => simp at h

/-! ## 3. Runs of templates -/

namespace Template

/-- What a template finds around it when it is run within some levels. -/
abbrev surroundings (t : Template) (autoescape : Value) (levels : Nat) : Environment :=
  t.environment autoescape (nestedWithin levels t autoescape)

section Runs

variable {t : Template} {autoescape : Value} {levels place : Nat} {w : World} {f : Frame}
  {i : Linked}

/-- The program of a usual template has been assembled from items with labels of their own, and each
of its loops has a layer of its own. -/
theorem Usual.layered (ht : t.Usual) : ∃ items,
    (items.map (·.label)).Nodup ∧ Program.assemble items = .ok t.program ∧
      Layered (codeOf items) ∧ codeOf items = t.program.code.toList.map (·.instruction) := by
  obtain ⟨engine, name, source, o, s, s', hcompiled⟩ := ht.compiled
  obtain ⟨items, hlabels, hassemble⟩ := assembled_of_compile hcompiled ht.tags.ordinary
  have hcode : codeOf items = t.program.code.toList.map (·.instruction) :=
    (Program.assemble_instructions hassemble).symm
  refine ⟨items, hlabels, hassemble, ?_, hcode⟩
  rw [hcode]
  exact (emitted hcompiled ht.tags.ordinary).layered

/-- The layers that a run has found are under its own ones. -/
theorem Usual.reached_above (ht : t.Usual)
    (hreaches : t.program.Reaches (t.surroundings autoescape levels) 0 ⟨w, [], [], []⟩ place f) :
    ∃ level, t.program.HasLevels level ∧ w.Above (level place) f.world.toContext := by
  obtain ⟨engine, name, source, o, s, s', hcompiled⟩ := ht.compiled
  obtain ⟨s₀, c, hp, -, -⟩ := program_of_compile hcompiled
  have hlevels := Compile.hasLevels_of_program ht.tags.ordinary hp
  exact ⟨_, hlevels, hreaches.above hlevels (ht.restores_nestedWithin levels autoescape)
    (hlevels.above_start w.toContext)⟩

/-- Where an instruction needs a layer there is one. -/
theorem Usual.exists_layer (ht : t.Usual)
    (hreaches : t.program.Reaches (t.surroundings autoescape levels) 0 ⟨w, [], [], []⟩ place f)
    (here : t.program.code[place]? = some i) (hneeds : i.instruction.NeedsLayer) :
    ∃ layer rest, f.world.scopes.pushed = layer :: rest := by
  obtain ⟨level, hlevels, habove⟩ := ht.reached_above hreaches
  obtain ⟨layer, rest, hpushed, -⟩ := habove.scopes.exists_layer (hlevels.inside here hneeds)
  exact ⟨layer, rest, hpushed⟩

/-- The states that a run reaches are like themselves, over a root layer that no value leads to. -/
theorem Usual.reached_like (ht : t.Usual) (h : w.scopes.Apart w.store)
    (hreaches : t.program.Reaches (t.surroundings autoescape levels) 0 ⟨w, [], [], []⟩ place f) :
    LikeFrame (h.roots w.store fun _ => True) False f f := by
  obtain ⟨level, hrunnable⟩ : ∃ level, t.program.Runnable (h.roots w.store fun _ => True)
      (t.surroundings autoescape levels) level := ht.runnable h fun _ _ => trivial
  exact (Program.reached_like hrunnable (ht.nestedLike h (h.likeWorld _) fun _ _ => trivial)
    (h.likeWorld _) hreaches).1

end Runs

end Template

/-! ## 4. Names in the root layer -/

/-- A name is written in a root layer only if that is a mapping. -/
theorem Scopes.writeRoot_eq_ok {c : Scopes} {name : String} {v : Value} {s s' : Store} {u : Unit}
    (h : c.writeRoot (.plain name) v s = .ok u s') : ∃ r, c.root = .dict r ∧
      s' = s.setDict r ((s.dict r).insert (.text name) (.plain name) v) := by
  unfold writeRoot Eval.setItem at h
  rw [bind_of_ok (get_apply s)] at h
  cases hroot : c.root with
  | dict r =>
    rw [hroot] at h
    cases h
    exact ⟨r, rfl, rfl⟩
  | _ =>
    rw [hroot] at h
    cases h

/-- The names that an instruction binds in the root layer. -/
def Instruction.rootNames : Instruction → List String
  | cycle _ counter => [counter]
  | assign name _ => [name]
  | _ => []

/-- A serial number is bound in the root layer. -/
theorem Linked.step_assign {env : Environment} {i : Linked} {place next : Nat} {f f' : Frame}
    {name : String} {v : Value} (hi : i.instruction = .assign name v)
    (hstep : i.step env place f = .ok next f') : ∃ s,
      f.world.scopes.writeRoot (.plain name) v f.world.store = .ok () s ∧ f'.world.store = s := by
  unfold step at hstep
  split at hstep
  · cases hstep
  rename_i target f₁ hr
  cases hstep
  unfold execute at hr
  rw [hi] at hr
  obtain ⟨c, f₂, hc, hr⟩ := bind_eq_ok.mp hr
  cases hc
  obtain ⟨u, f₃, heval, hr⟩ := bind_eq_ok.mp hr
  obtain ⟨s, hwrite, rfl⟩ := Run.eval_eq_ok.mp heval
  cases hr
  exact ⟨s, hwrite, rfl⟩

namespace Template

section Leaves

variable {t : Template} {autoescape : Value} {levels : Nat} {name : String} {i : Linked}

/-- The instruction binds nothing to the name in the root layer, nor do the templates that it
renders inside. -/
structure Leaves (t : Template) (autoescape : Value) (levels : Nat) (name : String) (i : Linked)
    (f : Frame) : Prop where
  own : name ∉ i.instruction.rootNames
  inside : ∀ {source v s inner s' levels'}, i.instruction = .nested source →
    source.resolve t.grammar.filters f.world.scopes f.world.store = .ok v s →
    compile t.engine none v .empty s = .ok inner s' → levels = levels' + 1 →
      ¬ Written autoescape levels' inner ⟨f.world.boundTo inner, s'⟩ name

variable {s since : Store} {c : Scopes} {f f' : Frame} {r : Ref} {place next : Nat}

/-- What comes out of a template inside that leaves the name is like itself, if all other names may
be written. -/
theorem Usual.likeNested (ht : t.Usual) (h : c.Apart s)
    (hf : LikeFrame (h.roots since (· ≠ name)) False f f)
    (hleaves : t.Leaves autoescape levels name i f) {source : Expression}
    (hi : i.instruction = .nested source) :
    LikeNested (h.roots since (· ≠ name)) (t.surroundings autoescape levels)
      (t.surroundings autoescape levels) source f f := by
  refine ht.likeNested_of_inner h hf fun hv hcompile hlevels husual hworld => ?_
  refine husual.runWithin_like h hworld ?_
  rintro other hwritten rfl
  exact hleaves.inside hi hv hcompile hlevels hwritten

variable {w : World} {place' : Nat}

/-- **A step that leaves a name**: what it stands for in the root layer is the same behind. -/
theorem Usual.step_leaves (ht : t.Usual) (h : w.scopes.Apart w.store)
    (hroot : w.scopes.root = .dict r)
    (hreaches : t.program.Reaches (t.surroundings autoescape levels) 0 ⟨w, [], [], []⟩ place f)
    (here : t.program.code[place]? = some i) (hleaves : t.Leaves autoescape levels name i f)
    (hstep : i.step (t.surroundings autoescape levels) place f = .ok next f') :
    (f'.world.store.dict r).find? (.text name) = (f.world.store.dict r).find? (.text name) := by
  have hwithin : i.instruction.Within (h.roots f.world.store fun _ => True) :=
    ht.within h (fun _ _ => trivial) i (Array.mem_of_getElem? here)
  have hother : i.instruction.Within (h.roots f.world.store (· ≠ name)) := by
    refine ⟨hwithin.expressions, fun values counter heq => ?_, fun bound v heq => ?_⟩
    · refine ⟨(hwithin.counter values counter heq).1, ?_⟩
      rintro rfl
      exact hleaves.own (heq ▸ List.mem_singleton_self counter)
    · refine ⟨?_, (hwithin.assigned bound v heq).2⟩
      rintro rfl
      exact hleaves.own (heq ▸ List.mem_singleton_self bound)
  have hlayer : i.instruction.Binds → f.world.scopes.pushed ≠ [] := by
    intro hb
    obtain ⟨layer, rest, hpushed⟩ :=
      ht.exists_layer hreaches here (Instruction.needsLayer_of_binds hb)
    exact hpushed ▸ List.cons_ne_nil layer rest
  -- the state that the step finds can be taken as the beginning: then all other names may change
  have hfrom := h.likeFrame_from (ht.reached_like h hreaches) (· ≠ name)
  have henv : LikeEnvironment (h.likeness f.world.store (· ≠ name))
      (t.surroundings autoescape levels) (t.surroundings autoescape levels) :=
    environment_alike t (ht.filters h f.world.store (· ≠ name))
      (fun _ _ hs => by rw [h.store_eq hs]) _ _
  have hr := step_alike henv hother place hfrom (fun hb => .inl (hlayer hb))
    fun source hi => ht.likeNested h hfrom hleaves hi
  rw [hstep] at hr
  cases hr with
  | ok frame _ =>
    refine frame.world.store.rest.2.2.2.mapping r (by rw [hroot]; rfl) _ fun other hne heq => ?_
    exact hne (Key.text.inj heq).symm

/-- **Along steps that leave a name** it stands for the same in the root layer. -/
theorem Usual.steps_leave (ht : t.Usual) (h : w.scopes.Apart w.store)
    (hroot : w.scopes.root = .dict r)
    (hreaches : t.program.Reaches (t.surroundings autoescape levels) 0 ⟨w, [], [], []⟩ place f)
    (hsteps : t.program.ReachesBy (t.surroundings autoescape levels)
      (t.Leaves autoescape levels name) place f place' f') :
    (f'.world.store.dict r).find? (.text name) = (f.world.store.dict r).find? (.text name) := by
  induction hsteps with
  | refl => rfl
  | tail steps here hleaves hstep ih =>
    have hkept := ht.step_leaves h hroot (steps.reaches hreaches) here hleaves hstep
    exact hkept.trans (ih hreaches)

end Leaves

end Template

/-! ## 5. Result -/

namespace Template

/-- A serial number has been bound to a name, and since then the name has been left. -/
def Numbered (t : Template) (autoescape : Value) (levels : Nat) (w : World) (name : String)
    (n : Int) (place : Nat) (f : Frame) : Prop :=
  ∃ start f₀ i next f₁,
    t.program.Reaches (t.surroundings autoescape levels) 0 ⟨w, [], [], []⟩ start f₀ ∧
    t.program.code[start]? = some i ∧ i.instruction = .assign name (.int n) ∧
    i.step (t.surroundings autoescape levels) start f₀ = .ok next f₁ ∧
    t.program.ReachesBy (t.surroundings autoescape levels) (t.Leaves autoescape levels name) next f₁
      place f

section Reading

variable {t : Template} {autoescape : Value} {levels place place' : Nat} {w : World}
  {f f' : Frame} {i : Linked}

/-- **In a round of a loop** the texts of its names are read as the item says. -/
theorem Usual.reads_in_round (ht : t.Usual) {l : Loop} {outer : List Loop} {item : LoopItem}
    {s : Store} (hround : t.program.RoundOf (t.surroundings autoescape levels) w l outer item s
      place f) :
    ∃ key value, item.Gives s key value ∧ ∃ inner, f.loops = inner ++ l :: outer ∧
      ∀ remainder sequence, Tag.loopTarget remainder = some (l.names, sequence) → l.names.Nodup →
        ∀ text ∈ Tag.loopTexts remainder, ∃ v, (nameOf text, v) ∈ bindings l.names key value ∧
          ((∀ j, t.program.code[place]? = some j → j.instruction ≠ .popScope) →
            (∀ m ∈ inner, nameOf text ∉ m.names) → f.world.store.isCallable v = false →
              f.ReadsAs t.grammar.filters text v) := by
  obtain ⟨start, f₀, i, next, f₁, hreaches, here, hb, hstep, hsteps⟩ := hround
  obtain ⟨items, hlabels, hassemble, hlayered, hcode⟩ := ht.layered
  have hneeds : i.instruction.NeedsLayer := by
    cases hb with
    | first hi => exact hi ▸ trivial
    | again hi => exact hi ▸ trivial
  obtain ⟨layer, rest, hpushed⟩ := ht.exists_layer hreaches here hneeds
  obtain ⟨key, value, hgives, hbegun⟩ :=
    InRound.begin hlabels hassemble hlayered here hb hpushed hstep
  have hinside := hbegun.reached hlabels hassemble hlayered
    (ht.restores_nestedWithin levels autoescape) hsteps
  obtain ⟨inner, hloops, hfound⟩ := hinside.findPushed?
  refine ⟨key, value, hgives, inner, hloops, fun remainder sequence htarget hnodup text htext => ?_⟩
  obtain ⟨hnames, hfew, hnonempty⟩ := Tag.names_of_loopTarget htarget
  obtain ⟨v, hv⟩ := exists_binding hfew key value
    (hnames ▸ List.mem_map_of_mem htext : nameOf text ∈ l.names)
  refine ⟨v, hv, fun hplace hfree hcallable => ?_⟩
  have hbound := Dict.find?_bindAll layer (hnodup.sublist names_of_bindings) hv
  have hpop : (codeOf items)[place]? ≠ some .popScope := by
    rw [hcode, List.getElem?_map, Array.getElem?_toList]
    intro hpop
    obtain ⟨j, hj, hinstruction⟩ := Option.map_eq_some_iff.mp hpop
    exact hplace j hj hinstruction
  exact Frame.readsAs_of_lookup (hnonempty text htext)
    (Scopes.lookup_of_found (hfound hpop hfree hbound)) hcallable

/-- **Behind a serial number** the text of its name is read as the number. -/
theorem Usual.reads_serial (ht : t.Usual) (h : w.scopes.Apart w.store) {text : List Char} {n : Int}
    (hnumbered : t.Numbered autoescape levels w (nameOf text) n place f)
    (hname : plainName text ≠ []) (hfree : f.world.scopes.Free (nameOf text)) :
    f.ReadsAs t.grammar.filters text (.int n) := by
  obtain ⟨start, f₀, i, next, f₁, hreaches, here, hi, hstep, hsteps⟩ := hnumbered
  obtain ⟨s, hwrite, hwritten⟩ := Linked.step_assign hi hstep
  obtain ⟨r, hroot, rfl⟩ := Scopes.writeRoot_eq_ok hwrite
  have hbegin := hreaches.tail here hstep
  have hrooted : ∀ {place f}, t.program.Reaches (t.surroundings autoescape levels) 0
      ⟨w, [], [], []⟩ place f → f.world.scopes.root = w.scopes.root := fun hreached => by
    obtain ⟨level, -, habove⟩ := ht.reached_above hreached
    exact habove.scopes.root
  have hfound : w.scopes.root = .dict r := (hrooted hreaches).symm.trans hroot
  have hsize : r < f₀.world.store.dicts.size :=
    Nat.lt_of_lt_of_le (h.mapping r (by rw [hfound]; rfl)).1
      (ht.reached_like h hreaches).world.store.rest.2.2.1
  have hbound : (f.world.store.dict r).find? (.text (nameOf text)) = some (.int n) := by
    rw [ht.steps_leave h hfound hbegin hsteps, hwritten, Store.dict_setDict, if_pos ⟨rfl, hsize⟩,
      Dict.find?_insert_self]
  refine Frame.readsAs_of_lookup hname (Scopes.lookup_of_root hfree ?_ hbound) rfl
  exact (hrooted (hsteps.reaches hbegin)).trans hfound

end Reading

/-- **Bound names are read back**, just as far as their texts allow it.  Take a run of a template of
the usual tags in any world, and a state that it reaches.

Where a loop is running, the run is in a round of it, and the item of the round gives a key and a
value.  Take the texts of a tag that is accepted for a loop with its names, these being different.
Each text is read as what the round binds to its name, unless a loop that runs inside binds the name
too, or the layer of such a loop has been left and is about to be taken away, or what is bound can
be called.

Where a serial number has been bound to the name of a text and nothing else since then in the root
layer, the text is read as the number, unless a layer above binds the name, if no value leads to the
root layer.

In both cases a text that is not read back does not ask for its name at all. -/
theorem names_read_back {t : Template} (ht : t.Usual) {autoescape : Value} {levels : Nat}
    {w : World} {place : Nat} {f : Frame}
    (hreaches : t.program.Reaches (t.surroundings autoescape levels) 0 ⟨w, [], [], []⟩ place f) :
    (∀ inner l outer, f.loops = inner ++ l :: outer →
      (∃ item s, t.program.RoundOf (t.surroundings autoescape levels) w l outer item s place f) ∧
      ∀ item s, t.program.RoundOf (t.surroundings autoescape levels) w l outer item s place f →
        ∃ key value, item.Gives s key value ∧ ∀ remainder sequence,
          Tag.loopTarget remainder = some (l.names, sequence) → l.names.Nodup →
          ∀ text ∈ Tag.loopTexts remainder, ∃ v, (nameOf text, v) ∈ bindings l.names key value ∧
            ((∀ j, t.program.code[place]? = some j → j.instruction ≠ .popScope) →
              (∀ m ∈ inner, nameOf text ∉ m.names) → f.world.store.isCallable v = false →
                f.ReadsAs t.grammar.filters text v)) ∧
    (w.scopes.Apart w.store → ∀ text n,
      t.Numbered autoescape levels w (nameOf text) n place f → plainName text ≠ [] →
        f.world.scopes.Free (nameOf text) → f.ReadsAs t.grammar.filters text (.int n)) := by
  refine ⟨fun inner l outer hloops => ⟨hreaches.exists_round hloops, fun item s hround => ?_⟩,
    fun hapart text n hnumbered hname hfree => ht.reads_serial hapart hnumbered hname hfree⟩
  obtain ⟨key, value, hgives, inner', hloops', hreads⟩ := ht.reads_in_round hround
  obtain rfl : inner' = inner := List.append_cancel_right (hloops'.symm.trans hloops)
  exact ⟨key, value, hgives, hreads⟩

/-- The source of a serial number and a loop that shows its value and the number. -/
def numberedSource : Value :=
  .plain ("\x7b% make_guid n %\x7d\x7b% for k, v in x %\x7d\x7b\x7b v \x7d\x7d" ++
    "\x7b\x7b n \x7d\x7d\x7b% endfor %\x7d")

/-- The variable of a name. -/
def variableOf (name : String) : Expression := ⟨name, ⟨name, .path [name]⟩, []⟩

/-- Its program. -/
def numberedProgram : Program :=
  ⟨#[⟨.assign "n" (.int 1000), some ⟨.statement, "make_guid n", 0, 17, 1⟩, none⟩,
    ⟨.pushScope, some ⟨.statement, "for k, v in x", 17, 36, 1⟩, none⟩,
    ⟨.loopStart (variableOf "x") ["k", "v"], some ⟨.statement, "for k, v in x", 17, 36, 1⟩, some 6⟩,
    ⟨.expression (variableOf "v"), some ⟨.expression, "v", 36, 43, 1⟩, none⟩,
    ⟨.expression (variableOf "n"), some ⟨.expression, "n", 43, 50, 1⟩, none⟩,
    ⟨.loopNext, some ⟨.statement, "endfor", 50, 62, 1⟩, some 3⟩,
    ⟨.popScope, some ⟨.statement, "endfor", 50, 62, 1⟩, none⟩]⟩

/-- A world with a mapping in which `x` is a list of one text. -/
def oneTextWorld : World :=
  ⟨⟨.ofRoot (.dict 0), some ⟨.bool true, none, none⟩⟩,
    { Store.empty with lists := #[[.plain "p"]], dicts := #[.ofBindings [("x", .list 0)]] }⟩

/-- The run comes to both markers: at the first one it is in the round of the text, and at the
second one the serial number has been bound. -/
theorem numbered_run {t : Template} (ht : t.program = numberedProgram) : ∃ f f',
    t.program.Reaches (t.surroundings (.bool true) maxLevels) 0 ⟨oneTextWorld, [], [], []⟩ 3 f ∧
    f.loops = [.make 2 ["k", "v"] []] ∧
    t.program.RoundOf (t.surroundings (.bool true) maxLevels) oneTextWorld
      (.make 2 ["k", "v"] []) [] (.pair (.int 0) (.plain "p")) f.world.store 3 f ∧
    t.program.Reaches (t.surroundings (.bool true) maxLevels) 0 ⟨oneTextWorld, [], [], []⟩ 4 f' ∧
    t.Numbered (.bool true) maxLevels oneTextWorld (nameOf ['n']) 1000 4 f' ∧
    f'.world.scopes.Free (nameOf ['n']) := by
  unfold Numbered
  rw [ht]
  refine ⟨_, _, .tail (.tail (.tail (.refl _ _) rfl rfl) rfl rfl) rfl rfl, rfl,
    ⟨2, _, _, 3, _, .tail (.tail (.refl _ _) rfl rfl) rfl rfl, rfl, .first rfl rfl rfl rfl, rfl,
      .refl _ _⟩,
    .tail (.tail (.tail (.tail (.refl _ _) rfl rfl) rfl rfl) rfl rfl) rfl rfl,
    ⟨0, _, _, 1, _, .refl _ _, rfl, rfl, rfl,
      .tail (.tail (.tail (.refl 1 _) rfl ?_ rfl) rfl ?_ rfl) rfl ?_ rfl⟩, ?_⟩
  · exact ⟨List.not_mem_nil, fun hi => by cases hi⟩
  · exact ⟨List.not_mem_nil, fun hi => by cases hi⟩
  · exact ⟨List.not_mem_nil, fun hi => by cases hi⟩
  · exact List.forall_mem_singleton.mpr rfl

/-- In the body of the loop the first marker shows the text that the round binds to its second name,
and the second marker shows the serial number. -/
theorem names_read_back_numbered : ∃ t s₁ f f',
    compile Engine.standard none numberedSource .empty .empty = .ok t s₁ ∧ t.Usual ∧
    oneTextWorld.scopes.Apart oneTextWorld.store ∧
    t.program.Reaches (t.surroundings (.bool true) maxLevels) 0 ⟨oneTextWorld, [], [], []⟩ 3 f ∧
    ReadsBack [' ', 'v'] ∧ f.ReadsAs t.grammar.filters [' ', 'v'] (.plain "p") ∧
    t.program.Reaches (t.surroundings (.bool true) maxLevels) 0 ⟨oneTextWorld, [], [], []⟩ 4 f' ∧
    ReadsBack ['n'] ∧ f'.ReadsAs t.grammar.filters ['n'] (.int 1000) := by
  have hrun : ((compile Engine.standard none numberedSource .empty).run' .empty).map
      (fun t => t.program) = some numberedProgram := by cbv
  obtain ⟨t, s₁, hc, hprogram⟩ := exists_of_run' hrun
  obtain ⟨ht, -⟩ := Usual.of_standard hc
  have hapart : oneTextWorld.scopes.Apart oneTextWorld.store :=
    .of_unheld rfl (by decide) (by decide) (by decide) (by decide) rfl (by decide)
  obtain ⟨f, f', hreaches, hloops, hround, hreaches', hnumbered, hfree⟩ := numbered_run hprogram
  obtain ⟨-, hrounds⟩ := (names_read_back ht hreaches).1 [] _ [] hloops
  obtain ⟨key, value, hgives, hreads⟩ := hrounds _ _ hround
  cases hgives
  obtain ⟨v, hv, hread⟩ := hreads "k, v in x".toList _ rfl (by decide) [' ', 'v'] (by decide)
  obtain rfl : v = .plain "p" := by
    rcases List.mem_cons.mp hv with heq | hv
    · exact absurd (Prod.mk.inj heq).1 (by decide)
    · exact congrArg Prod.snd (List.mem_singleton.mp hv)
  have hmarker : ∀ j, t.program.code[3]? = some j → j.instruction ≠ .popScope := by
    intro j hj
    have hcode : numberedProgram.code[3]? = some ⟨.expression (variableOf "v"), _, none⟩ := rfl
    rw [hprogram] at hj
    cases hcode.symm.trans hj
    simp
  have hserial := (names_read_back ht hreaches').2 hapart ['n'] 1000 hnumbered (by decide) hfree
  exact ⟨t, s₁, f, f', hc, ht, hapart, hreaches, by decide,
    hread hmarker (fun m hm => absurd hm List.not_mem_nil) rfl, hreaches', by decide, hserial⟩

/-- The source of a loop whose name has a full stop. -/
def dottedSource : Value :=
  .plain "\x7b% for a.b in x %\x7d\x7b\x7b a.b \x7d\x7d\x7b% endfor %\x7d"

/-- Its program. -/
def dottedProgram : Program :=
  ⟨#[⟨.pushScope, some ⟨.statement, "for a.b in x", 0, 18, 1⟩, none⟩,
    ⟨.loopStart (variableOf "x") ["a.b"], some ⟨.statement, "for a.b in x", 0, 18, 1⟩, some 4⟩,
    ⟨.expression ⟨"a.b", ⟨"a.b", .path ["a", "b"]⟩, []⟩, some ⟨.expression, "a.b", 18, 27, 1⟩,
      none⟩,
    ⟨.loopNext, some ⟨.statement, "endfor", 27, 39, 1⟩, some 2⟩,
    ⟨.popScope, some ⟨.statement, "endfor", 27, 39, 1⟩, none⟩]⟩

/-- The tag is accepted, and in the round its name stands for the text in the list; but the marker
with the same text shows nothing. -/
theorem dotted_name_unread : ∃ t s₁ i f e,
    compile Engine.standard none dottedSource .empty .empty = .ok t s₁ ∧
    Tag.loopTarget "a.b in x".toList = some (["a.b"], ['x']) ∧
    t.program.Reaches (t.surroundings (.bool true) maxLevels) 0 ⟨oneTextWorld, [], [], []⟩ 2 f ∧
    f.loops.map (·.names) = [["a.b"]] ∧
    f.world.scopes.findPushed? (.text "a.b") = some (.plain "p") ∧
    t.program.code[2]? = some i ∧ i.instruction = .expression e ∧
    Expression.read "a.b".toList = .ok e ∧
    e.resolve t.grammar.filters f.world.scopes f.world.store = .ok .none f.world.store ∧
    (t.render oneTextWorld.toContext oneTextWorld.store).1.toOption =
      some (.markup "") := by
  have hrun : ((compile Engine.standard none dottedSource .empty).run' .empty).map (fun t =>
      (t.program, (t.render oneTextWorld.toContext oneTextWorld.store).1.toOption)) =
      some (dottedProgram, some (.markup "")) := by cbv
  obtain ⟨t, s₁, hc, hrun⟩ := exists_of_run' hrun
  obtain ⟨hprogram, hrendered⟩ := Prod.mk.inj hrun
  refine ⟨t, s₁, ?_⟩
  rw [hprogram]
  exact ⟨_, _, _, hc, rfl, .tail (.tail (.refl _ _) rfl rfl) rfl rfl, rfl, rfl, rfl, rfl, rfl,
    rfl, hrendered⟩

end Template
end TextTemplate
