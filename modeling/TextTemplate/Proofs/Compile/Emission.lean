/-
# What the tags emit

The standard tags, and the one that renders a template inside, emit instructions of one kind: each
expression has been read from the source and its variables have been noted, a layer of names is
added only in front of a loop's start and taken away only behind its end, and what is assigned is a
serial number.  Of the values a compilation changes only the serial number that comes next.

* `Emitted` says this of a row of instructions;
* `Compile.Keeps` says that a step of a compilation keeps to it, with one lemma for each way to put
  steps together; `Tag.keeps_ordinary` is the case of each tag;
* `Compile.emitted_of_source` is the whole source.
-/
import TextTemplate.Proofs.Compile.Draft
import TextTemplate.Proofs.Safety.Execution
import TextTemplate.Extras.Tags
import TextTemplate.Template

namespace TextTemplate

open TextTemplate.Outcome TextTemplate.Text

/-! ## 1. Rows of instructions -/

/-- The expression has been read, and its variables are among some names. -/
structure Expression.From (names : List String) (e : Expression) : Prop where
  read : ∃ cs, Expression.read cs = .ok e
  references : ∀ name ∈ e.references, name ∈ names

/-- The instruction stands alone: it belongs to no layer of a loop, gives one of several values and
counts its turns under the name of a counter, and assigns integers only. -/
def Instruction.Single : Instruction → Prop
  | pushScope | popScope | loopStart .. | loopNext => False
  | cycle values counter => values ≠ [] ∧ ∃ n, counter = Tag.cycleCounter n
  | assign _ v => ∃ n, v = .int n
  | _ => True

/-- A row of instructions whose variables are among some names, and in which each loop has a layer
of its own. -/
inductive Emitted (names : List String) : List Instruction → Prop where
  | nil : Emitted names []
  | single {i : Instruction} {row : List Instruction} (single : i.Single)
      (expressions : ∀ e ∈ i.expressions, e.From names) (rest : Emitted names row) :
      Emitted names (i :: row)
  | enter {e : Expression} {row : List Instruction} (bound : List String)
      (sequence : e.From names) (rest : Emitted names row) :
      Emitted names (.pushScope :: .loopStart e bound :: row)
  | leave {row : List Instruction} (rest : Emitted names row) :
      Emitted names (.loopNext :: .popScope :: row)

theorem Expression.From.mono {names names' : List String} {e : Expression} (h : e.From names)
    (hsub : ∀ name ∈ names, name ∈ names') : e.From names' :=
  ⟨h.read, fun name hname => hsub name (h.references name hname)⟩

namespace Emitted

variable {names names' : List String} {row row' : List Instruction}

theorem mono (h : Emitted names row) (hsub : ∀ name ∈ names, name ∈ names') :
    Emitted names' row := by
  induction h with
  | nil => exact .nil
  | single hs he _ ih => exact .single hs (fun e hmem => (he e hmem).mono hsub) ih
  | enter bound he _ ih => exact .enter bound (he.mono hsub) ih
  | leave _ ih => exact .leave ih

theorem append (h : Emitted names row) (h' : Emitted names row') : Emitted names (row ++ row') := by
  induction h with
  | nil => exact h'
  | single hs he _ ih => exact .single hs he ih
  | enter bound he _ ih => exact .enter bound he ih
  | leave _ ih => exact .leave ih

/-- An instruction without expressions. -/
theorem bare {i : Instruction} (hs : i.Single) (he : i.expressions = []) : Emitted names [i] :=
  .single hs (fun _ hmem => absurd (he ▸ hmem) List.not_mem_nil) .nil

/-- **Each expression of the row has been read**, with its variables among the names. -/
theorem expressions (h : Emitted names row) :
    ∀ i ∈ row, ∀ e ∈ i.expressions, e.From names := by
  induction h with
  | nil => exact fun i hi => absurd hi List.not_mem_nil
  | single _ he _ ih => exact List.forall_mem_cons.mpr ⟨he, ih⟩
  | enter bound he _ ih =>
    exact List.forall_mem_cons.mpr ⟨fun e hmem => absurd hmem List.not_mem_nil,
      List.forall_mem_cons.mpr ⟨List.forall_mem_singleton.mpr he, ih⟩⟩
  | leave _ ih =>
    exact List.forall_mem_cons.mpr ⟨fun e hmem => absurd hmem List.not_mem_nil,
      List.forall_mem_cons.mpr ⟨fun e hmem => absurd hmem List.not_mem_nil, ih⟩⟩

/-- An instruction of the row stands alone, or it begins or ends a loop. -/
theorem single_of_mem (h : Emitted names row) : ∀ i ∈ row,
    i.Single ∨ i = .pushScope ∨ (∃ e bound, i = .loopStart e bound) ∨ i = .loopNext ∨
      i = .popScope := by
  induction h with
  | nil => exact fun i hi => absurd hi List.not_mem_nil
  | single hs _ _ ih => exact List.forall_mem_cons.mpr ⟨.inl hs, ih⟩
  | enter bound _ _ ih =>
    exact List.forall_mem_cons.mpr ⟨.inr (.inl rfl),
      List.forall_mem_cons.mpr ⟨.inr (.inr (.inl ⟨_, bound, rfl⟩)), ih⟩⟩
  | leave _ ih =>
    exact List.forall_mem_cons.mpr ⟨.inr (.inr (.inr (.inl rfl))),
      List.forall_mem_cons.mpr ⟨.inr (.inr (.inr (.inr rfl))), ih⟩⟩

/-- What is assigned in the row is an integer. -/
theorem assigned (h : Emitted names row) :
    ∀ i ∈ row, ∀ name v, i = .assign name v → ∃ n, v = .int n := by
  rintro _ hi name v rfl
  rcases h.single_of_mem _ hi with hs | hi | ⟨e, bound, hi⟩ | hi | hi
  · exact hs
  all_goals exact nomatch hi

/-- A cycle in the row has values, and its turns are counted under the name of a counter. -/
theorem counted (h : Emitted names row) :
    ∀ i ∈ row, ∀ values counter, i = .cycle values counter →
      values ≠ [] ∧ ∃ n, counter = Tag.cycleCounter n := by
  rintro _ hi values counter rfl
  rcases h.single_of_mem _ hi with hs | hi | ⟨e, bound, hi⟩ | hi | hi
  · exact hs
  all_goals exact nomatch hi

end Emitted

/-! ## 2. Reading conditions -/

namespace Condition

/-- The variables of a condition are those of its expressions. -/
theorem references_eq : ∀ c : Condition, c.references = c.expressions.flatMap (·.references)
  | truth e => (List.flatMap_singleton _ e).symm
  | negation c => references_eq c
  | comparison _ left right => by
    simp only [references, expressions, List.flatMap_cons, List.flatMap_nil, List.append_nil]
  | flagUnset _ => rfl

theorem read_of_readPlain {text first : List Char} {rest : List (List Char)} {c : Condition}
    (h : readPlain text first rest = .ok c) :
    ∀ e ∈ c.expressions, ∃ cs, Expression.read cs = .ok e := by
  unfold readPlain at h
  split at h
  · obtain ⟨e, he, rfl⟩ := except_map_eq_ok h
    exact List.forall_mem_singleton.mpr ⟨_, he⟩
  · split at h
    · cases h
    · obtain ⟨l, hl, h⟩ := except_bind_eq_ok h
      obtain ⟨r, hr, h⟩ := except_bind_eq_ok h
      cases h
      exact List.forall_mem_cons.mpr ⟨⟨_, hl⟩, List.forall_mem_singleton.mpr ⟨_, hr⟩⟩

/-- **The expressions of a condition that has been read have been read.** -/
theorem read_of_read {text : List Char} {c : Condition} (h : read text = .ok c) :
    ∀ e ∈ c.expressions, ∃ cs, Expression.read cs = .ok e := by
  fun_induction read text generalizing c with
  | case1 => cases h
  | case2 => cases h
  | case3 text rest _ _ ih =>
    obtain ⟨c', hc', rfl⟩ := except_map_eq_ok h
    exact ih (c := c') hc'
  | case4 => exact read_of_readPlain h

end Condition

/-! ## 3. Steps of a compilation -/

/-- What a compilation has emitted so far, and what it will emit at the ends of blocks. -/
structure Compilation.Sound (c : Compilation) : Prop where
  code : Emitted c.references (c.code.reverse.map Prod.fst)
  endings : ∀ b ∈ c.pending, Emitted c.references b.ending

/-- What a tag gives is emitted as it should be. -/
def TagResult.Emits (names : List String) : TagResult → Prop
  | inline code => Emitted names code
  | block start ending _ => Emitted names start ∧ ∀ row, ending = some row → Emitted names row
  | other _ => True

/-- Where the step succeeds, it keeps a sound compilation sound and adds to the names at most; `P`
holds of the names before, `Q` of the names and the result behind. -/
def Compile.Keeps {α : Type} (P : List String → Prop) (x : Compile α)
    (Q : List String → α → Prop) : Prop :=
  ∀ c, c.Sound → P c.references → ∀ a c', x c = .ok a c' →
    c'.Sound ∧ (∀ name ∈ c.references, name ∈ c'.references) ∧ Q c'.references a

namespace Compile

variable {α β : Type} {P : List String → Prop} {Q : List String → α → Prop}
  {S : List String → β → Prop} {x : Compile α} {g : α → Compile β}

namespace Keeps

theorem pure {a : α} (h : ∀ names, P names → Q names a) : Keeps P (Pure.pure a) Q := by
  intro c hc hP a' c' hx
  cases hx
  exact ⟨hc, fun _ => id, h _ hP⟩

theorem bind (hx : Keeps P x Q) (hg : ∀ a, Keeps (Q · a) (g a) S) : Keeps P (x >>= g) S := by
  intro c hc hP b c'' h
  obtain ⟨a, c', ha, hb⟩ := bind_eq_ok.mp h
  obtain ⟨hc', hsub, hQ⟩ := hx c hc hP a c' ha
  obtain ⟨hc'', hsub', hS⟩ := hg a c' hc' hQ b c'' hb
  exact ⟨hc'', fun name hname => hsub' name (hsub name hname), hS⟩

theorem fail (cause : Cause) : Keeps P (Compile.fail cause) Q := fun _ _ _ _ _ h => nomatch h

theorem get : Keeps P (MonadState.get : Compile Compilation)
    fun names c => c.Sound ∧ c.references = names ∧ P names := by
  intro c hc hP a c' h
  cases h
  exact ⟨hc, fun _ => id, hc, rfl, hP⟩

/-- A change of the compilation that keeps its names. -/
theorem change {h : Compilation → Compilation} {Q : List String → PUnit → Prop}
    (hsound : ∀ c, c.Sound → P c.references → (h c).Sound)
    (hnames : ∀ c, (h c).references = c.references) (hQ : ∀ names, P names → Q names ⟨⟩) :
    Keeps P (modify h) Q := by
  intro c hc hP a c' hx
  rw [modify_apply] at hx
  cases hx
  refine ⟨hsound c hc hP, fun name hname => ?_, ?_⟩
  · rw [hnames]
    exact hname
  · rw [hnames]
    exact hQ _ hP

theorem located (t : Token) (hx : Keeps P x Q) : Keeps P (located t x) Q := by
  intro c hc hP a c' h
  rw [located_apply] at h
  cases hr : x c with
  | error e c₁ => rw [hr] at h; cases h
  | ok b c₁ =>
    rw [hr] at h
    cases h
    exact hx c hc hP _ _ hr

theorem locatedSyntax (t : Token) (hx : Keeps P x Q) : Keeps P (locatedSyntax t x) Q := by
  intro c hc hP a c' h
  rw [locatedSyntax_apply] at h
  cases hr : x c with
  | error e c₁ => rw [hr] at h; cases h
  | ok b c₁ =>
    rw [hr] at h
    cases h
    exact hx c hc hP _ _ hr

end Keeps

/-- More names do not make a sound compilation unsound. -/
theorem sound_note {c : Compilation} (hc : c.Sound) (names : List String) :
    ({ c with references := names ++ c.references } : Compilation).Sound :=
  have hsub : ∀ name ∈ c.references, name ∈ names ++ c.references :=
    fun _ => List.mem_append_right _
  ⟨hc.code.mono hsub, fun b hb => (hc.endings b hb).mono hsub⟩

/-- Reading an expression notes its variables. -/
theorem keeps_expression (cs : List Char) :
    Keeps P (expression cs) fun names e => e.From names := by
  intro c hc _ e c' h
  rw [expression_apply] at h
  cases hr : Expression.read cs with
  | error cause => rw [hr] at h; cases h
  | ok e' =>
    rw [hr] at h
    cases h
    exact ⟨sound_note hc _, fun _ => List.mem_append_right _, ⟨cs, hr⟩,
      fun name hname => List.mem_append_left _ (List.mem_reverse.mpr hname)⟩

/-- Reading a condition notes its variables. -/
theorem keeps_condition (cs : List Char) :
    Keeps P (condition cs) fun names c => ∀ e ∈ c.expressions, e.From names := by
  intro c hc _ e c' h
  rw [condition_apply] at h
  cases hr : Condition.read cs with
  | error cause => rw [hr] at h; cases h
  | ok e' =>
    rw [hr] at h
    cases h
    refine ⟨sound_note hc _, fun _ => List.mem_append_right _, fun e he => ?_⟩
    refine ⟨Condition.read_of_read hr e he, fun name hname => ?_⟩
    rw [Condition.references_eq]
    exact List.mem_append_left _ (List.mem_reverse.mpr (List.mem_flatMap.mpr ⟨e, he, hname⟩))

/-- Reading several expressions notes the variables of all. -/
theorem keeps_expressions (texts : List (List Char)) : Keeps P (texts.mapM expression)
    fun names es => (∀ e ∈ es, e.From names) ∧ es.length = texts.length := by
  induction texts generalizing P with
  | nil => exact .pure fun _ _ => ⟨fun e he => absurd he List.not_mem_nil, rfl⟩
  | cons text texts ih =>
    rw [List.mapM_cons]
    refine .bind (keeps_expression text) fun e => ?_
    -- the names grow behind the first expression, and its own stay among them
    have hrest : Keeps (fun names => e.From names) (texts.mapM expression)
        fun names es => e.From names ∧ (∀ e' ∈ es, e'.From names) ∧ es.length = texts.length := by
      intro c hc he es c' h
      obtain ⟨hc', hsub, hes⟩ := ih (P := fun names => e.From names) c hc he es c' h
      exact ⟨hc', hsub, he.mono hsub, hes⟩
    exact .bind hrest fun es => .pure fun names h =>
      ⟨List.forall_mem_cons.mpr ⟨h.1, h.2.1⟩, congrArg (· + 1) h.2.2⟩

/-- Instructions that are emitted. -/
theorem keeps_emit {row : List Instruction} (t : Token) (h : ∀ names, P names → Emitted names row) :
    Keeps P (emit row t) fun _ _ => True := by
  refine .change (fun c hc hP => ⟨?_, hc.endings⟩) (fun _ => rfl) fun _ _ => trivial
  have hcode : ((row.map (·, t)).reverse ++ c.code).reverse.map Prod.fst =
      c.code.reverse.map Prod.fst ++ row := by
    simp [Function.comp_def]
  rw [hcode]
  exact hc.code.append (h _ hP)

end Compile

/-! ## 4. Tags -/

/-- The tag keeps to sound compilations. -/
def Tag.Ordinary (tag : Tag) : Prop :=
  ∀ remainder, Compile.Keeps (fun _ => True) (tag.run remainder) fun names r => r.Emits names

namespace Tag

open Compile

theorem ordinary_conditional : conditional.Ordinary := by
  intro remainder
  rw [run_conditional]
  exact .bind (keeps_condition remainder) fun _ => .pure fun _ h =>
    ⟨.single trivial h .nil, fun _ hrow => Option.some.inj hrow ▸ .bare trivial rfl⟩

theorem ordinary_alternative : alternative.Ordinary := by
  intro remainder
  rw [run_alternative]
  exact .bind (keeps_condition remainder) fun _ => .pure fun _ h =>
    .single trivial (fun _ he => absurd he List.not_mem_nil) (.single trivial h .nil)

theorem ordinary_otherwise : otherwise.Ordinary := fun _ => .pure fun _ _ => .bare trivial rfl

theorem ordinary_loop : loop.Ordinary := by
  intro remainder
  rw [run_loop]
  split
  · exact .fail _
  · exact .bind (keeps_expression _) fun e => .pure fun _ h =>
      ⟨.enter _ h .nil, fun _ hrow => Option.some.inj hrow ▸ .leave .nil⟩

theorem ordinary_empty : empty.Ordinary := by
  intro remainder
  rw [run_empty]
  refine .bind .get fun c => ?_
  cases hp : c.pending with
  | nil => exact .fail _
  | cons block outer =>
    dsimp only
    split
    · have hmoved : Keeps (fun names => c.Sound ∧ c.references = names ∧ True)
          (modify fun c => { c with pending := outer })
          fun names _ => Emitted names block.ending := by
        refine .change (fun c' hc' ⟨hc, hnames, _⟩ => ⟨hc'.code, fun b hb => ?_⟩) (fun _ => rfl)
          fun names ⟨hc, hnames, _⟩ => ?_
        · rw [← hnames]
          exact hc.endings b (hp ▸ List.mem_cons_of_mem block hb)
        · rw [← hnames]
          exact hc.endings block (hp ▸ List.mem_cons_self)
      refine .bind hmoved fun _ => .pure fun names hending => ⟨?_, ?_⟩
      · exact .single trivial (fun _ h => absurd h List.not_mem_nil)
          (hending.append (.bare trivial rfl))
      · rintro row hrow
        cases hrow
        exact .single trivial (fun _ h => absurd h List.not_mem_nil) (.bare trivial rfl)
    · exact .fail _

theorem ordinary_cycle : cycle.Ordinary := by
  intro remainder
  rw [run_cycle]
  split
  · exact .fail _
  · rename_i texts hunits
    refine .bind (keeps_expressions _) fun values => ?_
    have hordinal : Keeps
        (fun names => (∀ e ∈ values, e.From names) ∧ values.length = (units remainder).length)
        (parsing (.ordinal "cycle")) fun names _ => (∀ e ∈ values, e.From names) ∧ values ≠ [] := by
      rintro c hc ⟨h, hlength⟩ n c' hx
      cases hx
      refine ⟨⟨hc.code, hc.endings⟩, fun _ => id, h, ?_⟩
      rintro rfl
      exact hunits (List.eq_nil_of_length_eq_zero hlength.symm)
    exact .bind hordinal fun n => .pure fun _ h => .single ⟨h.2, n, rfl⟩ h.1 .nil

theorem ordinary_comment : comment.Ordinary := fun _ => .pure fun _ _ =>
  ⟨.bare trivial rfl, fun _ hrow => Option.some.inj hrow ▸ .bare trivial rfl⟩

theorem ordinary_serial : serial.Ordinary := by
  intro remainder
  have hserial : Keeps (fun _ => True) (parsing (.eval (Eval.make (·.newSerial))))
      fun _ _ => True := by
    intro c hc _ n c' hx
    cases hx
    exact ⟨⟨hc.code, hc.endings⟩, fun _ => id, trivial⟩
  rw [run_serial]
  exact .bind hserial fun n => .pure fun _ _ => .bare ⟨n, rfl⟩ rfl

theorem ordinary_sub : sub.Ordinary := by
  intro remainder
  rw [run_sub]
  exact .bind (keeps_expression remainder) fun _ => .pure fun _ h =>
    .single trivial (List.forall_mem_singleton.mpr h) .nil

/-- **The standard tags are ordinary.** -/
theorem ordinary_standard {name : String} {tag : Tag} (h : (name, tag) ∈ standard) :
    tag.Ordinary :=
  forall_standard ordinary_conditional ordinary_alternative ordinary_otherwise ordinary_loop
    ordinary_empty ordinary_cycle ordinary_comment ordinary_serial h

end Tag

/-! ## 5. Sources -/

/-- Every tag of the table is ordinary. -/
def OrdinaryTags (tags : Table Tag) : Prop := ∀ name tag, tags.find? name = some tag → tag.Ordinary

theorem ordinaryTags_standard : OrdinaryTags Tag.standard := fun _ _ h =>
  Tag.ordinary_standard (mem_of_lookup h)

namespace Compile

variable {tags : Table Tag}

theorem keeps_tagResult (t : Token) (command : String) (r : TagResult) :
    Keeps (fun names => r.Emits names) (tagResult t command r) fun _ _ => True := by
  cases r with
  | inline code => exact keeps_emit t fun _ h => h
  | other v => exact .bind .get fun _ => .located t (.fail _)
  | block start ending close =>
    have hstart : Keeps (fun names => (TagResult.block start ending close).Emits names)
        (emit start t) fun names _ => ∀ row, ending = some row → Emitted names row := by
      intro c hc h u c' hx
      obtain ⟨hc', hsub, -⟩ := keeps_emit t (P := fun names => Emitted names start) (fun _ => id)
        c hc h.1 u c' hx
      exact ⟨hc', hsub, fun row hrow => (h.2 row hrow).mono hsub⟩
    refine .bind hstart fun _ => ?_
    cases ending with
    | none => exact .pure fun _ _ => trivial
    | some row =>
      refine .change (fun c hc h => ⟨hc.code, ?_⟩) (fun _ => rfl) fun _ _ => trivial
      exact List.forall_mem_cons.mpr ⟨h row rfl, hc.endings⟩

theorem keeps_named (htags : OrdinaryTags tags) (t : Token) (command : String)
    (remainder : List Char) (expected : Option String) :
    Keeps (fun _ => True) (named tags t command remainder expected) fun _ _ => True := by
  unfold named
  cases hfind : tags.find? command with
  | none => exact .located t (.fail _)
  | some tag =>
    exact .bind (.located t (htags command tag hfind remainder)) fun r =>
      keeps_tagResult t command r

/-- **A token keeps a compilation sound.** -/
theorem keeps_token (htags : OrdinaryTags tags) (t : Token) :
    Keeps (fun _ => True) (token tags t) fun _ _ => True := by
  have hskip : Keeps (fun _ => True) (Pure.pure () : Compile Unit) fun _ _ => True :=
    .pure fun _ _ => trivial
  unfold token
  split
  · split
    · exact hskip
    · exact keeps_emit t fun _ _ => .bare trivial rfl
  · split
    · exact .located t (.fail _)
    · exact .bind (.locatedSyntax t (keeps_expression _)) fun e => keeps_emit t fun _ h =>
        .single trivial (List.forall_mem_singleton.mpr h) .nil
  · intro c hc hP u c' h
    by_cases hword : t.command = []
    · unfold statement at h
      have hw : firstWord t.contents.toList = [] := hword
      simp only [hw, located_apply] at h
      cases h
    · rw [statement_eq tags t hword] at h
      cases hp : c.pending with
      | nil =>
        rw [hp] at h
        exact keeps_named htags t _ _ none c hc hP u c' h
      | cons b outer =>
        rw [hp] at h
        dsimp only at h
        split at h
        · have hclosed : ({ c with pending := outer } : Compilation).Sound :=
            ⟨hc.code, fun b' hb' => hc.endings b' (hp ▸ List.mem_cons_of_mem b hb')⟩
          exact keeps_emit t (fun _ h => h) _ hclosed (hc.endings b (hp ▸ List.mem_cons_self)) u c'
            h
        · exact keeps_named htags t _ _ (some b.closeName) c hc hP u c' h
  · exact hskip

theorem keeps_tokens (htags : OrdinaryTags tags) : ∀ tokens : List Token,
    Keeps (fun _ => True) (tokens.forM (token tags)) fun _ _ => True
  | [] => .pure fun _ _ => trivial
  | t :: tokens => .bind (keeps_token htags t) fun _ => keeps_tokens htags tokens

theorem sound_start (s : Store) : (Compilation.start s).Sound :=
  ⟨.nil, fun _ hb => absurd hb List.not_mem_nil⟩

/-- **What is compiled has been emitted as it should be**, with its variables among the names of
the compilation. -/
theorem emitted_of_source (htags : OrdinaryTags tags) {tokens : List Token} {s : Store}
    {c : Compilation} (h : source tags tokens (.start s) = .ok () c) : c.Sound := by
  have hclose : Keeps (fun _ => True) (source tags tokens) fun _ _ => True := by
    unfold source
    refine .bind (keeps_tokens htags tokens) fun _ => .bind .get fun c => ?_
    split
    · exact .pure fun _ _ => trivial
    · exact .located _ (.fail _)
  exact (hclose _ (sound_start s) trivial () c h).1

end Compile

/-- A program is linked from its items: each jump has the target that was found for its label. -/
theorem Program.assemble_eq_ok {items : List Item} {p : Program} (h : assemble items = .ok p) :
    ∃ a, Assembly.start.linkFrom (tokenOf? items) 0 items = .ok a ∧
      p.code.toList = items.map fun item =>
        ⟨item.instruction, tokenOf? items item.label, a.targets.lookup item.label⟩ := by
  unfold assemble at h
  obtain ⟨a, ha, h⟩ := except_bind_eq_ok h
  refine ⟨a, ha, ?_⟩
  split at h
  · cases h
  · cases h
    rfl

/-- The instructions of a program are those of its items. -/
theorem Program.assemble_instructions {items : List Item} {p : Program}
    (h : assemble items = .ok p) :
    p.code.toList.map (·.instruction) = items.map (·.instruction) := by
  obtain ⟨a, -, hcode⟩ := assemble_eq_ok h
  rw [hcode]
  simp only [List.map_map, Function.comp_def]

theorem Compilation.items_instructions (c : Compilation) :
    c.items.map (·.instruction) = c.code.reverse.map Prod.fst := by
  refine List.ext_getElem? fun k => ?_
  simp only [items, List.getElem?_map, List.getElem?_mapIdx, Option.map_map, Function.comp_def]

/-- **The instructions of a program have been emitted as they should be.** -/
theorem Compile.emitted_of_program {tags : Table Tag} (htags : OrdinaryTags tags)
    {tokens : List Token} {s : Store} {p : Program} {c : Compilation}
    (h : program tags tokens (.start s) = .ok p c) :
    Emitted c.references (p.code.toList.map (·.instruction)) ∧
      Program.assemble c.items = .ok p := by
  obtain ⟨⟨⟩, c', hsource, h⟩ := bind_eq_ok.mp h
  rw [bind_of_ok (get_apply c')] at h
  cases hassemble : Program.assemble c'.items with
  | error e => rw [hassemble] at h; cases h
  | ok p' =>
    rw [hassemble] at h
    cases h
    refine ⟨?_, hassemble⟩
    rw [Program.assemble_instructions hassemble, Compilation.items_instructions]
    exact (emitted_of_source htags hsource).code

/-- What a compiled template is made of. -/
theorem Template.program_of_compile {engine : Engine} {name : Option String} {source : Value}
    {o : Overrides} {s s' : Store} {t : Template} (h : compile engine name source o s = .ok t s') :
    ∃ s₀ c, Compile.program t.grammar.tags (t.grammar.delimiters.tokens t.source) (.start s₀) =
      .ok t.program c ∧ t.references = c.references.reverse.eraseDups ∧ s' = c.store := by
  obtain ⟨text, s₁, -, h⟩ := bind_eq_ok.mp h
  obtain ⟨grammar, s₂, -, h⟩ := bind_eq_ok.mp h
  split at h
  · rename_i p c hp
    cases h
    exact ⟨s₂, c, hp, rfl, rfl⟩
  · cases h

/-- Without overrides a template is compiled with the grammar of its engine. -/
theorem Template.grammar_of_compile {engine : Engine} {name : Option String} {source : Value}
    {s s' : Store} {t : Template} (h : compile engine name source .empty s = .ok t s') :
    t.engine = engine ∧ t.grammar = engine.grammar := by
  obtain ⟨text, s₁, -, h⟩ := bind_eq_ok.mp h
  obtain ⟨grammar, s₂, hclone, h⟩ := bind_eq_ok.mp h
  cases hclone
  split at h
  · cases h
    exact ⟨rfl, rfl⟩
  · cases h

/-- **The instructions of a compiled template have been emitted as they should be**, and its
variables have been noted. -/
theorem Template.emitted {engine : Engine} {name : Option String} {source : Value} {o : Overrides}
    {s s' : Store} {t : Template} (h : compile engine name source o s = .ok t s')
    (htags : OrdinaryTags t.grammar.tags) :
    Emitted t.references (t.program.code.toList.map (·.instruction)) := by
  obtain ⟨s₀, c, hp, hnames, -⟩ := program_of_compile h
  refine (Compile.emitted_of_program htags hp).1.mono fun name hname => ?_
  rw [hnames]
  exact List.mem_eraseDups.mpr (List.mem_reverse.mpr hname)

end TextTemplate
