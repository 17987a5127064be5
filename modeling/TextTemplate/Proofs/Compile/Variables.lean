/-
# The variables of a template

A compilation notes the variables of an expression when it reads the expression, which is before
the instruction stands in the code.  The instructions that wait for the end of a block refer to
nothing, so in the end the notes stand in the order of the code.

* `Program.operands` is the walk over a program: instruction by instruction, from left to right;
* `Compilation.Ahead` is the invariant of a compilation: the notes are the variables of the code so
  far, and behind them those of instructions still to come;
* `Template.references_eq` is the result: a template's variables are those of its operands, each
  once, where it is used first.
-/
import TextTemplate.Proofs.Likeness.Reading

namespace TextTemplate

open TextTemplate.Outcome TextTemplate.Text

/-! ## 1. Operands -/

/-- The operands of an expression, from left to right. -/
def Expression.operands (e : Expression) : List Operand :=
  e.base :: e.filters.filterMap (·.argument)

/-- The operands of an instruction, from left to right. -/
def Instruction.operands (i : Instruction) : List Operand :=
  i.expressions.flatMap Expression.operands

/-- The operands of a program, instruction by instruction. -/
def Program.operands (p : Program) : List Operand :=
  p.code.toList.flatMap (·.instruction.operands)

/-- The text is a string constant, an integer or a range. -/
def IsLiteral (cs : List Char) : Prop :=
  constant? cs ≠ none ∨ (cs ≠ [] ∧ cs.all isAsciiDigit) ∨ rangeEnds? cs ≠ none

instance : DecidablePred IsLiteral := fun _ => inferInstanceAs (Decidable (_ ∨ _ ∨ _))

theorem Expression.references_eq (e : Expression) :
    e.references = e.operands.filterMap Operand.reference? := by
  have hfilters : ∀ filters : List Application,
      filters.flatMap (fun a => (a.argument.bind Operand.reference?).toList) =
        (filters.filterMap (·.argument)).filterMap Operand.reference? := fun filters => by
    rw [List.filterMap_filterMap, List.filterMap_eq_flatMap_toList]
  unfold references operands
  rw [hfilters, List.filterMap_cons]
  cases e.base.reference? <;> rfl

theorem Instruction.references_eq (i : Instruction) :
    i.references = i.operands.filterMap Operand.reference? := by
  have hexpressions : i.references = i.expressions.flatMap (·.references) := by
    cases i with
    | branch c _ => exact Condition.references_eq c
    | cycle values _ => rfl
    | expression e => exact (List.flatMap_singleton (·.references) e).symm
    | loopStart e _ => exact (List.flatMap_singleton (·.references) e).symm
    | nested e => exact (List.flatMap_singleton (·.references) e).symm
    | _ => rfl
  rw [hexpressions, operands, List.filterMap_flatMap]
  exact congrArg (List.flatMap · _) (funext Expression.references_eq)

/-- **An operand that has been read** keeps its text without blanks at the ends; it refers to a name
unless this text is a literal, and the name is the text. -/
theorem Operand.reference?_of_read {raw : List Char} {o : Operand} (h : read raw = .ok o) :
    o.text = String.ofList (strip raw) ∧
      o.reference? = if IsLiteral (strip raw) then none else some o.text := by
  unfold read at h
  dsimp only at h
  split at h
  · rename_i hconstant
    cases h
    exact ⟨rfl, (if_pos (.inl (hconstant ▸ Option.some_ne_none _))).symm⟩
  · rename_i hconstant
    split at h
    · rename_i hdigits
      obtain ⟨form, hn, h⟩ := except_bind_eq_ok h
      obtain ⟨n, -, rfl⟩ := except_map_eq_ok hn
      cases h
      exact ⟨rfl, (if_pos (.inr (.inl hdigits))).symm⟩
    · rename_i hdigits
      split at h
      · rename_i hrange
        obtain ⟨a, -, h⟩ := except_bind_eq_ok h
        obtain ⟨b, -, h⟩ := except_bind_eq_ok h
        cases h
        exact ⟨rfl, (if_pos (.inr (.inr (hrange ▸ Option.some_ne_none _)))).symm⟩
      · rename_i hrange
        have hliteral : ¬ IsLiteral (strip raw) := by
          rintro (h | h | h)
          · exact h hconstant
          · exact hdigits h
          · exact h hrange
        split at h
        · cases h
        · cases h
          exact ⟨rfl, (if_neg hliteral).symm⟩

/-- The operands of an expression that has been read have been read. -/
theorem Expression.read_of_mem_operands {cs : List Char} {e : Expression}
    (h : Expression.read cs = .ok e) : ∀ o ∈ e.operands, ∃ raw, Operand.read raw = .ok o := by
  obtain ⟨hbase, harguments⟩ := operands_of_read h
  refine List.forall_mem_cons.mpr ⟨hbase, fun o ho => ?_⟩
  obtain ⟨a, ha, hargument⟩ := List.mem_filterMap.mp ho
  exact harguments a ha o hargument

/-! ## 2. Notes -/

/-- The instructions refer to nothing. -/
def Quiet (row : List Instruction) : Prop := row.flatMap Instruction.references = []

/-- **The notes of a compilation** are the variables of its code, and behind them some names that
are ahead of the code.  What waits for the ends of blocks refers to nothing. -/
structure Compilation.Ahead (ahead : List String) (c : Compilation) : Prop where
  noted : c.references.reverse =
    (c.code.reverse.map Prod.fst).flatMap Instruction.references ++ ahead
  pending : ∀ b ∈ c.pending, Quiet b.ending

/-- Where the step succeeds, it leaves the code as it is and notes some names; `Q` holds of these
and of the result. -/
def Compile.Notes {α : Type} (x : Compile α) (Q : List String → α → Prop) : Prop :=
  ∀ ahead c a c', c.Ahead ahead → x c = .ok a c' →
    ∃ names, c'.Ahead (ahead ++ names) ∧ Q names a

/-- What a tag gives refers to some names, in this order, and to nothing at the end. -/
def TagResult.Refers (names : List String) : TagResult → Prop
  | inline code => code.flatMap Instruction.references = names
  | block start ending _ =>
    start.flatMap Instruction.references = names ∧ ∀ row, ending = some row → Quiet row
  | other _ => True

/-- The tag notes the names that its instructions refer to. -/
def Tag.Noting (tag : Tag) : Prop :=
  ∀ remainder, Compile.Notes (tag.run remainder) TagResult.Refers

namespace Compile

variable {α β : Type} {x : Compile α} {g : α → Compile β} {Q : List String → α → Prop}
  {S : List String → β → Prop}

namespace Notes

theorem pure {a : α} (h : Q [] a) : Notes (Pure.pure a) Q := by
  intro ahead c a' c' hc hx
  cases hx
  exact ⟨[], (List.append_nil ahead).symm ▸ hc, h⟩

theorem bind {P : List String → α → Prop} (hx : Notes x P)
    (hg : ∀ names a, P names a → Notes (g a) fun names' b => S (names ++ names') b) :
    Notes (x >>= g) S := by
  intro ahead c b c'' hc h
  obtain ⟨a, c', ha, hb⟩ := bind_eq_ok.mp h
  obtain ⟨names, hc', hP⟩ := hx ahead c a c' hc ha
  obtain ⟨names', hc'', hS⟩ := hg names a hP _ c' b c'' hc' hb
  exact ⟨names ++ names', (List.append_assoc ahead names names') ▸ hc'', hS⟩

theorem fail (cause : Cause) : Notes (Compile.fail cause) Q := fun _ _ _ _ _ h => nomatch h

theorem located (t : Token) (hx : Notes x Q) : Notes (located t x) Q := by
  intro ahead c a c' hc h
  rw [located_apply] at h
  cases hr : x c with
  | error e c₁ => rw [hr] at h; cases h
  | ok b c₁ =>
    rw [hr] at h
    cases h
    exact hx ahead c _ _ hc hr

theorem locatedSyntax (t : Token) (hx : Notes x Q) : Notes (locatedSyntax t x) Q := by
  intro ahead c a c' hc h
  rw [locatedSyntax_apply] at h
  cases hr : x c with
  | error e c₁ => rw [hr] at h; cases h
  | ok b c₁ =>
    rw [hr] at h
    cases h
    exact hx ahead c _ _ hc hr

end Notes

theorem ahead_note {c : Compilation} {ahead : List String} (hc : c.Ahead ahead)
    (names : List String) :
    ({ c with references := names.reverse ++ c.references } : Compilation).Ahead
      (ahead ++ names) where
  noted := by
    dsimp only
    rw [List.reverse_append, List.reverse_reverse, hc.noted, List.append_assoc]
  pending := hc.pending

/-- Reading an expression notes its variables. -/
theorem notes_expression (cs : List Char) :
    Notes (expression cs) fun names e => names = e.references := by
  intro ahead c e c' hc h
  rw [expression_apply] at h
  cases hr : Expression.read cs with
  | error cause => rw [hr] at h; cases h
  | ok e' =>
    rw [hr] at h
    cases h
    exact ⟨_, ahead_note hc _, rfl⟩

/-- Reading a condition notes its variables. -/
theorem notes_condition (cs : List Char) :
    Notes (condition cs) fun names c => names = c.references := by
  intro ahead c e c' hc h
  rw [condition_apply] at h
  cases hr : Condition.read cs with
  | error cause => rw [hr] at h; cases h
  | ok e' =>
    rw [hr] at h
    cases h
    exact ⟨_, ahead_note hc _, rfl⟩

/-- Reading several expressions notes the variables of all, in this order. -/
theorem notes_expressions (texts : List (List Char)) : Notes (texts.mapM expression)
    fun names es => names = es.flatMap (·.references) := by
  induction texts with
  | nil => exact .pure rfl
  | cons text texts ih =>
    rw [List.mapM_cons]
    refine .bind (notes_expression text) fun names e he => .bind ih fun names' es hes => .pure ?_
    rw [he, hes, List.append_nil, List.flatMap_cons]

end Compile

/-! ## 3. Tags -/

namespace Tag

open Compile

theorem noting_conditional : conditional.Noting := by
  intro remainder
  rw [run_conditional]
  refine .bind (notes_condition remainder) fun names c hc => .pure ?_
  simp [TagResult.Refers, Quiet, Instruction.references, hc]

theorem noting_alternative : alternative.Noting := by
  intro remainder
  rw [run_alternative]
  refine .bind (notes_condition remainder) fun names c hc => .pure ?_
  simp [TagResult.Refers, Instruction.references, hc]

theorem noting_otherwise : otherwise.Noting := fun _ => .pure rfl

theorem noting_loop : loop.Noting := by
  intro remainder
  rw [run_loop]
  split
  · exact .fail _
  · refine .bind (notes_expression _) fun names e he => .pure ?_
    simp [TagResult.Refers, Quiet, Instruction.references, he]

/-- The end of a loop moves to the middle: it refers to nothing there either. -/
theorem noting_empty : empty.Noting := by
  intro remainder ahead c r c' hc h
  rw [run_empty, bind_of_ok (get_apply c)] at h
  cases hp : c.pending with
  | nil => rw [hp] at h; cases h
  | cons block outer =>
    rw [hp] at h
    dsimp only at h
    split at h
    · cases h
      have hending : Quiet block.ending := hc.pending block (hp ▸ List.mem_cons_self)
      refine ⟨[], ⟨(List.append_nil ahead).symm ▸ hc.noted, fun b hb =>
        hc.pending b (hp ▸ List.mem_cons_of_mem block hb)⟩, ?_, ?_⟩
      · rw [List.flatMap_append, List.flatMap_append, hending]
        rfl
      · rintro row hrow
        cases hrow
        rfl
    · cases h

theorem noting_cycle : cycle.Noting := by
  intro remainder
  rw [run_cycle]
  split
  · exact .fail _
  · refine .bind (notes_expressions _) fun names values hvalues => ?_
    have hordinal : Notes (parsing (.ordinal "cycle")) fun names _ => names = [] := by
      intro ahead c n c' hc h
      cases h
      exact ⟨[], (List.append_nil ahead).symm ▸ ⟨hc.noted, hc.pending⟩, rfl⟩
    refine .bind hordinal fun names' n hnil => .pure ?_
    simp [TagResult.Refers, Instruction.references, hvalues, hnil]

theorem noting_comment : comment.Noting := fun _ => .pure
  ⟨rfl, fun _ hrow => Option.some.inj hrow ▸ rfl⟩

theorem noting_serial : serial.Noting := by
  intro remainder
  have hserial : Notes (parsing (.eval (Eval.make (·.newSerial)))) fun names _ => names = [] := by
    intro ahead c n c' hc h
    cases h
    exact ⟨[], (List.append_nil ahead).symm ▸ ⟨hc.noted, hc.pending⟩, rfl⟩
  rw [run_serial]
  refine .bind hserial fun names n hnil => .pure ?_
  simp [TagResult.Refers, Instruction.references, hnil]

/-- **The standard tags note what they refer to.** -/
theorem noting_standard {name : String} {tag : Tag} (h : (name, tag) ∈ standard) : tag.Noting :=
  forall_standard noting_conditional noting_alternative noting_otherwise noting_loop noting_empty
    noting_cycle noting_comment noting_serial h

end Tag

/-! ## 4. Sources -/

/-- Every tag of the table notes what it refers to. -/
def NotingTags (tags : Table Tag) : Prop := ∀ name tag, tags.find? name = some tag → tag.Noting

theorem notingTags_standard : NotingTags Tag.standard := fun _ _ h =>
  Tag.noting_standard (mem_of_lookup h)

namespace Compile

variable {x : Compile Unit}

/-- Where the step succeeds, nothing is ahead of the code behind it, if only some names were in
front of it. -/
def CatchesUp (ahead : List String) (x : Compile Unit) : Prop :=
  ∀ c c', c.Ahead ahead → x c = .ok () c' → c'.Ahead []

/-- What has been noted is emitted. -/
theorem catchesUp_emit {ahead : List String} {row : List Instruction} (t : Token)
    (hrow : row.flatMap Instruction.references = ahead) : CatchesUp ahead (emit row t) := by
  intro c c' hc h
  cases h
  refine ⟨?_, hc.pending⟩
  have hcode : ((row.map (·, t)).reverse ++ c.code).reverse.map Prod.fst =
      c.code.reverse.map Prod.fst ++ row := by
    simp [Function.comp_def]
  rw [hcode, List.flatMap_append, hrow, List.append_nil]
  exact hc.noted

theorem CatchesUp.fail (t : Token) (ahead : List String) (cause : Cause) :
    CatchesUp ahead (located t (fail cause)) := fun _ _ _ h => nomatch h

/-- What a step notes is emitted behind it. -/
theorem CatchesUp.bind {α : Type} {y : Compile α} {Q : List String → α → Prop}
    {g : α → Compile Unit} (hy : Notes y Q) (hg : ∀ names a, Q names a → CatchesUp names (g a)) :
    CatchesUp [] (y >>= g) := by
  intro c c'' hc h
  obtain ⟨a, c', ha, hb⟩ := bind_eq_ok.mp h
  obtain ⟨names, hc', hQ⟩ := hy [] c a c' hc ha
  exact hg names a hQ c' c'' hc' hb

theorem catchesUp_tagResult {names : List String} (t : Token) (command : String) {r : TagResult}
    (hr : r.Refers names) : CatchesUp names (tagResult t command r) := by
  cases r with
  | inline code => exact catchesUp_emit t hr
  | other v =>
    intro c c' hc h
    obtain ⟨_, _, -, h⟩ := bind_eq_ok.mp h
    cases h
  | block start ending close =>
    intro c c' hc h
    obtain ⟨⟨⟩, c₁, hemit, h⟩ := bind_eq_ok.mp h
    have hc₁ := catchesUp_emit t hr.1 c c₁ hc hemit
    cases ending with
    | none =>
      cases h
      exact hc₁
    | some row =>
      cases h
      exact ⟨hc₁.noted, List.forall_mem_cons.mpr ⟨hr.2 row rfl, hc₁.pending⟩⟩

variable {tags : Table Tag}

theorem catchesUp_named (htags : NotingTags tags) (t : Token) (command : String)
    (remainder : List Char) (expected : Option String) :
    CatchesUp [] (named tags t command remainder expected) := by
  unfold named
  cases hfind : tags.find? command with
  | none => exact .fail t [] _
  | some tag =>
    exact .bind (.located t (htags command tag hfind remainder)) fun names r hr =>
      catchesUp_tagResult t command hr

theorem catchesUp_statement (htags : NotingTags tags) (t : Token) :
    CatchesUp [] (statement tags t) := by
  intro c c' hc h
  by_cases hword : t.command = []
  · unfold statement at h
    have hw : firstWord t.contents.toList = [] := hword
    simp only [hw, located_apply] at h
    cases h
  · rw [statement_eq tags t hword] at h
    cases hp : c.pending with
    | nil =>
      rw [hp] at h
      exact catchesUp_named htags t _ _ none c c' hc h
    | cons b outer =>
      rw [hp] at h
      dsimp only at h
      split at h
      · have hclosed : ({ c with pending := outer } : Compilation).Ahead [] :=
          ⟨hc.noted, fun b' hb' => hc.pending b' (hp ▸ List.mem_cons_of_mem b hb')⟩
        exact catchesUp_emit t (hc.pending b (hp ▸ List.mem_cons_self)) _ c' hclosed h
      · exact catchesUp_named htags t _ _ (some b.closeName) c c' hc h

/-- **A token**: the notes are the variables of the code again behind it. -/
theorem catchesUp_token (htags : NotingTags tags) (t : Token) :
    CatchesUp [] (token tags t) := by
  have hskip : CatchesUp [] (pure ()) := by
    intro c c' hc h
    cases h
    exact hc
  unfold token
  split
  · split
    · exact hskip
    · exact catchesUp_emit t rfl
  · split
    · exact .fail t [] _
    · refine .bind (.locatedSyntax t (notes_expression _)) fun names e he => catchesUp_emit t ?_
      rw [List.flatMap_singleton]
      exact he.symm
  · exact catchesUp_statement htags t
  · exact hskip

/-- **All tokens**, by induction on them. -/
theorem catchesUp_tokens (htags : NotingTags tags) : ∀ tokens : List Token,
    CatchesUp [] (tokens.forM (token tags))
  | [], c, c', hc, h => by
    cases h
    exact hc
  | t :: tokens, c, c'', hc, h => by
    obtain ⟨⟨⟩, c', ht, h⟩ := bind_eq_ok.mp h
    exact catchesUp_tokens htags tokens c' c'' (catchesUp_token htags t c c' hc ht) h

/-- **The notes of a compilation are the variables of its program.** -/
theorem references_of_program (htags : NotingTags tags) {tokens : List Token} {s : Store}
    {p : Program} {c : Compilation} (h : program tags tokens (.start s) = .ok p c) :
    c.references.reverse = p.operands.filterMap Operand.reference? := by
  obtain ⟨⟨⟩, c', hsource, h⟩ := bind_eq_ok.mp h
  rw [bind_of_ok (get_apply c')] at h
  cases hassemble : Program.assemble c'.items with
  | error e => rw [hassemble] at h; cases h
  | ok p' =>
    rw [hassemble] at h
    cases h
    have hstart : (Compilation.start s).Ahead [] := ⟨rfl, fun b hb => absurd hb List.not_mem_nil⟩
    have hnoted := (catchesUp_tokens htags tokens _ _ hstart (source_eq_ok_iff.mp hsource).1).noted
    calc c.references.reverse
        = (p.code.toList.map (·.instruction)).flatMap Instruction.references := by
          rw [Program.assemble_instructions hassemble, Compilation.items_instructions, hnoted,
            List.append_nil]
      _ = p.operands.filterMap Operand.reference? := by
          rw [List.flatMap_map, Program.operands, List.filterMap_flatMap]
          exact congrArg (List.flatMap · _) (funext fun i => i.instruction.references_eq)

end Compile

/-! ## 5. Templates -/

/-- Operands that have been read refer to the texts that are no literals, in the same order. -/
theorem Operand.references_of_read {raws : List (List Char)} {operands : List Operand}
    (h : List.Forall₂ (fun raw o => read raw = .ok o) raws operands) :
    operands.filterMap reference? =
      ((raws.map strip).filter fun cs => ¬ IsLiteral cs).map String.ofList := by
  induction h with
  | nil => rfl
  | cons hread _ ih =>
    obtain ⟨htext, hreference⟩ := reference?_of_read hread
    rw [List.filterMap_cons, hreference, ih, List.map_cons, List.filter_cons, htext]
    split_ifs <;> simp_all

/-- A row that keeps the first occurrences has each entry once. -/
theorem nodup_eraseDups {α : Type} [DecidableEq α] : ∀ xs : List α, xs.eraseDups.Nodup
  | [] => List.nodup_nil
  | x :: xs => by
    rw [List.eraseDups_cons, List.nodup_cons]
    refine ⟨fun hx => ?_, nodup_eraseDups _⟩
    have hkept := (List.mem_filter.mp (List.mem_eraseDups.mp hx)).2
    simp only [beq_self_eq_true, Bool.not_true, Bool.false_eq_true] at hkept
termination_by xs => xs.length
decreasing_by exact Nat.lt_succ_of_le (List.length_filter_le _ _)

theorem exists_forall₂ {α β : Type} {R : α → β → Prop} : ∀ {ys : List β}, (∀ y ∈ ys, ∃ x, R x y) →
    ∃ xs, List.Forall₂ R xs ys
  | [], _ => ⟨[], .nil⟩
  | y :: ys, h => by
    obtain ⟨⟨x, hx⟩, hrest⟩ := List.forall_mem_cons.mp h
    obtain ⟨xs, hxs⟩ := exists_forall₂ hrest
    exact ⟨x :: xs, .cons hx hxs⟩

namespace Template

variable {engine : Engine} {name : Option String} {source : Value} {o : Overrides} {s s' : Store}
  {t : Template}

/-- The operands of a compiled template have been read. -/
theorem read_of_mem_operands (h : compile engine name source o s = .ok t s')
    (htags : t.grammar.tags = Tag.standard) :
    ∀ o ∈ t.program.operands, ∃ raw, Operand.read raw = .ok o := by
  have hemitted := emitted h (htags ▸ ordinaryTags_standard)
  intro o ho
  obtain ⟨i, hi, ho⟩ := List.mem_flatMap.mp ho
  obtain ⟨e, he, ho⟩ := List.mem_flatMap.mp ho
  obtain ⟨cs, hread⟩ := (hemitted.expressions _ (List.mem_map_of_mem hi) e he).read
  exact Expression.read_of_mem_operands hread o ho

/-- **The variables of a template are exact and in order.**  The walk over a compiled program meets
operands that were read from some raw texts.  The variables of the template are those of these
texts, without blanks at the ends, that are no literals: each one where it is met first, and no
other.  So a name is among them just when an operand of the program refers to it. -/
theorem references_exact (h : compile engine name source o s = .ok t s')
    (htags : t.grammar.tags = Tag.standard) :
    (∃ raws, List.Forall₂ (fun raw o => Operand.read raw = .ok o) raws t.program.operands ∧
      t.references =
        (((raws.map strip).filter fun cs => ¬ IsLiteral cs).map String.ofList).eraseDups) ∧
    t.references.Nodup ∧
    ∀ name, name ∈ t.references ↔ ∃ o ∈ t.program.operands, o.reference? = some name := by
  obtain ⟨s₀, c, hp, hreferences, -⟩ := program_of_compile h
  have hnotes := Compile.references_of_program (htags ▸ notingTags_standard) hp
  rw [hnotes] at hreferences
  obtain ⟨raws, hraws⟩ := exists_forall₂ (read_of_mem_operands h htags)
  refine ⟨⟨raws, hraws, ?_⟩, ?_, fun name => ?_⟩
  · rw [hreferences, Operand.references_of_read hraws]
  · rw [hreferences]
    exact nodup_eraseDups _
  · rw [hreferences, List.mem_eraseDups, List.mem_filterMap]

/-- A template with names in conditions, loops, arguments of filters, cycles and what is skipped;
some occur more than once, and some operands are literals. -/
def variedSource : String :=
  "\x7b% for a in x.y|f: b %\x7d\x7b% if not a == 'b' %\x7d" ++
    "\x7b\x7b a | g:3|h : b \x7d\x7d\x7b% endif %\x7d" ++
    "\x7b% empty %\x7d\x7b% cycle c 'a' x.y a %\x7d\x7b% endfor %\x7d" ++
    "\x7b% comment %\x7d\x7b\x7b d|:e \x7d\x7d\x7b% endcomment %\x7d"

/-- What a compilation gives: the texts of the operands of the program, and the variables of the
template. -/
def operandTexts : EStateM.Result Error Store Template → Option (List String × List String)
  | .ok t _ => some (t.program.operands.map (·.text), t.references)
  | .error .. => none

theorem references_exact_varied : ∃ t s',
    compile .standard none (.plain variedSource) .empty .empty = .ok t s' ∧
    t.grammar.tags = Tag.standard ∧
    t.program.operands.map (·.text) =
      ["x.y", "b", "a", "'b'", "a", "3", "b", "c", "'a'", "x.y", "a", "d"] ∧
    t.references = ["x.y", "b", "a", "c", "d"] ∧
    ((∃ raws, List.Forall₂ (fun raw o => Operand.read raw = .ok o) raws t.program.operands ∧
      t.references =
        (((raws.map strip).filter fun cs => ¬ IsLiteral cs).map String.ofList).eraseDups) ∧
    t.references.Nodup ∧
    ∀ name, name ∈ t.references ↔ ∃ o ∈ t.program.operands, o.reference? = some name) := by
  have htexts : operandTexts (compile .standard none (.plain variedSource) .empty .empty) =
      some (["x.y", "b", "a", "'b'", "a", "3", "b", "c", "'a'", "x.y", "a", "d"],
        ["x.y", "b", "a", "c", "d"]) := by decide +kernel
  generalize hc : compile .standard none _ _ _ = result at htexts
  cases result with
  | error e s => cases htexts
  | ok t s₁ =>
    obtain ⟨hoperands, hreferences⟩ := Prod.mk.inj (Option.some.inj htexts)
    have htags : t.grammar.tags = Tag.standard := congrArg Grammar.tags (grammar_of_compile hc).2
    exact ⟨t, s₁, rfl, htags, hoperands, hreferences, references_exact hc htags⟩

end Template
end TextTemplate
