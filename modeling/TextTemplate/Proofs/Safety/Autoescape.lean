/-
# What escaped output lets through

While output is escaped, whatever an expression or a cycle writes is tame: none of `<`, `>` and the
two quotes is in it.  That is so in every run of a source in the standard tags and filters that does
not use `safe`, in a world without safe texts, with one exception: an expression that leaks.
`autoescape_sound_iff` says so, and `join_leaks` shows one that does.
-/
import TextTemplate.Proofs.Compile.Acceptance
import TextTemplate.Proofs.Safety.Execution
import TextTemplate.Template

namespace TextTemplate

open TextTemplate.Outcome TextTemplate.Text

/-! ## 1. The code of the standard tags -/

/-- A row of ordinary instructions. -/
def OrdinaryRow (row : List Linked) : Prop := ∀ i ∈ row, i.instruction.Ordinary

namespace OrdinaryRow

variable {i : Linked} {row row' : List Linked}

theorem nil : OrdinaryRow [] := fun _ hi => absurd hi List.not_mem_nil

theorem cons (hi : i.instruction.Ordinary) (h : OrdinaryRow row) : OrdinaryRow (i :: row) :=
  List.forall_mem_cons.mpr ⟨hi, h⟩

theorem append (h : OrdinaryRow row) (h' : OrdinaryRow row') : OrdinaryRow (row ++ row') :=
  List.forall_mem_append.mpr ⟨h, h'⟩

theorem leaf (t : Token) (l : Leaf) : OrdinaryRow (l.linked t) := by
  cases l with
  | nothing => exact nil
  | text text => exact nil.cons trivial
  | expression e => exact nil.cons trivial
  | cycle values counter => exact nil.cons trivial
  | serial name number => exact nil.cons ⟨number, rfl⟩

theorem lead (flag : String) (parts : EmptyParts) : OrdinaryRow (parts.lead flag) := by
  cases parts with
  | none => exact nil
  | part => exact nil.cons trivial

end OrdinaryRow

mutual

/-- **The code of a tree** has ordinary instructions only. -/
theorem Tree.ordinary : ∀ (tree : Tree) (depth k : Nat), OrdinaryRow (tree.linked depth k)
  | .nil, _, _ => .nil
  | .leaf t l next, _, _ => .append (.leaf t l) (next.ordinary _ _)
  | .conditional _ _ body chain _ next, _, _ =>
    .cons trivial (.append (body.ordinary _ _) (.append (chain.ordinary _ _ _)
      (.cons trivial (next.ordinary _ _))))
  | .loop _ _ _ body parts _ next, _, _ =>
    .cons trivial (.cons trivial (.append (body.ordinary _ _) (.append (.lead _ parts)
      (.cons trivial (.cons trivial (.append (parts.ordinary _ _ _) (next.ordinary _ _)))))))
  | .skipped _ body _ next, _, _ =>
    .cons trivial (.append (body.ordinary _ _) (.cons trivial (next.ordinary _ _)))

theorem Chain.ordinary : ∀ (chain : Chain) (depth k stop : Nat),
    OrdinaryRow (chain.linked depth k stop)
  | .done, _, _, _ => .nil
  | .otherwise _ body, _, _, _ => .cons trivial (body.ordinary _ _)
  | .alternative _ _ body chain, _, _, _ =>
    .cons trivial (.cons trivial (.append (body.ordinary _ _) (chain.ordinary _ _ _)))

theorem EmptyParts.ordinary : ∀ (parts : EmptyParts) (depth k : Nat) (closing : Token),
    OrdinaryRow (parts.linked depth k closing)
  | .none, _, _, _ => .nil
  | .part _ body chain more, _, _, _ =>
    .cons trivial (.append (body.ordinary _ _) (.append (chain.ordinary _ _ _)
      (.append (.lead _ more) (.cons trivial (.cons trivial (more.ordinary _ _ _))))))

end

/-- The standard tags give ordinary instructions only. -/
theorem Compile.ordinary_of_program {tokens : List Token} {s : Store} {p : Program}
    {c : Compilation} (hp : program Tag.standard tokens (.start s) = .ok p c) :
    ∀ i ∈ p.code, i.instruction.Ordinary := by
  obtain ⟨tree, -, -, rfl, -⟩ := tree_of_program hp
  intro i hi
  exact tree.ordinary 0 0 i (List.mem_toArray.mp hi)

/-! ## 2. Worlds without safe texts -/

/-- What the names in some scopes stand for. -/
def Scopes.Binds (c : Scopes) (v : Value) : Prop :=
  v = c.root ∨ ∃ layer ∈ c.pushed, ∃ e ∈ layer, v = e.label ∨ v = e.value

/-- At the beginning of a run the invariant holds, if no safe text can be reached. -/
theorem Region.holdsFrame_start {w : World} (hw : w.store.Clean w.scopes.Binds) :
    (Region.of w.store w.scopes.Binds).HoldsFrame ⟨w, [], [], []⟩ where
  store := holds_of_clean hw
  scopes := {
    root := plain_of_reaches hw (.root (.inl rfl))
    pushed := fun layer hlayer e he =>
      ⟨plain_of_reaches hw (.root (.inr ⟨layer, hlayer, e, he, .inl rfl⟩)),
        plain_of_reaches hw (.root (.inr ⟨layer, hlayer, e, he, .inr rfl⟩))⟩ }
  loops := fun _ hl => absurd hl List.not_mem_nil

/-- No safe text can be reached from a mapping of names to plain texts. -/
theorem Store.clean_of_texts {s : Store} {r : Ref}
    (h : ∀ e ∈ s.dict r, (∃ t, e.label = .plain t) ∧ ∃ t, e.value = .plain t) :
    s.Clean (Scopes.ofRoot (.dict r)).Binds := by
  have hreaches : ∀ v, s.Reaches (Scopes.ofRoot (.dict r)).Binds v →
      v = .dict r ∨ ∃ t, v = .plain t := by
    intro v hv
    induction hv with
    | root hroot =>
      rcases hroot with rfl | ⟨layer, hlayer, -⟩
      · exact .inl rfl
      · exact absurd hlayer List.not_mem_nil
    | label outer hmem ih =>
      rcases ih with hr | ⟨t, ht⟩
      · cases hr
        exact .inr (h _ hmem).1
      · cases ht
    | value outer hmem ih =>
      rcases ih with hr | ⟨t, ht⟩
      · cases hr
        exact .inr (h _ hmem).2
      · cases ht
    | _ =>
      rename_i ih
      rcases ih with hr | ⟨t, ht⟩
      · cases hr
      · cases ht
  constructor
  · intro t ht
    rcases hreaches _ ht with hr | ⟨u, hu⟩
    · cases hr
    · cases hu
  · intro r' i hf
    rcases hreaches _ hf with hr | ⟨u, hu⟩
    · cases hr
    · cases hu
  · intro r' ho
    rcases hreaches _ ho with hr | ⟨u, hu⟩
    · cases hr
    · cases hu

/-- A world with one name, which stands for a plain text. -/
def World.ofText (name text : String) : World :=
  ⟨⟨.ofRoot (.dict 0), none⟩,
    { Store.empty with dicts := #[Dict.ofBindings [(name, .plain text)]] }⟩

theorem World.clean_ofText (name text : String) :
    (ofText name text).store.Clean (ofText name text).scopes.Binds :=
  Store.clean_of_texts (List.forall_mem_singleton.mpr ⟨⟨name, rfl⟩, ⟨text, rfl⟩⟩)

/-! ## 3. What is written -/

/-- The expression that an instruction chooses is one of its own. -/
theorem Region.HoldsFrame.chosen {R : Region} {f : Frame} {i : Instruction}
    {choice : Eval Expression} {e : Expression} {s : Store} (hf : R.HoldsFrame f)
    (he : ∀ e ∈ i.expressions, e.MarksNothing) (h : i.choice? f.world.scopes = some choice)
    (hchoice : choice f.world.store = .ok e s) : R.Holds s ∧ e.MarksNothing := by
  cases i with
  | expression e' =>
    cases h
    cases hchoice
    exact ⟨hf.store, he e List.mem_cons_self⟩
  | cycle values counter =>
    cases h
    obtain ⟨hs, hmem⟩ := (keeps_inTurn hf.scopes values counter _ hf.store).1 e s hchoice
    exact ⟨hs, he e hmem⟩
  | _ => cases h

/-- **What is written is tame unless an expression leaks.**  Take a source in the standard tags and
filters that does not use `safe`, and a world in which no safe text can be reached, and no object
that can say that it is markup.  Whenever an expression or a cycle is written in a run while output
is escaped, it is written as a safe text, and none of `<`, `>` and the two quotes is in that text
exactly if the expression does not leak. -/
theorem autoescape_sound_iff (delimiters : Delimiters) (source : String) (s : Store) {p : Program}
    {c : Compilation}
    (hp : Compile.program Tag.standard (delimiters.tokens source) (.start s) = .ok p c)
    (hsafe : ∀ i ∈ p.code, ∀ e ∈ i.instruction.expressions, e.MarksNothing)
    {env : Environment} (henv : env.filters = Filter.standard) {w : World}
    (hw : w.store.Clean w.scopes.Binds) {place place' : Nat} {f f' : Frame} {i : Linked}
    (hreaches : p.Reaches env 0 ⟨w, [], [], []⟩ place f) (here : p.code[place]? = some i)
    (hstep : i.step env place f = .ok place' f')
    (hon : f'.world.store.truth env.autoescape = true) {choice : Eval Expression}
    (hchoice : i.instruction.choice? f.world.scopes = some choice) :
    ∃ e s' t, choice f.world.store = .ok e s' ∧ f'.output = .markup t :: f.output ∧
      (Tame t ↔ ¬e.Leaks Filter.standard f.world.scopes s') := by
  have hunmarking : p.Unmarking := ⟨Compile.ordinary_of_program hp, hsafe⟩
  have hf := hreaches.holdsFrame henv hunmarking (Region.holdsFrame_start hw)
  obtain ⟨e, s₁, v, s₂, o, s₃, he, hv, ho, rfl⟩ := Linked.step_of_choice hchoice hstep
  obtain ⟨hs₁, hmarks⟩ :=
    hf.chosen (hunmarking.marksNothing i (Array.mem_of_getElem? here)) hchoice he
  rw [henv] at hv
  obtain ⟨hs₂, hhas⟩ := (Region.keeps_resolve hf.scopes hmarks s₁ hs₁).1 v s₂ hv
  obtain ⟨rfl, hwritten⟩ := hs₂.output_tame_iff hhas ho
  obtain ⟨t, rfl, htame⟩ := hwritten hon
  exact ⟨e, s₁, t, he, rfl, htame.trans (hs₁.resolve_sound_iff hf.scopes hmarks hv)⟩

/-- The program of an expression alone. -/
def Program.ofExpression (t : Token) (e : Expression) : Program := ⟨#[.plain t (.expression e)]⟩

theorem Program.compile_ofExpression {t : Token} {e : Expression} {s : Store}
    (h : Marker.read? ⟨0, s.serial⟩ t = some (.leaf (.expression e))) :
    ∃ c, Compile.program Tag.standard [t] (.start s) = .ok (ofExpression t e) c := by
  obtain ⟨c, hp, -⟩ := (Tree.leaf t (.expression e) .nil).program_tokens s ⟨h, trivial⟩
  exact ⟨c, hp⟩

theorem Program.marksNothing_ofExpression {t : Token} {e : Expression} (he : e.MarksNothing) :
    ∀ i ∈ (ofExpression t e).code, ∀ e' ∈ i.instruction.expressions, e'.MarksNothing := by
  intro i hi e' he'
  obtain rfl := List.mem_singleton.mp (List.mem_toArray.mp hi)
  obtain rfl := List.mem_singleton.mp he'
  exact he

/-- The beginning of a run in a world with one name. -/
def Frame.ofText (name text : String) : Frame := ⟨.ofText name text, [], [], []⟩

/-- What a step has written, if it succeeds. -/
def writtenBy : EStateM.Result Error Frame Nat → Option (List Value)
  | .ok _ f => some f.output
  | .error _ _ => none

theorem eq_ok_of_writtenBy {r : EStateM.Result Error Frame Nat} {output : List Value}
    (h : writtenBy r = some output) : ∃ place f, r = .ok place f ∧ f.output = output := by
  cases r with
  | ok place f =>
    cases h
    exact ⟨place, f, rfl, rfl⟩
  | error e f => cases h

/-- A plain text that is joined with a character of markup. -/
def joinSource : String := "\x7b\x7b x|join:\"<\" \x7d\x7d"

/-- The expression in it. -/
def joinExpression : Expression :=
  ⟨"x|join:\"<\"", ⟨"x", .path ["x"]⟩, [⟨"join", some ⟨"\"<\"", .text "<"⟩⟩]⟩

/-- A plain text that is joined does not leak: it is escaped behind the `join`. -/
theorem join_escaped : ∃ p c i place' f' e s',
    Compile.program Tag.standard (Delimiters.standard.tokens joinSource) (.start .empty) =
      .ok p c ∧ p.code[0]? = some i ∧
    i.step (.detached Filter.standard (.bool true)) 0 (.ofText "x" "ab") = .ok place' f' ∧
    f'.output = [.markup "a&lt;b"] ∧
    (Tame "a&lt;b" ↔
      ¬Expression.Leaks Filter.standard (Frame.ofText "x" "ab").world.scopes e s') := by
  have htokens : Delimiters.standard.tokens joinSource =
      [⟨.expression, "x|join:\"<\"", 0, 16, 1⟩] := by decide +kernel
  have hread : Marker.read? ⟨0, Store.firstSerial⟩ ⟨.expression, "x|join:\"<\"", 0, 16, 1⟩ =
      some (.leaf (.expression joinExpression)) := by decide +kernel
  have hwritten : writtenBy ((Linked.plain ⟨.expression, "x|join:\"<\"", 0, 16, 1⟩
      (.expression joinExpression)).step (.detached Filter.standard (.bool true)) 0
        (.ofText "x" "ab")) = some [.markup "a&lt;b"] := by decide +kernel
  obtain ⟨c, hp⟩ := Program.compile_ofExpression (s := .empty) hread
  obtain ⟨place', f', hstep, houtput⟩ := eq_ok_of_writtenBy hwritten
  rw [← htokens] at hp
  have henv : (Environment.detached Filter.standard (.bool true)).filters = Filter.standard := rfl
  obtain ⟨e, s', t, -, ht, hleaks⟩ := autoescape_sound_iff Delimiters.standard joinSource .empty hp
    (Program.marksNothing_ofExpression (by decide +kernel)) henv (World.clean_ofText "x" "ab")
    (.refl 0 _) rfl hstep rfl rfl
  rw [houtput] at ht
  cases ht
  exact ⟨_, c, _, place', f', e, s', hp, rfl, hstep, houtput, hleaks⟩

/-- A safe text that is joined with a character of markup. -/
def leakSource : String := "\x7b\x7b x|escape|join:\"<\" \x7d\x7d"

/-- The expression in it. -/
def leakExpression : Expression :=
  ⟨"x|escape|join:\"<\"", ⟨"x", .path ["x"]⟩,
    [⟨"escape", none⟩, ⟨"join", some ⟨"\"<\"", .text "<"⟩⟩]⟩

/-- An expression that leaks: it does not use `safe`, and no safe text can be reached, but a
character of markup is written. -/
theorem join_leaks : ∃ p c i place' f',
    Compile.program Tag.standard (Delimiters.standard.tokens leakSource) (.start .empty) =
      .ok p c ∧
    (∀ i ∈ p.code, ∀ e ∈ i.instruction.expressions, e.MarksNothing) ∧
    (World.ofText "x" "ab").store.Clean (World.ofText "x" "ab").scopes.Binds ∧
    p.code[0]? = some i ∧ i.instruction = .expression leakExpression ∧
    i.step (.detached Filter.standard (.bool true)) 0 (.ofText "x" "ab") = .ok place' f' ∧
    f'.output = [.markup "a<b"] ∧ ¬Tame "a<b" := by
  have htokens : Delimiters.standard.tokens leakSource =
      [⟨.expression, "x|escape|join:\"<\"", 0, 23, 1⟩] := by decide +kernel
  have hread : Marker.read? ⟨0, Store.firstSerial⟩ ⟨.expression, "x|escape|join:\"<\"", 0, 23, 1⟩ =
      some (.leaf (.expression leakExpression)) := by decide +kernel
  have hwritten : writtenBy ((Linked.plain ⟨.expression, "x|escape|join:\"<\"", 0, 23, 1⟩
      (.expression leakExpression)).step (.detached Filter.standard (.bool true)) 0
        (.ofText "x" "ab")) = some [.markup "a<b"] := by decide +kernel
  obtain ⟨c, hp⟩ := Program.compile_ofExpression (s := .empty) hread
  obtain ⟨place', f', hstep, houtput⟩ := eq_ok_of_writtenBy hwritten
  rw [← htokens] at hp
  exact ⟨_, c, _, place', f', hp, Program.marksNothing_ofExpression (by decide +kernel),
    World.clean_ofText "x" "ab", rfl, rfl, hstep, houtput, by decide +kernel⟩

end TextTemplate
