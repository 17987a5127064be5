/-
# What a compilation does to values

A template is compiled without looking at a value, but for the text of its source.  The one thing
that a compilation changes is which serial number comes next, and that it does also where it fails;
what it fails for says nothing about values either.

* `Store.SameValues` says that two stores hold the same values;
* `Compile.Spares` says that a step of a compilation leaves the values as they are, with one lemma
  for each way to put steps together;
* `Template.compile_spares` is the compilation of a whole template.
-/
import TextTemplate.Extras.Tags
import TextTemplate.Proofs.Compile.Acceptance
import TextTemplate.Proofs.Safety.Keeping

namespace TextTemplate

open TextTemplate.Outcome TextTemplate.Text

/-! ## 1. Steps -/

/-- One store holds what another one holds, but for the serial number that comes next. -/
def Store.SameValues (s s' : Store) : Prop := s' = { s with serial := s'.serial }

theorem Store.SameValues.refl (s : Store) : s.SameValues s := rfl

theorem Store.SameValues.trans {s s' s'' : Store} (h : s.SameValues s') (h' : s'.SameValues s'') :
    s.SameValues s'' := by
  unfold SameValues at h h' ⊢
  rw [h', h]

/-- The values are as they were, and a failure is about the text that is compiled. -/
def Compile.SparedBy {α : Type} (s : Store) : EStateM.Result Error Compilation α → Prop
  | .ok _ c => s.SameValues c.store
  | .error e c => s.SameValues c.store ∧ e.cause.Refuses

/-- The step leaves the values as they are, whether it succeeds or fails. -/
def Compile.Spares {α : Type} (x : Compile α) : Prop :=
  ∀ c : Compilation, Compile.SparedBy c.store (x c)

namespace Compile

variable {α β : Type} {x : Compile α} {g : α → Compile β}

namespace Spares

theorem pure (a : α) : Spares (Pure.pure a : Compile α) := fun _ => .refl _

theorem fail {cause : Cause} (h : cause.Refuses) : Spares (Compile.fail cause : Compile α) :=
  fun _ => ⟨.refl _, h⟩

/-- Refusing the source for a fault in it. -/
theorem refuse (fault : SyntaxFault) : Spares (Compile.fail (.template fault) : Compile α) :=
  fail (.inl ⟨fault, rfl⟩)

theorem get : Spares (MonadState.get : Compile Compilation) := fun _ => .refl _

theorem bind (hx : Spares x) (hg : ∀ a, Spares (g a)) : Spares (x >>= g) := by
  intro c
  have hc := hx c
  rw [bind_apply]
  cases hr : x c with
  | error e c₁ => rwa [hr] at hc
  | ok a c₁ =>
    rw [hr] at hc
    have hc₁ := hg a c₁
    dsimp only
    cases hs : g a c₁ with
    | error e c₂ =>
      rw [hs] at hc₁
      exact ⟨hc.trans hc₁.1, hc₁.2⟩
    | ok b c₂ =>
      rw [hs] at hc₁
      exact hc.trans hc₁

/-- A change of the compilation that leaves its store. -/
theorem change {h : Compilation → Compilation} (hstore : ∀ c, (h c).store = c.store) :
    Spares (modify h) := by
  intro c
  have hsame : c.store.SameValues (h c).store := by
    rw [hstore]
    exact .refl _
  exact hsame

theorem located (t : Token) (hx : Spares x) : Spares (located t x) := by
  intro c
  have hc := hx c
  rw [located_apply]
  cases hr : x c with
  | error e c₁ =>
    rw [hr] at hc
    refine ⟨hc.1, ?_⟩
    rw [Assembly.cause_at?]
    exact hc.2
  | ok a c₁ => rwa [hr] at hc

theorem locatedSyntax (t : Token) (hx : Spares x) : Spares (locatedSyntax t x) := by
  intro c
  have hc := hx c
  rw [locatedSyntax_apply]
  cases hr : x c with
  | error e c₁ =>
    rw [hr] at hc
    refine ⟨hc.1, ?_⟩
    split
    · rw [Assembly.cause_at?]
      exact hc.2
    · exact hc.2
  | ok a c₁ => rwa [hr] at hc

theorem expression (cs : List Char) : Spares (Compile.expression cs) := by
  intro c
  rw [expression_apply]
  cases hr : Expression.read cs with
  | ok e => exact .refl _
  | error cause => exact ⟨.refl _, Expression.cautious_read cs cause hr⟩

theorem condition (cs : List Char) : Spares (Compile.condition cs) := by
  intro c
  rw [condition_apply]
  cases hr : Condition.read cs with
  | ok e => exact .refl _
  | error cause => exact ⟨.refl _, Condition.cautious_read cs cause hr⟩

theorem expressions : ∀ texts : List (List Char), Spares (texts.mapM Compile.expression)
  | [] => .pure []
  | text :: texts => by
    rw [List.mapM_cons]
    exact .bind (.expression text) fun e => .bind (expressions texts) fun es => .pure (e :: es)

theorem ordinal (name : String) : Spares (parsing (.ordinal name)) := fun _ => .refl _

theorem emit (code : List Instruction) (t : Token) : Spares (Compile.emit code t) :=
  .change fun _ => rfl

/-- Giving out a serial number changes which one comes next, and nothing else. -/
theorem serial : Spares (parsing (.eval (Eval.make (·.newSerial)))) := fun _ => rfl

end Spares

end Compile

/-! ## 2. Tags -/

/-- The tag leaves the values as they are. -/
def Tag.Sparing (tag : Tag) : Prop := ∀ remainder, Compile.Spares (tag.run remainder)

namespace Tag

open Compile

theorem sparing_conditional : conditional.Sparing := by
  intro remainder
  rw [run_conditional]
  exact .bind (.condition _) fun _ => .pure _

theorem sparing_alternative : alternative.Sparing := by
  intro remainder
  rw [run_alternative]
  exact .bind (.condition _) fun _ => .pure _

theorem sparing_otherwise : otherwise.Sparing := fun _ => .pure _

theorem sparing_loop : loop.Sparing := by
  intro remainder
  rw [run_loop]
  split
  · exact .refuse _
  · exact .bind (.expression _) fun _ => .pure _

theorem sparing_empty : empty.Sparing := by
  intro remainder
  rw [run_empty]
  refine .bind .get fun c => ?_
  split
  · exact .refuse _
  · split
    · exact .bind (.change fun _ => rfl) fun _ => .pure _
    · exact .refuse _

theorem sparing_cycle : cycle.Sparing := by
  intro remainder
  rw [run_cycle]
  split
  · exact .refuse _
  · exact .bind (.expressions _) fun _ => .bind (.ordinal _) fun _ => .pure _

theorem sparing_comment : comment.Sparing := fun _ => .pure _

theorem sparing_serial : serial.Sparing := by
  intro remainder
  rw [run_serial]
  exact .bind .serial fun _ => .pure _

theorem sparing_sub : sub.Sparing := by
  intro remainder
  rw [run_sub]
  exact .bind (.expression _) fun _ => .pure _

/-- **The standard tags leave the values as they are.** -/
theorem sparing_standard {name : String} {tag : Tag} (h : (name, tag) ∈ standard) :
    tag.Sparing :=
  forall_standard sparing_conditional sparing_alternative sparing_otherwise sparing_loop
    sparing_empty sparing_cycle sparing_comment sparing_serial h

end Tag

/-! ## 3. Linking -/

namespace Assembly

variable {a : Assembly} {e : Error} {tokenOf : Nat → Option Token}

theorem fault_of_expect {kind : BlockKind} {item : Item} {token : Option Token}
    (h : a.expect kind item token = .error e) :
    ∃ fault, e = (Error.syntaxFault fault).at? token := by
  unfold expect at h
  dsimp only at h
  split at h
  · cases h
    exact ⟨_, rfl⟩
  · split at h
    · cases h
    · cases h
      exact ⟨_, rfl⟩

/-- Linking an item fails for a fault in the template at most, and at the token of the item. -/
theorem fault_of_link {k : Nat} {item : Item} {token : Option Token}
    (h : a.link k item token = .error e) : ∃ fault, e = (Error.syntaxFault fault).at? token := by
  have hbind : ∀ {β : Type} {kind : BlockKind} {f : OpenBlock × List OpenBlock → Except Error β},
      (a.expect kind item token >>= f) = .error e → (∀ p, f p = .error e →
        ∃ fault, e = (Error.syntaxFault fault).at? token) →
      ∃ fault, e = (Error.syntaxFault fault).at? token := by
    intro β kind f h hf
    cases hexpect : a.expect kind item token with
    | error e' =>
      rw [hexpect] at h
      cases h
      exact fault_of_expect hexpect
    | ok p =>
      rw [hexpect] at h
      exact hf p h
  unfold link at h
  split at h
  · cases h
  · exact hbind h fun _ h => nomatch h
  · refine hbind h fun p h => ?_
    dsimp only at h
    split at h
    · cases h
      exact ⟨_, rfl⟩
    · cases h
  · exact hbind h fun _ h => nomatch h
  · cases h
  · exact hbind h fun _ h => nomatch h
  · cases h
  · exact hbind h fun _ h => nomatch h
  · cases h

theorem fault_of_linkFrom : ∀ (items : List Item) {a : Assembly} {k : Nat},
    a.linkFrom tokenOf k items = .error e →
      ∃ item ∈ items, ∃ fault, e = (Error.syntaxFault fault).at? (tokenOf item.label)
  | [], _, _, h => nomatch h
  | item :: items, a, k, h => by
    unfold linkFrom at h
    cases hlink : a.link k item (tokenOf item.label) with
    | error e' =>
      rw [hlink] at h
      cases h
      exact ⟨item, List.mem_cons_self, fault_of_link hlink⟩
    | ok a' =>
      rw [hlink] at h
      obtain ⟨item', hmem, hfault⟩ := fault_of_linkFrom items h
      exact ⟨item', List.mem_cons_of_mem item hmem, hfault⟩

end Assembly

/-- **Linking a program** fails for a fault in the template at most. -/
theorem Program.fault_of_assemble {items : List Item} {e : Error} (h : assemble items = .error e) :
    ∃ fault, e.cause = .template fault := by
  unfold assemble at h
  cases hlink : Assembly.start.linkFrom (tokenOf? items) 0 items with
  | error e' =>
    rw [hlink] at h
    cases h
    obtain ⟨item, -, fault, rfl⟩ := Assembly.fault_of_linkFrom items hlink
    exact ⟨fault, Assembly.cause_at? _ _⟩
  | ok a =>
    rw [hlink] at h
    dsimp only [Bind.bind, Except.bind] at h
    split at h
    · cases h
      exact ⟨_, Assembly.cause_at? _ _⟩
    · cases h

/-! ## 4. Templates -/

/-- Every tag of the table leaves the values as they are. -/
def SparingTags (tags : Table Tag) : Prop := ∀ name tag, tags.find? name = some tag → tag.Sparing

namespace Compile

variable {tags : Table Tag}

theorem spares_tagResult (t : Token) (command : String) (r : TagResult) :
    Spares (tagResult t command r) := by
  cases r with
  | inline code => exact .emit code t
  | other v => exact .bind .get fun _ => .located t (.refuse _)
  | block start ending close =>
    refine .bind (.emit start t) fun _ => ?_
    cases ending with
    | none => exact .pure _
    | some row => exact .change fun _ => rfl

theorem spares_named (htags : SparingTags tags) (t : Token) (command : String)
    (remainder : List Char) (expected : Option String) :
    Spares (named tags t command remainder expected) := by
  unfold named
  cases hfind : tags.find? command with
  | none => exact .located t (.refuse _)
  | some tag =>
    exact .bind (.located t (htags command tag hfind remainder)) (spares_tagResult t command)

/-- **A token leaves the values as they are.** -/
theorem spares_token (htags : SparingTags tags) (t : Token) : Spares (token tags t) := by
  unfold token
  split
  · split
    · exact .pure _
    · exact .emit _ t
  · split
    · exact .located t (.refuse _)
    · exact .bind (.locatedSyntax t (.expression _)) fun _ => .emit _ t
  · intro c
    by_cases hword : t.command = []
    · have hw : firstWord t.contents.toList = [] := hword
      unfold statement
      simp only [hw]
      exact Spares.located t (.refuse _) c
    · rw [statement_eq tags t hword]
      cases c.pending with
      | nil => exact spares_named htags t _ _ none c
      | cons b outer =>
        dsimp only
        split
        · exact Spares.emit b.ending t { c with pending := outer }
        · exact spares_named htags t _ _ (some b.closeName) c
  · exact .pure _

theorem spares_tokens (htags : SparingTags tags) : ∀ tokens : List Token,
    Spares (tokens.forM (token tags))
  | [] => .pure _
  | t :: tokens => .bind (spares_token htags t) fun _ => spares_tokens htags tokens

theorem spares_program (htags : SparingTags tags) (tokens : List Token) :
    Spares (program tags tokens) := by
  have hsource : Spares (source tags tokens) := by
    unfold source
    refine .bind (spares_tokens htags tokens) fun _ => .bind .get fun c => ?_
    split
    · exact .pure _
    · exact .located _ (.refuse _)
  refine .bind hsource fun _ => .bind .get fun c => ?_
  cases hassemble : Program.assemble c.items with
  | ok p => exact .pure p
  | error e => exact fun _ => ⟨.refl _, .inl (Program.fault_of_assemble hassemble)⟩

end Compile

namespace Template

/-- The failure is not about a value that there is. -/
def Impersonal (e : Error) : Prop :=
  (∃ fault, e.cause = .template fault) ∨ ∃ fault, e.cause = .value fault

theorem Impersonal.placeSyntax {e : Error} (h : Impersonal e) (engine : Engine) (source : String)
    (name : Option String) (s : Store) : Impersonal (placeSyntax engine source name s e) := by
  unfold Template.placeSyntax
  split
  · split
    · unfold Error.placed
      dsimp only
      split
      · exact h
      · exact h
      · exact .inr ⟨_, rfl⟩
    · exact h
  · exact h

/-- The values are as they were, and a failure is not about one of them. -/
def SparedBy (s : Store) : EStateM.Result Error Store Template → Prop
  | .ok _ s' => s.SameValues s'
  | .error e s' => s.SameValues s' ∧ Impersonal e

/-- **Compiling a template leaves the values as they are**, whether it succeeds or fails. -/
theorem compile_spares {engine : Engine} (htags : SparingTags engine.grammar.tags)
    (name : Option String) (source : Value) (s : Store) :
    SparedBy s (compile engine name source .empty s) := by
  cases htext : s.shown? source with
  | none =>
    have hfails : Eval.text source s = .error (Error.of (.value .integerTextTooLong)) s :=
      Eval.read_of_error (by rw [htext])
    unfold compile
    rw [bind_of_error hfails]
    exact ⟨.refl s, .inr ⟨_, rfl⟩⟩
  | some text =>
    have hshown : Eval.text source s = .ok text s := Eval.read_of_ok (by rw [htext])
    have hclone : engine.grammar.clone .empty s = .ok engine.grammar s := rfl
    have hspares := Compile.spares_program htags (engine.grammar.delimiters.tokens text) (.start s)
    unfold compile
    rw [bind_of_ok hshown]
    refine Eq.mpr (congrArg (SparedBy s) (bind_of_ok hclone)) ?_
    split
    · rename_i program c hp
      rw [hp] at hspares
      exact hspares
    · rename_i e c hp
      rw [hp] at hspares
      refine ⟨hspares.1, Impersonal.placeSyntax ?_ _ _ _ _⟩
      exact hspares.2.imp_right fun ⟨digits, hdigits⟩ => ⟨_, hdigits⟩

end Template
end TextTemplate
