/-
# Where a compilation fails

A compilation attaches to an error the token that failed.  Statements do so for every error,
expressions for syntax errors alone; the linker takes the token of the instruction that it stops
at.  So an error is a syntax error at one of the tokens, or it is met in a row of digits that is too
long: that one has the token of a statement, but none of an expression.

* `Compile.FailsIn` says of what stands behind the name of a tag why it may be refused, with one
  lemma for each way to put steps together and one for each tag;
* `Error.OfToken` is an error of a token, `Compile.token_fails` says that there is no other;
* `Program.error_of_assemble` is the linker;
* `compile_faults` is the result.
-/
import TextTemplate.Proofs.Assembly.Targets
import TextTemplate.Proofs.Compile.Levels
import TextTemplate.Proofs.Compile.Serial
import TextTemplate.Proofs.Expression.Literals

namespace TextTemplate

open TextTemplate.Outcome TextTemplate.Text

/-! ## 1. Tags -/

/-- The step may fail with nothing attached to the error, for a fault in the template or for a row
of digits of a text that is too long. -/
def Compile.FailsIn {α : Type} (cs : List Char) (x : Compile α) : Prop :=
  ∀ c e c', x c = .error e c' → ∃ cause, cause.RefusesIn cs ∧ e = Error.of cause

namespace Compile.FailsIn

variable {α β : Type} {cs : List Char} {x : Compile α} {g : α → Compile β}

/-- A step that succeeds. -/
theorem done (h : ∀ c, ∃ a c', x c = .ok a c') : FailsIn cs x := by
  intro c e c' he
  obtain ⟨a, c₁, hok⟩ := h c
  rw [hok] at he
  cases he

theorem pure (a : α) : FailsIn cs (Pure.pure a : Compile α) := .done fun c => ⟨a, c, rfl⟩

theorem refuse (fault : SyntaxFault) : FailsIn cs (Compile.fail (.template fault) : Compile α) := by
  rintro c e c' ⟨⟩
  exact ⟨_, .inl ⟨fault, rfl⟩, rfl⟩

theorem bind (hx : FailsIn cs x) (hg : ∀ a, FailsIn cs (g a)) : FailsIn cs (x >>= g) := by
  intro c e c' h
  rcases bind_eq_error.mp h with h | ⟨a, c₁, -, h⟩
  · exact hx c e c' h
  · exact hg a c₁ e c' h

theorem get : FailsIn cs (MonadState.get : Compile Compilation) := .done fun c => ⟨c, c, rfl⟩

theorem change (h : Compilation → Compilation) : FailsIn cs (modify h) :=
  .done fun c => ⟨PUnit.unit, h c, rfl⟩

theorem ordinal (name : String) : FailsIn cs (parsing (.ordinal name)) :=
  .done fun _ => ⟨_, _, rfl⟩

theorem serial : FailsIn cs (parsing (.eval (Eval.make (·.newSerial)))) :=
  .done fun _ => ⟨_, _, rfl⟩

theorem expression {text : List Char} (hin : text <:+: cs) :
    FailsIn cs (Compile.expression text) := by
  intro c e c' h
  rw [expression_apply] at h
  cases hr : Expression.read text with
  | ok a => rw [hr] at h; cases h
  | error cause =>
    rw [hr] at h
    cases h
    exact ⟨cause, (Expression.cautiousIn_read text).mono hin cause hr, rfl⟩

theorem condition (cs : List Char) : FailsIn cs (Compile.condition cs) := by
  intro c e c' h
  rw [condition_apply] at h
  cases hr : Condition.read cs with
  | ok a => rw [hr] at h; cases h
  | error cause =>
    rw [hr] at h
    cases h
    exact ⟨cause, Condition.cautiousIn_read cs cause hr, rfl⟩

theorem expressions : ∀ {texts : List (List Char)}, (∀ text ∈ texts, text <:+: cs) →
    FailsIn cs (texts.mapM Compile.expression)
  | [], _ => .pure []
  | text :: texts, h => by
    obtain ⟨htext, htexts⟩ := List.forall_mem_cons.mp h
    rw [List.mapM_cons]
    exact .bind (.expression htext) fun e => .bind (expressions htexts) fun es => .pure (e :: es)

end Compile.FailsIn

namespace Tag

open Compile

/-- The tag fails for what stands behind its name, if it fails. -/
def FailsInRemainder (tag : Tag) : Prop := ∀ remainder, FailsIn remainder (tag.run remainder)

/-- The sequence of a loop is a part of what stands behind the name. -/
theorem infix_of_loopTarget {remainder sequence : List Char} {names : List String}
    (h : loopTarget remainder = some (names, sequence)) : sequence <:+: remainder := by
  obtain ⟨⟨target, behind⟩, hcut, h⟩ := Option.bind_eq_some_iff.mp h
  dsimp only at h
  split at h
  · cases h
  · cases h
    have happend := before?_append hcut
    refine (infix_of_strip behind).trans ⟨target ++ loopWord, [], ?_⟩
    rw [List.append_nil, List.append_assoc, happend]

theorem failsInRemainder_conditional : conditional.FailsInRemainder := by
  intro remainder
  rw [run_conditional]
  exact .bind (.condition _) fun _ => .pure _

theorem failsInRemainder_alternative : alternative.FailsInRemainder := by
  intro remainder
  rw [run_alternative]
  exact .bind (.condition _) fun _ => .pure _

theorem failsInRemainder_otherwise : otherwise.FailsInRemainder := fun _ => .pure _

theorem failsInRemainder_loop : loop.FailsInRemainder := by
  intro remainder
  rw [run_loop]
  split
  · exact .refuse _
  · rename_i names sequence htarget
    exact .bind (.expression (infix_of_loopTarget htarget)) fun _ => .pure _

theorem failsInRemainder_empty : empty.FailsInRemainder := by
  intro remainder
  rw [run_empty]
  refine .bind .get fun c => ?_
  split
  · exact .refuse _
  · split
    · exact .bind (.change _) fun _ => .pure _
    · exact .refuse _

theorem failsInRemainder_cycle : cycle.FailsInRemainder := by
  intro remainder
  rw [run_cycle]
  split
  · exact .refuse _
  · have hparts : ∀ text ∈ units remainder, text <:+: remainder := fun _ => infix_of_units
    exact .bind (.expressions hparts) fun _ => .bind (.ordinal _) fun _ => .pure _

theorem failsInRemainder_comment : comment.FailsInRemainder := fun _ => .pure _

theorem failsInRemainder_serial : serial.FailsInRemainder := by
  intro remainder
  rw [run_serial]
  exact .bind .serial fun _ => .pure _

/-- **The standard tags fail for what stands behind their names.** -/
theorem failsInRemainder_standard {name : String} {tag : Tag} (h : (name, tag) ∈ standard) :
    tag.FailsInRemainder :=
  forall_standard failsInRemainder_conditional failsInRemainder_alternative
    failsInRemainder_otherwise failsInRemainder_loop failsInRemainder_empty
    failsInRemainder_cycle failsInRemainder_comment failsInRemainder_serial h

end Tag

/-! ## 2. Tokens -/

/-- An error of a token: a fault in the template, with the token attached, or a row of digits in it
that is too long.  With that one the token is attached to the error of a statement alone. -/
def Error.OfToken (t : Token) (e : Error) : Prop :=
  (∃ fault, e = ⟨.template fault, some t, none⟩) ∨
    ∃ row, LongRow row t.contents.toList ∧
      (t.kind = .statement ∧ e = ⟨.value (.integerTooLong row.length), some t, none⟩ ∨
        t.kind = .expression ∧ e = ⟨.value (.integerTooLong row.length), none, none⟩)

namespace Compile

/-- A step fails with errors of a token at most. -/
def FailsAt {α : Type} (t : Token) (x : Compile α) : Prop :=
  ∀ c e c', x c = .error e c' → e.OfToken t

variable {α β : Type} {t : Token} {x : Compile α} {g : α → Compile β}

theorem FailsAt.bind (hx : FailsAt t x) (hg : ∀ a, FailsAt t (g a)) : FailsAt t (x >>= g) := by
  intro c e c' h
  rcases bind_eq_error.mp h with h | ⟨a, c₁, -, h⟩
  · exact hx c e c' h
  · exact hg a c₁ e c' h

theorem FailsAt.emit (code : List Instruction) : FailsAt t (emit code t) := by
  rintro c e c' ⟨⟩

/-- A fault in the template, with the token attached. -/
theorem FailsAt.refuse (fault : SyntaxFault) :
    FailsAt t (located t (fail (.template fault)) : Compile α) := by
  rintro c e c' ⟨⟩
  exact .inl ⟨fault, rfl⟩

/-- Within a statement the token is attached to every error. -/
theorem FailsAt.located (ht : t.kind = .statement) (hx : FailsIn t.contents.toList x) :
    FailsAt t (located t x) := by
  intro c e c' h
  rw [located_apply] at h
  cases hr : x c with
  | ok a c₁ =>
    rw [hr] at h
    cases h
  | error e₁ c₁ =>
    rw [hr] at h
    cases h
    obtain ⟨cause, hcause, rfl⟩ := hx c e₁ c' hr
    rcases hcause with ⟨fault, rfl⟩ | ⟨row, hrow, rfl⟩
    · exact .inl ⟨fault, rfl⟩
    · exact .inr ⟨row, hrow, .inl ⟨ht, rfl⟩⟩

/-- Within an expression it is attached to syntax errors alone. -/
theorem FailsAt.locatedSyntax (ht : t.kind = .expression) (hx : FailsIn t.contents.toList x) :
    FailsAt t (locatedSyntax t x) := by
  intro c e c' h
  rw [locatedSyntax_apply] at h
  cases hr : x c with
  | ok a c₁ =>
    rw [hr] at h
    cases h
  | error e₁ c₁ =>
    rw [hr] at h
    cases h
    obtain ⟨cause, hcause, rfl⟩ := hx c e₁ c' hr
    rcases hcause with ⟨fault, rfl⟩ | ⟨row, hrow, rfl⟩
    · exact .inl ⟨fault, rfl⟩
    · exact .inr ⟨row, hrow, .inr ⟨ht, rfl⟩⟩

theorem tagResult_fails (t : Token) (command : String) (r : TagResult) :
    FailsAt t (tagResult t command r) := by
  cases r with
  | inline code => exact .emit code
  | other v =>
    intro c e c' h
    exact FailsAt.refuse _ c e c' h
  | block start ending close =>
    refine .bind (.emit start) fun _ => ?_
    cases ending with
    | none => rintro c e c' ⟨⟩
    | some row => rintro c e c' ⟨⟩

theorem remainder_infix_contents (t : Token) : t.remainder <:+: t.contents.toList :=
  (infix_of_strip _).trans (List.drop_suffix _ _).isInfix

theorem FailsIn.mono {cs ds : List Char} (hsub : cs <:+: ds) (hx : FailsIn cs x) :
    FailsIn ds x := by
  intro c e c' h
  obtain ⟨cause, hcause, rfl⟩ := hx c e c' h
  exact ⟨cause, hcause.imp_right fun ⟨row, hrow, hc⟩ => ⟨row, hrow.mono hsub, hc⟩, rfl⟩

theorem named_fails (ht : t.kind = .statement) (expected : Option String) :
    FailsAt t (named Tag.standard t (String.ofList t.command) t.remainder expected) := by
  unfold named
  cases hfind : Tag.standard.find? (String.ofList t.command) with
  | none => exact .refuse _
  | some tag =>
    have htag := Tag.failsInRemainder_standard (mem_of_lookup hfind) t.remainder
    exact .bind (.located ht (htag.mono (remainder_infix_contents t))) (tagResult_fails t _)

/-- **A token is taken in, or refused with an error of its own.** -/
theorem token_fails (t : Token) : FailsAt t (token Tag.standard t) := by
  unfold token
  split
  · split
    · rintro c e c' ⟨⟩
    · exact .emit _
  · rename_i ht
    split
    · exact .refuse _
    · exact .bind (.locatedSyntax ht (.expression List.infix_rfl)) fun _ => .emit _
  · rename_i ht
    intro c e c' h
    by_cases hword : t.command = []
    · have hw : firstWord t.contents.toList = [] := hword
      unfold statement at h
      simp only [hw] at h
      exact FailsAt.refuse _ c e c' h
    · rw [statement_eq Tag.standard t hword] at h
      cases hp : c.pending with
      | nil =>
        rw [hp] at h
        exact named_fails ht none c e c' h
      | cons b outer =>
        rw [hp] at h
        dsimp only at h
        split at h
        · exact FailsAt.emit _ _ e c' h
        · exact named_fails ht _ c e c' h
  · rintro c e c' ⟨⟩

theorem tokens_fail : ∀ {tokens : List Token} {c c' : Compilation} {e : Error},
    tokens.forM (token Tag.standard) c = .error e c' → ∃ t ∈ tokens, e.OfToken t
  | [], _, _, _, h => nomatch h
  | t :: tokens, c, c', e, h => by
    have hforM : (t :: tokens).forM (token Tag.standard) =
        token Tag.standard t >>= fun _ => tokens.forM (token Tag.standard) := rfl
    rw [hforM] at h
    rcases bind_eq_error.mp h with h | ⟨u, c₁, -, h⟩
    · exact ⟨t, List.mem_cons_self, token_fails t c e c' h⟩
    · obtain ⟨t', hmem, he⟩ := tokens_fail h
      exact ⟨t', List.mem_cons_of_mem t hmem, he⟩

end Compile

/-! ## 3. What has been taken in -/

/-- What has been put together belongs to some of the tokens. -/
structure Draft.Within (tokens : List Token) (d : Draft) : Prop where
  code : ∀ p ∈ d.code, p.2 ∈ tokens
  pending : ∀ b ∈ d.pending, b.token ∈ tokens

/-- The blocks that are open behind a marker were open in front of it, or its token opened them. -/
theorem Marker.token_of_effect {t : Token} {m : Marker} {pending pending' : List PendingClose}
    {code : List Instruction} (h : m.effect t pending = some (pending', code)) :
    ∀ b ∈ pending', b ∈ pending ∨ b.token = t := by
  have hsame : ∀ b ∈ pending, b ∈ pending ∨ b.token = t := fun b hb => .inl hb
  cases Marker.acts_of_effect h with
  | leaf => exact hsame
  | alternative => exact hsame
  | otherwise => exact hsame
  | conditional => exact List.forall_mem_cons.mpr ⟨.inr rfl, hsame⟩
  | loop => exact List.forall_mem_cons.mpr ⟨.inr rfl, hsame⟩
  | skipped => exact List.forall_mem_cons.mpr ⟨.inr rfl, hsame⟩
  | empty => exact List.forall_mem_cons.mpr ⟨.inr rfl, (List.forall_mem_cons.mp hsame).2⟩
  | closes => exact (List.forall_mem_cons.mp hsame).2

theorem Draft.within_of_takes {all : List Token} : ∀ {tokens : List Token} {d d' : Draft},
    (∀ t ∈ tokens, t ∈ all) → d.Within all → tokens.foldlM take d = some d' → d'.Within all
  | [], d, d', _, h, ht => by
    cases ht
    exact h
  | t :: tokens, d, d', hsub, h, ht => by
    obtain ⟨hfirst, hrest⟩ := List.forall_mem_cons.mp hsub
    rw [List.foldlM_cons] at ht
    obtain ⟨d₁, h₁, ht⟩ := Option.bind_eq_some_iff.mp ht
    obtain ⟨m, pending, code, -, he, rfl⟩ := take_eq_some h₁
    refine within_of_takes hrest ⟨fun p hp => ?_, fun b hb => ?_⟩ ht
    · rcases List.mem_append.mp hp with hp | hp
      · exact h.code p hp
      · obtain ⟨i, -, rfl⟩ := List.mem_map.mp hp
        exact hfirst
    · rcases Marker.token_of_effect he b hb with hb | rfl
      · exact h.pending b hb
      · exact hfirst

/-- **What a compilation has taken in** belongs to its tokens. -/
theorem Compile.within_of_tokens {tokens : List Token} {s : Store} {c : Compilation}
    (h : tokens.forM (token Tag.standard) (.start s) = .ok () c) : c.draft.Within tokens := by
  have hagrees := tokens_agree tokens (c := .start s) fun _ hb => absurd hb List.not_mem_nil
  rw [h] at hagrees
  cases hd : tokens.foldlM Draft.take (Compilation.start s).draft with
  | none =>
    rw [hd] at hagrees
    exact hagrees.elim
  | some d =>
    rw [hd] at hagrees
    have hdraft : c.draft = d := hagrees
    rw [hdraft]
    have hstart : (Compilation.start s).draft.Within tokens :=
      ⟨fun p hp => absurd hp List.not_mem_nil, fun b hb => absurd hb List.not_mem_nil⟩
    exact Draft.within_of_takes (fun _ => id) hstart hd

/-! ## 4. Linking -/

/-- The token of an item, if the items have one each. -/
theorem tokenOf?_eq_some {items : List Item} {item : Item} (h : item ∈ items)
    (ht : item.token.isSome) : ∃ item' ∈ items, ∃ t, item'.token = some t ∧
      tokenOf? items item.label = some t := by
  cases hfound : tokenOf? items item.label with
  | none =>
    have hnone := List.findSome?_eq_none_iff.mp hfound item h
    rw [if_pos rfl] at hnone
    rw [hnone] at ht
    cases ht
  | some t =>
    obtain ⟨item', hmem, ht'⟩ := List.exists_of_findSome?_eq_some hfound
    split at ht'
    · exact ⟨item', hmem, t, ht', rfl⟩
    · cases ht'

/-- **Linking fails at the token of an item.** -/
theorem Program.error_of_assemble {items : List Item} {e : Error}
    (hlabels : (items.map (·.label)).Nodup) (h : assemble items = .error e) :
    ∃ item ∈ items, ∃ fault, e = (Error.syntaxFault fault).at? (tokenOf? items item.label) := by
  unfold assemble at h
  cases hlink : Assembly.start.linkFrom (tokenOf? items) 0 items with
  | error e' =>
    rw [hlink] at h
    cases h
    exact Assembly.fault_of_linkFrom items hlink
  | ok a =>
    have hsound := Assembly.Sound.run hlabels (fun n => by rw [Nat.zero_add])
      (Assembly.Sound.start items) hlink
    rw [hlink] at h
    dsimp only [Bind.bind, Except.bind] at h
    split at h
    · rename_i block rest hblocks
      cases h
      have hstanding := hsound.standing
      rw [hblocks] at hstanding
      exact ⟨block.opener, List.mem_of_getElem? hstanding.uncons.1.opener, _, rfl⟩
    · cases h

/-- The labels of the items are their places. -/
theorem Compilation.nodup_labels (c : Compilation) : (c.items.map (·.label)).Nodup := by
  have hplace : ∀ (place : Nat) (h : place < (c.items.map (·.label)).length),
      (c.items.map (·.label))[place] = place := by
    intro place h
    rw [List.getElem_map]
    exact label_of_items (List.getElem?_eq_getElem _)
  refine List.pairwise_iff_getElem.mpr fun place place' h h' hlt => ?_
  rw [hplace, hplace]
  exact Nat.ne_of_lt hlt

/-- A template of ordinary tags has been assembled from items with labels of their own. -/
theorem Template.assembled_of_compile {t : Template} {engine : Engine} {name : Option String}
    {source : Value} {o : Overrides} {s s' : Store}
    (h : compile engine name source o s = .ok t s') (htags : OrdinaryTags t.grammar.tags) :
    ∃ items, (items.map (·.label)).Nodup ∧ Program.assemble items = .ok t.program := by
  obtain ⟨s₀, c, hp, -, -⟩ := program_of_compile h
  exact ⟨c.items, c.nodup_labels, (Compile.emitted_of_program htags hp).2⟩

/-- Each item has a token, the one that its instruction belongs to. -/
theorem Compilation.token_of_item {c : Compilation} {item : Item} (h : item ∈ c.items) :
    ∃ p ∈ c.draft.code, item.token = some p.2 := by
  obtain ⟨place, hplace⟩ := List.mem_iff_getElem?.mp h
  rw [items, List.getElem?_mapIdx] at hplace
  obtain ⟨p, hp, rfl⟩ := Option.map_eq_some_iff.mp hplace
  exact ⟨p, List.mem_of_getElem? hp, rfl⟩

/-- What has been taken in cannot be linked at the token of one of its instructions. -/
theorem Compilation.error_of_assemble {c : Compilation} {e : Error}
    (h : Program.assemble c.items = .error e) :
    ∃ p ∈ c.draft.code, ∃ fault, e = ⟨.template fault, some p.2, none⟩ := by
  obtain ⟨item, hmem, fault, rfl⟩ := Program.error_of_assemble c.nodup_labels h
  obtain ⟨q, -, hq⟩ := Compilation.token_of_item hmem
  obtain ⟨item', hmem', t, ht, htoken⟩ := tokenOf?_eq_some hmem (by rw [hq]; rfl)
  obtain ⟨p, hp, hptoken⟩ := Compilation.token_of_item hmem'
  obtain rfl := Option.some.inj (ht.symm.trans hptoken)
  rw [htoken]
  exact ⟨p, hp, fault, rfl⟩

namespace Compile

/-- **A compilation fails with an error of one of its tokens.** -/
theorem program_fails {tokens : List Token} {s : Store} {e : Error} {c : Compilation}
    (h : program Tag.standard tokens (.start s) = .error e c) : ∃ t ∈ tokens, e.OfToken t := by
  rcases bind_eq_error.mp h with h | ⟨u, c₁, hsource, h⟩
  · rw [source_apply] at h
    cases htokens : tokens.forM (token Tag.standard) (.start s) with
    | error e' c' =>
      rw [htokens] at h
      cases h
      exact tokens_fail htokens
    | ok u c' =>
      rw [htokens] at h
      dsimp only at h
      split at h
      · cases h
      · rename_i b outer hp
        cases h
        have hb : b ∈ c.pending := hp ▸ List.mem_cons_self
        exact ⟨b.token, (within_of_tokens htokens).pending b hb, .inl ⟨_, rfl⟩⟩
  · have hwithin := within_of_tokens (source_eq_ok_iff.mp hsource).1
    rw [bind_of_ok (get_apply c₁)] at h
    cases hassemble : Program.assemble c₁.items with
    | ok p =>
      rw [hassemble] at h
      cases h
    | error e' =>
      rw [hassemble] at h
      cases h
      obtain ⟨p, hp, fault, rfl⟩ := Compilation.error_of_assemble hassemble
      exact ⟨p.2, hwithin.code p hp, .inl ⟨fault, rfl⟩⟩

end Compile

/-! ## 5. A row of digits by itself -/

section Rows

variable {row : List Char}

theorem splitPipeline_digits (h : ∀ c ∈ row, isAsciiDigit c = true) :
    splitPipeline row = [row] := by
  induction row with
  | nil => rfl
  | cons c row ih =>
    obtain ⟨hc, hrow⟩ := List.forall_mem_cons.mp h
    unfold splitPipeline
    rw [if_neg fun hbar => ne_of_isAsciiDigit hc (by decide) hbar.1, ih hrow]

/-- A row of digits that is too long cannot be read. -/
theorem Expression.read_longRow (h : ∀ c ∈ row, isAsciiDigit c = true)
    (hlong : Decimal.digitLimit < row.length) :
    Expression.read row = .error (.value (.integerTooLong row.length)) := by
  have hne : row ≠ [] := by
    rintro rfl
    exact absurd hlong (Nat.not_lt_zero _)
  have hrow : readDigitRow row = .error (.value (.integerTooLong row.length)) := if_pos hlong
  have hoperand : Operand.read row = .error (.value (.integerTooLong row.length)) := by
    rw [Operand.read_digits hne h, hrow]
    rfl
  unfold Expression.read
  simp only [splitPipeline_digits h, strip_digits h, if_neg hne, hoperand]
  rfl

/-- A row of digits up to the closing delimiter behind it. -/
theorem Delimiters.body?_digits (h : ∀ c ∈ row, isAsciiDigit c = true) :
    body? ['\x7d', '\x7d'] (row ++ ['\x7d', '\x7d']) = some (row, []) := by
  induction row with
  | nil => rfl
  | cons c row ih =>
    obtain ⟨hc, hrow⟩ := List.forall_mem_cons.mp h
    have hcloser : ¬List.isPrefixOf ['\x7d', '\x7d'] (c :: (row ++ ['\x7d', '\x7d'])) = true := by
      intro hprefix
      obtain ⟨heq, -⟩ := List.cons_prefix_cons.mp (List.isPrefixOf_iff_prefix.mp hprefix)
      exact ne_of_isAsciiDigit hc (by decide) heq.symm
    rw [List.cons_append]
    unfold body?
    rw [if_neg hcloser, if_neg (ne_of_isAsciiDigit hc (by decide)), ih hrow]
    rfl

/-- A source of one expression that is a row of digits. -/
def rowSource (row : List Char) : String :=
  String.ofList ('\x7b' :: '\x7b' :: (row ++ ['\x7d', '\x7d']))

theorem tokens_rowSource (h : ∀ c ∈ row, isAsciiDigit c = true) :
    Delimiters.standard.tokens (rowSource row) =
      [⟨.expression, String.ofList row, 0, row.length + 4, 1⟩] := by
  generalize hcs : '\x7b' :: '\x7b' :: (row ++ ['\x7d', '\x7d']) = cs
  have hlength : cs.length = row.length + 4 := by
    rw [← hcs]
    simp
  have hmarker : Delimiters.standard.markerAt? cs = some (cs, []) := by
    have hnone : Delimiters.standard.markerOf? cs .statement = none := by
      rw [← hcs]
      rfl
    have hsome : Delimiters.standard.markerOf? cs .expression = some (cs, []) := by
      rw [← hcs]
      have hbody : Delimiters.body? (Delimiters.standard.closer .expression)
          (row ++ ['\x7d', '\x7d']) = some (row, []) := Delimiters.body?_digits h
      have hopener : (Delimiters.standard.opener .expression).isPrefixOf
          ('\x7b' :: '\x7b' :: (row ++ ['\x7d', '\x7d'])) = true := rfl
      unfold Delimiters.markerOf?
      rw [if_pos hopener]
      exact congrArg (Option.map _) hbody
    unfold Delimiters.markerAt? MarkerKind.all
    rw [List.findSome?_cons, hnone, List.findSome?_cons, hsome]
  have hsegments : Delimiters.standard.segments cs = [.marker cs] := by
    have hcons : ∃ c rest, cs = c :: rest := ⟨_, _, hcs.symm⟩
    obtain ⟨c, rest, rfl⟩ := hcons
    unfold Delimiters.segments
    split
    · rename_i m behind hm
      rw [hmarker] at hm
      cases hm
      unfold Delimiters.segments
      rfl
    · rename_i hm
      rw [hmarker] at hm
      cases hm
  have hopens : Delimiters.standard.opens? cs = some .expression := by
    rw [← hcs]
    rfl
  have hcontents : Delimiters.standard.contents .expression cs = row := by
    have hinner : slice 2 (cs.length - 2 : Int) cs = row := by
      have hstop : ((cs.length : Int) - 2) = ((row.length + 2 : Nat) : Int) := by omega
      unfold slice
      rw [hstop, if_neg (by omega), Int.toNat_natCast, ← hcs, List.drop_succ_cons,
        List.drop_succ_cons, List.drop_zero]
      exact List.take_left' rfl
    unfold Delimiters.contents
    dsimp only
    rw [if_neg (by decide)]
    exact (congrArg strip hinner).trans (strip_digits h)
  have htoken : Delimiters.standard.tokenOfMarker cs 0 (0 + cs.length) 1 =
      ⟨.expression, String.ofList row, 0, row.length + 4, 1⟩ := by
    unfold Delimiters.tokenOfMarker
    rw [hopens, hlength, Nat.zero_add]
    dsimp only
    rw [hcontents]
    rfl
  unfold Delimiters.tokens rowSource
  rw [String.toList_ofList, hcs, hsegments]
  exact congrArg (· :: []) htoken

/-- The usual engine attaches no place to an error. -/
theorem Template.compile_standard (source : String) (name : Option String) (s : Store) :
    compile .standard name (.plain source) .empty s =
      match Compile.program Tag.standard (Delimiters.standard.tokens source) (.start s) with
      | .ok program c =>
        .ok ⟨name, .standard, source, Grammar.standard, program, c.references.reverse.eraseDups⟩
          c.store
      | .error e c => .error e c.store := by
  have hplace : ∀ (s : Store) (e : Error), placeSyntax .standard source name s e = e := by
    intro s e
    unfold placeSyntax
    split <;> rfl
  have hcompile : compile .standard name (.plain source) .empty s =
      match Compile.program Tag.standard (Delimiters.standard.tokens source) (.start s) with
      | .ok program c =>
        .ok ⟨name, .standard, source, Grammar.standard, program, c.references.reverse.eraseDups⟩
          c.store
      | .error e c => .error (placeSyntax .standard source name c.store e) c.store := rfl
  simp only [hplace] at hcompile
  exact hcompile

/-- **An expression that is too long a row of digits** is refused with an error that is no syntax
error and has no token. -/
theorem compile_rowSource (h : ∀ c ∈ row, isAsciiDigit c = true)
    (hlong : Decimal.digitLimit < row.length) (name : Option String) (s : Store) :
    Template.compile .standard name (.plain (rowSource row)) .empty s =
      .error ⟨.value (.integerTooLong row.length), none, none⟩ s := by
  have hne : String.ofList row ≠ "" := by
    intro hempty
    have hnil : row = [] := by
      rw [← @String.toList_ofList row, hempty]
      rfl
    rw [hnil] at hlong
    exact absurd hlong (Nat.not_lt_zero _)
  have htoken : Compile.token Tag.standard ⟨.expression, String.ofList row, 0, row.length + 4, 1⟩
      (.start s) = .error ⟨.value (.integerTooLong row.length), none, none⟩ (.start s) := by
    unfold Compile.token
    dsimp only
    rw [if_neg hne, String.toList_ofList]
    refine bind_of_error ?_
    rw [Compile.locatedSyntax_apply, Compile.expression_apply, Expression.read_longRow h hlong]
    rfl
  have hprogram : Compile.program Tag.standard (Delimiters.standard.tokens (rowSource row))
      (.start s) = .error ⟨.value (.integerTooLong row.length), none, none⟩ (.start s) := by
    rw [tokens_rowSource h]
    exact bind_of_error (bind_of_error (bind_of_error htoken))
  rw [Template.compile_standard, hprogram]
  rfl

end Rows

/-! ## 6. Result -/

/-- **Where a compilation fails.**  With the usual engine, a source that does not compile is refused
with an error of one of its tokens: a syntax error with the token attached, or an error about a row
of digits of the token that is too long.  That one is no syntax error, and has the token attached
only if it is a statement. -/
theorem compile_faults (source : String) (name : Option String) (s : Store) {e : Error}
    {s' : Store}
    (h : Template.compile .standard name (.plain source) .empty s = .error e s') :
    (∃ t ∈ Delimiters.standard.tokens source, ∃ fault, e = ⟨.template fault, some t, none⟩) ∨
      ∃ t ∈ Delimiters.standard.tokens source, ∃ row, LongRow row t.contents.toList ∧
        (t.kind = .statement ∧ e = ⟨.value (.integerTooLong row.length), some t, none⟩ ∨
          t.kind = .expression ∧ e = ⟨.value (.integerTooLong row.length), none, none⟩) := by
  rw [Template.compile_standard] at h
  split at h
  · cases h
  rename_i e' c hp
  cases h
  obtain ⟨t, ht, hfault | hrow⟩ := Compile.program_fails hp
  · exact .inl ⟨t, ht, hfault⟩
  · exact .inr ⟨t, ht, hrow⟩

/-- The error of a compilation, if it fails. -/
def faultOf (source : String) : Option Error :=
  match Template.compile .standard none (.plain source) .empty .empty with
  | .ok .. => none
  | .error e _ => some e

/-- A filter without a value, in a statement: the syntax error has the statement's token. -/
theorem compile_faults_statement : ∃ e s',
    Template.compile .standard none (.plain "\x7b% if |x %\x7d") .empty .empty = .error e s' ∧
      ∃ t ∈ Delimiters.standard.tokens "\x7b% if |x %\x7d", ∃ fault,
        e = ⟨.template fault, some t, none⟩ := by
  have hkind : (faultOf "\x7b% if |x %\x7d").map (·.kind) = some .templateSyntax := by
    decide +kernel
  unfold faultOf at hkind
  split at hkind
  · cases hkind
  · rename_i e s' h
    refine ⟨e, s', h, ?_⟩
    rcases compile_faults _ none .empty h with hfault | ⟨t, -, row, -, ⟨-, rfl⟩ | ⟨-, rfl⟩⟩
    · exact hfault
    · cases hkind
    · cases hkind

/-- An expression with one digit more than the limit allows. -/
def longSource : String := rowSource (List.replicate (Decimal.digitLimit + 1) '1')

/-- **The error of an expression may have no token**, and is no syntax error then. -/
theorem long_row_has_no_token : ∃ e s',
    Template.compile .standard none (.plain longSource) .empty .empty = .error e s' ∧
      e.kind = .badValue ∧ e.token = none := by
  have hdigits : ∀ c ∈ List.replicate (Decimal.digitLimit + 1) '1', isAsciiDigit c = true := by
    intro c hc
    obtain ⟨-, rfl⟩ := List.mem_replicate.mp hc
    rfl
  have hlong : Decimal.digitLimit < (List.replicate (Decimal.digitLimit + 1) '1').length := by
    rw [List.length_replicate]
    exact Nat.lt_succ_self _
  exact ⟨_, _, compile_rowSource hdigits hlong none .empty, rfl, rfl⟩

end TextTemplate
