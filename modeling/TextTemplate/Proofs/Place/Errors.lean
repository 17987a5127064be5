/-
# Whose token an error shows

A debugging engine shows a syntax error in the source that is compiled, at the token that the error
has.  A tag may compile another template, though, and then the error may come from in there, with a
token of the other source; a token that is attached already stays.  So the place that is shown is
the one of a token of the source exactly where the token, or another one at the same positions, is
one of the source, and lies in one line.

* `Eval.Bare` says that a computation on values attaches nothing to its errors;
* `Tag.Brings` says that a tag brings a token in, `Compile.BroughtIn` that a statement of a source
  names such a tag;
* `Compile.of_program` says that every token is one of the source or brought in;
* `Template.compile_place` is the result.
-/
import TextTemplate.Extras.Tags
import TextTemplate.Proofs.Compile.Bracketing
import TextTemplate.Proofs.Compile.Faults
import TextTemplate.Proofs.Place.Markers

namespace TextTemplate

open TextTemplate.Outcome TextTemplate.Text

/-! ## 1. Computations on values -/

/-- The computation attaches nothing to its errors. -/
def Eval.Bare {α : Type} (x : Eval α) : Prop :=
  ∀ s e s', x s = .error e s' → ∃ cause, e = Error.of cause

namespace Eval.Bare

variable {α β : Type} {x : Eval α} {f : α → Eval β}

/-- A computation that does not fail. -/
theorem done (h : ∀ s, ∃ a s', x s = .ok a s') : Bare x := by
  intro s e s' he
  obtain ⟨a, s₁, hok⟩ := h s
  rw [hok] at he
  cases he

theorem pure (a : α) : Bare (Pure.pure a) := .done fun s => ⟨a, s, rfl⟩

theorem fail (cause : Cause) : Bare (Eval.fail cause : Eval α) := by
  rintro s e s' ⟨⟩
  exact ⟨cause, rfl⟩

theorem bind (hx : Bare x) (hf : ∀ a, Bare (f a)) : Bare (x >>= f) := by
  intro s e s' h
  rcases bind_eq_error.mp h with h | ⟨a, s₁, -, h⟩
  · exact hx s e s' h
  · exact hf a s₁ e s' h

theorem get : Bare (MonadState.get : Eval Store) := .done fun s => ⟨s, s, rfl⟩

theorem make (g : Store → α × Store) : Bare (Eval.make g) := .done fun _ => ⟨_, _, rfl⟩

theorem read (g : Store → Except Cause α) : Bare (Eval.read g) :=
  .bind .get fun s => by
    cases g s with
    | ok a => exact .pure a
    | error cause => exact .fail cause

theorem mapM {g : α → Eval β} (hg : ∀ a, Bare (g a)) : ∀ as : List α, Bare (as.mapM g)
  | [] => .pure []
  | a :: as => by
    rw [List.mapM_cons]
    exact .bind (hg a) fun b => .bind (mapM hg as) fun bs => .pure (b :: bs)

theorem text (v : Value) : Bare (Eval.text v) := .read _

theorem pairTuples : ∀ d : Dict, Bare (Eval.pairTuples d)
  | [] => .pure []
  | _ :: rest =>
    .bind (.make _) fun pair => .bind (pairTuples rest) fun pairs => .pure (pair :: pairs)

theorem streamWithin : ∀ (fuel : Nat) (v : Value), Bare (Eval.streamWithin fuel v)
  | 0, _ => .pure none
  | fuel + 1, v => by
    refine .bind .get fun s => ?_
    cases v with
    | object r =>
      dsimp only
      split
      · refine .bind (streamWithin fuel _) fun st => ?_
        cases st with
        | none => exact .pure _
        | some st => exact .pure _
      · exact .pure _
      · exact .pure _
    | view kind r i =>
      cases kind with
      | pairs => exact .bind (pairTuples _) fun pairs => .pure _
      | keys => exact .pure _
      | values => exact .pure _
    | _ => exact .pure _

theorem stream? (v : Value) : Bare (Eval.stream? v) := .bind .get fun s => streamWithin s.depth v

theorem items (v : Value) : Bare (Eval.items v) :=
  .bind (stream? v) fun st => by
    cases st with
    | none => exact .fail _
    | some st => exact .read _

end Eval.Bare

namespace Delimiters

open Eval

theorem bare_sortedNames (given : List Value) : Bare (sortedNames given) :=
  .bind .get fun s => by
    dsimp only
    split
    · exact .fail _
    · refine .mapM (fun p => ?_) _
      split
      · exact .pure _
      · exact .fail _

theorem bare_givenKeys (v : Value) : Bare (givenKeys v) :=
  .bind (.stream? v) fun st => by
    cases st with
    | none => exact .fail _
    | some st =>
      refine .bind (.mapM (fun key => .read _) _) fun keys => ?_
      cases st.failure with
      | none => exact .pure keys
      | some cause => exact .fail cause

theorem bare_checkKinds (v : Value) : Bare (checkKinds v) :=
  .bind (bare_givenKeys v) fun keys => by
    dsimp only
    split
    · exact .pure ()
    · exact .bind (.items v) fun given => .bind (bare_sortedNames given) fun names => .fail _

theorem bare_givenPair (v : Value) (k : MarkerKind) : Bare (givenPair v k) :=
  .bind (.read _) fun given => .bind .get fun s => by
    split
    · exact .pure _
    · refine .bind .get fun s => ?_
      split
      · exact .fail _
      · exact .fail _

theorem bare_ofValue (v : Value) : Bare (ofValue v) :=
  .bind (bare_checkKinds v) fun _ => .bind (bare_givenPair v _) fun _ =>
    .bind (bare_givenPair v _) fun _ => .bind (bare_givenPair v _) fun _ => .read _

end Delimiters

/-- Choosing a grammar attaches nothing to an error. -/
theorem Grammar.bare_clone (g : Grammar) (o : Overrides) : Eval.Bare (g.clone o) := by
  refine .bind ?_ fun d => .pure _
  unfold chooseDelimiters
  split
  · exact .pure _
  · exact Delimiters.bare_ofValue _

/-! ## 2. Tokens that are brought in -/

/-- A token that stands in a compilation, with an instruction or with an open block. -/
def Compilation.Holds (c : Compilation) (t : Token) : Prop :=
  (∃ p ∈ c.code, p.2 = t) ∨ ∃ b ∈ c.pending, b.token = t

namespace Compile

/-- The outcome of a step has a token: in the error, or in the compilation that it leaves. -/
def Has {α : Type} (t : Token) : EStateM.Result Error Compilation α → Prop
  | .ok _ c => c.Holds t
  | .error e _ => e.token = some t

end Compile

/-- A tag brings a token in: the outcome has it, and it did not stand there before. -/
def Tag.Brings (tag : Tag) (remainder : List Char) (c : Compilation) (t : Token) : Prop :=
  Compile.Has t (tag.run remainder c) ∧ ¬c.Holds t

/-- A statement names a tag that brings a token in. -/
def Token.BringsIn (u : Token) (tags : Table Tag) (c : Compilation) (t : Token) : Prop :=
  ∃ tag, u.Calls tags (innermost c.pending) tag ∧ tag.Brings u.remainder c t

namespace Compile

/-- One of the tokens is a statement that brings a token in, when it is reached. -/
def BroughtIn (tags : Table Tag) (tokens : List Token) (c : Compilation) (t : Token) : Prop :=
  ∃ before u after c', tokens = before ++ u :: after ∧
    before.forM (token tags) c = .ok () c' ∧ u.BringsIn tags c' t

/-- A step brings no token in but one. -/
def Own {α : Type} (u : Token) (x : Compile α) : Prop :=
  ∀ c t, Has t (x c) → t = u ∨ c.Holds t

section Steps

variable {α β : Type} {u t : Token} {x : Compile α} {f : α → Compile β} {c : Compilation}

/-- What the outcome of two steps has, the outcome of the first one has, if the second one is an
own one. -/
theorem has_bind (hf : ∀ a, Own u (f a)) (h : Has t ((x >>= f) c)) : t = u ∨ Has t (x c) := by
  rw [bind_apply] at h
  cases hx : x c with
  | ok a c' =>
    rw [hx] at h
    exact hf a c' t h
  | error e c' =>
    rw [hx] at h
    exact .inr h

theorem has_located (h : Has t (located u x c)) : t = u ∨ Has t (x c) := by
  rw [located_apply] at h
  cases hx : x c with
  | ok a c' =>
    rw [hx] at h
    exact .inr h
  | error e c' =>
    rw [hx] at h
    unfold Has Error.at? at h
    cases htoken : e.token with
    | none =>
      simp only [htoken] at h
      exact .inl (Option.some.inj h).symm
    | some t' =>
      simp only [htoken] at h
      exact .inr (htoken.trans h)

namespace Own

theorem bind (hx : Own u x) (hf : ∀ a, Own u (f a)) : Own u (x >>= f) := by
  intro c t h
  rcases has_bind hf h with rfl | h
  · exact .inl rfl
  · exact hx c t h

theorem pure (a : α) : Own u (Pure.pure a : Compile α) := fun _ _ h => .inr h

theorem refuse (cause : Cause) : Own u (located u (fail cause) : Compile α) := by
  intro c t h
  exact .inl (Option.some.inj h).symm

/-- Instructions that belong to the token. -/
theorem emit (code : List Instruction) : Own u (emit code u) := by
  rintro c t (⟨p, hp, rfl⟩ | hb)
  · rcases List.mem_append.mp hp with hp | hp
    · obtain ⟨i, -, rfl⟩ := List.mem_map.mp (List.mem_reverse.mp hp)
      exact .inl rfl
    · exact .inr (.inl ⟨p, hp, rfl⟩)
  · exact .inr (.inr hb)

theorem tagResult (command : String) (r : TagResult) : Own u (tagResult u command r) := by
  cases r with
  | inline code => exact .emit code
  | other v =>
    intro c t h
    exact refuse _ c t h
  | block start ending close =>
    refine .bind (.emit start) fun _ => ?_
    cases ending with
    | none => exact .pure ()
    | some row =>
      rintro c t (hp | ⟨b, hb, rfl⟩)
      · exact .inr (.inl hp)
      · rcases List.mem_cons.mp hb with rfl | hb
        · exact .inl rfl
        · exact .inr (.inr ⟨b, hb, rfl⟩)

/-- Reading an expression has no token. -/
theorem expression (cs : List Char) : Own u (locatedSyntax u (expression cs)) := by
  intro c t h
  rw [locatedSyntax_apply, expression_apply] at h
  split at h
  · rename_i e c' hread
    cases hr : Expression.read cs with
    | error cause =>
      rw [hr] at hread
      cases hread
    | ok e =>
      rw [hr] at hread
      cases hread
      exact .inr h
  · rename_i e c' hread
    cases hr : Expression.read cs with
    | ok e =>
      rw [hr] at hread
      cases hread
    | error cause =>
      rw [hr] at hread
      cases hread
      dsimp only [Has] at h
      split at h
      · exact .inl (Option.some.inj h).symm
      · cases h

/-- A token that is no statement. -/
theorem token (tags : Table Tag) (hk : u.kind ≠ .statement) : Own u (token tags u) := by
  unfold Compile.token
  split
  · split
    · exact .pure ()
    · exact .emit _
  · split
    · exact .refuse _
    · exact .bind (.expression _) fun e => .emit _
  · rename_i hstatement
    exact absurd hstatement hk
  · exact .pure ()

end Own

/-- The statement that closes the innermost block. -/
theorem of_pop {code : List Instruction} (h : (c.pop.add code u).Holds t) : t = u ∨ c.Holds t := by
  rcases h with ⟨q, hq, rfl⟩ | ⟨b, hb, rfl⟩
  · rcases List.mem_append.mp hq with hq | hq
    · obtain ⟨i, -, rfl⟩ := List.mem_map.mp (List.mem_reverse.mp hq)
      exact .inl rfl
    · exact .inr (.inl ⟨q, hq, rfl⟩)
  · exact .inr (.inr ⟨b, List.mem_of_mem_tail hb, rfl⟩)

/-- **A statement** is refused with its own token, closes a block, or does what its tag says. -/
theorem statement_cases (tags : Table Tag) (c : Compilation) (hk : u.kind = .statement) :
    (∃ cause, token tags u c = .error ⟨cause, some u, none⟩ c) ∨
      (∃ code, token tags u c = .ok () (c.pop.add code u)) ∨
      ∃ tag, u.Calls tags (innermost c.pending) tag ∧
        token tags u c = (located u (tag.run u.remainder) >>= tagResult u u.word) c := by
  by_cases hc : u.command = []
  · exact .inl ⟨_, token_of_blank hk hc⟩
  by_cases ho : innermost c.pending = some u.word
  · cases hp : c.pending with
    | nil =>
      rw [hp] at ho
      cases ho
    | cons p outer =>
      rw [hp] at ho
      exact .inr (.inl ⟨p.ending, token_of_ends ⟨hk, hc, (Option.some.inj ho).symm⟩ hp⟩)
  · cases hf : tags.find? u.word with
    | none => exact .inl ⟨_, token_of_unknown hk hc ho hf⟩
    | some tag =>
      have hcalls : u.Calls tags (innermost c.pending) tag := ⟨hk, hc, ho, hf⟩
      exact .inr (.inr ⟨tag, hcalls, token_of_calls hcalls⟩)

/-- **What a token leads to**: the outcome has its own token, one that stands there already, or one
that its tag brings in. -/
theorem of_token {tags : Table Tag} (h : Has t (token tags u c)) :
    t = u ∨ c.Holds t ∨ u.BringsIn tags c t := by
  by_cases hk : u.kind = .statement
  case neg => exact (Own.token tags hk c t h).imp_right .inl
  rcases statement_cases tags c hk with ⟨cause, hr⟩ | ⟨code, hr⟩ | ⟨tag, hcalls, hr⟩
  · rw [hr] at h
    exact .inl (Option.some.inj h).symm
  · rw [hr] at h
    exact (of_pop h).imp_right .inl
  · rw [hr] at h
    rcases has_bind (Own.tagResult u.word) h with rfl | h
    · exact .inl rfl
    · rcases has_located h with rfl | h
      · exact .inl rfl
      · by_cases hholds : c.Holds t
        · exact .inr (.inl hholds)
        · exact .inr (.inr ⟨tag, hcalls, h, hholds⟩)

/-- **What a row of tokens leads to**: the outcome has one of the tokens, one that stood there
before, or one that is brought in. -/
theorem of_tokens {tags : Table Tag} : ∀ {tokens : List Token} {c : Compilation},
    Has t (tokens.forM (token tags) c) → c.Holds t ∨ t ∈ tokens ∨ BroughtIn tags tokens c t
  | [], _, h => .inl h
  | u :: tokens, c, h => by
    have hforM : (u :: tokens).forM (token tags) =
        token tags u >>= fun _ => tokens.forM (token tags) := rfl
    -- what the first token leads to, whether the rest is reached or not
    have first : Has t (token tags u c) →
        c.Holds t ∨ t ∈ u :: tokens ∨ BroughtIn tags (u :: tokens) c t := by
      intro hu
      rcases of_token hu with rfl | hholds | hbrings
      · exact .inr (.inl List.mem_cons_self)
      · exact .inl hholds
      · exact .inr (.inr ⟨[], u, tokens, c, rfl, rfl, hbrings⟩)
    rw [hforM, bind_apply] at h
    cases hu : token tags u c with
    | error e c' =>
      rw [hu] at h first
      exact first h
    | ok a c' =>
      rw [hu] at h first
      rcases of_tokens h with hholds | hmem | ⟨before, v, after, c'', rfl, hbefore, hbrings⟩
      · exact first hholds
      · exact .inr (.inl (List.mem_cons_of_mem u hmem))
      · refine .inr (.inr ⟨u :: before, v, after, c'', rfl, ?_, hbrings⟩)
        have hcons : (u :: before).forM (token tags) =
            token tags u >>= fun _ => before.forM (token tags) := rfl
        rw [hcons, bind_of_ok hu]
        exact hbefore

/-- **The token of an error** of a compilation is one of its tokens, or brought in. -/
theorem of_program {tags : Table Tag} {tokens : List Token} {s : Store} {e : Error}
    {c : Compilation} (h : program tags tokens (.start s) = .error e c) (ht : e.token = some t) :
    t ∈ tokens ∨ BroughtIn tags tokens (.start s) t := by
  have hstart : ¬(Compilation.start s).Holds t := by
    rintro (⟨p, hp, -⟩ | ⟨b, hb, -⟩)
    · exact absurd hp List.not_mem_nil
    · exact absurd hb List.not_mem_nil
  have of_has : Has t (tokens.forM (token tags) (.start s)) →
      t ∈ tokens ∨ BroughtIn tags tokens (.start s) t :=
    fun h => (of_tokens h).resolve_left hstart
  rcases bind_eq_error.mp h with h | ⟨_, c₁, hsource, h⟩
  · rw [source_apply] at h
    cases htokens : tokens.forM (token tags) (.start s) with
    | error e' c' =>
      rw [htokens] at h of_has
      cases h
      exact of_has ht
    | ok _ c' =>
      rw [htokens] at h of_has
      dsimp only at h
      split at h
      · cases h
      · rename_i b outer hp
        cases h
        have hb : b.token = t := Option.some.inj ht
        exact of_has (.inr ⟨b, hp ▸ List.mem_cons_self, hb⟩)
  · rw [bind_of_ok (get_apply c₁)] at h
    rw [(source_eq_ok_iff.mp hsource).1] at of_has
    cases hassemble : Program.assemble c₁.items with
    | ok p =>
      rw [hassemble] at h
      cases h
    | error e' =>
      rw [hassemble] at h
      cases h
      obtain ⟨p, hp, fault, rfl⟩ := Compilation.error_of_assemble hassemble
      have hpt : p.2 = t := Option.some.inj ht
      exact of_has (.inl ⟨p, List.mem_reverse.mp hp, hpt⟩)

end Steps

/-! ## 3. Syntax errors -/

/-- Every syntax error of the step has a token. -/
def Marked {α : Type} (x : Compile α) : Prop :=
  ∀ c e c', x c = .error e c' → e.kind = .templateSyntax → ∃ t, e.token = some t

namespace Marked

variable {α β : Type} {u : Token} {x : Compile α} {f : α → Compile β}

theorem done (h : ∀ c, ∃ a c', x c = .ok a c') : Marked x := by
  intro c e c' he
  obtain ⟨a, c₁, hok⟩ := h c
  rw [hok] at he
  cases he

theorem bind (hx : Marked x) (hf : ∀ a, Marked (f a)) : Marked (x >>= f) := by
  intro c e c' h hkind
  rcases bind_eq_error.mp h with h | ⟨a, c₁, -, h⟩
  · exact hx c e c' h hkind
  · exact hf a c₁ e c' h hkind

/-- The token of an error that has been attached, unless there was one. -/
theorem of_at? (e : Error) (u : Token) : ∃ t, (e.at? u).token = some t := by
  unfold Error.at?
  split
  · rename_i t ht
    exact ⟨t, ht⟩
  · exact ⟨u, rfl⟩

theorem located (u : Token) (x : Compile α) : Marked (located u x) := by
  intro c e c' h _
  rw [located_apply] at h
  split at h
  · cases h
  · cases h
    exact of_at? _ u

theorem locatedSyntax (u : Token) (x : Compile α) : Marked (locatedSyntax u x) := by
  intro c e c' h hkind
  rw [locatedSyntax_apply] at h
  split at h
  · cases h
  · rename_i e₁ c₁ hx
    cases h
    by_cases hfault : e₁.kind = .templateSyntax
    · rw [if_pos hfault]
      exact of_at? e₁ u
    · rw [if_neg hfault] at hkind
      exact absurd hkind hfault

theorem emit (code : List Instruction) (u : Token) : Marked (emit code u) :=
  .done fun _ => ⟨_, _, rfl⟩

theorem tagResult (u : Token) (command : String) (r : TagResult) :
    Marked (tagResult u command r) := by
  cases r with
  | inline code => exact .emit code u
  | other v =>
    intro c e c' h hkind
    exact located u _ c e c' h hkind
  | block start ending close =>
    refine .bind (.emit start u) fun _ => ?_
    cases ending with
    | none => exact .done fun _ => ⟨_, _, rfl⟩
    | some row => exact .done fun _ => ⟨_, _, rfl⟩

theorem token (tags : Table Tag) (u : Token) : Marked (token tags u) := by
  by_cases hk : u.kind = .statement
  · intro c e c' h hkind
    rcases statement_cases tags c hk with ⟨cause, hr⟩ | ⟨code, hr⟩ | ⟨tag, -, hr⟩
    · rw [hr] at h
      cases h
      exact ⟨u, rfl⟩
    · rw [hr] at h
      cases h
    · rw [hr] at h
      exact bind (located u _) (tagResult u u.word) c e c' h hkind
  · unfold Compile.token
    split
    · split
      · exact .done fun _ => ⟨_, _, rfl⟩
      · exact .emit _ u
    · split
      · exact .located u _
      · exact .bind (.locatedSyntax u _) fun _ => .emit _ u
    · rename_i hstatement
      exact absurd hstatement hk
    · exact .done fun _ => ⟨_, _, rfl⟩

theorem tokens (tags : Table Tag) : ∀ tokens : List Token, Marked (tokens.forM (Compile.token tags))
  | [] => .done fun _ => ⟨_, _, rfl⟩
  | u :: us => .bind (token tags u) fun _ => tokens tags us

theorem program (tags : Table Tag) (us : List Token) : Marked (program tags us) := by
  intro c e c' h hkind
  rcases bind_eq_error.mp h with h | ⟨_, c₁, -, h⟩
  · rw [source_apply] at h
    cases htokens : us.forM (Compile.token tags) c with
    | error e' c₁ =>
      rw [htokens] at h
      cases h
      exact tokens tags us c e c' htokens hkind
    | ok _ c₁ =>
      rw [htokens] at h
      dsimp only at h
      split at h
      · cases h
      · cases h
        exact ⟨_, rfl⟩
  · rw [bind_of_ok (get_apply c₁)] at h
    cases hassemble : Program.assemble c₁.items with
    | ok p =>
      rw [hassemble] at h
      cases h
    | error e' =>
      rw [hassemble] at h
      cases h
      obtain ⟨p, -, fault, rfl⟩ := Compilation.error_of_assemble hassemble
      exact ⟨p.2, rfl⟩

end Marked
end Compile

/-! ## 4. Places -/

/-- What debugging information says of the source that is compiled: the place is that of one of its
tokens, and the text shown there is that of the source. -/
structure DebugInfo.Describes (info : DebugInfo) (d : Delimiters) (source : String) : Prop where
  token : ∃ t ∈ d.tokens source, info.start = t.start ∧ info.stop = t.stop
  during : info.during =
    escapeMarkup (String.ofList (source.toList.extract info.start info.stop))

/-- **A place describes the source** if it is that of one of its tokens that lies in one line, and
only then. -/
theorem DebugInfo.describes_of_iff {d : Delimiters} {source : String} {name : Option String}
    {message : String} {start stop : Nat} :
    (DebugInfo.of source.toList name message start stop).Describes d source ↔
      ∃ t ∈ d.tokens source, start = t.start ∧ stop = t.stop ∧
        InOneLine source.toList start stop := by
  constructor
  · rintro ⟨⟨t, ht, rfl, rfl⟩, hduring⟩
    obtain ⟨hlt, hstop⟩ := Delimiters.bounds_of_mem_tokens ht
    refine ⟨t, ht, rfl, rfl, Decidable.of_not_not fun hmany => ?_⟩
    rw [DebugInfo.during_of name message hlt hstop hmany] at hduring
    exact excerpt_ne_empty hlt hstop ((excerpt_eq _ _ _).trans hduring.symm)
  · rintro ⟨t, ht, rfl, rfl, hone⟩
    obtain ⟨hlt, hstop⟩ := Delimiters.bounds_of_mem_tokens ht
    exact ⟨⟨t, ht, rfl, rfl⟩, (DebugInfo.shows_of name message hlt hstop hone).during⟩

namespace Template

/-- **A debugging engine places a syntax error** at its token, in the source that is compiled. -/
theorem of_placeSyntax {engine : Engine} (hdebug : engine.debugging = true) {source : String}
    {name : Option String} {s : Store} {e : Error} {t : Token} (ht : e.token = some t)
    (hkind : (placeSyntax engine source name s e).kind = .templateSyntax) :
    (placeSyntax engine source name s e).token = some t ∧
      ∃ message, (placeSyntax engine source name s e).debug =
        some (DebugInfo.of source.toList name message t.start t.stop) := by
  unfold placeSyntax at hkind ⊢
  simp only [ht, hdebug, Bool.true_and] at hkind ⊢
  by_cases hfault : e.kind = .templateSyntax
  · simp only [hfault, decide_true, if_true] at hkind ⊢
    by_cases hlong : e.cause.argumentText s = .unprintable
    · rw [Error.placed_of_unprintable hlong] at hkind
      cases hkind
    · obtain ⟨message, hplaced⟩ := Error.placed_of_printable hlong source name t
      rw [hplaced]
      exact ⟨ht, message, rfl⟩
  · simp only [hfault, decide_false] at hkind
    exact absurd hkind hfault

/-- Only a syntax error is placed, and none that is placed becomes one. -/
theorem kind_of_placeSyntax {engine : Engine} {source : String} {name : Option String} {s : Store}
    {e : Error} (hkind : (placeSyntax engine source name s e).kind = .templateSyntax) :
    e.kind = .templateSyntax := by
  unfold placeSyntax at hkind
  split at hkind
  · split at hkind
    · rename_i hplaced
      exact of_decide_eq_true (Bool.and_eq_true_iff.mp hplaced).2
    · exact hkind
  · exact hkind

/-- **Whose place a syntax error gets.**  Let a debugging engine refuse a source with a syntax error
that carries a place, whatever its tags do.  Then the error has a token, and the place is the one
that this token's positions have in the source.  The token is one of the source, or a statement of
the source names a tag that brings it in, as an error of another compilation does.  The place
describes the source exactly if one of the tokens of the source is at these positions, and in one
line; a marker of the source is in one line if no delimiter contains a line feed. -/
theorem compile_place {engine : Engine} (hdebug : engine.debugging = true) {name : Option String}
    {v : Value} {o : Overrides} {s s' : Store} {e : Error} {info : DebugInfo}
    (h : compile engine name v o s = .error e s') (hkind : e.kind = .templateSyntax)
    (hinfo : e.debug = some info) :
    ∃ source s₁ grammar s₂, Eval.text v s = .ok source s₁ ∧
      engine.grammar.clone o s₁ = .ok grammar s₂ ∧
      ∃ t, e.token = some t ∧ info.start = t.start ∧ info.stop = t.stop ∧
        (t ∈ grammar.delimiters.tokens source ∨
          Compile.BroughtIn grammar.tags (grammar.delimiters.tokens source) (.start s₂) t) ∧
        (info.Describes grammar.delimiters source ↔
          ∃ u ∈ grammar.delimiters.tokens source, t.start = u.start ∧ t.stop = u.stop ∧
            InOneLine source.toList t.start t.stop) ∧
        (grammar.delimiters.OneLine → t ∈ grammar.delimiters.tokens source → t.kind ≠ .text →
          info.Describes grammar.delimiters source) := by
  have not_bare : ∀ cause, e ≠ Error.of cause := by
    rintro cause rfl
    cases hinfo
  rcases bind_eq_error.mp h with h | ⟨source, s₁, htext, h⟩
  · obtain ⟨cause, rfl⟩ := Eval.Bare.text v s e s' h
    exact absurd rfl (not_bare cause)
  rcases bind_eq_error.mp h with h | ⟨grammar, s₂, hgrammar, h⟩
  · obtain ⟨cause, rfl⟩ := engine.grammar.bare_clone o s₁ e s' h
    exact absurd rfl (not_bare cause)
  refine ⟨source, s₁, grammar, s₂, htext, hgrammar, ?_⟩
  split at h
  · cases h
  rename_i e₁ c hprogram
  cases h
  obtain ⟨t, ht⟩ := Compile.Marked.program _ _ _ _ _ hprogram (kind_of_placeSyntax hkind)
  obtain ⟨htoken, message, hplace⟩ := of_placeSyntax hdebug ht hkind
  obtain rfl := Option.some.inj (hinfo.symm.trans hplace)
  refine ⟨t, htoken, rfl, rfl, Compile.of_program hprogram ht, DebugInfo.describes_of_iff, ?_⟩
  intro hone hmem hmarker
  have hline := Delimiters.inOneLine_of_mem_tokens hone hmem hmarker
  exact DebugInfo.describes_of_iff.mpr ⟨t, hmem, rfl, rfl, hline⟩

/-- An engine that reports places, with the standard tags and the further ones. -/
def debugging : Engine :=
  { Engine.standard with
    debug := .bool true
    debugging := true
    grammar := Grammar.standard.withLibrary (Library.extras fun _ => .badValue) }

/-- The error of a compilation with this engine, if it fails. -/
def errorOf (source : String) : Option Error :=
  match compile debugging none (.plain source) .empty .empty with
  | .ok .. => none
  | .error e _ => some e

theorem compile_of_errorOf {source : String} {e : Error} (h : errorOf source = some e) :
    ∃ s', compile debugging none (.plain source) .empty .empty = .error e s' := by
  unfold errorOf at h
  split at h
  · cases h
  · rename_i s' hcompile
    cases h
    exact ⟨s', hcompile⟩

/-- A condition that is missing, behind a text: the place describes the source. -/
theorem compile_place_condition : ∃ e s' info,
    compile debugging none (.plain "a\x7b% if %\x7d") .empty .empty = .error e s' ∧
      e.kind = .templateSyntax ∧ e.debug = some info ∧
      info.Describes Delimiters.standard "a\x7b% if %\x7d" := by
  have herror : (errorOf "a\x7b% if %\x7d").map (fun e => (e.kind, e.token, e.debug.isSome)) =
      some (.templateSyntax, some ⟨.statement, "if", 1, 9, 1⟩, true) := by decide +kernel
  obtain ⟨e, he, hfound⟩ := Option.map_eq_some_iff.mp herror
  obtain ⟨s', h⟩ := compile_of_errorOf he
  have hkind : e.kind = .templateSyntax := congrArg (·.1) hfound
  have htoken : e.token = some ⟨.statement, "if", 1, 9, 1⟩ := congrArg (·.2.1) hfound
  obtain ⟨info, hinfo⟩ := Option.isSome_iff_exists.mp (congrArg (·.2.2) hfound)
  obtain ⟨source, s₁, grammar, s₂, hsource, hgrammar, t, ht, -, -, -, hiff, -⟩ :=
    compile_place rfl h hkind hinfo
  cases hsource
  cases hgrammar
  obtain rfl := Option.some.inj (htoken.symm.trans ht)
  exact ⟨e, s', info, h, hkind, hinfo, hiff.mpr (by decide +kernel)⟩

/-- **An error from inside gets a place that is none of the source's.**  The tag compiles what
stands behind its name; the empty expression in there is at the first four characters of its own
source, and the first four characters of the statement are shown. -/
theorem nested_error_misplaced : ∃ e s' info,
    compile debugging none (.plain "\x7b% nest \x7b\x7b\x7d\x7d %\x7d") .empty .empty =
        .error e s' ∧
      e.kind = .templateSyntax ∧ e.debug = some info ∧ info.during = "\x7b% n" ∧
      ¬info.Describes Delimiters.standard "\x7b% nest \x7b\x7b\x7d\x7d %\x7d" := by
  have herror : (errorOf "\x7b% nest \x7b\x7b\x7d\x7d %\x7d").map
      (fun e => (e.kind, e.debug.map fun info => (info.start, info.stop, info.during))) =
        some (.templateSyntax, some (0, 4, "\x7b% n")) := by decide +kernel
  obtain ⟨e, he, hfound⟩ := Option.map_eq_some_iff.mp herror
  obtain ⟨s', h⟩ := compile_of_errorOf he
  obtain ⟨info, hinfo, hplace⟩ := Option.map_eq_some_iff.mp (congrArg (·.2) hfound)
  refine ⟨e, s', info, h, congrArg (·.1) hfound, hinfo, congrArg (·.2.2) hplace, ?_⟩
  rintro ⟨⟨t, ht, hstart, hstop⟩, -⟩
  have hnone : ∀ t ∈ Delimiters.standard.tokens "\x7b% nest \x7b\x7b\x7d\x7d %\x7d",
      ¬(0 = t.start ∧ 4 = t.stop) := by decide +kernel
  refine hnone t ht ⟨?_, ?_⟩
  · rw [← hstart]
    exact (congrArg (·.1) hplace).symm
  · rw [← hstop]
    exact (congrArg (·.2.1) hplace).symm

end Template
end TextTemplate
