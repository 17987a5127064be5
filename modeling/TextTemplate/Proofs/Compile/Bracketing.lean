/-
# Sources are put into brackets

Which sources a compilation takes in depends on the tags by what they give: instructions, or a block
with or without an end, and the statement that closes it.  Take any table of tags that give one of
these, never fail, and leave the open blocks to the compilation; a tag is not shown the code that
has been collected (`Parsing`), so it cannot add any itself.  Then the sources that are taken
in are the ones that can be put into brackets.  A tag that gives a block with an end is an opening
bracket.  A statement whose word closes the innermost open block is the closing one, whatever tag
there may be of that name.  Every other statement names a tag, no statement is blank, and nothing is
left open.

What the tags give depends on what has been taken in before, so a bracketing is laid over a
compilation from the left to the right (`Bracketing.Fits`), and its instructions stand where it has
them (`Bracketing.code`).

* `Bracketing` is the form of a source, `Bracketing.Fits` what each part of it asks;
* `Reached` is a place of a source, with the blocks that are open there;
* `Refused` says why a source cannot be put into brackets, and where;
* `source_bracketed` is the result.
-/
import TextTemplate.Proofs.Compile.Source
import TextTemplate.Extras.Tags

namespace TextTemplate

open TextTemplate.Decimal TextTemplate.Text TextTemplate.Outcome

/-! ## 1. Tags -/

/-- Each tag gives instructions or a block, whatever stands behind its name, does not fail, and
leaves the open blocks as they are. -/
def OrderlyTags (tags : Table Tag) : Prop :=
  ∀ name tag, tags.find? name = some tag → ∀ remainder p, ∃ r p',
    tag.compile remainder p = .ok r p' ∧ p'.pending = p.pending ∧ ∀ v, r ≠ .other v

/-- What such a tag gives inside a compilation. -/
theorem OrderlyTags.run {tags : Table Tag} (htags : OrderlyTags tags) {name : String} {tag : Tag}
    (htag : tags.find? name = some tag) (remainder : List Char) (c : Compilation) : ∃ r c',
      tag.run remainder c = .ok r c' ∧ c'.pending = c.pending ∧ ∀ v, r ≠ .other v := by
  obtain ⟨r, p, hr, hpending, hresult⟩ := htags name tag htag remainder c.toParsing
  exact ⟨r, _, Compile.parsing_of_ok hr, hpending, hresult⟩

theorem OrderlyTags.pending {tags : Table Tag} (htags : OrderlyTags tags) {name : String}
    {tag : Tag} (htag : tags.find? name = some tag) {remainder : List Char}
    {c c' : Compilation} {r : TagResult} (h : tag.run remainder c = .ok r c') :
    c'.pending = c.pending := by
  obtain ⟨r', c₁, h', hp, -⟩ := htags.run htag remainder c
  rw [h] at h'
  cases h'
  exact hp

namespace Token

/-- The first word of a statement. -/
def word (t : Token) : String := String.ofList t.command

/-- The token is a statement that names a tag, and not the one that closes the innermost block. -/
structure Calls (t : Token) (tags : Table Tag) (close : Option String) (tag : Tag) : Prop where
  kind : t.kind = .statement
  command : t.command ≠ []
  other : close ≠ some t.word
  found : tags.find? t.word = some tag

/-- The token is the statement that closes a block. -/
structure Ends (t : Token) (p : PendingClose) : Prop where
  kind : t.kind = .statement
  command : t.command ≠ []
  word : t.word = p.closeName

end Token

/-- The statement that closes the innermost block. -/
def innermost (pending : List PendingClose) : Option String := pending.head?.map (·.closeName)

namespace Compilation

/-- The compilation with some more code, which belongs to a token. -/
def add (c : Compilation) (code : List Instruction) (t : Token) : Compilation :=
  { c with code := (code.map (·, t)).reverse ++ c.code }

/-- The compilation with one more open block. -/
def push (c : Compilation) (p : PendingClose) : Compilation :=
  { c with pending := p :: c.pending }

/-- The compilation without its innermost block. -/
def pop (c : Compilation) : Compilation := { c with pending := c.pending.tail }

@[simp] theorem pending_add (c : Compilation) (code : List Instruction) (t : Token) :
    (c.add code t).pending = c.pending := rfl

@[simp] theorem pending_push (c : Compilation) (p : PendingClose) :
    (c.push p).pending = p :: c.pending := rfl

@[simp] theorem pending_pop (c : Compilation) : c.pop.pending = c.pending.tail := rfl

end Compilation

/-! ## 2. Bracketings -/

/-- A token that stands by itself, and the instructions that it gives; `close` is the statement that
closes the innermost block. -/
inductive Single (tags : Table Tag) (close : Option String) (c : Compilation) (t : Token) :
    List Instruction → Compilation → Prop where
  | text (kind : t.kind = .text) :
      Single tags close c t (if t.contents = "" then [] else [.literal t.contents]) c
  | comment (kind : t.kind = .comment) : Single tags close c t [] c
  | expression {e : Expression} {c' : Compilation} (kind : t.kind = .expression)
      (contents : t.contents ≠ "") (read : Compile.expression t.contents.toList c = .ok e c') :
      Single tags close c t [.expression e] c'
  | inline {tag : Tag} {code : List Instruction} {c' : Compilation}
      (calls : t.Calls tags close tag)
      (result : tag.run t.remainder c = .ok (.inline code) c') : Single tags close c t code c'
  /-- A block without an end is not closed. -/
  | endless {tag : Tag} {start : List Instruction} {name : Option String} {c' : Compilation}
      (calls : t.Calls tags close tag)
      (result : tag.run t.remainder c = .ok (.block start none name) c') :
      Single tags close c t start c'

/-- A token that opens a block, the instructions that it gives, and the block. -/
inductive Begins (tags : Table Tag) (close : Option String) (c : Compilation) (t : Token) :
    List Instruction → PendingClose → Compilation → Prop where
  | block {tag : Tag} {start ending : List Instruction} {name : Option String} {c' : Compilation}
      (calls : t.Calls tags close tag)
      (result : tag.run t.remainder c = .ok (.block start (some ending) name) c') :
      Begins tags close c t start ⟨closeOf t.word name, ending, t⟩ c'

/-- A source in brackets, with the instructions that its tokens give. -/
inductive Bracketing where
  | nil
  | single (t : Token) (code : List Instruction) (next : Bracketing)
  | block (t : Token) (start : List Instruction) (inner : Bracketing) (closing : Token)
      (ending : List Instruction) (next : Bracketing)

namespace Bracketing

/-- The tokens of a bracketing. -/
def tokens : Bracketing → List Token
  | nil => []
  | single t _ next => t :: next.tokens
  | block t _ inner closing _ next => t :: (inner.tokens ++ closing :: next.tokens)

/-- Its instructions: those at the beginning of a block, those of what it encloses, and those at
its end. -/
def code : Bracketing → List (Instruction × Token)
  | nil => []
  | single t code next => code.map (·, t) ++ next.code
  | block t start inner closing ending next =>
    start.map (·, t) ++ (inner.code ++ (ending.map (·, closing) ++ next.code))

/-- One bracketing behind another. -/
def append : Bracketing → Bracketing → Bracketing
  | nil, b' => b'
  | single t code next, b' => single t code (next.append b')
  | block t start inner closing ending next, b' =>
    block t start inner closing ending (next.append b')

theorem tokens_append : ∀ b b' : Bracketing, (b.append b').tokens = b.tokens ++ b'.tokens
  | nil, _ => rfl
  | single t _ next, b' => congrArg (t :: ·) (tokens_append next b')
  | block t _ inner closing _ next, b' => by
    rw [append, tokens, tokens, tokens_append next b', List.cons_append, List.append_assoc,
      List.cons_append]

/-- **A bracketing fits a compilation**: taken in from there it gives what stands in it, and leads
to another compilation. -/
inductive Fits (tags : Table Tag) : Option String → Compilation → Bracketing → Compilation → Prop
    where
  | nil {close : Option String} {c : Compilation} : Fits tags close c nil c
  | single {close : Option String} {c c₁ c' : Compilation} {t : Token} {code : List Instruction}
      {next : Bracketing} (first : Single tags close c t code c₁)
      (rest : Fits tags close (c₁.add code t) next c') : Fits tags close c (single t code next) c'
  | block {close : Option String} {c c₁ c₂ c' : Compilation} {t closing : Token}
      {start : List Instruction} {p : PendingClose} {inner next : Bracketing}
      (begins : Begins tags close c t start p c₁)
      (body : Fits tags (some p.closeName) ((c₁.add start t).push p) inner c₂)
      (ends : closing.Ends p) (rest : Fits tags close (c₂.pop.add p.ending closing) next c') :
      Fits tags close c (block t start inner closing p.ending next) c'

theorem Fits.append {tags : Table Tag} {close : Option String} {c c₁ c₂ : Compilation}
    {b b' : Bracketing} (h : Fits tags close c b c₁) (h' : Fits tags close c₁ b' c₂) :
    Fits tags close c (b.append b') c₂ := by
  induction h with
  | nil => exact h'
  | single first rest ih => exact .single first (ih h')
  | block begins body ends rest ihbody ihrest => exact .block begins body ends (ihrest h')

end Bracketing

open Bracketing

/-! ## 3. One token -/

section Steps

variable {tags : Table Tag} {c c' : Compilation} {t : Token} {p : PendingClose}
  {code start : List Instruction}

namespace Compile

theorem token_of_statement (hk : t.kind = .statement) : token tags t = statement tags t := by
  unfold token
  rw [hk]

/-- A statement that does not close the innermost block is taken in by its name. -/
theorem token_of_other (hk : t.kind = .statement) (hc : t.command ≠ [])
    (ho : innermost c.pending ≠ some t.word) :
    token tags t c = named tags t t.word t.remainder (innermost c.pending) c := by
  rw [token_of_statement hk, statement_eq tags t hc]
  cases hp : c.pending with
  | nil => rfl
  | cons p outer =>
    rw [hp] at ho
    exact if_neg fun h => ho (congrArg some h.symm)

theorem token_of_calls {tag : Tag} (h : t.Calls tags (innermost c.pending) tag) :
    token tags t c = (located t (tag.run t.remainder) >>= tagResult t t.word) c := by
  rw [token_of_other h.kind h.command h.other]
  simp only [named, h.found]

theorem token_of_ends {outer : List PendingClose} (h : t.Ends p) (hp : c.pending = p :: outer) :
    token tags t c = .ok () (c.pop.add p.ending t) := by
  have hword : String.ofList t.command = p.closeName := h.word
  have hpop : c.pop = { c with pending := outer } := by
    simp only [Compilation.pop, hp, List.tail_cons]
  rw [token_of_statement h.kind, statement_eq tags t h.command, hp, hpop]
  simp only [if_pos hword]
  rfl

/-- Reading an expression notes its variables and changes nothing else. -/
theorem of_expression_eq_ok {cs : List Char} {e : Expression} (h : expression cs c = .ok e c') :
    c' = { c with references := e.references.reverse ++ c.references } := by
  rw [expression_apply] at h
  split at h
  · cases h
    rfl
  · cases h

theorem token_of_blank (hk : t.kind = .statement) (hc : t.command = []) :
    token tags t c = .error ((Error.of (.template (.emptyStatement t.line))).at? t) c := by
  have hw : firstWord t.contents.toList = [] := hc
  rw [token_of_statement hk]
  simp only [statement, hw, located_apply]
  rfl

theorem token_of_unknown (hk : t.kind = .statement) (hc : t.command ≠ [])
    (ho : innermost c.pending ≠ some t.word) (hf : tags.find? t.word = none) :
    token tags t c = .error ((Error.of (.template
      (.unknownTag t.line t.start t.word (innermost c.pending)))).at? t) c := by
  rw [token_of_other hk hc ho]
  simp only [named, hf, located_apply]
  rfl

end Compile

theorem Single.token (h : Single tags (innermost c.pending) c t code c') :
    Compile.token tags t c = .ok () (c'.add code t) := by
  cases h with
  | text kind =>
    unfold Compile.token
    rw [kind]
    by_cases ht : t.contents = ""
    · simp only [if_pos ht]
      rfl
    · simp only [if_neg ht]
      rfl
  | comment kind =>
    unfold Compile.token
    rw [kind]
    rfl
  | expression kind contents read =>
    unfold Compile.token
    rw [kind]
    simp only [if_neg contents, Compile.bind_apply, Compile.locatedSyntax_apply, read]
    rfl
  | inline calls result =>
    rw [Compile.token_of_calls calls]
    simp only [Compile.bind_apply, Compile.located_apply, result]
    rfl
  | endless calls result =>
    rw [Compile.token_of_calls calls]
    simp only [Compile.bind_apply, Compile.located_apply, result]
    rfl

theorem Begins.token (h : Begins tags (innermost c.pending) c t start p c') :
    Compile.token tags t c = .ok () ((c'.add start t).push p) := by
  cases h with
  | block calls result =>
    rw [Compile.token_of_calls calls]
    simp only [Compile.bind_apply, Compile.located_apply, result]
    rfl

/-- What stands by itself leaves the open blocks as they are. -/
theorem Single.pending {close : Option String} (htags : OrderlyTags tags)
    (h : Single tags close c t code c') : c'.pending = c.pending := by
  cases h with
  | text => rfl
  | comment => rfl
  | expression kind contents read => rw [Compile.of_expression_eq_ok read]
  | inline calls result => exact htags.pending calls.found result
  | endless calls result => exact htags.pending calls.found result

theorem Begins.pending {close : Option String} (htags : OrderlyTags tags)
    (h : Begins tags close c t start p c') : c'.pending = c.pending := by
  cases h with
  | block calls result => exact htags.pending calls.found result

/-- An expression that can be read, if the token is one. -/
def Token.Readable (t : Token) : Prop :=
  t.kind = .expression → t.contents ≠ "" ∧ ∃ e, Expression.read t.contents.toList = .ok e

/-- **A token** stands by itself, opens a block, closes the innermost one, or is a statement that
is blank or names no tag. -/
theorem token_cases (htags : OrderlyTags tags) (ht : t.Readable) (c : Compilation) :
    (∃ code c', Single tags (innermost c.pending) c t code c') ∨
    (∃ start p c', Begins tags (innermost c.pending) c t start p c') ∨
    (∃ p outer, c.pending = p :: outer ∧ t.Ends p) ∨
    t.kind = .statement ∧ (t.command = [] ∨
      t.command ≠ [] ∧ innermost c.pending ≠ some t.word ∧ tags.find? t.word = none) := by
  cases hk : t.kind with
  | text => exact .inl ⟨_, _, .text hk⟩
  | comment => exact .inl ⟨_, _, .comment hk⟩
  | expression =>
    obtain ⟨hcontents, e, he⟩ := ht hk
    have hread : Compile.expression t.contents.toList c =
        .ok e { c with references := e.references.reverse ++ c.references } := by
      rw [Compile.expression_apply, he]
    exact .inl ⟨_, _, .expression hk hcontents hread⟩
  | statement =>
    by_cases hc : t.command = []
    · exact .inr (.inr (.inr ⟨rfl, .inl hc⟩))
    by_cases ho : innermost c.pending = some t.word
    · obtain ⟨p, hp, hword⟩ := Option.map_eq_some_iff.mp ho
      obtain ⟨outer, hpending⟩ := List.head?_eq_some_iff.mp hp
      exact .inr (.inr (.inl ⟨p, outer, hpending, hk, hc, hword.symm⟩))
    cases hf : tags.find? t.word with
    | none => exact .inr (.inr (.inr ⟨rfl, .inr ⟨hc, ho, rfl⟩⟩))
    | some tag =>
      have hcalls : t.Calls tags (innermost c.pending) tag := ⟨hk, hc, ho, hf⟩
      obtain ⟨r, c', hr, -, hcode⟩ := htags.run hf t.remainder c
      cases r with
      | inline code => exact .inl ⟨_, _, .inline hcalls hr⟩
      | block start ending name =>
        cases ending with
        | none => exact .inl ⟨_, _, .endless hcalls hr⟩
        | some ending => exact .inr (.inl ⟨_, _, _, .block hcalls hr⟩)
      | other v => exact absurd rfl (hcode v)

end Steps

/-! ## 4. All tokens -/

section Sources

variable {tags : Table Tag} {c c' c₀ c₁ : Compilation} {tokens before after : List Token}
  {pending : List PendingClose}

/-- A place of a source: what stands before it is in brackets but for some open blocks. -/
inductive Reached (tags : Table Tag) (c₀ : Compilation) :
    List Token → List PendingClose → Compilation → Prop where
  | outermost {b : Bracketing} {c : Compilation} (fits : Fits tags none c₀ b c) :
      Reached tags c₀ b.tokens [] c
  | inside {tokens : List Token} {pending : List PendingClose} {c c₁ c₂ : Compilation} {t : Token}
      {start : List Instruction} {p : PendingClose} {b : Bracketing}
      (outer : Reached tags c₀ tokens pending c)
      (begins : Begins tags (innermost pending) c t start p c₁)
      (fits : Fits tags (some p.closeName) ((c₁.add start t).push p) b c₂) :
      Reached tags c₀ (tokens ++ t :: b.tokens) (p :: pending) c₂

/-- The message about an unknown tag holds the name of the statement that was expected. -/
theorem SyntaxFault.unknownTag_names (line position : Nat) (command name : String) :
    ∃ before after, (unknownTag line position command (some name)).message =
      before ++ name ++ after := by
  refine ⟨"Invalid block tag on line " ++ decimalNat line ++ " (position " ++
    decimalNat position ++ "): '" ++ command ++ "'" ++ ", expected '",
    "'" ++ ". Did you forget to register this tag?", ?_⟩
  delta message
  dsimp only
  simp only [String.append_assoc]

theorem SyntaxFault.unclosedTag_names (line : Nat) (command name : String) :
    ∃ before after, (unclosedTag line command name).message = before ++ name ++ after := by
  refine ⟨"Unclosed tag on line " ++ decimalNat line ++ ": '" ++ command ++ "'. Looking for: ", ".",
    ?_⟩
  delta message
  dsimp only

/-- **Why a source is refused**: a statement is blank or names no tag, or a block is left open.
`pending` are the blocks that are open there. -/
inductive Refused (tags : Table Tag) (c₀ : Compilation) :
    List Token → List PendingClose → Token → SyntaxFault → Prop where
  | blank {before after : List Token} {pending : List PendingClose} {c : Compilation} {t : Token}
      (reached : Reached tags c₀ before pending c) (kind : t.kind = .statement)
      (command : t.command = []) :
      Refused tags c₀ (before ++ t :: after) pending t (.emptyStatement t.line)
  | unknown {before after : List Token} {pending : List PendingClose} {c : Compilation} {t : Token}
      (reached : Reached tags c₀ before pending c) (kind : t.kind = .statement)
      (command : t.command ≠ []) (other : innermost pending ≠ some t.word)
      (unknown : tags.find? t.word = none) :
      Refused tags c₀ (before ++ t :: after) pending t
        (.unknownTag t.line t.start t.word (innermost pending))
  | unclosed {tokens : List Token} {pending : List PendingClose} {c : Compilation}
      {p : PendingClose} (reached : Reached tags c₀ tokens (p :: pending) c) :
      Refused tags c₀ tokens (p :: pending) p.token
        (.unclosedTag p.token.line p.token.word p.closeName)

namespace Compile

variable {f : Token → Compile Unit} {t : Token}

theorem forM_cons_of_ok (h : f t c = .ok () c₁) : (t :: after).forM f c = after.forM f c₁ :=
  bind_of_ok h

theorem forM_cons_of_error {e : Error} (h : f t c = .error e c₁) :
    (t :: after).forM f c = .error e c₁ :=
  bind_of_error h

end Compile

/-- **What fits leaves the open blocks as they are.** -/
theorem Bracketing.Fits.pending_eq (htags : OrderlyTags tags) {close : Option String}
    {b : Bracketing} (h : Fits tags close c b c') : c'.pending = c.pending := by
  induction h with
  | nil => rfl
  | single first rest ih => rw [ih, Compilation.pending_add, first.pending htags]
  | block begins body ends rest ihbody ihrest =>
    rw [ihrest, Compilation.pending_add, Compilation.pending_pop, ihbody, Compilation.pending_push,
      List.tail_cons, Compilation.pending_add, begins.pending htags]

theorem Reached.pending_eq (htags : OrderlyTags tags) (hc₀ : c₀.pending = [])
    (h : Reached tags c₀ tokens pending c) : c.pending = pending := by
  induction h with
  | outermost fits => exact (fits.pending_eq htags).trans hc₀
  | inside outer begins fits ih =>
    rw [fits.pending_eq htags, Compilation.pending_push, Compilation.pending_add,
      begins.pending htags, ih]

/-- What fits at a place leads to another place, with the same open blocks. -/
theorem Reached.extend {b : Bracketing} (h : Reached tags c₀ tokens pending c)
    (hb : Fits tags (innermost pending) c b c') :
    Reached tags c₀ (tokens ++ b.tokens) pending c' := by
  cases h with
  | outermost fits =>
    rw [← tokens_append]
    exact .outermost (fits.append hb)
  | inside outer begins fits =>
    rw [List.append_assoc, List.cons_append, ← tokens_append]
    exact .inside outer begins (fits.append hb)

/-- The statement that closes the innermost block leads out of it. -/
theorem Reached.close {p : PendingClose} {t : Token} (h : Reached tags c₀ tokens (p :: pending) c)
    (ht : t.Ends p) : Reached tags c₀ (tokens ++ [t]) pending (c.pop.add p.ending t) := by
  cases h with
  | inside outer begins fits =>
    have hblock := outer.extend (.block begins fits ht .nil)
    simpa [Bracketing.tokens] using hblock

/-! ### From the compilation to brackets -/

/-- **The next token** is taken in and leads to another place, or the source is refused there. -/
theorem Reached.step (htags : OrderlyTags tags) (hc₀ : c₀.pending = []) {t : Token}
    (h : Reached tags c₀ before pending c) (ht : t.Readable) :
    (∃ pending' c', Compile.token tags t c = .ok () c' ∧
      Reached tags c₀ (before ++ [t]) pending' c') ∨
    ∃ fault, Compile.token tags t c = .error ((Error.of (.template fault)).at? t) c ∧
      ∀ after, Refused tags c₀ (before ++ t :: after) pending t fault := by
  have hp := h.pending_eq htags hc₀
  rcases token_cases htags ht c with
    ⟨code, c', hsingle⟩ | ⟨start, p, c', hbegins⟩ | ⟨p, outer, hpending, hends⟩ |
      ⟨hk, hc | ⟨hc, ho, hf⟩⟩
  · have htoken := hsingle.token
    rw [hp] at hsingle
    exact .inl ⟨pending, _, htoken, h.extend (.single hsingle .nil)⟩
  · have htoken := hbegins.token
    rw [hp] at hbegins
    exact .inl ⟨p :: pending, _, htoken, .inside h hbegins .nil⟩
  · obtain rfl := hp.symm.trans hpending
    exact .inl ⟨outer, _, Compile.token_of_ends hends hpending, h.close hends⟩
  · exact .inr ⟨_, Compile.token_of_blank hk hc, fun after => .blank h hk hc⟩
  · have htoken := Compile.token_of_unknown hk hc ho hf
    rw [hp] at ho htoken
    exact .inr ⟨_, htoken, fun after => .unknown h hk hc ho hf⟩

/-- **All tokens from a place on** are taken in, or the source is refused at one of them. -/
theorem Reached.run (htags : OrderlyTags tags) (hc₀ : c₀.pending = []) :
    ∀ {after before : List Token} {pending : List PendingClose} {c : Compilation},
    Reached tags c₀ before pending c → (∀ t ∈ after, t.Readable) →
    (∃ pending' c', after.forM (Compile.token tags) c = .ok () c' ∧
      Reached tags c₀ (before ++ after) pending' c') ∨
    ∃ (pending' : List PendingClose) (t : Token) (fault : SyntaxFault) (c' : Compilation),
      after.forM (Compile.token tags) c =
        .error ((Error.of (.template fault)).at? t) c' ∧
      Refused tags c₀ (before ++ after) pending' t fault
  | [], before, pending, c, h, _ => by
    rw [List.append_nil]
    exact .inl ⟨pending, c, rfl, h⟩
  | t :: after, before, pending, c, h, ht => by
    obtain ⟨ht, hafter⟩ := List.forall_mem_cons.mp ht
    rcases h.step htags hc₀ ht with ⟨pending₁, c₁, htoken, h₁⟩ | ⟨fault, htoken, hrefused⟩
    · rw [Compile.forM_cons_of_ok htoken]
      have hrun := run htags hc₀ h₁ hafter
      rw [List.append_assoc, List.singleton_append] at hrun
      exact hrun
    · exact .inr ⟨pending, t, fault, c, Compile.forM_cons_of_error htoken, hrefused after⟩

/-! ### From brackets to the compilation -/

/-- The message of a refusal names the statement that closes the innermost block. -/
theorem Refused.names {p : PendingClose} {t : Token} {fault : SyntaxFault}
    (h : Refused tags c₀ tokens (p :: pending) t fault) (hblank : fault ≠ .emptyStatement t.line) :
    ∃ before after, fault.message = before ++ p.closeName ++ after := by
  cases h with
  | blank => exact absurd rfl hblank
  | unknown => exact SyntaxFault.unknownTag_names _ _ _ _
  | unclosed => exact SyntaxFault.unclosedTag_names _ _ _

end Sources

end TextTemplate
