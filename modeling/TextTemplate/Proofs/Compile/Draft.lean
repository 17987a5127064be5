/-
# What a token does to a compilation

In the standard tags a token does one thing to a compilation, and what it does depends on little:
the blocks that are open and the numbers that have been given out.  A `Draft` is that much of a
compilation, with the code so far, and `Draft.take` takes in a token.  `Compile.token_standard`
says that the compilation does the same, and fails exactly where there is no next draft.
-/
import TextTemplate.Proofs.Compile.Refusal
import TextTemplate.Proofs.Tree.Basic

namespace TextTemplate

open TextTemplate.Text TextTemplate.Outcome

/-! ## 1. Drafts -/

/-- What the standard tags look at in a compilation, and the code so far in the order of the
source. -/
structure Draft where
  pending : List PendingClose
  code : List (Instruction × Token)
  numbers : Numbers

/-- The draft of a compilation. -/
def Compilation.draft (c : Compilation) : Draft :=
  ⟨c.pending, c.code.reverse, ⟨(c.ordinals.find? "cycle").getD 0, c.store.serial⟩⟩

/-- The statements that close the standard blocks. -/
def closeNames : List String := ["endif", "endfor", "endcomment"]

/-- Close the innermost block, if this is the statement that closes it. -/
def closeBlock (name : String) : List PendingClose → Option (List PendingClose × List Instruction)
  | [] => none
  | b :: outer => if name = b.closeName then some (outer, b.ending) else none

/-- Begin the empty part of the innermost block, if that is a loop: the end of the block is moved
here, and a flag tells the rest whether there were items. -/
def beginEmpty (t : Token) : List PendingClose → Option (List PendingClose × List Instruction)
  | [] => none
  | b :: outer =>
    if b.closeName = Tag.loopClose then
      let flag := Tag.loopFlag (outer.length + 1)
      some (⟨Tag.loopClose, [.endBranch, .clearFlag flag], t⟩ :: outer,
        [.setFlag flag] ++ b.ending ++ [.branch (.flagUnset flag) false])
    else none

/-- What a marker does to the open blocks, and the instructions that it gives. -/
def Marker.effect (t : Token) (pending : List PendingClose) :
    Marker → Option (List PendingClose × List Instruction)
  | leaf l => some (pending, l.code)
  | conditional c => some (⟨"endif", [.endBranch], t⟩ :: pending, [.branch c false])
  | alternative c => some (pending, [.otherwise, .branch c true])
  | otherwise => some (pending, [.otherwise])
  | loop names e =>
    some (⟨"endfor", [.loopNext, .popScope], t⟩ :: pending, [.pushScope, .loopStart e names])
  | empty => beginEmpty t pending
  | skipped => some (⟨"endcomment", [.endSkip], t⟩ :: pending, [.skip])
  | endConditional => closeBlock "endif" pending
  | endLoop => closeBlock "endfor" pending
  | endSkipped => closeBlock "endcomment" pending

namespace Draft

/-- Take in what a token says. -/
def takeMarker (d : Draft) (t : Token) (m : Marker) : Option Draft :=
  (m.effect t d.pending).map fun (pending, code) =>
    ⟨pending, d.code ++ code.map (·, t), m.advance d.numbers⟩

/-- Take in a token. -/
def take (d : Draft) (t : Token) : Option Draft :=
  (Marker.read? d.numbers t).bind (d.takeMarker t)

/-- All open blocks are standard ones. -/
def Standard (d : Draft) : Prop := ∀ b ∈ d.pending, b.closeName ∈ closeNames

end Draft

/-- A result of compiling agrees with a draft: both are there and the same, or the compilation
refuses the source and there is no draft. -/
def Agrees : EStateM.Result Error Compilation Unit → Option Draft → Prop
  | .ok _ c, some d => c.draft = d
  | .error e _, none => e.cause.Refuses
  | _, _ => False

/-! ## 2. Steps of a compilation -/

namespace Compile

variable {c : Compilation} {t : Token} {α β : Type}

/-- A step and what comes after it. -/
theorem bind_apply (x : Compile α) (y : α → Compile β) (c : Compilation) : (x >>= y) c =
    match x c with
    | .ok a c' => y a c'
    | .error e c' => .error e c' := by
  simp only [Bind.bind, EStateM.bind]
  cases x c <;> rfl

theorem located_apply (t : Token) (x : Compile α) (c : Compilation) : located t x c =
    match x c with
    | .ok a c' => .ok a c'
    | .error e c' => .error (e.at? t) c' := by
  cases h : x c with
  | ok a c' => exact tryCatch_of_ok h
  | error e c' => exact tryCatch_of_error h

theorem locatedSyntax_apply (t : Token) (x : Compile α) (c : Compilation) :
    locatedSyntax t x c =
      match x c with
      | .ok a c' => .ok a c'
      | .error e c' => .error (if e.kind = .templateSyntax then e.at? t else e) c' := by
  cases h : x c with
  | ok a c' => exact tryCatch_of_ok h
  | error e c' => exact tryCatch_of_error h

/-- Reading an expression changes nothing in the draft. -/
theorem expression_apply (cs : List Char) (c : Compilation) : expression cs c =
    match Expression.read cs with
    | .ok e => .ok e { c with references := e.references.reverse ++ c.references }
    | .error cause => .error (Error.of cause) c := by
  unfold expression parsing Parse.expression
  cases Expression.read cs <;> rfl

theorem condition_apply (cs : List Char) (c : Compilation) : condition cs c =
    match Condition.read cs with
    | .ok e => .ok e { c with references := e.references.reverse ++ c.references }
    | .error cause => .error (Error.of cause) c := by
  unfold condition parsing Parse.condition
  cases Condition.read cs <;> rfl

/-- Reading several expressions. -/
theorem expressions_apply : ∀ (texts : List (List Char)) (c : Compilation),
    match texts.mapM Expression.read with
    | .ok es => ∃ names, texts.mapM expression c = .ok es { c with references := names }
    | .error cause => ∃ c', texts.mapM expression c = .error (Error.of cause) c'
  | [], c => ⟨c.references, rfl⟩
  | text :: texts, c => by
    simp only [List.mapM_cons, bind_apply, expression_apply]
    cases hr : Expression.read text with
    | error cause => exact ⟨c, rfl⟩
    | ok e =>
      have ih := expressions_apply texts
        { c with references := e.references.reverse ++ c.references }
      simp only [Bind.bind, Except.bind]
      cases hrs : texts.mapM Expression.read with
      | error cause =>
        rw [hrs] at ih
        obtain ⟨c', hc'⟩ := ih
        exact ⟨c', by rw [hc']⟩
      | ok es =>
        rw [hrs] at ih
        obtain ⟨names, hnames⟩ := ih
        exact ⟨names, by rw [hnames]; rfl⟩

end Compile

/-! ## 3. Tags -/

section Tags

open Compile

variable {c c' : Compilation} {x : Compile TagResult} (t : Token) (command : String)

/-- The name of the statement that closes a block. -/
def closeOf (command : String) (close : Option String) : String :=
  match close with
  | some name => if name = "" then usualClose command else name
  | none => usualClose command

/-- A tag that gives instructions where it stands. -/
theorem agrees_of_inline {code : List Instruction} (hx : x c = .ok (.inline code) c') :
    Agrees ((located t x >>= tagResult t command) c)
      (some ⟨c'.pending, c'.draft.code ++ code.map (·, t), c'.draft.numbers⟩) := by
  simp only [bind_apply, located_apply, hx]
  simp [tagResult, emit, modify_apply, Agrees, Compilation.draft]

/-- A tag that opens a block. -/
theorem agrees_of_block {start ending : List Instruction} {close : Option String} {name : String}
    (hx : x c = .ok (.block start (some ending) close) c')
    (hname : closeOf command close = name) :
    Agrees ((located t x >>= tagResult t command) c)
      (some ⟨⟨name, ending, t⟩ :: c'.pending, c'.draft.code ++ start.map (·, t),
        c'.draft.numbers⟩) := by
  rw [← hname]
  simp only [bind_apply, located_apply, hx, tagResult, emit]
  simp [modify_apply, Agrees, Compilation.draft]
  rfl

/-- A tag that refuses what stands behind its name. -/
theorem agrees_of_refusal {cause : Cause} (hx : x c = .error (Error.of cause) c')
    (hc : cause.Refuses) : Agrees ((located t x >>= tagResult t command) c) none := by
  simp only [bind_apply, located_apply, hx]
  exact hc

theorem conditional_agrees (t : Token) (remainder : List Char) (c : Compilation) :
    Agrees ((located t (Tag.conditional.run remainder) >>= tagResult t "if") c)
      (((Condition.read remainder).toOption.map .conditional).bind (c.draft.takeMarker t)) := by
  have happly : Tag.conditional.run remainder c =
      match Condition.read remainder with
      | .ok e => .ok (.block [.branch e false] (some [.endBranch]) none)
          { c with references := e.references.reverse ++ c.references }
      | .error cause => .error (Error.of cause) c := by
    simp only [Tag.run_conditional, bind_apply, condition_apply]
    cases Condition.read remainder <;> rfl
  cases hr : Condition.read remainder with
  | error cause =>
    rw [hr] at happly
    exact agrees_of_refusal t "if" happly (Condition.cautious_read remainder cause hr)
  | ok e =>
    rw [hr] at happly
    have hname : closeOf "if" none = "endif" := by decide
    have hagrees := agrees_of_block t "if" happly hname
    exact hagrees

theorem alternative_agrees (t : Token) (remainder : List Char) (c : Compilation) :
    Agrees ((located t (Tag.alternative.run remainder) >>= tagResult t "elif") c)
      (((Condition.read remainder).toOption.map .alternative).bind (c.draft.takeMarker t)) := by
  have happly : Tag.alternative.run remainder c =
      match Condition.read remainder with
      | .ok e => .ok (.inline [.otherwise, .branch e true])
          { c with references := e.references.reverse ++ c.references }
      | .error cause => .error (Error.of cause) c := by
    simp only [Tag.run_alternative, bind_apply, condition_apply]
    cases Condition.read remainder <;> rfl
  cases hr : Condition.read remainder with
  | error cause =>
    rw [hr] at happly
    exact agrees_of_refusal t "elif" happly (Condition.cautious_read remainder cause hr)
  | ok e =>
    rw [hr] at happly
    have hagrees := agrees_of_inline t "elif" happly
    exact hagrees

theorem loop_agrees (t : Token) (remainder : List Char) (c : Compilation) :
    Agrees ((located t (Tag.loop.run remainder) >>= tagResult t "for") c)
      ((Marker.ofStatement c.draft.numbers "for" remainder).bind (c.draft.takeMarker t)) := by
  simp only [Marker.ofStatement]
  cases ht : Tag.loopTarget remainder with
  | none =>
    have happly : Tag.loop.run remainder c =
        .error (Error.of (.template (.badLoop (String.ofList remainder)))) c := by
      simp only [Tag.run_loop, ht]
      rfl
    exact agrees_of_refusal t "for" happly (.inl ⟨_, rfl⟩)
  | some target =>
    obtain ⟨names, sequence⟩ := target
    have happly : Tag.loop.run remainder c =
        match Expression.read sequence with
        | .ok e => .ok (.block [.pushScope, .loopStart e names] (some [.loopNext, .popScope]) none)
            { c with references := e.references.reverse ++ c.references }
        | .error cause => .error (Error.of cause) c := by
      simp only [Tag.run_loop, ht, bind_apply, expression_apply]
      cases Expression.read sequence <;> rfl
    cases hr : Expression.read sequence with
    | error cause =>
      rw [hr] at happly
      have hagrees := agrees_of_refusal t "for" happly (Expression.cautious_read sequence cause hr)
      simp only [Option.bind_eq_bind, Option.bind_some, hr]
      exact hagrees
    | ok e =>
      rw [hr] at happly
      simp only [Option.bind_eq_bind, Option.bind_some, hr]
      have hname : closeOf "for" none = "endfor" := by decide
      have hagrees := agrees_of_block t "for" happly hname
      exact hagrees

theorem empty_agrees (t : Token) (remainder : List Char) (c : Compilation) :
    Agrees ((located t (Tag.empty.run remainder) >>= tagResult t "empty") c)
      (c.draft.takeMarker t .empty) := by
  show Agrees _ ((beginEmpty t c.pending).map _)
  cases hp : c.pending with
  | nil =>
    have happly : Tag.empty.run remainder c = .error (Error.of (.template .misplacedEmpty)) c := by
      simp only [Tag.run_empty, bind_apply, get_apply, hp]
      rfl
    exact agrees_of_refusal t "empty" happly (.inl ⟨_, rfl⟩)
  | cons b outer =>
    by_cases hb : b.closeName = Tag.loopClose
    · have happly : Tag.empty.run remainder c =
          .ok (.block ([.setFlag (Tag.loopFlag (outer.length + 1))] ++ b.ending ++
            [.branch (.flagUnset (Tag.loopFlag (outer.length + 1))) false])
            (some [.endBranch, .clearFlag (Tag.loopFlag (outer.length + 1))]) (some Tag.loopClose))
            { c with pending := outer } := by
        simp only [Tag.run_empty, bind_apply, get_apply, hp, if_pos hb]
        rfl
      have hname : closeOf "empty" (some Tag.loopClose) = Tag.loopClose := by decide
      have hagrees := agrees_of_block t "empty" happly hname
      simp only [beginEmpty, if_pos hb]
      exact hagrees
    · have happly : Tag.empty.run remainder c =
          .error (Error.of (.template .misplacedEmpty)) c := by
        simp only [Tag.run_empty, bind_apply, get_apply, hp, if_neg hb]
        rfl
      simp only [beginEmpty, if_neg hb]
      exact agrees_of_refusal t "empty" happly (.inl ⟨_, rfl⟩)

theorem cycle_agrees (t : Token) (remainder : List Char) (c : Compilation) :
    Agrees ((located t (Tag.cycle.run remainder) >>= tagResult t "cycle") c)
      ((Marker.ofStatement c.draft.numbers "cycle" remainder).bind (c.draft.takeMarker t)) := by
  simp only [Marker.ofStatement]
  cases hu : units remainder with
  | nil =>
    have happly : Tag.cycle.run remainder c =
        .error (Error.of (.template .cycleWithoutValues)) c := by
      simp only [Tag.run_cycle, hu]
      rfl
    exact agrees_of_refusal t "cycle" happly (.inl ⟨_, rfl⟩)
  | cons text texts =>
    show Agrees _ ((((text :: texts).mapM Expression.read).toOption.map _).bind _)
    have happly := expressions_apply (text :: texts) c
    cases hr : (text :: texts).mapM Expression.read with
    | error cause =>
      rw [hr] at happly
      obtain ⟨c', hc'⟩ := happly
      have hx : Tag.cycle.run remainder c = .error (Error.of cause) c' := by
        simp only [Tag.run_cycle, hu, bind_apply, hc']
      have hcautious := (Expression.cautiousIn_units remainder).cautious
      rw [hu] at hcautious
      exact agrees_of_refusal t "cycle" hx (hcautious cause hr)
    | ok values =>
      rw [hr] at happly
      obtain ⟨names, hc'⟩ := happly
      have hx : Tag.cycle.run remainder c =
          .ok (.inline [.cycle values (Tag.cycleCounter c.draft.numbers.cycles)])
            { c with
              references := names
              ordinals := c.ordinals.insert "cycle" (c.draft.numbers.cycles + 1) } := by
        simp only [Tag.run_cycle, hu, bind_apply, hc']
        rfl
      have hagrees := agrees_of_inline t "cycle" hx
      simp only [Compilation.draft, Table.find?_insert_self, Option.getD_some] at hagrees
      exact hagrees

theorem serial_agrees (t : Token) (remainder : List Char) (c : Compilation) :
    Agrees ((located t (Tag.serial.run remainder) >>= tagResult t "make_guid") c)
      ((Marker.ofStatement c.draft.numbers "make_guid" remainder).bind (c.draft.takeMarker t)) := by
  have hx : Tag.serial.run remainder c =
      .ok (.inline [.assign (Marker.serialTarget remainder) (.int c.store.serial)])
        { c with store := { c.store with serial := c.store.serial + 1 } } := rfl
  have hagrees := agrees_of_inline t "make_guid" hx
  exact hagrees

end Tags

/-! ## 4. Tokens -/

namespace Compile

/-- Take in a statement by its tag; `expected` is the close name of the innermost block. -/
def named (tags : Table Tag) (t : Token) (command : String) (remainder : List Char)
    (expected : Option String) : Compile Unit :=
  match tags.find? command with
  | none => located t (fail (.template (.unknownTag t.line t.start command expected)))
  | some tag => located t (tag.run remainder) >>= tagResult t command

theorem statement_eq (tags : Table Tag) (t : Token) (hc : t.command ≠ []) (c : Compilation) :
    statement tags t c =
      match c.pending with
      | [] => named tags t (String.ofList t.command) t.remainder none c
      | b :: outer =>
        if String.ofList t.command = b.closeName then emit b.ending t { c with pending := outer }
        else named tags t (String.ofList t.command) t.remainder (some b.closeName) c := by
  unfold statement
  have hw : firstWord t.contents.toList = t.command := rfl
  simp only [hw]
  obtain ⟨a, word, hword⟩ := List.exists_cons_of_ne_nil hc
  unfold Token.remainder
  simp only [hword, bind_apply, get_apply]
  cases c.pending with
  | nil => rfl
  | cons b outer =>
    by_cases hb : String.ofList (a :: word) = b.closeName
    · simp only [if_pos hb]
      rfl
    · simp only [if_neg hb]
      rfl

/-- **A statement that closes no block is taken in as its tag says.** -/
theorem named_agrees (t : Token) (command : String) (remainder : List Char)
    (expected : Option String) (c : Compilation) (hclose : closeBlock command c.pending = none) :
    Agrees (named Tag.standard t command remainder expected c)
      ((Marker.ofStatement c.draft.numbers command remainder).bind (c.draft.takeMarker t)) := by
  by_cases hif : command = "if"
  · subst hif
    exact conditional_agrees t remainder c
  by_cases helif : command = "elif"
  · subst helif
    exact alternative_agrees t remainder c
  by_cases helse : command = "else"
  · subst helse
    have hx : Tag.otherwise.run remainder c = .ok (.inline [.otherwise]) c := rfl
    exact agrees_of_inline t "else" hx
  by_cases hfor : command = "for"
  · subst hfor
    exact loop_agrees t remainder c
  by_cases hempty : command = "empty"
  · subst hempty
    exact empty_agrees t remainder c
  by_cases hcycle : command = "cycle"
  · subst hcycle
    exact cycle_agrees t remainder c
  by_cases hcomment : command = "comment"
  · subst hcomment
    have hx : Tag.comment.run remainder c =
        .ok (.block [.skip] (some [.endSkip]) none) c := rfl
    have hname : closeOf "comment" none = "endcomment" := by decide
    exact agrees_of_block t "comment" hx hname
  by_cases hserial : command = "make_guid"
  · subst hserial
    exact serial_agrees t remainder c
  -- no tag has this name, and a statement that closes a block closes none here
  have hfind : Tag.standard.find? command = none := by
    simp [Tag.standard, Table.find?, List.lookup_cons, beq_false_of_ne, *]
  have hnone : (Marker.ofStatement c.draft.numbers command remainder).bind
      (c.draft.takeMarker t) = none := by
    cases hm : Marker.ofStatement c.draft.numbers command remainder with
    | none => rfl
    | some m =>
      have heffect : closeBlock command c.draft.pending = none := hclose
      cases Marker.stated_of_ofStatement hm with
      | endConditional => exact congrArg (Option.map _) heffect
      | endLoop => exact congrArg (Option.map _) heffect
      | endSkipped => exact congrArg (Option.map _) heffect
      | _ => contradiction
  rw [hnone]
  simp only [named, hfind, located_apply]
  exact .inl ⟨_, rfl⟩

theorem emit_agrees (t : Token) (code : List Instruction) (c : Compilation) :
    Agrees (emit code t c)
      (some ⟨c.pending, c.draft.code ++ code.map (·, t), c.draft.numbers⟩) := by
  simp [emit, modify_apply, Agrees, Compilation.draft]

/-- The statement that closes the innermost block. -/
theorem close_agrees {t : Token} {c : Compilation} {b : PendingClose} {outer : List PendingClose}
    (hp : c.pending = b :: outer) (hb : b.closeName ∈ closeNames) (remainder : List Char) :
    Agrees (emit b.ending t { c with pending := outer })
      ((Marker.ofStatement c.draft.numbers b.closeName remainder).bind (c.draft.takeMarker t)) := by
  have hclose : closeBlock b.closeName c.draft.pending = some (outer, b.ending) := by
    show closeBlock b.closeName c.pending = _
    rw [hp]
    exact if_pos rfl
  have hemit := emit_agrees t b.ending { c with pending := outer }
  have htake : (Marker.ofStatement c.draft.numbers b.closeName remainder).bind
      (c.draft.takeMarker t) =
        some ⟨outer, c.draft.code ++ b.ending.map (·, t), c.draft.numbers⟩ := by
    simp only [closeNames, List.mem_cons, List.not_mem_nil, or_false] at hb
    rcases hb with hb | hb | hb
    all_goals
      rw [hb] at hclose ⊢
      exact congrArg (Option.map _) hclose
  rw [htake]
  exact hemit

/-- A statement without a word. -/
theorem blank_agrees {t : Token} (tags : Table Tag) (c : Compilation) (hc : t.command = []) :
    Agrees (statement tags t c) none := by
  have hw : firstWord t.contents.toList = [] := hc
  simp only [statement, hw, located_apply]
  exact .inl ⟨_, rfl⟩

theorem nothing_agrees (t : Token) (c : Compilation) :
    Agrees ((pure () : Compile Unit) c) (c.draft.takeMarker t (.leaf .nothing)) := by
  have hcode : c.draft.code = c.draft.code ++ [].map (·, t) := (List.append_nil _).symm
  exact congrArg (Draft.mk c.pending · c.draft.numbers) hcode

theorem expression_agrees (t : Token) (cs : List Char) (c : Compilation) :
    Agrees ((locatedSyntax t (expression cs) >>= fun e => emit [.expression e] t) c)
      (((Expression.read cs).toOption.map fun e => .leaf (.expression e)).bind
        (c.draft.takeMarker t)) := by
  simp only [bind_apply, locatedSyntax_apply, expression_apply]
  cases hr : Expression.read cs with
  | error cause =>
    have hrefuses := Expression.cautious_read cs cause hr
    show (ite _ _ _ : Error).cause.Refuses
    split
    · exact hrefuses
    · exact hrefuses
  | ok e =>
    have hemit := emit_agrees t [.expression e]
      { c with references := e.references.reverse ++ c.references }
    exact hemit

theorem statement_agrees {t : Token} {c : Compilation} (hs : c.draft.Standard)
    (hc : t.command ≠ []) : Agrees (statement Tag.standard t c)
      ((Marker.ofStatement c.draft.numbers (String.ofList t.command) t.remainder).bind
        (c.draft.takeMarker t)) := by
  rw [statement_eq Tag.standard t hc]
  cases hp : c.pending with
  | nil =>
    refine named_agrees t _ _ none c ?_
    rw [hp]
    rfl
  | cons b outer =>
    by_cases hb : String.ofList t.command = b.closeName
    · simp only [if_pos hb]
      rw [hb]
      have hmem : b ∈ c.pending := hp ▸ List.mem_cons_self
      exact close_agrees hp (hs b hmem) t.remainder
    · simp only [if_neg hb]
      refine named_agrees t _ _ (some b.closeName) c ?_
      rw [hp]
      exact if_neg hb

/-- **What a token does to a compilation**: it does to it what it does to its draft, and the
compilation fails exactly where there is no next draft. -/
theorem token_agrees (t : Token) {c : Compilation} (hs : c.draft.Standard) :
    Agrees (token Tag.standard t c) (c.draft.take t) := by
  unfold token Draft.take Marker.read?
  cases t.kind with
  | text =>
    by_cases ht : t.contents = ""
    · simp only [if_pos ht]
      exact nothing_agrees t c
    · simp only [if_neg ht]
      exact emit_agrees t [.literal t.contents] c
  | expression =>
    by_cases ht : t.contents = ""
    · simp only [if_pos ht, located_apply]
      exact .inl ⟨_, rfl⟩
    · simp only [if_neg ht]
      exact expression_agrees t t.contents.toList c
  | statement =>
    by_cases hc : t.command = []
    · simp only [if_pos hc]
      exact blank_agrees Tag.standard c hc
    · simp only [if_neg hc]
      exact statement_agrees hs hc
  | comment => exact nothing_agrees t c

end Compile
end TextTemplate
