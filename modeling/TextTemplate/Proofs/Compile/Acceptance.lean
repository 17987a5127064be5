/-
# Which sources compile

A source in the standard tags compiles exactly if it is scanned to its end and no block is open
there (`program_compiles_iff`).  Any other source is refused: it is no template, or a row of digits
in it is too long.

The compilation looks at the open blocks by the statements that close them, and finds no fault with
an `else` or an `elif` anywhere.  The linker finds it, and looks at the open blocks by their kinds.
`Opens` ties the three together: the blocks of the scan, those of the compilation and those of the
linker.

* `Opens.step` takes in a marker: all three go on together, or the scan stops and the linker fails;
* `Draft.settles` says this of all markers of a source.
-/
import TextTemplate.Proofs.Tree.Parsing
import TextTemplate.Proofs.Tree.Compiling

namespace TextTemplate

open TextTemplate.Outcome

/-! ## 1. Blocks -/

/-- The statement that closes a block. -/
def Opened.closeName : Opened → String
  | conditional _ => "endif"
  | loop => "endfor"
  | emptyPart _ => "endfor"
  | skipped => "endcomment"

/-- An open block as the compilation has it and as the linker has it. -/
inductive Matches : Opened → PendingClose → OpenBlock → Prop where
  | conditional {otherwise : Bool} {t : Token} {b : OpenBlock} (kind : b.kind = .conditional)
      (pending : b.pending.isSome = !otherwise) :
      Matches (.conditional otherwise) ⟨"endif", [.endBranch], t⟩ b
  | loop {t : Token} {b : OpenBlock} (kind : b.kind = .loop) :
      Matches .loop ⟨"endfor", [.loopNext, .popScope], t⟩ b
  | emptyPart {otherwise : Bool} {flag : String} {t : Token} {b : OpenBlock}
      (kind : b.kind = .conditional) (pending : b.pending.isSome = !otherwise) :
      Matches (.emptyPart otherwise) ⟨"endfor", [.endBranch, .clearFlag flag], t⟩ b
  | skipped {t : Token} {b : OpenBlock} (kind : b.kind = .skipped) :
      Matches .skipped ⟨"endcomment", [.endSkip], t⟩ b

/-- The open blocks of a scan, of a compilation and of the linker, one by one. -/
inductive Opens : List Opened → List PendingClose → List OpenBlock → Prop where
  | nil : Opens [] [] []
  | cons {o : Opened} {p : PendingClose} {b : OpenBlock} {opened : List Opened}
      {pending : List PendingClose} {blocks : List OpenBlock} (inner : Matches o p b)
      (outer : Opens opened pending blocks) : Opens (o :: opened) (p :: pending) (b :: blocks)

namespace Assembly

/-- Linking a row finds a fault in the template. -/
def Refuses (tokenOf : Nat → Option Token) (a : Assembly) (k : Nat) (row : List Linked) : Prop :=
  ∃ e fault, a.linkFrom tokenOf k (itemsFrom k row) = .error e ∧ e.cause = .template fault

variable {tokenOf : Nat → Option Token} {a a' : Assembly} {k : Nat} {row row' : List Linked}

/-- A fault behind a row that is linked. -/
theorem Refuses.append (hrow : a.Links tokenOf k row a')
    (h : a'.Refuses tokenOf (k + row.length) row') : a.Refuses tokenOf k (row ++ row') := by
  obtain ⟨e, fault, he, hfault⟩ := h
  refine ⟨e, fault, ?_, hfault⟩
  unfold Links at hrow
  rw [itemsFrom_append, linkFrom_append, hrow, length_itemsFrom]
  exact he

/-- A fault at the first item of a row. -/
theorem refuses_cons {i : Linked} {e : Error} {fault : SyntaxFault}
    (hi : a.link k ⟨k, i.instruction, i.token⟩ (tokenOf k) = .error e)
    (hfault : e.cause = .template fault) : a.Refuses tokenOf k (i :: row) := by
  refine ⟨e, fault, ?_, hfault⟩
  rw [itemsFrom, linkFrom, hi]
  rfl

/-- A fault with a token is the fault. -/
theorem cause_at? (e : Error) (t : Option Token) : (e.at? t).cause = e.cause := by
  unfold Error.at?
  cases e.token <;> rfl

end Assembly

open Assembly

section Steps

variable {tokenOf : Nat → Option Token} {a : Assembly} {k : Nat} {t : Token} {opened : List Opened}
  {pending pending' : List PendingClose} {code : List Instruction}

/-! ## 2. Closing a block -/

theorem Matches.closeName_eq {o : Opened} {p : PendingClose} {b : OpenBlock} (h : Matches o p b) :
    p.closeName = o.closeName := by
  cases h <;> rfl

/-- **What closes a block is linked**, and the block is closed. -/
theorem Matches.links_ending {o : Opened} {p : PendingClose} {b : OpenBlock}
    {blocks : List OpenBlock} (h : Matches o p b) (hb : a.blocks = b :: blocks) :
    ∃ a', a.Links tokenOf k (p.ending.map (.plain t)) a' ∧ a'.blocks = blocks := by
  cases h with
  | conditional kind pending =>
    obtain ⟨a', hl, hblocks, -⟩ := @links_endBranch a tokenOf k b blocks t hb kind
    exact ⟨a', hl, hblocks⟩
  | loop kind =>
    obtain ⟨a', hl, hblocks, -⟩ := @links_loopNext a tokenOf k b blocks t 0 hb kind
    have hpop : a'.Links tokenOf (k + 1) [.plain t .popScope] a' := .single rfl
    exact ⟨a', hl.append hpop, hblocks⟩
  | emptyPart kind pending =>
    obtain ⟨a', hl, hblocks, -⟩ := @links_endBranch a tokenOf k b blocks t hb kind
    exact ⟨a', hl.append (.single rfl), hblocks⟩
  | skipped kind =>
    obtain ⟨a', hl, hblocks, -⟩ := @links_endSkip a tokenOf k b blocks t hb kind
    exact ⟨a', hl, hblocks⟩

/-- The compilation closes a block where the scan has one with the same closing statement. -/
theorem Opens.of_closeBlock {name : String} {blocks : List OpenBlock}
    (h : Opens opened pending blocks) (he : closeBlock name pending = some (pending', code)) :
    ∃ o outer p b rest, opened = o :: outer ∧ blocks = b :: rest ∧ o.closeName = name ∧
      code = p.ending ∧ Matches o p b ∧ Opens outer pending' rest := by
  cases h with
  | nil => cases he
  | @cons o p b outer rest blocks inner houter =>
    simp only [closeBlock] at he
    split at he
    · rename_i hname
      cases he
      exact ⟨o, outer, p, b, blocks, rfl, rfl, (hname.trans inner.closeName_eq).symm, rfl, inner,
        houter⟩
    · cases he

/-- The three go on together at a statement that closes a block. -/
theorem Opens.close {name : String} {next : List Opened → Option (List Opened)}
    (hnext : ∀ o outer, o.closeName = name → next (o :: outer) = some outer)
    (h : Opens opened pending a.blocks) (he : closeBlock name pending = some (pending', code)) :
    ∃ opened' a', next opened = some opened' ∧ a.Links tokenOf k (code.map (.plain t)) a' ∧
      Opens opened' pending' a'.blocks := by
  obtain ⟨o, outer, p, b, rest, rfl, hb, hname, rfl, inner, houter⟩ := h.of_closeBlock he
  obtain ⟨a', hl, hblocks⟩ := @Matches.links_ending tokenOf a k t o p b rest inner hb
  exact ⟨outer, a', hnext o outer hname, hl, hblocks ▸ houter⟩

theorem Opened.endConditional_of_closeName (o : Opened) (outer : List Opened)
    (h : o.closeName = "endif") : Opened.endConditional (o :: outer) = some outer := by
  cases o with
  | conditional => rfl
  | _ => exact absurd h (by decide +revert)

theorem Opened.endLoop_of_closeName (o : Opened) (outer : List Opened)
    (h : o.closeName = "endfor") : Opened.endLoop (o :: outer) = some outer := by
  cases o with
  | loop => rfl
  | emptyPart => rfl
  | _ => exact absurd h (by decide +revert)

theorem Opened.emptied_of_closeName (o : Opened) (outer : List Opened)
    (h : o.closeName = "endfor") :
    Opened.emptied false (o :: outer) = some (.emptyPart false :: outer) := by
  cases o with
  | loop => rfl
  | emptyPart => rfl
  | _ => exact absurd h (by decide +revert)

theorem Opened.endSkipped_of_closeName (o : Opened) (outer : List Opened)
    (h : o.closeName = "endcomment") : Opened.endSkipped (o :: outer) = some outer := by
  cases o with
  | skipped => rfl
  | _ => exact absurd h (by decide +revert)

/-! ## 3. Going on with a conditional -/

/-- Where the scan goes on with a block, the linker has a conditional with a branch that has no
target yet. -/
theorem Opens.of_continued {last : Bool} {opened' : List Opened} {blocks : List OpenBlock}
    (h : Opens opened pending blocks) (hn : Opened.continued false last opened = some opened') :
    ∃ b rest label, blocks = b :: rest ∧ b.kind = .conditional ∧ b.pending = some label ∧
      ∀ b' : OpenBlock, b'.kind = .conditional → b'.pending.isSome = !last →
        Opens opened' pending (b' :: rest) := by
  cases h with
  | nil => cases hn
  | @cons o p b outer rest blocks inner houter =>
    cases inner with
    | @conditional otherwise _ _ kind hp =>
      cases otherwise with
      | true => cases hn
      | false =>
        cases hn
        obtain ⟨label, hlabel⟩ := Option.isSome_iff_exists.mp hp
        exact ⟨b, blocks, label, rfl, kind, hlabel,
          fun b' hk hb => .cons (.conditional hk hb) houter⟩
    | @emptyPart otherwise _ _ _ kind hp =>
      cases otherwise with
      | true => cases hn
      | false =>
        cases hn
        obtain ⟨label, hlabel⟩ := Option.isSome_iff_exists.mp hp
        exact ⟨b, blocks, label, rfl, kind, hlabel, fun b' hk hb => .cons (.emptyPart hk hb) houter⟩
    | loop => cases hn
    | skipped => cases hn

/-- **Where the scan cannot go on with a block, the linker refuses the `else`.** -/
theorem Opens.refuses_otherwise {last : Bool} (h : Opens opened pending a.blocks)
    (hn : Opened.continued false last opened = none) (row : List Linked) :
    a.Refuses tokenOf k (.plain t .otherwise :: row) := by
  -- the innermost block of the linker is none, of another kind, or has had its `else`
  have hblocks : a.blocks = [] ∨ ∃ b rest, a.blocks = b :: rest ∧
      (b.kind ≠ .conditional ∨ b.kind = .conditional ∧ b.pending = none) := by
    generalize a.blocks = blocks at h
    cases h with
    | nil => exact .inl rfl
    | @cons o p b outer rest blocks inner houter =>
      refine .inr ⟨b, blocks, rfl, ?_⟩
      cases inner with
      | @conditional otherwise _ _ kind hp =>
        cases otherwise with
        | false => cases hn
        | true => exact .inr ⟨kind, by simpa using hp⟩
      | @emptyPart otherwise _ _ _ kind hp =>
        cases otherwise with
        | false => cases hn
        | true => exact .inr ⟨kind, by simpa using hp⟩
      | loop kind => exact .inl (by rw [kind]; decide)
      | skipped kind => exact .inl (by rw [kind]; decide)
  rcases hblocks with hb | ⟨b, rest, hb, hk | ⟨hk, hp⟩⟩
  · have hlink : a.link k ⟨k, .otherwise, some t⟩ (tokenOf k) = .error ((Error.syntaxFault
        (.misplaced Instruction.otherwise.title "if" "top level")).at? (tokenOf k)) := by
      simp only [link, expect, hb]
      rfl
    exact refuses_cons hlink (cause_at? ..)
  · have hlink : a.link k ⟨k, .otherwise, some t⟩ (tokenOf k) = .error ((Error.syntaxFault
        (.misplaced Instruction.otherwise.title "if" b.kind.name)).at? (tokenOf k)) := by
      simp only [link, expect, hb, if_neg hk]
      rfl
    exact refuses_cons hlink (cause_at? ..)
  · have hlink : a.link k ⟨k, .otherwise, some t⟩ (tokenOf k) =
        .error ((Error.syntaxFault .secondElse).at? (tokenOf k)) := by
      simp only [link, expect_of_kind hb hk]
      simp only [bind, Except.bind, hp]
    exact refuses_cons hlink (cause_at? ..)

/-! ## 4. Markers -/

/-- A branch opens a conditional. -/
theorem links_branch (c : Condition) : ∃ a' b, a.Links tokenOf k [.plain t (.branch c false)] a' ∧
    a'.blocks = b :: a.blocks ∧ b.kind = .conditional ∧ b.pending.isSome = true :=
  ⟨_, _, .single rfl, rfl, rfl, rfl⟩

theorem Opens.step_otherwise {opened' : List Opened} (h : Opens opened pending a.blocks)
    (hn : Opened.continued false true opened = some opened') :
    ∃ a', a.Links tokenOf k [.plain t .otherwise] a' ∧ Opens opened' pending a'.blocks := by
  obtain ⟨b, rest, label, hb, hk, hp, hopens⟩ := h.of_continued hn
  obtain ⟨a', hl, hblocks, -⟩ := @links_otherwise tokenOf t a b rest label k 0 hb hk hp
  refine ⟨a', hl, ?_⟩
  rw [hblocks]
  exact hopens _ hk rfl

theorem Opens.step_alternative {c : Condition} {opened' : List Opened}
    (h : Opens opened pending a.blocks)
    (hn : Opened.continued false false opened = some opened') :
    ∃ a', a.Links tokenOf k [.plain t .otherwise, .plain t (.branch c true)] a' ∧
      Opens opened' pending a'.blocks := by
  obtain ⟨b, rest, label, hb, hk, hp, hopens⟩ := h.of_continued hn
  obtain ⟨a₁, hl, hblocks, -⟩ := @links_otherwise tokenOf t a b rest label k 0 hb hk hp
  have hk₁ : ({ b with pending := none, exits := k :: b.exits } : OpenBlock).kind = .conditional :=
    hk
  have hlink : a₁.link (k + 1) ⟨k + 1, .branch c true, some t⟩ (tokenOf (k + 1)) =
      .ok { a₁ with
        blocks := ⟨b.kind, b.opener, b.index, some (k + 1), k :: b.exits⟩ :: rest } := by
    simp only [link, expect_of_kind hblocks hk₁]
    rfl
  have hbranch : a₁.Links tokenOf (k + 1) [.plain t (.branch c true)] _ := .single hlink
  exact ⟨_, hl.append hbranch, hopens _ hk rfl⟩

/-- An `empty` closes a loop, or an empty part of one, and begins another part. -/
theorem Opens.step_empty (h : Opens opened pending a.blocks)
    (he : beginEmpty t pending = some (pending', code)) :
    ∃ opened' a', Opened.emptied false opened = some opened' ∧
      a.Links tokenOf k (code.map (.plain t)) a' ∧ Opens opened' pending' a'.blocks := by
  generalize hblocks : a.blocks = blocks at h
  cases h with
  | nil => cases he
  | @cons o p b outer pending blocks inner houter =>
    by_cases hclose : p.closeName = Tag.loopClose
    · simp only [beginEmpty, if_pos hclose] at he
      cases he
      have hset : a.Links tokenOf k
          [.plain t (.setFlag (Tag.loopFlag (pending.length + 1)))] a := .single rfl
      obtain ⟨a', hl, hb⟩ := @Matches.links_ending tokenOf a (k + 1) t o p b blocks inner hblocks
      obtain ⟨a'', b', hbranch, hb', hk, hp⟩ := @links_branch tokenOf a'
        (k + 1 + (p.ending.map (Linked.plain t)).length) t
        (.flagUnset (Tag.loopFlag (pending.length + 1)))
      have hemptied := Opened.emptied_of_closeName o outer (inner.closeName_eq.symm.trans hclose)
      refine ⟨_, a'', hemptied, ?_, ?_⟩
      · simp only [List.map_append, List.append_assoc]
        exact hset.append (hl.append hbranch)
      · rw [hb', hb]
        exact .cons (.emptyPart hk hp) houter
    · simp only [beginEmpty, if_neg hclose] at he
      cases he

/-- **A marker that the compilation takes in**: the scan takes it in and the linker its
instructions, and the open blocks go on together; or the scan does not, and the linker finds a
fault. -/
theorem Opens.step {m : Marker} (h : Opens opened pending a.blocks)
    (he : m.effect t pending = some (pending', code)) :
    (∃ opened' a', Opened.next false opened m = some opened' ∧
      a.Links tokenOf k (code.map (.plain t)) a' ∧ Opens opened' pending' a'.blocks) ∨
    (Opened.next false opened m = none ∧
      ∀ row, a.Refuses tokenOf k (code.map (.plain t) ++ row)) := by
  cases m with
  | leaf l =>
    cases he
    exact .inl ⟨opened, a, rfl, (l.idle t k).links a, h⟩
  | conditional c =>
    cases he
    obtain ⟨a', b, hl, hb, hk, hp⟩ := @links_branch tokenOf a k t c
    refine .inl ⟨_, a', rfl, hl, ?_⟩
    rw [hb]
    exact .cons (.conditional hk hp) h
  | alternative c =>
    cases he
    cases hn : Opened.continued false false opened with
    | none => exact .inr ⟨hn, fun row => h.refuses_otherwise hn _⟩
    | some opened' =>
      obtain ⟨a', hl, hopens⟩ := h.step_alternative hn
      exact .inl ⟨opened', a', hn, hl, hopens⟩
  | otherwise =>
    cases he
    cases hn : Opened.continued false true opened with
    | none => exact .inr ⟨hn, fun row => h.refuses_otherwise hn _⟩
    | some opened' =>
      obtain ⟨a', hl, hopens⟩ := h.step_otherwise hn
      exact .inl ⟨opened', a', hn, hl, hopens⟩
  | loop names e =>
    cases he
    have hpush : a.Links tokenOf k [.plain t .pushScope] a := .single rfl
    have hstart : a.Links tokenOf (k + 1) [.plain t (.loopStart e names)] _ := .single rfl
    exact .inl ⟨_, _, rfl, hpush.append hstart, .cons (.loop rfl) h⟩
  | empty => exact .inl (h.step_empty he)
  | skipped =>
    cases he
    exact .inl ⟨_, _, rfl, .single rfl, .cons (.skipped rfl) h⟩
  | endConditional => exact .inl (h.close Opened.endConditional_of_closeName he)
  | endLoop => exact .inl (h.close Opened.endLoop_of_closeName he)
  | endSkipped => exact .inl (h.close Opened.endSkipped_of_closeName he)

end Steps

/-! ## 5. Sources -/

/-- The code of a draft as a row. -/
def Draft.row (d : Draft) : List Linked := d.code.map fun p => .plain p.2 p.1

theorem Draft.written_eq (d : Draft) : d.written = d.row.map Linked.bare := by
  simp [written, row, Linked.bare, Linked.plain, Function.comp_def]

theorem Draft.row_append (pending : List PendingClose) (d : Draft) (code : List Instruction)
    (t : Token) (n : Numbers) :
    Draft.row ⟨pending, d.code ++ code.map (·, t), n⟩ = d.row ++ code.map (.plain t) := by
  simp [row, Function.comp_def]

/-- A draft only grows. -/
theorem Draft.grows : ∀ {tokens : List Token} {d d' : Draft}, tokens.foldlM take d = some d' →
    ∃ row, d'.row = d.row ++ row
  | [], d, d', h => by
    cases h
    exact ⟨[], (List.append_nil _).symm⟩
  | t :: tokens, d, d', h => by
    rw [List.foldlM_cons] at h
    obtain ⟨d₁, h₁, h⟩ := Option.bind_eq_some_iff.mp h
    obtain ⟨m, pending, code, -, -, rfl⟩ := take_eq_some h₁
    obtain ⟨row, hd'⟩ := grows h
    rw [row_append, List.append_assoc] at hd'
    exact ⟨_, hd'⟩

/-- **Tokens that the compilation takes in**: they are scanned and their code is linked, and the
open blocks go on together; or they are not scanned, and the linker finds a fault. -/
theorem Draft.settles {tokenOf : Nat → Option Token} : ∀ {tokens : List Token} {d d' : Draft}
    {a : Assembly} {opened : List Opened} (k : Nat), Opens opened d.pending a.blocks →
    tokens.foldlM take d = some d' → ∃ row, d'.row = d.row ++ row ∧
      ((∃ n opened' a', tokens.foldlM (Scan.take false) ⟨d.numbers, opened⟩ = some ⟨n, opened'⟩ ∧
        a.Links tokenOf k row a' ∧ Opens opened' d'.pending a'.blocks) ∨
      (tokens.foldlM (Scan.take false) ⟨d.numbers, opened⟩ = none ∧ a.Refuses tokenOf k row))
  | [], d, d', a, opened, k, h, ht => by
    cases ht
    exact ⟨[], (List.append_nil _).symm, .inl ⟨d.numbers, opened, a, rfl, rfl, h⟩⟩
  | t :: tokens, d, d', a, opened, k, h, ht => by
    rw [List.foldlM_cons] at ht
    obtain ⟨d₁, h₁, ht⟩ := Option.bind_eq_some_iff.mp ht
    obtain ⟨m, pending, code, hm, he, rfl⟩ := take_eq_some h₁
    rw [List.foldlM_cons, Scan.take, hm, Option.bind_some]
    rcases @Opens.step tokenOf a k t opened d.pending pending code m h he with
      ⟨opened₁, a₁, hn, hl, hopens⟩ | ⟨hn, hrefuses⟩
    · obtain ⟨row, hd', hrest⟩ :=
        @settles tokenOf tokens _ d' a₁ opened₁ (k + (code.map (Linked.plain t)).length) hopens ht
      rw [row_append, List.append_assoc] at hd'
      refine ⟨_, hd', ?_⟩
      rw [hn]
      rcases hrest with ⟨n, opened', a', hscan, hl', hopens'⟩ | ⟨hscan, hrefuses⟩
      · exact .inl ⟨n, opened', a', hscan, hl.append hl', hopens'⟩
      · exact .inr ⟨hscan, .append hl hrefuses⟩
    · obtain ⟨row, hd'⟩ := grows ht
      rw [row_append, List.append_assoc] at hd'
      refine ⟨_, hd', .inr ⟨?_, hrefuses row⟩⟩
      rw [hn]
      rfl

/-- The compilation of a source, if no block is left open in its draft. -/
theorem Compile.source_of_takeAll {tokens : List Token} {s : Store} {d : Draft}
    (h : (Compilation.start s).draft.takeAll tokens = some d) :
    ∃ c, source Tag.standard tokens (.start s) = .ok () c ∧ c.draft = d := by
  have hagrees := source_agrees tokens s
  rw [h] at hagrees
  cases hsource : source Tag.standard tokens (.start s) with
  | error e c =>
    rw [hsource] at hagrees
    exact hagrees.elim
  | ok u c =>
    rw [hsource] at hagrees
    exact ⟨c, rfl, hagrees⟩

/-- Otherwise the source is refused. -/
theorem Compile.source_of_takeAll_none {tokens : List Token} {s : Store}
    (h : (Compilation.start s).draft.takeAll tokens = none) :
    ∃ e c, source Tag.standard tokens (.start s) = .error e c ∧ e.cause.Refuses := by
  have hagrees := source_agrees tokens s
  rw [h] at hagrees
  cases hsource : source Tag.standard tokens (.start s) with
  | error e c =>
    rw [hsource] at hagrees
    exact ⟨e, c, rfl, hagrees⟩
  | ok u c =>
    rw [hsource] at hagrees
    exact hagrees.elim

/-- **A source is scanned to its end with no block left open, or it is refused.** -/
theorem Compile.scanned_or_refused (tokens : List Token) (s : Store) :
    (∃ n, scan false s.serial tokens = some ⟨n, []⟩) ∨
      ∃ e c, program Tag.standard tokens (.start s) = .error e c ∧ e.cause.Refuses := by
  cases hall : (Compilation.start s).draft.takeAll tokens with
  | none =>
    obtain ⟨e, c, hsource, hrefuses⟩ := source_of_takeAll_none hall
    exact .inr ⟨e, c, bind_of_error hsource, hrefuses⟩
  | some d =>
    obtain ⟨c, hsource, hd⟩ := source_of_takeAll hall
    obtain ⟨d', htaken, hclosed⟩ := Option.bind_eq_some_iff.mp hall
    have hpending : d'.pending = [] ∧ d' = d := by
      by_cases hp : d'.pending = []
      · rw [if_pos hp] at hclosed
        exact ⟨hp, Option.some.inj hclosed⟩
      · rw [if_neg hp] at hclosed
        cases hclosed
    obtain ⟨hp, rfl⟩ := hpending
    have hitems : c.items = itemsFrom 0 d'.row := by
      refine Compilation.items_of_draft ?_
      rw [hd, Draft.written_eq]
    obtain ⟨row, hrow, hsettles⟩ := @Draft.settles (tokenOf? c.items) tokens
      (Compilation.start s).draft d' Assembly.start [] 0 .nil htaken
    have hstart : (Compilation.start s).draft.row = [] := rfl
    rw [hstart, List.nil_append] at hrow
    rcases hsettles with ⟨n, opened, a, hscan, hl, hopens⟩ | ⟨hscan, e, fault, he, hfault⟩
    · rw [hp] at hopens
      cases hopens' : a.blocks with
      | nil =>
        rw [hopens'] at hopens
        cases hopens
        exact .inl ⟨n, hscan⟩
      | cons b rest =>
        rw [hopens'] at hopens
        cases hopens
    · refine .inr ⟨e, c, ?_, .inl ⟨fault, hfault⟩⟩
      have hassemble : Program.assemble c.items = .error e := by
        unfold Program.assemble
        rw [hitems, hrow] at he ⊢
        rw [he]
        rfl
      unfold program
      rw [bind_of_ok hsource, bind_of_ok (get_apply c), hassemble]
      rfl

/-- **A source compiles exactly if it is scanned to its end and no block is open there.** -/
theorem program_compiles_iff (tokens : List Token) (s : Store) :
    (∃ p c, Compile.program Tag.standard tokens (.start s) = .ok p c) ↔
      ∃ n, scan false s.serial tokens = some ⟨n, []⟩ := by
  constructor
  · rintro ⟨p, c, hp⟩
    rcases Compile.scanned_or_refused tokens s with hscan | ⟨e, c', he, -⟩
    · exact hscan
    · rw [he] at hp
      cases hp
  · rintro ⟨n, hscan⟩
    obtain ⟨tree, rfl, hr, -⟩ := exists_tree_of_scan hscan
    obtain ⟨c, hp, -⟩ := tree.program_tokens s hr
    exact ⟨_, c, hp⟩

/-- The program of a source that compiles is that of a tree, and the tree is regular if no empty
part of the source is extended. -/
theorem Compile.tree_of_program {tokens : List Token} {s : Store} {p : Program} {c : Compilation}
    (hp : program Tag.standard tokens (.start s) = .ok p c) : ∃ tree : Tree,
      tree.tokens = tokens ∧ tree.Reads ⟨0, s.serial⟩ ∧ p = ⟨(tree.linked 0 0).toArray⟩ ∧
        (Scan.Plain ⟨⟨0, s.serial⟩, []⟩ tokens → tree.Regular) := by
  obtain ⟨n, hscan⟩ := (program_compiles_iff tokens s).mp ⟨p, c, hp⟩
  have htree : ∃ tree : Tree, tree.tokens = tokens ∧ tree.Reads ⟨0, s.serial⟩ ∧
      (Scan.Plain ⟨⟨0, s.serial⟩, []⟩ tokens → tree.Regular) := by
    by_cases hplain : Scan.Plain ⟨⟨0, s.serial⟩, []⟩ tokens
    · obtain ⟨tree, htokens, hr, hregular⟩ :=
        exists_tree_of_scan (scan_strict_iff.mpr ⟨hscan, hplain⟩)
      exact ⟨tree, htokens, hr, fun _ => hregular rfl⟩
    · obtain ⟨tree, htokens, hr, -⟩ := exists_tree_of_scan hscan
      exact ⟨tree, htokens, hr, fun h => absurd h hplain⟩
  obtain ⟨tree, rfl, hr, hregular⟩ := htree
  obtain ⟨c', hp', -⟩ := tree.program_tokens s hr
  rw [hp'] at hp
  cases hp
  exact ⟨tree, rfl, hr, rfl, hregular⟩

end TextTemplate
