/-
# Two rows of open blocks

The compilation keeps the open blocks by the statements that close them and by the code that they
end with, the linker by the instructions that opened them.  In the standard tags the two rows say
the same: at every place of a source where the linker has found no fault, there are as many blocks
in one as in the other, opened by the same tokens, and each ends as its kind asks.

`empty` is the one marker that changes a block in its middle.  It takes the end of the loop out of
the compilation's row and puts it into the code, so that the linker drops the loop; then it opens a
conditional in both rows, which still waits for `endfor`.

So what ends a block always finds it, and no block is left open behind a source: if the linker
refuses the code of a source, then at an `otherwise`.

* `Mirrors` relates the two forms of a block, `Draft.mirrored` carries it through a source;
* `blocks_mirrored` is the result.
-/
import Mathlib.Data.List.Forall2
import TextTemplate.Proofs.Compile.Acceptance

namespace TextTemplate

open TextTemplate.Outcome

/-! ## 1. Blocks -/

/-- An open block as the compilation has it and as the linker has it. -/
inductive Mirrors : PendingClose → OpenBlock → Prop where
  | conditional {t : Token} {b : OpenBlock} (word : t.Says "if") (kind : b.kind = .conditional)
      (opener : b.opener.token = some t) : Mirrors ⟨"endif", [.endBranch], t⟩ b
  | emptyPart {t : Token} {b : OpenBlock} {flag : String} (word : t.Says "empty")
      (kind : b.kind = .conditional) (opener : b.opener.token = some t) :
      Mirrors ⟨"endfor", [.endBranch, .clearFlag flag], t⟩ b
  | loop {t : Token} {b : OpenBlock} (word : t.Says "for") (kind : b.kind = .loop)
      (opener : b.opener.token = some t) : Mirrors ⟨"endfor", [.loopNext, .popScope], t⟩ b
  | skipped {t : Token} {b : OpenBlock} (word : t.Says "comment") (kind : b.kind = .skipped)
      (opener : b.opener.token = some t) : Mirrors ⟨"endcomment", [.endSkip], t⟩ b

namespace Mirrors

variable {p : PendingClose} {b b' : OpenBlock}

/-- Only the kind of a block and its opener count, not the jumps that wait in it. -/
theorem congr (h : Mirrors p b) (hkind : b'.kind = b.kind) (hopener : b'.opener = b.opener) :
    Mirrors p b' := by
  cases h with
  | conditional word kind opener => exact .conditional word (hkind.trans kind) (hopener ▸ opener)
  | emptyPart word kind opener => exact .emptyPart word (hkind.trans kind) (hopener ▸ opener)
  | loop word kind opener => exact .loop word (hkind.trans kind) (hopener ▸ opener)
  | skipped word kind opener => exact .skipped word (hkind.trans kind) (hopener ▸ opener)

/-- A block that mirrors another is one that a scan could have found. -/
theorem scanned (h : Mirrors p b) : ∃ o, Matches o p b := by
  have hsome : b.pending.isSome = !b.pending.isNone := by
    cases b.pending <;> rfl
  cases h with
  | conditional _ kind _ => exact ⟨_, .conditional kind hsome⟩
  | emptyPart _ kind _ => exact ⟨_, .emptyPart kind hsome⟩
  | loop _ kind _ => exact ⟨_, .loop kind⟩
  | skipped _ kind _ => exact ⟨_, .skipped kind⟩

end Mirrors

namespace Marker

variable {n : Numbers} {t : Token}

theorem says_if {c : Condition} (h : read? n t = some (.conditional c)) : t.Says "if" :=
  says_of_stated h (fun _ hs => by cases hs; rfl) fun _ hl => by cases hl

theorem says_for {names : List String} {e : Expression} (h : read? n t = some (.loop names e)) :
    t.Says "for" :=
  says_of_stated h (fun _ hs => by cases hs; rfl) fun _ hl => by cases hl

theorem says_comment (h : read? n t = some .skipped) : t.Says "comment" :=
  says_of_stated h (fun _ hs => by cases hs; rfl) fun _ hl => by cases hl

end Marker

/-! ## 2. Markers -/

/-- **Why an `otherwise` is refused**: it stands in no conditional, or in one that has had its
`otherwise`. -/
def Cause.OfOtherwise (cause : Cause) : Prop :=
  cause = .template .secondElse ∨ ∃ found, cause =
    .template (.misplaced Instruction.otherwise.title BlockKind.conditional.name found)

namespace Assembly

/-- Linking a row comes to an `otherwise` and refuses it. -/
def StopsAtOtherwise (tokenOf : Nat → Option Token) (a : Assembly) (k : Nat) (row : List Linked) :
    Prop :=
  ∃ before t after a' e, row = before ++ .plain t .otherwise :: after ∧
    a.Links tokenOf k before a' ∧
    a'.link (k + before.length) ⟨k + before.length, .otherwise, some t⟩
      (tokenOf (k + before.length)) = .error e ∧ e.cause.OfOtherwise

section

variable {tokenOf : Nat → Option Token} {a a' : Assembly} {k : Nat} {t : Token}
  {row row' : List Linked}

/-- An `otherwise` is refused, or the innermost block is a conditional with a branch that has no
target yet. -/
theorem link_otherwise (token : Option Token) :
    (∃ e, a.link k ⟨k, .otherwise, some t⟩ token = .error e ∧ e.cause.OfOtherwise) ∨
      ∃ b rest label, a.blocks = b :: rest ∧ b.kind = .conditional ∧ b.pending = some label := by
  have hmisplaced : ∀ found, ((Error.syntaxFault (.misplaced Instruction.otherwise.title
      BlockKind.conditional.name found)).at? token).cause.OfOtherwise := by
    intro found
    rw [cause_at?]
    exact .inr ⟨found, rfl⟩
  cases hb : a.blocks with
  | nil =>
    refine .inl ⟨_, ?_, hmisplaced "top level"⟩
    simp only [link, expect, hb]
    rfl
  | cons b rest =>
    by_cases hk : b.kind = .conditional
    · cases hp : b.pending with
      | none =>
        refine .inl ⟨(Error.syntaxFault .secondElse).at? token, ?_, .inl (cause_at? ..)⟩
        simp only [link, expect_of_kind hb hk]
        simp only [bind, Except.bind, hp]
      | some label => exact .inr ⟨b, rest, label, rfl, hk, hp⟩
    · refine .inl ⟨_, ?_, hmisplaced b.kind.name⟩
      simp only [link, expect, hb, if_neg hk]
      rfl

theorem StopsAtOtherwise.first {e : Error}
    (h : a.link k ⟨k, .otherwise, some t⟩ (tokenOf k) = .error e) (he : e.cause.OfOtherwise)
    (row : List Linked) : a.StopsAtOtherwise tokenOf k (.plain t .otherwise :: row) :=
  ⟨[], t, row, a, e, rfl, rfl, h, he⟩

theorem StopsAtOtherwise.append_right (h : a.StopsAtOtherwise tokenOf k row) (row' : List Linked) :
    a.StopsAtOtherwise tokenOf k (row ++ row') := by
  obtain ⟨before, t, after, a', e, rfl, hl, he⟩ := h
  exact ⟨before, t, after ++ row', a', e, by simp, hl, he⟩

theorem StopsAtOtherwise.append_left (hrow : a.Links tokenOf k row a')
    (h : a'.StopsAtOtherwise tokenOf (k + row.length) row') :
    a.StopsAtOtherwise tokenOf k (row ++ row') := by
  obtain ⟨before, t, after, a'', e, rfl, hl, he⟩ := h
  refine ⟨row ++ before, t, after, a'', e, by simp, hrow.append hl, ?_⟩
  rw [List.length_append, ← Nat.add_assoc]
  exact he

/-- Linking fails there, with the fault that the `otherwise` has. -/
theorem StopsAtOtherwise.fault (h : a.StopsAtOtherwise tokenOf k row) :
    ∃ before item after a' e, itemsFrom k row = before ++ item :: after ∧
      a.linkFrom tokenOf k before = .ok a' ∧
      a'.link (k + before.length) item (tokenOf item.label) = .error e ∧
      item.instruction = .otherwise ∧ e.cause.OfOtherwise ∧
      a.linkFrom tokenOf k (itemsFrom k row) = .error e := by
  obtain ⟨before, t, after, a', e, rfl, hl, he, hcause⟩ := h
  refine ⟨itemsFrom k before, ⟨k + before.length, .otherwise, some t⟩,
    itemsFrom (k + before.length + 1) after, a', e, itemsFrom_append .., hl, ?_, rfl, hcause, ?_⟩
  · rw [length_itemsFrom]
    exact he
  · rw [itemsFrom_append, linkFrom_append, hl, length_itemsFrom]
    simp only [bind, Except.bind, itemsFrom, linkFrom, Linked.plain, he]

end
end Assembly

/-- Linking a row of items fails in the row, or because a block is open behind it. -/
theorem Program.assemble_of_linkFrom {items : List Item} {a : Assembly}
    (h : Assembly.start.linkFrom (tokenOf? items) 0 items = .ok a) (hb : a.blocks = []) :
    ∃ p, assemble items = .ok p := by
  unfold assemble
  rw [h]
  simp only [bind, Except.bind, hb]
  exact ⟨_, rfl⟩

theorem Program.assemble_of_linkFrom_error {items : List Item} {e : Error}
    (h : Assembly.start.linkFrom (tokenOf? items) 0 items = .error e) :
    assemble items = .error e := by
  unfold assemble
  rw [h]
  rfl

open Assembly

section Steps

variable {tokenOf : Nat → Option Token} {a : Assembly} {k : Nat} {t : Token}
  {pending pending' : List PendingClose} {code : List Instruction}

/-- **What closes a block is linked**, and both rows lose the block. -/
theorem mirrors_close {name : String} (h : List.Forall₂ Mirrors pending a.blocks)
    (he : closeBlock name pending = some (pending', code)) :
    ∃ a', a.Links tokenOf k (code.map (.plain t)) a' ∧ List.Forall₂ Mirrors pending' a'.blocks := by
  generalize hblocks : a.blocks = blocks at h
  cases h with
  | nil => cases he
  | @cons p b pending blocks inner houter =>
    simp only [closeBlock] at he
    split at he
    · cases he
      obtain ⟨o, hmatches⟩ := inner.scanned
      obtain ⟨a', hl, hb⟩ := @Matches.links_ending tokenOf a k t o p b blocks hmatches hblocks
      exact ⟨a', hl, hb ▸ houter⟩
    · cases he

/-- At an `empty` the loop is closed and a conditional is opened, in both rows. -/
theorem mirrors_empty (ht : t.Says "empty") (h : List.Forall₂ Mirrors pending a.blocks)
    (he : beginEmpty t pending = some (pending', code)) :
    ∃ a', a.Links tokenOf k (code.map (.plain t)) a' ∧ List.Forall₂ Mirrors pending' a'.blocks := by
  generalize hblocks : a.blocks = blocks at h
  cases h with
  | nil => cases he
  | @cons p b pending blocks inner houter =>
    simp only [beginEmpty] at he
    split at he
    · cases he
      obtain ⟨o, hmatches⟩ := inner.scanned
      have hset : a.Links tokenOf k
          [.plain t (.setFlag (Tag.loopFlag (pending.length + 1)))] a := .single rfl
      obtain ⟨a', hl, hb⟩ := @Matches.links_ending tokenOf a (k + 1) t o p b blocks hmatches hblocks
      have hbranch : ∃ a'' b', a'.Links tokenOf (k + 1 + (p.ending.map (Linked.plain t)).length)
          [.plain t (.branch (.flagUnset (Tag.loopFlag (pending.length + 1))) false)] a'' ∧
          a''.blocks = b' :: a'.blocks ∧ b'.kind = .conditional ∧ b'.opener.token = some t :=
        ⟨_, _, .single rfl, rfl, rfl, rfl⟩
      obtain ⟨a'', b', hbranch, hb', hkind, hopener⟩ := hbranch
      refine ⟨a'', ?_, ?_⟩
      · simp only [List.map_append, List.append_assoc]
        exact hset.append (hl.append hbranch)
      · rw [hb', hb]
        exact .cons (.emptyPart ht hkind hopener) houter
    · cases he

/-- An `otherwise` is refused, or linked with the row of blocks as it was but for the jumps. -/
theorem mirrors_otherwise (h : List.Forall₂ Mirrors pending a.blocks) :
    (∃ e, a.link k ⟨k, .otherwise, some t⟩ (tokenOf k) = .error e ∧ e.cause.OfOtherwise) ∨
      ∃ a' b rest, a.Links tokenOf k [.plain t .otherwise] a' ∧ a'.blocks = b :: rest ∧
        b.kind = .conditional ∧
        ∀ label, List.Forall₂ Mirrors pending ({ b with pending := label } :: rest) := by
  rcases @link_otherwise a k t (tokenOf k) with he | ⟨b, rest, label, hb, hk, hp⟩
  · exact .inl he
  · obtain ⟨a', hl, hblocks, -⟩ := @links_otherwise tokenOf t a b rest label k 0 hb hk hp
    refine .inr ⟨a', _, rest, hl, hblocks, hk, fun label => ?_⟩
    rw [hb] at h
    cases h with
    | cons inner houter => exact .cons (inner.congr rfl rfl) houter

/-- **A marker that the compilation takes in keeps the two rows together**, unless the linker
refuses an `otherwise`. -/
theorem mirrors_step {n : Numbers} {m : Marker} (hm : Marker.read? n t = some m)
    (h : List.Forall₂ Mirrors pending a.blocks) (he : m.effect t pending = some (pending', code)) :
    (∃ a', a.Links tokenOf k (code.map (.plain t)) a' ∧ List.Forall₂ Mirrors pending' a'.blocks) ∨
      a.StopsAtOtherwise tokenOf k (code.map (.plain t)) := by
  cases m with
  | leaf l =>
    cases he
    exact .inl ⟨a, (l.idle t k).links a, h⟩
  | conditional c =>
    cases he
    exact .inl ⟨_, .single rfl, .cons (.conditional (Marker.says_if hm) rfl rfl) h⟩
  | alternative c =>
    cases he
    rcases @mirrors_otherwise tokenOf a k t pending h with
      ⟨e, herror, hcause⟩ | ⟨a₁, b, rest, hl, hb, hk, hrow⟩
    · exact .inr (.first herror hcause _)
    · have hlink : a₁.link (k + 1) ⟨k + 1, .branch c true, some t⟩ (tokenOf (k + 1)) =
          .ok { a₁ with blocks := { b with pending := some (k + 1) } :: rest } := by
        simp only [link, expect_of_kind hb hk]
        rfl
      have hbranch : a₁.Links tokenOf (k + 1) [.plain t (.branch c true)] _ := .single hlink
      exact .inl ⟨_, hl.append hbranch, hrow _⟩
  | otherwise =>
    cases he
    rcases @mirrors_otherwise tokenOf a k t pending h with
      ⟨e, herror, hcause⟩ | ⟨a', b, rest, hl, hb, hk, hrow⟩
    · exact .inr (.first herror hcause _)
    · refine .inl ⟨a', hl, ?_⟩
      rw [hb]
      exact hrow b.pending
  | loop names e =>
    cases he
    have hpush : a.Links tokenOf k [.plain t .pushScope] a := .single rfl
    have hstart : a.Links tokenOf (k + 1) [.plain t (.loopStart e names)] _ := .single rfl
    exact .inl ⟨_, hpush.append hstart, .cons (.loop (Marker.says_for hm) rfl rfl) h⟩
  | empty => exact .inl (mirrors_empty ((Marker.says_empty_iff hm).mpr rfl) h he)
  | skipped =>
    cases he
    exact .inl ⟨_, .single rfl, .cons (.skipped (Marker.says_comment hm) rfl rfl) h⟩
  | endConditional => exact .inl (mirrors_close h he)
  | endLoop => exact .inl (mirrors_close h he)
  | endSkipped => exact .inl (mirrors_close h he)

/-! ## 3. Sources -/

/-- **The two rows stay together through all tokens**, unless the linker refuses an
`otherwise`. -/
theorem Draft.mirrored : ∀ {tokens : List Token} {d d' : Draft} {a : Assembly} (k : Nat),
    List.Forall₂ Mirrors d.pending a.blocks → tokens.foldlM take d = some d' →
    ∃ row, d'.row = d.row ++ row ∧
      ((∃ a', a.Links tokenOf k row a' ∧ List.Forall₂ Mirrors d'.pending a'.blocks) ∨
        a.StopsAtOtherwise tokenOf k row)
  | [], d, d', a, k, h, ht => by
    cases ht
    exact ⟨[], (List.append_nil _).symm, .inl ⟨a, rfl, h⟩⟩
  | t :: tokens, d, d', a, k, h, ht => by
    rw [List.foldlM_cons] at ht
    obtain ⟨d₁, h₁, ht⟩ := Option.bind_eq_some_iff.mp ht
    obtain ⟨m, pending, code, hm, he, rfl⟩ := take_eq_some h₁
    rcases @mirrors_step tokenOf a k t d.pending pending code d.numbers m hm h he with
      ⟨a₁, hl, hrows⟩ | hstops
    · obtain ⟨row, hd', hrest⟩ :=
        @mirrored tokens _ d' a₁ (k + (code.map (Linked.plain t)).length) hrows ht
      rw [row_append, List.append_assoc] at hd'
      refine ⟨_, hd', ?_⟩
      rcases hrest with ⟨a', hl', hrows'⟩ | hstops
      · exact .inl ⟨a', hl.append hl', hrows'⟩
      · exact .inr (.append_left hl hstops)
    · obtain ⟨row, hd'⟩ := grows ht
      rw [row_append, List.append_assoc] at hd'
      exact ⟨_, hd', .inr (hstops.append_right row)⟩

end Steps

/-- What a compilation of some tokens has written and left open. -/
theorem Compilation.items_of_tokens {tokens : List Token} {s : Store} {c : Compilation}
    (h : tokens.forM (Compile.token Tag.standard) (.start s) = .ok () c) :
    tokens.foldlM Draft.take (Compilation.start s).draft = some c.draft ∧
      c.items = itemsFrom 0 c.draft.row := by
  have hagrees := @Compile.tokens_agree tokens (.start s) fun _ hb => absurd hb List.not_mem_nil
  rw [h] at hagrees
  refine ⟨?_, items_of_draft (Draft.written_eq _)⟩
  cases hd : tokens.foldlM Draft.take (Compilation.start s).draft with
  | none =>
    rw [hd] at hagrees
    exact hagrees.elim
  | some d =>
    rw [hd] at hagrees
    exact congrArg some (show c.draft = d from hagrees).symm

/-- **The two rows of open blocks agree.**  Take in any tokens: if the linker finds no fault with
the code so far, then its open blocks mirror those of the compilation one by one.  Take in all
tokens of a source: if the linker finds a fault with the code, then at an `otherwise`, which is
misplaced or the second one of its conditional.  So what ends a block is never refused, no block is
left open, and neither is the chained branch refused that stands behind the `otherwise` of an
`elif`. -/
theorem blocks_mirrored (tokens : List Token) (s : Store) (c : Compilation) :
    (tokens.forM (Compile.token Tag.standard) (.start s) = .ok () c →
      ∀ tokenOf a, Assembly.start.linkFrom tokenOf 0 c.items = .ok a →
        List.Forall₂ Mirrors c.pending a.blocks) ∧
    (Compile.source Tag.standard tokens (.start s) = .ok () c →
      ∀ e, Program.assemble c.items = .error e →
        ∃ before item after a, c.items = before ++ item :: after ∧
          Assembly.start.linkFrom (tokenOf? c.items) 0 before = .ok a ∧
          a.link before.length item (tokenOf? c.items item.label) = .error e ∧
          item.instruction = .otherwise ∧
          (e.cause = .template .secondElse ∨ ∃ found, e.cause = .template
            (.misplaced Instruction.otherwise.title BlockKind.conditional.name found))) := by
  have hsettled : tokens.forM (Compile.token Tag.standard) (.start s) = .ok () c →
      ∀ tokenOf, c.items = itemsFrom 0 c.draft.row ∧
        ((∃ a, Assembly.start.Links tokenOf 0 c.draft.row a ∧
          List.Forall₂ Mirrors c.pending a.blocks) ∨
        Assembly.start.StopsAtOtherwise tokenOf 0 c.draft.row) := by
    intro h tokenOf
    obtain ⟨htaken, hitems⟩ := Compilation.items_of_tokens h
    obtain ⟨row, hrow, hsettles⟩ :=
      @Draft.mirrored tokenOf tokens (Compilation.start s).draft c.draft Assembly.start 0 .nil
        htaken
    have hrow : c.draft.row = row := hrow
    exact ⟨hitems, hrow ▸ hsettles⟩
  constructor
  · intro h tokenOf a ha
    obtain ⟨hitems, ⟨a', hl, hrows⟩ | hstops⟩ := hsettled h tokenOf
    · rw [hitems] at ha
      have heq : a' = a := Except.ok.inj (hl.symm.trans ha)
      exact heq ▸ hrows
    · obtain ⟨-, -, -, -, e, -, -, -, -, -, he⟩ := hstops.fault
      rw [hitems, he] at ha
      cases ha
  · intro h e he
    obtain ⟨htokens, hpending⟩ := Compile.source_eq_ok_iff.mp h
    obtain ⟨hitems, ⟨a, hl, hrows⟩ | hstops⟩ := hsettled htokens (tokenOf? c.items)
    · -- no block is open in the compilation, so none is open in the linker
      rw [hpending] at hrows
      have hlinked : Assembly.start.linkFrom (tokenOf? c.items) 0 c.items = .ok a :=
        (congrArg _ hitems).trans hl
      obtain ⟨p, hp⟩ := Program.assemble_of_linkFrom hlinked (List.forall₂_nil_left_iff.mp hrows)
      rw [hp] at he
      cases he
    · obtain ⟨before, item, after, a, e', hsplit, hl, hlink, hi, hcause, hfault⟩ := hstops.fault
      rw [← hitems] at hsplit hfault
      rw [Program.assemble_of_linkFrom_error hfault] at he
      cases he
      rw [Nat.zero_add] at hlink
      exact ⟨before, item, after, a, hsplit, hl, hlink, hi, hcause⟩

/-- A conditional in an empty part in a comment, all of them open. -/
def openTokens : List Token :=
  [⟨.statement, "comment", 0, 13, 1⟩, ⟨.statement, "for x in y", 13, 29, 1⟩,
    ⟨.statement, "empty", 29, 40, 1⟩, ⟨.statement, "if x", 40, 50, 1⟩]

/-- The kinds of blocks that are open when the code of a compilation has been linked. -/
def openKinds : EStateM.Result Error Compilation Unit → Option (List BlockKind)
  | .ok _ c => (Assembly.start.linkFrom (tokenOf? c.items) 0 c.items).toOption.map
      fun a => a.blocks.map (·.kind)
  | .error .. => none

/-- The fault that the linker finds with the code of a compilation. -/
def linkFault : EStateM.Result Error Compilation Unit → Option Cause
  | .ok _ c => match Program.assemble c.items with
    | .error e => some e.cause
    | .ok _ => none
  | .error .. => none

/-- Three blocks that are open in both rows; and an `else` by itself, which only the linker
refuses. -/
theorem blocks_mirrored_open :
    (∃ (c : Compilation) (a : Assembly),
      openTokens.forM (Compile.token Tag.standard) (.start .empty) = .ok () c ∧
      a.blocks.map (·.kind) = [.conditional, .conditional, .skipped] ∧
      List.Forall₂ Mirrors c.pending a.blocks) ∧
    ∃ c before item after, Compile.source Tag.standard [⟨.statement, "else", 0, 10, 1⟩]
        (.start .empty) = .ok () c ∧
      c.items = before ++ item :: after ∧ item.instruction = .otherwise := by
  constructor
  · have hkinds : openKinds (openTokens.forM (Compile.token Tag.standard) (.start .empty)) =
        some [.conditional, .conditional, .skipped] := by decide +kernel
    cases hc : openTokens.forM (Compile.token Tag.standard) (.start .empty) with
    | error e c =>
      rw [hc] at hkinds
      cases hkinds
    | ok u c =>
      rw [hc] at hkinds
      simp only [openKinds] at hkinds
      cases ha : Assembly.start.linkFrom (tokenOf? c.items) 0 c.items with
      | error e =>
        rw [ha] at hkinds
        cases hkinds
      | ok a =>
        rw [ha] at hkinds
        exact ⟨c, a, rfl, Option.some.inj hkinds,
          (blocks_mirrored openTokens .empty c).1 hc _ a ha⟩
  · have hfault : linkFault (Compile.source Tag.standard [⟨.statement, "else", 0, 10, 1⟩]
        (.start .empty)) = some (.template (.misplaced "<Else>" "if" "top level")) := by
      decide +kernel
    cases hc : Compile.source Tag.standard [⟨.statement, "else", 0, 10, 1⟩] (.start .empty) with
    | error e c =>
      rw [hc] at hfault
      cases hfault
    | ok u c =>
      rw [hc] at hfault
      simp only [linkFault] at hfault
      cases he : Program.assemble c.items with
      | ok p =>
        rw [he] at hfault
        cases hfault
      | error e =>
        obtain ⟨before, item, after, a, hsplit, -, -, hi, -⟩ :=
          (blocks_mirrored _ .empty c).2 hc e he
        exact ⟨c, before, item, after, rfl, hsplit, hi⟩

end TextTemplate
