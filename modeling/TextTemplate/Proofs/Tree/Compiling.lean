/-
# Compiling the tokens of a tree

The tokens of a tree compile to the row of the tree, with the numbers counted on
(`Tree.writes`).  With the linking of that row and its running this says all there is to say about
a source that is a tree: `Tree.program_run`.

The end of a loop stands in the code where its first empty part begins, so what the empty parts
write is said together with the end of the block before them (`EmptyParts.writes`).
-/
import TextTemplate.Proofs.Compile.Source
import TextTemplate.Proofs.Tree.Linking
import TextTemplate.Proofs.Tree.Running
import TextTemplate.Grammar.Segment

namespace TextTemplate

open TextTemplate.Outcome

/-! ## 1. Writing -/

/-- An instruction as it is written, without a target. -/
def Linked.bare (i : Linked) : Instruction × Option Token := (i.instruction, i.token)

namespace Draft

/-- The code of a draft, as it is written. -/
def written (d : Draft) : List (Instruction × Option Token) := d.code.map fun p => (p.1, some p.2)

/-- Taking in some tokens writes some code. -/
structure Writes (d : Draft) (tokens : List Token) (code : List (Instruction × Option Token))
    (d' : Draft) : Prop where
  taken : tokens.foldlM take d = some d'
  written : d'.written = d.written ++ code

namespace Writes

variable {d d' d'' : Draft} {tokens tokens' : List Token}
  {code code' : List (Instruction × Option Token)}

theorem nil : d.Writes [] [] d := ⟨rfl, (List.append_nil _).symm⟩

theorem append (h : d.Writes tokens code d') (h' : d'.Writes tokens' code' d'') :
    d.Writes (tokens ++ tokens') (code ++ code') d'' where
  taken := by
    rw [List.foldlM_append, h.taken]
    exact h'.taken
  written := by rw [h'.written, h.written, List.append_assoc]

/-- One token, and what comes after it. -/
theorem cons {t : Token} {m : Marker} {pending : List PendingClose} {is : List Instruction}
    (hm : Marker.read? d.numbers t = some m) (he : m.effect t d.pending = some (pending, is))
    (h : (Draft.mk pending (d.code ++ is.map (·, t)) (m.advance d.numbers)).Writes tokens code d') :
    d.Writes (t :: tokens) (is.map (·, some t) ++ code) d' where
  taken := by
    rw [List.foldlM_cons, take, hm, Option.bind_some, takeMarker, he]
    exact h.taken
  written := by
    rw [h.written]
    simp [Draft.written]

end Writes
end Draft

/-! ## 2. Trees -/

mutual

/-- **The tokens of a tree write the row of the tree.** -/
theorem Tree.writes : ∀ (tree : Tree) (d : Draft) (k : Nat), tree.Reads d.numbers →
    ∃ d', d.Writes tree.tokens ((tree.linked d.pending.length k).map Linked.bare) d' ∧
      d'.pending = d.pending ∧ d'.numbers = tree.advance d.numbers
  | .nil, d, _, _ => ⟨d, .nil, rfl, rfl⟩
  | .leaf t leaf next, d, k, hr => by
    obtain ⟨d', hd', hp, hn⟩ := next.writes
      ⟨d.pending, d.code ++ leaf.code.map (·, t), leaf.advance d.numbers⟩
      (k + leaf.code.length) hr.2
    refine ⟨d', ?_, hp, hn⟩
    have h := Draft.Writes.cons hr.1 rfl hd'
    have hleaf : (leaf.linked t).map Linked.bare = leaf.code.map (·, some t) := by
      simp [Leaf.linked, Linked.bare, Linked.plain, Function.comp_def]
    rw [Tree.linked, List.map_append, hleaf]
    exact h
  | .conditional t c body chain closing next, d, k, hr => by
    obtain ⟨hopen, hbody, hchain, hclose, hnext⟩ := hr
    obtain ⟨d₁, h₁, hp₁, hn₁⟩ := body.writes
      ⟨⟨"endif", [.endBranch], t⟩ :: d.pending, d.code ++ [(.branch c false, t)], d.numbers⟩
      (k + 1) hbody
    rw [← hn₁] at hchain hclose hnext
    obtain ⟨d₂, h₂, hp₂, hn₂⟩ := chain.writes d₁ (k + 1 + body.size)
      (k + 1 + body.size + chain.size + 1) hchain
    rw [← hn₂] at hclose hnext
    obtain ⟨d₃, h₃, hp₃, hn₃⟩ := next.writes
      ⟨d.pending, d₂.code ++ [(.endBranch, closing)], d₂.numbers⟩
      (k + 1 + body.size + chain.size + 1) hnext
    have heffect : Marker.endConditional.effect closing d₂.pending =
        some (d.pending, [.endBranch]) := by
      rw [hp₂, hp₁]
      rfl
    rw [hp₁] at h₂
    refine ⟨d₃, ?_, hp₃, ?_⟩
    · have h := Draft.Writes.cons hopen rfl (h₁.append (h₂.append (.cons hclose heffect h₃)))
      rw [Tree.linked]
      simp only [List.map_cons, List.map_append]
      exact h
    · rw [hn₃, hn₂, hn₁]
      rfl
  | .loop t names e body parts closing next, d, k, hr => by
    obtain ⟨hopen, hbody, hparts, hclose, hnext⟩ := hr
    obtain ⟨d₁, h₁, hp₁, hn₁⟩ := body.writes
      ⟨⟨"endfor", [.loopNext, .popScope], t⟩ :: d.pending,
        d.code ++ [(.pushScope, t), (.loopStart e names, t)], d.numbers⟩ (k + 2) hbody
    rw [← hn₁] at hparts hclose hnext
    obtain ⟨d₂, h₂, hp₂, hn₂⟩ := parts.writes d₁ (k + 2 + body.size + parts.leadSize + 2) closing
      _ d.pending hp₁ rfl hparts hclose
    rw [← hn₂] at hnext
    obtain ⟨d₃, h₃, hp₃, hn₃⟩ := next.writes d₂
      (k + 2 + body.size + parts.leadSize + 2 + parts.size) hnext
    rw [hp₁] at h₂
    rw [hp₂] at h₃
    refine ⟨d₃, ?_, hp₃.trans hp₂, ?_⟩
    · have h := Draft.Writes.cons hopen rfl (h₁.append (h₂.append h₃))
      rw [Tree.linked, Tree.tokens]
      simpa [Linked.bare, Linked.plain, Linked.jump] using h
    · rw [hn₃, hn₂, hn₁]
      rfl
  | .skipped t body closing next, d, k, hr => by
    obtain ⟨hopen, hbody, hclose, hnext⟩ := hr
    obtain ⟨d₁, h₁, hp₁, hn₁⟩ := body.writes
      ⟨⟨"endcomment", [.endSkip], t⟩ :: d.pending, d.code ++ [(.skip, t)], d.numbers⟩
      (k + 1) hbody
    rw [← hn₁] at hclose hnext
    obtain ⟨d₂, h₂, hp₂, hn₂⟩ := next.writes
      ⟨d.pending, d₁.code ++ [(.endSkip, closing)], d₁.numbers⟩ (k + 1 + body.size + 1) hnext
    have heffect : Marker.endSkipped.effect closing d₁.pending = some (d.pending, [.endSkip]) := by
      rw [hp₁]
      rfl
    refine ⟨d₂, ?_, hp₂, ?_⟩
    · have h := Draft.Writes.cons hopen rfl (h₁.append (.cons hclose heffect h₂))
      rw [Tree.linked]
      simp only [List.map_cons, List.map_append]
      exact h
    · rw [hn₂, hn₁]
      rfl

/-- The tokens of a chain write the row of the chain. -/
theorem Chain.writes : ∀ (chain : Chain) (d : Draft) (j stop : Nat), chain.Reads d.numbers →
    ∃ d', d.Writes chain.tokens ((chain.linked d.pending.length j stop).map Linked.bare) d' ∧
      d'.pending = d.pending ∧ d'.numbers = chain.advance d.numbers
  | .done, d, _, _, _ => ⟨d, .nil, rfl, rfl⟩
  | .otherwise t body, d, j, stop, hr => by
    obtain ⟨d₁, h₁, hp₁, hn₁⟩ := body.writes
      ⟨d.pending, d.code ++ [(.otherwise, t)], d.numbers⟩ (j + 1) hr.2
    exact ⟨d₁, .cons hr.1 rfl h₁, hp₁, hn₁⟩
  | .alternative t c body chain, d, j, stop, hr => by
    obtain ⟨hopen, hbody, hchain⟩ := hr
    obtain ⟨d₁, h₁, hp₁, hn₁⟩ := body.writes
      ⟨d.pending, d.code ++ [(.otherwise, t), (.branch c true, t)], d.numbers⟩ (j + 2) hbody
    rw [← hn₁] at hchain
    obtain ⟨d₂, h₂, hp₂, hn₂⟩ := chain.writes d₁ (j + 2 + body.size) stop hchain
    rw [hp₁] at h₂
    refine ⟨d₂, ?_, hp₂.trans hp₁, ?_⟩
    · have h := Draft.Writes.cons hopen rfl (h₁.append h₂)
      rw [Chain.linked]
      simp only [List.map_cons, List.map_append]
      exact h
    · rw [hn₂, hn₁]
      rfl

/-- **The tokens of empty parts, with the one that closes the loop,** write the end of the block
before them, and then the row of the parts. -/
theorem EmptyParts.writes : ∀ (parts : EmptyParts) (d : Draft) (k : Nat) (closing : Token)
    (b : PendingClose) (outer : List PendingClose), d.pending = b :: outer →
    b.closeName = Tag.loopClose → parts.Reads d.numbers →
    Marker.read? (parts.advance d.numbers) closing = some .endLoop →
    ∃ d', d.Writes (parts.tokens ++ [closing])
        ((parts.lead (Tag.loopFlag d.pending.length)).map Linked.bare ++
          b.ending.map (·, some (parts.endOfBody closing)) ++
          (parts.linked d.pending.length k closing).map Linked.bare) d' ∧
      d'.pending = outer ∧ d'.numbers = parts.advance d.numbers
  | .none, d, k, closing, b, outer, hp, hb, hr, hc => by
    have heffect : Marker.endLoop.effect closing d.pending = some (outer, b.ending) := by
      rw [hp]
      exact if_pos hb.symm
    exact ⟨_, .cons hc heffect .nil, rfl, rfl⟩
  | .part t body chain more, d, k, closing, b, outer, hp, hb, hr, hc => by
    obtain ⟨hopen, hbody, hchain, hmore⟩ := hr
    have hdepth : d.pending.length = outer.length + 1 := by rw [hp, List.length_cons]
    have heffect : Marker.empty.effect t d.pending =
        some (⟨Tag.loopClose, [.endBranch, .clearFlag (Tag.loopFlag (outer.length + 1))], t⟩ ::
          outer, [.setFlag (Tag.loopFlag (outer.length + 1))] ++ b.ending ++
            [.branch (.flagUnset (Tag.loopFlag (outer.length + 1))) false]) := by
      rw [hp]
      exact if_pos hb
    obtain ⟨d₁, h₁, hp₁, hn₁⟩ := body.writes
      ⟨⟨Tag.loopClose, [.endBranch, .clearFlag (Tag.loopFlag (outer.length + 1))], t⟩ :: outer,
        d.code ++ ([Instruction.setFlag (Tag.loopFlag (outer.length + 1))] ++ b.ending ++
          [Instruction.branch (.flagUnset (Tag.loopFlag (outer.length + 1))) false]).map (·, t),
        d.numbers⟩ (k + 1) hbody
    rw [← hn₁] at hchain hmore
    obtain ⟨d₂, h₂, hp₂, hn₂⟩ := chain.writes d₁ (k + 1 + body.size)
      (k + 1 + body.size + chain.size + more.leadSize + 1) hchain
    rw [← hn₂] at hmore
    have hclose : Marker.read? (more.advance d₂.numbers) closing = some .endLoop := by
      rw [hn₂, hn₁]
      exact hc
    obtain ⟨d₃, h₃, hp₃, hn₃⟩ := more.writes d₂
      (k + 1 + body.size + chain.size + more.leadSize + 1 + 1) closing _ outer (hp₂.trans hp₁) rfl
      hmore hclose
    rw [hp₁] at h₂
    rw [hp₂, hp₁] at h₃
    refine ⟨d₃, ?_, hp₃, ?_⟩
    · have h := Draft.Writes.cons hopen heffect (h₁.append (h₂.append h₃))
      rw [hdepth, EmptyParts.linked, EmptyParts.tokens]
      simpa [EmptyParts.lead, EmptyParts.endOfBody, Linked.bare, Linked.plain, Linked.jump] using h
    · rw [hn₃, hn₂, hn₁]
      rfl

end

/-! ## 3. Programs -/

theorem mapIdx_eq_itemsFrom : ∀ (code : List (Instruction × Token)) (row : List Linked) (k : Nat),
    (code.map fun p => (p.1, some p.2)) = row.map Linked.bare →
      code.mapIdx (fun i p => (⟨k + i, p.1, some p.2⟩ : Item)) = itemsFrom k row
  | [], [], _, _ => rfl
  | [], _ :: _, _, h => by cases h
  | _ :: _, [], _, h => by cases h
  | p :: code, i :: row, k, h => by
    rw [List.map_cons, List.map_cons] at h
    injection h with hp hcode
    have ih := mapIdx_eq_itemsFrom code row (k + 1) hcode
    have hi : i.instruction = p.1 ∧ i.token = some p.2 := by
      injection hp with h₁ h₂
      exact ⟨h₁.symm, h₂.symm⟩
    have hshift : (fun i (p : Instruction × Token) => (⟨k + (i + 1), p.1, some p.2⟩ : Item)) =
        fun i p => ⟨k + 1 + i, p.1, some p.2⟩ := by
      funext n p
      rw [Nat.add_right_comm, Nat.add_assoc]
    rw [List.mapIdx_cons, hshift, ih, itemsFrom, hi.1, hi.2, Nat.add_zero]

/-- The items of a compilation whose draft has written a row. -/
theorem Compilation.items_of_draft {c : Compilation} {row : List Linked}
    (h : c.draft.written = row.map Linked.bare) : c.items = itemsFrom 0 row := by
  rw [← mapIdx_eq_itemsFrom c.code.reverse row 0 h]
  simp only [items, Nat.zero_add]

/-- **The tokens of a tree compile to the program of the tree.** -/
theorem Tree.program_tokens (tree : Tree) (s : Store) (hr : tree.Reads ⟨0, s.serial⟩) :
    ∃ c, Compile.program Tag.standard tree.tokens (.start s) =
        .ok ⟨(tree.linked 0 0).toArray⟩ c ∧ c.draft.numbers = tree.advance ⟨0, s.serial⟩ := by
  obtain ⟨d, ⟨htaken, hwritten⟩, hpending, hnumbers⟩ :=
    tree.writes (Compilation.start s).draft 0 hr
  have hall : (Compilation.start s).draft.takeAll tree.tokens = some d := by
    have hclosed : d.pending = [] := hpending
    rw [Draft.takeAll, htaken, Option.bind_some, if_pos hclosed]
  have hagrees := Compile.source_agrees tree.tokens s
  rw [hall] at hagrees
  cases hsource : Compile.source Tag.standard tree.tokens (.start s) with
  | error e c =>
    rw [hsource] at hagrees
    exact hagrees.elim
  | ok u c =>
    rw [hsource] at hagrees
    have hdraft : c.draft = d := hagrees
    have hitems : c.items = itemsFrom 0 (tree.linked 0 0) := by
      refine Compilation.items_of_draft ?_
      rw [hdraft, hwritten]
      rfl
    refine ⟨c, ?_, hdraft ▸ hnumbers⟩
    unfold Compile.program
    simp only [Compile.bind_apply, hsource, get_apply, hitems,
      Program.assemble_linked]
    rfl

/-- **A source that is a tree compiles, and its program runs as the tree is evaluated**: with the
same output, the same values and names behind it, and the same error. -/
theorem program_run_eq_tree_run (delimiters : Delimiters) (source : String) (s : Store)
    (tree : Tree) (hsource : delimiters.tokens source = tree.tokens)
    (hr : tree.Reads ⟨0, s.serial⟩) :
    ∃ p c, Compile.program Tag.standard (delimiters.tokens source) (.start s) = .ok p c ∧
      ∀ env, p.run env = tree.run env := by
  obtain ⟨c, hprogram, -⟩ := tree.program_tokens s hr
  rw [hsource]
  exact ⟨_, c, hprogram, tree.run_linked hr⟩

/-- A variable as an expression. -/
def Expression.variable (name : String) : Expression := ⟨name, ⟨name, .path [name]⟩, []⟩

/-- A loop with a conditional in its body and another loop in its empty part. -/
def nestedSource : String :=
  "\x7b% for x in y %\x7d\x7b% if x %\x7d\x7b\x7b x \x7d\x7d\x7b% else %\x7da\x7b% endif %\x7d" ++
  "\x7b% empty %\x7d\x7b% for u in z %\x7db\x7b% empty %\x7dc\x7b% endfor %\x7d\x7b% endfor %\x7d"

/-- The same as a tree. -/
def nestedTree : Tree :=
  .loop ⟨.statement, "for x in y", 0, 16, 1⟩ ["x"] (.variable "y")
    (.conditional ⟨.statement, "if x", 16, 26, 1⟩ (.truth (.variable "x"))
      (.leaf ⟨.expression, "x", 26, 33, 1⟩ (.expression (.variable "x")) .nil)
      (.otherwise ⟨.statement, "else", 33, 43, 1⟩ (.leaf ⟨.text, "a", 43, 44, 1⟩ (.text "a") .nil))
      ⟨.statement, "endif", 44, 55, 1⟩ .nil)
    (.part ⟨.statement, "empty", 55, 66, 1⟩
      (.loop ⟨.statement, "for u in z", 66, 82, 1⟩ ["u"] (.variable "z")
        (.leaf ⟨.text, "b", 82, 83, 1⟩ (.text "b") .nil)
        (.part ⟨.statement, "empty", 83, 94, 1⟩ (.leaf ⟨.text, "c", 94, 95, 1⟩ (.text "c") .nil)
          .done .none)
        ⟨.statement, "endfor", 95, 107, 1⟩ .nil)
      .done .none)
    ⟨.statement, "endfor", 107, 119, 1⟩ .nil

/-- The nested loops compile and run as their tree. -/
theorem program_run_nested : ∃ p c,
    Compile.program Tag.standard (Delimiters.standard.tokens nestedSource) (.start .empty) =
      .ok p c ∧ ∀ env, p.run env = nestedTree.run env := by
  have hsource : Delimiters.standard.tokens nestedSource = nestedTree.tokens := by decide +kernel
  have hreads : nestedTree.Reads ⟨0, Store.firstSerial⟩ := by decide +kernel
  exact program_run_eq_tree_run Delimiters.standard nestedSource .empty nestedTree hsource hreads

end TextTemplate
