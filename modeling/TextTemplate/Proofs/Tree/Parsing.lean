/-
# The tree of a source

A source at whose end no block is open is a tree (`exists_tree_of_scan`), and the tree is regular if
the source has been scanned strictly.

The tree is found from the end of the source.  Behind each place stands first a tree, which goes on
with the block that is innermost there, then what closes this block, and then the same for the next
block outside (`Completes`).  A token in front either begins a piece of that first tree, or it ends
the first tree before it has begun.

* `Closes` says that some tokens are the rest of a block;
* `Completes` says that they are the rest of all blocks that are open;
* `Completes.cons` takes in the token in front.
-/
import TextTemplate.Proofs.Compile.Blocks

namespace TextTemplate

/-! ## 1. The rest of a block -/

/-- The tokens are the rest of a block: its tree from here on, what may follow in the block, and the
statement that closes it.  The numbers are those here and those behind the block. -/
inductive Closes (strict : Bool) (n : Numbers) : Opened → List Token → Numbers → Prop where
  | conditional {otherwise : Bool} {body : Tree} {chain : Chain} {closing : Token}
      (body_reads : body.Reads n) (chain_reads : chain.Reads (body.advance n))
      (closes : Marker.read? (chain.advance (body.advance n)) closing = some .endConditional)
      (last : otherwise = true → chain = .done)
      (regular : strict = true → body.Regular ∧ chain.Regular) :
      Closes strict n (.conditional otherwise) (body.tokens ++ (chain.tokens ++ [closing]))
        (chain.advance (body.advance n))
  | loop {body : Tree} {parts : EmptyParts} {closing : Token}
      (body_reads : body.Reads n) (parts_reads : parts.Reads (body.advance n))
      (closes : Marker.read? (parts.advance (body.advance n)) closing = some .endLoop)
      (regular : strict = true → body.Regular ∧ parts.Regular) :
      Closes strict n .loop (body.tokens ++ (parts.tokens ++ [closing]))
        (parts.advance (body.advance n))
  | emptyPart {otherwise : Bool} {body : Tree} {chain : Chain} {more : EmptyParts} {closing : Token}
      (body_reads : body.Reads n) (chain_reads : chain.Reads (body.advance n))
      (more_reads : more.Reads (chain.advance (body.advance n)))
      (closes : Marker.read? (more.advance (chain.advance (body.advance n))) closing =
        some .endLoop)
      (last : otherwise = true → chain = .done)
      (regular : strict = true → body.Regular ∧ chain = .done ∧ more = .none) :
      Closes strict n (.emptyPart otherwise)
        (body.tokens ++ (chain.tokens ++ (more.tokens ++ [closing])))
        (more.advance (chain.advance (body.advance n)))
  | skipped {body : Tree} {closing : Token} (body_reads : body.Reads n)
      (closes : Marker.read? (body.advance n) closing = some .endSkipped)
      (regular : strict = true → body.Regular) :
      Closes strict n .skipped (body.tokens ++ [closing]) (body.advance n)

/-- The tokens are the rest of a source in which these blocks are open. -/
def Completes (strict : Bool) : Numbers → List Opened → List Token → Prop
  | n, [], tokens =>
    ∃ tree : Tree, tree.tokens = tokens ∧ tree.Reads n ∧ (strict = true → tree.Regular)
  | n, b :: outer, tokens =>
    ∃ inner n' behind, tokens = inner ++ behind ∧ Closes strict n b inner n' ∧
      Completes strict n' outer behind

/-! ## 2. Pieces in front of a tree -/

/-- A piece of a tree, as what it makes of the tree behind it. -/
structure Leading (strict : Bool) (n : Numbers) (tokens : List Token) (n' : Numbers)
    (piece : Tree → Tree) : Prop where
  tokens_eq : ∀ tree, (piece tree).tokens = tokens ++ tree.tokens
  reads : ∀ tree : Tree, tree.Reads n' → (piece tree).Reads n
  advance : ∀ tree : Tree, (piece tree).advance n = tree.advance n'
  regular : strict = true → ∀ tree : Tree, tree.Regular → (piece tree).Regular

section Pieces

variable {strict : Bool} {n n' : Numbers} {t : Token} {tokens inner : List Token}

theorem Leading.leaf {l : Leaf} (h : Marker.read? n t = some (.leaf l)) :
    Leading strict n [t] (l.advance n) (.leaf t l) where
  tokens_eq _ := rfl
  reads _ hr := ⟨h, hr⟩
  advance _ := rfl
  regular _ _ hr := hr

theorem Leading.conditional {c : Condition} (h : Marker.read? n t = some (.conditional c))
    (hc : Closes strict n (.conditional false) inner n') :
    ∃ piece, Leading strict n (t :: inner) n' piece := by
  cases hc with
  | @conditional _ body chain closing body_reads chain_reads closes last regular =>
    refine ⟨.conditional t c body chain closing, fun tree => ?_, fun tree hr => ?_,
      fun tree => rfl, fun hs tree hr => ?_⟩
    · simp [Tree.tokens]
    · exact ⟨h, body_reads, chain_reads, closes, hr⟩
    · exact ⟨(regular hs).1, (regular hs).2, hr⟩

theorem Leading.loop {names : List String} {e : Expression}
    (h : Marker.read? n t = some (.loop names e)) (hc : Closes strict n .loop inner n') :
    ∃ piece, Leading strict n (t :: inner) n' piece := by
  cases hc with
  | @loop body parts closing body_reads parts_reads closes regular =>
    refine ⟨.loop t names e body parts closing, fun tree => ?_, fun tree hr => ?_,
      fun tree => rfl, fun hs tree hr => ?_⟩
    · simp [Tree.tokens]
    · exact ⟨h, body_reads, parts_reads, closes, hr⟩
    · exact ⟨(regular hs).1, (regular hs).2, hr⟩

theorem Leading.skipped (h : Marker.read? n t = some .skipped)
    (hc : Closes strict n .skipped inner n') :
    ∃ piece, Leading strict n (t :: inner) n' piece := by
  cases hc with
  | @skipped body closing body_reads closes regular =>
    refine ⟨.skipped t body closing, fun tree => ?_, fun tree hr => ?_, fun tree => rfl,
      fun hs tree hr => ?_⟩
    · simp [Tree.tokens]
    · exact ⟨h, body_reads, closes, hr⟩
    · exact ⟨regular hs, hr⟩

/-- A piece in front of the rest of a block. -/
theorem Closes.lead {b : Opened} {n'' : Numbers} {piece : Tree → Tree}
    (hp : Leading strict n tokens n' piece) (h : Closes strict n' b inner n'') :
    Closes strict n b (tokens ++ inner) n'' := by
  cases h with
  | @conditional _ body chain closing body_reads chain_reads closes last regular =>
    rw [← List.append_assoc, ← hp.tokens_eq]
    rw [← hp.advance] at chain_reads closes ⊢
    exact .conditional (hp.reads body body_reads) chain_reads closes last fun hs =>
      ⟨hp.regular hs body (regular hs).1, (regular hs).2⟩
  | @loop body parts closing body_reads parts_reads closes regular =>
    rw [← List.append_assoc, ← hp.tokens_eq]
    rw [← hp.advance] at parts_reads closes ⊢
    exact .loop (hp.reads body body_reads) parts_reads closes fun hs =>
      ⟨hp.regular hs body (regular hs).1, (regular hs).2⟩
  | @emptyPart _ body chain more closing body_reads chain_reads more_reads closes last regular =>
    rw [← List.append_assoc, ← hp.tokens_eq]
    rw [← hp.advance] at chain_reads more_reads closes ⊢
    exact .emptyPart (hp.reads body body_reads) chain_reads more_reads closes last fun hs =>
      ⟨hp.regular hs body (regular hs).1, (regular hs).2⟩
  | @skipped body closing body_reads closes regular =>
    rw [← List.append_assoc, ← hp.tokens_eq]
    rw [← hp.advance] at closes ⊢
    exact .skipped (hp.reads body body_reads) closes fun hs => hp.regular hs body (regular hs)

/-- **A piece in front of the rest of a source.** -/
theorem Completes.lead {opened : List Opened} {behind : List Token} {piece : Tree → Tree}
    (hp : Leading strict n tokens n' piece) (h : Completes strict n' opened behind) :
    Completes strict n opened (tokens ++ behind) := by
  cases opened with
  | nil =>
    obtain ⟨tree, rfl, hr, hregular⟩ := h
    exact ⟨piece tree, hp.tokens_eq tree, hp.reads tree hr,
      fun hs => hp.regular hs tree (hregular hs)⟩
  | cons b outer =>
    obtain ⟨inner, n'', rest, rfl, hc, houter⟩ := h
    exact ⟨tokens ++ inner, n'', rest, (List.append_assoc ..).symm, hc.lead hp, houter⟩

end Pieces

/-! ## 3. Tokens that end a tree -/

section Endings

variable {strict : Bool} {n n' : Numbers} {t : Token} {inner : List Token}
  {opened opened' : List Opened}

namespace Closes

theorem endConditional (otherwise : Bool) (h : Marker.read? n t = some .endConditional) :
    Closes strict n (.conditional otherwise) [t] n :=
  @conditional strict n otherwise .nil .done t trivial trivial h (fun _ => rfl)
    fun _ => ⟨trivial, trivial⟩

theorem endLoop (h : Marker.read? n t = some .endLoop) : Closes strict n .loop [t] n :=
  @loop strict n .nil .none t trivial trivial h fun _ => ⟨trivial, trivial⟩

theorem endEmptyPart (otherwise : Bool) (h : Marker.read? n t = some .endLoop) :
    Closes strict n (.emptyPart otherwise) [t] n :=
  @emptyPart strict n otherwise .nil .done .none t trivial trivial trivial h (fun _ => rfl)
    fun _ => ⟨trivial, rfl, rfl⟩

theorem endSkipped (h : Marker.read? n t = some .endSkipped) : Closes strict n .skipped [t] n :=
  @skipped strict n .nil t trivial h fun _ => trivial

/-- An `else` in front of the last body of a conditional. -/
theorem otherwise (h : Marker.read? n t = some .otherwise)
    (hc : Closes strict n (.conditional true) inner n') :
    Closes strict n (.conditional false) (t :: inner) n' := by
  cases hc with
  | @conditional _ body chain closing body_reads chain_reads closes last regular =>
    cases last rfl
    exact @conditional strict n false .nil (.otherwise t body) closing trivial ⟨h, body_reads⟩
      closes (fun hf => nomatch hf) fun hs => ⟨trivial, (regular hs).1⟩

/-- An `elif` in front of another body of a conditional. -/
theorem alternative {c : Condition} (h : Marker.read? n t = some (.alternative c))
    (hc : Closes strict n (.conditional false) inner n') :
    Closes strict n (.conditional false) (t :: inner) n' := by
  cases hc with
  | @conditional _ body chain closing body_reads chain_reads closes last regular =>
    have hclose := @conditional strict n false .nil (.alternative t c body chain) closing trivial
      ⟨h, body_reads, chain_reads⟩ closes (fun hf => nomatch hf) fun hs => ⟨trivial, regular hs⟩
    rw [← List.append_assoc]
    exact hclose

/-- An `else` in an empty part. -/
theorem emptyOtherwise (h : Marker.read? n t = some .otherwise)
    (hc : Closes false n (.emptyPart true) inner n') :
    Closes false n (.emptyPart false) (t :: inner) n' := by
  cases hc with
  | @emptyPart _ body chain more closing body_reads chain_reads more_reads closes last regular =>
    cases last rfl
    exact @emptyPart false n false .nil (.otherwise t body) more closing trivial ⟨h, body_reads⟩
      more_reads closes (fun hf => nomatch hf) fun hf => nomatch hf

/-- An `elif` in an empty part. -/
theorem emptyAlternative {c : Condition} (h : Marker.read? n t = some (.alternative c))
    (hc : Closes false n (.emptyPart false) inner n') :
    Closes false n (.emptyPart false) (t :: inner) n' := by
  cases hc with
  | @emptyPart _ body chain more closing body_reads chain_reads more_reads closes last regular =>
    have hclose := @emptyPart false n false .nil (.alternative t c body chain) more closing trivial
      ⟨h, body_reads, chain_reads⟩ more_reads closes (fun hf => nomatch hf) fun hf => nomatch hf
    rw [← List.append_assoc]
    exact hclose

/-- The `empty` behind the body of a loop. -/
theorem empty (h : Marker.read? n t = some .empty)
    (hc : Closes strict n (.emptyPart false) inner n') : Closes strict n .loop (t :: inner) n' := by
  cases hc with
  | @emptyPart _ body chain more closing body_reads chain_reads more_reads closes last regular =>
    have hclose := @loop strict n .nil (.part t body chain more) closing trivial
      ⟨h, body_reads, chain_reads, more_reads⟩ closes fun hs => ⟨trivial, regular hs⟩
    rw [← List.append_assoc chain.tokens, ← List.append_assoc body.tokens]
    exact hclose

/-- The `empty` behind another empty part. -/
theorem emptyMore {otherwise : Bool} (h : Marker.read? n t = some .empty)
    (hc : Closes false n (.emptyPart false) inner n') :
    Closes false n (.emptyPart otherwise) (t :: inner) n' := by
  cases hc with
  | @emptyPart _ body chain more closing body_reads chain_reads more_reads closes last regular =>
    have hclose := @emptyPart false n otherwise .nil .done (.part t body chain more) closing trivial
      trivial ⟨h, body_reads, chain_reads, more_reads⟩ closes (fun _ => rfl) fun hf => nomatch hf
    rw [← List.append_assoc chain.tokens, ← List.append_assoc body.tokens]
    exact hclose

end Closes

/-- What goes on with a block, at the place where the innermost block becomes another one. -/
theorem Completes.replace {b b' : Opened} {outer : List Opened} {behind : List Token}
    (hc : ∀ inner n', Closes strict n b' inner n' → Closes strict n b (t :: inner) n')
    (h : Completes strict n (b' :: outer) behind) :
    Completes strict n (b :: outer) (t :: behind) := by
  obtain ⟨inner, n', rest, rfl, hb, houter⟩ := h
  exact ⟨t :: inner, n', rest, rfl, hc inner n' hb, houter⟩

/-- What closes a block, at the place where it is closed. -/
theorem Completes.close {b : Opened} {outer : List Opened} {behind : List Token}
    (hc : Closes strict n b [t] n) (h : Completes strict n outer behind) :
    Completes strict n (b :: outer) (t :: behind) :=
  ⟨[t], n, behind, rfl, hc, h⟩

/-! ## 4. The token in front -/

theorem Completes.continued {behind : List Token} {last : Bool}
    (hn : Opened.continued strict last opened = some opened')
    (hconditional : ∀ inner n', Closes strict n (.conditional last) inner n' →
      Closes strict n (.conditional false) (t :: inner) n')
    (hempty : strict = false → ∀ inner n', Closes strict n (.emptyPart last) inner n' →
      Closes strict n (.emptyPart false) (t :: inner) n')
    (h : Completes strict n opened' behind) : Completes strict n opened (t :: behind) := by
  unfold Opened.continued at hn
  split at hn
  · cases hn
    exact h.replace hconditional
  · split at hn
    · cases hn
    · rename_i hs
      cases hn
      exact h.replace (hempty (by simpa using hs))
  · cases hn

theorem Completes.emptied {behind : List Token} (hm : Marker.read? n t = some .empty)
    (hn : Opened.emptied strict opened = some opened')
    (h : Completes strict n opened' behind) : Completes strict n opened (t :: behind) := by
  unfold Opened.emptied at hn
  split at hn
  · cases hn
    exact h.replace fun inner n' hc => hc.empty hm
  · split at hn
    · cases hn
    · rename_i hs
      cases hn
      have hs : strict = false := by simpa using hs
      subst hs
      exact h.replace fun inner n' hc => hc.emptyMore hm
  · cases hn

/-- **The token in front**: if it may stand at a place and the rest completes the place behind it,
it completes the place with it. -/
theorem Completes.cons {m : Marker} {behind : List Token} (hm : Marker.read? n t = some m)
    (hn : Opened.next strict opened m = some opened')
    (h : Completes strict (m.advance n) opened' behind) :
    Completes strict n opened (t :: behind) := by
  cases m with
  | leaf l =>
    cases hn
    exact h.lead (.leaf hm)
  | conditional c =>
    cases hn
    obtain ⟨inner, n', rest, rfl, hc, houter⟩ := h
    obtain ⟨piece, hp⟩ := Leading.conditional hm hc
    exact houter.lead hp
  | loop names e =>
    cases hn
    obtain ⟨inner, n', rest, rfl, hc, houter⟩ := h
    obtain ⟨piece, hp⟩ := Leading.loop hm hc
    exact houter.lead hp
  | skipped =>
    cases hn
    obtain ⟨inner, n', rest, rfl, hc, houter⟩ := h
    obtain ⟨piece, hp⟩ := Leading.skipped hm hc
    exact houter.lead hp
  | alternative c =>
    refine h.continued hn (fun inner n' hc => hc.alternative hm) ?_
    rintro rfl inner n' hc
    exact hc.emptyAlternative hm
  | otherwise =>
    refine h.continued hn (fun inner n' hc => hc.otherwise hm) ?_
    rintro rfl inner n' hc
    exact hc.emptyOtherwise hm
  | empty => exact h.emptied hm hn
  | endConditional =>
    rcases opened with _ | ⟨_ | _ | _ | _, outer⟩
    · cases hn
    · cases hn
      exact h.close (.endConditional _ hm)
    all_goals cases hn
  | endLoop =>
    rcases opened with _ | ⟨_ | _ | _ | _, outer⟩
    · cases hn
    · cases hn
    · cases hn
      exact h.close (.endLoop hm)
    · cases hn
      exact h.close (.endEmptyPart _ hm)
    · cases hn
  | endSkipped =>
    rcases opened with _ | ⟨_ | _ | _ | _, outer⟩
    · cases hn
    · cases hn
    · cases hn
    · cases hn
    · cases hn
      exact h.close (.endSkipped hm)

end Endings

/-! ## 5. Whole sources -/

/-- The rest of a source that is scanned to its end, with no block left open. -/
theorem completes_of_scan {strict : Bool} {n : Numbers} : ∀ {tokens : List Token} {c : Scan},
    tokens.foldlM (Scan.take strict) c = some ⟨n, []⟩ → Completes strict c.numbers c.opened tokens
  | [], c, h => by
    cases h
    exact ⟨.nil, rfl, trivial, fun _ => trivial⟩
  | t :: tokens, c, h => by
    rw [List.foldlM_cons] at h
    obtain ⟨c₁, h₁, h⟩ := Option.bind_eq_some_iff.mp h
    obtain ⟨m, opened, hm, hn, rfl⟩ := Scan.take_eq_some h₁
    exact (completes_of_scan h).cons hm hn

/-- **A source at whose end no block is open is a tree**, and a regular one if it has been scanned
strictly. -/
theorem exists_tree_of_scan {strict : Bool} {serial : Nat} {tokens : List Token} {n : Numbers}
    (h : scan strict serial tokens = some ⟨n, []⟩) : ∃ tree : Tree,
      tree.tokens = tokens ∧ tree.Reads ⟨0, serial⟩ ∧ (strict = true → tree.Regular) :=
  completes_of_scan h

end TextTemplate
