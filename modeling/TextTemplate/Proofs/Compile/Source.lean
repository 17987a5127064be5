/-
# Compiling a source

A source is compiled token by token, and its draft is put together in the same way
(`Compile.source_agrees`).  What a marker does to the open blocks is told case by case in
`Marker.Acts`.
-/
import TextTemplate.Proofs.Compile.Draft

namespace TextTemplate

open TextTemplate.Outcome

/-! ## 1. What a marker does -/

/-- What a marker does to the open blocks, from what there was to what there is, and the code that
it gives. -/
inductive Marker.Acts (t : Token) :
    Marker → List PendingClose → List PendingClose → List Instruction → Prop where
  | leaf (l : Leaf) (pending : List PendingClose) : Acts t (.leaf l) pending pending l.code
  | alternative (c : Condition) (pending : List PendingClose) :
      Acts t (.alternative c) pending pending [.otherwise, .branch c true]
  | otherwise (pending : List PendingClose) : Acts t .otherwise pending pending [.otherwise]
  | conditional (c : Condition) (pending : List PendingClose) :
      Acts t (.conditional c) pending (⟨"endif", [.endBranch], t⟩ :: pending) [.branch c false]
  | loop (names : List String) (e : Expression) (pending : List PendingClose) :
      Acts t (.loop names e) pending (⟨"endfor", [.loopNext, .popScope], t⟩ :: pending)
        [.pushScope, .loopStart e names]
  | skipped (pending : List PendingClose) :
      Acts t .skipped pending (⟨"endcomment", [.endSkip], t⟩ :: pending) [.skip]
  | empty {b : PendingClose} (outer : List PendingClose) (loop : b.closeName = Tag.loopClose)
      {flag : String} (depth : flag = Tag.loopFlag (outer.length + 1)) :
      Acts t .empty (b :: outer) (⟨Tag.loopClose, [.endBranch, .clearFlag flag], t⟩ :: outer)
        ([.setFlag flag] ++ b.ending ++ [.branch (.flagUnset flag) false])
  | closes (m : Marker) (b : PendingClose) (outer : List PendingClose)
      (name : b.closeName ∈ closeNames) : Acts t m (b :: outer) outer b.ending

namespace Marker

variable {t : Token} {pending pending' : List PendingClose} {code : List Instruction}

theorem acts_of_closeBlock {name : String} (hname : name ∈ closeNames)
    (h : closeBlock name pending = some (pending', code)) (m : Marker) :
    m.Acts t pending pending' code := by
  cases pending with
  | nil => cases h
  | cons b outer =>
    simp only [closeBlock] at h
    split at h
    · rename_i heq
      cases h
      exact .closes m b pending' (heq ▸ hname)
    · cases h

/-- **What a marker does**, case by case. -/
theorem acts_of_effect {m : Marker} (h : m.effect t pending = some (pending', code)) :
    m.Acts t pending pending' code := by
  cases m with
  | leaf l =>
    cases h
    exact .leaf l pending
  | alternative c =>
    cases h
    exact .alternative c pending
  | otherwise =>
    cases h
    exact .otherwise pending
  | conditional c =>
    cases h
    exact .conditional c pending
  | loop names e =>
    cases h
    exact .loop names e pending
  | skipped =>
    cases h
    exact .skipped pending
  | endConditional => exact acts_of_closeBlock (by decide) h _
  | endLoop => exact acts_of_closeBlock (by decide) h _
  | endSkipped => exact acts_of_closeBlock (by decide) h _
  | empty =>
    cases pending with
    | nil => cases h
    | cons b outer =>
      simp only [effect, beginEmpty] at h
      split at h
      · rename_i hloop
        cases h
        exact .empty outer hloop rfl
      · cases h

end Marker

namespace Draft

/-- A marker leaves standard blocks open, if standard blocks were. -/
theorem standard_of_effect {t : Token} {m : Marker} {pending pending' : List PendingClose}
    {code : List Instruction} (h : m.effect t pending = some (pending', code))
    (hs : ∀ b ∈ pending, b.closeName ∈ closeNames) :
    ∀ b ∈ pending', b.closeName ∈ closeNames := by
  have hif : "endif" ∈ closeNames := by decide
  have hfor : "endfor" ∈ closeNames := by decide
  have hcomment : "endcomment" ∈ closeNames := by decide
  cases Marker.acts_of_effect h with
  | leaf => exact hs
  | alternative => exact hs
  | otherwise => exact hs
  | conditional => exact List.forall_mem_cons.mpr ⟨hif, hs⟩
  | loop => exact List.forall_mem_cons.mpr ⟨hfor, hs⟩
  | skipped => exact List.forall_mem_cons.mpr ⟨hcomment, hs⟩
  | empty => exact List.forall_mem_cons.mpr ⟨hfor, (List.forall_mem_cons.mp hs).2⟩
  | closes => exact (List.forall_mem_cons.mp hs).2

/-- **What a token leads to**: its marker, and what that does. -/
theorem take_eq_some {d d' : Draft} {t : Token} (h : d.take t = some d') :
    ∃ m pending code, Marker.read? d.numbers t = some m ∧
      m.effect t d.pending = some (pending, code) ∧
      d' = ⟨pending, d.code ++ code.map (·, t), m.advance d.numbers⟩ := by
  obtain ⟨m, hm, h⟩ := Option.bind_eq_some_iff.mp h
  obtain ⟨⟨pending, code⟩, he, h⟩ := Option.map_eq_some_iff.mp h
  exact ⟨m, pending, code, hm, he, h.symm⟩

theorem standard_take {d d' : Draft} {t : Token} (h : d.take t = some d') (hs : d.Standard) :
    d'.Standard := by
  obtain ⟨m, pending, code, -, he, rfl⟩ := take_eq_some h
  exact standard_of_effect he hs

/-! ## 2. All tokens -/

/-- Take in all tokens.  No block may be left open. -/
def takeAll (d : Draft) (tokens : List Token) : Option Draft :=
  (tokens.foldlM take d).bind fun d => if d.pending = [] then some d else none

end Draft

namespace Compile

/-- All tokens, and then what is left open. -/
theorem source_apply (tags : Table Tag) (tokens : List Token) (c : Compilation) :
    source tags tokens c =
      match tokens.forM (token tags) c with
      | .error e c' => .error e c'
      | .ok _ c' =>
        match c'.pending with
        | [] => .ok () c'
        | b :: _ => .error ((Error.of (.template (.unclosedTag b.token.line
            (String.ofList b.token.command) b.closeName))).at? b.token) c' := by
  unfold source
  rw [bind_apply]
  cases tokens.forM (token tags) c with
  | error e c' => rfl
  | ok u c' =>
    simp only [bind_apply, get_apply]
    cases c'.pending with
    | nil => rfl
    | cons b outer =>
      simp only [located_apply]
      rfl

/-- **A source that is taken in to its end** leaves no block open. -/
theorem source_eq_ok_iff {tags : Table Tag} {tokens : List Token} {c c' : Compilation} :
    source tags tokens c = .ok () c' ↔
      tokens.forM (token tags) c = .ok () c' ∧ c'.pending = [] := by
  rw [source_apply]
  cases tokens.forM (token tags) c with
  | error e c₁ =>
    constructor
    · rintro ⟨⟩
    · rintro ⟨⟨⟩, -⟩
  | ok u c₁ =>
    dsimp only
    cases hp : c₁.pending with
    | nil =>
      constructor
      · rintro ⟨⟩
        exact ⟨rfl, hp⟩
      · rintro ⟨h, -⟩
        cases h
        rfl
    | cons b outer =>
      constructor
      · rintro ⟨⟩
      · rintro ⟨h, hnil⟩
        cases h
        rw [hp] at hnil
        cases hnil

theorem tokens_agree : ∀ (tokens : List Token) {c : Compilation}, c.draft.Standard →
    Agrees (tokens.forM (token Tag.standard) c) (tokens.foldlM Draft.take c.draft)
  | [], c, _ => rfl
  | t :: tokens, c, hs => by
    have ht := token_agrees t hs
    have hforM : (t :: tokens).forM (token Tag.standard) =
        token Tag.standard t >>= fun _ => tokens.forM (token Tag.standard) := rfl
    rw [hforM, bind_apply, List.foldlM_cons]
    cases hr : token Tag.standard t c with
    | error e c' =>
      cases hd : c.draft.take t with
      | none =>
        rw [hr, hd] at ht
        exact ht
      | some d =>
        rw [hr, hd] at ht
        exact ht.elim
    | ok u c' =>
      cases hd : c.draft.take t with
      | none =>
        rw [hr, hd] at ht
        exact ht.elim
      | some d =>
        rw [hr, hd] at ht
        have hs' : c'.draft.Standard := ht ▸ Draft.standard_take hd hs
        have ih := tokens_agree tokens hs'
        rw [show c'.draft = d from ht] at ih
        exact ih

/-- **A source compiles as its draft says.** -/
theorem source_agrees (tokens : List Token) (s : Store) :
    Agrees (source Tag.standard tokens (.start s))
      ((Compilation.start s).draft.takeAll tokens) := by
  have hs : (Compilation.start s).draft.Standard := fun _ h => absurd h List.not_mem_nil
  have htokens := tokens_agree tokens hs
  unfold source Draft.takeAll
  rw [bind_apply]
  cases hr : tokens.forM (token Tag.standard) (.start s) with
  | error e c =>
    cases hd : tokens.foldlM Draft.take (Compilation.start s).draft with
    | none =>
      rw [hr, hd] at htokens
      exact htokens
    | some d =>
      rw [hr, hd] at htokens
      exact htokens.elim
  | ok u c =>
    cases hd : tokens.foldlM Draft.take (Compilation.start s).draft with
    | none =>
      rw [hr, hd] at htokens
      exact htokens.elim
    | some d =>
      rw [hr, hd] at htokens
      have hpending : d.pending = c.pending := by
        rw [← show c.draft = d from htokens]
        rfl
      simp only [bind_apply, get_apply, Option.bind_some,
        hpending]
      cases hp : c.pending with
      | nil =>
        simp only [if_true]
        exact htokens
      | cons b outer =>
        simp only [located_apply, if_neg (List.cons_ne_nil b outer)]
        exact .inl ⟨_, rfl⟩

end Compile
end TextTemplate
