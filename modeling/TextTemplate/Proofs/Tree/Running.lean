/-
# The code of a tree does what the tree means

A program that holds the row of a tree carries every run from the first place of the row to the
place behind it, as the direct evaluation of the tree says (`Tree.carries`).  The running loops and
the flags are behind the row what they were in front of it, provided no flag of a deeper block is
set, and none is where a block begins.

A chain has two ways out, one behind its row and one at the place where the conditional stops, so
what comes after it is part of its statement (`Chain.carries`).
-/
import TextTemplate.Proofs.Tree.Instructions

namespace TextTemplate

open TextTemplate.Outcome

variable {p : Program} {env : Environment}

/-! ## 1. Leaves -/

/-- **The row of a leaf does what the leaf means.** -/
theorem Leaf.carries {t : Token} (leaf : Leaf) {k : Nat} {l : List Loop} {g : List String}
    (f : Frame) (has : p.Has k (leaf.linked t)) (hl : Enclose l k) :
    p.Carries env k (Run.reframe l g f) (k + leaf.code.length) l g
      (Run.located env t (leaf.render env) f) := by
  have hframed := (leaf.render_local env).framed
  cases leaf with
  | nothing => exact .refl _ _
  | text s => exact Program.carries_of_framed has.1 hl hframed rfl
  | expression e =>
    refine Program.carries_of_framed has.1 hl hframed ?_
    simp only [Linked.execute, Linked.plain, render, Run.writeExpression, bind_assoc]
  | cycle values counter => exact Program.carries_of_framed has.1 hl hframed rfl
  | serial name number =>
    refine Program.carries_of_framed has.1 hl hframed ?_
    simp only [Linked.execute, Linked.plain, render, Run.assign, bind_assoc]

/-! ## 2. What comes after -/

namespace Run

theorem inLayer_bind {α β : Type} {x : Run α} {y : α → Run β} :
    (inLayer x >>= y) =
      pushLayer >>= fun _ => x >>= fun a => dropLayer >>= fun _ => y a := by
  simp only [inLayer, bind_assoc, pure_bind]

/-- What comes after a choice comes after both ways. -/
theorem choose_bind {t : Token} {c : Condition} {x y rest : Run Unit} :
    (choose env t c x y >>= fun _ => rest) =
      choose env t c (x >>= fun _ => rest) (y >>= fun _ => rest) := by
  simp only [choose, bind_assoc]
  congr 1
  funext b
  cases b <;> rfl

end Run

theorem Scopes.two_lt_depth_push (c : Scopes) : 2 < (c.push []).depth := by
  simp only [Scopes.depth, Scopes.push, List.length_cons]
  omega

namespace Chain

theorem lt_entry {k j stop : Nat} (chain : Chain) (hj : k ≤ j) (hstop : k < stop) :
    k < chain.entry j stop := by
  cases chain with
  | done => exact hstop
  | otherwise => exact Nat.lt_succ_of_le hj
  | alternative => exact Nat.lt_succ_of_le hj

/-- Behind a body a chain is passed over. -/
theorem carries_behind {depth j stop k' : Nat} {l l' : List Loop} {g g' : List String}
    {rest : Run Unit} (chain : Chain) (has : p.Has j (chain.linked depth j stop))
    (hl : Enclose l j) (hlt : j < stop)
    (hstop : ∀ f, p.Carries env stop (Run.reframe l g f) k' l' g' (rest f))
    (hend : ∀ f, p.Carries env (j + chain.size) (Run.reframe l g f) k' l' g' (rest f))
    (f : Frame) : p.Carries env j (Run.reframe l g f) k' l' g' (rest f) := by
  cases chain with
  | done => exact hend f
  | otherwise t body => exact (hstop f).after (Program.leads_jump has.1 (.inl rfl) hl hlt)
  | alternative t c body chain =>
    exact (hstop f).after (Program.leads_jump has.1 (.inl rfl) hl hlt)

end Chain

/-! ## 3. Flags behind empty parts -/

/-- The flags behind all empty parts. -/
def EmptyParts.cleared (flag : String) (flags : List String) : EmptyParts → List String
  | none => flags
  | part .. => flags.filter (· != flag)

/-- A flag that was not set is not set behind the empty parts, whether there were items or not. -/
theorem EmptyParts.cleared_marked {flag : String} {flags : List String} (h : flag ∉ flags)
    (parts : EmptyParts) (empty : Bool) :
    parts.cleared flag (if empty then flags else parts.marked flag flags) = flags := by
  have hf : flags.filter (· != flag) = flags :=
    List.filter_eq_self.mpr fun x hx => bne_iff_ne.mpr fun he => h (he ▸ hx)
  cases parts with
  | none => cases empty <;> rfl
  | part t body chain more =>
    cases empty with
    | true => exact hf
    | false => exact (filter_marked flag flags (part t body chain more)).trans hf

/-- The flag says whether there were items. -/
theorem EmptyParts.mem_marked {flag : String} {flags : List String} (h : flag ∉ flags)
    {parts : EmptyParts} (hp : parts ≠ none) (empty : Bool) :
    flag ∈ (if empty then flags else parts.marked flag flags) ↔ empty = false := by
  cases parts with
  | none => exact absurd rfl hp
  | part =>
    cases empty with
    | true => simp [h]
    | false => simp [marked]

theorem EmptyParts.cleared_filter (flag : String) (flags : List String) (parts : EmptyParts) :
    parts.cleared flag (flags.filter (· != flag)) = flags.filter (· != flag) := by
  cases parts with
  | none => rfl
  | part => simp only [cleared, List.filter_filter, Bool.and_self]

/-! ## 4. Trees -/

mutual

/-- **The row of a tree does what the tree means.** -/
theorem Tree.carries : ∀ (tree : Tree) {depth k : Nat} {n : Numbers} {l : List Loop}
    {g : List String} (f : Frame), p.Has k (tree.linked depth k) → tree.Reads n → Enclose l k →
    Clear depth g →
      p.Carries env k (Run.reframe l g f) (k + tree.size) l g (tree.render env f)
  | .nil, _, _, _, _, _, _, _, _, _, _ => .pure _ _
  | .leaf t leaf next, depth, k, n, l, g, f, has, hr, hl, hg => by
    obtain ⟨hleaf, hnext⟩ := Program.has_append.mp has
    rw [Leaf.length_linked] at hnext
    rw [Tree.size, ← Nat.add_assoc]
    refine .bind (leaf.carries f hleaf hl) fun f' _ => ?_
    exact next.carries f' hnext hr.2 (hl.mono (Nat.le_add_right _ _)) hg
  | .conditional t c body chain closing next, depth, k, n, l, g, f, has, hr, hl, hg => by
    obtain ⟨hbranch, has⟩ := has
    obtain ⟨hbody, has⟩ := Program.has_append.mp has
    obtain ⟨hchain, hclosing, hnext⟩ := Program.has_append.mp has
    simp only [Tree.length_linked, Chain.length_linked] at hchain hclosing hnext
    obtain ⟨hc, hrbody, hrchain, -, hrnext⟩ := hr
    have hsize : k + (Tree.conditional t c body chain closing next).size =
        k + 1 + body.size + chain.size + 1 + next.size := by
      rw [Tree.size]
      omega
    have hstop : ∀ f', p.Carries env (k + 1 + body.size + chain.size + 1) (Run.reframe l g f')
        (k + 1 + body.size + chain.size + 1 + next.size) l g (next.render env f') := fun f' =>
      next.carries f' hnext hrnext (hl.mono (by omega)) hg
    have hend : ∀ f', p.Carries env (k + 1 + body.size + chain.size) (Run.reframe l g f')
        (k + 1 + body.size + chain.size + 1 + next.size) l g (next.render env f') := fun f' =>
      (hstop f').after (Program.leads_end hclosing (.inl rfl) (hl.mono (by omega)))
    have hdeep : Clear (depth + 1) g := hg.mono (Nat.le_succ depth)
    have hchainlt : k < chain.entry (k + 1 + body.size) (k + 1 + body.size + chain.size + 1) :=
      chain.lt_entry (by omega) (by omega)
    rw [hsize, Tree.render, Run.choose_bind]
    refine Program.carries_choose hbranch (Marker.plain_of_read hc (.inl rfl)) hl hchainlt
      (fun f' => ?_) (fun f' => ?_)
    · refine .bind (body.carries f' hbody hrbody (hl.mono (Nat.le_succ k)) hdeep) fun f'' _ => ?_
      exact chain.carries_behind hchain (hl.mono (by omega)) (by omega) hstop hend f''
    · exact chain.carries _ f' hchain hrchain (hl.mono (by omega)) hdeep (by omega) hstop hend
  | .loop t names e body parts closing next, depth, k, n, l, g, f, has, hr, hl, hg => by
    obtain ⟨hpush, hstart, has⟩ := has
    obtain ⟨hbody, has⟩ := Program.has_append.mp has
    obtain ⟨hlead, hitem, hpop, has⟩ := Program.has_append.mp has
    obtain ⟨hparts, hnext⟩ := Program.has_append.mp has
    simp only [Tree.length_linked, EmptyParts.length_lead, EmptyParts.length_linked] at *
    obtain ⟨-, hrbody, hrparts, -, hrnext⟩ := hr
    have hdeep : Clear (depth + 1) g := hg.mono (Nat.le_succ depth)
    have hunset : Tag.loopFlag (depth + 1) ∉ g := hg (depth + 1) (Nat.lt_succ_self depth)
    have hsize : k + (Tree.loop t names e body parts closing next).size =
        k + 2 + body.size + parts.leadSize + 2 + parts.size + next.size := by
      rw [Tree.size]
      omega
    have hcode : Program.LoopCode p env (k + 1) (k + 2 + body.size + parts.leadSize) (depth + 1)
        names (parts.endOfBody closing) parts (body.render env) := by
      refine ⟨hitem, by omega, body.render_local env, fun f' hl' hg' => ?_⟩
      refine (body.carries f' hbody hrbody hl' hg').before fun f'' => ?_
      exact Program.leads_lead hlead (hl'.mono (by omega))
    obtain ⟨f₁, hf₁⟩ : ∃ f₁, Run.pushLayer f = .ok () f₁ := ⟨_, rfl⟩
    have hpushed : 2 < f₁.world.scopes.depth := by
      injection hf₁ with _ hf₁
      rw [← hf₁]
      exact Scopes.two_lt_depth_push f.world.scopes
    rw [hsize, Tree.render, Run.inLayer_bind, bind_of_ok hf₁]
    simp only [bind_assoc, pure_bind]
    refine Program.Carries.after (Program.leads_pushScope hpush hl hf₁) ?_
    refine hcode.carries_loop hstart (hl.mono (Nat.le_succ k)) hdeep fun items f' hdepth => ?_
    obtain ⟨f₂, hf₂⟩ : ∃ f₂, Run.dropLayer f' = .ok () f₂ := ⟨_, rfl⟩
    rw [bind_of_ok hf₂]
    refine Program.Carries.after
      (Program.leads_popScope hpop (hl.mono (by omega)) (hdepth ▸ hpushed) hf₂) ?_
    have hcarries := parts.carries items.isEmpty f₂ hparts hrparts (hl.mono (by omega)) ?_
      fun hp => parts.mem_marked hunset hp items.isEmpty
    · rw [parts.cleared_marked hunset] at hcarries
      refine hcarries.bind fun f₃ _ => ?_
      exact next.carries f₃ hnext hrnext (hl.mono (by omega)) hg
    · cases items.isEmpty with
      | true => exact hdeep
      | false => exact parts.clear_marked hdeep
  | .skipped t body closing next, depth, k, n, l, g, f, has, hr, hl, hg => by
    obtain ⟨hskip, has⟩ := has
    obtain ⟨-, -, hnext⟩ := Program.has_append.mp has
    rw [Tree.length_linked] at hnext
    have hsize : k + (Tree.skipped t body closing next).size =
        k + 1 + body.size + 1 + next.size := by
      rw [Tree.size]
      omega
    rw [hsize]
    refine Program.Carries.after (Program.leads_jump hskip (.inr rfl) hl (by omega)) ?_
    exact next.carries f hnext hr.2.2.2 (hl.mono (by omega)) hg

/-- **The row of a chain does what the chain means**, from the place where a branch that is not
taken leads, and with what comes after. -/
theorem Chain.carries : ∀ (chain : Chain) {depth j stop k' : Nat} {n : Numbers}
    {l l' : List Loop} {g g' : List String} (rest : Run Unit) (f : Frame),
    p.Has j (chain.linked depth j stop) → chain.Reads n → Enclose l j → Clear depth g →
    j + chain.size < stop →
    (∀ f, p.Carries env stop (Run.reframe l g f) k' l' g' (rest f)) →
    (∀ f, p.Carries env (j + chain.size) (Run.reframe l g f) k' l' g' (rest f)) →
      p.Carries env (chain.entry j stop) (Run.reframe l g f) k' l' g'
        ((chain.render env >>= fun _ => rest) f)
  | .done, _, _, _, _, _, _, _, _, _, _, f, _, _, _, _, _, hstop, _ => hstop f
  | .otherwise t body, depth, j, stop, k', n, l, l', g, g', rest, f, has, hr, hl, hg, _, _,
      hend => by
    rw [Chain.size, ← Nat.add_assoc] at hend
    exact .bind (body.carries f has.2 hr.2 (hl.mono (Nat.le_succ j)) hg) fun f' _ => hend f'
  | .alternative t c body chain, depth, j, stop, k', n, l, l', g, g', rest, f, has, hr, hl, hg,
      hlt, hstop, hend => by
    obtain ⟨-, hbranch, has⟩ := has
    obtain ⟨hbody, hchain⟩ := Program.has_append.mp has
    rw [Tree.length_linked] at hchain
    obtain ⟨hc, hrbody, hrchain⟩ := hr
    have hsize : j + (Chain.alternative t c body chain).size = j + 2 + body.size + chain.size := by
      rw [Chain.size]
      omega
    rw [hsize] at hlt hend
    have hchainlt : j + 1 < chain.entry (j + 2 + body.size) stop :=
      chain.lt_entry (by omega) (by omega)
    have hentry : (Chain.alternative t c body chain).entry j stop = j + 1 := rfl
    rw [hentry, Chain.render, Run.choose_bind]
    refine Program.carries_choose hbranch (Marker.plain_of_read hc (.inr rfl))
      (hl.mono (Nat.le_succ j)) hchainlt (fun f' => ?_) (fun f' => ?_)
    · refine .bind (body.carries f' hbody hrbody (hl.mono (by omega)) hg) fun f'' _ => ?_
      exact chain.carries_behind hchain (hl.mono (by omega)) (by omega) hstop hend f''
    · exact chain.carries rest f' hchain hrchain (hl.mono (by omega)) hg hlt hstop hend

/-- **The row of empty parts does what they mean**, if the flag says whether there were items. -/
theorem EmptyParts.carries : ∀ (parts : EmptyParts) {depth k : Nat} {closing : Token}
    {n : Numbers} {l : List Loop} {g : List String} (empty : Bool) (f : Frame),
    p.Has k (parts.linked depth k closing) → parts.Reads n → Enclose l k → Clear depth g →
    (parts ≠ .none → (Tag.loopFlag depth ∈ g ↔ empty = false)) →
      p.Carries env k (Run.reframe l g f) (k + parts.size) l
        (parts.cleared (Tag.loopFlag depth) g) (parts.render env empty f)
  | .none, _, _, _, _, _, _, _, _, _, _, _, _, _ => .pure _ _
  | .part t body chain more, depth, k, closing, n, l, g, empty, f, has, hr, hl, hg, hflag => by
    obtain ⟨hbranch, has⟩ := has
    obtain ⟨hbody, has⟩ := Program.has_append.mp has
    obtain ⟨hchain, has⟩ := Program.has_append.mp has
    obtain ⟨hlead, hending, hclear, hmore⟩ := Program.has_append.mp has
    simp only [Tree.length_linked, Chain.length_linked, EmptyParts.length_lead] at *
    obtain ⟨-, hrbody, hrchain, hrmore⟩ := hr
    have hsize : k + (EmptyParts.part t body chain more).size =
        k + 1 + body.size + chain.size + more.leadSize + 2 + more.size := by
      rw [EmptyParts.size]
      omega
    rw [hsize]
    -- whatever the flag is behind the chain, it is cleared there, and a further part is rendered
    have hcleared : ∀ (g' : List String) (f' : Frame),
        g'.filter (· != Tag.loopFlag depth) = g.filter (· != Tag.loopFlag depth) →
        p.Carries env (k + 1 + body.size + chain.size + more.leadSize + 1) (Run.reframe l g' f')
          (k + 1 + body.size + chain.size + more.leadSize + 2 + more.size) l
          (g.filter (· != Tag.loopFlag depth)) (more.render env true f') := by
      intro g' f' hg'
      refine Program.Carries.after (Program.leads_clearFlag hclear (hl.mono (by omega))) ?_
      have hfilter := hg.filter (· != Tag.loopFlag depth)
      have hnext := more.carries true f' hmore hrmore (hl.mono (by omega)) hfilter fun _ => by simp
      rw [more.cleared_filter] at hnext
      rw [hg']
      exact hnext
    have hstop := fun f' => hcleared g f' rfl
    have hend : ∀ f', p.Carries env (k + 1 + body.size + chain.size) (Run.reframe l g f')
        (k + 1 + body.size + chain.size + more.leadSize + 2 + more.size) l
        (g.filter (· != Tag.loopFlag depth)) (more.render env true f') := by
      intro f'
      refine Program.Carries.after (Program.leads_lead hlead (hl.mono (by omega))) ?_
      refine Program.Carries.after (Program.leads_end hending (.inl rfl) (hl.mono (by omega))) ?_
      exact hcleared _ f' (more.filter_marked _ g)
    have hentry : k < chain.entry (k + 1 + body.size)
        (k + 1 + body.size + chain.size + more.leadSize + 1) :=
      chain.lt_entry (by omega) (by omega)
    have hset := hflag EmptyParts.noConfusion
    refine Program.Carries.after (Program.leads_flag hbranch hl hentry) ?_
    cases empty with
    | true =>
      rw [if_neg (by simp [hset])]
      refine .bind (body.carries f hbody hrbody (hl.mono (Nat.le_succ k)) hg) fun f' _ => ?_
      exact chain.carries_behind hchain (hl.mono (by omega)) (by omega) hstop hend f'
    | false =>
      rw [if_pos (hset.mpr rfl)]
      exact chain.carries _ f hchain hrchain (hl.mono (by omega)) hg (by omega) hstop hend

end

/-! ## 5. Whole runs -/

/-- **The program of a tree runs as the tree is evaluated**: the same output, the same values and
names behind it, and the same error. -/
theorem Tree.run_linked {n : Numbers} (tree : Tree) (hr : tree.Reads n) (env : Environment) :
    (Program.mk (tree.linked 0 0).toArray).run env = tree.run env := by
  funext w
  have hcarries : Program.Carries ⟨(tree.linked 0 0).toArray⟩ env 0 ⟨w, [], [], []⟩
      (0 + tree.size) [] [] (tree.render env ⟨w, [], [], []⟩) :=
    tree.carries ⟨w, [], [], []⟩ Program.has_self hr trivial fun _ _ => List.not_mem_nil
  have hend : (Program.mk (tree.linked 0 0).toArray).code[0 + tree.size]? = none := by simp
  unfold Program.run Tree.run
  cases hf : tree.render env ⟨w, [], [], []⟩ with
  | ok u f =>
    rw [hf] at hcarries
    have hrun := (Program.runFrom_of_leads hcarries Program.spareSteps).trans
      (Program.runFrom_of_end hend Program.spareSteps)
    simp only [hrun]
    rfl
  | error e f =>
    rw [hf] at hcarries
    obtain ⟨f', hrun, hw⟩ := Program.runFrom_of_fails hcarries Program.spareSteps
    simp only [hrun, hw]

end TextTemplate
