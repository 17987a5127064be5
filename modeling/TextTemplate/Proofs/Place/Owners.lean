/-
# Which marker an instruction belongs to

A compilation takes in the tokens of a source one after the other, and what it writes meanwhile
belongs to the token that it takes in.  That holds of the end of a block, too, which is made where
the block begins and written where it is closed, and of the end of a loop that an empty part has
moved.  So the code consists of runs, one for each token, in the order of the source.

* `Token.Owns` is what a token owns, by its kind;
* `OwnedRow` is a row of runs, one for each of some tokens, and `Draft.owned_of_takes` says that
  taking in the tokens writes such a row;
* `Program.BelongsTo` is what this means for a program, and `Compile.belongs_of_program` says that
  each program of the standard tags belongs to its source.
-/
import TextTemplate.Proofs.Compile.Acceptance
import TextTemplate.Proofs.Place.Markers
import TextTemplate.Proofs.Tree.Compiling

namespace TextTemplate

/-! ## 1. What a token owns -/

/-- The instructions that a token owns: the text itself if it is not empty, the expression that its
contents are read as, nothing for a comment marker, and some instructions for a statement. -/
inductive Token.Owns (u : Token) : List Instruction → Prop where
  | noText (kind : u.kind = .text) (empty : u.contents = "") : u.Owns []
  | text (kind : u.kind = .text) (some : u.contents ≠ "") : u.Owns [.literal u.contents]
  | expression {e : Expression} (kind : u.kind = .expression)
      (read : Expression.read u.contents.toList = .ok e) : u.Owns [.expression e]
  | statement {own : List Instruction} (kind : u.kind = .statement) (some : own ≠ []) : u.Owns own
  | comment (kind : u.kind = .comment) : u.Owns []

/-- The ends that wait for the statements which close the open blocks are not empty.  Without that
a statement which closes a block might own nothing. -/
def Waiting (pending : List PendingClose) : Prop := ∀ b ∈ pending, b.ending ≠ []

namespace Marker

variable {m : Marker} {u : Token} {n : Numbers} {pending pending' : List PendingClose}
  {own : List Instruction}

/-- **What a marker writes** is not empty, unless the marker says nothing, and no end that it leaves
behind is. -/
theorem some_of_effect (hs : Waiting pending) (he : m.effect u pending = some (pending', own)) :
    Waiting pending' ∧ (own = [] → m = .leaf .nothing) := by
  cases acts_of_effect he with
  | leaf l =>
    refine ⟨hs, fun hnil => ?_⟩
    cases l with
    | nothing => rfl
    | _ => simp [Leaf.code] at hnil
  | alternative => exact ⟨hs, by simp⟩
  | otherwise => exact ⟨hs, by simp⟩
  | conditional => exact ⟨List.forall_mem_cons.mpr ⟨by simp, hs⟩, by simp⟩
  | loop => exact ⟨List.forall_mem_cons.mpr ⟨by simp, hs⟩, by simp⟩
  | skipped => exact ⟨List.forall_mem_cons.mpr ⟨by simp, hs⟩, by simp⟩
  | empty =>
    have houter := (List.forall_mem_cons.mp hs).2
    exact ⟨List.forall_mem_cons.mpr ⟨by simp, houter⟩, by simp⟩
  | closes =>
    obtain ⟨hb, houter⟩ := List.forall_mem_cons.mp hs
    exact ⟨houter, fun hnil => absurd hnil hb⟩

/-- A statement says something. -/
theorem Stated.ne_nothing {remainder : List Char} {command : String}
    (h : Stated n remainder command m) : m ≠ .leaf .nothing := by
  cases h <;> simp

/-- **A token owns what its marker writes.** -/
theorem owns_of_effect (hm : read? n u = some m) (hs : Waiting pending)
    (he : m.effect u pending = some (pending', own)) : u.Owns own := by
  unfold read? at hm
  split at hm
  · rename_i hkind
    cases hm
    cases he
    by_cases hempty : u.contents = ""
    · rw [if_pos hempty]
      exact .noText hkind hempty
    · rw [if_neg hempty]
      exact .text hkind hempty
  · rename_i hkind
    split at hm
    · cases hm
    · obtain ⟨e, hread, rfl⟩ := ok_of_toOption hm
      cases he
      exact .expression hkind hread
  · rename_i hkind
    split at hm
    · cases hm
    · have hsays := (stated_of_ofStatement hm).ne_nothing
      exact .statement hkind fun hnil => hsays ((some_of_effect hs he).2 hnil)
  · rename_i hkind
    cases hm
    cases he
    exact .comment hkind

end Marker

/-! ## 2. Rows of runs -/

/-- A row of instructions, each with its token, that belongs to some tokens: it consists of what
each of them owns, in their order. -/
inductive OwnedRow : List Token → List (Instruction × Option Token) → Prop where
  | nil : OwnedRow [] []
  | cons {u : Token} {tokens : List Token} {own : List Instruction}
      {row : List (Instruction × Option Token)} (owns : u.Owns own) (rest : OwnedRow tokens row) :
      OwnedRow (u :: tokens) (own.map (·, some u) ++ row)

namespace Draft

variable {d d' : Draft}

/-- A token writes what it owns. -/
theorem owned_of_take {u : Token} (h : d.take u = some d') (hs : Waiting d.pending) :
    Waiting d'.pending ∧
      ∃ own, u.Owns own ∧ d'.written = d.written ++ own.map (·, some u) := by
  obtain ⟨m, pending, own, hm, he, rfl⟩ := take_eq_some h
  refine ⟨(Marker.some_of_effect hs he).1, own, Marker.owns_of_effect hm hs he, ?_⟩
  simp [written]

/-- **Tokens write a row of runs.**  The induction is on the tokens, and carries that the ends of
the open blocks are not empty. -/
theorem owned_of_takes : ∀ {tokens : List Token} {d : Draft}, tokens.foldlM take d = some d' →
    Waiting d.pending → ∃ row, OwnedRow tokens row ∧ d'.written = d.written ++ row
  | [], d, h, _ => by
    cases h
    exact ⟨[], .nil, (List.append_nil _).symm⟩
  | u :: tokens, d, h, hs => by
    rw [List.foldlM_cons] at h
    obtain ⟨d₁, htake, h⟩ := Option.bind_eq_some_iff.mp h
    obtain ⟨hs₁, own, howns, hown⟩ := owned_of_take htake hs
    obtain ⟨row, hrow, hrest⟩ := owned_of_takes h hs₁
    exact ⟨own.map (·, some u) ++ row, .cons howns hrow, by rw [hrest, hown, List.append_assoc]⟩

end Draft

namespace OwnedRow

variable {tokens : List Token} {row : List (Instruction × Option Token)}

/-- Each instruction has one of the tokens. -/
theorem token (h : OwnedRow tokens row) : ∀ p ∈ row, ∃ u ∈ tokens, p.2 = some u := by
  induction h with
  | nil => exact fun p hp => absurd hp List.not_mem_nil
  | @cons u tokens own row owns rest ih =>
    intro p hp
    rcases List.mem_append.mp hp with hp | hp
    · obtain ⟨i, -, rfl⟩ := List.mem_map.mp hp
      exact ⟨u, List.mem_cons_self, rfl⟩
    · obtain ⟨v, hv, htoken⟩ := ih p hp
      exact ⟨v, List.mem_cons_of_mem _ hv, htoken⟩

/-- Instructions are in the order of their tokens. -/
theorem pairwise {R : Token → Token → Prop} (hrefl : ∀ u, R u u) (h : OwnedRow tokens row)
    (htokens : tokens.Pairwise R) :
    row.Pairwise fun p q => ∃ u v, p.2 = some u ∧ q.2 = some v ∧ R u v := by
  induction h with
  | nil => exact .nil
  | @cons u tokens own row owns rest ih =>
    obtain ⟨hfirst, htokens⟩ := List.pairwise_cons.mp htokens
    refine List.pairwise_append.mpr ⟨?_, ih htokens, fun p hp q hq => ?_⟩
    · exact List.pairwise_map.mpr (List.pairwise_of_forall fun _ _ => ⟨u, u, rfl, rfl, hrefl u⟩)
    · obtain ⟨i, -, rfl⟩ := List.mem_map.mp hp
      obtain ⟨v, hv, htoken⟩ := rest.token q hq
      exact ⟨u, v, rfl, htoken, hfirst v hv⟩

/-- **Each token has its run**, and no instruction outside the run, if no token occurs twice. -/
theorem run (h : OwnedRow tokens row) (hnodup : tokens.Nodup) {u : Token} (hu : u ∈ tokens) :
    ∃ before own behind, row = before ++ own.map (·, some u) ++ behind ∧ u.Owns own ∧
      (∀ p ∈ before, p.2 ≠ some u) ∧ ∀ p ∈ behind, p.2 ≠ some u := by
  induction h with
  | nil => exact absurd hu List.not_mem_nil
  | @cons v tokens own row owns rest ih =>
    obtain ⟨hv, hnodup⟩ := List.nodup_cons.mp hnodup
    rcases List.mem_cons.mp hu with rfl | hu
    · refine ⟨[], own, row, rfl, owns, fun p hp => absurd hp List.not_mem_nil, ?_⟩
      rintro p hp htoken
      obtain ⟨w, hw, htoken'⟩ := rest.token p hp
      obtain rfl := Option.some.inj (htoken.symm.trans htoken')
      exact hv hw
    · obtain ⟨before, own', behind, rfl, howns, hbefore, hbehind⟩ := ih hnodup hu
      refine ⟨own.map (·, some v) ++ before, own', behind, by simp, howns, ?_, hbehind⟩
      intro p hp htoken
      rcases List.mem_append.mp hp with hp | hp
      · obtain ⟨i, -, rfl⟩ := List.mem_map.mp hp
        obtain rfl := Option.some.inj htoken
        exact hv hu
      · exact hbefore p hp htoken

end OwnedRow

/-! ## 3. Programs -/

/-- The instructions of a program belong to some tokens: each has one of them, along the program
the tokens never go back in the source, and each token has one run of instructions, which it owns,
and no others. -/
structure Program.BelongsTo (p : Program) (tokens : List Token) : Prop where
  token : ∀ i ∈ p.code, ∃ u ∈ tokens, i.token = some u
  ordered : p.code.toList.Pairwise fun i j => ∃ u v, i.token = some u ∧ j.token = some v ∧
    u.start ≤ v.start ∧ u.stop ≤ v.stop
  run : ∀ u ∈ tokens, ∃ before own behind, p.code.toList = before ++ own ++ behind ∧
    (∀ i ∈ own, i.token = some u) ∧ u.Owns (own.map (·.instruction)) ∧
    (∀ i ∈ before, i.token ≠ some u) ∧ ∀ i ∈ behind, i.token ≠ some u

/-- What is known of a row of instructions with their tokens, for a program that has this row. -/
theorem Program.belongs_of_row {p : Program} {tokens : List Token} (hnodup : tokens.Nodup)
    (hordered : tokens.Pairwise fun u v => u.start ≤ v.start ∧ u.stop ≤ v.stop)
    (h : OwnedRow tokens (p.code.toList.map Linked.bare)) : p.BelongsTo tokens where
  token := by
    intro i hi
    exact h.token i.bare (List.mem_map_of_mem (Array.mem_toList_iff.mpr hi))
  ordered := by
    have hpairwise := h.pairwise (fun u => ⟨Nat.le_refl u.start, Nat.le_refl u.stop⟩) hordered
    exact List.pairwise_map.mp hpairwise
  run := by
    intro u hu
    obtain ⟨before, own, behind, hrow, howns, hbefore, hbehind⟩ := h.run hnodup hu
    obtain ⟨front, behind', hcode, hfront, rfl⟩ := List.map_eq_append_iff.mp hrow
    obtain ⟨before', own', rfl, rfl, hown⟩ := List.map_eq_append_iff.mp hfront
    have hinstructions : own'.map (·.instruction) = own := by
      have hfirst := congrArg (List.map Prod.fst) hown
      simpa [Linked.bare, Function.comp_def] using hfirst
    refine ⟨before', own', behind', hcode, fun i hi => ?_, hinstructions.symm ▸ howns, ?_, ?_⟩
    · have hbare : i.bare ∈ own.map (·, some u) := hown ▸ List.mem_map_of_mem hi
      obtain ⟨instruction, -, heq⟩ := List.mem_map.mp hbare
      exact (congrArg Prod.snd heq).symm
    · exact fun i hi => hbefore i.bare (List.mem_map_of_mem hi)
    · exact fun i hi => hbehind i.bare (List.mem_map_of_mem hi)

namespace Delimiters

/-- **The tokens of a source are in order**: neither their starts nor their ends go back. -/
theorem Tile.ordered {ts : List Token} {a b : Nat} (h : Tile ts a b) :
    ts.Pairwise fun u v => u.start ≤ v.start ∧ u.stop ≤ v.stop := by
  induction ts generalizing a with
  | nil => exact .nil
  | cons t ts ih =>
    obtain ⟨-, hlt, hrest⟩ := h
    refine List.pairwise_cons.mpr ⟨fun v hv => ?_, ih hrest⟩
    have hbehind := hrest.le_start v hv
    have hbounds := (hrest.bounds v hv).1
    omega

end Delimiters

/-- **A program of the standard tags belongs to its source.** -/
theorem Compile.belongs_of_program {d : Delimiters} {source : String} {s : Store} {p : Program}
    {c : Compilation} (hp : program Tag.standard (d.tokens source) (.start s) = .ok p c) :
    p.BelongsTo (d.tokens source) := by
  have htile := (Delimiters.segmentation_tokens d source).tile
  refine Program.belongs_of_row htile.nodup htile.ordered ?_
  obtain ⟨tree, htokens, hreads, rfl, -⟩ := tree_of_program hp
  obtain ⟨draft, ⟨htaken, hwritten⟩, -, -⟩ := tree.writes (Compilation.start s).draft 0 hreads
  have hstart : Waiting (Compilation.start s).draft.pending :=
    fun b hb => absurd hb List.not_mem_nil
  rw [htokens] at htaken
  obtain ⟨row, hrow, hwritten'⟩ := Draft.owned_of_takes htaken hstart
  have heq : (tree.linked 0 0).map Linked.bare = row :=
    List.append_cancel_left (hwritten.symm.trans hwritten')
  rw [List.toList_toArray, heq]
  exact hrow

end TextTemplate
