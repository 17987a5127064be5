/-
# The level of a place

A loop keeps its names in a layer of its own.  How many such layers a program has open at a place
is the **level** of the place.  It does not depend on the way to the place: the instructions in
front of it are counted (`levelAt`), and linking lets an instruction jump only to places of its own
level, because what lies between is balanced.

* `Levelled` says that linking has kept to that so far, with one lemma for each kind of step;
* `Program.HasLevels` is what a run relies on, and `Compile.hasLevels_of_program` says that every
  program of a compilation has levels.
-/
import TextTemplate.Proofs.Compile.Emission
import TextTemplate.Proofs.Tree.Compiling

namespace TextTemplate

open TextTemplate.Outcome

/-! ## 1. Levels -/

namespace Instruction

/-- The level behind an instruction. -/
def levelBehind (n : Nat) : Instruction → Nat
  | pushScope => n + 1
  | popScope => n - 1
  | _ => n

/-- The instruction needs a layer of the program's own: it takes it away or binds names in it. -/
def NeedsLayer : Instruction → Prop
  | popScope | loopStart .. | loopNext => True
  | _ => False

theorem Single.levelBehind {i : Instruction} (h : i.Single) (n : Nat) : i.levelBehind n = n := by
  cases i <;> first | rfl | exact h.elim

theorem Single.not_needsLayer {i : Instruction} (h : i.Single) : ¬ i.NeedsLayer := by
  cases i <;> first | exact id | exact h.elim

end Instruction

/-- The level of a place in a row of instructions. -/
def levelAt (row : List Instruction) (place : Nat) : Nat :=
  (row.take place).foldl Instruction.levelBehind 0

theorem levelAt_succ {row : List Instruction} {place : Nat} {i : Instruction}
    (h : row[place]? = some i) : levelAt row (place + 1) = i.levelBehind (levelAt row place) := by
  unfold levelAt
  rw [List.take_add_one, h, Option.toList_some, List.foldl_append]
  rfl

/-- The places of a program have levels: instructions lead from one to the next as they should,
jumps stay at a level, and what needs a layer has one. -/
structure Program.HasLevels (p : Program) (level : Nat → Nat) : Prop where
  start : level 0 = 0
  behind : ∀ {place i}, p.code[place]? = some i →
    level (place + 1) = i.instruction.levelBehind (level place)
  jump : ∀ {place i target}, p.code[place]? = some i → i.target = some target →
    level target = level place
  inside : ∀ {place i}, p.code[place]? = some i → i.instruction.NeedsLayer → 0 < level place

/-! ## 2. Linking -/

/-- The layers of a block. -/
def BlockKind.layers : BlockKind → Nat
  | loop => 1
  | _ => 0

variable {level : Nat → Nat} {n k : Nat}

/-- The places of an open block that wait for a target, or are one, are at a level. -/
structure OpenBlock.At (level : Nat → Nat) (n : Nat) (b : OpenBlock) : Prop where
  inner : b.kind = .loop → level (b.index + 1) = n
  opener : level b.opener.label = n
  pending : ∀ label, b.pending = some label → level label = n
  exits : ∀ label ∈ b.exits, level label = n

/-- Open blocks, the innermost first, with each loop one level deeper than what is around it. -/
inductive Encloses (level : Nat → Nat) : List OpenBlock → Nat → Prop where
  | nil : Encloses level [] 0
  | cons {b : OpenBlock} {rest : List OpenBlock} {n : Nat} (outer : Encloses level rest n)
      (here : b.At level (n + b.kind.layers)) : Encloses level (b :: rest) (n + b.kind.layers)

/-- The state of linking at a place of level `n`: so far each target is at the level of what jumps
there. -/
structure Assembly.Levelled (level : Nat → Nat) (n : Nat) (a : Assembly) : Prop where
  blocks : Encloses level a.blocks n
  targets : ∀ jump ∈ a.targets, level jump.2 = level jump.1

namespace Assembly

variable {a a' : Assembly} {b : OpenBlock} {rest : List OpenBlock} {item : Item}
  {token : Option Token} {kind : BlockKind}

theorem Levelled.aim (h : a.Levelled level n) {label target : Nat}
    (hlevel : level target = level label) : (a.aim label target).Levelled level n where
  blocks := h.blocks
  targets := List.forall_mem_cons.mpr ⟨hlevel, h.targets⟩

theorem Levelled.foldr_aim (h : a.Levelled level n) {target : Nat} : ∀ {labels : List Nat},
    (∀ label ∈ labels, level target = level label) →
      (labels.foldr (fun label a => a.aim label target) a).Levelled level n
  | [], _ => h
  | _ :: _, hlevel =>
    (h.foldr_aim fun label hl => hlevel label (List.mem_cons_of_mem _ hl)).aim
      (hlevel _ List.mem_cons_self)

/-- A block that opens at the level of its place. -/
theorem Levelled.openBlock (h : a.Levelled level n) (kind : BlockKind) (item : Item) (index : Nat)
    (hlabel : level item.label = n + kind.layers)
    (hinner : kind = .loop → level (index + 1) = n + kind.layers) :
    (a.openBlock kind item index).Levelled level (n + kind.layers) where
  blocks := .cons h.blocks
    { inner := hinner
      opener := hlabel
      pending := fun _ hl => Option.some.inj hl ▸ hlabel
      exits := fun _ hl => absurd hl List.not_mem_nil }
  targets := h.targets

/-- The block that is expected is the innermost one, and behind its end the level is lower by its
layers. -/
theorem Levelled.expected (h : a.Levelled level n)
    (hb : a.expect kind item token = .ok (b, rest)) :
    ∃ m, n = m + kind.layers ∧ ({ a with blocks := rest } : Assembly).Levelled level m ∧
      b.At level n ∧ b.kind = kind := by
  unfold expect at hb
  have hblocks := h.blocks
  cases ha : a.blocks with
  | nil =>
    rw [ha] at hb
    cases hb
  | cons b' rest' =>
    rw [ha] at hb hblocks
    dsimp only at hb
    split at hb
    · rename_i hkind
      cases hb
      cases hblocks with
      | cons outer here => exact ⟨_, hkind ▸ rfl, ⟨outer, h.targets⟩, here, hkind⟩
    · cases hb

/-- The innermost block is replaced by one of its kind. -/
theorem Levelled.replace {m : Nat} (hn : n = m + b.kind.layers)
    (hclosed : ({ a with blocks := rest } : Assembly).Levelled level m) (hb : b.At level n) :
    ({ a with blocks := b :: rest } : Assembly).Levelled level n where
  blocks := by
    subst hn
    exact .cons hclosed.blocks hb
  targets := hclosed.targets

/-- **An instruction that stands alone** is linked at its level. -/
theorem Levelled.single (h : a.Levelled level n) {i : Instruction} (hi : i.Single)
    {t : Option Token} (hk : level k = n) (hnext : level (k + 1) = n)
    (hlink : a.link k ⟨k, i, t⟩ token = .ok a') : a'.Levelled level n := by
  unfold link at hlink
  cases i with
  | branch condition chained =>
    cases chained with
    | false =>
      cases hlink
      exact h.openBlock .conditional _ _ hk nofun
    | true =>
      obtain ⟨⟨b, rest⟩, hb, hlink⟩ := except_bind_eq_ok hlink
      cases hlink
      obtain ⟨m, hn, hclosed, hat, hkind⟩ := h.expected hb
      refine .replace (hkind ▸ hn) hclosed { hat with pending := fun l hl => ?_ }
      exact Option.some.inj hl ▸ hk
  | otherwise =>
    obtain ⟨⟨b, rest⟩, hb, hlink⟩ := except_bind_eq_ok hlink
    obtain ⟨m, hn, hclosed, hat, hkind⟩ := h.expected hb
    dsimp only at hlink
    cases hp : b.pending with
    | none =>
      rw [hp] at hlink
      cases hlink
    | some label =>
      rw [hp] at hlink
      cases hlink
      have hblock : OpenBlock.At level n { b with pending := none, exits := k :: b.exits } :=
        { inner := hat.inner
          opener := hat.opener
          pending := fun _ hl => nomatch hl
          exits := List.forall_mem_cons.mpr ⟨hk, hat.exits⟩ }
      refine (Levelled.replace (hkind ▸ hn) hclosed hblock).aim ?_
      rw [hnext, hat.pending label hp]
  | endBranch =>
    obtain ⟨⟨b, rest⟩, hb, hlink⟩ := except_bind_eq_ok hlink
    obtain ⟨m, hn, hclosed, hat, -⟩ := h.expected hb
    cases hlink
    obtain rfl : n = m := hn
    refine Levelled.foldr_aim ?_ fun label hl => by rw [hnext, hat.exits label hl]
    cases hp : b.pending with
    | none => exact hclosed
    | some label => exact hclosed.aim (by rw [hnext, hat.pending label hp])
  | skip =>
    cases hlink
    exact h.openBlock .skipped _ _ hk nofun
  | endSkip =>
    obtain ⟨⟨b, rest⟩, hb, hlink⟩ := except_bind_eq_ok hlink
    obtain ⟨m, hn, hclosed, hat, -⟩ := h.expected hb
    cases hlink
    obtain rfl : n = m := hn
    exact hclosed.aim (by rw [hnext, hat.opener])
  | pushScope => exact hi.elim
  | popScope => exact hi.elim
  | loopStart sequence names => exact hi.elim
  | loopNext => exact hi.elim
  | _ =>
    cases hlink
    exact h

/-- **The beginning of a loop**, one level deeper than what is in front of it. -/
theorem Levelled.enter (h : a.Levelled level n) {e : Expression} {names : List String}
    {t : Option Token} (hk : level k = n + 1) (hnext : level (k + 1) = n + 1)
    (hlink : a.link k ⟨k, .loopStart e names, t⟩ token = .ok a') :
    a'.Levelled level (n + 1) := by
  cases hlink
  exact h.openBlock .loop _ _ hk fun _ => hnext

/-- **The end of a loop**: it is at the level of the loop, and what is around the loop is one level
less deep. -/
theorem Levelled.leave (h : a.Levelled level n) {t : Option Token} (hk : level k = n)
    (hnext : level (k + 1) = n) (hlink : a.link k ⟨k, .loopNext, t⟩ token = .ok a') :
    ∃ m, n = m + 1 ∧ a'.Levelled level m := by
  obtain ⟨⟨b, rest⟩, hb, hlink⟩ := except_bind_eq_ok hlink
  obtain ⟨m, hn, hclosed, hat, hkind⟩ := h.expected hb
  cases hlink
  refine ⟨m, hn, (hclosed.aim ?_).aim ?_⟩
  · rw [hnext, hat.opener]
  · rw [hat.inner hkind, hk]

theorem links_cons {tokenOf : Nat → Option Token} {a'' : Assembly} {i : Linked}
    {row : List Linked} (h : a.Links tokenOf k (i :: row) a'') :
    ∃ a', a.link k ⟨k, i.instruction, i.token⟩ (tokenOf k) = .ok a' ∧
      a'.Links tokenOf (k + 1) row a'' := except_bind_eq_ok h

end Assembly

/-! ## 3. Rows -/

/-- The levels behind the instructions of a row that begins at a place. -/
def LevelsBehind (level : Nat → Nat) (k : Nat) (row : List Instruction) : Prop :=
  ∀ j i, row[j]? = some i → level (k + j + 1) = i.levelBehind (level (k + j))

/-- What needs a layer in a row that begins at a place has one. -/
def LayersInside (level : Nat → Nat) (k : Nat) (row : List Instruction) : Prop :=
  ∀ j i, row[j]? = some i → i.NeedsLayer → 0 < level (k + j)

section Rows

variable {i : Instruction} {row : List Instruction}

theorem LevelsBehind.head (h : LevelsBehind level k (i :: row)) :
    level (k + 1) = i.levelBehind (level k) := h 0 i rfl

theorem LevelsBehind.tail (h : LevelsBehind level k (i :: row)) :
    LevelsBehind level (k + 1) row := by
  intro j i' hj
  have hnext := h (j + 1) i' hj
  rwa [← Nat.add_assoc, Nat.add_right_comm k j 1] at hnext

theorem LayersInside.cons (hi : i.NeedsLayer → 0 < level k) (h : LayersInside level (k + 1) row) :
    LayersInside level k (i :: row) := by
  intro j i' hj hneeds
  cases j with
  | zero =>
    cases hj
    exact hi hneeds
  | succ j =>
    have hinside := h j i' hj hneeds
    rwa [Nat.add_right_comm] at hinside

theorem LayersInside.nil : LayersInside level k [] := fun _ _ hj => nomatch hj

end Rows

/-- **Linking what has been emitted** keeps to the levels, and what needs a layer has one. -/
theorem Emitted.levelled {names : List String} {instructions : List Instruction}
    (h : Emitted names instructions) {tokenOf : Nat → Option Token} {row : List Linked}
    {a a' : Assembly} (hrow : row.map (·.instruction) = instructions)
    (hlevels : LevelsBehind level k instructions) (ha : a.Levelled level n) (hk : level k = n)
    (hlinks : a.Links tokenOf k row a') :
    (∃ n', a'.Levelled level n') ∧ LayersInside level k instructions := by
  induction h generalizing row a k n with
  | nil =>
    obtain rfl := List.map_eq_nil_iff.mp hrow
    cases hlinks
    exact ⟨⟨n, ha⟩, .nil⟩
  | @single i _ hs _ _ ih =>
    obtain ⟨j, row, rfl, rfl, hrest⟩ := List.map_eq_cons_iff.mp hrow
    obtain ⟨a₁, hlink, hlinks⟩ := Assembly.links_cons hlinks
    have hnext : level (k + 1) = n := by rw [hlevels.head, hs.levelBehind, hk]
    obtain ⟨hlast, hinside⟩ := ih hrest hlevels.tail (ha.single hs hk hnext hlink) hnext hlinks
    exact ⟨hlast, hinside.cons fun hneeds => absurd hneeds hs.not_needsLayer⟩
  | enter bound _ _ ih =>
    obtain ⟨j, row, rfl, hj, hrest⟩ := List.map_eq_cons_iff.mp hrow
    obtain ⟨j', row, rfl, hj', hrest⟩ := List.map_eq_cons_iff.mp hrest
    obtain ⟨a₁, hlink, hlinks₁⟩ := Assembly.links_cons hlinks
    obtain ⟨a₂, hlink', hlinks₂⟩ := Assembly.links_cons hlinks₁
    rw [hj] at hlink
    rw [hj'] at hlink'
    obtain rfl : a = a₁ := Except.ok.inj hlink
    have hpushed : level (k + 1) = n + 1 := by rw [hlevels.head, ← hk]; rfl
    have hstarted : level (k + 1 + 1) = n + 1 := by rw [hlevels.tail.head, ← hpushed]; rfl
    obtain ⟨hlast, hinside⟩ :=
      ih hrest hlevels.tail.tail (ha.enter hpushed hstarted hlink') hstarted hlinks₂
    exact ⟨hlast, (hinside.cons fun _ => hpushed ▸ Nat.succ_pos n).cons False.elim⟩
  | leave _ ih =>
    obtain ⟨j, row, rfl, hj, hrest⟩ := List.map_eq_cons_iff.mp hrow
    obtain ⟨j', row, rfl, hj', hrest⟩ := List.map_eq_cons_iff.mp hrest
    obtain ⟨a₁, hlink, hlinks₁⟩ := Assembly.links_cons hlinks
    obtain ⟨a₂, hlink', hlinks₂⟩ := Assembly.links_cons hlinks₁
    rw [hj] at hlink
    rw [hj'] at hlink'
    cases hlink'
    have hdone : level (k + 1) = n := by rw [hlevels.head, ← hk]; rfl
    obtain ⟨m, rfl, ha₁⟩ := ha.leave hk hdone hlink
    have hpopped : level (k + 1 + 1) = m := by
      rw [hlevels.tail.head, hdone]
      rfl
    obtain ⟨hlast, hinside⟩ := ih hrest hlevels.tail.tail ha₁ hpopped hlinks₂
    exact ⟨hlast, (hinside.cons fun _ => hdone ▸ Nat.succ_pos m).cons
      fun _ => hk ▸ Nat.succ_pos m⟩

/-! ## 4. Programs -/

/-- A compilation's instructions with their tokens, not linked yet. -/
def Compilation.row (c : Compilation) : List Linked := c.code.reverse.map fun p => .plain p.2 p.1

theorem Compilation.items_eq (c : Compilation) : c.items = itemsFrom 0 c.row := by
  have hitems := mapIdx_eq_itemsFrom c.code.reverse c.row 0
    (by simp [row, Linked.bare, Linked.plain, Function.comp_def])
  rw [← hitems]
  simp only [items, Nat.zero_add]

/-- The label of an item is its place. -/
theorem Compilation.label_of_items {c : Compilation} {place : Nat} {item : Item}
    (h : c.items[place]? = some item) : item.label = place := by
  rw [items, List.getElem?_mapIdx] at h
  obtain ⟨p, -, rfl⟩ := Option.map_eq_some_iff.mp h
  rfl

/-- **The places of a program have levels.** -/
theorem Compile.hasLevels_of_program {tags : Table Tag} (htags : OrdinaryTags tags)
    {tokens : List Token} {s : Store} {p : Program} {c : Compilation}
    (h : program tags tokens (.start s) = .ok p c) :
    p.HasLevels (levelAt (p.code.toList.map (·.instruction))) := by
  obtain ⟨hemitted, hassemble⟩ := emitted_of_program htags h
  have hrow : c.row.map (·.instruction) = p.code.toList.map (·.instruction) := by
    rw [Program.assemble_instructions hassemble, Compilation.items_instructions]
    simp only [Compilation.row, List.map_map, Function.comp_def, Linked.plain]
  have hlevels : LevelsBehind (levelAt (p.code.toList.map (·.instruction))) 0
      (p.code.toList.map (·.instruction)) := by
    intro j i hj
    rw [Nat.zero_add]
    exact levelAt_succ hj
  obtain ⟨a, hlinks, hcode⟩ := Program.assemble_eq_ok hassemble
  rw [Compilation.items_eq] at hlinks
  obtain ⟨⟨n, ha⟩, hinside⟩ :=
    hemitted.levelled hrow hlevels ⟨.nil, fun _ hj => absurd hj List.not_mem_nil⟩ rfl hlinks
  have hmem : ∀ {place : Nat} {i : Linked}, p.code[place]? = some i →
      (p.code.toList.map (·.instruction))[place]? = some i.instruction := by
    intro place i here
    rw [List.getElem?_map, Array.getElem?_toList, here]
    rfl
  refine ⟨rfl, fun here => levelAt_succ (hmem here), ?_, fun here hneeds => ?_⟩
  · intro place i target here htarget
    rw [← Array.getElem?_toList, hcode, List.getElem?_map] at here
    obtain ⟨item, hitem, rfl⟩ := Option.map_eq_some_iff.mp here
    rw [Compilation.label_of_items hitem] at htarget
    exact ha.targets _ (mem_of_lookup htarget)
  · have hlayer := hinside _ _ (hmem here) hneeds
    rwa [Nat.zero_add] at hlayer

end TextTemplate
