/-
# The targets that the linker finds

The linker goes through the items once and gives a label its target when it meets the instruction
that the label is to jump behind.  Up to then the label waits in an open block.

`Assembly.Sound` is what holds in front of each item: between an opener, or a label that waits, and
the place reached the code nests, but for the blocks inside of which the place is; and every other
label in front of it has the target that it should have.  An item that is taken in keeps this
(`Assembly.Sound.move`), so it holds at the end, and no label waits there.

* `Assembly.Move` lists what taking in an item can do;
* `Assembly.Sound.move` is about one item and `Assembly.Sound.run` about all of them;
* `Program.aims_of_assemble` is the result.
-/
import TextTemplate.Proofs.Assembly.Nesting
import TextTemplate.Proofs.Tree.Linking
import TextTemplate.Proofs.Compile.Emission

namespace TextTemplate

open TextTemplate.Outcome

/-! ## 1. What an item does -/

namespace Assembly

variable {a a' : Assembly} {k : Nat} {item : Item} {token : Option Token}

theorem expect_eq_ok {kind : BlockKind} {b : OpenBlock} {rest : List OpenBlock}
    (h : a.expect kind item token = .ok (b, rest)) : a.blocks = b :: rest ∧ b.kind = kind := by
  unfold expect at h
  dsimp only at h
  split at h
  · cases h
  · rename_i block outer hb
    split at h
    · rename_i hk
      cases h
      exact ⟨hb, hk⟩
    · cases h

/-- **What taking in an item can do**, if it finds no fault. -/
inductive Move (a : Assembly) (k : Nat) (item : Item) : Assembly → Prop where
  | plain (role : item.instruction.role = .plain) : Move a k item a
  | opens {kind : BlockKind} (role : item.instruction.role = .opens kind) :
      Move a k item (a.openBlock kind item k)
  | chained {condition : Condition} {b : OpenBlock} {rest : List OpenBlock}
      (instruction : item.instruction = .branch condition true) (blocks : a.blocks = b :: rest)
      (kind : b.kind = .conditional) :
      Move a k item { a with blocks := { b with pending := some item.label } :: rest }
  | otherwise {b : OpenBlock} {rest : List OpenBlock} {label : Nat}
      (instruction : item.instruction = .otherwise) (blocks : a.blocks = b :: rest)
      (kind : b.kind = .conditional) (pending : b.pending = some label) :
      Move a k item (Assembly.aim
        { a with blocks := { b with pending := none, exits := item.label :: b.exits } :: rest }
        label (k + 1))
  | endBranch {b : OpenBlock} {rest : List OpenBlock} (instruction : item.instruction = .endBranch)
      (blocks : a.blocks = b :: rest) (kind : b.kind = .conditional) :
      Move a k item (a.closing b rest (k + 1))
  | loopNext {b : OpenBlock} {rest : List OpenBlock} (instruction : item.instruction = .loopNext)
      (blocks : a.blocks = b :: rest) (kind : b.kind = .loop) :
      Move a k item ((Assembly.aim { a with blocks := rest } b.opener.label (k + 1)).aim item.label
        (b.index + 1))
  | endSkip {b : OpenBlock} {rest : List OpenBlock} (instruction : item.instruction = .endSkip)
      (blocks : a.blocks = b :: rest) (kind : b.kind = .skipped) :
      Move a k item (Assembly.aim { a with blocks := rest } b.opener.label (k + 1))

theorem move_of_link (h : a.link k item token = .ok a') : Move a k item a' := by
  unfold link at h
  split at h
  · rename_i condition hi
    cases h
    exact .opens (by rw [hi]; rfl)
  · rename_i condition hi
    obtain ⟨⟨b, rest⟩, hexpect, h⟩ := except_bind_eq_ok h
    obtain ⟨hb, hk⟩ := expect_eq_ok hexpect
    cases h
    exact .chained hi hb hk
  · rename_i hi
    obtain ⟨⟨b, rest⟩, hexpect, h⟩ := except_bind_eq_ok h
    obtain ⟨hb, hk⟩ := expect_eq_ok hexpect
    dsimp only at h
    split at h
    · cases h
    · rename_i label hp
      cases h
      exact .otherwise hi hb hk hp
  · rename_i hi
    obtain ⟨⟨b, rest⟩, hexpect, h⟩ := except_bind_eq_ok h
    obtain ⟨hb, hk⟩ := expect_eq_ok hexpect
    cases h
    exact .endBranch hi hb hk
  · rename_i sequence names hi
    cases h
    exact .opens (by rw [hi]; rfl)
  · rename_i hi
    obtain ⟨⟨b, rest⟩, hexpect, h⟩ := except_bind_eq_ok h
    obtain ⟨hb, hk⟩ := expect_eq_ok hexpect
    cases h
    exact .loopNext hi hb hk
  · rename_i hi
    cases h
    exact .opens (by rw [hi]; rfl)
  · rename_i hi
    obtain ⟨⟨b, rest⟩, hexpect, h⟩ := except_bind_eq_ok h
    obtain ⟨hb, hk⟩ := expect_eq_ok hexpect
    cases h
    exact .endSkip hi hb hk
  · cases h
    refine .plain ?_
    cases hi : item.instruction with
    | branch condition chained => cases chained <;> simp_all
    | _ => first | rfl | simp_all

end Assembly

/-! ## 2. What waits -/

/-- The instructions of some items. -/
def codeOf (items : List Item) : List Instruction := items.map (·.instruction)

/-- The labels that wait in a block. -/
def OpenBlock.waiting (b : OpenBlock) : List Nat :=
  match b.kind with
  | .conditional => b.pending.toList ++ b.exits
  | _ => [b.opener.label]

/-- The labels that wait for their targets. -/
def Assembly.waiting (a : Assembly) : List Nat := a.blocks.flatMap (·.waiting)

/-- A label of some instruction waits at a place, and the code between nests. -/
def Waits (items : List Item) (stop : Nat) (marked : Bool) (label : Nat) (P : Instruction → Prop) :
    Prop :=
  ∃ place item, items[place]? = some item ∧ item.label = label ∧ P item.instruction ∧
    place < stop ∧ Nested marked (stretch (codeOf items) (place + 1) stop)

/-- A branch, chained or not. -/
def Instruction.IsBranch (i : Instruction) : Prop :=
  ∃ condition chained, i = .branch condition chained

theorem Instruction.isBranch_of_opens {i : Instruction} (h : i.role = .opens .conditional) :
    i.IsBranch := by
  cases i with
  | branch condition chained => exact ⟨condition, chained, rfl⟩
  | _ => cases h

theorem Instruction.loopStart_of_opens {i : Instruction} (h : i.role = .opens .loop) :
    ∃ sequence names, i = .loopStart sequence names := by
  cases i with
  | loopStart sequence names => exact ⟨sequence, names, rfl⟩
  | branch condition chained => cases chained <;> cases h
  | _ => cases h

theorem Instruction.skip_of_opens {i : Instruction} (h : i.role = .opens .skipped) : i = .skip := by
  cases i with
  | skip => rfl
  | branch condition chained => cases chained <;> cases h
  | _ => cases h

theorem Instruction.not_jumps_of_plain {i : Instruction} (h : i.role = .plain) : ¬i.Jumps := by
  cases i with
  | branch condition chained => cases chained <;> cases h
  | otherwise => cases h
  | loopStart => cases h
  | loopNext => cases h
  | skip => cases h
  | _ => exact id

/-- **An open block in front of a place**, where it is the innermost one. -/
structure OpenBlock.Stands (items : List Item) (stop : Nat) (b : OpenBlock) : Prop where
  opener : items[b.index]? = some b.opener
  before : b.index < stop
  opens : b.opener.instruction.role = .opens b.kind
  nested : Nested b.kind.marked (stretch (codeOf items) (b.index + 1) stop)
  pending : b.kind = .conditional → ∀ label, b.pending = some label →
    Waits items stop false label Instruction.IsBranch
  exits : ∀ label ∈ b.exits, Waits items stop true label (· = .otherwise)

/-- The open blocks in front of a place, the innermost first: each is the innermost one at the
place where the one inside of it begins. -/
inductive Standing (items : List Item) : Nat → List OpenBlock → Prop where
  | nil {stop : Nat} : Standing items stop []
  | cons {stop : Nat} {b : OpenBlock} {outer : List OpenBlock} (inner : b.Stands items stop)
      (around : Standing items b.index outer) : Standing items stop (b :: outer)

section Waiting

variable {items : List Item} {stop stop' label place : Nat} {marked : Bool} {item x : Item}
  {b : OpenBlock} {blocks : List OpenBlock}

theorem code_getElem? (h : items[place]? = some item) :
    (codeOf items)[place]? = some item.instruction := by
  rw [codeOf, List.getElem?_map, h]
  rfl

/-- A label says where an item stands. -/
theorem eq_of_label (hlabels : (items.map (·.label)).Nodup) {place' : Nat}
    (h : items[place]? = some item) (h' : items[place']? = some x) (hx : x.label = item.label) :
    place = place' := by
  have hlabel : (items.map (·.label))[place]? = (items.map (·.label))[place']? := by
    rw [List.getElem?_map, List.getElem?_map, h, h', Option.map_some, Option.map_some, hx]
  have hlt : place < (items.map (·.label)).length := by
    rw [List.length_map]
    exact (List.getElem?_eq_some_iff.mp h).1
  exact (List.getElem?_inj hlt hlabels).mp hlabel

theorem stretch_extend (hbefore : place < stop) (hle : stop ≤ stop')
    (h : Nested marked (stretch (codeOf items) (place + 1) stop))
    (hn : Nested marked (stretch (codeOf items) stop stop')) :
    Nested marked (stretch (codeOf items) (place + 1) stop') := by
  rw [stretch_append hbefore hle]
  exact h.append hn

theorem Waits.extend {P : Instruction → Prop} (h : Waits items stop marked label P)
    (hle : stop ≤ stop') (hn : Nested marked (stretch (codeOf items) stop stop')) :
    Waits items stop' marked label P := by
  obtain ⟨place, item, here, hlabel, hP, hbefore, hnested⟩ := h
  exact ⟨place, item, here, hlabel, hP, Nat.lt_of_lt_of_le hbefore hle,
    stretch_extend hbefore hle hnested hn⟩

/-- An item may wait right behind itself. -/
theorem Waits.behind {P : Instruction → Prop} (here : items[stop]? = some item)
    (hP : P item.instruction) : Waits items (stop + 1) marked item.label P := by
  refine ⟨stop, item, here, rfl, hP, Nat.lt_succ_self stop, ?_⟩
  rw [stretch_self]
  exact .nil

/-- What waits at an item faces it. -/
theorem Waits.facing {P : Instruction → Prop} (hlabels : (items.map (·.label)).Nodup)
    (h : Waits items stop marked label P) (there : items[stop]? = some item)
    (here : items[place]? = some x) (hx : x.label = label) :
    P x.instruction ∧ Facing (codeOf items) marked place stop x.instruction item.instruction := by
  obtain ⟨place', x', here', hlabel, hP, hbefore, hnested⟩ := h
  obtain rfl := eq_of_label hlabels here here' (hlabel.trans hx.symm)
  obtain rfl := Option.some.inj (here.symm.trans here')
  exact ⟨hP, code_getElem? here, code_getElem? there, hbefore, hnested⟩

theorem OpenBlock.Stands.extend (h : b.Stands items stop) (hle : stop ≤ stop')
    (hn : Nested false (stretch (codeOf items) stop stop')) : b.Stands items stop' where
  opener := h.opener
  before := Nat.lt_of_lt_of_le h.before hle
  opens := h.opens
  nested := stretch_extend h.before hle h.nested (hn.weaken _)
  pending hk label hp := (h.pending hk label hp).extend hle hn
  exits label hl := (h.exits label hl).extend hle (hn.weaken _)

theorem Standing.extend (h : Standing items stop blocks) (hle : stop ≤ stop')
    (hn : Nested false (stretch (codeOf items) stop stop')) : Standing items stop' blocks := by
  cases h with
  | nil => exact .nil
  | cons inner around => exact .cons (inner.extend hle hn) around

/-- The instruction that closes a block faces its opener. -/
theorem OpenBlock.Stands.facing (h : b.Stands items stop) (there : items[stop]? = some item) :
    Facing (codeOf items) b.kind.marked b.index stop b.opener.instruction item.instruction :=
  ⟨code_getElem? h.opener, code_getElem? there, h.before, h.nested⟩

/-- Behind the instruction that closes a block the block is part of a stretch that nests. -/
theorem OpenBlock.Stands.closed (h : b.Stands items stop) (there : items[stop]? = some item)
    (hrole : item.instruction.role = .closes b.kind) :
    Nested false (stretch (codeOf items) b.index (stop + 1)) := by
  have hsplit : stretch (codeOf items) b.index (stop + 1) = b.opener.instruction ::
      (stretch (codeOf items) (b.index + 1) stop ++ [item.instruction]) := by
    rw [stretch_append (Nat.le_of_lt h.before) (Nat.le_succ stop),
      stretch_single (code_getElem? there),
      stretch_split (Nat.le_refl _) h.before (code_getElem? h.opener), stretch_self]
    rfl
  rw [hsplit]
  exact .block h.opens h.nested hrole .nil

/-- A conditional still stands behind a mark of it, where the branch that waited does not wait any
more; the mark may wait instead. -/
theorem OpenBlock.Stands.mark (h : b.Stands items stop) (hk : b.kind = .conditional)
    (there : items[stop]? = some item) (hrole : item.instruction.role = .mark)
    {pending : Option Nat} {exits : List Nat}
    (hpending : ∀ label, pending = some label → label = item.label ∧ item.instruction.IsBranch)
    (hexits : ∀ label ∈ exits, label ∈ b.exits ∨
      label = item.label ∧ item.instruction = .otherwise) :
    OpenBlock.Stands items (stop + 1) { b with pending := pending, exits := exits } := by
  have hmark : Nested true (stretch (codeOf items) stop (stop + 1)) := by
    rw [stretch_single (code_getElem? there)]
    exact .mark hrole .nil
  have hmarked : b.kind.marked = true := by rw [hk]; rfl
  refine ⟨h.opener, Nat.lt_succ_of_lt h.before, h.opens,
    stretch_extend h.before (Nat.le_succ stop) h.nested (hmarked ▸ hmark), fun _ label hp => ?_,
    fun label hl => ?_⟩
  · obtain ⟨rfl, hbranch⟩ := hpending label hp
    exact .behind there hbranch
  · rcases hexits label hl with hl | ⟨rfl, hi⟩
    · exact (h.exits label hl).extend (Nat.le_succ stop) hmark
    · exact .behind there hi

theorem Standing.uncons (h : Standing items stop (b :: blocks)) :
    b.Stands items stop ∧ Standing items b.index blocks := by
  cases h with
  | cons inner around => exact ⟨inner, around⟩

theorem OpenBlock.waiting_of_conditional (hk : b.kind = .conditional) :
    b.waiting = b.pending.toList ++ b.exits := by
  unfold waiting
  rw [hk]

theorem OpenBlock.waiting_of_other (hk : b.kind ≠ .conditional) : b.waiting = [b.opener.label] := by
  unfold waiting
  split
  · rename_i h
    exact absurd h hk
  · rfl

end Waiting

namespace Assembly

variable {a : Assembly} {b : OpenBlock} {rest : List OpenBlock} {stop label : Nat}

theorem waiting_cons (hb : a.blocks = b :: rest) :
    a.waiting = b.waiting ++ rest.flatMap (·.waiting) := by
  rw [waiting, hb, List.flatMap_cons]

theorem waiting_of_block (hb : a.blocks = b :: rest) (hl : label ∈ b.waiting) :
    label ∈ a.waiting := by
  rw [waiting_cons hb]
  exact List.mem_append_left _ hl

/-- At the end of a conditional all that waits in it gets its target. -/
theorem closed_of_waiting (hk : b.kind = .conditional) (hl : label ∈ b.waiting) :
    a.closed b stop label = some stop := by
  rw [OpenBlock.waiting_of_conditional hk] at hl
  unfold closed
  by_cases hexit : label ∈ b.exits
  · rw [if_pos hexit]
  · rw [if_neg hexit, if_pos (Option.mem_toList.mp ((List.mem_append.mp hl).resolve_right hexit))]

theorem closed_of_not_waiting (hk : b.kind = .conditional)
    (hl : label ∉ b.waiting) : a.closed b stop label = a.target? label := by
  rw [OpenBlock.waiting_of_conditional hk] at hl
  unfold closed
  rw [if_neg fun h => hl (List.mem_append_right _ h),
    if_neg fun h => hl (List.mem_append_left _ (Option.mem_toList.mpr h))]

end Assembly

/-! ## 3. One item -/

/-- **The state of linking in front of a place.**  The open blocks stand there; a label in front of
it waits and has no target, or has the target that it should have; and a label behind it neither
waits nor has one. -/
structure Assembly.Sound (items : List Item) (k : Nat) (a : Assembly) : Prop where
  standing : Standing items k a.blocks
  settled : ∀ place item, place < k → items[place]? = some item →
    item.label ∈ a.waiting ∨ Aims (codeOf items) place (a.target? item.label)
  idle : ∀ label ∈ a.waiting, a.target? label = none
  unseen : ∀ place item, k ≤ place → items[place]? = some item →
    item.label ∉ a.waiting ∧ a.target? item.label = none
  distinct : a.waiting.Nodup

namespace Assembly.Sound

variable {items : List Item} {a a' : Assembly} {k : Nat} {item : Item}

/-- What is to be shown of a move.  A label that waited waits on or has its target now, and so has
the label of the item; all other labels are left as they are. -/
theorem advance (hlabels : (items.map (·.label)).Nodup) (h : a.Sound items k)
    (here : items[k]? = some item) (standing : Standing items (k + 1) a'.blocks)
    (old : ∀ place x, items[place]? = some x → x.label ∈ a.waiting →
      x.label ∈ a'.waiting ∨ Aims (codeOf items) place (a'.target? x.label))
    (new : item.label ∈ a'.waiting ∨ Aims (codeOf items) k (a'.target? item.label))
    (others : ∀ label, label ∉ a.waiting → label ≠ item.label → a'.target? label = a.target? label)
    (idle : ∀ label ∈ a'.waiting, a'.target? label = none)
    (within : ∀ label ∈ a'.waiting, label ∈ a.waiting ∨ label = item.label)
    (distinct : a'.waiting.Nodup) : a'.Sound items (k + 1) where
  standing := standing
  idle := idle
  distinct := distinct
  settled place x hplace hx := by
    by_cases hnew : x.label = item.label
    · obtain rfl := eq_of_label hlabels here hx hnew
      obtain rfl := Option.some.inj (here.symm.trans hx)
      exact new
    by_cases hw : x.label ∈ a.waiting
    · exact old place x hx hw
    have hne : place ≠ k := by
      rintro rfl
      exact hnew (congrArg Item.label (Option.some.inj (hx.symm.trans here)))
    have hlt : place < k := Nat.lt_of_le_of_ne (Nat.le_of_lt_succ hplace) hne
    rw [others _ hw hnew]
    exact .inr ((h.settled place x hlt hx).resolve_left hw)
  unseen place x hplace hx := by
    have hnew : x.label ≠ item.label := fun heq => by
      have := eq_of_label hlabels here hx heq
      omega
    obtain ⟨hw, htarget⟩ := h.unseen place x (Nat.le_of_succ_le hplace) hx
    refine ⟨fun hw' => (within _ hw').elim hw hnew, ?_⟩
    rw [others _ hw hnew]
    exact htarget

variable {b : OpenBlock} {rest : List OpenBlock}

theorem plain (hlabels : (items.map (·.label)).Nodup) (h : a.Sound items k)
    (here : items[k]? = some item) (hrole : item.instruction.role = .plain) :
    a.Sound items (k + 1) := by
  have hnested : Nested false (stretch (codeOf items) k (k + 1)) := by
    rw [stretch_single (code_getElem? here)]
    exact .plain hrole .nil
  refine advance hlabels h here (h.standing.extend (Nat.le_succ k) hnested)
    (fun _ _ _ hw => .inl hw) (.inr ?_) (fun _ _ _ => rfl) h.idle (fun _ hl => .inl hl) h.distinct
  rw [(h.unseen k item (Nat.le_refl k) here).2]
  exact .still (code_getElem? here) (Instruction.not_jumps_of_plain hrole)

theorem opens (hlabels : (items.map (·.label)).Nodup) (h : a.Sound items k)
    (here : items[k]? = some item) {kind : BlockKind}
    (hrole : item.instruction.role = .opens kind) :
    (a.openBlock kind item k).Sound items (k + 1) := by
  have hwaiting : (a.openBlock kind item k).waiting = item.label :: a.waiting := by
    cases kind <;> rfl
  obtain ⟨hunseen, hnone⟩ := h.unseen k item (Nat.le_refl k) here
  have hstands : OpenBlock.Stands items (k + 1) ⟨kind, item, k, some item.label, []⟩ := by
    refine ⟨here, Nat.lt_succ_self k, hrole, ?_, fun hk label hp => ?_, nofun⟩
    · rw [stretch_self]
      exact .nil
    · subst hk
      obtain rfl := Option.some.inj hp
      exact .behind here (Instruction.isBranch_of_opens hrole)
  refine advance hlabels h here (.cons hstands h.standing) (fun _ _ _ hw => .inl ?_) (.inl ?_)
    (fun _ _ _ => rfl) ?_ (fun label hl => ?_) ?_
  all_goals rw [hwaiting] at *
  · exact List.mem_cons_of_mem _ hw
  · exact List.mem_cons_self
  · exact List.forall_mem_cons.mpr ⟨hnone, h.idle⟩
  · exact (List.mem_cons.mp hl).symm
  · exact List.nodup_cons.mpr ⟨hunseen, h.distinct⟩

/-- **A mark** of the innermost block takes the place of the branch that waited in it. -/
theorem mark (hlabels : (items.map (·.label)).Nodup) (h : a.Sound items k)
    (here : items[k]? = some item) (hrole : item.instruction.role = .mark)
    (hb : a.blocks = b :: rest) (hk : b.kind = .conditional) {pending : Option Nat}
    {exits : List Nat} (hb' : a'.blocks = { b with pending := pending, exits := exits } :: rest)
    (hnew : pending = some item.label ∧ exits = b.exits ∧ item.instruction.IsBranch ∨
      pending = none ∧ exits = item.label :: b.exits ∧ item.instruction = .otherwise)
    (resolved : ∀ place x, items[place]? = some x → b.pending = some x.label →
      Aims (codeOf items) place (a'.target? x.label))
    (others : ∀ label, b.pending ≠ some label → a'.target? label = a.target? label) :
    a'.Sound items (k + 1) := by
  obtain ⟨hunseen, hnone⟩ := h.unseen k item (Nat.le_refl k) here
  have hwaiting : a.waiting = b.pending.toList ++ (b.exits ++ rest.flatMap (·.waiting)) := by
    rw [waiting_cons hb, OpenBlock.waiting_of_conditional hk, List.append_assoc]
  have hwaiting' : a'.waiting = item.label :: (b.exits ++ rest.flatMap (·.waiting)) := by
    have hblock : OpenBlock.waiting { b with pending := pending, exits := exits } =
        pending.toList ++ exits := OpenBlock.waiting_of_conditional hk
    rw [waiting_cons hb', hblock]
    rcases hnew with ⟨rfl, rfl, -⟩ | ⟨rfl, rfl, -⟩ <;> rfl
  have hdistinct := h.distinct
  rw [hwaiting] at hdistinct
  obtain ⟨-, hdistinct, hapart⟩ := List.nodup_append.mp hdistinct
  -- whatever waits besides the branch still waits, with no target
  have hsub : b.exits ++ rest.flatMap (·.waiting) ⊆ a.waiting := by
    rw [hwaiting]
    exact List.subset_append_right _ _
  have hkept : ∀ label ∈ b.exits ++ rest.flatMap (·.waiting), a'.target? label = none := by
    intro label hl
    rw [others label fun hp => hapart label (Option.mem_toList.mpr hp) label hl rfl]
    exact h.idle label (hsub hl)
  have hitem : a'.target? item.label = none := by
    rw [others _ fun hp => hunseen ?_, hnone]
    rw [hwaiting, hp]
    exact List.mem_append_left _ List.mem_cons_self
  obtain ⟨hinner, haround⟩ := (hb ▸ h.standing).uncons
  have hstands : OpenBlock.Stands items (k + 1) { b with pending := pending, exits := exits } := by
    refine hinner.mark hk here hrole (fun label hp => ?_) fun label hl => ?_
    · rcases hnew with ⟨rfl, -, hbranch⟩ | ⟨rfl, -, -⟩
      · exact ⟨(Option.some.inj hp).symm, hbranch⟩
      · cases hp
    · rcases hnew with ⟨-, rfl, -⟩ | ⟨-, rfl, hi⟩
      · exact .inl hl
      · exact (List.mem_cons.mp hl).elim (fun heq => .inr ⟨heq, hi⟩) .inl
  refine advance hlabels h here (hb' ▸ .cons hstands haround) (fun place x hx hw => ?_) (.inl ?_)
    (fun label hw _ => others label fun hp => hw ?_) ?_ (fun label hl => ?_) ?_
  · rw [hwaiting] at hw
    rcases List.mem_append.mp hw with hw | hw
    · exact .inr (resolved place x hx (Option.mem_toList.mp hw))
    · rw [hwaiting']
      exact .inl (List.mem_cons_of_mem _ hw)
  · rw [hwaiting']
    exact List.mem_cons_self
  · rw [hwaiting, hp]
    exact List.mem_append_left _ List.mem_cons_self
  · rw [hwaiting']
    exact List.forall_mem_cons.mpr ⟨hitem, hkept⟩
  · rw [hwaiting'] at hl
    rcases List.mem_cons.mp hl with rfl | hl
    · exact .inr rfl
    · exact .inl (hsub hl)
  · rw [hwaiting']
    exact List.nodup_cons.mpr ⟨fun hl => hunseen (hsub hl), hdistinct⟩

/-- **An end** of the innermost block: nothing waits in it any more. -/
theorem close (hlabels : (items.map (·.label)).Nodup) (h : a.Sound items k)
    (here : items[k]? = some item) (hb : a.blocks = b :: rest)
    (hrole : item.instruction.role = .closes b.kind) (hb' : a'.blocks = rest)
    (resolved : ∀ place x, items[place]? = some x → x.label ∈ b.waiting →
      Aims (codeOf items) place (a'.target? x.label))
    (new : Aims (codeOf items) k (a'.target? item.label))
    (others : ∀ label, label ∉ b.waiting → label ≠ item.label →
      a'.target? label = a.target? label) :
    a'.Sound items (k + 1) := by
  obtain ⟨hunseen, -⟩ := h.unseen k item (Nat.le_refl k) here
  have hwaiting := waiting_cons hb
  have hwaiting' : a'.waiting = rest.flatMap (·.waiting) := by rw [waiting, hb']
  have hdistinct := h.distinct
  rw [hwaiting] at hdistinct
  obtain ⟨-, hdistinct, hapart⟩ := List.nodup_append.mp hdistinct
  obtain ⟨hinner, haround⟩ := (hb ▸ h.standing).uncons
  have hclosed := hinner.closed here hrole
  have hsub : rest.flatMap (·.waiting) ⊆ a.waiting := by
    rw [hwaiting]
    exact List.subset_append_right _ _
  refine advance hlabels h here
    (hb' ▸ haround.extend (Nat.le_succ_of_le (Nat.le_of_lt hinner.before)) hclosed)
    (fun place x hx hw => ?_) (.inr new) (fun label hw hne => others label (fun hl => hw ?_) hne)
    (fun label hl => ?_) (fun label hl => .inl (hsub (hwaiting' ▸ hl))) (hwaiting' ▸ hdistinct)
  · rw [hwaiting] at hw
    rw [hwaiting']
    exact (List.mem_append.mp hw).symm.imp id fun hw => resolved place x hx hw
  · rw [hwaiting]
    exact List.mem_append_left _ hl
  · rw [hwaiting'] at hl
    have hw := hsub hl
    have hnew : label ≠ item.label := fun heq => hunseen (heq ▸ hw)
    rw [others label (fun hin => hapart label hin label hl rfl) hnew]
    exact h.idle label hw

/-- The end of a block that is no conditional, where only its opener waits. -/
theorem closeOpener (hlabels : (items.map (·.label)).Nodup) (h : a.Sound items k)
    (here : items[k]? = some item) (hb : a.blocks = b :: rest) (hk : b.kind ≠ .conditional)
    (hrole : item.instruction.role = .closes b.kind) (hb' : a'.blocks = rest)
    (aims : b.opener.label ≠ item.label → b.opener.instruction.role = .opens b.kind →
      Facing (codeOf items) false b.index k b.opener.instruction item.instruction →
      Aims (codeOf items) b.index (a'.target? b.opener.label) ∧
        Aims (codeOf items) k (a'.target? item.label))
    (others : ∀ label, label ≠ b.opener.label → label ≠ item.label →
      a'.target? label = a.target? label) : a'.Sound items (k + 1) := by
  obtain ⟨hunseen, -⟩ := h.unseen k item (Nat.le_refl k) here
  obtain ⟨hinner, -⟩ := (hb ▸ h.standing).uncons
  have hwaiting := OpenBlock.waiting_of_other hk
  have hopener : b.opener.label ≠ item.label := fun heq =>
    hunseen (waiting_of_block hb (hwaiting ▸ heq ▸ List.mem_singleton_self _))
  have hmarked : b.kind.marked = false := by
    cases hkind : b.kind with
    | conditional => exact absurd hkind hk
    | loop => rfl
    | skipped => rfl
  obtain ⟨hold, hnew⟩ := aims hopener hinner.opens (hmarked ▸ hinner.facing here)
  refine h.close hlabels here hb hrole hb' (fun place x hx hw => ?_) hnew fun label hl => ?_
  · rw [hwaiting] at hw
    have hlabel := List.mem_singleton.mp hw
    obtain rfl := eq_of_label hlabels hinner.opener hx hlabel
    exact hlabel ▸ hold
  · rw [hwaiting, List.mem_singleton] at hl
    exact others label hl

/-- The branch that waits in a conditional faces the next mark or the end. -/
theorem branch_facing (hlabels : (items.map (·.label)).Nodup) (h : a.Sound items k)
    (here : items[k]? = some item) (hb : a.blocks = b :: rest) (hk : b.kind = .conditional)
    {place : Nat} {x : Item} (hx : items[place]? = some x) (hp : b.pending = some x.label) :
    ∃ condition chained, Facing (codeOf items) false place k (.branch condition chained)
      item.instruction := by
  obtain ⟨hinner, -⟩ := (hb ▸ h.standing).uncons
  obtain ⟨⟨condition, chained, hbranch⟩, hfacing⟩ :=
    (hinner.pending hk _ hp).facing hlabels here hx rfl
  exact ⟨condition, chained, hbranch ▸ hfacing⟩

theorem exit_facing (hlabels : (items.map (·.label)).Nodup) (h : a.Sound items k)
    (here : items[k]? = some item) (hb : a.blocks = b :: rest) {place : Nat} {x : Item}
    (hx : items[place]? = some x) (hl : x.label ∈ b.exits) :
    Facing (codeOf items) true place k .otherwise item.instruction := by
  obtain ⟨hinner, -⟩ := (hb ▸ h.standing).uncons
  obtain ⟨hi, hfacing⟩ := (hinner.exits _ hl).facing hlabels here hx rfl
  exact hi ▸ hfacing

/-- **An item that is taken in keeps the state of linking sound.** -/
theorem move (hlabels : (items.map (·.label)).Nodup) (h : a.Sound items k)
    (here : items[k]? = some item) (hm : Move a k item a') : a'.Sound items (k + 1) := by
  obtain ⟨hunseen, hnone⟩ := h.unseen k item (Nat.le_refl k) here
  have hcode := code_getElem? here
  cases hm with
  | plain role => exact h.plain hlabels here role
  | opens role => exact h.opens hlabels here role
  | @chained condition b rest instruction blocks kind =>
    have hb' : Assembly.blocks { a with blocks := { b with pending := some item.label } :: rest } =
        { b with pending := some item.label, exits := b.exits } :: rest := rfl
    refine h.mark hlabels here (by rw [instruction]; rfl) blocks kind hb'
      (.inl ⟨rfl, rfl, condition, true, instruction⟩) (fun place x hx hp => ?_) fun _ _ => rfl
    obtain ⟨condition', chained', hfacing⟩ := h.branch_facing hlabels here blocks kind hx hp
    have hw : x.label ∈ a.waiting := by
      rw [waiting_cons blocks, OpenBlock.waiting_of_conditional kind, hp]
      exact List.mem_append_left _ List.mem_cons_self
    rw [instruction] at hfacing
    have htarget : a.target? x.label = none := h.idle _ hw
    exact htarget ▸ .overtaken hfacing
  | @otherwise b rest label instruction blocks kind pending =>
    refine h.mark hlabels here (by rw [instruction]; rfl) blocks kind rfl
      (.inr ⟨rfl, rfl, instruction⟩) (fun place x hx hp => ?_) fun l hl => ?_
    · obtain ⟨condition, chained, hfacing⟩ := h.branch_facing hlabels here blocks kind hx hp
      obtain rfl := Option.some.inj (pending.symm.trans hp)
      rw [target?_aim, if_pos rfl]
      exact .branch hfacing (.inl instruction)
    · rw [target?_aim, if_neg fun (heq : l = label) => hl (heq ▸ pending)]
      rfl
  | @endBranch b rest instruction blocks kind =>
    refine h.close hlabels here blocks (by rw [instruction, kind]; rfl) (blocks_closing _)
      (fun place x hx hw => ?_) ?_ fun label hl _ => ?_
    · rw [target?_closing, closed_of_waiting kind hw]
      by_cases hexit : x.label ∈ b.exits
      · have hfacing := h.exit_facing hlabels here blocks hx hexit
        exact .otherwise (instruction ▸ hfacing)
      · rw [OpenBlock.waiting_of_conditional kind] at hw
        have hp := Option.mem_toList.mp ((List.mem_append.mp hw).resolve_right hexit)
        obtain ⟨condition, chained, hfacing⟩ := h.branch_facing hlabels here blocks kind hx hp
        exact .branch hfacing (.inr instruction)
    · have hnot : item.label ∉ b.waiting := fun hl => hunseen (waiting_of_block blocks hl)
      rw [target?_closing, closed_of_not_waiting kind hnot, hnone]
      exact .still hcode (by rw [instruction]; exact id)
    · rw [target?_closing, closed_of_not_waiting kind hl]
  | @loopNext b rest instruction blocks kind =>
    refine h.closeOpener hlabels here blocks (by rw [kind]; decide) (by rw [instruction, kind]; rfl)
      rfl (fun hne hrole hfacing => ?_) fun label hl hnew => ?_
    · rw [kind] at hrole
      obtain ⟨sequence, names, hi⟩ := Instruction.loopStart_of_opens hrole
      rw [hi, instruction] at hfacing
      rw [target?_aim, target?_aim, target?_aim, if_neg hne, if_pos rfl, if_pos rfl]
      exact ⟨.loopStart hfacing, .loopNext hfacing⟩
    · rw [target?_aim, target?_aim, if_neg hnew, if_neg hl]
      rfl
  | @endSkip b rest instruction blocks kind =>
    refine h.closeOpener hlabels here blocks (by rw [kind]; decide) (by rw [instruction, kind]; rfl)
      rfl (fun hne hrole hfacing => ?_) fun label hl _ => ?_
    · rw [kind] at hrole
      rw [Instruction.skip_of_opens hrole, instruction] at hfacing
      rw [target?_aim, target?_aim, if_pos rfl, if_neg hne.symm]
      have htarget : Assembly.target? { a with blocks := rest } item.label = none := hnone
      exact ⟨.skip hfacing, htarget ▸ .still hcode (by rw [instruction]; exact id)⟩
    · rw [target?_aim, if_neg hl]
      rfl

/-! ## 4. All items -/

theorem start (items : List Item) : Assembly.start.Sound items 0 where
  standing := .nil
  settled _ _ hplace _ := absurd hplace (Nat.not_lt_zero _)
  idle := nofun
  unseen _ _ _ _ := ⟨List.not_mem_nil, rfl⟩
  distinct := List.nodup_nil

/-- **Linking keeps the state sound**, up to behind the items that are linked. -/
theorem run {tokenOf : Nat → Option Token} (hlabels : (items.map (·.label)).Nodup) :
    ∀ {after : List Item} {k : Nat} {a a' : Assembly}, (∀ n, items[k + n]? = after[n]?) →
      a.Sound items k → a.linkFrom tokenOf k after = .ok a' → a'.Sound items (k + after.length)
  | [], k, a, a', _, h, hlink => by
    cases hlink
    exact h
  | item :: after, k, a, a', hafter, h, hlink => by
    rw [linkFrom] at hlink
    obtain ⟨a₁, hitem, hlink⟩ := except_bind_eq_ok hlink
    have here : items[k]? = some item := hafter 0
    have hrest : ∀ n, items[k + 1 + n]? = after[n]? := by
      intro n
      rw [Nat.add_right_comm]
      exact hafter (n + 1)
    have hrun := run hlabels hrest (h.move hlabels here (move_of_link hitem)) hlink
    rw [Nat.add_right_comm] at hrun
    exact hrun

end Assembly.Sound

namespace Program

variable {items : List Item} {p : Program}

/-- No block is open behind the items of a program. -/
theorem blocks_of_assemble {a : Assembly} (h : assemble items = .ok p)
    (ha : Assembly.start.linkFrom (tokenOf? items) 0 items = .ok a) : a.blocks = [] := by
  unfold assemble at h
  rw [ha] at h
  simp only [bind, Except.bind] at h
  split at h
  · cases h
  · assumption

/-- A program consists of its items. -/
theorem getElem?_of_assemble (h : assemble items = .ok p) : ∃ a : Assembly,
    Assembly.start.linkFrom (tokenOf? items) 0 items = .ok a ∧
      ∀ place : Nat, p.code[place]? = items[place]?.map fun item =>
        (⟨item.instruction, tokenOf? items item.label, a.target? item.label⟩ : Linked) := by
  obtain ⟨a, ha, hcode⟩ := assemble_eq_ok h
  refine ⟨a, ha, fun place => ?_⟩
  rw [← Array.getElem?_toList, hcode, List.getElem?_map]
  rfl

theorem size_of_assemble (h : assemble items = .ok p) : p.size = items.length := by
  obtain ⟨a, -, hcode⟩ := assemble_eq_ok h
  rw [size, ← Array.length_toList, hcode, List.length_map]

/-- **In a program each instruction has the target that it should have**, if the instructions are
pairwise distinct. -/
theorem aims_of_assemble (hlabels : (items.map (·.label)).Nodup) (h : assemble items = .ok p)
    {place : Nat} {i : Linked} (here : p.code[place]? = some i) :
    (codeOf items)[place]? = some i.instruction ∧ Aims (codeOf items) place i.target := by
  obtain ⟨a, ha, hcode⟩ := getElem?_of_assemble h
  have hsound := Assembly.Sound.run hlabels (fun n => by rw [Nat.zero_add])
    (Assembly.Sound.start items) ha
  rw [Nat.zero_add] at hsound
  rw [hcode] at here
  obtain ⟨item, hitem, rfl⟩ := Option.map_eq_some_iff.mp here
  have hwaiting : a.waiting = [] := by
    rw [Assembly.waiting, blocks_of_assemble h ha, List.flatMap_nil]
  have hlt : place < items.length := (List.getElem?_eq_some_iff.mp hitem).1
  refine ⟨code_getElem? hitem, (hsound.settled place item hlt hitem).resolve_left ?_⟩
  rw [hwaiting]
  exact List.not_mem_nil

end Program
end TextTemplate
