/-
# How instructions nest

Conditionals, loops and skipped regions are opened by one instruction and closed by another.  A
conditional may have **marks** in between, where one of its parts ends and the next one begins: an
`otherwise` or a chained branch.  A stretch of code nests if each block that is opened in it is
closed in it by an instruction of its kind, and each block that is closed in it is opened in it; as
for marks that belong to no block of the stretch, it may have some or not.

Two instructions face each other if the code between them nests.  So the next mark behind a branch,
or the end of its conditional, is the instruction that it faces when the stretch between has no
marks of its own.

* `Nested` says that a stretch nests, `Facing` that two instructions face each other;
* `Facing.unique` and `Facing.not_crossing` say that these pairs are like brackets;
* `Aims` is where the instruction at a place should jump to, and `Aims.enters` says that no such
  jump leads into what a branch guards.
-/
import TextTemplate.Program.Assembly

namespace TextTemplate

/-! ## 1. Roles -/

/-- What an instruction does to the open blocks. -/
inductive Role where
  | plain
  | opens (kind : BlockKind)
  /-- It goes on with a conditional. -/
  | mark
  | closes (kind : BlockKind)
  deriving DecidableEq, Repr

/-- The role of an instruction. -/
def Instruction.role : Instruction → Role
  | branch _ false => .opens .conditional
  | branch _ true => .mark
  | otherwise => .mark
  | endBranch => .closes .conditional
  | loopStart .. => .opens .loop
  | loopNext => .closes .loop
  | skip => .opens .skipped
  | endSkip => .closes .skipped
  | _ => .plain

/-- Only conditionals have marks. -/
def BlockKind.marked : BlockKind → Bool
  | conditional => true
  | _ => false

/-- A stretch of code nests; `marked` says whether it may have marks that belong to no block of
it. -/
inductive Nested : Bool → List Instruction → Prop where
  | nil {marked : Bool} : Nested marked []
  | plain {marked : Bool} {i : Instruction} {rest : List Instruction} (role : i.role = .plain)
      (next : Nested marked rest) : Nested marked (i :: rest)
  | mark {i : Instruction} {rest : List Instruction} (role : i.role = .mark)
      (next : Nested true rest) : Nested true (i :: rest)
  | block {marked : Bool} {kind : BlockKind} {first last : Instruction}
      {body rest : List Instruction} (opens : first.role = .opens kind)
      (inner : Nested kind.marked body) (closes : last.role = .closes kind)
      (next : Nested marked rest) : Nested marked (first :: (body ++ last :: rest))

namespace Nested

variable {marked : Bool} {code code' : List Instruction}

theorem append (h : Nested marked code) (h' : Nested marked code') :
    Nested marked (code ++ code') := by
  induction h with
  | nil => exact h'
  | plain role _ ih => exact .plain role (ih h')
  | mark role _ ih => exact .mark role (ih h')
  | block opens inner closes _ _ ih =>
    rw [List.cons_append, List.append_assoc, List.cons_append]
    exact .block opens inner closes (ih h')

/-- A stretch without marks is one that may have some. -/
theorem weaken (h : Nested false code) (marked : Bool) : Nested marked code := by
  generalize hfalse : false = without at h
  induction h with
  | nil => exact .nil
  | plain role _ ih => exact .plain role (ih hfalse)
  | mark => cases hfalse
  | block opens inner closes _ _ ih => exact .block opens inner closes (ih hfalse)

end Nested

/-! ## 2. Depths -/

/-- How an instruction changes the number of open blocks. -/
def Role.weight : Role → Int
  | opens _ => 1
  | closes _ => -1
  | _ => 0

/-- By how much a stretch of code changes the number of open blocks. -/
def depth : List Instruction → Int
  | [] => 0
  | i :: code => i.role.weight + depth code

theorem depth_append : ∀ code code' : List Instruction,
    depth (code ++ code') = depth code + depth code'
  | [], code' => by simp [depth]
  | i :: code, code' => by
    rw [List.cons_append, depth, depth, depth_append code code', Int.add_assoc]

/-- The instruction cannot stand in a stretch that nests, but for the blocks of the stretch. -/
def Instruction.Bounds (i : Instruction) (marked : Bool) : Prop :=
  (∃ kind, i.role = .closes kind) ∨ i.role = .mark ∧ marked = false

/-- No more blocks are closed than opened in front of a cut, and if what follows cannot stand in the
stretch but for the blocks of it, more are opened. -/
def Above (marked : Bool) (front back : List Instruction) : Prop :=
  0 ≤ depth front ∧ ∀ i rest, back = i :: rest → i.Bounds marked → 1 ≤ depth front

theorem above_nil {marked : Bool} {i : Instruction} {rest : List Instruction}
    (hi : ¬i.Bounds marked) : Above marked [] (i :: rest) := by
  refine ⟨Int.le_refl 0, ?_⟩
  rintro j rest' ⟨⟩ hj
  exact absurd hj hi

theorem Above.cons {marked : Bool} {i : Instruction} {front back : List Instruction}
    (h : Above marked front back) (hi : i.role.weight = 0) : Above marked (i :: front) back := by
  rw [Above, depth, hi, Int.zero_add]
  exact h

namespace Nested

variable {marked : Bool} {code : List Instruction}

theorem depth_eq (h : Nested marked code) : depth code = 0 := by
  induction h with
  | nil => rfl
  | plain role _ ih => rw [depth, role, ih]; rfl
  | mark role _ ih => rw [depth, role, ih]; rfl
  | block opens _ closes _ ihinner ihnext =>
    rw [depth, depth_append, depth, opens, closes, ihinner, ihnext]
    rfl

/-- **Within a stretch that nests** no more blocks have been closed than opened, and in front of an
instruction that can only stand in a block of the stretch more have been opened. -/
theorem above (h : Nested marked code) : ∀ {front back : List Instruction},
    code = front ++ back → Above marked front back := by
  induction h with
  | nil =>
    intro front back hsplit
    obtain ⟨rfl, rfl⟩ := List.append_eq_nil_iff.mp hsplit.symm
    exact ⟨Int.le_refl 0, nofun⟩
  | @plain marked i rest role _ ih =>
    rintro (_ | ⟨j, front⟩) back hsplit
    · obtain rfl := hsplit
      exact above_nil (by simp [Instruction.Bounds, role])
    · cases hsplit
      exact (ih rfl).cons (by rw [role]; rfl)
  | @mark i rest role _ ih =>
    rintro (_ | ⟨j, front⟩) back hsplit
    · obtain rfl := hsplit
      exact above_nil (by simp [Instruction.Bounds, role])
    · cases hsplit
      exact (ih rfl).cons (by rw [role]; rfl)
  | @block marked kind first last body rest opens inner closes _ ihinner ihnext =>
    rintro (_ | ⟨j, front⟩) back hsplit
    · obtain rfl := hsplit
      exact above_nil (by simp [Instruction.Bounds, opens])
    · rw [List.cons_append] at hsplit
      obtain ⟨rfl, htail⟩ := List.cons.inj hsplit
      have hfirst : depth (first :: front) = 1 + depth front := by
        rw [depth, opens]
        rfl
      rw [Above, hfirst]
      rcases List.append_eq_append_iff.mp htail with ⟨beyond, rfl, hover⟩ | ⟨beyond, rfl, rfl⟩
      · -- the front goes to the last instruction of the block or beyond it
        rcases beyond with _ | ⟨l, beyond⟩
        · rw [List.append_nil, inner.depth_eq]
          exact ⟨by decide, fun _ _ _ _ => by decide⟩
        · obtain ⟨rfl, hrest⟩ := List.cons.inj hover
          have hdepth : depth (body ++ last :: beyond) = -1 + depth beyond := by
            rw [depth_append, inner.depth_eq, depth, closes, Int.zero_add]
            rfl
          have ih := ihnext hrest
          rw [hdepth]
          refine ⟨by have := ih.1; omega, fun i rest' hback hi => ?_⟩
          have := ih.2 i rest' hback hi
          omega
      · have ih := (ihinner rfl).1
        exact ⟨by omega, fun _ _ _ _ => by omega⟩

end Nested

/-! ## 3. Stretches -/

/-- The code from one place up to another. -/
def stretch (code : List Instruction) (start stop : Nat) : List Instruction :=
  (code.take stop).drop start

section Stretches

variable {code : List Instruction} {a b c : Nat} {i : Instruction}

theorem stretch_self : stretch code a a = [] :=
  List.drop_eq_nil_of_le (List.length_take_le a code)

theorem stretch_append (hab : a ≤ b) (hbc : b ≤ c) :
    stretch code a c = stretch code a b ++ stretch code b c := by
  have htake : code.take c = code.take b ++ (code.take c).drop b := by
    have h := (List.take_append_drop b (code.take c)).symm
    rwa [List.take_take, Nat.min_eq_left hbc] at h
  unfold stretch
  rcases Nat.le_total b code.length with hb | hb
  · have ha : a ≤ (code.take b).length := by
      rw [List.length_take, Nat.min_eq_left hb]
      exact hab
    rw [htake, List.drop_append_of_le_length ha, ← htake]
  · -- the code ends in front of `b`
    rw [List.take_of_length_le hb, List.take_of_length_le (Nat.le_trans hb hbc),
      List.drop_eq_nil_of_le hb, List.append_nil]

theorem stretch_single (h : code[a]? = some i) : stretch code a (a + 1) = [i] := by
  obtain ⟨hlt, -⟩ := List.getElem?_eq_some_iff.mp h
  have ha : (code.take a).length = a := List.length_take_of_le (Nat.le_of_lt hlt)
  unfold stretch
  rw [List.take_add_one, h, Option.toList_some,
    List.drop_append_of_le_length (Nat.le_of_eq ha.symm),
    List.drop_eq_nil_of_le (Nat.le_of_eq ha), List.nil_append]

/-- A stretch with an instruction in its middle. -/
theorem stretch_split (hab : a ≤ b) (hbc : b < c) (h : code[b]? = some i) :
    stretch code a c = stretch code a b ++ i :: stretch code (b + 1) c := by
  rw [stretch_append hab (Nat.le_of_lt hbc), stretch_append (Nat.le_succ b) hbc, stretch_single h]
  rfl

end Stretches

/-! ## 4. Facing instructions -/

/-- Two instructions with a stretch between them that nests. -/
structure Facing (code : List Instruction) (marked : Bool) (place place' : Nat)
    (i j : Instruction) : Prop where
  here : code[place]? = some i
  there : code[place']? = some j
  before : place < place'
  nested : Nested marked (stretch code (place + 1) place')

namespace Facing

variable {code : List Instruction} {marked marked' : Bool} {a b c d : Nat} {i j k l : Instruction}

/-- The depth of the code between is made up of the parts around an instruction of it. -/
theorem depth_split (h : Facing code marked a b i j) (hac : a < c) (hcb : c < b)
    (hk : code[c]? = some k) :
    depth (stretch code (a + 1) c) + (k.role.weight + depth (stretch code (c + 1) b)) = 0 := by
  have hsplit := stretch_split hac hcb hk
  rw [← h.nested.depth_eq, hsplit, depth_append, depth]

theorem depth_front (h : Facing code marked a b i j) (hac : a < c) (hcb : c < b)
    (hk : code[c]? = some k) : 0 ≤ depth (stretch code (a + 1) c) ∧
      (k.Bounds marked → 1 ≤ depth (stretch code (a + 1) c)) := by
  obtain ⟨hfront, hbounds⟩ := h.nested.above (stretch_split hac hcb hk)
  exact ⟨hfront, hbounds k _ rfl⟩

/-- **An instruction faces one bound only.** -/
theorem unique (h : Facing code marked a b i j) (hj : j.Bounds marked)
    (h' : Facing code marked a c k l) (hl : l.Bounds marked) : b = c := by
  rcases Nat.lt_trichotomy b c with hlt | heq | hlt
  · have hdepth := (h'.depth_front h.before hlt h.there).2 hj
    rw [h.nested.depth_eq] at hdepth
    exact absurd hdepth (by decide)
  · exact heq
  · have hdepth := (h.depth_front h'.before hlt h'.there).2 hl
    rw [h'.nested.depth_eq] at hdepth
    exact absurd hdepth (by decide)

/-- An instruction that opens a block does not stand in front of what an earlier one faces. -/
theorem not_inside (h : Facing code marked a b i j) (h' : Facing code marked' c b k l)
    {kind : BlockKind} (hk : k.role = .opens kind) : ¬a < c := by
  intro hac
  have hdepth := h.depth_split hac h'.before h'.here
  have hfront := (h.depth_front hac h'.before h'.here).1
  rw [h'.nested.depth_eq, hk, Role.weight] at hdepth
  omega

/-- **Two pairs do not cross.** -/
theorem not_crossing (h : Facing code marked a b i j) (h' : Facing code marked' c d k l)
    (hj : j.Bounds marked') (hac : a < c) (hcb : c < b) : ¬b < d := by
  intro hbd
  have hinner := (h'.depth_front hcb hbd h.there).2 hj
  -- up to and with the instruction at `c` no more is closed than opened
  have hsplit : stretch code (a + 1) b =
      stretch code (a + 1) (c + 1) ++ stretch code (c + 1) b :=
    stretch_append (Nat.le_succ_of_le hac) hcb
  have hfront := (h.nested.above hsplit).1
  have hdepth := h.nested.depth_eq
  rw [hsplit, depth_append] at hdepth
  omega

end Facing

/-! ## 5. Targets -/

/-- The instruction may jump. -/
def Instruction.Jumps : Instruction → Prop
  | branch .. | otherwise | loopStart .. | loopNext | skip => True
  | _ => False

/-- **Where the instruction at a place is to go, if not behind it.**  A branch goes behind the next
`otherwise` of its conditional or behind the end; `otherwise` goes behind the end of its
conditional, the start of a loop behind the end of the loop and the end back to the first
instruction of the body, and `skip` behind the end of its region.  A branch that is **overtaken**
goes nowhere: the next mark of its conditional is a chained branch. -/
inductive Aims (code : List Instruction) : Nat → Option Nat → Prop where
  | branch {place place' : Nat} {condition : Condition} {chained : Bool} {j : Instruction}
      (facing : Facing code false place place' (.branch condition chained) j)
      (stop : j = .otherwise ∨ j = .endBranch) : Aims code place (some (place' + 1))
  | overtaken {place place' : Nat} {condition condition' : Condition} {chained : Bool}
      (facing : Facing code false place place' (.branch condition chained)
        (.branch condition' true)) : Aims code place none
  | otherwise {place place' : Nat} (facing : Facing code true place place' .otherwise .endBranch) :
      Aims code place (some (place' + 1))
  | loopStart {place place' : Nat} {sequence : Expression} {names : List String}
      (facing : Facing code false place place' (.loopStart sequence names) .loopNext) :
      Aims code place (some (place' + 1))
  | loopNext {place place' : Nat} {sequence : Expression} {names : List String}
      (facing : Facing code false place place' (.loopStart sequence names) .loopNext) :
      Aims code place' (some (place + 1))
  | skip {place place' : Nat} (facing : Facing code false place place' .skip .endSkip) :
      Aims code place (some (place' + 1))
  | still {place : Nat} {i : Instruction} (here : code[place]? = some i) (still : ¬i.Jumps) :
      Aims code place none

/-- The next mark behind the branch at a place is a chained branch. -/
def Overtaken (code : List Instruction) (place : Nat) : Prop :=
  ∃ place' condition chained condition',
    Facing code false place place' (.branch condition chained) (.branch condition' true)

namespace Aims

variable {code : List Instruction} {place place' target : Nat} {condition : Condition}
  {chained : Bool} {j : Instruction}

theorem length_of_here {i : Instruction} (h : code[place]? = some i) : place < code.length :=
  (List.getElem?_eq_some_iff.mp h).1

/-- A target is a place of the code or the end of it. -/
theorem target_le (h : Aims code place (some target)) : target ≤ code.length := by
  generalize htarget : some target = t at h
  cases h with
  | branch facing => cases htarget; exact length_of_here facing.there
  | otherwise facing => cases htarget; exact length_of_here facing.there
  | loopStart facing => cases htarget; exact length_of_here facing.there
  | loopNext facing => cases htarget; exact length_of_here facing.here
  | skip facing => cases htarget; exact length_of_here facing.there
  | overtaken => cases htarget
  | still => cases htarget

/-- A target stands behind an instruction that bounds a stretch and is faced from the place of the
jump, or behind one that opens a loop and faces that place. -/
theorem target_behind (h : Aims code place (some target)) :
    (∃ marked k i j, Facing code marked place k i j ∧ target = k + 1 ∧ j.Bounds false ∧
      (∀ condition chained, j ≠ .branch condition chained) ∧
      (∀ condition chained, i = .branch condition chained → marked = false)) ∨
    ∃ k sequence names, Facing code false k place (.loopStart sequence names) .loopNext ∧
      target = k + 1 := by
  have hend : ∀ {j : Instruction} {kind : BlockKind}, j.role = .closes kind →
      j.Bounds false ∧ ∀ condition chained, j ≠ .branch condition chained := by
    intro j kind hj
    refine ⟨.inl ⟨kind, hj⟩, ?_⟩
    rintro condition (_ | _) rfl
    all_goals cases hj
  generalize htarget : some target = t at h
  cases h with
  | branch facing stop =>
    cases htarget
    rcases stop with rfl | rfl
    · exact .inl ⟨_, _, _, _, facing, rfl, .inr ⟨rfl, rfl⟩, nofun, fun _ _ _ => rfl⟩
    · exact .inl ⟨_, _, _, _, facing, rfl, (hend rfl).1, (hend rfl).2, fun _ _ _ => rfl⟩
  | otherwise facing =>
    cases htarget
    exact .inl ⟨_, _, _, _, facing, rfl, (hend rfl).1, (hend rfl).2, nofun⟩
  | loopStart facing =>
    cases htarget
    exact .inl ⟨_, _, _, _, facing, rfl, (hend rfl).1, (hend rfl).2, nofun⟩
  | skip facing =>
    cases htarget
    exact .inl ⟨_, _, _, _, facing, rfl, (hend rfl).1, (hend rfl).2, nofun⟩
  | loopNext facing =>
    cases htarget
    exact .inr ⟨_, _, _, facing, rfl⟩
  | overtaken => cases htarget
  | still => cases htarget

/-- The next mark behind a branch, or the end, says where it goes. -/
theorem of_branch {k : Nat} {t : Option Nat} (h : Aims code place t)
    (hf : Facing code false place k (.branch condition chained) j) (hj : j.Bounds false) :
    t = some (k + 1) ∧ (j = .otherwise ∨ j = .endBranch) ∨
      t = none ∧ ∃ condition', j = .branch condition' true := by
  have hend : ∀ {l : Instruction}, l = .otherwise ∨ l = .endBranch → l.Bounds false := by
    rintro l (rfl | rfl)
    · exact .inr ⟨rfl, rfl⟩
    · exact .inl ⟨_, rfl⟩
  cases h with
  | branch facing stop =>
    obtain rfl := hf.unique hj facing (hend stop)
    obtain rfl := Option.some.inj (hf.there.symm.trans facing.there)
    exact .inl ⟨rfl, stop⟩
  | overtaken facing =>
    obtain rfl := hf.unique hj facing (.inr ⟨rfl, rfl⟩)
    obtain rfl := Option.some.inj (hf.there.symm.trans facing.there)
    exact .inr ⟨rfl, _, rfl⟩
  | otherwise facing => cases Option.some.inj (hf.here.symm.trans facing.here)
  | loopStart facing => cases Option.some.inj (hf.here.symm.trans facing.here)
  | loopNext facing => cases Option.some.inj (hf.here.symm.trans facing.there)
  | skip facing => cases Option.some.inj (hf.here.symm.trans facing.here)
  | still here still =>
    cases Option.some.inj (hf.here.symm.trans here)
    exact absurd trivial still

/-- **Of the instructions that may jump, those without a target are the overtaken branches.** -/
theorem eq_none_iff {t : Option Nat} {i : Instruction} (h : Aims code place t)
    (here : code[place]? = some i) (hi : i.Jumps) : t = none ↔ Overtaken code place := by
  constructor
  · rintro rfl
    generalize htarget : none = t at h
    cases h with
    | overtaken facing => exact ⟨_, _, _, _, facing⟩
    | still here' still =>
      obtain rfl := Option.some.inj (here.symm.trans here')
      exact absurd hi still
    | _ => cases htarget
  · rintro ⟨place', condition, chained, condition', hf⟩
    rcases h.of_branch hf (.inr ⟨rfl, rfl⟩) with ⟨-, hj⟩ | ⟨ht, -⟩
    · rcases hj with hj | hj <;> cases hj
    · exact ht

/-- **A jump does not lead into what a branch guards**, unless it stands there. -/
theorem enters {i k : Nat} (h : Aims code place (some target))
    (hf : Facing code false i k (.branch condition chained) j) (hj : j.Bounds false)
    (hi : i < target) (hk : target < k) : i < place ∧ place < k := by
  have hne : ∀ {b : Nat} {l : Instruction}, code[b]? = some l →
      (∀ condition chained, l ≠ .branch condition chained) → i ≠ b := by
    rintro b l hl hbranch rfl
    have heq := hf.here.symm.trans hl
    exact hbranch _ _ (Option.some.inj heq).symm
  rcases h.target_behind with ⟨marked, b, l, l', hfacing, rfl, hbounds, hbranch, hmarked⟩ |
    ⟨b, sequence, names, hfacing, rfl⟩
  · -- the jump is a forward one, to behind `b`
    have hib : i < b := Nat.lt_of_le_of_ne (Nat.le_of_lt_succ hi) (hne hfacing.there hbranch)
    have hbk : b < k := Nat.lt_of_succ_lt hk
    refine ⟨?_, Nat.lt_trans hfacing.before hbk⟩
    rcases Nat.lt_trichotomy i place with hlt | rfl | hlt
    · exact hlt
    · have hl := Option.some.inj (hfacing.here.symm.trans hf.here)
      obtain rfl := hmarked _ _ hl
      exact absurd (hfacing.unique hbounds hf hj) (Nat.ne_of_lt hbk)
    · exact absurd hbk (hfacing.not_crossing hf hbounds hlt hib)
  · -- the jump is the one back to the body of a loop that begins at `b`
    have hib : i < b := Nat.lt_of_le_of_ne (Nat.le_of_lt_succ hi) (hne hfacing.here nofun)
    have hbk : b < k := Nat.lt_of_succ_lt hk
    refine ⟨Nat.lt_trans hib hfacing.before, ?_⟩
    rcases Nat.lt_trichotomy place k with hlt | rfl | hlt
    · exact hlt
    · exact absurd hib (hf.not_inside hfacing rfl)
    · exact absurd hlt (hf.not_crossing hfacing hj hib hbk)

end Aims
end TextTemplate
