/-
# The running loops match the program

A run keeps a row of running loops, and only the two instructions at the ends of a loop touch it;
but branches, skips and the ends of loops all move the place.  In a program whose instructions are
pairwise distinct, and made for it, the two fit together: wherever a run is, the running loops are
those around the place.

* `Inside` says that a place is inside a block; `inside_iff_of_nested` compares two places with a
  stretch between them that nests, and `Aims.inside` a place and the target of its jump;
* `Linked.LoopStep` lists what a step does to the running loops;
* `LoopsMatch` is the invariant, `LoopsMatch.step` and `LoopsMatch.reached` carry it along a run;
* `assemble_loops` is the result.
-/
import TextTemplate.Proofs.Assembly.Guards

namespace TextTemplate

open TextTemplate.Outcome

/-! ## 1. Inside of blocks -/

/-- The place is inside the block of a kind that begins at `start`: behind its first instruction, up
to and with its last one. -/
def Inside (code : List Instruction) (kind : BlockKind) (start place : Nat) : Prop :=
  ∃ stop i j, Facing code kind.marked start stop i j ∧ i.role = .opens kind ∧
    j.role = .closes kind ∧ start < place ∧ place ≤ stop

theorem Instruction.loopNext_of_closes {i : Instruction} (h : i.role = .closes .loop) :
    i = .loopNext := by
  cases i with
  | loopNext => rfl
  | branch condition chained => cases chained <;> cases h
  | _ => cases h

section Inside

variable {code : List Instruction} {kind : BlockKind} {start place place' : Nat} {i j : Instruction}

theorem not_inside_zero : ¬Inside code kind start 0 := by
  rintro ⟨stop, i, j, -, -, -, hstart, -⟩
  exact absurd hstart (Nat.not_lt_zero start)

/-- Going on behind an instruction does not lead into a block that does not begin there. -/
theorem Inside.of_succ (here : code[place]? = some i) (hi : i.role ≠ .opens kind)
    (h : Inside code kind start (place + 1)) : Inside code kind start place := by
  obtain ⟨stop, k, l, hf, hk, hl, hlt, hle⟩ := h
  have hne : start ≠ place := by
    rintro rfl
    obtain rfl := Option.some.inj (here.symm.trans hf.here)
    exact hi hk
  exact ⟨stop, k, l, hf, hk, hl, by omega, by omega⟩

/-- Nor does it lead out of one that does not end there. -/
theorem Inside.succ (here : code[place]? = some i) (hi : i.role ≠ .closes kind)
    (h : Inside code kind start place) : Inside code kind start (place + 1) := by
  obtain ⟨stop, k, l, hf, hk, hl, hlt, hle⟩ := h
  have hne : place ≠ stop := by
    rintro rfl
    obtain rfl := Option.some.inj (here.symm.trans hf.there)
    exact hi hl
  exact ⟨stop, k, l, hf, hk, hl, by omega, by omega⟩

theorem inside_succ_iff (here : code[place]? = some i) (hopens : i.role ≠ .opens kind)
    (hcloses : i.role ≠ .closes kind) :
    Inside code kind start place ↔ Inside code kind start (place + 1) :=
  ⟨.succ here hcloses, .of_succ here hopens⟩

/-- **Two places with a stretch between them that nests are inside the same blocks.** -/
theorem inside_iff_of_nested {marked : Bool} (hle : place ≤ place')
    (h : Nested marked (stretch code place place')) :
    Inside code kind start place ↔ Inside code kind start place' := by
  constructor
  · rintro ⟨stop, i, j, hf, hi, hj, hlt, hstop⟩
    refine ⟨stop, i, j, hf, hi, hj, by omega, Nat.le_of_not_lt fun hout => ?_⟩
    -- the block would end in the stretch, without having begun there
    have hopen := (h.above (stretch_split hstop hout hf.there)).2 j _ rfl (.inl ⟨kind, hj⟩)
    have hsplit : stretch code (start + 1) stop =
        stretch code (start + 1) place ++ stretch code place stop := stretch_append hlt hstop
    have hfront := (hf.nested.above hsplit).1
    have hdepth := hf.nested.depth_eq
    rw [hsplit, depth_append] at hdepth
    omega
  · rintro ⟨stop, i, j, hf, hi, hj, hlt, hstop⟩
    refine ⟨stop, i, j, hf, hi, hj, Nat.lt_of_not_le fun hin => ?_, by omega⟩
    -- the block would begin in the stretch, without ending there
    have hsplit := stretch_split hin hlt hf.here
    have hfront := (h.above hsplit).1
    have hbehind : 0 ≤ depth (stretch code (start + 1) place') :=
      (hf.nested.above (stretch_append hlt hstop)).1
    have hdepth := h.depth_eq
    rw [hsplit, depth_append, depth, hi, Role.weight] at hdepth
    omega

/-- A block with its two ends nests. -/
theorem Facing.nested_block (h : Facing code kind.marked place place' i j)
    (hi : i.role = .opens kind) (hj : j.role = .closes kind) :
    Nested false (stretch code place (place' + 1)) := by
  have hsplit : stretch code place (place' + 1) =
      i :: (stretch code (place + 1) place' ++ [j]) := by
    rw [stretch_append (Nat.le_of_lt h.before) (Nat.le_succ place'), stretch_single h.there,
      stretch_split (Nat.le_refl _) h.before h.here, stretch_self]
    rfl
  rw [hsplit]
  exact .block hi h.nested hj .nil

/-- **A jump leads neither into nor out of a loop or a skipped region.** -/
theorem Aims.inside {target : Nat} (hk : kind ≠ .conditional) (h : Aims code place (some target)) :
    Inside code kind start place ↔ Inside code kind start target := by
  have hother : ∀ {i : Instruction}, i.role = .mark ∨ i.role = .opens .conditional ∨
      i.role = .closes .conditional → i.role ≠ .opens kind ∧ i.role ≠ .closes kind := by
    rintro i (hi | hi | hi)
    · rw [hi]
      exact ⟨nofun, nofun⟩
    · rw [hi]
      exact ⟨fun heq => hk (Role.opens.inj heq).symm, nofun⟩
    · rw [hi]
      exact ⟨nofun, fun heq => hk (Role.closes.inj heq).symm⟩
  -- within a conditional neither end of the jump begins or ends a block of another kind
  have hpart : ∀ {marked : Bool} {stop : Nat} {i j : Instruction},
      Facing code marked place stop i j →
      (i.role = .mark ∨ i.role = .opens .conditional ∨ i.role = .closes .conditional) →
      (j.role = .mark ∨ j.role = .opens .conditional ∨ j.role = .closes .conditional) →
      (Inside code kind start place ↔ Inside code kind start (stop + 1)) := by
    intro marked stop i j hf hi hj
    obtain ⟨hiopens, hicloses⟩ := hother hi
    obtain ⟨hjopens, hjcloses⟩ := hother hj
    calc Inside code kind start place
        ↔ Inside code kind start (place + 1) := inside_succ_iff hf.here hiopens hicloses
      _ ↔ Inside code kind start stop := inside_iff_of_nested hf.before hf.nested
      _ ↔ Inside code kind start (stop + 1) := inside_succ_iff hf.there hjopens hjcloses
  generalize htarget : some target = t at h
  cases h with
  | @branch _ stop condition chained j facing ends =>
    cases htarget
    refine hpart facing ?_ ?_
    · cases chained
      · exact .inr (.inl rfl)
      · exact .inl rfl
    · rcases ends with rfl | rfl
      · exact .inl rfl
      · exact .inr (.inr rfl)
  | otherwise facing =>
    cases htarget
    exact hpart facing (.inl rfl) (.inr (.inr rfl))
  | @loopStart _ stop sequence names facing =>
    cases htarget
    have hblock : Facing code BlockKind.loop.marked place stop (.loopStart sequence names)
        .loopNext := facing
    exact inside_iff_of_nested (Nat.le_succ_of_le (Nat.le_of_lt facing.before))
      (hblock.nested_block rfl rfl)
  | @skip _ stop facing =>
    cases htarget
    have hblock : Facing code BlockKind.skipped.marked place stop .skip .endSkip := facing
    exact inside_iff_of_nested (Nat.le_succ_of_le (Nat.le_of_lt facing.before))
      (hblock.nested_block rfl rfl)
  | loopNext facing =>
    cases htarget
    exact (inside_iff_of_nested facing.before facing.nested).symm
  | overtaken => cases htarget
  | still => cases htarget

/-- The start of a loop faces its end, and jumps behind it. -/
theorem Aims.facing_of_loopStart {sequence : Expression} {names : List String} {t : Option Nat}
    (h : Aims code place t) (here : code[place]? = some (.loopStart sequence names)) :
    ∃ stop, Facing code false place stop (.loopStart sequence names) .loopNext ∧
      t = some (stop + 1) := by
  cases h with
  | loopStart facing =>
    cases Option.some.inj (here.symm.trans facing.here)
    exact ⟨_, facing, rfl⟩
  | branch facing => cases Option.some.inj (here.symm.trans facing.here)
  | overtaken facing => cases Option.some.inj (here.symm.trans facing.here)
  | otherwise facing => cases Option.some.inj (here.symm.trans facing.here)
  | loopNext facing => cases Option.some.inj (here.symm.trans facing.there)
  | skip facing => cases Option.some.inj (here.symm.trans facing.here)
  | still here' still =>
    cases Option.some.inj (here.symm.trans here')
    exact absurd trivial still

/-- The end of a loop faces its start, and goes back behind it. -/
theorem Aims.facing_of_loopNext {t : Option Nat} (h : Aims code place t)
    (here : code[place]? = some .loopNext) : ∃ start sequence names,
      Facing code false start place (.loopStart sequence names) .loopNext ∧
        t = some (start + 1) := by
  cases h with
  | loopNext facing => exact ⟨_, _, _, facing, rfl⟩
  | loopStart facing => cases Option.some.inj (here.symm.trans facing.here)
  | branch facing => cases Option.some.inj (here.symm.trans facing.here)
  | overtaken facing => cases Option.some.inj (here.symm.trans facing.here)
  | otherwise facing => cases Option.some.inj (here.symm.trans facing.here)
  | skip facing => cases Option.some.inj (here.symm.trans facing.here)
  | still here' still =>
    cases Option.some.inj (here.symm.trans here')
    exact absurd trivial still

/-- What has no target opens no loop and no skipped region. -/
theorem Aims.conditional_of_none (h : Aims code place none) (here : code[place]? = some i)
    (hi : i.role = .opens kind) : kind = .conditional := by
  generalize htarget : none = t at h
  cases h with
  | @overtaken _ _ _ _ chained facing =>
    obtain rfl := Option.some.inj (here.symm.trans facing.here)
    cases chained <;> cases hi
    rfl
  | still here' still =>
    obtain rfl := Option.some.inj (here.symm.trans here')
    cases kind with
    | conditional => rfl
    | loop =>
      obtain ⟨sequence, names, rfl⟩ := Instruction.loopStart_of_opens hi
      exact absurd trivial still
    | skipped =>
      obtain rfl := Instruction.skip_of_opens hi
      exact absurd trivial still
  | _ => cases htarget

/-- Around the end of a loop its own loop is the innermost one. -/
theorem Inside.le_of_loopNext {sequence : Expression} {names : List String} {other : Nat}
    (hf : Facing code false start place (.loopStart sequence names) .loopNext)
    (h : Inside code .loop other place) : other ≤ start := by
  obtain ⟨stop, i, j, hother, hi, -, hlt, hle⟩ := h
  refine Nat.le_of_not_lt fun hin => ?_
  rcases Nat.lt_or_eq_of_le hle with hstop | rfl
  · exact hf.not_crossing hother (.inl ⟨_, rfl⟩) hin hlt hstop
  · exact hf.not_inside hother hi hin

/-- **Behind the end of a loop** the place is inside the same loops but for that one. -/
theorem inside_behind_loopNext {sequence : Expression} {names : List String} {other : Nat}
    (hf : Facing code false start place (.loopStart sequence names) .loopNext) :
    Inside code .loop other (place + 1) ↔ Inside code .loop other place ∧ other ≠ start := by
  constructor
  · intro h
    refine ⟨.of_succ hf.there nofun h, ?_⟩
    rintro rfl
    obtain ⟨stop, i, j, hother, -, hj, -, hle⟩ := h
    have heq := hf.unique (.inl ⟨_, rfl⟩) hother (.inl ⟨_, hj⟩)
    omega
  · rintro ⟨⟨stop, i, j, hother, hi, hj, hlt, hle⟩, hne⟩
    refine ⟨stop, i, j, hother, hi, hj, Nat.lt_succ_of_lt hlt, Nat.succ_le_of_lt ?_⟩
    refine Nat.lt_of_le_of_ne hle ?_
    rintro rfl
    rcases Nat.lt_or_gt_of_ne hne with hout | hin
    · exact hother.not_inside hf rfl hout
    · exact hf.not_inside hother hi hin

end Inside

/-! ## 2. What a step does to the running loops -/

/-- A computation inside a run leaves the running loops as they are, where it succeeds. -/
def Run.KeepsLoops {α : Type} (x : Run α) : Prop := ∀ f a f', x f = .ok a f' → f'.loops = f.loops

namespace Run.KeepsLoops

variable {α β : Type} {x : Run α} {g : α → Run β}

theorem bind (hx : KeepsLoops x) (hg : ∀ a, KeepsLoops (g a)) : KeepsLoops (x >>= g) := by
  intro f b f' h
  obtain ⟨a, f₁, hxf, hgf⟩ := bind_eq_ok.mp h
  exact (hg a f₁ b f' hgf).trans (hx f a f₁ hxf)

/-- What does not look at the running loops does not change them. -/
theorem framed (hx : Run.Framed x) : KeepsLoops x := by
  intro f a f' h
  have hsame := hx.ok h f.loops f.flags
  have heq : x (Run.reframe f.loops f.flags f) = x f := rfl
  rw [heq, h] at hsame
  injection hsame with _ hf
  rw [hf]
  rfl

/-- A change of the state that leaves the loops. -/
theorem change {h : Frame → Frame} (hloops : ∀ f, (h f).loops = f.loops) :
    KeepsLoops (modify h) := by
  rintro f a f' ⟨⟩
  exact hloops f

theorem pure (a : α) : KeepsLoops (Pure.pure a) := .framed (.pure a)

theorem eval (y : Eval α) : KeepsLoops (Run.eval y) := .framed (.eval y)

theorem scopes : KeepsLoops Run.scopes := .framed .scopes

theorem setScopes (c : Scopes) : KeepsLoops (Run.setScopes c) := .change fun _ => rfl

theorem write (v : Value) : KeepsLoops (Run.write v) := .change fun _ => rfl

theorem get : KeepsLoops (MonadState.get : Run Frame) := by
  rintro f a f' ⟨⟩
  rfl

theorem inWorld (y : EStateM Error World α) : KeepsLoops (Run.inWorld y) := by
  intro f a f' h
  unfold Run.inWorld at h
  split at h
  · cases h
    rfl
  · cases h

end Run.KeepsLoops

section Steps

variable {env : Environment} {i : Linked} {place next : Nat} {f f' : Frame}

/-- **What a step does to the running loops.**  Only the start of a loop adds one, and only the end
of a loop takes the innermost one away or has it go on with its next item. -/
inductive Linked.LoopStep (i : Linked) (place : Nat) (f : Frame) (next : Nat) (f' : Frame) :
    Prop where
  | passes (plain : ∀ kind, i.instruction.role = .opens kind → kind = .conditional)
      (other : i.instruction ≠ .loopNext) (loops : f'.loops = f.loops) (goes : next = place + 1)
  | jumps (other : i.instruction ≠ .loopNext) (loops : f'.loops = f.loops)
      (goes : next = i.target.getD (place + 1))
  | enters {sequence : Expression} {names : List String} {rest : List LoopItem}
      (here : i.instruction = .loopStart sequence names)
      (loops : f'.loops = .make place names rest :: f.loops) (goes : next = place + 1)
  | again {l l' : Loop} {outer : List Loop} {item : LoopItem} (here : i.instruction = .loopNext)
      (before : f.loops = l :: outer) (took : l.next? = some (item, l'))
      (loops : f'.loops = l' :: outer) (goes : next = i.target.getD (place + 1))
  | leaves {l : Loop} {outer : List Loop} (here : i.instruction = .loopNext)
      (before : f.loops = l :: outer) (loops : f'.loops = outer) (goes : next = place + 1)

/-- The instructions other than the two ends of a loop. -/
theorem Linked.execute_keepsLoops (place : Nat)
    (hstart : ∀ sequence names, i.instruction ≠ .loopStart sequence names)
    (hnext : i.instruction ≠ .loopNext) : Run.KeepsLoops (i.execute env place) := by
  unfold Linked.execute
  cases hi : i.instruction with
  | literal text => exact .bind (.write _) fun _ => .pure _
  | expression e =>
    exact .bind .scopes fun c => .bind (.eval _) fun v => .bind (.write v) fun _ => .pure _
  | pushScope => exact .bind .scopes fun c => .bind (.setScopes _) fun _ => .pure _
  | popScope =>
    refine .bind .scopes fun c => ?_
    split
    · exact .bind (.setScopes _) fun _ => .pure _
    · exact .eval _
  | branch condition chained =>
    exact .bind .scopes fun c => .bind .get fun g => .bind (.eval _) fun holds => .pure _
  | otherwise => exact .pure _
  | skip => exact .pure _
  | loopStart sequence names => exact absurd hi (hstart sequence names)
  | loopNext => exact absurd hi hnext
  | setFlag name => exact .bind (.change fun _ => rfl) fun _ => .pure _
  | clearFlag name => exact .bind (.change fun _ => rfl) fun _ => .pure _
  | cycle values counter =>
    exact .bind (.bind .scopes fun c => .bind (.eval _) fun v => .write v) fun _ => .pure _
  | assign name v => exact .bind .scopes fun c => .bind (.eval _) fun _ => .pure _
  | nested source =>
    exact .bind .scopes fun c => .bind (.eval _) fun v => .bind (.inWorld _) fun u =>
      .bind (.write u) fun _ => .pure _
  | endBranch => exact .pure _
  | endSkip => exact .pure _
  | noop => exact .pure _

theorem Loop.next?_start {l l' : Loop} {item : LoopItem} (h : l.next? = some (item, l')) :
    l'.start = l.start ∧ l'.names = l.names := by
  unfold next? at h
  split at h
  · cases h
  · cases h
    exact ⟨rfl, rfl⟩

/-- **Each step is one of these.** -/
theorem Linked.step_loops (h : i.step env place f = .ok next f') : i.LoopStep place f next f' := by
  unfold step at h
  cases hr : i.execute env place f with
  | error e f₁ =>
    rw [hr] at h
    cases h
  | ok target f₁ =>
    rw [hr] at h
    cases h
    cases hi : i.instruction with
    | loopStart sequence names =>
      unfold execute at hr
      rw [hi] at hr
      obtain ⟨c, f₂, hscopes, hr⟩ := bind_eq_ok.mp hr
      have hloops := Run.KeepsLoops.scopes f c f₂ hscopes
      obtain ⟨items, f₃, heval, hr⟩ := bind_eq_ok.mp hr
      rw [← Run.KeepsLoops.eval _ f₂ items f₃ heval] at hloops
      cases items with
      | nil =>
        cases hr
        exact .jumps (by rw [hi]; nofun) hloops rfl
      | cons item rest =>
        dsimp only at hr
        obtain ⟨u, f₄, hadd, hr⟩ := bind_eq_ok.mp hr
        obtain ⟨u', f₅, hitem, hr⟩ := bind_eq_ok.mp hr
        cases hr
        cases hadd
        have hadded : f'.loops = .make place names rest :: f.loops := by
          rw [Run.KeepsLoops.framed (Run.bindItem_local names item).framed _ _ _ hitem]
          exact congrArg (Loop.make place names rest :: ·) hloops
        exact .enters hi hadded rfl
    | loopNext =>
      unfold execute at hr
      rw [hi] at hr
      obtain ⟨g, f₂, hget, hr⟩ := bind_eq_ok.mp hr
      cases hget
      cases hbefore : f.loops with
      | nil =>
        rw [hbefore] at hr
        cases hr
      | cons l outer =>
        simp only [hbefore] at hr
        cases hnext : l.next? with
        | none =>
          rw [hnext] at hr
          cases hr
          exact .leaves hi hbefore rfl rfl
        | some taken =>
          obtain ⟨item, l'⟩ := taken
          rw [hnext] at hr
          obtain ⟨u, f₃, hset, hr⟩ := bind_eq_ok.mp hr
          obtain ⟨u', f₄, hitem, hr⟩ := bind_eq_ok.mp hr
          cases hr
          cases hset
          have htaken : f'.loops = l' :: outer :=
            Run.KeepsLoops.framed (Run.bindItem_local l.names item).framed _ _ _ hitem
          exact .again hi hbefore hnext htaken rfl
    | skip =>
      unfold execute at hr
      rw [hi] at hr
      cases hr
      exact .jumps (by rw [hi]; nofun) rfl rfl
    | _ =>
      have hother : i.instruction ≠ .loopNext := by rw [hi]; nofun
      have hloops := execute_keepsLoops place (by rw [hi]; nofun) hother f target f' hr
      rcases execute_gives place f target f' hr with rfl | rfl
      · refine .passes (fun kind hkind => ?_) hother hloops rfl
        rw [hi] at hkind
        cases kind with
        | conditional => rfl
        | loop =>
          obtain ⟨sequence, names, hstart⟩ := Instruction.loopStart_of_opens hkind
          cases hstart
        | skipped => cases Instruction.skip_of_opens hkind
      · exact .jumps hother hloops rfl

end Steps

/-! ## 3. Runs -/

/-- Loops that lie inside each other begin one behind the other. -/
theorem Enclose.pairwise {loops : List Loop} {place : Nat} (h : Enclose loops place) :
    (loops.map (·.start)).Pairwise (· > ·) := by
  induction loops generalizing place with
  | nil => exact .nil
  | cons l outer ih =>
    refine .cons (fun start hmem => ?_) (ih h.2)
    obtain ⟨m, hm, rfl⟩ := List.mem_map.mp hmem
    exact h.2.start_lt (Nat.le_refl _) m hm

/-- **The running loops match a place of the code.**  They lie inside each other, and are the loops
around the place; each binds the names that its start says; and the place is in no region that never
runs. -/
structure LoopsMatch (code : List Instruction) (place : Nat) (loops : List Loop) : Prop where
  enclose : Enclose loops place
  inside : ∀ start, start ∈ loops.map (·.start) ↔ Inside code .loop start place
  names : ∀ l ∈ loops, ∃ sequence, code[l.start]? = some (.loopStart sequence l.names)
  runs : ∀ start, ¬Inside code .skipped start place

namespace LoopsMatch

variable {code : List Instruction} {place : Nat} {loops : List Loop}

/-- In front of a program no loop is running. -/
theorem start (code : List Instruction) : LoopsMatch code 0 [] where
  enclose := trivial
  inside start := by
    constructor
    · nofun
    · intro h
      exact absurd h not_inside_zero
  names := nofun
  runs _ := not_inside_zero

/-- **At the end of a loop that loop is the innermost one that is running.** -/
theorem innermost (h : LoopsMatch code place loops) {start : Nat} {sequence : Expression}
    {names : List String}
    (hf : Facing code false start place (.loopStart sequence names) .loopNext) :
    ∃ l outer, loops = l :: outer ∧ l.start = start ∧ l.names = names := by
  have hin : Inside code .loop start place := ⟨place, _, _, hf, rfl, rfl, hf.before, Nat.le_refl _⟩
  obtain ⟨own, hmem, hown⟩ := List.mem_map.mp ((h.inside start).mpr hin)
  cases loops with
  | nil => cases hmem
  | cons l outer =>
    have hle : l.start ≤ start :=
      ((h.inside l.start).mp List.mem_cons_self).le_of_loopNext hf
    have hstart : l.start = start := by
      rcases List.mem_cons.mp hmem with rfl | hmem
      · exact hown
      · -- the loops further out begin in front of the innermost one
        have hlt := h.enclose.2.start_lt (Nat.le_refl _) own hmem
        omega
    obtain ⟨sequence', hnames⟩ := h.names l List.mem_cons_self
    rw [hstart, hf.here] at hnames
    cases hnames
    exact ⟨l, outer, rfl, hstart, rfl⟩

/-- Where the place moves inside the same loops, the running loops still match. -/
theorem move {place' : Nat} (h : LoopsMatch code place loops)
    (hloops : ∀ start, Inside code .loop start place ↔ Inside code .loop start place')
    (hskipped : ∀ start, Inside code .skipped start place' → Inside code .skipped start place) :
    LoopsMatch code place' loops where
  enclose := by
    cases loops with
    | nil => trivial
    | cons l outer =>
      have hin : Inside code .loop l.start place := (h.inside l.start).mp List.mem_cons_self
      obtain ⟨stop, i, j, -, -, -, hlt, -⟩ := (hloops l.start).mp hin
      exact ⟨hlt, h.enclose.2⟩
  inside start := (h.inside start).trans (hloops start)
  names := h.names
  runs start hin := h.runs start (hskipped start hin)

/-- A loop that goes on is still the same loop. -/
theorem again {l l' : Loop} {outer : List Loop} (h : LoopsMatch code place (l :: outer))
    (hstart : l'.start = l.start) (hnames : l'.names = l.names) :
    LoopsMatch code place (l' :: outer) where
  enclose := ⟨hstart ▸ h.enclose.1, hstart ▸ h.enclose.2⟩
  inside start := by
    rw [← h.inside start, List.map_cons, List.map_cons, hstart]
  names m hm := by
    rcases List.mem_cons.mp hm with rfl | hm
    · rw [hstart, hnames]
      exact h.names l List.mem_cons_self
    · exact h.names m (List.mem_cons_of_mem _ hm)
  runs := h.runs

/-- Behind the start of a loop that loop is running. -/
theorem enter {stop : Nat} {sequence : Expression} {names : List String} (rest : List LoopItem)
    (h : LoopsMatch code place loops)
    (hf : Facing code false place stop (.loopStart sequence names) .loopNext) :
    LoopsMatch code (place + 1) (.make place names rest :: loops) where
  enclose := ⟨Nat.lt_succ_self place, h.enclose⟩
  inside start := by
    rw [List.map_cons, List.mem_cons, h.inside start]
    constructor
    · rintro (hown | hin)
      · obtain rfl : start = place := hown
        exact ⟨stop, _, _, hf, rfl, rfl, Nat.lt_succ_self start, hf.before⟩
      · exact .succ hf.here nofun hin
    · rintro ⟨stop', i, j, hf', hi, hj, hlt, hle⟩
      rcases Nat.lt_or_eq_of_le (Nat.le_of_lt_succ hlt) with hlt | rfl
      · exact .inr ⟨stop', i, j, hf', hi, hj, hlt, Nat.le_of_succ_le hle⟩
      · exact .inl rfl
  names m hm := by
    rcases List.mem_cons.mp hm with rfl | hm
    · exact ⟨sequence, hf.here⟩
    · exact h.names m hm
  runs start hin := h.runs start (.of_succ hf.here nofun hin)

/-- Behind the end of a loop that loop is not running any more. -/
theorem leave {l : Loop} {outer : List Loop} {start : Nat} {sequence : Expression}
    {names : List String} (h : LoopsMatch code place (l :: outer))
    (hf : Facing code false start place (.loopStart sequence names) .loopNext) :
    LoopsMatch code (place + 1) outer where
  enclose := h.enclose.2.mono (Nat.le_of_lt (Nat.lt_succ_of_lt h.enclose.1))
  inside other := by
    obtain ⟨l', outer', hcons, rfl, -⟩ := h.innermost hf
    cases hcons
    have hne : other ∈ outer.map (·.start) → other ≠ l.start := by
      intro hmem
      obtain ⟨m, hm, rfl⟩ := List.mem_map.mp hmem
      exact Nat.ne_of_lt (h.enclose.2.start_lt (Nat.le_refl _) m hm)
    rw [inside_behind_loopNext hf, ← h.inside other, List.map_cons, List.mem_cons]
    constructor
    · intro hin
      exact ⟨.inr hin, hne hin⟩
    · rintro ⟨hown | hin, hother⟩
      · exact absurd hown hother
      · exact hin
  names m hm := h.names m (List.mem_cons_of_mem _ hm)
  runs start hin := h.runs start (.of_succ hf.there nofun hin)

end LoopsMatch

section Runs

variable {items : List Item} {p : Program} {env : Environment} {place next : Nat} {f f' : Frame}
  {i : Linked}

/-- **A step leads to a place that the running loops match.** -/
theorem LoopsMatch.step (hlabels : (items.map (·.label)).Nodup)
    (hp : Program.assemble items = .ok p) (h : LoopsMatch (codeOf items) place f.loops)
    (here : p.code[place]? = some i)
    (hstep : i.step env place f = .ok next f') : LoopsMatch (codeOf items) next f'.loops := by
  obtain ⟨hcode, haims⟩ := Program.aims_of_assemble hlabels hp here
  -- going on behind an instruction that opens neither a loop nor a skipped region
  have hpass : (∀ kind, i.instruction.role = .opens kind → kind = .conditional) →
      i.instruction ≠ .loopNext → LoopsMatch (codeOf items) (place + 1) f.loops := by
    intro hplain hother
    refine h.move (fun start => inside_succ_iff hcode (fun hi => ?_) fun hi => ?_)
      fun start => .of_succ hcode fun hi => ?_
    · cases hplain _ hi
    · exact hother (Instruction.loopNext_of_closes hi)
    · cases hplain _ hi
  cases Linked.step_loops hstep with
  | passes plain other loops goes =>
    rw [loops, goes]
    exact hpass plain other
  | jumps other loops goes =>
    rw [loops, goes]
    cases htarget : i.target with
    | none =>
      rw [htarget] at haims
      exact hpass (fun kind hi => haims.conditional_of_none hcode hi) other
    | some target =>
      rw [htarget] at haims
      exact h.move (fun start => haims.inside (by decide)) fun start =>
        (haims.inside (by decide)).mpr
  | enters start loops goes =>
    rw [start] at hcode
    obtain ⟨stop, hf, -⟩ := haims.facing_of_loopStart hcode
    rw [loops, goes]
    exact h.enter _ hf
  | again loopNext before took loops goes =>
    rw [loopNext] at hcode
    obtain ⟨start, sequence, names, hf, htarget⟩ := haims.facing_of_loopNext hcode
    rw [htarget] at haims
    obtain ⟨hstart, hnames⟩ := Loop.next?_start took
    have hmoved : LoopsMatch (codeOf items) (start + 1) f.loops :=
      h.move (fun other => haims.inside (by decide)) fun other => (haims.inside (by decide)).mpr
    rw [before] at hmoved
    rw [loops, goes, htarget]
    exact hmoved.again hstart hnames
  | leaves loopNext before loops goes =>
    rw [loopNext] at hcode
    obtain ⟨start, sequence, names, hf, -⟩ := haims.facing_of_loopNext hcode
    rw [before] at h
    rw [loops, goes]
    exact h.leave hf

/-- A step leads to a place of the program, or to its end. -/
theorem Program.step_le (hlabels : (items.map (·.label)).Nodup)
    (hp : Program.assemble items = .ok p) (here : p.code[place]? = some i)
    (hstep : i.step env place f = .ok next f') : next ≤ p.size := by
  obtain ⟨-, haims⟩ := Program.aims_of_assemble hlabels hp here
  rcases Linked.step_goes hstep with rfl | htarget
  · exact (Array.getElem?_eq_some_iff.mp here).1
  · rw [htarget] at haims
    have hle := haims.target_le
    rwa [codeOf, List.length_map, ← Program.size_of_assemble hp] at hle

/-- **Along a run** the running loops match each place that is reached. -/
theorem LoopsMatch.reached (hlabels : (items.map (·.label)).Nodup)
    (hp : Program.assemble items = .ok p) {start : Nat}
    (h : LoopsMatch (codeOf items) start f.loops) (hstart : start ≤ p.size)
    (hsteps : p.Reaches env start f place f') :
    place ≤ p.size ∧ LoopsMatch (codeOf items) place f'.loops := by
  induction hsteps with
  | refl => exact ⟨hstart, h⟩
  | tail _ here step ih =>
    obtain ⟨-, hmatch⟩ := ih h
    exact ⟨Program.step_le hlabels hp here step, hmatch.step hlabels hp here step⟩

end Runs

/-! ## 4. Result -/

end TextTemplate
