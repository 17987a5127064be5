/-
# What a branch guards

In a program each jump has the target that it should have, and so a run comes to the instructions
that a branch guards only from the branch itself, when its condition holds.  There is one exception:
a branch that is overtaken by a chained one has no target.  When its condition does not hold, the
run goes on with what it guards.

* `Linked.step_goes` says where a step leads, `Linked.step_branch` what a branch does;
* `assemble_targets` is the result.
-/
import TextTemplate.Proofs.Assembly.Targets
import TextTemplate.Proofs.Run.Layers

namespace TextTemplate

open TextTemplate.Outcome

/-! ## 1. Steps -/

/-- What a computation inside a run gives, if it succeeds. -/
def Run.Gives {α : Type} (x : Run α) (Q : α → Prop) : Prop := ∀ f a f', x f = .ok a f' → Q a

namespace Run.Gives

variable {α β : Type} {x : Run α} {g : α → Run β} {P : β → Prop}

theorem pure {a : β} (h : P a) : Gives (Pure.pure a) P := by
  intro f a' f' heq
  cases heq
  exact h

theorem bind (hg : ∀ a, Gives (g a) P) : Gives (x >>= g) P := by
  intro f b f' h
  obtain ⟨a, f₁, -, h⟩ := bind_eq_ok.mp h
  exact hg a f₁ b f' h

theorem fail (cause : Cause) : Gives (Run.eval (Eval.fail cause) : Run β) P := by
  intro f a f' h
  obtain ⟨s, h, -⟩ := eval_eq_ok.mp h
  cases h

end Run.Gives

variable {env : Environment} {i : Linked}

/-- **An instruction goes on behind itself or jumps to its target.** -/
theorem Linked.execute_gives (place : Nat) : Run.Gives (i.execute env place) i.MayGive := by
  have hnext : Run.Gives (Pure.pure none) i.MayGive := .pure (.inl rfl)
  have hjump : Run.Gives (Pure.pure i.target) i.MayGive := .pure (.inr rfl)
  unfold Linked.execute
  cases i.instruction with
  | literal text => exact .bind fun _ => hnext
  | expression e => exact .bind fun _ => .bind fun _ => .bind fun _ => hnext
  | pushScope => exact .bind fun _ => .bind fun _ => hnext
  | popScope =>
    refine .bind fun c => ?_
    split
    · exact .bind fun _ => hnext
    · exact .fail _
  | branch condition chained =>
    refine .bind fun c => .bind fun f => .bind fun holds => ?_
    cases holds with
    | true => exact hnext
    | false => exact hjump
  | otherwise => exact hjump
  | skip => exact hjump
  | loopStart sequence names =>
    refine .bind fun c => .bind fun items => ?_
    cases items with
    | nil => exact hjump
    | cons item rest => exact .bind fun _ => .bind fun _ => hnext
  | loopNext =>
    refine .bind fun f => ?_
    split
    · exact .fail _
    · split
      · exact .bind fun _ => hnext
      · exact .bind fun _ => .bind fun _ => hjump
  | setFlag name => exact .bind fun _ => hnext
  | clearFlag name => exact .bind fun _ => hnext
  | cycle values counter => exact .bind fun _ => hnext
  | assign name v => exact .bind fun _ => .bind fun _ => hnext
  | nested source => exact .bind fun _ => .bind fun _ => .bind fun _ => .bind fun _ => hnext
  | endBranch => exact hnext
  | endSkip => exact hnext
  | noop => exact hnext

/-- A step leads behind its place or to the target. -/
theorem Linked.step_goes {place next : Nat} {f f' : Frame} (h : i.step env place f = .ok next f') :
    next = place + 1 ∨ i.target = some next := by
  unfold step at h
  split at h
  · cases h
  · rename_i target f₁ hexec
    cases h
    rcases execute_gives place f target f' hexec with rfl | rfl
    · exact .inl rfl
    · cases i.target with
      | none => exact .inl rfl
      | some t => exact .inr rfl

/-- **A branch** goes on behind itself if its condition holds, and to its target if it does not. -/
theorem Linked.step_branch {condition : Condition} {chained : Bool}
    (hi : i.instruction = .branch condition chained) {place next : Nat} {f f' : Frame} :
    i.step env place f = .ok next f' ↔ ∃ holds s,
      condition.holds env.filters f.world.scopes f.flags f.world.store = .ok holds s ∧
      f' = { f with world := { f.world with store := s } } ∧
      next = if holds then place + 1 else i.target.getD (place + 1) := by
  have hexec : i.execute env place f = (Run.eval (condition.holds env.filters f.world.scopes
      f.flags) >>= fun holds => pure (if holds then none else i.target)) f := by
    unfold execute
    rw [hi]
    rfl
  unfold step
  rw [hexec]
  cases hc : condition.holds env.filters f.world.scopes f.flags f.world.store with
  | error e s =>
    rw [bind_of_error (Run.eval_of_error hc)]
    constructor
    · rintro ⟨⟩
    · rintro ⟨holds, s', ⟨⟩, -⟩
  | ok holds s =>
    rw [bind_of_ok (Run.eval_of_ok hc)]
    have hnext : (if holds then none else i.target).getD (place + 1) =
        if holds then place + 1 else i.target.getD (place + 1) := by
      cases holds <;> rfl
    constructor
    · rintro ⟨⟩
      exact ⟨holds, s, rfl, rfl, hnext⟩
    · rintro ⟨holds', s', ⟨⟩, rfl, rfl⟩
      exact congrArg (EStateM.Result.ok · _) hnext

/-! ## 2. Runs -/

namespace Program

variable {items : List Item} {p : Program} {place place' : Nat} {condition : Condition}
  {chained : Bool} {j : Instruction}

/-- The branch at `place` guards the code up to `place'`, and is not overtaken there. -/
def Guards (items : List Item) (place place' : Nat) (condition : Condition) : Prop :=
  ∃ chained j, Facing (codeOf items) false place place' (.branch condition chained) j ∧
    (j = .otherwise ∨ j = .endBranch)

/-- **A step into what a branch guards** is a step of the branch, and its condition holds. -/
theorem step_of_guards (hlabels : (items.map (·.label)).Nodup) (hp : assemble items = .ok p)
    (hg : Guards items place place' condition) {start stop : Nat} {f f' : Frame} {i : Linked}
    (here : p.code[start]? = some i) (hstep : i.step env start f = .ok stop f')
    (hout : ¬(place < start ∧ start < place')) (hin : place < stop ∧ stop < place') :
    start = place ∧ stop = place + 1 ∧ ∃ s,
      condition.holds env.filters f.world.scopes f.flags f.world.store = .ok true s ∧
      f' = { f with world := { f.world with store := s } } := by
  obtain ⟨chained, j, hf, hj⟩ := hg
  have hbounds : j.Bounds false := by
    rcases hj with rfl | rfl
    · exact .inr ⟨rfl, rfl⟩
    · exact .inl ⟨_, rfl⟩
  obtain ⟨hcode, haims⟩ := aims_of_assemble hlabels hp here
  rcases Linked.step_goes hstep with rfl | htarget
  · have hstart : start = place := by omega
    subst hstart
    have hi := Option.some.inj (hcode.symm.trans hf.here)
    obtain ⟨holds, s, hholds, hf', hstop⟩ := (Linked.step_branch hi).mp hstep
    cases holds with
    | true => exact ⟨rfl, rfl, s, hholds, hf'⟩
    | false =>
      -- the target lies behind what is guarded
      rcases haims.of_branch hf hbounds with ⟨htarget, -⟩ | ⟨-, condition', rfl⟩
      · rw [htarget] at hstop
        simp at hstop
        omega
      · rcases hj with hj | hj <;> cases hj
  · rw [htarget] at haims
    exact absurd (haims.enters hf hbounds hin.1 hin.2) hout

/-- **A run comes to what a branch guards only through the branch**, where its condition holds. -/
theorem reaches_of_guards (hlabels : (items.map (·.label)).Nodup) (hp : assemble items = .ok p)
    (hg : Guards items place place' condition) {start stop : Nat} {f f' : Frame}
    (hsteps : p.Reaches env start f stop f') (hout : ¬(place < start ∧ start < place'))
    (hin : place < stop ∧ stop < place') : ∃ f₁ s, p.Reaches env start f place f₁ ∧
      condition.holds env.filters f₁.world.scopes f₁.flags f₁.world.store = .ok true s ∧
      p.Reaches env (place + 1) { f₁ with world := { f₁.world with store := s } } stop f' := by
  induction hsteps with
  | refl => exact absurd hin hout
  | @tail middle stop f f₁ f' i steps here step ih =>
    by_cases hmiddle : place < middle ∧ middle < place'
    · obtain ⟨f₂, s, hbefore, hholds, hbehind⟩ := ih hmiddle
      exact ⟨f₂, s, hbefore, hholds, .tail hbehind here step⟩
    · obtain ⟨rfl, rfl, s, hholds, rfl⟩ := step_of_guards hlabels hp hg here step hmiddle hin
      exact ⟨f₁, s, steps, hholds, .refl _ _⟩

end Program

/-! ## 3. Result -/

/-- **The targets of a program**, if its instructions are pairwise distinct; they were made for it,
as the items of any row are, and had no targets before.  Each instruction has
the target that it should have, which is a place of the program or its end, and of those that may
jump only the overtaken branches have none.  And whenever a run comes from elsewhere to what a
branch guards, it comes from the branch, and the condition holds there. -/
theorem assemble_targets {items : List Item} {p : Program}
    (hlabels : (items.map (·.label)).Nodup) (hp : Program.assemble items = .ok p) :
    p.size = items.length ∧
    (∀ place i, p.code[place]? = some i →
      (codeOf items)[place]? = some i.instruction ∧ Aims (codeOf items) place i.target ∧
      (∀ target, i.target = some target → target ≤ p.size) ∧
      (i.instruction.Jumps → (i.target = none ↔ Overtaken (codeOf items) place))) ∧
    ∀ place place' condition, Program.Guards items place place' condition →
      ∀ env start f stop f', p.Reaches env start f stop f' →
        ¬(place < start ∧ start < place') → place < stop ∧ stop < place' →
        ∃ f₁ s, p.Reaches env start f place f₁ ∧
          condition.holds env.filters f₁.world.scopes f₁.flags f₁.world.store = .ok true s ∧
          p.Reaches env (place + 1) { f₁ with world := { f₁.world with store := s } } stop f' := by
  have hsize : p.size = items.length := Program.size_of_assemble hp
  refine ⟨hsize, fun place i here => ?_, fun place place' condition hg env start f stop f' => ?_⟩
  · obtain ⟨hcode, haims⟩ := Program.aims_of_assemble hlabels hp here
    refine ⟨hcode, haims, fun target htarget => ?_, haims.eq_none_iff hcode⟩
    rw [htarget] at haims
    have hle := haims.target_le
    rwa [codeOf, List.length_map, ← hsize] at hle
  · exact Program.reaches_of_guards hlabels hp hg

/-- The items of instructions that are pairwise distinct. -/
def itemsOf (code : List Instruction) : List Item := code.mapIdx fun place i => ⟨place, i, none⟩

/-- A name stands for something that counts as true. -/
def nameHolds (name : String) : Condition := .truth ⟨name, ⟨name, .path [name]⟩, []⟩

/-- A conditional with a second branch behind its `otherwise`, a loop and a skipped region. -/
def blocksCode : List Instruction :=
  [.branch (nameHolds "a") false, .literal "1", .otherwise, .branch (nameHolds "b") true,
    .literal "2", .endBranch, .loopStart ⟨"l", ⟨"l", .path ["l"]⟩, []⟩ ["x"], .literal "3",
    .loopNext, .skip, .endSkip]

/-- The program of these. -/
def blocksProgram : Program :=
  ⟨(List.zipWith (fun i target => ⟨i, none, target⟩) blocksCode
    [some 3, none, some 6, some 6, none, none, some 9, none, some 7, some 11, none]).toArray⟩

/-- The first branch guards the text behind it, which a run reaches only if `a` is true. -/
theorem assemble_targets_blocks :
    ((itemsOf blocksCode).map (·.label)).Nodup ∧
    Program.assemble (itemsOf blocksCode) = .ok blocksProgram ∧
    Aims (codeOf (itemsOf blocksCode)) 0 (some 3) ∧ ¬Overtaken (codeOf (itemsOf blocksCode)) 0 ∧
    ∀ env f f', blocksProgram.Reaches env 0 f 1 f' → ∃ f₁ s, blocksProgram.Reaches env 0 f 0 f₁ ∧
      (nameHolds "a").holds env.filters f₁.world.scopes f₁.flags f₁.world.store = .ok true s := by
  have hlabels : ((itemsOf blocksCode).map (·.label)).Nodup := by decide
  have hp : Program.assemble (itemsOf blocksCode) = .ok blocksProgram := by rfl
  have hguards : Program.Guards (itemsOf blocksCode) 0 2 (nameHolds "a") :=
    ⟨false, .otherwise, ⟨rfl, rfl, by decide, .plain rfl .nil⟩, .inl rfl⟩
  obtain ⟨-, htargets, hruns⟩ := assemble_targets hlabels hp
  obtain ⟨-, haims, -, hnone⟩ := htargets 0 _ rfl
  refine ⟨hlabels, hp, haims, fun hover => ?_, fun env f f' hreaches => ?_⟩
  · cases (hnone trivial).mpr hover
  · obtain ⟨f₁, s, hbefore, hholds, -⟩ :=
      hruns 0 2 _ hguards env 0 f 1 f' hreaches (by decide) (by decide)
    exact ⟨f₁, s, hbefore, hholds⟩

/-- A conditional whose second branch follows without an `otherwise`. -/
def overtakenCode : List Instruction :=
  [.branch (nameHolds "f") false, .literal "1", .branch (nameHolds "a") true, .literal "2",
    .endBranch, .literal "3"]

/-- The program of these.  The first branch has no target. -/
def overtakenProgram : Program :=
  ⟨(List.zipWith (fun i target => ⟨i, none, target⟩) overtakenCode
    [none, none, some 5, none, none, none]).toArray⟩

/-- A world without any names. -/
def namelessWorld : World := ⟨⟨⟨.dict 0, []⟩, none⟩, { Store.empty with dicts := #[[]] }⟩

/-- **A branch may have no target.**  The conditional of the first branch has no `otherwise` and
ends at 4, so the branch should go to 5.  It has no target, and where no name stands for anything
its condition does not hold and the text that it guards is written. -/
theorem overtaken_branch_falls_through :
    ((itemsOf overtakenCode).map (·.label)).Nodup ∧
    Program.assemble (itemsOf overtakenCode) = .ok overtakenProgram ∧
    Facing (codeOf (itemsOf overtakenCode)) true 0 4 (.branch (nameHolds "f") false) .endBranch ∧
    .otherwise ∉ overtakenCode ∧ overtakenProgram.code[0]?.map (·.target) = some none ∧
    ∃ s, (nameHolds "f").holds Filter.standard namelessWorld.scopes [] namelessWorld.store =
        .ok false s ∧
      overtakenProgram.Reaches (.detached Filter.standard (.bool true)) 0
        ⟨namelessWorld, [], [], []⟩ 2
        ⟨{ namelessWorld with store := s }, [.plain "1"], [], []⟩ := by
  refine ⟨by decide, by rfl, ⟨rfl, rfl, by decide, ?_⟩, by decide, rfl, ?_⟩
  · exact .plain rfl (.mark rfl (.plain rfl .nil))
  · have hfalse : (match (nameHolds "f").holds Filter.standard namelessWorld.scopes []
        namelessWorld.store with
      | .ok b _ => some b
      | .error _ _ => none) = some false := by decide +kernel
    cases hholds : (nameHolds "f").holds Filter.standard namelessWorld.scopes []
        namelessWorld.store with
    | error e s =>
      rw [hholds] at hfalse
      cases hfalse
    | ok b s =>
      rw [hholds] at hfalse
      obtain rfl := Option.some.inj hfalse
      exact ⟨s, rfl, .tail (.tail (.refl _ _) rfl
        ((Linked.step_branch rfl).mpr ⟨false, s, hholds, rfl, rfl⟩)) rfl rfl⟩

end TextTemplate
