/-
# The turns of cycles

Each time a run comes to a cycle, the cycle takes a turn.  The turns of a rendering are those of its
run in their order, with the turns of a template inside at the place where that is rendered, and a
row of renderings has their turns one after another.

* `Program.visitsFrom` are the instructions that a run carries out; `chain_of_visited` and
  `endsBehind_of_visited` say that they make up the run;
* `Turn` is a turn, `Turn.Gives` says which of its values a cycle gives in it, and `DueFrom` that
  the turns under a counter give one value after the other;
* `Template.turns` are the turns of a rendering, `Template.rendered` the renderings of a row of
  templates in one context, and `Template.turnsAll` their turns.
-/
import Mathlib.Data.List.Chain
import TextTemplate.Proofs.Run.Layers

namespace TextTemplate

/-! ## 1. What a run carries out -/

/-- An instruction that is carried out: its place, and the frame in front of it. -/
structure Visit where
  linked : Linked
  place : Nat
  frame : Frame

/-- The step of an instruction leads to another one. -/
def Visit.Then (env : Environment) (v v' : Visit) : Prop :=
  v.linked.step env v.place v.frame = .ok v'.place v'.frame

namespace Program

variable {p : Program} {env : Environment}

/-- The instructions that a run carries out from a place on, also the one that it fails in. -/
def visitsFrom (p : Program) (env : Environment) (spare place : Nat) (f : Frame) : List Visit :=
  match p.code[place]? with
  | none => []
  | some i =>
    match i.step env place f with
    | .error _ _ => [⟨i, place, f⟩]
    | .ok next f' =>
      if (p.rank next f').below (p.rank place f) then
        ⟨i, place, f⟩ :: p.visitsFrom env spare next f'
      else
        match spare with
        | 0 => [⟨i, place, f⟩]
        | spare + 1 => ⟨i, place, f⟩ :: p.visitsFrom env spare next f'
termination_by (spare, p.rank place f)
decreasing_by
  · exact Prod.Lex.right _ (by assumption)
  · exact Prod.Lex.left _ _ (Nat.lt_succ_self _)

/-- The first instruction that is carried out is the one where the run begins. -/
theorem first_visited {spare place : Nat} {f : Frame} {v : Visit}
    (h : (p.visitsFrom env spare place f).head? = some v) : v.place = place ∧ v.frame = f := by
  unfold visitsFrom at h
  split at h
  · cases h
  · split at h
    · cases h; exact ⟨rfl, rfl⟩
    · split at h
      · cases h; exact ⟨rfl, rfl⟩
      · split at h <;> cases h <;> exact ⟨rfl, rfl⟩

theorem not_visited {spare place : Nat} {f : Frame} (h : p.visitsFrom env spare place f = []) :
    p.code[place]? = none := by
  unfold visitsFrom at h
  split at h
  · assumption
  · split at h
    · cases h
    · split at h
      · cases h
      · split at h <;> cases h

/-- **What is carried out makes up the run**: the step of each instruction leads to the next one. -/
theorem chain_of_visited (spare place : Nat) (f : Frame) :
    (p.visitsFrom env spare place f).IsChain (Visit.Then env) := by
  have hcons : ∀ {spare place next : Nat} {f f' : Frame} {i : Linked},
      i.step env place f = .ok next f' →
      (p.visitsFrom env spare next f').IsChain (Visit.Then env) →
      ((⟨i, place, f⟩ : Visit) :: p.visitsFrom env spare next f').IsChain (Visit.Then env) := by
    intro spare place next f f' i hok ih
    refine List.isChain_cons.mpr ⟨fun v hv => ?_, ih⟩
    obtain ⟨hplace, hframe⟩ := first_visited hv
    rw [Visit.Then, hplace, hframe]
    exact hok
  fun_induction p.visitsFrom env spare place f with
  | case1 => exact .nil
  | case2 => exact .singleton _
  | case3 spare place f i here next f' hok hbelow ih => exact hcons hok ih
  | case4 => exact .singleton _
  | case5 place f i here next f' hok hbelow spare ih => exact hcons hok ih

/-- What has been carried out last: the run fails as it does, or is over behind it, or no more steps
are left. -/
def EndsBehind (p : Program) (env : Environment) (spare place : Nat) (f : Frame) (v : Visit) :
    Prop :=
  match v.linked.step env v.place v.frame with
  | .error e f' => p.runFrom env spare place f = .error e f'
  | .ok _ f' => p.runFrom env spare place f = .ok () f' ∨
      p.runFrom env spare place f = .error (Error.of .tooDeep) f'

/-- **The run ends behind the last instruction that is carried out.** -/
theorem endsBehind_of_visited {spare place : Nat} {f : Frame} {v : Visit}
    (h : (p.visitsFrom env spare place f).getLast? = some v) :
    p.EndsBehind env spare place f v := by
  have hcons : ∀ {spare spare' place next : Nat} {f f' : Frame} {i : Linked},
      i.step env place f = .ok next f' →
      p.runFrom env spare place f = p.runFrom env spare' next f' →
      (∀ v, (p.visitsFrom env spare' next f').getLast? = some v →
        p.EndsBehind env spare' next f' v) →
      ∀ v, ((⟨i, place, f⟩ : Visit) :: p.visitsFrom env spare' next f').getLast? = some v →
        p.EndsBehind env spare place f v := by
    intro spare spare' place next f f' i hok hrun ih v hv
    unfold EndsBehind at ih ⊢
    rw [hrun]
    cases hrest : p.visitsFrom env spare' next f' with
    | cons v' rest =>
      rw [hrest, List.getLast?_cons_cons] at hv
      exact ih v (hrest ▸ hv)
    | nil =>
      rw [hrest, List.getLast?_singleton] at hv
      cases hv
      rw [hok]
      exact .inl (runFrom_of_end (not_visited hrest) spare')
  fun_induction p.visitsFrom env spare place f generalizing v with
  | case1 => cases h
  | case2 spare place f i here e f' hfails =>
    rw [List.getLast?_singleton] at h
    cases h
    unfold EndsBehind runFrom
    rw [here]
    dsimp only
    rw [hfails]
  | case3 spare place f i here next f' hok hbelow ih =>
    exact hcons hok (runFrom_of_below here hok hbelow) (fun _ => ih) v h
  | case4 place f i here next f' hok hbelow =>
    rw [List.getLast?_singleton] at h
    cases h
    unfold EndsBehind
    rw [hok]
    exact .inr (runFrom_of_spent here hok hbelow)
  | case5 place f i here next f' hok hbelow spare ih =>
    exact hcons hok (runFrom_of_spare here hok hbelow) (fun _ => ih) v h

/-- **What a run carries out stands in the program**, where the steps of the run lead. -/
theorem reaches_of_visited {spare place : Nat} {f : Frame} {v : Visit}
    (h : v ∈ p.visitsFrom env spare place f) :
    p.code[v.place]? = some v.linked ∧ p.Reaches env place f v.place v.frame := by
  fun_induction p.visitsFrom env spare place f with
  | case1 => cases h
  | case2 spare place f i here e f' hfails =>
    rw [List.mem_singleton.mp h]
    exact ⟨here, .refl place f⟩
  | case3 spare place f i here next f' hok hbelow ih =>
    rcases List.mem_cons.mp h with rfl | h
    · exact ⟨here, .refl place f⟩
    · exact ⟨(ih h).1, (ih h).2.head here hok⟩
  | case4 place f i here next f' hok hbelow =>
    rw [List.mem_singleton.mp h]
    exact ⟨here, .refl place f⟩
  | case5 place f i here next f' hok hbelow spare ih =>
    rcases List.mem_cons.mp h with rfl | h
    · exact ⟨here, .refl place f⟩
    · exact ⟨(ih h).1, (ih h).2.head here hok⟩

end Program

/-! ## 2. Turns -/

/-- What is bound to a counter after some turns: nothing before the first one. -/
def boundAfter : Nat → Option Value
  | 0 => none
  | n + 1 => some (.int (n + 1))

/-- What is bound tells how many turns there have been. -/
theorem boundAfter_injective : ∀ {n m : Nat}, boundAfter n = boundAfter m → n = m
  | 0, 0, _ => rfl
  | n + 1, m + 1, h => by
    have hint := Value.int.inj (Option.some.inj h)
    omega

/-- The mapping binds the counter as it is after some turns. -/
def Store.Counted (r : Ref) (counter : String) (n : Nat) (s : Store) : Prop :=
  (s.dict r).find? (.text counter) = boundAfter n

/-- The mapping is made to hold under the counter that there have been `n` turns. -/
def Store.counting (r : Ref) (counter : String) (n : Nat) (s : Store) : Store :=
  s.setDict r ((s.dict r).insert (.text counter) (.plain counter) (.int n))

/-- The same in the state of a run. -/
def Frame.counting (r : Ref) (counter : String) (n : Nat) (f : Frame) : Frame :=
  { f with world.store := f.world.store.counting r counter n }

/-- A turn: a cycle that is carried out, with what it finds around it. -/
structure Turn where
  environment : Environment
  visit : Visit
  values : List Expression
  counter : String
  cycle : visit.linked.instruction = .cycle values counter

namespace Turn

/-- What comes of a turn. -/
def outcome (τ : Turn) : EStateM.Result Error Frame Nat :=
  τ.visit.linked.step τ.environment τ.visit.place τ.visit.frame

/-- In the turn the cycle gives value number `n` of its row, which begins anew behind the last one.
What comes of it is what comes of a marker with that expression, the turn being counted. -/
def Gives (r : Ref) (n : Nat) (τ : Turn) : Prop :=
  ∃ e, τ.values[n % τ.values.length]? = some e ∧
    τ.outcome = Linked.step τ.environment { τ.visit.linked with instruction := .expression e }
      τ.visit.place (τ.visit.frame.counting r τ.counter (n + 1))

end Turn

/-- The turns under a counter give one value after the other, from number `n` on. -/
def DueFrom (r : Ref) (counter : String) : Nat → List Turn → Prop
  | _, [] => True
  | n, τ :: turns =>
    if τ.counter = counter then τ.Gives r n ∧ DueFrom r counter (n + 1) turns
    else DueFrom r counter n turns

/-- How many of the turns are under the counter. -/
def turnsUnder (counter : String) (turns : List Turn) : Nat :=
  turns.countP fun τ => τ.counter = counter

section Due

variable {r : Ref} {counter : String} {n : Nat} {τ : Turn} {turns turns' : List Turn}

theorem turnsUnder_append : turnsUnder counter (turns ++ turns') =
    turnsUnder counter turns + turnsUnder counter turns' := List.countP_append

theorem turnsUnder_cons_of_eq (h : τ.counter = counter) :
    turnsUnder counter (τ :: turns) = turnsUnder counter turns + 1 :=
  List.countP_cons_of_pos (decide_eq_true h)

theorem turnsUnder_cons_of_ne (h : τ.counter ≠ counter) :
    turnsUnder counter (τ :: turns) = turnsUnder counter turns :=
  List.countP_cons_of_neg (by simp [h])

/-- **Two rows of turns**, one after the other. -/
theorem DueFrom.append (h : DueFrom r counter n turns)
    (h' : DueFrom r counter (n + turnsUnder counter turns) turns') :
    DueFrom r counter n (turns ++ turns') := by
  induction turns generalizing n with
  | nil => exact h'
  | cons τ turns ih =>
    rw [List.cons_append]
    unfold DueFrom at h ⊢
    by_cases hτ : τ.counter = counter
    · rw [if_pos hτ] at h ⊢
      rw [turnsUnder_cons_of_eq hτ, Nat.add_comm _ 1, ← Nat.add_assoc] at h'
      exact ⟨h.1, ih h.2 h'⟩
    · rw [if_neg hτ] at h ⊢
      rw [turnsUnder_cons_of_ne hτ] at h'
      exact ih h h'

/-- **A turn gives the value that is due** after those before it. -/
theorem DueFrom.gives {before after : List Turn} (h : DueFrom r counter n (before ++ τ :: after))
    (hτ : τ.counter = counter) : τ.Gives r (n + turnsUnder counter before) := by
  induction before generalizing n with
  | nil =>
    rw [List.nil_append] at h
    unfold DueFrom at h
    rw [if_pos hτ] at h
    exact h.1
  | cons τ' before ih =>
    rw [List.cons_append] at h
    unfold DueFrom at h
    by_cases hτ' : τ'.counter = counter
    · rw [if_pos hτ'] at h
      rw [turnsUnder_cons_of_eq hτ', Nat.add_comm _ 1, ← Nat.add_assoc]
      exact ih h.2
    · rw [if_neg hτ'] at h
      rw [turnsUnder_cons_of_ne hτ']
      exact ih h

/-- The turns under the counter alone. -/
theorem DueFrom.gives_of_filter (h : DueFrom r counter n turns) {k : Nat}
    (hk : (turns.filter fun τ => τ.counter = counter)[k]? = some τ) : τ.Gives r (n + k) := by
  induction turns generalizing n k with
  | nil => cases hk
  | cons τ' turns ih =>
    unfold DueFrom at h
    by_cases hτ' : τ'.counter = counter
    · rw [if_pos hτ'] at h
      rw [List.filter_cons_of_pos (by simp [hτ'])] at hk
      cases k with
      | zero =>
        cases hk
        exact h.1
      | succ k =>
        rw [Nat.add_comm k 1, ← Nat.add_assoc]
        exact ih h.2 hk
    · rw [if_neg hτ'] at h
      rw [List.filter_cons_of_neg (by simp [hτ'])] at hk
      exact ih h hk

/-- Turns have been taken from number `n` on, and the store behind them holds how many. -/
structure TakenFrom (r : Ref) (counter : String) (n : Nat) (turns : List Turn) (s : Store) :
    Prop where
  due : DueFrom r counter n turns
  behind : s.Counted r counter (n + turnsUnder counter turns)

theorem TakenFrom.none {s : Store} (h : s.Counted r counter n) : TakenFrom r counter n [] s :=
  ⟨trivial, h⟩

/-- A turn under the counter. -/
theorem TakenFrom.single {s : Store} (hτ : τ.counter = counter) (hgives : τ.Gives r n)
    (h : s.Counted r counter (n + 1)) : TakenFrom r counter n [τ] s := by
  refine ⟨?_, ?_⟩
  · unfold DueFrom
    rw [if_pos hτ]
    exact ⟨hgives, trivial⟩
  · rw [turnsUnder_cons_of_eq hτ]
    exact h

/-- A turn under another one. -/
theorem TakenFrom.other {s : Store} (hτ : τ.counter ≠ counter) (h : s.Counted r counter n) :
    TakenFrom r counter n [τ] s := by
  refine ⟨?_, ?_⟩
  · unfold DueFrom
    rw [if_neg hτ]
    trivial
  · rw [turnsUnder_cons_of_ne hτ]
    exact h

theorem TakenFrom.append {s s' : Store} (h : TakenFrom r counter n turns s)
    (h' : TakenFrom r counter (n + turnsUnder counter turns) turns' s') :
    TakenFrom r counter n (turns ++ turns') s' := by
  refine ⟨h.due.append h'.due, ?_⟩
  rw [turnsUnder_append, ← Nat.add_assoc]
  exact h'.behind

end Due

/-! ## 3. Turns of runs and renderings -/

/-- The turns in an instruction that is carried out: that of a cycle, or those in a template inside;
`inside` are the turns in a template of which the text of a value is the source. -/
def Visit.turns (env : Environment) (inside : Value → World → List Turn) (v : Visit) : List Turn :=
  match h : v.linked.instruction with
  | .cycle values counter => [⟨env, v, values, counter, h⟩]
  | .nested source =>
    match source.resolve env.filters v.frame.world.scopes v.frame.world.store with
    | .ok value s => inside value { v.frame.world with store := s }
    | .error _ _ => []
  | _ => []

/-- The turns in a run of a program. -/
def Program.turns (p : Program) (env : Environment) (inside : Value → World → List Turn)
    (w : World) : List Turn :=
  (p.visitsFrom env spareSteps 0 ⟨w, [], [], []⟩).flatMap (Visit.turns env inside)

namespace Template

/-- The turns in a run of a template, within some levels. -/
def turnsWithin : (levels : Nat) → Template → Value → World → List Turn
  | 0, t, autoescape, w =>
    t.program.turns (t.environment autoescape (nestedWithin 0 t autoescape)) (fun _ _ => []) w
  | levels + 1, t, autoescape, w =>
    t.program.turns (t.environment autoescape (nestedWithin (levels + 1) t autoescape))
      (fun v w =>
        match compile t.engine none v .empty w.store with
        | .ok inner s => turnsWithin levels inner autoescape { w with store := s }
        | .error _ _ => []) w

/-- The turns in a rendering. -/
def turns (t : Template) (c : Context) (s : Store) : List Turn :=
  match c.settings with
  | none => []
  | some settings => turnsWithin maxLevels t settings.autoescape ⟨c.boundTo t, s⟩

/-- What templates leave that are rendered one after another in one context. -/
def renderAll (templates : List Template) (c : Context) (s : Store) : Context × Store :=
  templates.foldl (fun (c, s) t => (t.render c s).2) (c, s)

/-- The same templates, each with the context and the store that it is rendered in. -/
def rendered : List Template → Context → Store → List (Template × Context × Store)
  | [], _, _ => []
  | t :: templates, c, s =>
    (t, c, s) :: rendered templates (t.render c s).2.1 (t.render c s).2.2

/-- The turns in all of these renderings. -/
def turnsAll (templates : List Template) (c : Context) (s : Store) : List Turn :=
  (rendered templates c s).flatMap fun (t, c, s) => t.turns c s

end Template
end TextTemplate
