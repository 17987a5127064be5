/-
# Single steps through the code of a tree

What one instruction does to a run, in the frame of a direct evaluation with running loops and
flags of its own (`Run.reframe`).  An instruction that computes carries the run to the next place
(`carries_of_framed`), a branch to one of two (`carries_choose`); the others only move, and change
the loops and the flags.

A loop is taken as a whole: `carries_loop` says that from its start to the place behind it the
program runs the rounds of the direct evaluation, if its body does what it should.
-/
import TextTemplate.Proofs.Run.Steps
import TextTemplate.Proofs.Tree.Code

namespace TextTemplate

open TextTemplate.Decimal TextTemplate.Outcome

/-! ## 1. Flags -/

/-- A word followed by a number tells the number. -/
theorem number_of_append {word : String} {a b : Nat}
    (h : word ++ decimalNat a = word ++ decimalNat b) : a = b := by
  have hl := congrArg String.toList h
  simp only [String.toList_append, List.append_cancel_left_eq, decimalNat,
    String.toList_ofList] at hl
  rw [← Nat.ofDigitChars_ten_toDigits (n := a), hl, Nat.ofDigitChars_ten_toDigits]

/-- Different depths have different flags. -/
theorem loopFlag_injective {a b : Nat} (h : Tag.loopFlag a = Tag.loopFlag b) : a = b :=
  number_of_append h

/-- No flag of a deeper block is set. -/
def Clear (depth : Nat) (flags : List String) : Prop :=
  ∀ d, depth < d → Tag.loopFlag d ∉ flags

namespace Clear

theorem mono {depth depth' : Nat} {flags : List String} (h : Clear depth flags)
    (hd : depth ≤ depth') : Clear depth' flags :=
  fun d hlt => h d (Nat.lt_of_le_of_lt hd hlt)

theorem insert {depth : Nat} {flags : List String} (h : Clear depth flags) :
    Clear depth (flags.insert (Tag.loopFlag depth)) := by
  intro d hd hm
  rcases List.mem_insert_iff.mp hm with he | hm
  · exact absurd (loopFlag_injective he) (Nat.ne_of_gt hd)
  · exact h d hd hm

theorem filter {depth : Nat} {flags : List String} (h : Clear depth flags) (p : String → Bool) :
    Clear depth (flags.filter p) :=
  fun d hd hm => h d hd (List.mem_filter.mp hm).1

end Clear

/-- The flags behind the body of a loop, or behind an empty part. -/
def EmptyParts.marked (flag : String) (flags : List String) : EmptyParts → List String
  | none => flags
  | part .. => flags.insert flag

theorem EmptyParts.marked_marked (flag : String) (flags : List String) (parts : EmptyParts) :
    parts.marked flag (parts.marked flag flags) = parts.marked flag flags := by
  cases parts with
  | none => rfl
  | part => exact List.insert_of_mem List.mem_insert_self

theorem EmptyParts.clear_marked {depth : Nat} {flags : List String} (h : Clear depth flags)
    (parts : EmptyParts) : Clear depth (parts.marked (Tag.loopFlag depth) flags) := by
  cases parts with
  | none => exact h
  | part => exact h.insert

theorem EmptyParts.filter_marked (flag : String) (flags : List String) (parts : EmptyParts) :
    (parts.marked flag flags).filter (· != flag) = flags.filter (· != flag) := by
  cases parts with
  | none => rfl
  | part =>
    by_cases h : flag ∈ flags
    · rw [marked, List.insert_of_mem h]
    · rw [marked, List.insert_of_not_mem h, List.filter_cons_of_neg (by simp)]

/-! ## 2. One step -/

namespace Program

variable {p : Program} {env : Environment} {k : Nat} {l : List Loop} {g : List String} {f : Frame}

/-- A step to the next place. -/
theorem leads_next {i : Linked} {f' : Frame} (here : p.code[k]? = some i) (hl : Enclose f.loops k)
    (hx : i.execute env k f = .ok none f') (hloops : f'.loops = f.loops) :
    p.Leads env k f (k + 1) f' := by
  have hstep : i.step env k f = .ok (k + 1) f' := by
    unfold Linked.step
    rw [hx]
    rfl
  exact .step here hstep (below_forward hl (lt_size here) hloops (Nat.lt_succ_self k)) (.refl _ _)

/-- A jump forward. -/
theorem leads_to {i : Linked} {k' : Nat} {f' : Frame} (here : p.code[k]? = some i)
    (hl : Enclose f.loops k) (hx : i.execute env k f = .ok (some k') f')
    (hloops : f'.loops = f.loops) (hk : k < k') : p.Leads env k f k' f' := by
  have hstep : i.step env k f = .ok k' f' := by
    unfold Linked.step
    rw [hx]
    rfl
  exact .step here hstep (below_forward hl (lt_size here) hloops hk) (.refl _ _)

/-- A step that fails. -/
theorem fails_of_execute {i : Linked} {e : Error} {l' : List Loop} {g' : List String} {f' : Frame}
    (here : p.code[k]? = some i) (hx : i.execute env k f = .error e (Run.reframe l' g' f')) :
    p.Fails env k f (env.locate f'.world.store i.token e) f'.world := by
  refine ⟨k, f, i, Run.reframe l' g' f', .refl _ _, here, ?_, rfl⟩
  unfold Linked.step
  rw [hx]
  rfl

/-- **An instruction that computes.** -/
theorem carries_of_framed {t : Token} {i : Instruction} {x : Run Unit}
    (here : p.code[k]? = some (.plain t i)) (hl : Enclose l k) (hx : Run.Framed x)
    (hi : (Linked.plain t i).execute env k = x >>= fun _ => pure none) :
    p.Carries env k (Run.reframe l g f) (k + 1) l g (Run.located env t x f) := by
  unfold Run.located
  cases hxf : x f with
  | ok u f' =>
    have hexec : (Linked.plain t i).execute env k (Run.reframe l g f) =
        .ok none (Run.reframe l g f') := by
      rw [hi, bind_of_ok (hx.ok hxf l g)]
      rfl
    exact leads_next here hl hexec rfl
  | error e f' =>
    have hexec : (Linked.plain t i).execute env k (Run.reframe l g f) =
        .error e (Run.reframe l g f') := by
      rw [hi, bind_of_error (hx.error hxf l g)]
    exact fails_of_execute here hexec

/-- An instruction that jumps in any case. -/
theorem leads_jump {t : Token} {i : Instruction} {target : Nat}
    (here : p.code[k]? = some (.jump t i target)) (hi : i = .otherwise ∨ i = .skip)
    (hl : Enclose l k) (hk : k < target) :
    p.Leads env k (Run.reframe l g f) target (Run.reframe l g f) := by
  have hx : (Linked.jump t i target).execute env k (Run.reframe l g f) =
      .ok (some target) (Run.reframe l g f) := by
    rcases hi with rfl | rfl <;> rfl
  exact leads_to here hl hx rfl hk

/-- An instruction that only marks an end. -/
theorem leads_end {t : Token} {i : Instruction} (here : p.code[k]? = some (.plain t i))
    (hi : i = .endBranch ∨ i = .endSkip) (hl : Enclose l k) :
    p.Leads env k (Run.reframe l g f) (k + 1) (Run.reframe l g f) := by
  have hx : (Linked.plain t i).execute env k (Run.reframe l g f) =
      .ok none (Run.reframe l g f) := by
    rcases hi with rfl | rfl <;> rfl
  exact leads_next here hl hx rfl

theorem leads_setFlag {t : Token} {flag : String}
    (here : p.code[k]? = some (.plain t (.setFlag flag))) (hl : Enclose l k) :
    p.Leads env k (Run.reframe l g f) (k + 1) (Run.reframe l (g.insert flag) f) :=
  leads_next here hl rfl rfl

theorem leads_clearFlag {t : Token} {flag : String}
    (here : p.code[k]? = some (.plain t (.clearFlag flag))) (hl : Enclose l k) :
    p.Leads env k (Run.reframe l g f) (k + 1) (Run.reframe l (g.filter (· != flag)) f) :=
  leads_next here hl rfl rfl

theorem leads_lead {parts : EmptyParts} {flag : String} (here : p.Has k (parts.lead flag))
    (hl : Enclose l k) : p.Leads env k (Run.reframe l g f) (k + parts.leadSize)
      (Run.reframe l (parts.marked flag g) f) := by
  cases parts with
  | none => exact .refl _ _
  | part => exact leads_setFlag here.1 hl

/-- A branch on a flag. -/
theorem leads_flag {t : Token} {flag : String} {target : Nat}
    (here : p.code[k]? = some (.jump t (.branch (.flagUnset flag) false) target))
    (hl : Enclose l k) (hk : k < target) :
    p.Leads env k (Run.reframe l g f) (if flag ∈ g then target else k + 1)
      (Run.reframe l g f) := by
  have hx : (Linked.jump t (.branch (.flagUnset flag) false) target).execute env k
      (Run.reframe l g f) =
        .ok (if (!g.contains flag) = true then none else some target) (Run.reframe l g f) := rfl
  by_cases hm : flag ∈ g
  · rw [if_neg (by simpa using hm)] at hx
    rw [if_pos hm]
    exact leads_to here hl hx rfl hk
  · rw [if_pos (by simpa using hm)] at hx
    rw [if_neg hm]
    exact leads_next here hl hx rfl

/-- **A branch on a condition of the source.** -/
theorem carries_choose {t : Token} {c : Condition} {chained : Bool} {target k' : Nat}
    {l' : List Loop} {g' : List String} {x y : Run Unit}
    (here : p.code[k]? = some (.jump t (.branch c chained) target)) (hc : c.Plain)
    (hl : Enclose l k) (hk : k < target)
    (hx : ∀ f, p.Carries env (k + 1) (Run.reframe l g f) k' l' g' (x f))
    (hy : ∀ f, p.Carries env target (Run.reframe l g f) k' l' g' (y f)) :
    p.Carries env k (Run.reframe l g f) k' l' g' (Run.choose env t c x y f) := by
  have hexec : (Linked.jump t (.branch c chained) target).execute env k (Run.reframe l g f) =
      (Run.eval (c.holds env.filters f.world.scopes []) >>= fun b =>
        pure (if b then none else some target)) (Run.reframe l g f) := by
    rw [← Condition.holds_of_plain g hc]
    rfl
  have hholds : Run.holds env c f = Run.eval (c.holds env.filters f.world.scopes []) f := rfl
  have heval := Run.Framed.eval (c.holds env.filters f.world.scopes [])
  cases hf : Run.holds env c f with
  | error e f' =>
    rw [Run.choose, bind_of_error (Run.located_of_error hf)]
    rw [bind_of_error (heval.error (hholds ▸ hf) l g)] at hexec
    exact fails_of_execute here hexec
  | ok b f' =>
    rw [Run.choose, bind_of_ok (Run.located_of_ok hf)]
    rw [bind_of_ok (heval.ok (hholds ▸ hf) l g)] at hexec
    cases b with
    | true => exact (hx f').after (leads_next here hl hexec rfl)
    | false => exact (hy f').after (leads_to here hl hexec rfl hk)

/-! ## 3. Layers -/

theorem leads_pushScope {t : Token} (here : p.code[k]? = some (.plain t .pushScope))
    (hl : Enclose l k) {f' : Frame} (hf : Run.pushLayer f = .ok () f') :
    p.Leads env k (Run.reframe l g f) (k + 1) (Run.reframe l g f') := by
  injection hf with _ hf
  rw [← hf]
  exact leads_next here hl rfl rfl

theorem leads_popScope {t : Token} (here : p.code[k]? = some (.plain t .popScope))
    (hl : Enclose l k) (hd : 2 < f.world.scopes.depth) {f' : Frame}
    (hf : Run.dropLayer f = .ok () f') :
    p.Leads env k (Run.reframe l g f) (k + 1) (Run.reframe l g f') := by
  injection hf with _ hf
  rw [← hf]
  obtain ⟨⟨⟨⟨root, pushed⟩, settings⟩, store⟩, output, loops, flags⟩ := f
  cases pushed with
  | nil => exact absurd hd (Nat.lt_irrefl 2)
  | cons layer rest => exact leads_next here hl rfl rfl

/-! ## 4. Loops -/

end Program

/-- Enter a loop with its items: bind the first one, or jump if there is none. -/
def Run.enterLoop (place : Nat) (names : List String) (target : Nat) :
    List LoopItem → Run (Option Nat)
  | [] => pure (some target)
  | item :: rest => do
    modify fun f => { f with loops := .make place names rest :: f.loops }
    Run.bindItem names item
    pure none

namespace Program

variable {p : Program} {env : Environment} {k : Nat} {l : List Loop} {g : List String} {f : Frame}

/-- The body of a loop, with the step to the next item: where it begins and ends, and what it
does for every frame inside the loop. -/
structure LoopCode (p : Program) (env : Environment) (k last depth : Nat) (names : List String)
    (ending : Token) (parts : EmptyParts) (body : Run Unit) : Prop where
  next : p.code[last]? = some (.jump ending .loopNext (k + 1))
  lt : k < last
  local_body : Run.Local body
  /-- From the first instruction of the body to the step to the next item. -/
  carries : ∀ {l : List Loop} {g : List String} (f : Frame), Enclose l (k + 1) → Clear depth g →
    p.Carries env (k + 1) (Run.reframe l g f) last l
      (parts.marked (Tag.loopFlag depth) g) (body f)

namespace LoopCode

variable {last depth : Nat} {names : List String} {ending : Token} {parts : EmptyParts}
  {body : Run Unit}

/-- What the step to the next item does when there is one. -/
theorem execute_loopNext {item : LoopItem} {rest : List LoopItem} :
    (Linked.jump ending .loopNext (k + 1)).execute env last
      (Run.reframe (.make k names (item :: rest) :: l) g f) =
    (Run.bindItem names item >>= fun _ => pure (some (k + 1)))
      (Run.reframe (.make k names rest :: l) g f) := rfl

/-- **The step to a further item** binds it and goes back to the body. -/
theorem carries_next (h : LoopCode p env k last depth names ending parts body) (hl : Enclose l k)
    {item : LoopItem} {rest : List LoopItem} :
    p.Carries env last (Run.reframe (.make k names (item :: rest) :: l) g f) (k + 1)
      (.make k names rest :: l) g (Run.located env ending (Run.bindItem names item) f) := by
  have hbind := (Run.bindItem_local names item).framed
  have hin : Enclose (.make k names (item :: rest) :: l) last := ⟨h.lt, hl⟩
  have hexec := @execute_loopNext env k l g f last names ending item rest
  unfold Run.located
  cases hb : Run.bindItem names item f with
  | error e f' =>
    rw [bind_of_error (hbind.error hb _ g)] at hexec
    exact fails_of_execute h.next hexec
  | ok u f' =>
    rw [bind_of_ok (hbind.ok hb _ g)] at hexec
    have hstep : (Linked.jump ending .loopNext (k + 1)).step env last
        (Run.reframe (.make k names (item :: rest) :: l) g f) =
        .ok (k + 1) (Run.reframe (.make k names rest :: l) g f') := by
      unfold Linked.step
      rw [hexec]
      rfl
    exact .step h.next hstep (below_again hin (lt_size h.next) rfl rfl rfl (Nat.lt_succ_self _)
      (Nat.lt_succ_self k)) (.refl _ _)

/-- When no item is left, the loop is left. -/
theorem leads_out (h : LoopCode p env k last depth names ending parts body) (hl : Enclose l k) :
    p.Leads env last (Run.reframe (.make k names [] :: l) g f) (last + 1)
      (Run.reframe l g f) := by
  have hin : Enclose (.make k names [] :: l) last := ⟨h.lt, hl⟩
  exact .step h.next rfl (below_leave hin (lt_size h.next) rfl rfl (Nat.lt_succ_self last))
    (.refl _ _)

/-- **The rounds behind the first binding**: the body, and then all further items. -/
theorem carries_rounds (h : LoopCode p env k last depth names ending parts body)
    (hl : Enclose l k) : ∀ (rest : List LoopItem) {g : List String} (f : Frame), Clear depth g →
      p.Carries env (k + 1) (Run.reframe (.make k names rest :: l) g f) (last + 1) l
        (parts.marked (Tag.loopFlag depth) g)
        ((body >>= fun _ => Run.rounds env names body ending ending rest) f)
  | [], g, f, hg => by
    have hin : Enclose (.make k names [] :: l) (k + 1) := ⟨Nat.lt_succ_self k, hl⟩
    exact .bind (h.carries f hin hg) fun f' _ => h.leads_out hl
  | item :: rest, g, f, hg => by
    have hin : Enclose (.make k names (item :: rest) :: l) (k + 1) := ⟨Nat.lt_succ_self k, hl⟩
    refine .bind (h.carries f hin hg) fun f' _ => ?_
    refine .bind (h.carries_next hl) fun f'' _ => ?_
    -- the flag is set already, so setting it again changes nothing
    have hrest := h.carries_rounds hl rest f'' (parts.clear_marked hg)
    rw [parts.marked_marked] at hrest
    exact hrest

/-- What the start of a loop does: with the items of its sequence it enters the loop. -/
theorem execute_loopStart {t : Token} {e : Expression} :
    (Linked.jump t (.loopStart e names) (last + 1)).execute env k (Run.reframe l g f) =
      (Run.loopItems env e >>= Run.enterLoop k names (last + 1)) (Run.reframe l g f) := rfl

/-- The start of a loop that has items binds the first one. -/
theorem carries_first {t : Token} {e : Expression} {item : LoopItem} {rest : List LoopItem}
    {f' : Frame} (start : p.code[k]? = some (.jump t (.loopStart e names) (last + 1)))
    (hl : Enclose l k) (hi : Run.loopItems env e f = .ok (item :: rest) f') :
    p.Carries env k (Run.reframe l g f) (k + 1) (.make k names rest :: l) g
      (Run.located env t (Run.bindItem names item) f') := by
  have hbind := (Run.bindItem_local names item).framed
  have hexec := @execute_loopStart env k l g f last names t e
  have henter : Run.enterLoop k names (last + 1) (item :: rest) (Run.reframe l g f') =
      (Run.bindItem names item >>= fun _ => pure none)
        (Run.reframe (.make k names rest :: l) g f') := rfl
  rw [bind_of_ok ((Run.loopItems_local env e).framed.ok hi l g), henter] at hexec
  unfold Run.located
  cases hb : Run.bindItem names item f' with
  | error e f'' =>
    rw [bind_of_error (hbind.error hb _ g)] at hexec
    exact fails_of_execute start hexec
  | ok u f'' =>
    rw [bind_of_ok (hbind.ok hb _ g)] at hexec
    have hstep : (Linked.jump t (.loopStart e names) (last + 1)).step env k
        (Run.reframe l g f) = .ok (k + 1) (Run.reframe (.make k names rest :: l) g f'') := by
      unfold Linked.step
      rw [hexec]
      rfl
    exact .step start hstep (below_enter hl (lt_size start) rfl rfl (Nat.lt_succ_self k))
      (.refl _ _)

/-- **A loop**: from its start the program evaluates the sequence and runs the rounds, and goes on
behind the loop, with the flag set if there were items. -/
theorem carries_loop {t : Token} {e : Expression} {k' : Nat} {l' : List Loop}
    {g' : List String} {rest : List LoopItem → Run Unit}
    (h : LoopCode p env k last depth names ending parts body)
    (start : p.code[k]? = some (.jump t (.loopStart e names) (last + 1)))
    (hl : Enclose l k) (hg : Clear depth g)
    (hrest : ∀ items f', f'.world.scopes.depth = f.world.scopes.depth →
      p.Carries env (last + 1) (Run.reframe l
        (if items.isEmpty then g else parts.marked (Tag.loopFlag depth) g) f') k' l' g'
        (rest items f')) :
    p.Carries env k (Run.reframe l g f) k' l' g'
      ((Run.located env t (Run.loopItems env e) >>= fun items =>
        Run.rounds env names body ending t items >>= fun _ => rest items) f) := by
  have hexec := @execute_loopStart env k l g f last names t e
  have hitems := Run.loopItems_local env e
  cases hi : Run.loopItems env e f with
  | error e' f' =>
    rw [bind_of_error (Run.located_of_error hi)]
    rw [bind_of_error (hitems.framed.error hi l g)] at hexec
    exact fails_of_execute start hexec
  | ok items f' =>
    rw [bind_of_ok (Run.located_of_ok hi)]
    have hdepth := hitems.depth hi
    cases items with
    | nil =>
      rw [bind_of_ok (hitems.framed.ok hi l g)] at hexec
      exact (hrest [] f' hdepth).after (leads_to start hl hexec rfl (Nat.lt_succ_of_lt h.lt))
    | cons item items =>
      have hrounds : p.Carries env k (Run.reframe l g f) (last + 1) l
          (parts.marked (Tag.loopFlag depth) g)
          (Run.rounds env names body ending t (item :: items) f') :=
        (carries_first start hl hi).bind fun f'' _ => h.carries_rounds hl items f'' hg
      refine hrounds.bind fun f'' hf'' => hrest (item :: items) f'' ?_
      rw [(Run.rounds_local h.local_body (item :: items) t).depth hf'', hdepth]

end LoopCode
end Program
end TextTemplate
