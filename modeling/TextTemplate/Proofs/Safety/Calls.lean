/-
# Calls and sums in a region

Whatever is called with values that lie in a region, what it gives lies in the region, and what it
changes stays in order: methods of objects give what the objects have, methods of plain data move
items about.  A sum is no safe text as long as its second part is none.
-/
import TextTemplate.Proofs.Safety.Values

namespace TextTemplate

open TextTemplate.Outcome

variable {R : Region} {s : Store}

namespace Region

/-! ## 1. Numbers -/

theorem keeps_ofFloat (x : Option Decimal.Binary64) : R.Keeps (Eval.ofFloat x) R.Plain := by
  unfold Eval.ofFloat
  split
  · exact .pure ⟨trivial, rfl⟩
  · have hidentity : R.Keeps (Eval.make (·.newIdentity)) fun _ => True :=
      .make fun s hs => ⟨hs.newIdentity, trivial⟩
    exact .bind hidentity fun i _ => .pure ⟨trivial, rfl⟩

theorem keeps_nearestFloat (n : Int) :
    R.Keeps (Eval.read fun _ => nearestFloat n) fun _ => True := .read fun _ _ _ _ => trivial

theorem keeps_arithmetic (exact : Int → Int → Int)
    (rounded : Decimal.Binary64 → Decimal.Binary64 → Option Decimal.Binary64) (x y : Numeric) :
    R.Keeps (Eval.arithmetic exact rounded x y) R.Plain := by
  unfold Eval.arithmetic
  split
  · exact .pure (plain_int _)
  · exact .bind (keeps_nearestFloat _) fun x _ => keeps_ofFloat _
  · exact .bind (keeps_nearestFloat _) fun y _ => keeps_ofFloat _
  · exact keeps_ofFloat _
  · exact .bind (keeps_nearestFloat _) fun _ _ => keeps_ofFloat _
  · exact .bind (keeps_nearestFloat _) fun _ _ => keeps_ofFloat _
  · exact keeps_ofFloat _

/-- **A sum** is no safe text, if its second part is none. -/
theorem keeps_plus {a b : Value} (ha : R.Has a) (hb : R.Plain b) :
    R.Keeps (Eval.plus a b) R.Plain := by
  unfold Eval.plus
  refine .bind .get fun s hs => ?_
  split
  · exact keeps_arithmetic _ _ _ _
  · split
    · refine .pure ⟨trivial, ?_⟩
      have hsafe : _ = false := hb.2
      exact Bool.and_eq_false_imp.mpr fun _ => hsafe
    · exact .fail _
    · refine .make fun s' hs' => hs'.newList fun v hv => ?_
      rcases List.mem_append.mp hv with hv | hv
      · exact hs.lists _ ha v hv
      · exact hs.lists _ hb.1 v hv
    · exact .fail _
    · refine .make fun s' hs' => hs'.newTuple fun v hv => ?_
      rcases List.mem_append.mp hv with hv | hv
      · exact hs.tuples _ ha v hv
      · exact hs.tuples _ hb.1 v hv
    · exact .fail _
    · exact .fail _

theorem keeps_minus (a b : Value) : R.Keeps (Eval.minus a b) R.Plain := by
  have hread : ∀ v : Value, R.Keeps (Eval.read fun _ => v.readNumber) fun _ => True :=
    fun v => .read fun _ _ _ _ => trivial
  exact .bind (hread a) fun x _ => .bind (hread b) fun y _ => keeps_arithmetic _ _ _ _

/-! ## 2. Methods of plain data -/

/-- A view of a mapping. -/
theorem keeps_view (kind : ViewKind) {r : Ref} (hr : R.dicts r) :
    R.Keeps (do let i ← Eval.make (·.newIdentity); pure (.view kind r i)) R.Plain := by
  have hidentity : R.Keeps (Eval.make (·.newIdentity)) fun _ => True :=
    .make fun s hs => ⟨hs.newIdentity, trivial⟩
  exact .bind hidentity fun i _ => .pure ⟨hr, rfl⟩

/-- **A method of plain data** gives what lies in the region, and moves items about at most. -/
theorem keeps_callData {v : Value} (hv : R.Has v) (m : DataMethod) :
    R.Keeps (Eval.callData v m) R.Plain := by
  unfold Eval.callData
  refine .bind .get fun s hs => ?_
  split
  · exact .pure (plain_text _)
  · exact .pure (plain_text _)
  · exact .pure (plain_text _)
  · exact .pure (plain_text _)
  · exact .pure (plain_text _)
  · exact .pure (plain_text _)
  · refine .make fun s' hs' => hs'.newList fun w hw => ?_
    obtain ⟨cs, -, rfl⟩ := List.mem_map.mp hw
    exact plain_text _
  · exact keeps_view _ hv
  · exact keeps_view _ hv
  · exact keeps_view _ hv
  · rename_i r
    split
    · exact .fail _
    · rename_i e hlast
      have hrest : R.PlainDict (s.dict r).dropLast := fun e he =>
        hs.dicts r hv e (List.dropLast_subset _ he)
      have hpair := hs.dicts r hv e (List.mem_of_getLast? hlast)
      refine .bind (.set (hs.setDict r hrest) trivial) fun _ (_ : True) =>
        .make fun s' hs' => hs'.newTuple fun w hw => ?_
      simp only [List.mem_cons, List.not_mem_nil, or_false] at hw
      rcases hw with rfl | rfl
      · exact hpair.1
      · exact hpair.2
  · exact .make fun s' hs' => hs'.newDict (hs.dicts _ hv)
  · have hnone : R.PlainDict ([] : Dict) := fun e he => absurd he List.not_mem_nil
    exact .bind (.set (hs.setDict _ hnone) trivial) fun _ (_ : True) => .pure plain_none
  · exact .pure plain_none
  · exact .make fun s' hs' => hs'.newList (hs.lists _ hv)
  · rename_i r
    split
    · exact .fail _
    · rename_i last hlast
      have hrest : ∀ w ∈ (s.list r).dropLast, R.Plain w := fun w hw =>
        hs.lists r hv w (List.dropLast_subset _ hw)
      exact .bind (.set (hs.setList r hrest) trivial) fun _ (_ : True) =>
        .pure (hs.lists r hv last (List.mem_of_getLast? hlast))
  · rename_i r
    have hsorted : ∀ w ∈ (Sorting.sortItems (s.related .less) (s.list r)).1, R.Plain w := by
      intro w hw
      exact hs.lists r hv w ((Sorting.sortItems_perm _ _).mem_iff.mp hw)
    refine .bind (.set (hs.setList r hsorted) trivial) fun _ (_ : True) => ?_
    split
    · exact .pure plain_none
    · exact .fail _
  · rename_i r
    have hreversed : ∀ w ∈ (s.list r).reverse, R.Plain w := fun w hw =>
      hs.lists r hv w (List.mem_reverse.mp hw)
    exact .bind (.set (hs.setList r hreversed) trivial) fun _ (_ : True) => .pure plain_none
  · have hnone : ∀ w ∈ ([] : List Value), R.Plain w := fun w hw => absurd hw List.not_mem_nil
    exact .bind (.set (hs.setList _ hnone) trivial) fun _ (_ : True) => .pure plain_none
  · exact .pure (plain_int _)
  · exact .pure (plain_int _)
  · exact .pure (plain_int _)
  · exact .pure (plain_int _)
  · exact .pure (plain_float _)
  · exact .pure (plain_nan _)
  · exact .pure (plain_bool _)
  · exact .pure (plain_bool _)
  · exact .fail _

/-! ## 3. Calls -/

/-- What a piece of the caller's code gives. -/
theorem keeps_outcome {outcome : Outcome} (h : ∀ v, outcome = .returns v → R.Plain v) :
    R.Keeps (Eval.read fun _ => outcome.run) R.Plain :=
  .read fun _ v _ hv => h v (Outcome.returns_of_run hv)

theorem keeps_callValue {v : Value} (hv : R.Has v) : R.Keeps (Eval.callValue v) R.Plain := by
  unfold Eval.callValue
  refine .bind .get fun s hs => ?_
  split
  · rename_i r
    split
    · rename_i outcome hcall
      refine keeps_outcome fun v hreturns => hs.objects r hv v (.call ?_)
      rw [hcall, hreturns]
    · exact .fail _
  · exact hv.elim
  · exact .fail _

theorem keeps_call {m : Member} (hm : R.PlainMember m) : R.Keeps (Eval.call m) R.Plain := by
  unfold Eval.call
  split
  · exact keeps_callValue hm.1
  · split
    · exact .fail _
    · exact keeps_outcome hm
  · exact keeps_callData hm _

theorem keeps_declinesCall (v : Value) : R.Keeps (Eval.declinesCall v) fun _ => True := by
  unfold Eval.declinesCall
  refine .bind .get fun s _ => ?_
  split
  · exact .bind .get fun s' _ => .pure trivial
  · exact .pure trivial
  · split
    · exact .pure trivial
    · exact .fail _
  · exact .pure trivial

theorem keeps_refuseCall (v : Value) : R.Keeps (Eval.refuseCall v) R.Plain := by
  unfold Eval.refuseCall
  refine .bind .get fun s _ => ?_
  split
  · exact .fail _
  · exact .fail _
  · split
    · exact .fail _
    · exact .fail _

/-- **What a lookup goes on with** lies in the region. -/
theorem keeps_settle {m : Member} (hm : R.PlainMember m) : R.Keeps (Eval.settle m) R.Plain := by
  unfold Eval.settle
  split
  · rename_i r
    refine .bind .get fun s hs => ?_
    split
    · exact .pure hm
    · rename_i outcome hcall
      refine .bind (keeps_declinesCall _) fun declines _ => ?_
      split
      · exact .pure hm
      · split
        · exact keeps_refuseCall _
        · refine keeps_outcome fun v hreturns => hs.objects r hm.1 v (.call ?_)
          rw [hcall, hreturns]
  · exact hm.1.elim
  · exact .pure hm
  · split
    · exact .fail _
    · exact keeps_outcome hm
  · exact keeps_callData hm _

end Region
end TextTemplate
