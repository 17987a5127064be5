/-
# Values that come out of a region

What is read out of values that lie in a region, lies in the region: items, attributes, the items
of a stream, what calls give.  The value that is read from may be a safe text, for its characters
are plain texts again.
-/
import TextTemplate.Proofs.Safety.Keeping
import TextTemplate.Proofs.Sorting.Permutation

namespace TextTemplate

open TextTemplate.Outcome

variable {R : Region} {s : Store}

/-! ## 1. Items and attributes -/

theorem Outcome.returns_of_run {outcome : Outcome} {v : Value} (h : outcome.run = .ok v) :
    outcome = .returns v := by
  cases outcome with
  | returns w =>
    cases h
    rfl
  | raises => cases h

theorem Region.plain_getD {items : List Value} (h : ∀ v ∈ items, R.Plain v) (i : Nat) :
    R.Plain (items[i]?.getD .none) := by
  cases hi : items[i]? with
  | none => exact plain_none
  | some v => exact h v (List.mem_of_getElem? hi)

/-- **An item of a value** lies in the region. -/
theorem Region.Holds.item (h : R.Holds s) {v key found : Value} (hv : R.Has v)
    (hi : s.item v key = .ok found) : R.Plain found := by
  unfold Store.item at hi
  split at hi
  · split at hi
    · cases hi
    · obtain ⟨i, -, hi⟩ := except_bind_eq_ok hi
      cases hi
      exact plain_text _
  · split at hi
    · cases hi
    · split at hi
      · cases hi
      · cases hi
        exact plain_int _
  · split at hi
    · cases hi
    · obtain ⟨i, -, hi⟩ := except_bind_eq_ok hi
      cases hi
      exact plain_getD (h.lists _ hv) i
  · split at hi
    · cases hi
    · obtain ⟨i, -, hi⟩ := except_bind_eq_ok hi
      cases hi
      exact plain_getD (h.tuples _ hv) i
  · split at hi
    · cases hi
    · split at hi
      · rename_i hfound
        cases hi
        exact (h.dicts _ hv).find? hfound
      · cases hi
  · split at hi
    · cases hi
    · rename_i items hitems
      split at hi
      · cases hi
      · rename_i k hk
        split at hi
        · rename_i outcome hlookup
          exact h.objects _ hv _
            (.item hitems (mem_of_lookup hlookup) (Outcome.returns_of_run hi))
        · cases hi
  · cases hi

/-- A member that leads to nothing outside the region. -/
def Region.PlainMember (R : Region) : Member → Prop
  | .value v => R.Plain v
  | .method _ m => ∀ v, m.outcome = .returns v → R.Plain v
  | .data of _ => R.Has of

/-- An attribute of an object. -/
theorem Region.Holds.objectAttribute (h : R.Holds s) {r : Ref} (hr : R.objects r) {name : String}
    {m : Member} (hm : (s.object r).attribute? name = some (.ok m)) : R.PlainMember m := by
  unfold Object.attribute? at hm
  split at hm
  · rename_i outcome hlookup
    injection hm with hm
    cases hrun : outcome.run with
    | error cause =>
      rw [hrun] at hm
      cases hm
    | ok v =>
      rw [hrun] at hm
      cases hm
      exact h.objects r hr v (.property (mem_of_lookup hlookup) (Outcome.returns_of_run hrun))
  · split at hm
    · rename_i v hlookup
      cases hm
      exact h.objects r hr v (.attribute (mem_of_lookup hlookup))
    · split at hm
      · rename_i method hfind
        cases hm
        intro v hv
        exact h.objects r hr v (.method (List.mem_of_find?_eq_some hfind) hv)
      · split at hm
        · cases hm
          exact plain_text _
        · split at hm
          · cases hm
            exact plain_bool true
          · cases hm

/-- The parts of a value of plain data are numbers. -/
theorem Region.plain_dataParts (v : Value) : ∀ a ∈ v.dataParts, R.Plain a.2 := by
  have hinteger : ∀ n : Int, ∀ a ∈ integerParts n, R.Plain a.2 := by
    intro n a ha
    unfold integerParts at ha
    simp only [List.mem_cons, List.not_mem_nil, or_false] at ha
    rcases ha with rfl | rfl | rfl | rfl <;> exact plain_int _
  intro a ha
  cases v with
  | int n => exact hinteger n a ha
  | bool b => exact hinteger b.toNat a ha
  | float x =>
    simp only [Value.dataParts, List.mem_cons, List.not_mem_nil, or_false] at ha
    rcases ha with rfl | rfl <;> exact plain_float _
  | nan i =>
    simp only [Value.dataParts, List.mem_cons, List.not_mem_nil, or_false] at ha
    rcases ha with rfl | rfl
    · exact plain_nan i
    · exact plain_float _
  | range start stop =>
    simp only [Value.dataParts, List.mem_cons, List.not_mem_nil, or_false] at ha
    rcases ha with rfl | rfl | rfl <;> exact plain_int _
  | _ => cases ha

/-- An attribute of plain data. -/
theorem Region.dataAttribute {v : Value} (hv : R.Has v) {name : String} {m : Member}
    (hm : v.dataAttribute? name = some m) : R.PlainMember m := by
  unfold Value.dataAttribute? at hm
  split at hm
  · rename_i part hpart
    cases hm
    exact plain_dataParts v _ (mem_of_lookup hpart)
  · obtain ⟨method, -, rfl⟩ := Option.map_eq_some_iff.mp hm
    exact hv

/-- **An attribute of a value** leads to nothing outside the region. -/
theorem Region.Holds.attribute (h : R.Holds s) {v : Value} (hv : R.Has v) {name : String}
    {m : Member} (hm : s.attribute? v name = some (.ok m)) : R.PlainMember m := by
  unfold Store.attribute? at hm
  split at hm
  · exact h.objectAttribute hv hm
  · exact hv.elim
  · obtain ⟨member, hmember, hm⟩ := Option.map_eq_some_iff.mp hm
    cases hm
    exact dataAttribute hv hmember

/-! ## 2. Streams -/

/-- The items of an object that is read by its indexes. -/
theorem Region.Holds.indexedItems (h : R.Holds s) {v : Value} (hv : R.Has v) :
    ∀ (fuel index : Nat), ∀ w ∈ (s.indexedItems v fuel index).items, R.Plain w
  | 0, _, _, hw => absurd hw List.not_mem_nil
  | fuel + 1, index, w, hw => by
    unfold Store.indexedItems at hw
    split at hw
    · rename_i found hfound
      rcases List.mem_cons.mp hw with rfl | hw
      · exact h.item hv hfound
      · exact h.indexedItems hv fuel (index + 1) w hw
    · split at hw
      · exact absurd hw List.not_mem_nil
      · exact absurd hw List.not_mem_nil

theorem Region.keeps_pairTuples : ∀ {d : Dict}, R.PlainDict d →
    R.Keeps (Eval.pairTuples d) fun items => ∀ v ∈ items, R.Plain v
  | [], _ => .pure fun v hv => absurd hv List.not_mem_nil
  | e :: rest, h => by
    obtain ⟨⟨hl, hv⟩, hrest⟩ := List.forall_mem_cons.mp h
    refine .bind (.make fun s hs => hs.newTuple ?_) fun pair hpair =>
      .bind (keeps_pairTuples hrest) fun pairs hpairs =>
        .pure (List.forall_mem_cons.mpr ⟨hpair, hpairs⟩)
    intro w hw
    simp only [List.mem_cons, List.not_mem_nil, or_false] at hw
    rcases hw with rfl | rfl
    · exact hl
    · exact hv

/-- All items of a stream, if there is one, lie in the region. -/
def Region.PlainStream (R : Region) (o : Option Stream) : Prop :=
  ∀ st, o = some st → ∀ v ∈ st.items, R.Plain v

theorem Region.plainStream_some {items : List Value} (h : ∀ v ∈ items, R.Plain v)
    (failure : Option Cause) : R.PlainStream (some ⟨items, failure⟩) := by
  rintro st ⟨⟩
  exact h

/-- **The items of a stream** lie in the region. -/
theorem Region.keeps_streamWithin : ∀ (fuel : Nat) {v : Value}, R.Has v →
    R.Keeps (Eval.streamWithin fuel v) R.PlainStream
  | 0, _, _ => .pure fun st hst => by cases hst
  | fuel + 1, v, hv => by
    unfold Eval.streamWithin
    refine .bind .get fun s hs => ?_
    split
    · refine .pure (plainStream_some (fun w hw => ?_) none)
      obtain ⟨c, -, rfl⟩ := List.mem_map.mp hw
      exact plain_text _
    · refine .pure (plainStream_some (fun w hw => ?_) none)
      obtain ⟨i, -, rfl⟩ := List.mem_map.mp hw
      exact plain_int _
    · exact .pure (plainStream_some (hs.lists _ hv) none)
    · exact .pure (plainStream_some (hs.tuples _ hv) none)
    · refine .pure (plainStream_some (fun w hw => ?_) none)
      obtain ⟨e, he, rfl⟩ := List.mem_map.mp hw
      exact (hs.dicts _ hv e he).1
    · refine .pure (plainStream_some (fun w hw => ?_) none)
      obtain ⟨e, he, rfl⟩ := List.mem_map.mp hw
      exact (hs.dicts _ hv e he).1
    · refine .pure (plainStream_some (fun w hw => ?_) none)
      obtain ⟨e, he, rfl⟩ := List.mem_map.mp hw
      exact (hs.dicts _ hv e he).2
    · exact .bind (keeps_pairTuples (hs.dicts _ hv)) fun items hitems =>
        .pure (plainStream_some hitems none)
    · rename_i r
      split
      · rename_i _ inner hiteration
        have hinner := (hs.objects r hv inner (.iteration hiteration)).1
        refine .bind (keeps_streamWithin fuel hinner) fun o ho => ?_
        split
        · exact .pure ho
        · exact .pure (plainStream_some (fun w hw => absurd hw List.not_mem_nil) _)
      · refine .pure ?_
        rintro st ⟨⟩
        exact hs.indexedItems hv _ 0
      · exact .pure fun st hst => by cases hst
    · exact .pure fun st hst => by cases hst

theorem Region.keeps_stream {v : Value} (hv : R.Has v) :
    R.Keeps (Eval.stream? v) R.PlainStream :=
  .bind .get fun s _ => keeps_streamWithin s.depth hv

theorem Region.keeps_items {v : Value} (hv : R.Has v) :
    R.Keeps (Eval.items v) fun items => ∀ w ∈ items, R.Plain w := by
  refine .bind (keeps_stream hv) fun o ho => ?_
  split
  · rename_i st
    refine .read fun s items _ hitems => ?_
    unfold Stream.all at hitems
    split at hitems
    · cases hitems
      exact ho st rfl
    · cases hitems
  · exact .fail _

theorem Region.keeps_pairOf {v : Value} (hv : R.Has v) :
    R.Keeps (Eval.pairOf v) fun p => R.Plain p.1 ∧ R.Plain p.2 := by
  refine .bind (keeps_stream hv) fun o ho => ?_
  split
  · exact .fail _
  · exact .fail _
  · exact .fail _
  · rename_i first second
    have hitems := ho _ rfl
    exact .pure ⟨hitems first (by simp), hitems second (by simp)⟩
  · exact .fail _

/-- Whether a value is in a container. -/
theorem Region.keeps_contains {container : Value} (hc : R.Has container) (v : Value) :
    R.Keeps (Eval.contains container v) fun _ => True := by
  have decided : ∀ answer v, R.Keeps (Eval.decided answer v) fun _ => True := by
    intro answer v
    unfold Eval.decided
    split
    · exact .pure trivial
    · exact .fail _
  unfold Eval.contains
  refine .bind .get fun s hs => ?_
  split
  · split
    · exact .pure trivial
    · exact .fail _
  · exact .pure trivial
  · exact decided _ _
  · exact decided _ _
  · split
    · exact .pure trivial
    · exact .fail _
  · exact decided _ _
  · exact decided _ _
  · refine .bind (keeps_stream hc) fun o ho => ?_
    split
    · exact .fail _
    · refine .bind .get fun s' _ => .bind (decided _ _) fun b _ => ?_
      split
      · exact .pure trivial
      · split
        · exact .pure trivial
        · exact .fail _
  · exact .fail _

end TextTemplate
