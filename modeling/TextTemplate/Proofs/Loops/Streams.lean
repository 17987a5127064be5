/-
# What a value is iterated over

Plain containers give their items, and an object of the caller gives what its own iteration gives,
or else what it has at 0, 1, 2, …, up to the first index out of range.  `Store.Iterates` says so
without a bound.  The model follows references and indexes only so far, and that is far enough: a
chain of objects that iterate over each other passes each of them once, and an object has no more
indexes than items.

* `Store.Iterates` and `Store.NotIterable` are the two cases, `Store.Ends` says that it is one of
  them;
* `Eval.stream?_of_iterates` and `Eval.stream?_of_notIterable` say that the model finds them;
* `Store.Iterates.failure` says that a failure on the way comes from the caller's code, or is that
  an object iterates over what cannot be iterated over.
-/
import Mathlib.Data.List.Nodup
import Mathlib.Data.List.Perm.Subperm
import TextTemplate.Proofs.Outcome
import TextTemplate.Value.Iteration

namespace TextTemplate

open TextTemplate.Outcome

/-! ## 1. Iterating -/

namespace Store

/-- What a value has at an index and the following ones, up to the first index out of range. -/
inductive Indexed (s : Store) (v : Value) : Nat → Stream → Prop where
  | found {index : Nat} {item : Value} {st : Stream} (here : s.item v (.int index) = .ok item)
      (rest : s.Indexed v (index + 1) st) : s.Indexed v index ⟨item :: st.items, st.failure⟩
  | out {index : Nat} {cause : Cause} (here : s.item v (.int index) = .error cause)
      (kind : cause.kind = .badIndex) : s.Indexed v index ⟨[], none⟩
  | failed {index : Nat} {cause : Cause} (here : s.item v (.int index) = .error cause)
      (kind : cause.kind ≠ .badIndex) : s.Indexed v index ⟨[], some cause⟩

/-- The value cannot be iterated over. -/
inductive NotIterable (s : Store) : Value → Prop where
  | none : s.NotIterable .none
  | bool (b : Bool) : s.NotIterable (.bool b)
  | int (n : Int) : s.NotIterable (.int n)
  | float (x : Decimal.Binary64) : s.NotIterable (.float x)
  | nan (identity : Nat) : s.NotIterable (.nan identity)
  | function (of : Ref) (identity : Nat) : s.NotIterable (.function of identity)
  | object {r : Ref} (iteration : (s.object r).iteration = .none)
      (items : (s.object r).items = .none) : s.NotIterable (.object r)

/-- **What a value is iterated over.**  The pairs of a mapping are new tuples. -/
inductive Iterates (s : Store) : Value → Stream → Store → Prop where
  | text (t : String) (safe : Bool) :
      s.Iterates (.text t safe) ⟨t.toList.map fun c => .plain (String.singleton c), none⟩ s
  | range (start stop : Int) : s.Iterates (.range start stop) ⟨rangeItems start stop, none⟩ s
  | list (r : Ref) : s.Iterates (.list r) ⟨s.list r, none⟩ s
  | tuple (r : Ref) : s.Iterates (.tuple r) ⟨s.tuple r, none⟩ s
  | dict (r : Ref) : s.Iterates (.dict r) ⟨(s.dict r).map (·.label), none⟩ s
  | keys (r : Ref) (identity : Nat) :
      s.Iterates (.view .keys r identity) ⟨(s.dict r).map (·.label), none⟩ s
  | values (r : Ref) (identity : Nat) :
      s.Iterates (.view .values r identity) ⟨(s.dict r).map (·.value), none⟩ s
  | pairs {r : Ref} {identity : Nat} {pairs : List Value} {s' : Store}
      (made : Eval.pairTuples (s.dict r) s = .ok pairs s') :
      s.Iterates (.view .pairs r identity) ⟨pairs, none⟩ s'
  | inner {r : Ref} {v : Value} {st : Stream} {s' : Store}
      (iteration : (s.object r).iteration = some v) (further : s.Iterates v st s') :
      s.Iterates (.object r) st s'
  /-- The iteration of the object cannot be iterated over itself. -/
  | broken {r : Ref} {v : Value} (iteration : (s.object r).iteration = some v)
      (not : s.NotIterable v) :
      s.Iterates (.object r) ⟨[], some (.type (.notIterable v.typeName))⟩ s
  | indexed {r : Ref} {items : List (Key × Outcome)} {st : Stream}
      (iteration : (s.object r).iteration = none) (items : (s.object r).items = some items)
      (all : s.Indexed (.object r) 0 st) : s.Iterates (.object r) st s

/-- The objects that a value leads to by iterating over objects end with one that iterates over
something else, or with another value. -/
inductive EndsBy (s : Store) : Value → List Ref → Prop where
  | here {v : Value} (last : ∀ r, v = .object r → (s.object r).iteration = none) : s.EndsBy v []
  | inner {r : Ref} {v : Value} {refs : List Ref} (iteration : (s.object r).iteration = some v)
      (further : s.EndsBy v refs) : s.EndsBy (.object r) (r :: refs)

/-- The value is the object, or iterating over it leads to the object. -/
inductive LeadsTo (s : Store) : Value → Ref → Prop where
  | here (r : Ref) : s.LeadsTo (.object r) r
  | inner {r r' : Ref} {v : Value} (iteration : (s.object r).iteration = some v)
      (further : s.LeadsTo v r') : s.LeadsTo (.object r) r'

/-- Iterating over the value does not lead back to it. -/
def Ends (s : Store) (v : Value) : Prop := ∃ refs, s.EndsBy v refs

/-! ## 2. Chains of objects -/

section Chains

variable {s : Store} {v : Value} {r : Ref} {refs : List Ref}

theorem EndsBy.unique (h : s.EndsBy v refs) : ∀ {refs' : List Ref}, s.EndsBy v refs' →
    refs = refs' := by
  induction h with
  | here last =>
    intro refs' h'
    cases h' with
    | here => rfl
    | inner iteration _ =>
      rw [last _ rfl] at iteration
      cases iteration
  | inner iteration _ ih =>
    intro refs' h'
    cases h' with
    | here last =>
      rw [last _ rfl] at iteration
      cases iteration
    | inner iteration' further' =>
      cases Option.some.inj (iteration.symm.trans iteration')
      rw [ih further']

/-- From an object on the way the rest of the way leads on. -/
theorem EndsBy.from_object (h : s.EndsBy v refs) (hr : r ∈ refs) :
    ∃ rest, s.EndsBy (.object r) (r :: rest) ∧ rest.length < refs.length := by
  induction h with
  | here => cases hr
  | @inner r' v refs iteration further ih =>
    rcases List.mem_cons.mp hr with rfl | hr
    · exact ⟨_, .inner iteration further, Nat.lt_succ_self _⟩
    · obtain ⟨rest, hrest, hlt⟩ := ih hr
      exact ⟨rest, hrest, Nat.lt_succ_of_lt hlt⟩

theorem EndsBy.nodup (h : s.EndsBy v refs) : refs.Nodup := by
  induction h with
  | here => exact List.nodup_nil
  | @inner r v refs iteration further ih =>
    refine List.nodup_cons.mpr ⟨fun hr => ?_, ih⟩
    obtain ⟨rest, hrest, hle⟩ := further.from_object hr
    have hlength := congrArg List.length ((EndsBy.inner iteration further).unique hrest)
    rw [List.length_cons, List.length_cons] at hlength
    omega

/-- An object that is not in the store iterates over nothing. -/
theorem lt_of_iteration (h : (s.object r).iteration = some v) : r < s.objects.size := by
  refine Decidable.of_not_not fun hnot => ?_
  have hnone : s.objects[r]? = none := Array.getElem?_eq_none (Nat.le_of_not_lt hnot)
  unfold object at h
  rw [hnone] at h
  cases h

/-- **A chain passes each object of the store once at most.** -/
theorem EndsBy.length_le (h : s.EndsBy v refs) : refs.length ≤ s.objects.size := by
  have hsubset : refs ⊆ List.range s.objects.size := by
    intro r hr
    obtain ⟨rest, hrest, -⟩ := h.from_object hr
    cases hrest with
    | inner iteration _ => exact List.mem_range.mpr (lt_of_iteration iteration)
  have hlength := (h.nodup.subperm hsubset).length_le
  rwa [List.length_range] at hlength

end Chains

/-! ## 3. Indexes -/

section Indexes

variable {s : Store} {r : Ref} {items : List (Key × Outcome)}

/-- What an object has at an index stands among its items. -/
theorem mem_of_item {n : Int} {v : Value} (hitems : (s.object r).items = some items)
    (h : s.item (.object r) (.int n) = .ok v) : Key.int n ∈ items.map Prod.fst := by
  cases hlookup : items.lookup (Key.int n) with
  | some outcome => exact List.mem_map_of_mem (mem_of_lookup hlookup)
  | none =>
    have hkey : s.key? (.int n) = .ok (.int n) := rfl
    have hfails : s.item (.object r) (.int n) = .error (.missingKey (.int n)) := by
      unfold item
      dsimp only
      rw [hitems, hkey]
      dsimp only
      rw [hlookup]
    cases hfails.symm.trans h

/-- Reading at one index after the other goes on to the end, or as far as it is allowed to. -/
theorem indexedItems_cases (s : Store) (v : Value) : ∀ fuel index,
    s.Indexed v index (s.indexedItems v fuel index) ∨
      ∀ i < fuel, ∃ item, s.item v (.int (index + i : Nat)) = .ok item
  | 0, _ => .inr fun i hi => absurd hi (Nat.not_lt_zero i)
  | fuel + 1, index => by
    unfold indexedItems
    cases hitem : s.item v (.int index) with
    | error cause =>
      dsimp only
      by_cases hkind : cause.kind = .badIndex
      · rw [if_pos hkind]
        exact .inl (.out hitem hkind)
      · rw [if_neg hkind]
        exact .inl (.failed hitem hkind)
    | ok item =>
      rcases indexedItems_cases s v fuel (index + 1) with hrest | hall
      · exact .inl (.found hitem hrest)
      · refine .inr fun i hi => ?_
        cases i with
        | zero => exact ⟨item, hitem⟩
        | succ i =>
          have hindex : index + (i + 1) = index + 1 + i := by omega
          rw [hindex]
          exact hall i (Nat.lt_of_succ_lt_succ hi)

/-- **An object has no more indexes than items.** -/
theorem indexed_indexedItems (hitems : (s.object r).items = some items) :
    s.Indexed (.object r) 0 (s.indexedItems (.object r) (items.length + 1) 0) := by
  rcases indexedItems_cases s (.object r) (items.length + 1) 0 with h | hall
  · exact h
  · have hsubset : (List.range (items.length + 1)).map (fun i : Nat => Key.int i) ⊆
        items.map Prod.fst := by
      intro k hk
      obtain ⟨i, hi, rfl⟩ := List.mem_map.mp hk
      obtain ⟨item, hitem⟩ := hall i (List.mem_range.mp hi)
      rw [Nat.zero_add] at hitem
      exact mem_of_item hitems hitem
    have hnodup : ((List.range (items.length + 1)).map (fun i : Nat => Key.int i)).Nodup := by
      refine List.Nodup.map (fun i j hij => ?_) List.nodup_range
      exact Int.natCast_inj.mp (Key.int.inj hij)
    have hlength := (hnodup.subperm hsubset).length_le
    rw [List.length_map, List.length_map, List.length_range] at hlength
    omega

theorem Indexed.unique {v : Value} {index : Nat} {st : Stream} (h : s.Indexed v index st) :
    ∀ {st' : Stream}, s.Indexed v index st' → st = st' := by
  induction h with
  | found here rest ih =>
    intro st' h'
    cases h' with
    | found here' rest' =>
      cases here.symm.trans here'
      rw [ih rest']
    | out here' => cases here.symm.trans here'
    | failed here' => cases here.symm.trans here'
  | out here kind =>
    intro st' h'
    cases h' with
    | found here' => cases here.symm.trans here'
    | out => rfl
    | failed here' kind' =>
      cases here.symm.trans here'
      exact absurd kind kind'
  | failed here kind =>
    intro st' h'
    cases h' with
    | found here' => cases here.symm.trans here'
    | out here' kind' =>
      cases here.symm.trans here'
      exact absurd kind' kind
    | failed here' =>
      cases here.symm.trans here'
      rfl

end Indexes

/-! ## 4. Streams -/

section Streams

variable {s s' : Store} {v : Value} {st : Stream} {refs : List Ref}

/-- A value that cannot be iterated over ends its chain. -/
theorem NotIterable.ends (h : s.NotIterable v) : s.EndsBy v [] := by
  refine .here fun r hr => ?_
  cases h with
  | object iteration _ =>
    cases hr
    exact iteration
  | _ => cases hr

/-- So does a value that is iterated over, unless it is an object that iterates over another. -/
theorem Iterates.ends (h : s.Iterates v st s') : s.Ends v := by
  induction h with
  | inner iteration _ ih =>
    obtain ⟨refs, hrefs⟩ := ih
    exact ⟨_, .inner iteration hrefs⟩
  | broken iteration not => exact ⟨_, .inner iteration not.ends⟩
  | indexed iteration items all =>
    refine ⟨[], .here fun r hr => ?_⟩
    cases hr
    exact iteration
  | _ => exact ⟨[], .here fun r hr => by cases hr⟩

/-- An object is read as its own iteration says. -/
theorem streamWithin_of_iteration {r : Ref} (iteration : (s.object r).iteration = some v)
    (fuel : Nat) : Eval.streamWithin (fuel + 1) (.object r) s = (do
      let st ← Eval.streamWithin fuel v
      pure (some (st.getD ⟨[], some (.type (.notIterable v.typeName))⟩))) s := by
  rw [Eval.streamWithin, bind_of_ok (get_apply s)]
  dsimp only
  rw [iteration]
  refine congrFun (congrArg (Eval.streamWithin fuel v >>= ·) (funext fun st => ?_)) s
  cases st with
  | none => rfl
  | some st => rfl

theorem streamWithin_of_notIterable (h : s.NotIterable v) (fuel : Nat) :
    Eval.streamWithin (fuel + 1) v s = .ok none s := by
  cases h with
  | object iteration items =>
    rw [Eval.streamWithin, bind_of_ok (get_apply s)]
    dsimp only
    rw [iteration, items]
    rfl
  | _ => rfl

/-- **Going on long enough**, the items are found. -/
theorem streamWithin_of_iterates (h : s.Iterates v st s') : ∀ {refs : List Ref} {fuel : Nat},
    s.EndsBy v refs → refs.length < fuel → Eval.streamWithin fuel v s = .ok (some st) s' := by
  induction h with
  | inner iteration further ih =>
    rintro refs (_ | fuel) hrefs hfuel
    · exact absurd hfuel (Nat.not_lt_zero _)
    cases hrefs with
    | here last =>
      rw [last _ rfl] at iteration
      cases iteration
    | inner iteration' hrefs =>
      cases Option.some.inj (iteration.symm.trans iteration')
      rw [streamWithin_of_iteration iteration,
        bind_of_ok (ih hrefs (Nat.lt_of_succ_lt_succ hfuel))]
      rfl
  | broken iteration not =>
    rintro refs (_ | fuel) hrefs hfuel
    · exact absurd hfuel (Nat.not_lt_zero _)
    cases hrefs with
    | here last =>
      rw [last _ rfl] at iteration
      cases iteration
    | inner iteration' hrefs =>
      cases Option.some.inj (iteration.symm.trans iteration')
      obtain ⟨fuel, rfl⟩ : ∃ n, fuel = n + 1 :=
        Nat.exists_eq_succ_of_ne_zero (by rw [List.length_cons] at hfuel; omega)
      rw [streamWithin_of_iteration iteration, bind_of_ok (streamWithin_of_notIterable not fuel)]
      rfl
  | @indexed r items st iteration hitems all =>
    rintro refs (_ | fuel) - hfuel
    · exact absurd hfuel (Nat.not_lt_zero _)
    rw [Eval.streamWithin, bind_of_ok (get_apply s)]
    dsimp only
    rw [iteration, hitems, all.unique (indexed_indexedItems hitems)]
    rfl
  | pairs made =>
    rintro refs (_ | fuel) - hfuel
    · exact absurd hfuel (Nat.not_lt_zero _)
    rw [Eval.streamWithin, bind_of_ok (get_apply s)]
    exact bind_of_ok made
  | _ =>
    rintro refs (_ | fuel) - hfuel
    · exact absurd hfuel (Nat.not_lt_zero _)
    rfl

theorem pairTuples_ok : ∀ (d : Dict) (s : Store), ∃ pairs s', Eval.pairTuples d s = .ok pairs s'
  | [], s => ⟨[], s, rfl⟩
  | e :: rest, s => by
    obtain ⟨pairs, s', hrest⟩ := pairTuples_ok rest (s.newTuple [e.label, e.value]).2
    have hmake : Eval.make (·.newTuple [e.label, e.value]) s =
        .ok (s.newTuple [e.label, e.value]).1 (s.newTuple [e.label, e.value]).2 := rfl
    exact ⟨_, s', (bind_of_ok hmake).trans (bind_of_ok hrest)⟩

/-- **A value that ends is iterated over, or it cannot be.** -/
theorem Ends.iterates (h : s.Ends v) : s.NotIterable v ∨ ∃ st s', s.Iterates v st s' := by
  obtain ⟨refs, hrefs⟩ := h
  induction hrefs with
  | inner iteration _ ih =>
    rcases ih with not | ⟨st, s', further⟩
    · exact .inr ⟨_, _, .broken iteration not⟩
    · exact .inr ⟨st, s', .inner iteration further⟩
  | @here v last =>
    cases v with
    | object r =>
      have iteration := last r rfl
      cases hitems : (s.object r).items with
      | none => exact .inl (.object iteration hitems)
      | some items =>
        exact .inr ⟨_, s, .indexed iteration hitems (indexed_indexedItems hitems)⟩
    | text t safe => exact .inr ⟨_, _, .text t safe⟩
    | range start stop => exact .inr ⟨_, _, .range start stop⟩
    | list r => exact .inr ⟨_, _, .list r⟩
    | tuple r => exact .inr ⟨_, _, .tuple r⟩
    | dict r => exact .inr ⟨_, _, .dict r⟩
    | view kind r identity =>
      cases kind with
      | keys => exact .inr ⟨_, _, .keys r identity⟩
      | values => exact .inr ⟨_, _, .values r identity⟩
      | pairs =>
        obtain ⟨pairs, s', made⟩ := pairTuples_ok (s.dict r) s
        exact .inr ⟨_, _, .pairs made⟩
    | none => exact .inl .none
    | bool b => exact .inl (.bool b)
    | int n => exact .inl (.int n)
    | float x => exact .inl (.float x)
    | nan identity => exact .inl (.nan identity)
    | function of identity => exact .inl (.function of identity)

theorem Indexed.failure {index : Nat} {cause : Cause} (h : s.Indexed v index st)
    (hfailure : st.failure = some cause) : ∃ index : Nat, s.item v (.int index) = .error cause := by
  induction h with
  | found here rest ih => exact ih hfailure
  | out here kind => cases hfailure
  | failed here kind =>
    cases hfailure
    exact ⟨_, here⟩

/-- **Where a failure comes from.**  An object iterates over what cannot be iterated over, or an
object on the way failed when it was read at an index. -/
theorem Iterates.failure {cause : Cause} (h : s.Iterates v st s')
    (hfailure : st.failure = some cause) :
    cause.kind = .mistyped ∨
      ∃ (r : Ref) (index : Nat), s.LeadsTo v r ∧
        s.item (.object r) (.int index) = .error cause := by
  induction h with
  | inner iteration further ih =>
    rcases ih hfailure with hkind | ⟨r, index, hleads, hitem⟩
    · exact .inl hkind
    · exact .inr ⟨r, index, .inner iteration hleads, hitem⟩
  | broken iteration not =>
    cases hfailure
    exact .inl rfl
  | @indexed r items st iteration hitems all =>
    obtain ⟨index, hitem⟩ := all.failure hfailure
    exact .inr ⟨r, index, .here r, hitem⟩
  | _ => cases hfailure

end Streams
end Store

/-! ## 5. The model -/

namespace Eval

variable {s s' : Store} {v : Value} {st : Stream}

/-- **What a value is iterated over is found.** -/
theorem stream?_of_iterates (h : s.Iterates v st s') : stream? v s = .ok (some st) s' := by
  obtain ⟨refs, hrefs⟩ := h.ends
  have hlength := hrefs.length_le
  unfold stream?
  rw [bind_of_ok (get_apply s)]
  refine Store.streamWithin_of_iterates h hrefs ?_
  unfold Store.depth
  omega

/-- **What cannot be iterated over is none.** -/
theorem stream?_of_notIterable (h : s.NotIterable v) : stream? v s = .ok none s := by
  unfold stream?
  rw [bind_of_ok (get_apply s)]
  exact Store.streamWithin_of_notIterable h _

end Eval
end TextTemplate
