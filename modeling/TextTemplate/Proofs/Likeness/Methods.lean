/-
# Methods that leave the root layer alone

A method of plain data changes its own value at most.  So no method of a value that names lead to
changes the root layer, whatever is in the store, exactly when no name leads to the container that
the layer lies in.

* `Scopes.Rooted` says that the container is in the store, `Scopes.SameRoot` that it holds the same;
* `Scopes.Undisturbed` says that no method of a value that names lead to changes the root layer;
* `Scopes.undisturbed_iff_apart` is the equivalence.
-/
import TextTemplate.Proofs.Likeness.Apart

namespace TextTemplate

open TextTemplate.Outcome

/-! ## 1. What a method changes -/

/-- The store that a computation leaves. -/
def Store.behind {α : Type} : EStateM.Result Error Store α → Store
  | .ok _ s => s
  | .error _ s => s

/-- A store holds what another one holds, but for the container of a value. -/
structure Store.KeptBut (v : Value) (s s' : Store) : Prop where
  dict : ∀ r, v ≠ .dict r → r < s.dicts.size → s'.dict r = s.dict r
  list : ∀ r, v ≠ .list r → r < s.lists.size → s'.list r = s.list r

namespace Store.KeptBut

variable {v : Value} {s s' : Store}

theorem refl (v : Value) (s : Store) : KeptBut v s s := ⟨fun _ _ _ => rfl, fun _ _ _ => rfl⟩

theorem setDict (s : Store) (r : Ref) (d : Dict) : KeptBut (.dict r) s (s.setDict r d) where
  dict q hq _ := by rw [Store.dict_setDict, if_neg fun e => hq (congrArg Value.dict e.1)]
  list _ _ _ := rfl

theorem setList (s : Store) (r : Ref) (items : List Value) :
    KeptBut (.list r) s (s.setList r items) where
  dict _ _ _ := rfl
  list q hq _ := by rw [Store.list_setList, if_neg fun e => hq (congrArg Value.list e.1)]

theorem newDict (v : Value) (s : Store) (d : Dict) : KeptBut v s (s.newDict d).2 where
  dict _ _ hr := Store.dict_newDict hr d
  list _ _ _ := rfl

theorem newList (v : Value) (s : Store) (items : List Value) : KeptBut v s (s.newList items).2 where
  dict _ _ _ := rfl
  list _ _ hr := Store.list_newList hr items

end Store.KeptBut

theorem Eval.popPair_keptBut (r : Ref) (s : Store) :
    Store.KeptBut (.dict r) s (Store.behind (Eval.callData (.dict r) .popPair s)) := by
  unfold Eval.callData
  rw [bind_of_ok (get_apply s)]
  dsimp only
  cases (s.dict r).getLast? with
  | none => exact .refl _ s
  | some e =>
    have hset := Store.KeptBut.setDict s r (s.dict r).dropLast
    exact ⟨hset.dict, hset.list⟩

theorem Eval.popLast_keptBut (r : Ref) (s : Store) :
    Store.KeptBut (.list r) s (Store.behind (Eval.callData (.list r) .popLast s)) := by
  unfold Eval.callData
  rw [bind_of_ok (get_apply s)]
  dsimp only
  cases (s.list r).getLast? with
  | none => exact .refl _ s
  | some last => exact .setList s r _

theorem Eval.sort_keptBut (r : Ref) (s : Store) :
    Store.KeptBut (.list r) s (Store.behind (Eval.callData (.list r) .sort s)) := by
  unfold Eval.callData
  rw [bind_of_ok (get_apply s)]
  dsimp only
  rw [bind_of_ok (show (set _ : Eval PUnit) s = .ok () _ from rfl)]
  cases (Sorting.sortItems (s.related .less) (s.list r)).2 with
  | none => exact .setList s r _
  | some fault => exact .setList s r _

/-- **A method of plain data changes its own value at most.** -/
theorem Eval.callData_keptBut (v : Value) (m : DataMethod) (s : Store) :
    Store.KeptBut v s (Store.behind (Eval.callData v m s)) := by
  cases v with
  | dict r =>
    cases m with
    | popPair => exact popPair_keptBut r s
    | copyEntries => exact .newDict _ s _
    | clearEntries => exact .setDict s r _
    | _ => exact ⟨fun _ _ _ => rfl, fun _ _ _ => rfl⟩
  | list r =>
    cases m with
    | copy => exact .newList _ s _
    | popLast => exact popLast_keptBut r s
    | sort => exact sort_keptBut r s
    | reverse => exact .setList s r _
    | clear => exact .setList s r _
    | _ => exact .refl _ s
  | text t safe =>
    cases m with
    | split => exact .newList _ s _
    | _ => exact .refl _ s
  | _ => cases m <;> exact .refl _ s

/-! ## 2. The root layer -/

namespace Scopes

/-- The container of the root layer is in the store. -/
structure Rooted (s : Store) (c : Scopes) : Prop where
  mapping : ∀ r, c.root.mapping? = some r → r < s.dicts.size
  list : ∀ r, c.root = .list r → r < s.lists.size

/-- The root layer holds the same in two stores. -/
structure SameRoot (c : Scopes) (s s' : Store) : Prop where
  mapping : ∀ r, c.root.mapping? = some r → s'.dict r = s.dict r
  list : ∀ r, c.root = .list r → s'.list r = s.list r

/-- **The values' methods do not themselves change a layer.**  Whatever the store holds by then, no
method of a value that names lead to changes the root layer.  The layers above it are changed by
none. -/
def Undisturbed (s : Store) (c : Scopes) : Prop :=
  ∀ v, c.Leads s v → ∀ m s₁, c.Rooted s₁ → c.SameRoot s₁ (Store.behind (Eval.callData v m s₁))

variable {s : Store} {c : Scopes}

theorem Apart.rooted (h : c.Apart s) : c.Rooted s :=
  ⟨fun r hr => (h.mapping r hr).1, fun r hr => (h.list r hr).1⟩

/-- A root layer that no name leads to is undisturbed. -/
theorem Apart.undisturbed (h : c.Apart s) : c.Undisturbed s := by
  intro v hv m s₁ hrooted
  have hkept := Eval.callData_keptBut v m s₁
  constructor
  · intro r hr
    refine hkept.dict r ?_ (hrooted.mapping r hr)
    rintro rfl
    exact (h.mapping r hr).2 hv
  · intro r hr
    refine hkept.list r ?_ (hrooted.list r hr)
    rintro rfl
    exact (h.list r hr).2 hv

/-- If a name leads to the root layer, a method changes it: once something has been written in it,
it can be cleared. -/
theorem Undisturbed.apart (h : c.Undisturbed s) (hrooted : c.Rooted s) : c.Apart s := by
  constructor
  · intro r hr
    refine ⟨hrooted.mapping r hr, fun hleads => ?_⟩
    have hsize : r < (s.setDict r [⟨.none, .none, .none⟩]).dicts.size := by
      rw [Store.setDict, Array.size_setIfInBounds]
      exact hrooted.mapping r hr
    have hthere : c.Rooted (s.setDict r [⟨.none, .none, .none⟩]) := by
      refine ⟨fun q hq => ?_, hrooted.list⟩
      cases hr.symm.trans hq
      exact hsize
    have hsame := (h _ hleads .clearEntries _ hthere).mapping r hr
    rw [Store.dict_setDict, if_pos ⟨rfl, hrooted.mapping r hr⟩] at hsame
    have hcleared : (Store.behind (Eval.callData (.dict r) .clearEntries
        (s.setDict r [⟨.none, .none, .none⟩]))).dict r = [] := by
      show ((s.setDict r _).setDict r []).dict r = []
      rw [Store.dict_setDict, if_pos ⟨rfl, hsize⟩]
    cases hcleared.symm.trans hsame
  · intro r hr
    refine ⟨hrooted.list r hr, fun hleads => ?_⟩
    have hsize : r < (s.setList r [.none]).lists.size := by
      rw [Store.setList, Array.size_setIfInBounds]
      exact hrooted.list r hr
    have hthere : c.Rooted (s.setList r [.none]) := by
      refine ⟨hrooted.mapping, fun q hq => ?_⟩
      cases hr.symm.trans hq
      exact hsize
    have hsame := (h _ hleads .clear _ hthere).list r hr
    rw [Store.list_setList, if_pos ⟨rfl, hrooted.list r hr⟩] at hsame
    have hcleared : (Store.behind (Eval.callData (.list r) .clear
        (s.setList r [.none]))).list r = [] := by
      show ((s.setList r _).setList r []).list r = []
      rw [Store.list_setList, if_pos ⟨rfl, hsize⟩]
    cases hcleared.symm.trans hsame

/-- **The root layer is undisturbed exactly when no name leads to it.** -/
theorem undisturbed_iff_apart : c.Rooted s ∧ c.Undisturbed s ↔ c.Apart s :=
  ⟨fun h => h.2.apart h.1, fun h => ⟨h.rooted, h.undisturbed⟩⟩

end Scopes
end TextTemplate
