/-
# Looking into values that are alike

Items and attributes: whatever is found in a value is like what is found in the same way in a value
like it, and where one search fails the other fails alike.

A container that no value leads to can still be looked into, as the root of the scopes is
(`Correspondence.Readable`).
-/
import TextTemplate.Proofs.Likeness.Values
import TextTemplate.Value.Access

namespace TextTemplate

open Correspondence

/-! ## 1. Members -/

namespace Correspondence

/-- Two values can be looked into and show the same. -/
inductive Readable (C : Correspondence) : Value → Value → Prop where
  | list {r r' : Ref} (same : C.rows r r') : Readable C (.list r) (.list r')
  | dict {r r' : Ref} (same : C.mappings r r') : Readable C (.dict r) (.dict r')
  | like {v v' : Value} (like : C.Like v v') : Readable C v v'

/-- Two attributes are alike. -/
inductive LikeMember (C : Correspondence) : Member → Member → Prop where
  | value {v v' : Value} (like : C.Like v v') : LikeMember C (.value v) (.value v')
  | method (object : String) {m m' : Method} (like : C.LikeMethod m m') :
      LikeMember C (.method object m) (.method object m')
  | data {v v' : Value} (like : C.Like v v') (m : DataMethod) :
      LikeMember C (.data v m) (.data v' m)

variable {C : Correspondence}

/-- What a piece of the caller's code gives. -/
theorem LikeOutcome.run {o o' : Outcome} (h : C.LikeOutcome o o') :
    C.LikeExcept C.Like o.run o'.run := by
  cases h with
  | returns h => exact .ok h
  | raises kind h => exact .error (likeCause_raising kind h)

end Correspondence

namespace Likeness

variable {L : Likeness} {s s' : Store} {v v' w w' key key' : Value} {r r' : Ref}

/-! ## 2. Items -/

theorem wordPosition_closed (fault : IndexFault) (n : Int) (length : Nat) (c : Cause)
    (h : wordPosition fault n length = .error c) : c.Closed := by
  unfold wordPosition at h
  split at h
  · split at h
    · cases h
    · cases h
      trivial
  · cases h
    trivial

/-- The item of a row at an index. -/
theorem rowItem_like {xs xs' : List Value} (hx : L.LikeItems xs xs') (fault : IndexFault)
    (type : String) (hk : L.Like key key') :
    L.LikeExcept L.Like
      (match key.index? with
        | none => Except.error (Cause.type (.listIndex type key.typeName))
        | some n => do
          let i ← wordPosition fault n xs.length
          Except.ok (xs[i]?.getD .none))
      (match key'.index? with
        | none => Except.error (Cause.type (.listIndex type key'.typeName))
        | some n => do
          let i ← wordPosition fault n xs'.length
          Except.ok (xs'[i]?.getD .none)) := by
  rw [index?_eq hk, hk.typeName_eq, hx.length_eq]
  split
  · exact .closed trivial
  · refine (LikeExcept.same (wordPosition_closed _ _ _)).bind ?_
    rintro i _ rfl
    exact .ok (like_getD (hx.getElem? i) .none)

/-- What a mapping holds at the key of a value. -/
theorem dictItem_like (hs : L.Holds s s') (hr : L.mappings r r') (hk : L.Like key key') :
    L.LikeExcept L.Like (s.item (.dict r) key) (s'.item (.dict r') key') := by
  have hkey := key?_like hs hk
  unfold Store.item
  dsimp only
  generalize s.key? key = x, s'.key? key' = x' at hkey
  cases hkey with
  | error type => exact .closed trivial
  | ok hkey =>
    have hfound := (hs.dict hr).find? hkey
    dsimp only
    generalize (s.dict r).find? _ = o, (s'.dict r').find? _ = o' at hfound
    cases hfound with
    | none => exact .error (.missingKey hk)
    | some hfound => exact .ok hfound

/-- What an object gives at the key of a value. -/
theorem objectItem_like (hs : L.Holds s s') (hr : L.objects r r') (hk : L.Like key key') :
    L.LikeExcept L.Like (s.item (.object r) key) (s'.item (.object r') key') := by
  have hitems := (hs.objects hr).items
  have hkey := key?_like hs hk
  unfold Store.item
  dsimp only
  generalize (s.object r).items = o, (s'.object r').items = o' at hitems
  cases hitems with
  | none => exact .closed trivial
  | @some items items' hitems =>
    dsimp only
    generalize s.key? key = x, s'.key? key' = x' at hkey
    cases hkey with
    | error type => exact .closed trivial
    | @ok k k' hkey =>
      have hfound := likeItem_lookup hitems hkey
      dsimp only
      generalize items.lookup k = p, items'.lookup k' = p' at hfound
      cases hfound with
      | none => exact .error (.missingKey hk)
      | some hfound => exact hfound.run

/-- **Items of values that are alike are alike.** -/
theorem item_like (hs : L.Holds s s') (hv : L.Readable v v') (hk : L.Like key key') :
    L.LikeExcept L.Like (s.item v key) (s'.item v' key') := by
  cases hv with
  | list h => exact rowItem_like (hs.list h) .list "list" hk
  | dict h => exact dictItem_like hs h hk
  | like h =>
    cases h with
    | list h => exact rowItem_like (hs.list (L.rows_of_lists h)) .list "list" hk
    | tuple h => exact rowItem_like (hs.tuple h) .tuple "tuple" hk
    | dict h => exact dictItem_like hs (L.mappings_of_dicts h) hk
    | object h => exact objectItem_like hs h hk
    | text t safe =>
      unfold Store.item
      dsimp only
      rw [index?_eq hk, hk.typeName_eq]
      split
      · exact .closed trivial
      · refine (LikeExcept.same (wordPosition_closed _ _ _)).bind ?_
        rintro i _ rfl
        exact .ok (.plain _)
    | range start stop =>
      unfold Store.item
      dsimp only
      rw [index?_eq hk, hk.typeName_eq]
      split
      · exact .closed trivial
      · split
        · exact .closed trivial
        · exact .ok (.int _)
    | view kind h hi => cases kind <;> exact .closed trivial
    | _ => exact .closed trivial

/-! ## 3. Attributes -/

theorem dataMethod?_eq (h : L.Like v v') (name : String) :
    v.dataMethod? name = v'.dataMethod? name := by
  cases h <;> rfl

/-- The parts of values that are alike are alike. -/
theorem dataParts_like (h : L.Like v v') :
    List.Forall₂ (LikeNamed L.Like) v.dataParts v'.dataParts := by
  have hinteger : ∀ n : Int, List.Forall₂ (LikeNamed L.Like) (integerParts n) (integerParts n) :=
    fun n => List.forall₂_same.mpr fun a ha => ⟨rfl, by
      unfold integerParts at ha
      simp only [List.mem_cons, List.not_mem_nil, or_false] at ha
      rcases ha with rfl | rfl | rfl | rfl <;> exact .int _⟩
  cases h with
  | int n => exact hinteger n
  | bool b => exact hinteger b.toNat
  | float x => exact .cons ⟨rfl, .float x⟩ (.cons ⟨rfl, .float _⟩ .nil)
  | nan h => exact .cons ⟨rfl, .nan h⟩ (.cons ⟨rfl, .float _⟩ .nil)
  | range start stop =>
    exact .cons ⟨rfl, .int start⟩ (.cons ⟨rfl, .int stop⟩ (.cons ⟨rfl, .int 1⟩ .nil))
  | _ => exact .nil

theorem dataAttribute?_like (h : L.Like v v') (name : String) :
    Option.Rel L.LikeMember (v.dataAttribute? name) (v'.dataAttribute? name) := by
  have hpart := likeNamed_lookup (dataParts_like h) name
  unfold Value.dataAttribute?
  rw [dataMethod?_eq h]
  generalize v.dataParts.lookup name = p, v'.dataParts.lookup name = p' at hpart
  cases hpart with
  | some hp => exact .some (.value hp)
  | none =>
    dsimp only
    cases v'.dataMethod? name with
    | none => exact .none
    | some m => exact .some (.data h m)

theorem find?_methods {ms ms' : List Method} (h : List.Forall₂ L.LikeMethod ms ms')
    (name : String) :
    Option.Rel L.LikeMethod (ms.find? (·.name = name)) (ms'.find? (·.name = name)) := by
  induction h with
  | nil => exact .none
  | @cons m m' _ _ hm _ ih =>
    by_cases hn : m'.name = name
    · rw [List.find?_cons_of_pos (by simpa [hm.name] using hn),
        List.find?_cons_of_pos (by simpa using hn)]
      exact .some hm
    · rw [List.find?_cons_of_neg (by simpa [hm.name] using hn),
        List.find?_cons_of_neg (by simpa using hn)]
      exact ih

/-- **Attributes of objects that are alike are alike.** -/
theorem objectAttribute?_like {o o' : Object} (h : L.LikeObject o o') (name : String) :
    Option.Rel (L.LikeExcept L.LikeMember) (o.attribute? name) (o'.attribute? name) := by
  have hproperty := likeNamed_lookup h.properties name
  have hattribute := likeNamed_lookup h.attributes name
  have hmethod := find?_methods h.methods name
  unfold Object.attribute?
  generalize o.properties.lookup name = p, o'.properties.lookup name = p' at hproperty
  cases hproperty with
  | some hp => exact .some (hp.run.map fun v v' hv => .value hv)
  | none =>
    dsimp only
    generalize o.attributes.lookup name = a, o'.attributes.lookup name = a' at hattribute
    cases hattribute with
    | some ha => exact .some (.ok (.value ha))
    | none =>
      dsimp only
      generalize o.methods.find? (·.name = name) = m, o'.methods.find? (·.name = name) = m'
        at hmethod
      cases hmethod with
      | some hm =>
        rw [h.name]
        exact .some (.ok (.method _ hm))
      | none =>
        dsimp only
        rw [h.name, h.noCall]
        split
        · exact .some (.ok (.value (.plain _)))
        · split
          · exact .some (.ok (.value (.bool true)))
          · exact .none

/-- **Attributes of values that are alike are alike.** -/
theorem attribute?_like (hs : L.Holds s s') (h : L.Like v v') (name : String) :
    Option.Rel (L.LikeExcept L.LikeMember) (s.attribute? v name) (s'.attribute? v' name) := by
  have hdata : Option.Rel (L.LikeExcept L.LikeMember) ((v.dataAttribute? name).map Except.ok)
      ((v'.dataAttribute? name).map Except.ok) := by
    have hmember := dataAttribute?_like h name
    generalize v.dataAttribute? name = o, v'.dataAttribute? name = o' at hmember
    cases hmember with
    | none => exact .none
    | some h => exact .some (.ok h)
  cases h with
  | object h => exact objectAttribute?_like (hs.objects h) name
  | @function r r' _ _ h hi =>
    have hfound := likeNamed_lookup (hs.objects h).attributes name
    unfold Store.attribute?
    dsimp only
    generalize (s.object r).attributes.lookup name = o, (s'.object r').attributes.lookup name = o'
      at hfound
    cases hfound with
    | none => exact .none
    | some h => exact .some (.ok (.value h))
  | _ => exact hdata

/-- Values that are alike have the same attributes. -/
theorem hasAttribute_like (hs : L.Holds s s') (h : L.Like v v') (name : String) :
    L.LikeExcept Eq (s.hasAttribute v name) (s'.hasAttribute v' name) := by
  have hattribute := attribute?_like hs h name
  unfold Store.hasAttribute
  generalize s.attribute? v name = o, s'.attribute? v' name = o' at hattribute
  cases hattribute with
  | none => exact .ok rfl
  | some hm =>
    cases hm with
    | ok hm => exact .ok rfl
    | error hc =>
      dsimp only
      rw [hc.kind_eq]
      split
      · exact .ok rfl
      · exact .error hc

theorem isCallable_eq (hs : L.Holds s s') (h : L.Like v v') :
    s.isCallable v = s'.isCallable v' := by
  cases h with
  | object h => exact isSome_eq_of_rel (hs.objects h).call
  | _ => rfl

end Likeness
end TextTemplate
