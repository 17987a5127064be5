/-
# Scopes are bracketed

Layers of names are pushed and popped, many of them may be dropped at once, and names are written
in the innermost layer or in the root layer.  Whatever is done in a row, the root layer and the
constants stay at the bottom; and a part of the row that begins with a push, and is over when the
layer that it pushed goes away, has changed nothing below but what it wrote in the root layer by
name.

* `Scopes.Operation` is an operation, `Operation.run` carries it out, and `World.after` is what a
  row of operations leaves;
* `Operation.onLayers` is what an operation does to a row of layers, and `World.Over.steps` says
  that rows of operations do so: the rest is shown for rows of layers;
* `Operation.onLayers_inside` is the step inside a bracket, `World.row_inside` a row of such steps;
* `World.Over.found_eq` says what a name is looked up as, and `World.Restored` what is as before;
* `Scopes.operations_bracketed` is what holds of all rows of operations over a mapping.
-/
import TextTemplate.Context
import TextTemplate.Proofs.Expression.Paths

namespace TextTemplate

open Likeness TextTemplate.Outcome

/-! ## 1. Operations -/

/-- An operation on scopes. -/
inductive Scopes.Operation where
  | push (layer : Dict)
  | pop
  | unwind (depth : Int)
  | write (name value : Value)
  | writeRoot (name value : Value)
  deriving DecidableEq, Repr

open Scopes (Operation)

/-- Carry out an operation. -/
def Scopes.Operation.run (o : Operation) : EStateM Error World Unit := fun w =>
  match o with
  | .push layer =>
    match (Context.mk w.scopes none).push layer with
    | .ok c => .ok () { w with scopes := c.scopes }
    | .error cause => .error (Error.of cause) w
  | .pop =>
    match w.scopes.pop? with
    | some (_, c) => .ok () { w with scopes := c }
    | none => .error (Error.of .popBeyondRoot) w
  | .unwind depth => .ok () { w with scopes := w.scopes.unwind depth.toNat }
  | .write name value =>
    match w.scopes.write name value w.store with
    | .ok c s => .ok () { w with scopes := c, store := s }
    | .error e s => .error e { w with store := s }
  | .writeRoot name value =>
    match w.scopes.writeRoot name value w.store with
    | .ok _ s => .ok () { w with store := s }
    | .error e s => .error e { w with store := s }

namespace World

/-- What a row of operations leaves.  After one that fails the row goes on. -/
def after (w : World) (os : List Operation) : World := os.foldl (fun w o => behind (o.run w)) w

/-- The layers, the innermost first. -/
def layers (w : World) : List Dict := w.scopes.layers w.store

/-- The value that a name is looked up as, or the failure. -/
def found (w : World) (name : Value) : Except Error Value :=
  match w.scopes.lookup name w.store with
  | .ok v _ => .ok v
  | .error e _ => .error e

/-- The root layer is a mapping in the store. -/
structure Over (w : World) (r : Ref) : Prop where
  root : w.scopes.root = .dict r
  known : r < w.store.dicts.size

theorem after_append (w : World) (os os' : List Operation) :
    w.after (os ++ os') = (w.after os).after os' := List.foldl_append

theorem Over.scopes_eq {w : World} {r : Ref} (hw : w.Over r) :
    w.scopes = ⟨.dict r, w.scopes.pushed⟩ := by
  rw [← hw.root]

theorem Over.layers_eq {w : World} {r : Ref} (hw : w.Over r) :
    w.layers = w.scopes.pushed ++ [w.store.dict r, Scopes.constants] := by
  simp [layers, Scopes.layers, Store.entries, hw.root]

end World

/-! ## 2. Rows of layers -/

/-- Can the layer be pushed?  That does not depend on the context. -/
def Context.accepts (layer : Dict) : Bool := ((Context.mk (.ofRoot .none) none).push layer).isOk

/-- What an operation does to the row of layers, the innermost first; keys are those of a store. -/
def Scopes.Operation.onLayers (s : Store) (row : List Dict) : Operation → List Dict
  | .push layer => if Context.accepts layer then layer :: row else row
  | .pop => if row.length ≤ 2 then row else row.tail
  | .unwind depth => row.drop (row.length - (max depth 2).toNat)
  | .write name value =>
    match s.key? name with
    | .ok k => row.modifyHead (·.insert k name value)
    | .error _ => row
  | .writeRoot name value =>
    match s.key? name with
    | .ok k => row.modify (row.length - 2) (·.insert k name value)
    | .error _ => row

/-- The key that an operation writes in the root layer by name. -/
def Scopes.Operation.rootKey? (s : Store) : Operation → Option Key
  | .writeRoot name _ => (s.key? name).toOption
  | _ => none

/-- The root layer is the one above the constants. -/
theorem modify_root (above : List Dict) (root constants : Dict) (f : Dict → Dict) :
    (above ++ [root, constants]).modify above.length f = above ++ [f root, constants] := by
  induction above with
  | nil => rfl
  | cons layer above ih => simpa using ih

section Keys

variable {s : Store} {r : Ref}

/-- The keys of values do not depend on what mappings hold. -/
theorem Store.key?_setDict (s : Store) (r : Ref) (d : Dict) (v : Value) :
    (s.setDict r d).key? v = s.key? v := by
  have hwithin : ∀ fuel, (s.setDict r d).keyWithin fuel = s.keyWithin fuel := by
    intro fuel
    induction fuel with
    | zero => rfl
    | succ fuel ih =>
      funext v
      cases v <;> simp only [keyWithin, ih] <;> rfl
  have hdepth : (s.setDict r d).depth = s.depth := by simp [depth, setDict]
  unfold key?
  rw [hwithin, hdepth]

theorem Store.setDict_setDict (s : Store) (r : Ref) (d d' : Dict) :
    (s.setDict r d).setDict r d' = s.setDict r d' := by
  simp [setDict]

/-- A mapping that is given what it holds stays as it is. -/
theorem Store.setDict_dict (h : r < s.dicts.size) : s.setDict r (s.dict r) = s := by
  have hsame : s.dicts.setIfInBounds r (s.dict r) = s.dicts := by
    simp [dict, h, Array.setIfInBounds]
  unfold setDict
  rw [hsame]

theorem Store.dict_setDict_self (h : r < s.dicts.size) (d : Dict) : (s.setDict r d).dict r = d := by
  rw [dict_setDict]
  simp [h]

end Keys

/-- A layer can be pushed, or its push fails. -/
theorem Context.push_cases (c : Context) (layer : Dict) :
    (accepts layer = true ∧ c.push layer = .ok { c with scopes := c.scopes.push layer }) ∨
      (accepts layer = false ∧ ∃ cause, c.push layer = .error cause) := by
  unfold accepts push
  split
  · exact .inr ⟨rfl, _, rfl⟩
  · split
    · exact .inr ⟨rfl, _, rfl⟩
    · exact .inl ⟨rfl, rfl⟩

section Step

variable {w : World} {r : Ref}

open World (behind)

/-- A name is written in the root layer, unless it is no key. -/
theorem Scopes.writeRoot_dict {c : Scopes} (hroot : c.root = .dict r) (s : Store)
    (name value : Value) : c.writeRoot name value s = match s.key? name with
      | .ok k => .ok () (s.setDict r ((s.dict r).insert k name value))
      | .error type => .error (Error.of (.type (.unhashable type))) s := by
  unfold writeRoot Eval.setItem
  rw [hroot, bind_of_ok (get_apply s)]
  dsimp only
  cases s.key? name with
  | ok k => rfl
  | error type => rfl

/-- A name is written in the innermost layer, which is the root layer if none has been pushed. -/
theorem Scopes.write_dict {c : Scopes} (hroot : c.root = .dict r) (s : Store)
    (name value : Value) : c.write name value s = match s.key? name, c.pushed with
      | .ok k, [] => .ok c (s.setDict r ((s.dict r).insert k name value))
      | .ok k, layer :: rest => .ok { c with pushed := layer.insert k name value :: rest } s
      | .error type, _ => .error (Error.of (.type (.unhashable type))) s := by
  have hwritten := writeRoot_dict hroot s name value
  unfold write
  cases c.pushed with
  | nil =>
    dsimp only
    cases hk : s.key? name with
    | ok k =>
      rw [hk] at hwritten
      exact bind_of_ok hwritten
    | error type =>
      rw [hk] at hwritten
      exact bind_of_error hwritten
  | cons layer rest =>
    dsimp only
    rw [bind_of_ok (get_apply s)]
    cases s.key? name with
    | ok k => rfl
    | error type => rfl

/-- What operations leave in a world over a mapping: they may have changed the root layer, but
nothing else in the store, and they have done to the layers what they do to a row of them. -/
structure World.Steps (w : World) (r : Ref) (os : List Operation) (w' : World) : Prop where
  store : ∃ d, w'.store = w.store.setDict r d
  root : w'.scopes.root = .dict r
  layers : w'.layers = os.foldl (Operation.onLayers w.store) w.layers

/-- Where only the pushed layers change, the layers are these and the two at the bottom. -/
theorem World.Over.steps_of_pushed (hw : w.Over r) {o : Operation} {pushed : List Dict}
    (hrow : o.onLayers w.store w.layers = pushed ++ [w.store.dict r, Scopes.constants]) :
    w.Steps r [o] { w with scopes := { w.scopes with pushed := pushed } } where
  store := ⟨w.store.dict r, (Store.setDict_dict hw.known).symm⟩
  root := hw.root
  layers := by
    rw [List.foldl_cons, List.foldl_nil, hrow]
    simp [World.layers, Scopes.layers, Store.entries, hw.root]

/-- Where nothing changes. -/
theorem World.Over.steps_same (hw : w.Over r) {o : Operation}
    (hrow : o.onLayers w.store w.layers = w.layers) : w.Steps r [o] w where
  store := ⟨w.store.dict r, (Store.setDict_dict hw.known).symm⟩
  root := hw.root
  layers := hrow.symm

/-- Where the root layer changes. -/
theorem World.Over.steps_of_root (hw : w.Over r) {o : Operation} {d : Dict}
    (hrow : o.onLayers w.store w.layers = w.scopes.pushed ++ [d, Scopes.constants]) :
    w.Steps r [o] { w with store := w.store.setDict r d } where
  store := ⟨d, rfl⟩
  root := hw.root
  layers := by
    rw [List.foldl_cons, List.foldl_nil, hrow]
    simp [World.layers, Scopes.layers, Store.entries, hw.root, Store.dict_setDict_self hw.known]

/-- **What an operation does.** -/
theorem Scopes.Operation.steps (hw : w.Over r) (o : Operation) :
    w.Steps r [o] (behind (o.run w)) := by
  have hrow := hw.layers_eq
  cases o with
  | push layer =>
    unfold run
    dsimp only
    rcases Context.push_cases ⟨w.scopes, none⟩ layer with
      ⟨haccepts, hpush⟩ | ⟨haccepts, cause, hpush⟩
    · rw [hpush]
      exact hw.steps_of_pushed (by simp [onLayers, haccepts, hrow])
    · rw [hpush]
      exact hw.steps_same (by simp [onLayers, haccepts])
  | pop =>
    unfold run Scopes.pop?
    cases hpushed : w.scopes.pushed with
    | nil => exact hw.steps_same (by simp [onLayers, hrow, hpushed])
    | cons layer rest => exact hw.steps_of_pushed (by simp [onLayers, hrow, hpushed])
  | unwind depth =>
    refine hw.steps_of_pushed ?_
    have hdrop : w.layers.length - (max depth 2).toNat =
        w.scopes.pushed.length - (max depth.toNat 2 - 2) := by
      simp only [hrow, List.length_append, List.length_cons, List.length_nil]
      omega
    show w.layers.drop _ = _
    rw [hdrop, hrow, List.drop_append_of_le_length (Nat.sub_le _ _)]
  | write name value =>
    unfold run
    dsimp only
    rw [Scopes.write_dict hw.root]
    cases hk : w.store.key? name with
    | ok k =>
      cases hpushed : w.scopes.pushed with
      | nil => exact hw.steps_of_root (by simp [onLayers, hrow, hpushed, hk])
      | cons layer rest => exact hw.steps_of_pushed (by simp [onLayers, hrow, hpushed, hk])
    | error type => exact hw.steps_same (by simp [onLayers, hk])
  | writeRoot name value =>
    unfold run
    dsimp only
    rw [Scopes.writeRoot_dict hw.root]
    cases hk : w.store.key? name with
    | ok k => exact hw.steps_of_root (by simp [onLayers, hrow, hk, modify_root])
    | error type => exact hw.steps_same (by simp [onLayers, hk])

end Step

/-! ## 3. Rows of operations -/

section Rows

variable {w w' w'' : World} {r : Ref} {os os' : List Operation}

theorem Scopes.Operation.onLayers_setDict (s : Store) (r : Ref) (d : Dict) :
    onLayers (s.setDict r d) = onLayers s := by
  funext row o
  cases o <;> simp only [onLayers, Store.key?_setDict]

theorem Scopes.Operation.rootKey?_setDict (s : Store) (r : Ref) (d : Dict) :
    rootKey? (s.setDict r d) = rootKey? s := by
  funext o
  cases o <;> simp only [rootKey?, Store.key?_setDict]

namespace World

theorem Steps.over (hw : w.Over r) (h : w.Steps r os w') : w'.Over r where
  root := h.root
  known := by
    obtain ⟨d, hstore⟩ := h.store
    simpa [hstore, Store.setDict] using hw.known

theorem Steps.trans (h : w.Steps r os w') (h' : w'.Steps r os' w'') :
    w.Steps r (os ++ os') w'' := by
  obtain ⟨d, hstore⟩ := h.store
  obtain ⟨d', hstore'⟩ := h'.store
  refine ⟨⟨d', ?_⟩, h'.root, ?_⟩
  · rw [hstore', hstore, Store.setDict_setDict]
  · rw [h'.layers, h.layers, hstore, Operation.onLayers_setDict, List.foldl_append]

/-- **What a row of operations does.** -/
theorem Over.steps (hw : w.Over r) (os : List Operation) : w.Steps r os (w.after os) := by
  induction os generalizing w with
  | nil => exact ⟨⟨w.store.dict r, (Store.setDict_dict hw.known).symm⟩, hw.root, rfl⟩
  | cons o os ih =>
    have hstep := Operation.steps hw o
    exact hstep.trans (ih (hstep.over hw))

end World

end Rows

/-! ## 4. Inside a bracket -/

/-- What a mapping holds apart from some keys. -/
def Dict.off (d : Dict) (ks : List Key) : Dict := d.filter (·.key ∉ ks)

section Off

variable {d : Dict} {k : Key} {ks : List Key}

theorem Dict.off_insert (hk : k ∈ ks) (label value : Value) :
    (d.insert k label value).off ks = d.off ks := by
  unfold off
  induction d with
  | nil => simp [insert, hk]
  | cons e rest ih =>
    unfold insert
    split
    · next he => simp [he, hk]
    · simp only [List.filter_cons, ih]

theorem Dict.find?_off (hk : k ∉ ks) : (d.off ks).find? k = d.find? k := by
  unfold off
  induction d with
  | nil => rfl
  | cons e rest ih =>
    simp only [decide_not] at ih
    by_cases he : e.key = k
    · simp [he, hk, find?]
    · by_cases hmem : e.key ∈ ks <;> simp [he, hmem, find?, ih]

end Off

section Inside

variable {s : Store} {ks : List Key} {outer row : List Dict} {root : Dict}

/-- The layers of a row that has come from others: some of its own lie over those that were there,
and of these the root layer at most has changed, at some keys. -/
def Scopes.Grown (ks : List Key) (outer : List Dict) (root : Dict) (row : List Dict) : Prop :=
  ∃ own root', row = own ++ (outer ++ [root', constants]) ∧ root'.off ks = root.off ks

open Scopes (Grown)

/-- **The step inside a bracket.**  Where there is a layer of its own, and nothing below is taken
away, an operation changes nothing below but the root layer, at the key that it writes there. -/
theorem Scopes.Operation.onLayers_inside (h : Grown ks outer root row)
    (hown : outer.length + 2 < row.length) {o : Operation}
    (hstays : outer.length + 2 ≤ (onLayers s row o).length)
    (hkeys : ∀ k, o.rootKey? s = some k → k ∈ ks) : Grown ks outer root (onLayers s row o) := by
  obtain ⟨own, root', rfl, hoff⟩ := h
  obtain ⟨layer, own, rfl⟩ : ∃ layer own', own = layer :: own' := by
    cases own with
    | nil => simp at hown
    | cons layer own => exact ⟨layer, own, rfl⟩
  cases o with
  | push pushed =>
    simp only [onLayers]
    split
    · exact ⟨pushed :: layer :: own, root', rfl, hoff⟩
    · exact ⟨layer :: own, root', rfl, hoff⟩
  | pop =>
    simp only [onLayers]
    split
    · exact ⟨layer :: own, root', rfl, hoff⟩
    · exact ⟨own, root', rfl, hoff⟩
  | unwind depth =>
    -- no more is dropped than there is of its own
    simp only [onLayers, List.length_drop, List.length_append, List.length_cons,
      List.length_nil] at hstays hown
    refine ⟨(layer :: own).drop _, root', List.drop_append_of_le_length ?_, hoff⟩
    simp only [List.length_append, List.length_cons, List.length_nil]
    omega
  | write name value =>
    simp only [onLayers]
    cases s.key? name with
    | ok k => exact ⟨layer.insert k name value :: own, root', rfl, hoff⟩
    | error type => exact ⟨layer :: own, root', rfl, hoff⟩
  | writeRoot name value =>
    simp only [onLayers]
    cases hk : s.key? name with
    | ok k =>
      have hmem : k ∈ ks := hkeys k (by simp [rootKey?, hk, Except.toOption])
      have hindex : (layer :: own ++ (outer ++ [root', constants])).length - 2 =
          (layer :: own ++ outer).length := by
        simp only [List.length_append, List.length_cons, List.length_nil]
        omega
      refine ⟨layer :: own, root'.insert k name value, ?_, (Dict.off_insert hmem _ _).trans hoff⟩
      dsimp only
      rw [hindex, ← List.append_assoc, modify_root, List.append_assoc]
    | error type => exact ⟨layer :: own, root', rfl, hoff⟩

/-- **A row of such steps.**  There is a layer of its own before each of them. -/
theorem World.row_inside {os : List Operation} (h : Grown ks outer root row)
    (hown : ∀ n < os.length,
      outer.length + 2 < ((os.take n).foldl (Operation.onLayers s) row).length)
    (hstays : outer.length + 2 ≤ (os.foldl (Operation.onLayers s) row).length)
    (hkeys : ∀ o ∈ os, ∀ k, o.rootKey? s = some k → k ∈ ks) :
    Grown ks outer root (os.foldl (Operation.onLayers s) row) := by
  induction os generalizing row with
  | nil => exact h
  | cons o os ih =>
    have hnext : outer.length + 2 ≤ (Operation.onLayers s row o).length := by
      cases os with
      | nil => exact hstays
      | cons o' os => exact Nat.le_of_lt (hown 1 (by simp))
    have hstep := Operation.onLayers_inside h (hown 0 (by simp)) hnext (hkeys o List.mem_cons_self)
    exact ih hstep (fun n hn => hown (n + 1) (by simpa using hn)) hstays
      fun o' ho' => hkeys o' (List.mem_cons_of_mem o ho')

end Inside

/-! ## 5. Brackets -/

/-- A part of a row that is bracketed: it begins with a push, there are more layers than before
until its last operation, which is a pop or an unwinding, and as many as before behind that. -/
structure Scopes.Bracket (w : World) (layer : Dict) (inner : List Operation) (last : Operation) :
    Prop where
  stays : ∀ n ≤ inner.length,
    w.layers.length < (w.after (.push layer :: inner.take n)).layers.length
  ends : last = .pop ∨ ∃ depth, last = .unwind depth
  closed : (w.after (.push layer :: inner ++ [last])).layers.length = w.layers.length

/-- What is as it was before: all pushed layers; the root layer, apart from some keys; the rest of
the store; and what all names are looked up as, apart from those with such a key. -/
structure World.Restored (w w' : World) (r : Ref) (ks : List Key) : Prop where
  scopes : w'.scopes = w.scopes
  store : ∃ d, w'.store = w.store.setDict r d ∧ d.off ks = (w.store.dict r).off ks
  found : ∀ name, (∀ k ∈ ks, w.store.key? name ≠ .ok k) → w'.found name = w.found name

section Brackets

variable {w w' : World} {r : Ref} {ks : List Key}

/-- What is no key is not looked up. -/
theorem Scopes.lookup_unhashable {c : Scopes} (hroot : c.root = .dict r) {s : Store} {name : Value}
    {type : String} (hk : s.key? name = .error type) :
    c.lookup name s = .error (Error.of (.type (.unhashable type))) s := by
  have hcontains : Eval.contains c.root name s =
      .error (Error.of (.type (.unhashable type))) s := by
    unfold Eval.contains
    rw [hroot, bind_of_ok (get_apply s), hk]
    rfl
  unfold lookup
  rw [bind_of_ok (get_apply s), hk]
  cases c.pushed with
  | nil => exact bind_of_error hcontains
  | cons layer rest => rfl

/-- **What a name is looked up as** depends on what the layers bind its key to. -/
theorem World.Over.found_eq (hw : w.Over r) (name : Value) : w.found name =
    match w.store.key? name with
    | .ok k =>
      match w.scopes.bound? w.store k with
      | some v => .ok v
      | none => .error (Error.of (.missingKey name))
    | .error type => .error (Error.of (.type (.unhashable type))) := by
  unfold found
  cases hk : w.store.key? name with
  | ok k =>
    rw [Scopes.lookup_bound hw.root hk]
    dsimp only
    cases w.scopes.bound? w.store k with
    | some v => rfl
    | none => rfl
  | error type => rw [Scopes.lookup_unhashable hw.root hk]

/-- **Names are looked up as before** where the scopes are the same and the root layer differs at
other keys only. -/
theorem World.Over.restored (hw : w.Over r) (hw' : w'.Over r) (hscopes : w'.scopes = w.scopes)
    {d : Dict} (hstore : w'.store = w.store.setDict r d)
    (hoff : d.off ks = (w.store.dict r).off ks) : w.Restored w' r ks where
  scopes := hscopes
  store := ⟨d, hstore, hoff⟩
  found := by
    intro name hname
    rw [hw.found_eq, hw'.found_eq, hscopes, hstore, Store.key?_setDict]
    cases hk : w.store.key? name with
    | ok k =>
      have hnot : k ∉ ks := fun hmem => hname k hmem hk
      have hfind : d.find? k = (w.store.dict r).find? k := by
        rw [← Dict.find?_off hnot, hoff, Dict.find?_off hnot]
      dsimp only
      rw [Scopes.bound?_eq hw.root, Scopes.bound?_eq hw.root, Store.dict_setDict_self hw.known,
        hfind]
    | error type => rfl

/-- **What a bracketed part leaves behind.** -/
theorem Scopes.Bracket.restored (hw : w.Over r) {layer : Dict} {inner : List Operation}
    {last : Operation} (h : Bracket w layer inner last) :
    w.Restored (w.after (.push layer :: inner ++ [last])) r
      (inner.filterMap (·.rootKey? w.store)) := by
  have hlayers : ∀ os, (w.after os).layers = os.foldl (Operation.onLayers w.store) w.layers :=
    fun os => (hw.steps os).layers
  have hlength : w.layers.length = w.scopes.pushed.length + 2 := by simp [hw.layers_eq]
  -- the push has succeeded, since there are more layers behind it
  have hpushed : Operation.onLayers w.store w.layers (.push layer) = layer :: w.layers := by
    have hmore := h.stays 0 (Nat.zero_le _)
    rw [hlayers] at hmore
    simp only [Operation.onLayers]
    split
    · rfl
    · next hnot => simp [Operation.onLayers, hnot] at hmore
  have hbegun : Grown (inner.filterMap (·.rootKey? w.store)) w.scopes.pushed (w.store.dict r)
      (layer :: w.layers) := ⟨[layer], w.store.dict r, by rw [hw.layers_eq]; rfl, rfl⟩
  have hgrown : Grown (inner.filterMap (·.rootKey? w.store)) w.scopes.pushed (w.store.dict r)
      (w.after (.push layer :: inner ++ [last])).layers := by
    have hclosed := h.closed
    rw [hlayers, List.cons_append, List.foldl_cons, hpushed] at hclosed ⊢
    refine World.row_inside hbegun ?_ (by omega) ?_
    · intro n hn
      have hinner : n ≤ inner.length := by simpa [Nat.lt_succ_iff] using hn
      have hstays := h.stays n hinner
      rw [hlayers, List.foldl_cons, hpushed] at hstays
      rw [List.take_append_of_le_length hinner]
      omega
    · intro o ho k hk
      rcases List.mem_append.mp ho with ho | ho
      · exact List.mem_filterMap.mpr ⟨o, ho, hk⟩
      · obtain rfl := List.mem_singleton.mp ho
        rcases h.ends with rfl | ⟨depth, rfl⟩ <;> cases hk
  have hsteps := hw.steps (.push layer :: inner ++ [last])
  have hw' := hsteps.over hw
  obtain ⟨d, hstore⟩ := hsteps.store
  obtain ⟨own, root', hrow, hoff⟩ := hgrown
  -- nothing is left of its own, since there are as many layers as before
  obtain rfl : own = [] := by
    have hclosed := h.closed
    rw [hrow, hlength] at hclosed
    simp only [List.length_append, List.length_cons, List.length_nil] at hclosed
    exact List.length_eq_zero_iff.mp (by omega)
  rw [hw'.layers_eq, hstore, Store.dict_setDict_self hw.known, List.nil_append] at hrow
  obtain ⟨hsame, hroot⟩ := List.append_inj' hrow rfl
  obtain ⟨rfl, -⟩ := List.cons.inj hroot
  refine hw.restored hw' ?_ hstore hoff
  rw [hw'.scopes_eq, hsame, ← hw.scopes_eq]

/-- **Taking a layer away** fails where none has been pushed, and nowhere else; then it changes
nothing. -/
theorem World.Over.pop_fails_iff (hw : w.Over r) (e : Error) : Operation.pop.run w = .error e w' ↔
    w.layers.length = 2 ∧ e = Error.of .popBeyondRoot ∧ w' = w := by
  rw [hw.layers_eq]
  unfold Operation.run Scopes.pop?
  cases w.scopes.pushed with
  | nil => simp [eq_comm]
  | cons layer rest => simp

/-- **Scopes are bracketed.**  Whatever operations have been carried out over a mapping: the root
layer is still this mapping, the constants lie below it, and the layers are what the operations make
of a row of layers.  Taking a layer away fails just if these two layers are left, and changes
nothing then.  And a bracketed part that follows leaves everything as it was but the root layer, at
the keys that are written there by name inside the part: all other names are looked up with the same
result as before. -/
theorem Scopes.operations_bracketed (hw : w.Over r) (os : List Operation) :
    (w.after os).Over r ∧
    2 ≤ (w.after os).layers.length ∧
    (w.after os).layers.getLast? = some constants ∧
    (w.after os).layers = os.foldl (Operation.onLayers w.store) w.layers ∧
    (∀ e w', Operation.pop.run (w.after os) = .error e w' ↔
      (w.after os).layers.length = 2 ∧ e = Error.of .popBeyondRoot ∧ w' = w.after os) ∧
    ∀ layer inner last, Bracket (w.after os) layer inner last →
      (w.after os).Restored (w.after (os ++ (.push layer :: inner ++ [last]))) r
        (inner.filterMap (·.rootKey? w.store)) := by
  have hsteps := hw.steps os
  have hafter := hsteps.over hw
  refine ⟨hafter, ?_, ?_, hsteps.layers, fun e w' => hafter.pop_fails_iff e, ?_⟩
  · simp [hafter.layers_eq]
  · simp [hafter.layers_eq]
  · intro layer inner last hbracket
    have hkeys : Operation.rootKey? (w.after os).store = Operation.rootKey? w.store := by
      obtain ⟨d, hstore⟩ := hsteps.store
      rw [hstore, Operation.rootKey?_setDict]
    rw [World.after_append, ← hkeys]
    exact hbracket.restored hafter

end Brackets

/-- A world over a mapping that binds one name. -/
def World.oneName : World :=
  ⟨⟨.ofRoot (.dict 0), none⟩, { Store.empty with dicts := #[Dict.ofBindings [("a", .int 1)]] }⟩

/-- A layer is written in, a counter in the root layer, and another layer is pushed. -/
def Scopes.Operation.counting : List Operation :=
  [.write (.plain "a") (.int 2), .writeRoot (.plain "counter") (.int 5),
    .push (Dict.ofBindings [("a", .int 3)])]

/-- Two layers are dropped at once: behind that all is as before, but for the counter. -/
theorem Scopes.operations_bracketed_counting :
    World.oneName.Over 0 ∧
    Bracket (World.oneName.after [.push []]) [] Operation.counting (.unwind 3) ∧
    (World.oneName.after [.push []]).Restored
      (World.oneName.after ([.push []] ++ (.push [] :: Operation.counting ++ [.unwind 3]))) 0
      (Operation.counting.filterMap (·.rootKey? World.oneName.store)) := by
  have hover : World.oneName.Over 0 := ⟨rfl, by decide⟩
  have hbracket : Bracket (World.oneName.after [.push []]) [] Operation.counting (.unwind 3) :=
    { stays := by decide +kernel
      ends := .inr ⟨3, rfl⟩
      closed := by decide +kernel }
  exact ⟨hover, hbracket,
    (operations_bracketed hover [.push []]).2.2.2.2.2 [] Operation.counting (.unwind 3) hbracket⟩

/-- The counter is the only key that is written in the root layer by name. -/
example : Operation.counting.filterMap (·.rootKey? World.oneName.store) = [.text "counter"] := by
  decide +kernel

end TextTemplate
