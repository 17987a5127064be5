/-
# Paths through plain data

A lookup step tries the text of a segment as a key, then as an attribute, then as an integer.  In
plain data this comes to little: the first segment is a name in the layers, and each further one a
key of a mapping or the position of an element.  So a path is followed from one value to the next,
nothing in the store changes, and no other failure than a failed lookup is possible.

* `Store.PlainData` is plain data, `Scopes.PlainData` says that the layers hold nothing else;
* `Store.held?` is what a value holds for a segment, `Scopes.named?` what the layers do;
* `Scopes.follow` follows a path;
* `Operand.resolve_path` says that an operand does so.  There is one name with which it does not: if
  nothing is bound to `openAttribute`, that leads to an empty mapping.
-/
import TextTemplate.Proofs.Binding.Texts

namespace TextTemplate

open Likeness TextTemplate.Outcome TextTemplate.Text

/-! ## 1. Plain data -/

/-- Plain data: nothing, booleans, numbers, texts and ranges, and the lists, tuples and mappings
that hold plain data. -/
inductive Store.PlainData (s : Store) : Value → Prop where
  | none : s.PlainData .none
  | bool (b : Bool) : s.PlainData (.bool b)
  | int (n : Int) : s.PlainData (.int n)
  | float (x : Decimal.Binary64) : s.PlainData (.float x)
  | nan (identity : Nat) : s.PlainData (.nan identity)
  | text (t : String) (safe : Bool) : s.PlainData (.text t safe)
  | range (start stop : Int) : s.PlainData (.range start stop)
  | list {r : Ref} (items : ∀ v ∈ s.list r, s.PlainData v) : s.PlainData (.list r)
  | tuple {r : Ref} (items : ∀ v ∈ s.tuple r, s.PlainData v) : s.PlainData (.tuple r)
  | dict {r : Ref} (values : ∀ e ∈ s.dict r, s.PlainData e.value) : s.PlainData (.dict r)

/-- The entries of the root layer, if it is a mapping. -/
def Store.entries (s : Store) : Value → Dict
  | .dict r => s.dict r
  | _ => []

namespace Scopes

/-- The layers, the innermost first. -/
def layers (s : Store) (c : Scopes) : List Dict := c.pushed ++ [s.entries c.root, constants]

/-- The root layer is a mapping, and all layers hold plain data. -/
structure PlainData (s : Store) (c : Scopes) : Prop where
  root : ∃ r, c.root = .dict r
  values : ∀ layer ∈ c.layers s, ∀ e ∈ layer, s.PlainData e.value

/-- What the innermost layer that binds a key has there. -/
def bound? (s : Store) (c : Scopes) (k : Key) : Option Value := (c.layers s).findSome? (·.find? k)

/-- What the layers hold for a segment: at its text, else at the integer that it reads as. -/
def named? (s : Store) (c : Scopes) (segment : String) : Option Value :=
  (c.bound? s (.text segment)).or ((segmentIndex? segment).bind fun n => c.bound? s (.int n))

end Scopes

namespace Store

/-- What a mapping holds at a key. -/
def entry? (s : Store) (v : Value) (k : Key) : Option Value := (s.entries v).find? k

/-- The position of an index in a container in memory, which is a machine word. -/
def wordPosition? (n : Int) (length : Nat) : Option Nat :=
  if isWord n then position? n length else none

/-- The element of a value at an index. -/
def element? (s : Store) (v : Value) (n : Int) : Option Value :=
  match v with
  | .text t _ =>
    (wordPosition? n t.length).bind fun i => t.toList[i]?.map fun c => .plain (String.singleton c)
  | .range start stop =>
    (position? n (rangeLength start stop)).map fun (i : Nat) => .int (start + i)
  | .list r => (wordPosition? n (s.list r).length).bind fun i => (s.list r)[i]?
  | .tuple r => (wordPosition? n (s.tuple r).length).bind fun i => (s.tuple r)[i]?
  | _ => none

/-- What plain data holds for a segment: a mapping at its text, else what there is at the integer
that it reads as, in a mapping the value of that key, in others the element. -/
def held? (s : Store) (v : Value) (segment : String) : Option Value :=
  (s.entry? v (.text segment)).or
    ((segmentIndex? segment).bind fun n => (s.entry? v (.int n)).or (s.element? v n))

/-- No segment is the name of an attribute of the value that it is looked up in. -/
def Attributeless (s : Store) : Value → List String → Prop
  | _, [] => True
  | v, segment :: rest => v.dataAttribute? segment = none ∧
      ∀ found, s.held? v segment = some found → s.Attributeless found rest

end Store

/-- What has been found, or the failure of a lookup. -/
def lookedUp (segment : String) (within : Subject) : Option Value → Except Cause Value
  | some v => .ok v
  | none => .error (.lookup segment within)

/-- A further step of a path. -/
def Store.next (s : Store) (v : Value) (segment : String) : Except Cause Value :=
  lookedUp segment (.value v) (s.held? v segment)

/-- Where a path leads: from a name in the layers through one value after the other. -/
def Scopes.follow (s : Store) (c : Scopes) (first : String) (rest : List String) :
    Except Cause Value := do
  let v ← lookedUp first (.scopes c) (c.named? s first)
  rest.foldlM s.next v

/-! ## 2. What is found is plain -/

section Plain

variable {s : Store} {c : Scopes} {v found : Value}

theorem Dict.mem_of_find? {d : Dict} {k : Key} (h : d.find? k = some v) : ∃ e ∈ d, e.value = v := by
  induction d with
  | nil => cases h
  | cons e rest ih =>
    unfold Dict.find? at h
    split at h
    · exact ⟨e, List.mem_cons_self, Option.some.inj h⟩
    · obtain ⟨e', he', hv⟩ := ih h
      exact ⟨e', List.mem_cons_of_mem e he', hv⟩

namespace Store.PlainData

theorem entry? (h : s.PlainData v) {k : Key} (hfound : s.entry? v k = some found) :
    s.PlainData found := by
  cases h with
  | dict values =>
    obtain ⟨e, he, rfl⟩ := Dict.mem_of_find? hfound
    exact values e he
  | _ => cases hfound

theorem element? (h : s.PlainData v) {n : Int} (hfound : s.element? v n = some found) :
    s.PlainData found := by
  cases h with
  | text t safe =>
    obtain ⟨i, -, hi⟩ := Option.bind_eq_some_iff.mp hfound
    obtain ⟨a, -, rfl⟩ := Option.map_eq_some_iff.mp hi
    exact .text _ _
  | range start stop =>
    obtain ⟨i, -, rfl⟩ := Option.map_eq_some_iff.mp hfound
    exact .int _
  | list items =>
    obtain ⟨i, -, hi⟩ := Option.bind_eq_some_iff.mp hfound
    exact items found (List.mem_of_getElem? hi)
  | tuple items =>
    obtain ⟨i, -, hi⟩ := Option.bind_eq_some_iff.mp hfound
    exact items found (List.mem_of_getElem? hi)
  | _ => cases hfound

/-- **Plain data holds plain data.** -/
theorem held? (h : s.PlainData v) {segment : String} (hfound : s.held? v segment = some found) :
    s.PlainData found := by
  rcases Option.or_eq_some_iff.mp hfound with hentry | ⟨-, hindex⟩
  · exact h.entry? hentry
  · obtain ⟨n, -, hn⟩ := Option.bind_eq_some_iff.mp hindex
    rcases Option.or_eq_some_iff.mp hn with hentry | ⟨-, helement⟩
    · exact h.entry? hentry
    · exact h.element? helement

/-- Plain data cannot be called. -/
theorem not_callable (h : s.PlainData v) : s.isCallable v = false := by
  cases h <;> rfl

end Store.PlainData

/-- **The layers give plain data.** -/
theorem Scopes.PlainData.named? (h : c.PlainData s) {segment : String}
    (hfound : c.named? s segment = some found) : s.PlainData found := by
  have of_bound : ∀ k, c.bound? s k = some found → s.PlainData found := by
    intro k hk
    obtain ⟨layer, hlayer, hfind⟩ := List.exists_of_findSome?_eq_some hk
    obtain ⟨e, he, rfl⟩ := Dict.mem_of_find? hfind
    exact h.values layer hlayer e he
  rcases Option.or_eq_some_iff.mp hfound with htext | ⟨-, hindex⟩
  · exact of_bound _ htext
  · obtain ⟨n, -, hn⟩ := Option.bind_eq_some_iff.mp hindex
    exact of_bound _ hn

end Plain

/-! ## 3. One step -/

/-- A computation answers: it gives a value, or fails with an error of a kind that is let through.
The store stays as it is. -/
def Eval.Answers (passes : ErrorKind → Bool) (x : Eval Value) (s : Store) : Option Value → Prop
  | some v => x s = .ok v s
  | none => ∃ cause, x s = .error (Error.of cause) s ∧ passes cause.kind = true

section Steps

variable {s : Store} {c : Scopes} {v : Value} {passes : ErrorKind → Bool} {segment : String}

/-- An error that is let through is no answer. -/
theorem Eval.Answers.unless {x : Eval Value} {o : Option Value} (h : Answers passes x s o) :
    Eval.unless passes x s = .ok o s := by
  cases o with
  | some v => exact unless_of_ok h
  | none =>
    obtain ⟨cause, hx, hpasses⟩ := h
    exact unless_of_passes hx hpasses

/-- **The last attempt of a lookup**, where indexing answers. -/
theorem Eval.atIndex_of_answers {within : Subject} {item : Value → Eval Value}
    {at? : Int → Option Value} (h : ∀ n, Answers failsLookup (item (.int n)) s (at? n)) :
    Eval.atIndex segment within item s =
      Eval.read (fun _ => lookedUp segment within ((segmentIndex? segment).bind at?)) s := by
  unfold Eval.atIndex
  cases segmentIndex? segment with
  | none => rfl
  | some n =>
    dsimp only
    rw [bind_of_ok (h n).unless]
    dsimp only [Option.bind_some]
    cases at? n with
    | none => rfl
    | some found => rfl

/-- A look at the store finds something, or fails with an error of a kind that is let through. -/
def Finds (passes : ErrorKind → Bool) (r : Except Cause Value) : Option Value → Prop
  | some v => r = .ok v
  | none => ∃ cause, r = .error cause ∧ passes cause.kind = true

theorem Finds.answers {f : Store → Except Cause Value} {o : Option Value}
    (h : Finds passes (f s) o) : Eval.Answers passes (Eval.read f) s o := by
  cases o with
  | some found => exact Eval.read_of_ok h
  | none =>
    obtain ⟨cause, hf, hpasses⟩ := h
    exact ⟨cause, Eval.read_of_error hf, hpasses⟩

namespace Store

/-- A mapping is looked into at a key. -/
theorem finds_entry {r : Ref} {name : Value} {k : Key} (hk : s.key? name = .ok k)
    (hpasses : passes .missingKey = true) :
    Finds passes (s.item (.dict r) name) (s.entry? (.dict r) k) := by
  unfold entry? entries
  dsimp only
  cases hfind : (s.dict r).find? k with
  | some found => exact Scopes.item_dict hk hfind
  | none =>
    have hitem : s.item (.dict r) name = .error (.missingKey name) := by
      unfold Store.item
      rw [hk]
      dsimp only
      rw [hfind]
    exact ⟨_, hitem, hpasses⟩

/-- A text is a key of a mapping, and an index of nothing. -/
theorem finds_text (h : s.PlainData v) (segment : String) :
    Finds passesToAttributes (s.item v (.plain segment)) (s.entry? v (.text segment)) := by
  cases h with
  | dict values => exact finds_entry (key?_plain s segment) rfl
  | _ => exact ⟨_, rfl, rfl⟩

theorem lt_of_position? {n : Int} {length i : Nat} (h : position? n length = some i) :
    i < length := by
  unfold position? at h
  obtain ⟨hin, hi⟩ := Option.ite_none_right_eq_some.mp h
  have heq := Option.some.inj hi
  omega

/-- **A row in memory** is looked into at a position. -/
theorem finds_element (items : List Value) {n : Int} (fault : IndexFault) (g : Nat → Value)
    (hg : ∀ i found, items[i]? = some found → g i = found) :
    Finds failsLookup (wordPosition fault n items.length >>= fun i => .ok (g i))
      ((wordPosition? n items.length).bind fun i => items[i]?) := by
  unfold wordPosition? wordPosition
  by_cases hword : isWord n = true
  · rw [if_pos hword, if_pos hword]
    cases hp : position? n items.length with
    | none => exact ⟨_, rfl, rfl⟩
    | some i =>
      have hi := List.getElem?_eq_getElem (lt_of_position? hp)
      dsimp only [Option.bind_some]
      rw [hi]
      exact congrArg Except.ok (hg i _ hi)
  · rw [if_neg hword, if_neg hword]
    exact ⟨_, rfl, rfl⟩

/-- **An integer** is a key of a mapping, or the position of an element. -/
theorem finds_int (h : s.PlainData v) (n : Int) :
    Finds failsLookup (s.item v (.int n)) ((s.entry? v (.int n)).or (s.element? v n)) := by
  cases h with
  | @dict r values =>
    rw [show s.element? (.dict r) n = none from rfl, Option.or_none]
    exact finds_entry (key?_int s n) rfl
  | @list r items =>
    refine finds_element (s.list r) .list (fun i => (s.list r)[i]?.getD .none) fun i found hi => ?_
    rw [hi]
    rfl
  | @tuple r items =>
    refine finds_element (s.tuple r) .tuple (fun i => (s.tuple r)[i]?.getD .none)
      fun i found hi => ?_
    rw [hi]
    rfl
  | text t safe =>
    -- the characters, each as a text
    have hrow := finds_element (t.toList.map fun c => .plain (String.singleton c)) (n := n) .text
      (fun i => .plain ((t.toList[i]?).elim "" String.singleton)) fun i found hi => by
        rw [List.getElem?_map] at hi
        obtain ⟨a, ha, rfl⟩ := Option.map_eq_some_iff.mp hi
        rw [ha]
        rfl
    simp only [List.getElem?_map, List.length_map, String.length_toList] at hrow
    exact hrow
  | range start stop =>
    have helement : (s.entry? (.range start stop) (.int n)).or (s.element? (.range start stop) n) =
        (position? n (rangeLength start stop)).map fun (i : Nat) => .int (start + i) := rfl
    have hindex : (Value.int n).index? = some n := rfl
    rw [helement]
    unfold Store.item
    dsimp only
    rw [hindex]
    dsimp only
    cases position? n (rangeLength start stop) with
    | none => exact ⟨_, rfl, rfl⟩
    | some i => rfl
  | _ => exact ⟨_, rfl, rfl⟩

end Store

/-- What the layers bind: the pushed ones first, then the root layer, then the constants. -/
theorem Scopes.bound?_eq {r : Ref} (hroot : c.root = .dict r) (k : Key) : c.bound? s k =
    (c.findPushed? k).or (((s.dict r).find? k).or (constants.find? k)) := by
  unfold bound? layers findPushed?
  rw [List.findSome?_append, hroot]
  congr 1
  show List.findSome? _ [s.dict r, constants] = _
  rw [List.findSome?_cons, List.findSome?_cons, List.findSome?_nil]
  cases (s.dict r).find? k with
  | some v => rfl
  | none => cases constants.find? k <;> rfl

/-- **A name in the layers** is looked up in the innermost layer that binds it. -/
theorem Scopes.lookup_bound {r : Ref} (hroot : c.root = .dict r) {name : Value} {k : Key}
    (hk : s.key? name = .ok k) : c.lookup name s = (match c.bound? s k with
      | some v => pure v
      | none => Eval.fail (.missingKey name)) s := by
  rw [bound?_eq hroot, lookup_eq c hk, hroot]
  cases c.findPushed? k with
  | some v => rfl
  | none => exact (lookup_ofRoot (.dict r) hk).symm.trans (lookup_dict hk)

/-- So a lookup answers with what is bound. -/
theorem Scopes.answers_lookup (hc : c.PlainData s) {name : Value} {k : Key}
    (hk : s.key? name = .ok k) (hpasses : passes .missingKey = true) :
    Eval.Answers passes (c.lookup name) s (c.bound? s k) := by
  obtain ⟨r, hroot⟩ := hc.root
  unfold Eval.Answers
  rw [lookup_bound hroot hk]
  cases c.bound? s k with
  | some v => rfl
  | none => exact ⟨_, rfl, hpasses⟩

end Steps

/-! ## 4. Whole paths -/

section Paths

variable {s : Store} {c : Scopes} {v : Value} {first segment : String} {rest : List String}

/-- What is found at last is gone on with as it is. -/
theorem Eval.settle_lookedUp {x : Eval Value} {within : Subject} {o : Option Value}
    (hx : x s = Eval.read (fun _ => lookedUp segment within o) s)
    (h : ∀ found, o = some found → s.PlainData found) :
    (x >>= fun found => Eval.settle (.value found)) s =
      Eval.read (fun _ => lookedUp segment within o) s := by
  cases o with
  | none => exact bind_of_error hx
  | some found =>
    exact (bind_of_ok hx).trans (Eval.settle_of_not_callable (h found rfl).not_callable)

/-- Plain data has the attributes of plain data alone. -/
theorem Store.attribute?_of_plain (h : s.PlainData v)
    (hattribute : v.dataAttribute? segment = none) : s.attribute? v segment = none := by
  have hmap : s.attribute? v segment = (v.dataAttribute? segment).map .ok := by
    cases h <;> rfl
  rw [hmap, hattribute]
  rfl

/-- **A further segment** is looked up in the value. -/
theorem Eval.segment_of_plain (h : s.PlainData v) (hattribute : v.dataAttribute? segment = none) :
    Eval.segment v segment s =
      Eval.read (fun _ => lookedUp segment (.value v) (s.held? v segment)) s := by
  have hplain : ∀ found, s.held? v segment = some found → s.PlainData found := fun _ => h.held?
  unfold Eval.segment
  rw [bind_of_ok (Store.finds_text h segment).answers.unless]
  unfold Store.held? at hplain ⊢
  cases hentry : s.entry? v (.text segment) with
  | some found =>
    rw [hentry] at hplain
    exact Eval.settle_of_not_callable (hplain found rfl).not_callable
  | none =>
    rw [hentry, Option.none_or] at hplain
    dsimp only
    rw [bind_of_ok (get_apply s), Store.attribute?_of_plain h hattribute, Option.none_or]
    exact settle_lookedUp (atIndex_of_answers fun n => (Store.finds_int h n).answers) hplain

/-- **The first segment** is looked up in the layers. -/
theorem Scopes.segment_of_plain (hc : c.PlainData s)
    (hopen : first ≠ openAttribute ∨ (c.bound? s (.text first)).isSome) :
    c.segment first s = Eval.read (fun _ => lookedUp first (.scopes c) (c.named? s first)) s := by
  have hplain : ∀ found, c.named? s first = some found → s.PlainData found := fun _ => hc.named?
  unfold Scopes.segment
  rw [bind_of_ok (answers_lookup hc (key?_plain s first) rfl).unless]
  unfold Scopes.named? at hplain ⊢
  cases hbound : c.bound? s (.text first) with
  | some found =>
    rw [hbound] at hplain
    exact Eval.settle_of_not_callable (hplain found rfl).not_callable
  | none =>
    rw [hbound] at hopen
    have hne : first ≠ openAttribute := hopen.resolve_right (by decide)
    rw [hbound, Option.none_or] at hplain
    dsimp only
    rw [if_neg hne, Option.none_or]
    exact Eval.settle_lookedUp
      (Eval.atIndex_of_answers fun n => answers_lookup hc (key?_int s n) rfl) hplain

/-- **Further segments** are looked up one after the other. -/
theorem Eval.segments_of_plain (h : s.PlainData v) (hrest : s.Attributeless v rest) :
    rest.foldlM Eval.segment v s = Eval.read (fun _ => rest.foldlM s.next v) s := by
  induction rest generalizing v with
  | nil => rfl
  | cons segment rest ih =>
    obtain ⟨hattribute, hfurther⟩ := hrest
    have hsegment := Eval.segment_of_plain h hattribute
    rw [List.foldlM_cons, List.foldlM_cons, Store.next]
    cases hheld : s.held? v segment with
    | none =>
      rw [hheld] at hsegment
      exact bind_of_error hsegment
    | some found =>
      rw [hheld] at hsegment
      exact (bind_of_ok hsegment).trans (ih (h.held? hheld) (hfurther found hheld))

/-- Only a lookup fails on the way. -/
theorem kind_of_lookedUp {within : Subject} {o : Option Value} {cause : Cause}
    (h : lookedUp segment within o = .error cause) : cause.kind = .missingVariable := by
  cases o with
  | some found => cases h
  | none =>
    cases h
    rfl

theorem Store.kind_of_segments {cause : Cause} (h : rest.foldlM s.next v = .error cause) :
    cause.kind = .missingVariable := by
  induction rest generalizing v with
  | nil => cases h
  | cons segment rest ih =>
    rw [List.foldlM_cons] at h
    cases hnext : s.next v segment with
    | error cause' =>
      rw [hnext] at h
      cases h
      exact kind_of_lookedUp hnext
    | ok found =>
      rw [hnext] at h
      exact ih h

theorem Scopes.kind_of_follow {cause : Cause} (h : c.follow s first rest = .error cause) :
    cause.kind = .missingVariable := by
  unfold follow at h
  cases hfirst : lookedUp first (.scopes c) (c.named? s first) with
  | error cause' =>
    rw [hfirst] at h
    cases h
    exact kind_of_lookedUp hfirst
  | ok v =>
    rw [hfirst] at h
    exact Store.kind_of_segments h

/-- An operand leads to a value, or its lookup fails; a failure is read as nothing where that is
allowed. -/
def Operand.Leads (o : Operand) (c : Scopes) (s s' : Store) : Except Cause Value → Prop
  | .ok v => o.resolve c s = .ok v s' ∧ o.resolveOrNone c s = .ok v s'
  | .error cause => cause.kind = .missingVariable ∧
      o.resolve c s = .error (Error.of cause) s' ∧ o.resolveOrNone c s = .ok .none s'

theorem Operand.leads_of_resolve {o : Operand} {s' : Store} {r : Except Cause Value}
    (h : o.resolve c s = Eval.read (fun _ => r) s')
    (hkind : ∀ cause, r = .error cause → cause.kind = .missingVariable) : o.Leads c s s' r := by
  cases r with
  | ok v => exact ⟨h, Eval.orNone_of_ok h⟩
  | error cause => exact ⟨hkind cause rfl, h, Eval.orNone_of_error h (hkind cause rfl)⟩

/-- **Following a path.**  In layers of plain data an operand that is a path leads where its
segments do, if none of them is an attribute of the value that it is looked up in: the first one to
what the layers bind, each further one to what the value holds for it.  Where there is nothing the
lookup fails, and nothing else ever does; the store stays as it is.  Only if nothing is bound to
`openAttribute` a path that starts with it is found nevertheless: it goes on from an empty
mapping. -/
theorem Operand.resolve_path {o : Operand} (ho : o.form = .path (first :: rest))
    (hc : c.PlainData s) :
    ((first ≠ openAttribute ∨ (c.bound? s (.text first)).isSome) →
      (∀ v, c.named? s first = some v → s.Attributeless v rest) →
        o.Leads c s s (c.follow s first rest)) ∧
    (first = openAttribute → c.bound? s (.text first) = none →
      ∀ v s', s.newDict [] = (v, s') → s'.Attributeless v rest →
        o.Leads c s s' (rest.foldlM s'.next v)) := by
  have hresolve : o.resolve c = (do
      let v ← c.segment first
      rest.foldlM Eval.segment v) := by
    unfold resolve
    rw [ho]
    rfl
  constructor
  · intro hopen hattributes
    refine leads_of_resolve ?_ fun cause => Scopes.kind_of_follow
    have hfirst := Scopes.segment_of_plain hc hopen
    rw [hresolve]
    unfold Scopes.follow
    cases hnamed : c.named? s first with
    | none =>
      rw [hnamed] at hfirst
      exact bind_of_error hfirst
    | some v =>
      rw [hnamed] at hfirst
      exact (bind_of_ok hfirst).trans
        (Eval.segments_of_plain (hc.named? hnamed) (hattributes v hnamed))
  · rintro rfl hbound v s' hnew hattributes
    refine leads_of_resolve ?_ fun cause => Store.kind_of_segments
    have hfirst : c.segment openAttribute s = .ok v s' := by
      have hanswers : Eval.Answers passesToAttributes (c.lookup (.plain openAttribute)) s
          (c.bound? s (.text openAttribute)) :=
        Scopes.answers_lookup hc (key?_plain s openAttribute) rfl
      rw [hbound] at hanswers
      unfold Scopes.segment
      rw [bind_of_ok hanswers.unless]
      dsimp only
      rw [if_pos rfl]
      exact congrArg (fun p : Value × Store => EStateM.Result.ok p.1 p.2) hnew
    have hentries : s'.dict s.dicts.size = [] := by
      cases hnew
      simp [Store.dict]
    have hv : s'.PlainData v := by
      cases hnew
      refine .dict fun e he => ?_
      rw [hentries] at he
      exact absurd he List.not_mem_nil
    rw [hresolve]
    exact (bind_of_ok hfirst).trans (Eval.segments_of_plain hv hattributes)

end Paths

/-- A store with a list of one text, and a mapping that binds a name to the list. -/
def Store.nested : Store :=
  { Store.empty with
    lists := #[[.plain "xy"]]
    dicts := #[[⟨.text "a", .plain "a", .list 0⟩]] }

theorem Scopes.plainData_nested : (ofRoot (.dict 0)).PlainData .nested := by
  have hlist : Store.nested.PlainData (.list 0) :=
    .list fun v hv => List.mem_singleton.mp hv ▸ .text "xy" false
  refine ⟨⟨0, rfl⟩, fun layer hlayer e he => ?_⟩
  simp only [layers, ofRoot, List.nil_append, List.mem_cons, List.not_mem_nil, or_false] at hlayer
  rcases hlayer with rfl | rfl
  · exact List.mem_singleton.mp he ▸ hlist
  · rw [constants_eq] at he
    simp only [List.mem_cons, List.not_mem_nil, or_false] at he
    rcases he with rfl | rfl | rfl
    · exact .bool true
    · exact .bool false
    · exact .none

/-- A name, an element of a list, and a character of a text. -/
theorem Operand.resolve_path_nested :
    Operand.read "a.0.1".toList = .ok ⟨"a.0.1", .path ["a", "0", "1"]⟩ ∧
      Leads ⟨"a.0.1", .path ["a", "0", "1"]⟩ (.ofRoot (.dict 0)) .nested .nested
        (.ok (.plain "y")) := by
  refine ⟨by decide +kernel, ?_⟩
  have hfollow : (Scopes.ofRoot (.dict 0)).follow .nested "a" ["0", "1"] = .ok (.plain "y") := by
    decide +kernel
  rw [← hfollow]
  refine (resolve_path rfl Scopes.plainData_nested).1 (.inl (by decide)) fun v hv => ?_
  have ha : (Scopes.ofRoot (.dict 0)).named? .nested "a" = some (.list 0) := by decide +kernel
  have hfirst : Store.nested.held? (.list 0) "0" = some (.plain "xy") := by decide +kernel
  cases Option.some.inj (ha.symm.trans hv)
  refine ⟨rfl, fun v hv => ?_⟩
  cases Option.some.inj (hfirst.symm.trans hv)
  exact ⟨rfl, fun _ _ => trivial⟩

/-- **One name is found although nothing is bound to it.** -/
theorem Operand.open_attribute_resolves :
    Operand.read "__annotations__".toList = .ok ⟨"__annotations__", .path ["__annotations__"]⟩ ∧
      (Scopes.ofRoot (.dict 0)).PlainData .nested ∧
      (Scopes.ofRoot (.dict 0)).named? .nested "__annotations__" = none ∧
      ∃ s', resolve ⟨"__annotations__", .path ["__annotations__"]⟩ (.ofRoot (.dict 0)) .nested =
        .ok (.dict 1) s' :=
  ⟨by decide +kernel, Scopes.plainData_nested, by decide +kernel, _, rfl⟩

end TextTemplate
