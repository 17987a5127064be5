/-
# What a template can read

A template notes the variables of its expressions when it is compiled.  In a context with a root
layer alone it reads nothing else in that layer but the first segments of these names, the same
segments as integers, and the counters of its cycles: `Template.Reads`.

So two contexts that bind these keys alike cannot be told apart (`Template.render_agree`): the
template gives the same output in both, or fails with the same error.  This takes root layers that
values lead to alike, and two renderings that begin in one state; `Template.agreeing_told_apart`
has examples for both.

The whole of Mathlib is imported: the examples are run by `cbv`, and the equations of the functions
that they go through come from many of its parts.
-/
import Mathlib
import TextTemplate.Proofs.Likeness.Execution
import TextTemplate.Proofs.Likeness.Sharing
import TextTemplate.Proofs.Run.Layers
import TextTemplate.Proofs.Safety.Autoescape

namespace TextTemplate

open Correspondence Likeness Relator TextTemplate.Outcome TextTemplate.Text

/-! ## 1. The variables of an expression -/

/-- The first segment of the name that a variable is reduced to. -/
def firstSegment (name : String) : String :=
  String.ofList ((splitAt '.' (plainName name.toList)).headD [])

/-- A path that has been read is made up of the segments of its text. -/
theorem Operand.path_of_read {cs : List Char} {o : Operand} (h : Operand.read cs = .ok o)
    {segments : List String} (hform : o.form = .path segments) :
    segments = (splitAt '.' (plainName o.text.toList)).map String.ofList := by
  have hmade : ∀ {form : OperandForm},
      (Except.ok ⟨String.ofList (strip cs), form⟩ : Except Cause Operand) = .ok o →
        o = ⟨String.ofList (strip cs), .path segments⟩ ∧ form = .path segments := by
    rintro form hok
    cases hok
    dsimp only at hform
    exact ⟨by rw [hform], hform⟩
  unfold Operand.read at h
  dsimp only at h
  split at h
  · exact nomatch (hmade h).2
  · split at h
    · obtain ⟨form, hn, h⟩ := except_bind_eq_ok h
      obtain ⟨n, -, rfl⟩ := except_map_eq_ok hn
      exact nomatch (hmade h).2
    · split at h
      · obtain ⟨a, -, h⟩ := except_bind_eq_ok h
        obtain ⟨b, -, h⟩ := except_bind_eq_ok h
        exact nomatch (hmade h).2
      · split at h
        · cases h
        · obtain ⟨rfl, hpath⟩ := hmade h
          cases hpath
          dsimp only
          rw [String.toList_ofList]

/-- An operand that has been read reads the first segment of its text at most. -/
theorem Operand.within_of_read {cs : List Char} {o : Operand} (h : Operand.read cs = .ok o)
    {reads : Value → Prop}
    (hreads : o.reference? = some o.text → SegmentWithin reads (firstSegment o.text)) :
    o.Within reads := by
  unfold Operand.Within
  cases hform : o.form with
  | path segments =>
    cases segments with
    | nil => trivial
    | cons first rest =>
      have hreference : o.reference? = some o.text := by
        unfold Operand.reference?
        rw [hform]
      have hsegments := Operand.path_of_read h hform
      have hfirst : first = firstSegment o.text := by
        unfold firstSegment
        generalize splitAt '.' (plainName o.text.toList) = rows at hsegments
        cases rows with
        | nil => cases hsegments
        | cons row _ => exact (List.cons.inj hsegments).1
      exact hfirst ▸ hreads hreference
  | _ => trivial

theorem Expression.argument_of_read {cs : List Char} {a : Application}
    (h : Expression.readApplication cs = .ok (some a)) {o : Operand} (ho : a.argument = some o) :
    ∃ cs', Operand.read cs' = .ok o := by
  unfold Expression.readApplication at h
  dsimp only at h
  split at h
  · cases h
  · split at h
    · cases h
      cases ho
    · obtain ⟨operand, hread, h⟩ := except_bind_eq_ok h
      cases h
      cases ho
      exact ⟨_, hread⟩

/-- The results of reading several texts have been read. -/
theorem exists_read_of_mapM {α β : Type} {f : α → Except Cause β} : ∀ {xs : List α} {ys : List β},
    xs.mapM f = .ok ys → ∀ y ∈ ys, ∃ x ∈ xs, f x = .ok y
  | [], ys, h => by
    cases h
    exact fun y hy => absurd hy List.not_mem_nil
  | x :: xs, ys, h => by
    rw [List.mapM_cons] at h
    obtain ⟨y, hy, h⟩ := except_bind_eq_ok h
    obtain ⟨rest, hrest, h⟩ := except_bind_eq_ok h
    cases h
    refine List.forall_mem_cons.mpr ⟨⟨x, List.mem_cons_self, hy⟩, fun y' hy' => ?_⟩
    obtain ⟨x', hx', hread⟩ := exists_read_of_mapM hrest y' hy'
    exact ⟨x', List.mem_cons_of_mem x hx', hread⟩

/-- The operands of an expression that has been read have been read. -/
theorem Expression.operands_of_read {cs : List Char} {e : Expression}
    (h : Expression.read cs = .ok e) :
    (∃ cs', Operand.read cs' = .ok e.base) ∧
      ∀ a ∈ e.filters, ∀ o, a.argument = some o → ∃ cs', Operand.read cs' = .ok o := by
  unfold Expression.read at h
  dsimp only at h
  split at h
  · cases h
  · split at h
    · cases h
    · obtain ⟨operand, hread, h⟩ := except_bind_eq_ok h
      obtain ⟨applications, hall, h⟩ := except_bind_eq_ok h
      cases h
      refine ⟨⟨_, hread⟩, fun a ha o ho => ?_⟩
      obtain ⟨application, hmem, rfl⟩ := List.mem_filterMap.mp ha
      obtain ⟨cs', -, hcs'⟩ := exists_read_of_mapM hall _ hmem
      exact Expression.argument_of_read hcs' ho

/-- **An expression reads the first segments of its variables at most.** -/
theorem Expression.From.within {names : List String} {e : Expression} (h : e.From names)
    {reads : Value → Prop} (hreads : ∀ name ∈ names, SegmentWithin reads (firstSegment name)) :
    e.Within reads := by
  obtain ⟨cs, hread⟩ := h.read
  obtain ⟨⟨_, hbase⟩, harguments⟩ := Expression.operands_of_read hread
  have hnames := h.references
  unfold Expression.references at hnames
  constructor
  · refine Operand.within_of_read hbase fun hreference => hreads _ (hnames _ ?_)
    exact List.mem_append_left _ (Option.mem_toList.mpr hreference)
  · intro a ha o ho
    obtain ⟨_, hargument⟩ := harguments a ha o ho
    refine Operand.within_of_read hargument fun hreference => hreads _ (hnames _ ?_)
    refine List.mem_append_right _ (List.mem_flatMap.mpr ⟨a, ha, Option.mem_toList.mpr ?_⟩)
    rw [ho]
    exact hreference

/-! ## 2. A mapping as the root layer -/

namespace Scopes

theorem contains_dict {s : Store} {r : Ref} {name : Value} {k : Key} (hk : s.key? name = .ok k) :
    Eval.contains (.dict r) name s = .ok ((s.dict r).find? k).isSome s := by
  unfold Eval.contains
  rw [bind_of_ok (get_apply s), hk]
  rfl

theorem item_dict {s : Store} {r : Ref} {name v : Value} {k : Key} (hk : s.key? name = .ok k)
    (hv : (s.dict r).find? k = some v) : s.item (.dict r) name = .ok v := by
  unfold Store.item
  rw [hk]
  dsimp only
  rw [hv]

/-- **A name is looked up in the root layer and then among the constants.** -/
theorem lookup_dict {s : Store} {r : Ref} {name : Value} {k : Key} (hk : s.key? name = .ok k) :
    (ofRoot (.dict r)).lookup name s = (match ((s.dict r).find? k).or (constants.find? k) with
      | some v => pure v
      | none => Eval.fail (.missingKey name)) s := by
  rw [lookup_ofRoot _ hk]
  unfold inRoot
  rw [bind_of_ok (contains_dict hk)]
  cases hv : (s.dict r).find? k with
  | some v => exact Eval.read_of_ok (item_dict hk hv)
  | none => rfl

end Scopes

/-- The keys are those of names: texts and integers. -/
def Key.IsName : Key → Prop
  | .text _ | .int _ => True
  | _ => False

theorem Key.IsName.like {k : Key} (h : k.IsName) {C : Correspondence} : C.LikeKey k k := by
  cases k with
  | text t => exact .text t
  | int n => exact .int n
  | _ => exact h.elim

namespace Correspondence

/-- Two mappings bind some keys alike: to values that are alike, or both to none. -/
def BindAlike (C : Correspondence) (K : Key → Prop) (d d' : Dict) : Prop :=
  ∀ k, K k → Option.Rel C.Like (d.find? k) (d'.find? k)

/-- Two mappings agree on some names, as the root layers of two contexts in one store: they bind
these alike, with the same sharing between the values. -/
structure AgreesOn (C : Correspondence) (s : Store) (r r' : Ref) (K : Key → Prop) : Prop where
  shared : C.Matches s
  root : r < s.dicts.size
  root' : r' < s.dicts.size
  names : ∀ k, K k → k.IsName
  alike : C.BindAlike K (s.dict r) (s.dict r')

/-- The values lead to one mapping where those that they are like lead to the other one. -/
def PairsRoots (C : Correspondence) (r r' : Ref) : Prop :=
  ∀ {q q'}, C.mappings q q' → (q = r ↔ q' = r')

/-- Two mappings agree on some names, and the sharing between the values takes in the mappings
themselves. -/
structure Agrees (C : Correspondence) (s : Store) (r r' : Ref) (K : Key → Prop) : Prop
    extends C.AgreesOn s r r' K where
  apart : C.PairsRoots r r'

variable {C : Correspondence} {K : Key → Prop} {d d' : Dict}

theorem BindAlike.of_likeDict (h : C.LikeDict d d') (hK : ∀ k, K k → k.IsName) :
    C.BindAlike K d d' := fun k hk => h.find? (hK k hk).like

/-- Mappings that bind some keys alike do so behind writing a name in both. -/
theorem BindAlike.insert (h : C.BindAlike K d d') {k : Key} {l l' v v' : Value}
    (hv : C.Like v v') : C.BindAlike K (d.insert k l v) (d'.insert k l' v') := by
  intro k' hk'
  by_cases hkk : k = k'
  · subst hkk
    rw [Dict.find?_insert_self, Dict.find?_insert_self]
    exact .some hv
  · rw [Dict.find?_insert_ne _ _ _ hkk, Dict.find?_insert_ne _ _ _ hkk]
    exact h k' hk'

end Correspondence

section Roots

variable {C : Correspondence} {s : Store} {r r' : Ref} {K : Key → Prop}

namespace Correspondence.Agrees

/-- Mappings that are paired are both the roots, or none of them is. -/
theorem apart_extend (h : C.Agrees s r r' K) {q q' : Ref}
    (hq : (C.extend s h.shared).mappings q q') : q = r ↔ q' = r' := by
  rcases hq with hq | ⟨rfl, hfresh⟩
  · exact h.apart hq
  · constructor
    · rintro rfl
      exact absurd h.root (Nat.not_lt.mpr hfresh)
    · rintro rfl
      exact absurd h.root' (Nat.not_lt.mpr hfresh)

/-- Two runs that begin in one store, over root layers that agree on some names. -/
def likeness (h : C.Agrees s r r' K) : Likeness where
  toCorrespondence := C.extend s h.shared
  rest s₁ s₂ := r < s₁.dicts.size ∧ r' < s₂.dicts.size ∧
    (C.extend s h.shared).BindAlike K (s₁.dict r) (s₂.dict r')
  rest_setList hrest _ _ := hrest
  rest_setDict := by
    rintro s₁ s₂ q q' d d' ⟨hr, hr', halike⟩ hq hd
    have hsame := h.apart_extend ((C.extend s h.shared).mappings_of_dicts hq)
    refine ⟨?_, ?_, ?_⟩
    · rwa [Store.setDict, Array.size_setIfInBounds]
    · rwa [Store.setDict, Array.size_setIfInBounds]
    · rw [Store.dict_setDict, Store.dict_setDict]
      by_cases hqr : q = r
      · rw [if_pos ⟨hqr, hr⟩, if_pos ⟨hsame.mp hqr, hr'⟩]
        exact .of_likeDict hd h.names
      · rw [if_neg fun e => hqr e.1, if_neg fun e => hqr (hsame.mpr e.1)]
        exact halike
  rest_newList hrest _ := hrest
  rest_newTuple hrest _ := hrest
  rest_newDict := by
    rintro s₁ s₂ d d' ⟨hr, hr', halike⟩ -
    refine ⟨?_, ?_, ?_⟩
    · exact Nat.lt_of_lt_of_le hr (by simp [Store.newDict])
    · exact Nat.lt_of_lt_of_le hr' (by simp [Store.newDict])
    · rw [Store.dict_newDict hr, Store.dict_newDict hr']
      exact halike
  rest_newIdentity hrest := hrest

/-- In the beginning the store is like itself. -/
theorem holds (h : C.Agrees s r r' K) : h.likeness.Holds s s := by
  refine Likeness.holds_extend h.shared rfl ⟨h.root, h.root', fun k hk => ?_⟩
  exact optionRel_mono (fun _ _ hv => hv.mono (below_extend h.shared)) (h.alike k hk)

/-- **Writing a name in both root layers** keeps the stores alike. -/
theorem writeRoot (h : C.Agrees s r r' K) {s₁ s₂ : Store} (hs : h.likeness.Holds s₁ s₂)
    {name : String} {v v' : Value} (hv : h.likeness.Like v v') :
    h.likeness.Holds (s₁.setDict r ((s₁.dict r).insert (.text name) (.plain name) v))
      (s₂.setDict r' ((s₂.dict r').insert (.text name) (.plain name) v')) := by
  have hrest := hs.rest
  refine { hs with dicts := ?_, depth := ?_, rest := ⟨?_, ?_, ?_⟩ }
  · by_cases hm : h.likeness.mappings r r'
    · exact hs.dicts.set h.likeness.mappings_unique h.likeness.mappings_of_dicts hm
        ((hs.dict hm).insert (.text name) (.plain name) hv)
    · refine hs.dicts.set_hidden (fun q hq => hm ?_) fun q hq => hm ?_
      · exact (h.apart_extend hq).mp rfl ▸ hq
      · exact (h.apart_extend hq).mpr rfl ▸ hq
  · have := hs.depth
    simp only [Store.depth, Store.setDict, Array.size_setIfInBounds] at this ⊢
    exact this
  · rw [Store.setDict, Array.size_setIfInBounds]
    exact hrest.1
  · rw [Store.setDict, Array.size_setIfInBounds]
    exact hrest.2.1
  · rw [Store.dict_setDict, Store.dict_setDict, if_pos ⟨rfl, hrest.1⟩, if_pos ⟨rfl, hrest.2.1⟩]
    exact hrest.2.2.insert hv

/-- The value is a name that has one of the keys. -/
inductive Named (K : Key → Prop) : Value → Prop where
  | text {name : String} (key : K (.text name)) : Named K (.plain name)
  | int {n : Int} (key : K (.int n)) : Named K (.int n)

/-- Names that both root layers bind alike are looked up alike. -/
theorem lookup (h : C.Agrees s r r' K) {name : Value} {k : Key} (hK : K k)
    (hk : ∀ s : Store, s.key? name = .ok k) (hname : h.likeness.Like name name) :
    h.likeness.Alike h.likeness.Like ((Scopes.ofRoot (.dict r)).lookup name)
      ((Scopes.ofRoot (.dict r')).lookup name) := by
  intro s₁ s₂ hs
  rw [Scopes.lookup_dict (hk s₁), Scopes.lookup_dict (hk s₂)]
  have hbound := hs.rest.2.2 k hK
  generalize (s₁.dict r).find? k = o, (s₂.dict r').find? k = o' at hbound
  cases hbound with
  | some hv => exact .ok hs hv
  | none =>
    rw [Option.none_or]
    cases hc : Scopes.constants.find? k with
    | some v => exact .ok hs (constants_like hc)
    | none => exact .error hs (.of (.missingKey hname))

/-- The root layers: the names that they agree on are read, and any name may be written. -/
def roots (h : C.Agrees s r r' K) : h.likeness.Roots where
  root := .dict r
  root' := .dict r'
  reads := Named K
  writes _ := True
  hashable := by
    rintro name (hk | hk)
    · exact ⟨_, fun _ => ⟨rfl, .text _⟩⟩
    · exact ⟨_, fun _ => ⟨rfl, .int _⟩⟩
  lookup := by
    rintro name (hk | hk)
    · exact h.lookup hk (fun _ => rfl) (.plain _)
    · exact h.lookup hk (fun _ => rfl) (.int _)
  write := fun _ hv => .bind .get fun _ _ hs => .set (h.writeRoot hs hv) trivial

end Correspondence.Agrees

end Roots

/-! ## 3. Rendering -/

/-- The keys of the root layer that a template can read: the first segments of its variables, as
names and as integers, and the counters of its cycles. -/
inductive Template.Reads (t : Template) : Key → Prop where
  | name {name : String} (noted : name ∈ t.references) : Reads t (.text (firstSegment name))
  | index {name : String} {n : Int} (noted : name ∈ t.references)
      (integer : segmentIndex? (firstSegment name) = some n) : Reads t (.int n)
  | counter {values : List Expression} {counter : String} {i : Linked} (here : i ∈ t.program.code)
      (cycle : i.instruction = .cycle values counter) : Reads t (.text counter)

namespace Template

variable {t : Template} {engine : Engine} {name : Option String} {source : Value} {o : Overrides}
  {s s₀ s₁ : Store} {r r' : Ref} {C : Correspondence}

/-- **A template of the standard tags reads the keys that it notes, and nothing else.** -/
theorem within (ht : compile engine name source o s₀ = .ok t s₁)
    (htags : t.grammar.tags = Tag.standard) (h : C.Agrees s r r' t.Reads) :
    ∀ i ∈ t.program.code, i.instruction.Within h.roots ∧ ∀ e, i.instruction ≠ .nested e := by
  have hemitted := emitted ht (htags ▸ ordinaryTags_standard)
  obtain ⟨s₂, c, hp, -, -⟩ := program_of_compile ht
  rw [htags] at hp
  have hsegment : ∀ n ∈ t.references, SegmentWithin h.roots.reads (firstSegment n) := fun n hn =>
    ⟨.text (.name hn), fun _ hi => .int (.index hn hi)⟩
  intro i hi
  have hmem : i.instruction ∈ t.program.code.toList.map (·.instruction) :=
    List.mem_map_of_mem hi.val
  have hordinary := Compile.ordinary_of_program hp i hi
  refine ⟨⟨?_, ?_, ?_⟩, ?_⟩
  · exact fun e he => (hemitted.expressions _ hmem e he).within hsegment
  · exact fun values counter hcycle => ⟨.text (.counter hi hcycle), trivial⟩
  · intro n v hassign
    obtain ⟨number, rfl⟩ := hemitted.assigned _ hmem n v hassign
    exact ⟨trivial, .int number⟩
  · intro e hnested
    rw [hnested] at hordinary
    exact hordinary

/-- Two errors are the same to one who sees them from outside, each in its store: they are alike,
and their wording is the same. -/
structure SameFailure (C : Correspondence) (s s' : Store) (e e' : Error) : Prop
    extends C.LikeError e e' where
  wording : e.cause.message? s = e'.cause.message? s'

/-- Two renderings cannot be told apart: they give the same output, or fail with the same
error. -/
inductive SameRendering (C : Correspondence) :
    Except Error Value × Context × Store → Except Error Value × Context × Store → Prop where
  | output {v : Value} {c c' : Context} {s s' : Store} :
      SameRendering C (.ok v, c, s) (.ok v, c', s')
  | failure {e e' : Error} {c c' : Context} {s s' : Store} (same : SameFailure C s s' e e') :
      SameRendering C (.error e, c, s) (.error e', c', s')

section Render

variable {settings settings' : RenderSettings}

/-- **Two runs of a template**, over root layers that agree on the keys which it notes. -/
theorem runWithin_alike (ht : compile engine name source o s₀ = .ok t s₁)
    (htags : t.grammar.tags = Tag.standard) (hfilters : t.grammar.filters = Filter.standard)
    (h : C.Agrees s r r' t.Reads) (levels : Nat)
    (hescape : C.Like settings.autoescape settings'.autoescape) :
    SameWorld h.roots Eq
      (runWithin levels t settings.autoescape
        ⟨Context.boundTo ⟨.ofRoot (.dict r), some settings⟩ t, s⟩)
      (runWithin levels t settings'.autoescape
        ⟨Context.boundTo ⟨.ofRoot (.dict r'), some settings'⟩ t, s⟩) := by
  have henv : LikeEnvironment h.likeness
      (t.environment settings.autoescape (nestedWithin levels t settings.autoescape))
      (t.environment settings'.autoescape (nestedWithin levels t settings'.autoescape)) :=
    environment_alike t (hfilters ▸ uniformFilters_standard)
      (fun _ _ hs => truth_eq hs (hescape.mono (below_extend h.shared))) _ _
  have hworld : LikeWorld h.roots ⟨⟨.ofRoot (.dict r), some settings⟩, s⟩
      ⟨⟨.ofRoot (.dict r'), some settings'⟩, s⟩ := ⟨h.holds, ⟨rfl, rfl, .nil⟩, rfl⟩
  rw [runWithin_eq, runWithin_eq]
  exact run_alike henv (within ht htags h) (fun _ => trivial) (hworld.boundTo t)

/-- **A template cannot tell two contexts apart that agree on the keys which it notes.**  Take a
template of the standard tags and filters, and two contexts with a root layer each and the same
choice whether output is escaped.  If the root layers agree on the first segments of the
template's variables, as names and as integers, and on the counters of its cycles, and values lead
to them alike, the template gives the same output in both contexts from one state, or fails with
the same error. -/
theorem render_agree (ht : compile engine name source o s₀ = .ok t s₁)
    (htags : t.grammar.tags = Tag.standard) (hfilters : t.grammar.filters = Filter.standard)
    (hagree : C.AgreesOn s r r' t.Reads) (hroots : C.PairsRoots r r')
    (hescape : C.Like settings.autoescape settings'.autoescape) :
    ∃ D, C.Below D ∧ SameRendering D (t.render ⟨.ofRoot (.dict r), some settings⟩ s)
      (t.render ⟨.ofRoot (.dict r'), some settings'⟩ s) := by
  have h : C.Agrees s r r' t.Reads := { hagree with apart := hroots }
  have hr := runWithin_alike ht htags hfilters h maxLevels hescape
  refine ⟨h.likeness.toCorrespondence, below_extend h.shared, ?_⟩
  generalize hx : runWithin maxLevels t settings.autoescape _ = x,
    hx' : runWithin maxLevels t settings'.autoescape _ = x' at hr
  cases hr with
  | ok world like =>
    obtain ⟨c, -, hrender⟩ := render_of_ok (c := ⟨.ofRoot (.dict r), some settings⟩) rfl hx
    obtain ⟨c', -, hrender'⟩ := render_of_ok (c := ⟨.ofRoot (.dict r'), some settings'⟩) rfl hx'
    rw [hrender, hrender', like]
    exact .output
  | error world like =>
    obtain ⟨c, -, hrender⟩ := render_of_error (c := ⟨.ofRoot (.dict r), some settings⟩) rfl hx
    obtain ⟨c', -, hrender'⟩ :=
      render_of_error (c := ⟨.ofRoot (.dict r'), some settings'⟩) rfl hx'
    rw [hrender, hrender']
    exact .failure ⟨like, message?_eq world.store like.cause⟩

end Render

/-- The variables of what a compilation gives, and whether it has no cycle. -/
def noted : EStateM.Result Error Store Template → Option (List String × Bool)
  | .ok t _ =>
    some (t.references, t.program.code.toList.all fun i => !(i.instruction matches .cycle ..))
  | .error .. => none

/-- A store with two lists of the same items and two mappings: in both mappings `x` is one of the
lists, but `y` is not the same. -/
def twoRoots : Store :=
  { Store.empty with
    lists := #[[.plain "a", .plain "b"], [.plain "a", .plain "b"]]
    dicts := #[.ofBindings [("x", .list 0), ("y", .int 1)],
      .ofBindings [("y", .int 2), ("x", .list 1)]] }

/-- The first list is paired with the second one. -/
def twoLists : Correspondence where
  rows r r' := r = 0 ∧ r' = 1
  lists r r' := r = 0 ∧ r' = 1
  tuples _ _ := False
  mappings _ _ := False
  dicts _ _ := False
  marks _ _ := False
  objects _ _ := False
  identities _ _ := False
  rows_unique := ⟨fun _ _ _ h h' => h.1.trans h'.1.symm, fun _ _ _ h h' => h.2.trans h'.2.symm⟩
  tuples_unique := ⟨fun _ _ _ h => h.elim, fun _ _ _ h => h.elim⟩
  mappings_unique := ⟨fun _ _ _ h => h.elim, fun _ _ _ h => h.elim⟩
  marks_unique := ⟨fun _ _ _ h => h.elim, fun _ _ _ h => h.elim⟩
  identities_unique := ⟨fun _ _ _ h => h.elim, fun _ _ _ h => h.elim⟩
  rows_of_lists := id
  mappings_of_dicts := id
  marks_of_objects := id

theorem twoLists_matches : twoLists.Matches twoRoots where
  rows := by
    rintro _ _ ⟨rfl, rfl⟩
    decide
  tuples := False.elim
  mappings := False.elim
  identities := False.elim
  list := by
    rintro _ _ ⟨rfl, rfl⟩
    exact .cons (.plain "a") (.cons (.plain "b") .nil)
  tuple := False.elim
  dict := False.elim
  object := False.elim

/-- The two mappings agree on the names that a loop over `x` reads. -/
theorem twoRoots_agree {t : Template} (hnames : t.references = ["x", "a"])
    (hcycle : ∀ i ∈ t.program.code, ∀ values counter, i.instruction ≠ .cycle values counter) :
    twoLists.AgreesOn twoRoots 0 1 t.Reads where
  shared := twoLists_matches
  root := by decide
  root' := by decide
  names := by
    rintro _ (_ | _ | _) <;> trivial
  alike := by
    rintro _ (hn | ⟨hn, hi⟩ | ⟨here, hi⟩)
    · rw [hnames] at hn
      simp only [List.mem_cons, List.not_mem_nil, or_false] at hn
      rcases hn with rfl | rfl
      · exact .some (.list ⟨rfl, rfl⟩)
      · exact .none
    · rw [hnames] at hn
      simp only [List.mem_cons, List.not_mem_nil, or_false] at hn
      have hnone : ∀ n ∈ ["x", "a"], segmentIndex? (firstSegment n) = none := by decide +kernel
      rcases hn with rfl | rfl
      · exact absurd (hi.symm.trans (hnone "x" (by decide))) nofun
      · exact absurd (hi.symm.trans (hnone "a" (by decide))) nofun
    · exact absurd hi (hcycle _ here _ _)

/-- The usual settings of a rendering. -/
def usualSettings : RenderSettings := ⟨.bool true, none, none⟩

/-- A loop over `x` does not tell two contexts apart that differ at `y`. -/
theorem render_agree_loop : ∃ t s₁,
    compile .standard none (.plain "\x7b% for a in x %\x7d\x7b\x7b a \x7d\x7d\x7b% endfor %\x7d")
      .empty .empty = .ok t s₁ ∧
    twoLists.AgreesOn twoRoots 0 1 t.Reads ∧ twoLists.PairsRoots 0 1 ∧
    (twoRoots.dict 0).find? (.text "y") ≠ (twoRoots.dict 1).find? (.text "y") ∧
    ∃ D, twoLists.Below D ∧
      SameRendering D (t.render ⟨.ofRoot (.dict 0), some usualSettings⟩ twoRoots)
        (t.render ⟨.ofRoot (.dict 1), some usualSettings⟩ twoRoots) := by
  have hnoted : noted (compile .standard none
      (.plain "\x7b% for a in x %\x7d\x7b\x7b a \x7d\x7d\x7b% endfor %\x7d") .empty .empty) =
        some (["x", "a"], true) := by decide +kernel
  generalize hc : compile .standard none _ _ _ = result at hnoted
  cases result with
  | error e s => cases hnoted
  | ok t s₁ =>
    obtain ⟨-, hgrammar⟩ := grammar_of_compile hc
    obtain ⟨hnames, hall⟩ := Prod.mk.inj (Option.some.inj hnoted)
    have hcycle : ∀ i ∈ t.program.code, ∀ values counter,
        i.instruction ≠ .cycle values counter := by
      intro i hi values counter hins
      have hno := List.all_eq_true.mp hall i hi.val
      rw [hins] at hno
      cases hno
    have hagree := twoRoots_agree hnames hcycle
    exact ⟨t, s₁, rfl, hagree, False.elim, by decide +kernel,
      render_agree hc (congrArg (·.tags) hgrammar) (congrArg (·.filters) hgrammar) hagree
        False.elim (.bool true)⟩

/-- A store with a mapping that holds itself under `ctx`, and a copy of it. -/
def copiedStore : Store :=
  { Store.empty with
    dicts := #[.ofBindings [("y", .int 1), ("ctx", .dict 0)],
      .ofBindings [("y", .int 1), ("ctx", .dict 0)]] }

/-- The mapping is paired with itself. -/
def sameMapping : Correspondence where
  rows _ _ := False
  lists _ _ := False
  tuples _ _ := False
  mappings r r' := r = 0 ∧ r' = 0
  dicts r r' := r = 0 ∧ r' = 0
  marks _ _ := False
  objects _ _ := False
  identities _ _ := False
  rows_unique := ⟨fun _ _ _ h => h.elim, fun _ _ _ h => h.elim⟩
  tuples_unique := ⟨fun _ _ _ h => h.elim, fun _ _ _ h => h.elim⟩
  mappings_unique := ⟨fun _ _ _ h h' => h.1.trans h'.1.symm, fun _ _ _ h h' => h.2.trans h'.2.symm⟩
  marks_unique := ⟨fun _ _ _ h => h.elim, fun _ _ _ h => h.elim⟩
  identities_unique := ⟨fun _ _ _ h => h.elim, fun _ _ _ h => h.elim⟩
  rows_of_lists := id
  mappings_of_dicts := id
  marks_of_objects := id

theorem sameMapping_matches {s : Store} (h : sameMapping.LikeDict (s.dict 0) (s.dict 0))
    (hsize : 0 < s.dicts.size) : sameMapping.Matches s where
  rows := False.elim
  tuples := False.elim
  mappings := by
    rintro _ _ ⟨rfl, rfl⟩
    exact ⟨hsize, hsize⟩
  identities := False.elim
  list := False.elim
  tuple := False.elim
  dict := by
    rintro _ _ ⟨rfl, rfl⟩
    exact h
  object := False.elim

/-- The mapping and its copy agree on what a template reads, each with each. -/
theorem copiedStore_agrees (t : Template) {r r' : Ref} (hr : r < copiedStore.dicts.size)
    (hr' : r' < copiedStore.dicts.size) : sameMapping.AgreesOn copiedStore r r' t.Reads := by
  have hlike : sameMapping.LikeDict (copiedStore.dict 0) (copiedStore.dict 0) :=
    .cons ⟨.text "y", .plain "y", .int 1⟩
      (.cons ⟨.text "ctx", .plain "ctx", .dict ⟨rfl, rfl⟩⟩ .nil)
  have hsame : ∀ r < copiedStore.dicts.size, copiedStore.dict r = copiedStore.dict 0 := by decide
  have hnames : ∀ k, t.Reads k → k.IsName := by rintro _ (_ | _ | _) <;> trivial
  have halike : sameMapping.BindAlike t.Reads (copiedStore.dict r) (copiedStore.dict r') := by
    rw [hsame r hr, hsame r' hr']
    exact .of_likeDict hlike hnames
  exact ⟨sameMapping_matches hlike (by decide), hr, hr', hnames, halike⟩

/-- What a template gives in some contexts, one after the other. -/
def outputsIn (t : Template) : List Context → Store → List (Option Value)
  | [], _ => []
  | c :: contexts, s => (t.render c s).1.toOption :: outputsIn t contexts (t.render c s).2.2

/-- A context over a mapping alone. -/
def contextOver (r : Ref) : Context := ⟨.ofRoot (.dict r), some usualSettings⟩

/-- The source of a cycle and of a loop over what `ctx` is bound to. -/
def countingSource : Value :=
  .plain "\x7b% cycle 'a' 'b' %\x7d\x7b% for x in ctx %\x7d.\x7b% endfor %\x7d"

/-- What a template reads does not tell which mapping it is, nor what another rendering has left.
A mapping that holds itself and its copy agree on all names.  But the counter of the cycle, which is
written in the mapping, is found in a loop over `ctx`, and one that is written in the copy is not.
And the copy agrees with itself, but in the second of two contexts over it the cycle goes on where
the first one has stopped. -/
theorem agreeing_told_apart : ∃ t s₁,
    compile .standard none countingSource .empty .empty = .ok t s₁ ∧
    sameMapping.AgreesOn copiedStore 0 1 t.Reads ∧
    t.outputsIn [contextOver 0] copiedStore = [some (.markup "a...")] ∧
    t.outputsIn [contextOver 1] copiedStore = [some (.markup "a..")] ∧
    sameMapping.AgreesOn copiedStore 1 1 t.Reads ∧
    t.outputsIn [contextOver 1, contextOver 1] copiedStore =
      [some (.markup "a.."), some (.markup "b..")] := by
  have hrun : ((compile .standard none countingSource .empty).run' .empty).map (fun t =>
      (t.outputsIn [contextOver 0] copiedStore, t.outputsIn [contextOver 1] copiedStore,
        t.outputsIn [contextOver 1, contextOver 1] copiedStore)) =
      some ([some (.markup "a...")], [some (.markup "a..")],
        [some (.markup "a.."), some (.markup "b..")]) := by cbv
  obtain ⟨t, s₁, hc, hrun⟩ := exists_of_run' hrun
  obtain ⟨hmapping, hrun⟩ := Prod.mk.inj hrun
  obtain ⟨hcopy, hturns⟩ := Prod.mk.inj hrun
  exact ⟨t, s₁, hc, copiedStore_agrees t (by decide) (by decide), hmapping, hcopy,
    copiedStore_agrees t (by decide) (by decide), hturns⟩

end Template
end TextTemplate
