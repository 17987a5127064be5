/-
# Texts that are read back

A tag that binds a name and the marker that shows its value read the same text with two readers.
The tag drops what cannot stand in a name.  The marker looks for filters and for literals first,
and cuts what is left at the full stops.

* `ReadsBack` says of a text where the two agree: the name is in front of the first filter, it is no
  literal and it has no full stop;
* `ReadsBack.read` says that the marker then is that name, and `not_asks_of_read` that it does not
  ask for the name at all otherwise;
* `Expression.resolve_of_bound` and `Expression.resolve_sameBut` say what follows for its value.
-/
import TextTemplate.Proofs.Compile.Faults
import TextTemplate.Proofs.Compile.Variables
import TextTemplate.Proofs.Cycles.Names
import TextTemplate.Proofs.Expression.Pipeline

namespace TextTemplate

open Likeness TextTemplate.Outcome TextTemplate.Text

/-! ## 1. Names in texts -/

/-- The name that a tag reduces a text to. -/
def nameOf (text : List Char) : String := String.ofList (plainName text)

/-- A marker with the text is a variable of the name that a tag reduces the text to. -/
def ReadsBack (text : List Char) : Prop :=
  ∃ base specs, splitPipeline (strip text) = base :: specs ∧ plainName base = plainName text ∧
    ¬ IsLiteral (strip base) ∧ '.' ∉ plainName text

instance : DecidablePred ReadsBack := fun text =>
  match h : splitPipeline (strip text) with
  | [] => .isFalse (by
      rintro ⟨_, _, hcut, -⟩
      cases h.symm.trans hcut)
  | base :: specs => decidable_of_iff
      (plainName base = plainName text ∧ ¬ IsLiteral (strip base) ∧ '.' ∉ plainName text) (by
        constructor
        · exact fun hback => ⟨base, specs, h, hback⟩
        · rintro ⟨_, _, hcut, hback⟩
          cases h.symm.trans hcut
          exact hback)

example : ReadsBack ['a', ' ', '|'] ∧ ¬ ReadsBack ['a', '.', 'b'] ∧ ¬ ReadsBack ['1'] := by decide

/-- An operand of the expression is a path that begins with the name. -/
def Expression.Asks (name : String) (e : Expression) : Prop :=
  ∃ o ∈ e.operands, ∃ rest, o.form = .path (name :: rest)

section Texts

variable {text cs : List Char} {c : Char}

theorem isNameChar_of_isBlank (hc : isBlank c = true) : isNameChar c = false := by
  have hblank : ∀ n : Nat, c.toNat = n → n < 36 ∨ 122 < n := by
    rintro n rfl
    simp only [isBlank, decide_eq_true_eq] at hc
    omega
  have hsmall := hblank _ rfl
  rw [isNameChar, decide_eq_false_iff_not]
  rintro (⟨h, h'⟩ | ⟨h, h'⟩ | h | rfl | rfl | rfl)
  · have h : 97 ≤ c.toNat := Char.le_def.mp h
    have h' : c.toNat ≤ 122 := Char.le_def.mp h'
    omega
  · have h : 65 ≤ c.toNat := Char.le_def.mp h
    have h' : c.toNat ≤ 90 := Char.le_def.mp h'
    omega
  · rw [not_blank_of_isAsciiDigit h] at hc
    cases hc
  · cases hc
  · cases hc
  · cases hc

theorem plainName_dropWhile : ∀ cs : List Char, plainName (cs.dropWhile isBlank) = plainName cs
  | [] => rfl
  | c :: cs => by
    by_cases hc : isBlank c = true
    · rw [List.dropWhile_cons_of_pos hc, plainName_dropWhile cs, plainName, plainName,
        List.filter_cons_of_neg (by simp [isNameChar_of_isBlank hc])]
    · rw [List.dropWhile_cons_of_neg hc]

/-- The blanks at the ends of a text do not matter to its name. -/
theorem plainName_strip (cs : List Char) : plainName (strip cs) = plainName cs := by
  have hright : ∀ cs : List Char, plainName (stripRight cs) = plainName cs := fun cs => by
    have hreverse : ∀ cs : List Char, plainName cs.reverse = (plainName cs).reverse :=
      fun cs => List.filter_reverse ..
    rw [stripRight, hreverse, plainName_dropWhile, hreverse, List.reverse_reverse]
  rw [strip, hright, stripLeft, plainName_dropWhile]

/-- A part of a text has no longer name than the text. -/
theorem length_plainName_le {part : List Char} (h : part <:+: cs) :
    (plainName part).length ≤ (plainName cs).length := (h.sublist.filter _).length_le

/-- **The first segment of a path** is shorter than the name, unless the name has no separator and
is a segment by itself. -/
theorem splitAt_eq_cons (sep : Char) : ∀ cs : List Char, ∃ first rest,
    splitAt sep cs = first :: rest ∧
      (sep ∈ cs ∧ first.length < cs.length ∨ sep ∉ cs ∧ first = cs ∧ rest = [])
  | [] => ⟨[], [], rfl, .inr ⟨List.not_mem_nil, rfl, rfl⟩⟩
  | c :: cs => by
    rw [splitAt]
    split
    · rename_i hc
      exact ⟨[], _, rfl, .inl ⟨List.mem_cons.mpr (.inl hc.symm), Nat.succ_pos _⟩⟩
    · rename_i hc
      obtain ⟨first, rest, hcut, hfirst⟩ := splitAt_eq_cons sep cs
      rw [hcut]
      refine ⟨c :: first, rest, rfl, hfirst.imp ?_ ?_⟩
      · rintro ⟨hmem, hlt⟩
        exact ⟨List.mem_cons_of_mem c hmem, Nat.succ_lt_succ hlt⟩
      · rintro ⟨hsep, rfl, hrest⟩
        refine ⟨fun hmem => ?_, rfl, hrest⟩
        exact (List.mem_cons.mp hmem).elim (fun h => hc h.symm) hsep

end Texts

/-! ## 2. Reading markers -/

/-- An operand that is no literal is the path of its name. -/
theorem Operand.read_of_not_literal {cs : List Char} (h : ¬ IsLiteral (strip cs))
    (hname : plainName cs ≠ []) : Operand.read cs =
      .ok ⟨String.ofList (strip cs), .path ((splitAt '.' (plainName cs)).map String.ofList)⟩ := by
  have hconstant : constant? (strip cs) = none := by
    by_contra hc
    exact h (.inl hc)
  have hdigits : ¬(strip cs ≠ [] ∧ (strip cs).all isAsciiDigit = true) := fun hd =>
    h (.inr (.inl hd))
  have hrange : rangeEnds? (strip cs) = none := by
    by_contra hc
    exact h (.inr (.inr hc))
  unfold Operand.read
  dsimp only
  rw [hconstant]
  dsimp only
  rw [if_neg hdigits, hrange, plainName_strip]
  dsimp only
  split
  · rename_i hnil
    exact absurd hnil hname
  · rfl

/-- What stands behind the first separator gives no filter if no name is there. -/
theorem Expression.mapM_readApplication_of_nameless : ∀ {specs : List (List Char)},
    (∀ spec ∈ specs, plainName spec = []) →
      ∃ applications, specs.mapM readApplication = .ok applications ∧
        applications.filterMap id = []
  | [], _ => ⟨[], rfl, rfl⟩
  | spec :: specs, h => by
    obtain ⟨hspec, hspecs⟩ := List.forall_mem_cons.mp h
    obtain ⟨applications, hall, hnone⟩ := mapM_readApplication_of_nameless hspecs
    have hread : readApplication spec = .ok none := by
      have hfront : ((before? [':'] spec).getD (spec, [])).1 <:+: spec := by
        cases hcut : before? [':'] spec with
        | none => exact List.infix_rfl
        | some cut => exact ⟨[], _, before?_append hcut⟩
      have hname : plainName ((before? [':'] spec).getD (spec, [])).1 = [] := by
        have hle := length_plainName_le hfront
        rw [hspec] at hle
        exact List.eq_nil_of_length_eq_zero (Nat.le_zero.mp hle)
      unfold readApplication
      dsimp only
      rw [hname]
    refine ⟨none :: applications, ?_, hnone⟩
    rw [List.mapM_cons, hread, hall]
    rfl

section Markers

variable {text : List Char} {e : Expression}

/-- The name of a text is that in front of the first separator and those behind it. -/
theorem plainName_of_splitPipeline {base : List Char} {specs : List (List Char)}
    (h : splitPipeline (strip text) = base :: specs) :
    plainName text = plainName base ++ specs.flatMap plainName := by
  have hjoin : ∀ parts : List (List Char),
      plainName (['|'].intercalate parts) = parts.flatMap plainName := by
    intro parts
    induction parts with
    | nil => rfl
    | cons part parts ih =>
      cases parts with
      | nil => simp [List.intercalate, plainName]
      | cons part' parts =>
        rw [intercalate_cons (List.cons_ne_nil _ _), plainName, List.filter_append,
          List.filter_append, List.flatMap_cons]
        exact congrArg (plainName part ++ ·) ih
  have hwhole := hjoin (splitPipeline (strip text))
  rwa [intercalate_splitPipeline, plainName_strip, h, List.flatMap_cons] at hwhole

/-- **A text that is read back**: the marker is the variable of its name. -/
theorem ReadsBack.read (h : ReadsBack text) (hname : plainName text ≠ []) :
    ∃ e, Expression.read (strip text) = .ok e ∧ e.base.form = .path [nameOf text] ∧
      e.filters = [] := by
  obtain ⟨base, specs, hcut, hbase, hliteral, hdot⟩ := h
  have hspecs : ∀ spec ∈ specs, plainName spec = [] := by
    have hwhole := plainName_of_splitPipeline hcut
    rw [← hbase, List.self_eq_append_right] at hwhole
    exact List.flatMap_eq_nil_iff.mp hwhole
  obtain ⟨applications, hall, hnone⟩ := Expression.mapM_readApplication_of_nameless hspecs
  have hnot : strip base ≠ [] := by
    intro hnil
    rw [← hbase, ← plainName_strip, hnil] at hname
    exact hname rfl
  obtain ⟨first, rest, hsegments, hfirst⟩ := splitAt_eq_cons '.' (plainName base)
  obtain ⟨-, rfl, rfl⟩ := hfirst.resolve_left fun hmem => hdot (hbase ▸ hmem.1)
  refine ⟨⟨String.ofList (strip text), ⟨String.ofList (strip base), .path [nameOf text]⟩, []⟩,
    ?_, rfl, rfl⟩
  unfold Expression.read
  dsimp only
  rw [hcut]
  dsimp only
  rw [if_neg hnot, Operand.read_of_not_literal hliteral (hbase ▸ hname), hsegments, hall]
  simp only [Bind.bind, Except.bind, hnone, List.map_cons, List.map_nil, nameOf, hbase]

/-- An operand that has been read asks for no longer name than that of its text, and for a shorter
one if the text has a full stop. -/
theorem Operand.length_le_of_path {raw : List Char} {o : Operand} (h : Operand.read raw = .ok o)
    {name : String} {rest : List String} (hform : o.form = .path (name :: rest)) :
    ¬ IsLiteral (strip raw) ∧ name.toList.length ≤ (plainName raw).length ∧
      ('.' ∈ plainName raw → name.toList.length < (plainName raw).length) := by
  obtain ⟨htext, hreference⟩ := reference?_of_read h
  have hliteral : ¬ IsLiteral (strip raw) := by
    intro hliteral
    rw [if_pos hliteral, reference?, hform] at hreference
    cases hreference
  have hsegments := path_of_read h hform
  rw [htext, String.toList_ofList, plainName_strip] at hsegments
  obtain ⟨first, others, hcut, hfirst⟩ := splitAt_eq_cons '.' (plainName raw)
  rw [hcut, List.map_cons] at hsegments
  obtain rfl : name = String.ofList first := (List.cons.inj hsegments).1
  rw [String.toList_ofList]
  refine ⟨hliteral, ?_, fun hdot => ?_⟩
  · rcases hfirst with ⟨-, hlt⟩ | ⟨-, rfl, -⟩
    · exact Nat.le_of_lt hlt
    · exact Nat.le_refl _
  · rcases hfirst with ⟨-, hlt⟩ | ⟨hno, -, -⟩
    · exact hlt
    · exact absurd hdot hno

/-- The argument of a filter has a shorter name than the text of the filter: the filter has one
too. -/
theorem Expression.argument_of_readApplication {spec : List Char} {a : Application}
    (h : readApplication spec = .ok (some a)) {o : Operand} (ho : a.argument = some o) :
    ∃ raw, Operand.read raw = .ok o ∧ (plainName raw).length < (plainName spec).length := by
  unfold readApplication at h
  dsimp only at h
  cases hcut : before? [':'] spec with
  | none =>
    simp only [hcut, Option.getD_none] at h
    split at h
    · cases h
    · have hstrip : strip [] = [] := rfl
      rw [if_pos hstrip] at h
      cases h
      cases ho
  | some parts =>
    obtain ⟨front, argument⟩ := parts
    simp only [hcut, Option.getD_some] at h
    have hwhole : plainName spec = plainName front ++ plainName argument := by
      rw [← before?_append hcut, plainName, List.filter_append, List.filter_append]
      rfl
    split at h
    · cases h
    · rename_i hname
      split at h
      · cases h
        cases ho
      · obtain ⟨operand, hread, h⟩ := except_bind_eq_ok h
        cases h
        cases ho
        have hfront : 0 < (plainName front).length := List.length_pos_iff.mpr hname
        refine ⟨argument, hread, ?_⟩
        rw [hwhole, List.length_append]
        omega

/-- **A text that is not read back**: the marker does not ask for its name. -/
theorem not_asks_of_read (h : Expression.read (strip text) = .ok e) (hback : ¬ ReadsBack text) :
    ¬ e.Asks (nameOf text) := by
  rintro ⟨o, ho, rest, hform⟩
  have hlength : (nameOf text).toList.length = (plainName text).length := by
    rw [nameOf, String.toList_ofList]
  unfold Expression.read at h
  dsimp only at h
  split at h
  · cases h
  · rename_i base specs hcut
    split at h
    · cases h
    obtain ⟨operand, hread, h⟩ := except_bind_eq_ok h
    obtain ⟨applications, hall, h⟩ := except_bind_eq_ok h
    cases h
    have hwhole := congrArg List.length (plainName_of_splitPipeline hcut)
    rw [List.length_append] at hwhole
    rcases List.mem_cons.mp ho with rfl | ho
    · -- in front of the first separator: as long as the whole only if the text is read back
      obtain ⟨hliteral, hle, hlt⟩ := Operand.length_le_of_path hread hform
      have hsame : plainName base = plainName text := by
        have hparts := plainName_of_splitPipeline hcut
        have hnil : specs.flatMap plainName = [] := List.eq_nil_of_length_eq_zero (by omega)
        rw [hparts, hnil, List.append_nil]
      refine hback ⟨base, specs, hcut, hsame, hliteral, fun hdot => ?_⟩
      have hless := hlt (hsame ▸ hdot)
      rw [hsame] at hless
      omega
    · -- the argument of a filter is shorter than the filter
      obtain ⟨a, ha, hargument⟩ := List.mem_filterMap.mp ho
      obtain ⟨application, hmem, rfl⟩ := List.mem_filterMap.mp ha
      obtain ⟨spec, hspec, happlication⟩ := exists_read_of_mapM hall _ hmem
      obtain ⟨raw, hraw, hlt⟩ := Expression.argument_of_readApplication happlication hargument
      obtain ⟨-, hle, -⟩ := Operand.length_le_of_path hraw hform
      have hpart : spec <:+: strip text :=
        infix_of_splitPipeline (hcut ▸ List.mem_cons_of_mem _ hspec)
      have hname := length_plainName_le hpart
      rw [plainName_strip] at hname
      omega

end Markers

/-! ## 3. Resolving markers -/

section Resolving

variable {s : Store} {c c' : Scopes} {name : String} {v : Value} {filters : Table Filter}

/-- A value that cannot be called stays. -/
theorem Eval.settle_of_not_callable (h : s.isCallable v = false) :
    Eval.settle (.value v) s = .ok v s := by
  cases v with
  | object r =>
    dsimp only [settle]
    rw [bind_of_ok (get_apply s)]
    cases hcall : (s.object r).call with
    | none => rfl
    | some outcome => simp [Store.isCallable, hcall] at h
  | function of i => simp [Store.isCallable] at h
  | _ => rfl

/-- What is found is what an operand gives. -/
theorem Eval.orNone_of_ok {x : Eval Value} {s' : Store} (h : x s = .ok v s') :
    Eval.orNone x s = .ok v s' := by
  unfold Eval.orNone
  rw [bind_of_ok (Eval.unless_of_ok h)]
  rfl

/-- What is not found is nothing. -/
theorem Eval.orNone_of_error {x : Eval Value} {e : Error} {s' : Store} (h : x s = .error e s')
    (he : e.kind = .missingVariable) : Eval.orNone x s = .ok .none s' := by
  have hpasses : (e.kind == .missingVariable) = true := beq_iff_eq.mpr he
  unfold Eval.orNone
  rw [bind_of_ok (Eval.unless_of_passes h hpasses)]
  rfl

/-- **The variable of a name resolves to what the name stands for**, if that cannot be called. -/
theorem Expression.resolve_of_bound {e : Expression} (hform : e.base.form = .path [name])
    (hfilters : e.filters = []) (hlookup : c.lookup (.plain name) s = .ok v s)
    (hv : s.isCallable v = false) : e.resolve filters c s = .ok v s := by
  have hsegment : c.segment name s = .ok v s := by
    unfold Scopes.segment
    rw [bind_of_ok (Eval.unless_of_ok hlookup)]
    exact Eval.settle_of_not_callable hv
  have hbase : e.base.resolve c s = .ok v s := by
    unfold Operand.resolve
    rw [hform]
    exact (bind_of_ok hsegment).trans rfl
  have hvalue : e.base.resolveOrNone c s = .ok v s := Eval.orNone_of_ok hbase
  unfold resolve
  rw [bind_of_ok hvalue, hfilters]
  rfl

/-- A name that a pushed layer binds is found there. -/
theorem Scopes.lookup_of_found (h : c.findPushed? (.text name) = some v) :
    c.lookup (.plain name) s = .ok v s := by
  rw [lookup_eq c (key?_plain s name), h]
  rfl

/-- A name that no pushed layer binds is found in the root layer. -/
theorem Scopes.lookup_of_root {r : Ref} (hfree : c.Free name) (hroot : c.root = .dict r)
    (h : (s.dict r).find? (.text name) = some v) : c.lookup (.plain name) s = .ok v s := by
  rw [lookup_eq c (key?_plain s name), hfree.findPushed?, hroot]
  dsimp only
  rw [← lookup_ofRoot _ (key?_plain s name), lookup_dict (key?_plain s name), h]
  rfl

/-- The two differ at most in what their pushed layers bind to one name. -/
structure Scopes.SameBut (name : String) (c c' : Scopes) : Prop where
  root : c'.root = c.root
  found : ∀ k, k ≠ .text name → c'.findPushed? k = c.findPushed? k

/-- Two computations give the same, or both find nothing. -/
def SameFinding {α : Type} (x y : Eval α) : Prop :=
  ∀ s, x s = y s ∨ ∃ e e' s', x s = .error e s' ∧ y s = .error e' s' ∧
    e.kind = .missingVariable ∧ e'.kind = .missingVariable

namespace SameFinding

variable {α β : Type} {x y : Eval α} {g h : α → Eval β}

theorem refl (x : Eval α) : SameFinding x x := fun _ => .inl rfl

theorem bind (hxy : SameFinding x y) (hgh : ∀ a, SameFinding (g a) (h a)) :
    SameFinding (x >>= g) (y >>= h) := by
  intro s
  rcases hxy s with hsame | ⟨e, e', s', hx, hy, hkind⟩
  · cases hy : y s with
    | ok a s' =>
      rw [bind_of_ok (hsame.trans hy), bind_of_ok hy]
      exact hgh a s'
    | error e s' =>
      rw [bind_of_error (hsame.trans hy), bind_of_error hy]
      exact .inl rfl
  · exact .inr ⟨e, e', s', bind_of_error hx, bind_of_error hy, hkind⟩

/-- To find nothing is no failure of an operand. -/
theorem orNone_eq {x y : Eval Value} (hxy : SameFinding x y) : Eval.orNone x = Eval.orNone y := by
  funext s
  rcases hxy s with hsame | ⟨e, e', s', hx, hy, he, he'⟩
  · cases hy : y s with
    | ok a s' =>
      unfold Eval.orNone
      rw [bind_of_ok (Eval.unless_of_ok (hsame.trans hy)), bind_of_ok (Eval.unless_of_ok hy)]
    | error e s' =>
      by_cases he : e.kind = .missingVariable
      · rw [Eval.orNone_of_error (hsame.trans hy) he, Eval.orNone_of_error hy he]
      · have hpasses : (e.kind == .missingVariable) = false := beq_false_of_ne he
        unfold Eval.orNone
        rw [bind_of_error (Eval.unless_of_error (hsame.trans hy) hpasses),
          bind_of_error (Eval.unless_of_error hy hpasses)]
  · rw [Eval.orNone_of_error hx he, Eval.orNone_of_error hy he']

end SameFinding

namespace Scopes.SameBut

variable (h : c.SameBut name c')

include h

theorem lookup_same {key : Value} {k : Key} (hk : ∀ s : Store, s.key? key = .ok k)
    (hne : k ≠ .text name) : c'.lookup key = c.lookup key := by
  funext s
  rw [lookup_eq c' (hk s), lookup_eq c (hk s), h.found k hne, h.root]

/-- Another first segment is looked up alike. -/
theorem segment {first : String} (hne : first ≠ name) :
    SameFinding (c'.segment first) (c.segment first) := by
  have htext : c'.lookup (.plain first) = c.lookup (.plain first) :=
    h.lookup_same (fun s => key?_plain s first) fun heq => hne (Key.text.inj heq)
  have hindex : SameFinding (Eval.atIndex first (.scopes c') c'.lookup)
      (Eval.atIndex first (.scopes c) c.lookup) := by
    have hint : ∀ n : Int, c'.lookup (.int n) = c.lookup (.int n) := fun n =>
      h.lookup_same (fun s => key?_int s n) fun heq => by cases heq
    unfold Eval.atIndex
    cases segmentIndex? first with
    | none => exact fun s => .inr ⟨_, _, s, rfl, rfl, rfl, rfl⟩
    | some n =>
      dsimp only
      rw [hint n]
      refine .bind (.refl _) fun found => ?_
      cases found with
      | some v => exact .refl _
      | none => exact fun s => .inr ⟨_, _, s, rfl, rfl, rfl, rfl⟩
  unfold Scopes.segment
  rw [htext]
  refine .bind (.refl _) fun found => ?_
  cases found with
  | some v => exact .refl _
  | none =>
    dsimp only
    split
    · exact .refl _
    · exact hindex.bind fun _ => .refl _

/-- An operand that does not ask for the name has the same value. -/
theorem resolveOrNone_eq {o : Operand} (ho : ∀ rest, o.form ≠ .path (name :: rest)) :
    o.resolveOrNone c' = o.resolveOrNone c := by
  refine SameFinding.orNone_eq ?_
  unfold Operand.resolve
  cases hform : o.form with
  | path segments =>
    cases segments with
    | nil => exact .refl _
    | cons first rest =>
      have hne : first ≠ name := fun heq => ho rest (heq ▸ hform)
      exact (h.segment hne).bind fun _ => .refl _
  | _ => exact .refl _

end Scopes.SameBut

/-- Two folds are the same if their steps are the same for what is in the list. -/
theorem foldlM_congr_mem {m : Type → Type} [Monad m] {α β : Type} {g g' : β → α → m β} :
    ∀ {as : List α}, (∀ a ∈ as, ∀ b, g' b a = g b a) → ∀ b, as.foldlM g' b = as.foldlM g b
  | [], _, _ => rfl
  | a :: as, h, b => by
    obtain ⟨ha, has⟩ := List.forall_mem_cons.mp h
    rw [List.foldlM_cons, List.foldlM_cons, ha, funext (foldlM_congr_mem has)]

/-- **An expression that does not ask for a name** gives the same whatever is bound to it. -/
theorem Expression.resolve_sameBut {e : Expression} (h : c.SameBut name c') (he : ¬ e.Asks name)
    (filters : Table Filter) : e.resolve filters c' = e.resolve filters c := by
  have hoperand : ∀ o ∈ e.operands, o.resolveOrNone c' = o.resolveOrNone c := fun o ho =>
    h.resolveOrNone_eq fun rest hform => he ⟨o, ho, rest, hform⟩
  have hfilter : ∀ a ∈ e.filters, ∀ v, applyFilter filters c' v a = applyFilter filters c v a := by
    intro a ha v
    have hargument :
        a.argument.mapM (·.resolveOrNone c') = a.argument.mapM (·.resolveOrNone c) := by
      cases ho : a.argument with
      | none => rfl
      | some o =>
        have hmem : o ∈ e.operands :=
          List.mem_cons_of_mem _ (List.mem_filterMap.mpr ⟨a, ha, ho⟩)
        rw [Option.mapM_some, Option.mapM_some, hoperand o hmem]
    unfold applyFilter
    rw [hargument]
  have hbase := hoperand e.base List.mem_cons_self
  unfold resolve
  rw [hbase, funext (foldlM_congr_mem hfilter)]

end Resolving

end TextTemplate
