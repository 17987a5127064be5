/-
# Choices of delimiters

A mapping that is given as a choice of delimiters is accepted if it holds, for each of the three
kinds of markers and for nothing else, a list or a tuple of two texts that are not empty, and if no
opening delimiter begins with that of another kind.  Every other mapping is refused.

The message of a refusal shows what was given: the keys, sorted and put in a row, or the value that
is no pair.  Keys that are no texts cannot be put in a row, and a value with too long an integer in
it cannot be written; there another error takes the place of the refusal.

* `Delimiters.Usable` says what is accepted, `Delimiters.Unnamable` and `Delimiters.Unwritable` say
  where the message cannot be made;
* `Delimiters.checkKinds_of_kinds` and its like are the check of the keys, `givenPair_of_pair` and
  `givenPair_of_none` that of the values, and `ofPairs_eq` that of the opening delimiters;
* `Grammar.choice_settled` is the result.
-/
import TextTemplate.Grammar.Basic
import TextTemplate.Proofs.Grammar.Segmentation
import TextTemplate.Proofs.Safety.Keeping
import TextTemplate.Proofs.Sorting.Failure

namespace TextTemplate

open TextTemplate.Outcome

/-- The entries of a mapping stand under the keys of their labels. -/
def Store.Keyed (s : Store) (r : Ref) : Prop := ∀ e ∈ s.dict r, s.key? e.label = .ok e.key

/-- The value is a text. -/
def Value.IsText (v : Value) : Prop := ∃ t safe, v = .text t safe

namespace Delimiters

open Eval

variable {s : Store} {r : Ref} {k : MarkerKind} {v : Value} {opener closer : List Char}

/-! ## 1. What is accepted -/

/-- The value is a list or a tuple of two texts. -/
inductive HoldsPair (s : Store) (opener closer : List Char) : Value → Prop where
  | list {r : Ref} {safe safe' : Bool} (h : s.list r =
      [.text (String.ofList opener) safe, .text (String.ofList closer) safe']) :
      HoldsPair s opener closer (.list r)
  | tuple {r : Ref} {safe safe' : Bool} (h : s.tuple r =
      [.text (String.ofList opener) safe, .text (String.ofList closer) safe']) :
      HoldsPair s opener closer (.tuple r)

/-- What the mapping holds for a kind. -/
def held? (s : Store) (r : Ref) (k : MarkerKind) : Option Value :=
  (s.dict r).find? (.text k.name)

/-- The keys of the mapping are the names of the kinds. -/
def HasKinds (s : Store) (r : Ref) : Prop :=
  ∀ key, (∃ e ∈ s.dict r, e.key = key) ↔ ∃ k : MarkerKind, key = .text k.name

/-- The mapping is a choice of these delimiters. -/
structure Usable (s : Store) (r : Ref) (opener closer : MarkerKind → List Char) : Prop where
  kinds : HasKinds s r
  pairs : ∀ k, ∃ v, held? s r k = some v ∧ HoldsPair s (opener k) (closer k) v
  opener_ne_nil : ∀ k, opener k ≠ []
  closer_ne_nil : ∀ k, closer k ≠ []
  separate : ∀ k k', k ≠ k' → ¬opener k <+: opener k'

/-- The mapping holds a pair of texts that are not empty for a kind. -/
def HasPair (s : Store) (r : Ref) (k : MarkerKind) : Prop :=
  ∃ v opener closer, held? s r k = some v ∧ HoldsPair s opener closer v ∧
    opener ≠ [] ∧ closer ≠ []

/-- The keys are not the names of the kinds, and one of them is no text. -/
def Unnamable (s : Store) (r : Ref) : Prop :=
  ¬HasKinds s r ∧ ∃ e ∈ s.dict r, ¬e.label.IsText

/-- The keys are the names of the kinds, and the first value that is no pair cannot be written. -/
def Unwritable (s : Store) (r : Ref) : Prop :=
  HasKinds s r ∧ ∃ before k after v, MarkerKind.all = before ++ k :: after ∧
    (∀ k' ∈ before, HasPair s r k') ∧ ¬HasPair s r k ∧ held? s r k = some v ∧ s.written? v = none

/-! ## 2. Pairs -/

theorem nonempty?_text {safe : Bool} (h : opener ≠ []) :
    nonempty? (.text (String.ofList opener) safe) = some ⟨opener, h⟩ := by
  have htext : (String.ofList opener).toList ≠ [] := by rwa [String.toList_ofList]
  exact (dif_pos htext).trans (congrArg some (Subtype.ext String.toList_ofList))

theorem text_of_nonempty? {cs : { cs : List Char // cs ≠ [] }} (h : nonempty? v = some cs) :
    ∃ safe, v = .text (String.ofList cs.val) safe := by
  unfold nonempty? at h
  split at h
  · rename_i t safe
    split at h
    · cases h
      exact ⟨safe, congrArg (Value.text · safe) String.ofList_toList.symm⟩
    · cases h
  · cases h

theorem pair?_of_holds (h : HoldsPair s opener closer v) (ho : opener ≠ []) (hc : closer ≠ []) :
    pair? s v = some (⟨opener, ho⟩, ⟨closer, hc⟩) := by
  cases h with
  | list h =>
    unfold pair?
    simp only [h, nonempty?_text ho, nonempty?_text hc]
    rfl
  | tuple h =>
    unfold pair?
    simp only [h, nonempty?_text ho, nonempty?_text hc]
    rfl

/-- Both of two values that make a pair are texts. -/
theorem texts_of_pair {a b : Value} {p : Pair}
    (h : ((nonempty? a).bind fun opener => (nonempty? b).bind fun closer =>
      some (opener, closer)) = some p) : ∃ safe safe',
    [a, b] = [.text (String.ofList p.1.val) safe, .text (String.ofList p.2.val) safe'] := by
  obtain ⟨opener, ho, h⟩ := Option.bind_eq_some_iff.mp h
  obtain ⟨closer, hc, h⟩ := Option.bind_eq_some_iff.mp h
  cases h
  obtain ⟨safe, rfl⟩ := text_of_nonempty? ho
  obtain ⟨safe', rfl⟩ := text_of_nonempty? hc
  exact ⟨safe, safe', rfl⟩

theorem holds_of_pair? {p : Pair} (h : pair? s v = some p) :
    HoldsPair s p.1.val p.2.val v := by
  unfold pair? at h
  cases v with
  | list r =>
    dsimp only at h
    split at h
    · rename_i hitems
      obtain ⟨safe, safe', htexts⟩ := texts_of_pair h
      exact .list (hitems.trans htexts)
    · cases h
  | tuple r =>
    dsimp only at h
    split at h
    · rename_i hitems
      obtain ⟨safe, safe', htexts⟩ := texts_of_pair h
      exact .tuple (hitems.trans htexts)
    · cases h
  | _ => cases h

theorem hasPair_iff : HasPair s r k ↔ ∃ v p, held? s r k = some v ∧ pair? s v = some p := by
  constructor
  · rintro ⟨v, opener, closer, hv, hp, ho, hc⟩
    exact ⟨v, _, hv, pair?_of_holds hp ho hc⟩
  · rintro ⟨v, p, hv, hp⟩
    exact ⟨v, _, _, hv, holds_of_pair? hp, p.1.property, p.2.property⟩

/-! ## 3. The keys -/

theorem stream?_dict (s : Store) (r : Ref) :
    stream? (.dict r) s = .ok (some ⟨(s.dict r).map (·.label), none⟩) s := rfl

theorem items_dict (s : Store) (r : Ref) :
    items (.dict r) s = .ok ((s.dict r).map (·.label)) s := rfl

theorem givenKeys_dict (h : s.Keyed r) :
    givenKeys (.dict r) s = .ok ((s.dict r).map (·.key)) s := by
  have hkeys : ∀ d : Dict, (∀ e ∈ d, s.key? e.label = .ok e.key) →
      ((d.map (·.label)).mapM fun key => Eval.read fun s =>
        (s.key? key).mapError fun type => Cause.type (.unhashable type)) s =
          .ok (d.map (·.key)) s := by
    intro d hd
    induction d with
    | nil => rfl
    | cons e d ih =>
      obtain ⟨he, hd⟩ := List.forall_mem_cons.mp hd
      have hread : Eval.read (fun s => (s.key? e.label).mapError
          fun type => Cause.type (.unhashable type)) s = .ok e.key s := by
        refine read_of_ok ?_
        rw [he]
        rfl
      rw [List.map_cons, List.mapM_cons, bind_of_ok hread, bind_of_ok (ih hd)]
      rfl
  unfold givenKeys
  rw [bind_of_ok (stream?_dict s r)]
  exact bind_of_ok (hkeys (s.dict r) h)

/-- The test of the keys. -/
theorem hasKinds_iff : HasKinds s r ↔
    (((s.dict r).map (·.key)).all
        ((MarkerKind.all.map fun k => Key.text k.name).contains ·) &&
      (MarkerKind.all.map fun k => Key.text k.name).all
        (((s.dict r).map (·.key)).contains ·)) = true := by
  have hwanted : ∀ key, key ∈ MarkerKind.all.map (fun k => Key.text k.name) ↔
      ∃ k : MarkerKind, key = .text k.name := fun key => by
    rw [List.mem_map]
    exact ⟨fun ⟨k, _, hk⟩ => ⟨k, hk.symm⟩, fun ⟨k, hk⟩ => ⟨k, MarkerKind.mem_all k, hk.symm⟩⟩
  simp only [Bool.and_eq_true, List.all_eq_true, List.contains_iff_mem, hwanted, List.mem_map]
  constructor
  · intro h
    exact ⟨fun key hkey => (h key).mp hkey, fun key hkey => (h key).mpr hkey⟩
  · rintro ⟨hgiven, hall⟩ key
    exact ⟨hgiven key, hall key⟩

theorem checkKinds_of_kinds (h : s.Keyed r) (hk : HasKinds s r) :
    checkKinds (.dict r) s = .ok () s := by
  unfold checkKinds
  rw [bind_of_ok (givenKeys_dict h), if_pos (hasKinds_iff.mp hk)]
  rfl

/-- Other keys are sorted and put in a row. -/
theorem checkKinds_of_others (h : s.Keyed r) (hk : ¬HasKinds s r) : checkKinds (.dict r) s =
    (do Eval.fail (.configuration (.delimiterKinds
      (← sortedNames ((s.dict r).map (·.label)))) : Cause) : Eval Unit) s := by
  unfold checkKinds
  rw [bind_of_ok (givenKeys_dict h), if_neg fun hkinds => hk (hasKinds_iff.mpr hkinds)]
  exact bind_of_ok (items_dict s r)

/-- The text of a key in a row of keys. -/
def nameAt (p : Value × Nat) : Eval String :=
  match p.1 with
  | .text t _ => pure t
  | v => Eval.fail (.type (.notText p.2 v.typeName))

theorem mapM_nameAt_of_texts : ∀ ps : List (Value × Nat), (∀ p ∈ ps, p.1.IsText) →
    ∃ names, ps.mapM nameAt s = .ok names s
  | [], _ => ⟨[], rfl⟩
  | (v, i) :: ps, h => by
    obtain ⟨⟨t, safe, rfl⟩, hps⟩ := List.forall_mem_cons.mp h
    obtain ⟨names, hnames⟩ := mapM_nameAt_of_texts ps hps
    refine ⟨t :: names, ?_⟩
    have ht : nameAt (.text t safe, i) s = .ok t s := rfl
    rw [List.mapM_cons, bind_of_ok ht, bind_of_ok hnames]
    rfl

theorem mapM_nameAt_of_other : ∀ ps : List (Value × Nat), (∃ p ∈ ps, ¬p.1.IsText) →
    ∃ fault, ps.mapM nameAt s = .error (Error.of (.type fault)) s
  | [], h => by
    obtain ⟨p, hp, -⟩ := h
    cases hp
  | (v, i) :: ps, h => by
    rw [List.mapM_cons]
    by_cases hv : v.IsText
    · obtain ⟨t, safe, rfl⟩ := hv
      have hrest : ∃ p ∈ ps, ¬p.1.IsText := by
        obtain ⟨p, hp, hno⟩ := h
        rcases List.mem_cons.mp hp with rfl | hp
        · exact absurd ⟨t, safe, rfl⟩ hno
        · exact ⟨p, hp, hno⟩
      obtain ⟨fault, hfault⟩ := mapM_nameAt_of_other ps hrest
      have ht : nameAt (.text t safe, i) s = .ok t s := rfl
      rw [bind_of_ok ht, bind_of_error hfault]
      exact ⟨fault, rfl⟩
    · have hfail : nameAt (v, i) s = .error (Error.of (.type (.notText i v.typeName))) s := by
        cases v with
        | text t safe => exact absurd ⟨t, safe, rfl⟩ hv
        | _ => rfl
      exact ⟨_, bind_of_error hfail⟩

theorem sortedNames_apply (given : List Value) : sortedNames given s =
    match (Sorting.sortItems (s.related .less) given).2 with
    | some fault => .error (Error.of (.type fault)) s
    | none => (Sorting.sortItems (s.related .less) given).1.zipIdx.mapM nameAt s := by
  unfold sortedNames
  rw [bind_of_ok (get_apply s)]
  dsimp only
  cases (Sorting.sortItems (s.related .less) given).2 <;> rfl

/-- **Texts can be put in a row**: sorting does not fail, for all texts can be compared. -/
theorem sortedNames_of_texts {given : List Value} (h : ∀ v ∈ given, v.IsText) :
    ∃ names, sortedNames given s = .ok names s := by
  have hsorted : (Sorting.sortItems (s.related .less) given).2 = none := by
    obtain ⟨texts, rfl⟩ : ∃ texts : List (String × Bool),
        given = texts.map fun t => .text t.1 t.2 := by
      induction given with
      | nil => exact ⟨[], rfl⟩
      | cons v given ih =>
        obtain ⟨⟨t, safe, rfl⟩, hgiven⟩ := List.forall_mem_cons.mp h
        obtain ⟨texts, rfl⟩ := ih hgiven
        exact ⟨(t, safe) :: texts, rfl⟩
    let less (t u : String × Bool) : Except TypeFault Bool :=
      .ok (OrderRelation.less.holds (compare t.1 u.1))
    have hless : ∀ t u : String × Bool,
        s.related .less (.text t.1 t.2) (.text u.1 u.2) = less t u := fun t u => rfl
    have hmap :=
      Sorting.sortItems_map (g := fun t : String × Bool => Value.text t.1 t.2) hless texts
    rw [hmap]
    exact Sorting.sortItems_total (fun t u => ⟨_, rfl⟩) texts
  rw [sortedNames_apply, hsorted]
  refine mapM_nameAt_of_texts _ fun p hp => ?_
  refine h p.1 ?_
  exact (Sorting.sortItems_perm _ _).mem_iff.mp (List.fst_mem_of_mem_zipIdx hp)

/-- A row of keys with one that is no text fails, in sorting or behind it. -/
theorem sortedNames_of_other {given : List Value} (hv : v ∈ given) (hno : ¬v.IsText) :
    ∃ fault, sortedNames given s = .error (Error.of (.type fault)) s := by
  rw [sortedNames_apply]
  split
  · exact ⟨_, rfl⟩
  · have hmem := (Sorting.sortItems_perm (s.related .less) given).mem_iff.mpr hv
    obtain ⟨i, hi, hget⟩ := List.mem_iff_getElem.mp hmem
    exact mapM_nameAt_of_other _ ⟨(v, i), List.mk_mem_zipIdx_iff_getElem?.mpr
      (List.getElem?_eq_some_iff.mpr ⟨hi, hget⟩), hno⟩

theorem checkKinds_of_texts (h : s.Keyed r) (hk : ¬HasKinds s r)
    (ht : ∀ e ∈ s.dict r, e.label.IsText) : ∃ names,
    checkKinds (.dict r) s = .error (Error.of (.configuration (.delimiterKinds names))) s := by
  have htexts : ∀ v ∈ (s.dict r).map (·.label), v.IsText := List.forall_mem_map.mpr ht
  obtain ⟨names, hnames⟩ := sortedNames_of_texts (s := s) htexts
  rw [checkKinds_of_others h hk, bind_of_ok hnames]
  exact ⟨names, rfl⟩

theorem checkKinds_of_unnamable (h : s.Keyed r) (hu : Unnamable s r) :
    ∃ fault, checkKinds (.dict r) s = .error (Error.of (.type fault)) s := by
  obtain ⟨hk, e, he, hno⟩ := hu
  obtain ⟨fault, hfault⟩ := sortedNames_of_other (s := s)
    (List.mem_map.mpr ⟨e, he, rfl⟩ : e.label ∈ (s.dict r).map (·.label)) hno
  rw [checkKinds_of_others h hk, bind_of_error hfault]
  exact ⟨fault, rfl⟩

/-! ## 4. The values -/

/-- A mapping with the right keys holds something for each kind. -/
theorem exists_held (hk : HasKinds s r) (k : MarkerKind) : ∃ v, held? s r k = some v := by
  have hfind : ∀ d : Dict, (∃ e ∈ d, e.key = .text k.name) →
      ∃ v, d.find? (.text k.name) = some v := by
    intro d
    induction d with
    | nil =>
      rintro ⟨e, he, -⟩
      cases he
    | cons e d ih =>
      rintro ⟨e', he', hkey⟩
      unfold Dict.find?
      split
      · exact ⟨_, rfl⟩
      · rename_i hne
        rcases List.mem_cons.mp he' with rfl | he'
        · exact absurd hkey hne
        · exact ih ⟨e', he', hkey⟩
  exact hfind _ ((hk _).mpr ⟨k, rfl⟩)

theorem item_held (h : held? s r k = some v) :
    Eval.read (·.item (.dict r) (.plain k.name)) s = .ok v s := by
  have hkey : s.key? (.plain k.name) = .ok (.text k.name) := rfl
  refine read_of_ok ?_
  unfold Store.item
  unfold held? at h
  simp only [hkey, h]

theorem givenPair_of_pair {p : Pair} (h : held? s r k = some v) (hp : pair? s v = some p) :
    givenPair (.dict r) k s = .ok p s := by
  unfold givenPair
  rw [bind_of_ok (item_held h), bind_of_ok (get_apply s), hp]
  rfl

/-- A value that is no pair is refused and shown, if it can be written. -/
theorem givenPair_of_none (h : held? s r k = some v) (hp : pair? s v = none) :
    givenPair (.dict r) k s = .error (Error.of (match s.written? v with
      | some written => .configuration (.delimiterPair k.name written)
      | none => .value .integerTextTooLong)) s := by
  unfold givenPair
  rw [bind_of_ok (item_held h), bind_of_ok (get_apply s), hp]
  dsimp only
  rw [bind_of_ok (get_apply s)]
  cases s.written? v <;> rfl

/-! ## 5. The check as a whole -/

/-- The check of the opening delimiters. -/
theorem ofPairs_eq (pair : MarkerKind → Pair) :
    (∃ d, ofPairs pair = .ok d ∧ (d.opener = fun k => (pair k).1.val) ∧
        d.closer = fun k => (pair k).2.val) ∨
      ∃ fault k k', ofPairs pair = .error (.configuration fault) ∧ k ≠ k' ∧
        (pair k).1.val <+: (pair k').1.val := by
  unfold ofPairs
  dsimp only
  split
  · rename_i k k' hoverlap
    refine .inr ⟨_, k, k', rfl, ?_, ?_⟩
    · have hmem := List.mem_of_find?_eq_some hoverlap
      intro hkk
      subst hkk
      revert hmem
      cases k <;> decide
    · have hprefix := List.find?_some
        (p := fun (p : MarkerKind × MarkerKind) =>
          (pair p.1).1.val.isPrefixOf (pair p.2).1.val) hoverlap
      exact List.isPrefixOf_iff_prefix.mp hprefix
  · exact .inl ⟨_, rfl, rfl, rfl⟩

/-- The pairs of the three kinds, in the order of the check. -/
theorem ofValue_of_pairs (h : s.Keyed r) (hk : HasKinds s r) {pair : MarkerKind → Pair}
    (hp : ∀ k, ∃ v, held? s r k = some v ∧ pair? s v = some (pair k)) :
    ofValue (.dict r) s = Eval.read (fun _ => ofPairs pair) s := by
  have hgiven : ∀ k, givenPair (.dict r) k s = .ok (pair k) s := fun k => by
    obtain ⟨v, hv, hpair⟩ := hp k
    exact givenPair_of_pair hv hpair
  have hsame : ∀ f : MarkerKind → Pair, (∀ k, f k = pair k) →
      Eval.read (fun _ => ofPairs f) s = Eval.read (fun _ => ofPairs pair) s := fun f hf => by
    rw [funext hf]
  unfold ofValue
  rw [bind_of_ok (checkKinds_of_kinds h hk), bind_of_ok (hgiven _), bind_of_ok (hgiven _),
    bind_of_ok (hgiven _)]
  exact hsame _ fun k => by cases k <;> rfl

/-- The first kind that the mapping holds no pair for is where the check stops. -/
theorem ofValue_of_none (h : s.Keyed r) (hk : HasKinds s r) {before after : List MarkerKind}
    (hall : MarkerKind.all = before ++ k :: after) (hbefore : ∀ k' ∈ before, HasPair s r k')
    (hno : ¬HasPair s r k) (hv : held? s r k = some v) : ofValue (.dict r) s =
      .error (Error.of (match s.written? v with
        | some written => .configuration (.delimiterPair k.name written)
        | none => .value .integerTextTooLong)) s := by
  have hgiven : ∀ k' ∈ before, ∃ p, givenPair (.dict r) k' s = .ok p s := fun k' hk' => by
    obtain ⟨v', p, hv', hp⟩ := hasPair_iff.mp (hbefore k' hk')
    exact ⟨p, givenPair_of_pair hv' hp⟩
  have hnone : pair? s v = none := Option.eq_none_iff_forall_ne_some.mpr fun p hp =>
    hno (hasPair_iff.mpr ⟨v, p, hv, hp⟩)
  have hfails := givenPair_of_none hv hnone
  unfold ofValue
  rw [bind_of_ok (checkKinds_of_kinds h hk)]
  -- one case for each place of the kind in the order of the check
  match before, hall with
  | [], hall =>
    cases hall
    exact bind_of_error hfails
  | [_], hall =>
    cases hall
    obtain ⟨p, hp⟩ := hgiven .statement List.mem_cons_self
    rw [bind_of_ok hp]
    exact bind_of_error hfails
  | [_, _], hall =>
    cases hall
    obtain ⟨p, hp⟩ := hgiven .statement List.mem_cons_self
    obtain ⟨p', hp'⟩ := hgiven .expression (List.mem_cons_of_mem _ List.mem_cons_self)
    rw [bind_of_ok hp, bind_of_ok hp']
    exact bind_of_error hfails
  | _ :: _ :: _ :: _, hall =>
    have hlength := congrArg List.length hall
    simp only [MarkerKind.all, List.length_cons, List.length_nil, List.length_append] at hlength
    omega

/-- A usable choice is accepted as it is. -/
theorem ofValue_of_usable {opener closer : MarkerKind → List Char} (h : s.Keyed r)
    (hu : Usable s r opener closer) :
    ∃ d, ofValue (.dict r) s = .ok d s ∧ d.opener = opener ∧ d.closer = closer := by
  let pair (k : MarkerKind) : Pair :=
    (⟨opener k, hu.opener_ne_nil k⟩, ⟨closer k, hu.closer_ne_nil k⟩)
  have hpairs : ∀ k, ∃ v, held? s r k = some v ∧ pair? s v = some (pair k) := fun k => by
    obtain ⟨v, hv, hp⟩ := hu.pairs k
    exact ⟨v, hv, pair?_of_holds hp _ _⟩
  rw [ofValue_of_pairs h hu.kinds hpairs]
  rcases ofPairs_eq pair with ⟨d, hd, ho, hc⟩ | ⟨fault, k, k', -, hne, hprefix⟩
  · exact ⟨d, read_of_ok hd, ho, hc⟩
  · exact absurd hprefix (hu.separate k k' hne)

/-- The first kind without a pair, if there is one. -/
theorem pairs_or_first_none (s : Store) (r : Ref) : (∀ k, HasPair s r k) ∨
    ∃ before k after, MarkerKind.all = before ++ k :: after ∧ (∀ k' ∈ before, HasPair s r k') ∧
      ¬HasPair s r k := by
  by_cases hstatement : HasPair s r .statement
  · by_cases hexpression : HasPair s r .expression
    · by_cases hcomment : HasPair s r .comment
      · exact .inl fun k => by cases k <;> assumption
      · exact .inr ⟨[.statement, .expression], .comment, [], rfl, by simp [*], hcomment⟩
    · exact .inr ⟨[.statement], .expression, [.comment], rfl, by simp [*], hexpression⟩
  · exact .inr ⟨[], .statement, [.expression, .comment], rfl, nofun, hstatement⟩

/-- Any other choice is refused, if the message can be made. -/
theorem ofValue_of_unusable (h : s.Keyed r) (hno : ¬∃ opener closer, Usable s r opener closer)
    (hname : ¬Unnamable s r) (hwrite : ¬Unwritable s r) :
    ∃ fault, ofValue (.dict r) s = .error (Error.of (.configuration fault)) s := by
  by_cases hk : HasKinds s r
  · rcases pairs_or_first_none s r with hall | ⟨before, k, after, hall, hbefore, hnone⟩
    · choose value pair hvalue hpair using fun k => hasPair_iff.mp (hall k)
      rw [ofValue_of_pairs h hk fun k => ⟨value k, hvalue k, hpair k⟩]
      rcases ofPairs_eq pair with ⟨d, hd, ho, hc⟩ | ⟨fault, k, k', hfault, -, -⟩
      · refine absurd ⟨d.opener, d.closer, hk, fun k => ⟨value k, hvalue k, ?_⟩, d.opener_ne_nil,
          d.closer_ne_nil, fun k k' hne hprefix => ?_⟩ hno
        · rw [ho, hc]
          exact holds_of_pair? (hpair k)
        · have hseparate := d.separate k k' hne
          rw [List.isPrefixOf_iff_prefix.mpr hprefix] at hseparate
          cases hseparate
      · exact ⟨fault, read_of_error hfault⟩
    · obtain ⟨v, hv⟩ := exists_held hk k
      rw [ofValue_of_none h hk hall hbefore hnone hv]
      cases hwritten : s.written? v with
      | some written => exact ⟨_, rfl⟩
      | none => exact absurd ⟨hk, before, k, after, v, hall, hbefore, hnone, hv, hwritten⟩ hwrite
  · have htexts : ∀ e ∈ s.dict r, e.label.IsText := by
      intro e he
      by_contra hlabel
      exact hname ⟨hk, e, he, hlabel⟩
    obtain ⟨names, hnames⟩ := checkKinds_of_texts h hk htexts
    exact ⟨_, bind_of_error hnames⟩

end Delimiters

open Delimiters

/-! ## 6. Results -/

namespace Grammar

variable {s : Store} {r : Ref}

theorem ofDelimiters_of_ok {d : Delimiters} (h : Delimiters.ofValue (.dict r) s = .ok d s) :
    ofDelimiters (.dict r) s = .ok ⟨[], [], d⟩ s := bind_of_ok h

theorem ofDelimiters_of_error {e : Error} (h : Delimiters.ofValue (.dict r) s = .error e s) :
    ofDelimiters (.dict r) s = .error e s := bind_of_error h

/-- **What becomes of a choice of delimiters.**  A usable one is accepted, and then at each position
of each text at most one kind of marker opens.  One that is not usable is refused as a wrong
configuration, but for two cases in which the message fails: the keys are not the kinds and one of
them is no text, or the first value that is no pair cannot be written. -/
theorem choice_settled (h : s.Keyed r) :
    (∀ opener closer, Usable s r opener closer →
      ∃ g, ofDelimiters (.dict r) s = .ok g s ∧ g.delimiters.opener = opener ∧
        g.delimiters.closer = closer ∧
        ∀ cs p k k', StandsAt (g.delimiters.opener k) cs p →
          StandsAt (g.delimiters.opener k') cs p → k' = k) ∧
    (Unnamable s r → ∃ e, ofDelimiters (.dict r) s = .error e s ∧ e.kind = .mistyped) ∧
    (Unwritable s r → ∃ e, ofDelimiters (.dict r) s = .error e s ∧ e.kind = .badValue) ∧
    ((¬∃ opener closer, Usable s r opener closer) → ¬Unnamable s r → ¬Unwritable s r →
      ∃ e, ofDelimiters (.dict r) s = .error e s ∧ e.kind = .misconfigured) := by
  refine ⟨fun opener closer hu => ?_, fun hname => ?_, ?_, fun hno hname hwrite => ?_⟩
  · obtain ⟨d, hd, ho, hc⟩ := ofValue_of_usable h hu
    exact ⟨_, ofDelimiters_of_ok hd, ho, hc, fun cs p k k' => opener_unique⟩
  · obtain ⟨fault, hfault⟩ := checkKinds_of_unnamable h hname
    exact ⟨_, ofDelimiters_of_error (bind_of_error hfault), rfl⟩
  · rintro ⟨hk, before, k, after, v, hall, hbefore, hnone, hv, hwritten⟩
    have hvalue := ofValue_of_none h hk hall hbefore hnone hv
    rw [hwritten] at hvalue
    exact ⟨_, ofDelimiters_of_error hvalue, rfl⟩
  · obtain ⟨fault, hfault⟩ := ofValue_of_unusable h hno hname hwrite
    exact ⟨_, ofDelimiters_of_error hfault, rfl⟩

/-- Opening delimiters with an angle bracket for the brace. -/
def angleOpener : MarkerKind → List Char
  | .statement => ['<', '%']
  | .expression => ['<', '<']
  | .comment => ['<', '#']

/-- The closing ones. -/
def angleCloser : MarkerKind → List Char
  | .statement => ['%', '>']
  | .expression => ['>', '>']
  | .comment => ['#', '>']

/-- The choice of them, in tuples. -/
def angleStore : Store :=
  { Store.empty with
    tuples := #[[.plain "<%", .plain "%>"], [.plain "<<", .plain ">>"], [.plain "<#", .plain "#>"]]
    dicts := #[[⟨.text "statement", .plain "statement", .tuple 0⟩,
      ⟨.text "expression", .plain "expression", .tuple 1⟩,
      ⟨.text "comment", .plain "comment", .tuple 2⟩]] }

/-- The choice with angle brackets is accepted, and a choice of nothing is refused. -/
theorem choice_settled_angle :
    (∃ g, ofDelimiters (.dict 0) angleStore = .ok g angleStore ∧
      g.delimiters.opener .comment = ['<', '#']) ∧
    ∃ e, ofDelimiters (.dict 0) .empty = .error e .empty ∧ e.kind = .misconfigured := by
  have hkeyed : angleStore.Keyed 0 := by
    intro e he
    rcases List.mem_cons.mp he with rfl | he
    · rfl
    · rcases List.mem_cons.mp he with rfl | he
      · rfl
      · cases List.mem_singleton.mp he
        rfl
  have hkinds : HasKinds angleStore 0 := hasKinds_iff.mpr (by decide +kernel)
  have hu : Usable angleStore 0 angleOpener angleCloser := by
    refine ⟨hkinds, fun k => ?_, fun k => ?_, fun k => ?_, fun k k' => ?_⟩
    · cases k with
      | statement => exact ⟨.tuple 0, rfl, .tuple rfl⟩
      | expression => exact ⟨.tuple 1, rfl, .tuple rfl⟩
      | comment => exact ⟨.tuple 2, rfl, .tuple rfl⟩
    · cases k <;> exact List.cons_ne_nil _ _
    · cases k <;> exact List.cons_ne_nil _ _
    · cases k <;> cases k' <;> decide
  obtain ⟨g, hg, ho, -⟩ := (choice_settled hkeyed).1 angleOpener angleCloser hu
  have hempty : (Store.empty).dict 0 = [] := rfl
  have hnone : ¬HasKinds .empty 0 := fun h => by
    obtain ⟨e, he, -⟩ := (h (.text MarkerKind.statement.name)).mpr ⟨_, rfl⟩
    rw [hempty] at he
    cases he
  have hrefused := (choice_settled (s := .empty) (r := 0) fun e he => nomatch hempty ▸ he).2.2.2
    (fun ⟨_, _, hu⟩ => hnone hu.kinds) (fun ⟨_, e, he, _⟩ => nomatch hempty ▸ he)
    (fun ⟨hk, _⟩ => hnone hk)
  exact ⟨⟨g, hg, congrFun ho .comment⟩, hrefused⟩

/-- A choice for the number one. -/
def numberStore : Store :=
  { Store.empty with
    lists := #[[.plain "a", .plain "b"]]
    dicts := #[[⟨.int 1, .int 1, .list 0⟩]] }

/-- **The message fails for a key that is no text**, and the error is none of the configuration. -/
theorem number_key_mistyped : ∃ e, ofDelimiters (.dict 0) numberStore = .error e numberStore ∧
    e.kind = .mistyped := by
  have hdict : numberStore.dict 0 = [⟨.int 1, .int 1, .list 0⟩] := rfl
  have hkeyed : numberStore.Keyed 0 := by
    intro e he
    rw [hdict] at he
    cases List.mem_singleton.mp he
    rfl
  have hkinds : ¬HasKinds numberStore 0 := fun h => by
    obtain ⟨k, hk⟩ := (h (.int 1)).mp ⟨_, List.mem_singleton_self _, rfl⟩
    cases hk
  have hlabel : ¬(Value.int 1).IsText := fun ⟨_, _, h⟩ => nomatch h
  obtain ⟨fault, hfault⟩ := checkKinds_of_unnamable hkeyed
    ⟨hkinds, _, List.mem_singleton_self _, hlabel⟩
  exact ⟨_, ofDelimiters_of_error (bind_of_error hfault), rfl⟩

end Grammar
end TextTemplate
