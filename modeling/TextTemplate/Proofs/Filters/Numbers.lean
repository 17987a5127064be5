/-
# Where the filters of numbers and lengths fail

The filters `add`, `subtract`, `divisibleby`, `pluralize` and `length` let the errors of types and
values pass and give something else then.  An error of size is let through by none of them: an
infinity that is to be an integer, an integer that has no floating point number next to it, the
length of a range that is no machine word.

* `Eval.FailsWhere` says of a computation exactly where it fails, and how;
* `Value.toInteger_cases` and its like are the outcomes of the conversions;
  `Eval.integers_failsWhere`, `Eval.minus_failsWhere`, `Eval.toFloat_failsWhere` and
  `Eval.length_failsWhere` are the attempts, with misfits let pass;
* `Filter.numbers_fail_where` is the result.
-/
import TextTemplate.Proofs.Safety.Keeping
import TextTemplate.Standard.Filters

namespace TextTemplate

open TextTemplate.Decimal TextTemplate.Outcome

/-! ## 1. Failing under a condition -/

/-- The computation gives a value, unless the condition holds: then it fails with an error of the
kind. -/
structure Eval.FailsWhere {α : Type} (x : Eval α) (s : Store) (kind : ErrorKind)
    (condition : Prop) : Prop where
  fails : condition → ∃ e s', x s = .error e s' ∧ e.kind = kind
  gives : ¬condition → ∃ a s', x s = .ok a s'

namespace Eval.FailsWhere

variable {α β : Type} {x : Eval α} {f : α → Eval β} {s : Store} {kind : ErrorKind} {P : Prop}

/-- What follows gives a value always. -/
theorem bind (hx : x.FailsWhere s kind P) (hf : ∀ a s, ∃ b s', f a s = .ok b s') :
    (x >>= f).FailsWhere s kind P where
  fails h := by
    obtain ⟨e, s', he, hkind⟩ := hx.fails h
    exact ⟨e, s', bind_of_error he, hkind⟩
  gives h := by
    obtain ⟨a, s', ha⟩ := hx.gives h
    rw [bind_of_ok ha]
    exact hf a s'

/-- It gives a value where the condition cannot hold. -/
theorem of_ok {a : α} {s' : Store} (h : x s = .ok a s') (hP : ¬P) : x.FailsWhere s kind P :=
  ⟨fun hp => absurd hp hP, fun _ => ⟨a, s', h⟩⟩

theorem of_error {e : Error} {s' : Store} (h : x s = .error e s') (hkind : e.kind = kind) (hP : P) :
    x.FailsWhere s kind P := ⟨fun _ => ⟨e, s', h, hkind⟩, fun hp => absurd hP hp⟩

theorem of_eq {y : Eval α} (h : x s = y s) (hy : y.FailsWhere s kind P) :
    x.FailsWhere s kind P where
  fails hp := h ▸ hy.fails hp
  gives hp := h ▸ hy.gives hp

end Eval.FailsWhere

/-- Every error may pass. -/
theorem Eval.unless_any {α : Type} (x : Eval α) (s : Store) :
    ∃ o s', Eval.unless (fun _ => true) x s = .ok o s' := by
  cases hx : x s with
  | ok a s' => exact ⟨_, _, unless_of_ok hx⟩
  | error e s' => exact ⟨_, _, unless_of_passes hx rfl⟩

/-! ## 2. Conversions -/

namespace Value

/-- The value is an infinity. -/
def IsInfinite (v : Value) : Prop := ∃ negative, v = .float (.infinite negative)

/-- **An integer, an infinity or a misfit**: reading a value as an integer. -/
theorem toInteger_cases (v : Value) : (∃ n, v.toInteger = .ok n ∧ ¬v.IsInfinite) ∨
    v.IsInfinite ∧ v.toInteger = .error .infinityToInteger ∨
    ∃ cause, v.toInteger = .error cause ∧ Filter.isMisfit cause.kind = true ∧ ¬v.IsInfinite := by
  cases v with
  | bool b => exact .inl ⟨_, rfl, nofun⟩
  | int n => exact .inl ⟨_, rfl, nofun⟩
  | float x =>
    cases x with
    | finite negative m e => exact .inl ⟨_, rfl, nofun⟩
    | infinite negative => exact .inr (.inl ⟨⟨negative, rfl⟩, rfl⟩)
  | text t safe =>
    cases hread : readInteger t.toList with
    | ok n => exact .inl ⟨n, by rw [toInteger, hread], nofun⟩
    | error fault =>
      refine .inr (.inr ?_)
      cases fault with
      | malformed => exact ⟨_, by rw [toInteger, hread], rfl, nofun⟩
      | tooLong digits => exact ⟨_, by rw [toInteger, hread], rfl, nofun⟩
  | _ => exact .inr (.inr ⟨_, rfl, rfl, nofun⟩)

/-- Reading a value as a number: a number or a misfit. -/
theorem readNumber_cases (v : Value) : (∃ x, v.readNumber = .ok x) ∨
    ∃ cause, v.readNumber = .error cause ∧ Filter.isMisfit cause.kind = true := by
  cases v with
  | bool b => exact .inl ⟨_, rfl⟩
  | int n => exact .inl ⟨_, rfl⟩
  | float x => exact .inl ⟨_, rfl⟩
  | nan i => exact .inl ⟨_, rfl⟩
  | text t safe =>
    cases hread : readInteger t.toList with
    | ok n => exact .inl ⟨.integer n, by simp only [readNumber, numeric?, toInteger, hread]⟩
    | error fault =>
      -- for both faults of the text the second attempt decides
      cases hfloat : readFloat? t.toList with
      | none =>
        refine .inr ⟨.value (.noFloat t), ?_, rfl⟩
        cases fault <;> simp only [readNumber, numeric?, toInteger, toFloat, hread, hfloat] <;> rfl
      | some r =>
        refine .inl ?_
        cases r with
        | number x =>
          refine ⟨.binary x, ?_⟩
          cases fault <;>
            simp only [readNumber, numeric?, toInteger, toFloat, hread, hfloat] <;> rfl
        | notANumber =>
          refine ⟨.undefined, ?_⟩
          cases fault <;>
            simp only [readNumber, numeric?, toInteger, toFloat, hread, hfloat] <;> rfl
  | _ => exact .inr ⟨_, rfl, rfl⟩

/-- The value is an integer that has no floating point number next to it. -/
def BeyondFloats (v : Value) : Prop := ∃ n, v = .int n ∧ Binary64.ofInt? n = .none

/-- Reading a value as a floating point number. -/
theorem toFloat_cases (v : Value) : (∃ x, v.toFloat = .ok x ∧ ¬v.BeyondFloats) ∨
    v.BeyondFloats ∧ v.toFloat = .error .integerToFloat ∨
    ∃ cause, v.toFloat = .error cause ∧ Filter.isMisfit cause.kind = true ∧ ¬v.BeyondFloats := by
  cases v with
  | bool b => cases b <;> exact .inl ⟨_, rfl, nofun⟩
  | int n =>
    cases hn : Binary64.ofInt? n with
    | none => exact .inr (.inl ⟨⟨n, rfl, hn⟩, by simp only [toFloat, nearestFloat, hn]; rfl⟩)
    | some x =>
      refine .inl ⟨some x, by simp only [toFloat, nearestFloat, hn]; rfl, ?_⟩
      rintro ⟨m, hm, hnone⟩
      cases hm
      rw [hn] at hnone
      cases hnone
  | float x => exact .inl ⟨_, rfl, nofun⟩
  | nan i => exact .inl ⟨_, rfl, nofun⟩
  | text t safe =>
    cases hread : readFloat? t.toList with
    | none => exact .inr (.inr ⟨_, by rw [toFloat, hread], rfl, nofun⟩)
    | some r =>
      cases r with
      | number x => exact .inl ⟨some x, by rw [toFloat, hread], nofun⟩
      | notANumber => exact .inl ⟨Option.none, by rw [toFloat, hread], nofun⟩
  | _ => exact .inr (.inr ⟨_, rfl, rfl, nofun⟩)

end Value

/-! ## 3. Attempts -/

namespace Eval

variable {α : Type} {s : Store} {v w : Value}

/-- What is read from the store is read, let pass, or fails. -/
theorem unless_read_of_misfit {f : Store → Except Cause α} (cause : Cause)
    (h : f s = .error cause) (hmisfit : Filter.isMisfit cause.kind = true) :
    Eval.unless Filter.isMisfit (Eval.read f) s = .ok none s :=
  unless_of_passes (read_of_error h) hmisfit

theorem unless_read_of_other {f : Store → Except Cause α} (cause : Cause)
    (h : f s = .error cause) (hother : Filter.isMisfit cause.kind = false) :
    Eval.unless Filter.isMisfit (Eval.read f) s = .error (Error.of cause) s :=
  unless_of_error (read_of_error h) hother

/-- **Two values that are read as integers**, the second one only if the first one is read. -/
theorem integers_failsWhere (g : Int → Int → α) :
    (Eval.unless Filter.isMisfit (Eval.read fun _ => do
      let m ← v.toInteger
      let n ← w.toInteger
      .ok (g m n))).FailsWhere s .overflow
        (v.IsInfinite ∨ (∃ m, v.toInteger = .ok m) ∧ w.IsInfinite) := by
  rcases v.toInteger_cases with ⟨m, hm, hv⟩ | ⟨hv, hinfinite⟩ | ⟨cause, hcause, hmisfit, hv⟩
  · rcases w.toInteger_cases with ⟨n, hn, hw⟩ | ⟨hw, hinfinite⟩ | ⟨cause, hcause, hmisfit, hw⟩
    · refine .of_ok (unless_of_ok (read_of_ok (a := g m n) ?_)) fun h => h.elim hv fun h => hw h.2
      rw [hm, hn]
      rfl
    · refine .of_error (unless_read_of_other .infinityToInteger ?_ rfl) rfl
        (.inr ⟨⟨m, hm⟩, hw⟩)
      rw [hm, hinfinite]
      rfl
    · refine .of_ok (unless_read_of_misfit cause ?_ hmisfit)
        fun h => h.elim hv fun h => hw h.2
      rw [hm, hcause]
      rfl
  · refine .of_error (unless_read_of_other .infinityToInteger ?_ rfl) rfl (.inl hv)
    rw [hinfinite]
    rfl
  · refine .of_ok (unless_read_of_misfit cause ?_ hmisfit) ?_
    · rw [hcause]
      rfl
    · rintro (h | ⟨⟨m, hm⟩, -⟩)
      · exact hv h
      · rw [hcause] at hm
        cases hm

/-- **Arithmetic fails** where an integer that has no floating point number next to it meets a
number that is no integer. -/
def Clash (x y : Numeric) : Prop :=
  (∃ m, x = .integer m ∧ Binary64.ofInt? m = none) ∧ (∀ n, y ≠ .integer n)

theorem arithmetic_failsWhere (exact : Int → Int → Int)
    (rounded : Binary64 → Binary64 → Option Binary64) (x y : Numeric) :
    (Eval.arithmetic exact rounded x y).FailsWhere s .overflow (Clash x y ∨ Clash y x) := by
  have hfloat : ∀ r s', ∃ v s'', Eval.ofFloat r s' = .ok v s'' := fun r s' => by
    cases r with
    | none => exact ⟨_, _, rfl⟩
    | some x => exact ⟨_, _, rfl⟩
  have hplain : ∀ r P, ¬P → (Eval.ofFloat r).FailsWhere s .overflow P := fun r P hP => by
    obtain ⟨v, s', hv⟩ := hfloat r s
    exact .of_ok hv hP
  have hnearest : ∀ (n : Int) (P : Prop), (P ↔ Binary64.ofInt? n = none) →
      (Eval.read fun _ => nearestFloat n).FailsWhere s .overflow P := by
    intro n P hP
    cases hn : Binary64.ofInt? n with
    | none =>
      have hfails : nearestFloat n = .error .integerToFloat := by rw [nearestFloat, hn]
      exact .of_error (read_of_error hfails) rfl (hP.mpr hn)
    | some x =>
      refine .of_ok (read_of_ok (a := x) ?_) fun h => ?_
      · rw [nearestFloat, hn]
      · cases hn.symm.trans (hP.mp h)
  cases x with
  | integer m =>
    cases y with
    | integer n => exact .of_ok rfl (by rintro (⟨-, h⟩ | ⟨-, h⟩) <;> exact h _ rfl)
    | binary y =>
      refine (hnearest m _ ?_).bind fun x s' => hfloat _ s'
      simp [Clash]
    | undefined =>
      refine (hnearest m _ ?_).bind fun x s' => hfloat _ s'
      simp [Clash]
  | binary x =>
    cases y with
    | integer n =>
      refine (hnearest n _ ?_).bind fun y s' => hfloat _ s'
      simp [Clash]
    | binary y => exact hplain (rounded x y) _ (by simp [Clash])
    | undefined => exact hplain none _ (by simp [Clash])
  | undefined =>
    cases y with
    | integer n =>
      refine (hnearest n _ ?_).bind fun y s' => hfloat _ s'
      simp [Clash]
    | binary y => exact hplain none _ (by simp [Clash])
    | undefined => exact hplain none _ (by simp [Clash])

/-- **The difference of two values** fails where the numbers that they are read as clash. -/
theorem minus_failsWhere : (Eval.unless Filter.isMisfit (Eval.minus v w)).FailsWhere s .overflow
    (∃ x y, v.readNumber = .ok x ∧ w.readNumber = .ok y ∧ (Clash x y ∨ Clash y x)) := by
  rcases v.readNumber_cases with ⟨x, hx⟩ | ⟨cause, hcause, hmisfit⟩
  · rcases w.readNumber_cases with ⟨y, hy⟩ | ⟨cause, hcause, hmisfit⟩
    · have hminus : Eval.minus v w s = Eval.arithmetic (· - ·) Binary64.sub? x y s := by
        unfold Eval.minus
        rw [bind_of_ok (read_of_ok hx), bind_of_ok (read_of_ok hy)]
      have harithmetic := arithmetic_failsWhere (s := s) (· - ·) Binary64.sub? x y
      constructor
      · rintro ⟨x', y', hx', hy', hclash⟩
        cases hx.symm.trans hx'
        cases hy.symm.trans hy'
        obtain ⟨e, s', he, hkind⟩ := harithmetic.fails hclash
        have hother : Filter.isMisfit e.kind = false := by
          rw [hkind]
          rfl
        exact ⟨e, s', unless_of_error (hminus.trans he) hother, hkind⟩
      · intro hno
        obtain ⟨u, s', hu⟩ := harithmetic.gives fun hclash => hno ⟨x, y, hx, hy, hclash⟩
        exact ⟨_, _, unless_of_ok (hminus.trans hu)⟩
    · have hminus : Eval.minus v w s = .error (Error.of cause) s := by
        unfold Eval.minus
        rw [bind_of_ok (read_of_ok hx), bind_of_error (read_of_error hcause)]
      refine .of_ok (unless_of_passes hminus hmisfit) ?_
      rintro ⟨x', y', -, hy', -⟩
      cases hcause.symm.trans hy'
  · refine .of_ok (unless_of_passes (bind_of_error (read_of_error hcause)) hmisfit) ?_
    rintro ⟨x', y', hx', -⟩
    cases hcause.symm.trans hx'

theorem toFloat_failsWhere :
    (Eval.unless Filter.isMisfit (Eval.read fun _ => v.toFloat)).FailsWhere s .overflow
      v.BeyondFloats := by
  rcases v.toFloat_cases with ⟨x, hx, hv⟩ | ⟨hv, hbeyond⟩ | ⟨cause, hcause, hmisfit, hv⟩
  · exact .of_ok (unless_of_ok (read_of_ok hx)) hv
  · exact .of_error (unless_read_of_other _ hbeyond rfl) rfl hv
  · exact .of_ok (unless_read_of_misfit _ hcause hmisfit) hv

/-- The length of a value. -/
theorem length_failsWhere : (Eval.unless Filter.isMisfit (Eval.read (·.length v))).FailsWhere s
    .overflow (∃ start stop, v = .range start stop ∧ isWord (rangeLength start stop) = false) := by
  cases v with
  | range start stop =>
    cases hword : isWord (rangeLength start stop) with
    | true =>
      have hshort : s.length (.range start stop) = .ok (rangeLength start stop) := by
        simp only [Store.length, hword, if_true]
      refine .of_ok (unless_of_ok (read_of_ok hshort)) ?_
      rintro ⟨start', stop', heq, hno⟩
      cases heq
      rw [hword] at hno
      cases hno
    | false =>
      have hlong : s.length (.range start stop) = .error .lengthTooLarge := by
        simp only [Store.length, hword]
        rfl
      exact .of_error (unless_read_of_other _ hlong rfl) rfl ⟨start, stop, rfl, hword⟩
  | text t safe => exact .of_ok (unless_of_ok (read_of_ok rfl)) nofun
  | list r => exact .of_ok (unless_of_ok (read_of_ok rfl)) nofun
  | tuple r => exact .of_ok (unless_of_ok (read_of_ok rfl)) nofun
  | dict r => exact .of_ok (unless_of_ok (read_of_ok rfl)) nofun
  | view kind r i => exact .of_ok (unless_of_ok (read_of_ok rfl)) nofun
  | _ => exact .of_ok (unless_read_of_misfit _ rfl rfl) nofun

end Eval

/-! ## 4. Results -/

namespace Filter

/-- A call of the standard filter with the name. -/
def callNamed (name : String) (arguments : List Value) : Eval Value :=
  match standard.find? name with
  | some f => f.call arguments
  | none => Eval.fail (.unknownFilter name)

variable {s : Store} {v w : Value}

theorem add_failsWhere : (callNamed "add" [v, w]).FailsWhere s .overflow
    (v.IsInfinite ∨ (∃ m, v.toInteger = .ok m) ∧ w.IsInfinite) := by
  refine (Eval.integers_failsWhere fun m n => Value.int (m + n)).bind fun o s' => ?_
  cases o with
  | some sum => exact ⟨_, _, rfl⟩
  | none =>
    obtain ⟨o, s'', ho⟩ := Eval.unless_any (Eval.plus v w) s'
    exact ⟨_, _, bind_of_ok ho⟩

theorem divisibleby_failsWhere : (callNamed "divisibleby" [v, w]).FailsWhere s .overflow
    (v.IsInfinite ∨ (∃ m, v.toInteger = .ok m) ∧ w.IsInfinite) :=
  (Eval.integers_failsWhere fun m n => decide (n ≠ 0 ∧ m % n = 0)).bind fun _ _ => ⟨_, _, rfl⟩

theorem subtract_failsWhere : (callNamed "subtract" [v, w]).FailsWhere s .overflow
    (∃ x y, v.readNumber = .ok x ∧ w.readNumber = .ok y ∧ (Eval.Clash x y ∨ Eval.Clash y x)) :=
  Eval.minus_failsWhere.bind fun _ _ => ⟨_, _, rfl⟩

theorem length_failsWhere : (callNamed "length" [v]).FailsWhere s .overflow
    (∃ start stop, v = .range start stop ∧ isWord (rangeLength start stop) = false) :=
  Eval.length_failsWhere.bind fun _ _ => ⟨_, _, rfl⟩

/-- The forms are read before the count. -/
theorem pluralizeBody_failsWhere {arguments : List Value}
    (hw : arguments.tail.headD (.plain "s,") = w) (hv : arguments.headD .none = v) :
    (pluralizeBody arguments).FailsWhere s (if s.shown? w = none then .badValue else .overflow)
      (s.shown? w = none ∨ v.BeyondFloats) := by
  subst hw hv
  cases hshown : s.shown? (arguments.tail.headD (.plain "s,")) with
  | none =>
    have htext : Eval.text (arguments.tail.headD (.plain "s,")) s =
        .error (Error.of (.value .integerTextTooLong)) s := by
      refine Eval.read_of_error ?_
      simp only [hshown]
    exact .of_error (bind_of_error htext) rfl (.inl rfl)
  | some forms =>
    have htext : Eval.text (arguments.tail.headD (.plain "s,")) s = .ok forms s := by
      refine Eval.read_of_ok ?_
      simp only [hshown]
    have hcount : (pluralizeBody arguments).FailsWhere s .overflow
        (arguments.headD .none).BeyondFloats := by
      refine .of_eq (bind_of_ok htext) (Eval.toFloat_failsWhere.bind fun o s' => ?_)
      split <;> exact ⟨_, _, rfl⟩
    simpa only [reduceCtorEq, if_false, false_or] using hcount

/-- **Where the filters of numbers and lengths fail**, and with which error; everywhere else they
give a value.  A sum and a test for divisibility fail for an infinity that would have to become an
integer; a difference, for an integer beyond the floating point numbers that meets a number that is
no integer; a count that chooses between two forms, for an integer beyond the floating point numbers
too, and where the text of the forms cannot be shown; a length, for a range that is too long. -/
theorem numbers_fail_where (s : Store) (v w : Value) :
    (callNamed "add" [v, w]).FailsWhere s .overflow
      (v.IsInfinite ∨ (∃ m, v.toInteger = .ok m) ∧ w.IsInfinite) ∧
    (callNamed "divisibleby" [v, w]).FailsWhere s .overflow
      (v.IsInfinite ∨ (∃ m, v.toInteger = .ok m) ∧ w.IsInfinite) ∧
    (callNamed "subtract" [v, w]).FailsWhere s .overflow
      (∃ x y, v.readNumber = .ok x ∧ w.readNumber = .ok y ∧ (Eval.Clash x y ∨ Eval.Clash y x)) ∧
    (callNamed "pluralize" [v, w]).FailsWhere s
      (if s.shown? w = none then .badValue else .overflow)
      (s.shown? w = none ∨ v.BeyondFloats) ∧
    (callNamed "pluralize" [v]).FailsWhere s .overflow v.BeyondFloats ∧
    (callNamed "length" [v]).FailsWhere s .overflow
      (∃ start stop, v = .range start stop ∧ isWord (rangeLength start stop) = false) := by
  have husual : (callNamed "pluralize" [v]).FailsWhere s _ _ :=
    pluralizeBody_failsWhere (w := .plain "s,") (v := v) rfl rfl
  have hforms : s.shown? (.plain "s,") = some "s," := rfl
  refine ⟨add_failsWhere, divisibleby_failsWhere, subtract_failsWhere,
    pluralizeBody_failsWhere rfl rfl, ?_, length_failsWhere⟩
  simpa only [hforms, reduceCtorEq, if_false, false_or] using husual

/-- **An infinity cannot be added to**: it is no misfit, and so the error is not let pass. -/
theorem add_to_infinity_fails :
    ∃ e, callNamed "add" [.float (.infinite false), .int 1] .empty = .error e .empty ∧
      e.kind = .overflow := ⟨_, rfl, rfl⟩

end Filter
end TextTemplate
