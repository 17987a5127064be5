/-
# Where a failing instruction is shown

When an instruction fails in the run of a template and its error has no place yet, a debugging
engine shows it at the marker that the instruction belongs to.  The place is attached together with
a message, the first argument of the error as a text; where that has no text, as an integer beyond
the limit has none, making the place fails in its turn, and what is raised instead has none.

* `LoopsMatch.runFrom_of_reaches` says that a run goes by way of whatever its steps reach;
* `Template.Raises` says that an instruction fails in the run of a template, and
  `Template.runWithin_of_raises` that the run fails with what is made of the error;
* `Template.failures_placed` is the result, and `Template.long_argument_unplaced` an error that
  loses its place.
-/
import TextTemplate.Proofs.Assembly.Ending
import TextTemplate.Proofs.Place.Errors
import TextTemplate.Proofs.Place.Owners
import TextTemplate.Proofs.Run.Layers
import TextTemplate.Proofs.Safety.Autoescape

namespace TextTemplate

open TextTemplate.Decimal TextTemplate.Outcome

/-! ## 1. Runs -/

/-- **A run goes by way of what its steps reach**, and needs no step to spare for it. -/
theorem LoopsMatch.runFrom_of_reaches {items : List Item} {p : Program}
    (hlabels : (items.map (·.label)).Nodup) (hp : Program.assemble items = .ok p)
    {env : Environment} {start place : Nat} {f f' : Frame}
    (h : LoopsMatch (codeOf items) start f.loops) (hstart : start ≤ p.size)
    (hsteps : p.Reaches env start f place f') (spare : Nat) :
    p.runFrom env spare start f = p.runFrom env spare place f' := by
  induction hsteps with
  | refl => rfl
  | tail steps here step ih =>
    obtain ⟨-, hmatch⟩ := h.reached hlabels hp hstart steps
    rw [ih h, Program.runFrom_of_below here step (hmatch.below hlabels hp here step)]

/-! ## 2. Failures -/

namespace Template

variable {t : Template} {autoescape : Value} {levels : Nat} {w : World}

/-- The place of a token in the source of a template, with a message. -/
def placeOf (t : Template) (message : String) (u : Token) : DebugInfo :=
  DebugInfo.of t.source.toList t.name message u.start u.stop

/-- In the run of a template in a world an instruction raises an error: some steps lead to it, and
it fails, leaving a frame behind. -/
inductive Raises (t : Template) (autoescape : Value) (levels : Nat) (w : World) :
    Linked → Error → Frame → Prop where
  | reached {place : Nat} {f f' : Frame} {i : Linked} {e : Error}
      (steps : t.program.Reaches (t.environment autoescape (nestedWithin levels t autoescape))
        0 ⟨w, [], [], []⟩ place f)
      (here : t.program.code[place]? = some i)
      (fails : i.execute (t.environment autoescape (nestedWithin levels t autoescape)) place f =
        .error e f') : Raises t autoescape levels w i e f'

/-- The instruction is one of the program. -/
theorem Raises.mem {i : Linked} {e : Error} {f : Frame} (h : t.Raises autoescape levels w i e f) :
    i ∈ t.program.code := by
  cases h with
  | reached _ here _ => exact Array.mem_of_getElem? here

/-- **A run fails where an instruction raises an error**, with what the template makes of it. -/
theorem runWithin_of_raises {items : List Item} (hlabels : (items.map (·.label)).Nodup)
    (hp : Program.assemble items = .ok t.program) {i : Linked} {e : Error} {f : Frame}
    (h : t.Raises autoescape levels w i e f) :
    ∃ w', runWithin levels t autoescape w = .error (t.locate f.world.store i.token e) w' := by
  cases h with
  | @reached place f₀ _ _ _ steps here fails =>
    have hstep : i.step (t.environment autoescape (nestedWithin levels t autoescape)) place f₀ =
        .error (t.locate f.world.store i.token e) f := by
      unfold Linked.step
      rw [fails]
      rfl
    have hstart : LoopsMatch (codeOf items) 0 (⟨w, [], [], []⟩ : Frame).loops := .start _
    have hgoes := hstart.runFrom_of_reaches hlabels hp (Nat.zero_le _) steps Program.spareSteps
    rw [runWithin_eq]
    unfold Program.run
    rw [hgoes, Program.runFrom_of_error here hstep]
    exact ⟨_, rfl⟩

/-- A debugging engine places an error that has no place. -/
theorem locate_of_debugging (hdebug : t.engine.debugging = true) {e : Error}
    (hplain : e.debug = none) (s : Store) (u : Token) :
    t.locate s (some u) e = e.placed s t.source t.name u := by
  unfold locate
  rw [hplain]
  simp only [hdebug, if_true]

/-- **Instructions belong to markers, and failures are shown there.**  Let a source compile with
the standard tags.  Then each instruction has the token of one of its markers, in the order of the
source, and each token has one run of instructions: its text if that is not empty, its expression,
none for a comment, some for a statement.  With a debugging engine, let an instruction of a run
raise an error that has no place.  Then the run fails, and it fails with this error, shown at the
marker that the instruction belongs to, exactly if the argument of the error has a text or there is
no argument; otherwise it fails because the text of an integer is too long. -/
theorem failures_placed {engine : Engine} {name : Option String} {source : Value} {o : Overrides}
    {s s' : Store} (h : compile engine name source o s = .ok t s')
    (htags : t.grammar.tags = Tag.standard) :
    t.program.BelongsTo (t.grammar.delimiters.tokens t.source) ∧
    (t.engine.debugging = true → ∀ autoescape levels w i e f,
      t.Raises autoescape levels w i e f → e.debug = none →
        ∃ u ∈ t.grammar.delimiters.tokens t.source, i.token = some u ∧
          ∃ e' w', runWithin levels t autoescape w = .error e' w' ∧
            ((∃ message, e' = { e with debug := some (t.placeOf message u) }) ↔
              e.cause.argumentText f.world.store ≠ .unprintable) ∧
            (e.cause.argumentText f.world.store = .unprintable →
              e' = Error.of (.value .integerTextTooLong))) := by
  obtain ⟨s₀, c, hp, -, -⟩ := program_of_compile h
  rw [htags] at hp
  have hbelongs := Compile.belongs_of_program hp
  refine ⟨hbelongs, fun hdebug autoescape levels w i e f hraises hplain => ?_⟩
  obtain ⟨items, hlabels, hassemble⟩ := assembled_of_compile h (htags ▸ ordinaryTags_standard)
  obtain ⟨u, hu, htoken⟩ := hbelongs.token i hraises.mem
  obtain ⟨w', hrun⟩ := runWithin_of_raises hlabels hassemble hraises
  rw [htoken, locate_of_debugging hdebug hplain] at hrun
  refine ⟨u, hu, htoken, _, w', hrun, ⟨?_, fun hprintable => ?_⟩, fun hlong => ?_⟩
  · rintro ⟨message, hplaced⟩ hlong
    rw [Error.placed_of_unprintable hlong] at hplaced
    exact absurd (congrArg Error.debug hplaced) (by simp [Error.of])
  · exact Error.placed_of_printable hprintable t.source t.name u
  · exact Error.placed_of_unprintable hlong t.source t.name u

/-! ## 3. A sum that is raised -/

/-- The usual engine, reporting places. -/
def reporting : Engine := { Engine.standard with debug := .bool true, debugging := true }

/-- A filter that adds and one that fails with its value. -/
def raisingFilters : Table Filter :=
  [("add", .any "add" Filter.withArgument false Filter.addBody),
    ("boom", .unflagged "boom" Filter.withArgument 1 (Filter.failBody fun _ => .badValue))]

/-- A source that doubles a number and fails with the sum. -/
def raisingSource : String := "\x7b\x7b x|add:x|boom \x7d\x7d"

/-- Its only token. -/
def raisingToken : Token := ⟨.expression, "x|add:x|boom", 0, 18, 1⟩

/-- The expression in it. -/
def raisingExpression : Expression :=
  ⟨"x|add:x|boom", ⟨"x", .path ["x"]⟩, [⟨"add", some ⟨"x", .path ["x"]⟩⟩, ⟨"boom", none⟩]⟩

/-- The grammar that it is compiled with. -/
def raisingGrammar : Grammar := ⟨Tag.standard, raisingFilters, Delimiters.standard⟩

/-- The source has been compiled to a template, with the filters and the usual tags. -/
structure Raising (t : Template) : Prop where
  compiled : ∃ s, compile reporting none (.plain raisingSource) ⟨none, some raisingFilters, .none⟩
    .empty = .ok t s
  grammar : t.grammar = raisingGrammar
  engine : t.engine = reporting
  program : t.program = .ofExpression raisingToken raisingExpression

theorem exists_raising : ∃ t : Template, t.Raising := by
  have htokens : Delimiters.standard.tokens raisingSource = [raisingToken] := by decide +kernel
  have hread : Marker.read? ⟨0, Store.firstSerial⟩ raisingToken =
      some (.leaf (.expression raisingExpression)) := by decide +kernel
  obtain ⟨c, hp⟩ := Program.compile_ofExpression (s := .empty) hread
  rw [← htokens] at hp
  have hgrammar : reporting.grammar.clone ⟨none, some raisingFilters, .none⟩ .empty =
      .ok raisingGrammar .empty := rfl
  refine ⟨⟨none, reporting, raisingSource, raisingGrammar,
    .ofExpression raisingToken raisingExpression, c.references.reverse.eraseDups⟩,
    ⟨c.store, ?_⟩, rfl, rfl, rfl⟩
  refine bind_eq_ok.mpr ⟨raisingSource, .empty, rfl, bind_eq_ok.mpr ⟨_, _, hgrammar, ?_⟩⟩
  simp only [raisingGrammar, hp]

/-- A world in which `x` is a number. -/
def numberWorld (n : Int) : World :=
  ⟨⟨.ofRoot (.dict 0), some ⟨.bool true, none, none⟩⟩,
    { Store.empty with dicts := #[Dict.ofBindings [("x", .int n)]] }⟩

/-- **Its run raises an error about the sum**, whatever the number is. -/
theorem Raising.raises {t : Template} (h : t.Raising) (n : Int) :
    t.Raises (.bool true) maxLevels (numberWorld n)
      (.plain raisingToken (.expression raisingExpression))
      (Error.of (.raised .badValue (some (.int (n + n))))) ⟨numberWorld n, [], [], []⟩ := by
  have here : t.program.code[0]? =
      some (.plain raisingToken (.expression raisingExpression)) := by
    rw [h.program]
    rfl
  refine .reached (.refl 0 _) here ?_
  have hfilters : (t.environment (.bool true) (nestedWithin maxLevels t (.bool true))).filters =
      raisingFilters := congrArg Grammar.filters h.grammar
  generalize t.environment (.bool true) (nestedWithin maxLevels t (.bool true)) = env at hfilters ⊢
  obtain ⟨filters, autoescape, locate, nested⟩ := env
  cases hfilters
  rfl

/-- The sum is 4, and the error is shown at the expression. -/
theorem failures_placed_sum : ∃ (t : Template) (i : Linked) (e : Error) (f : Frame),
    t.Raising ∧ t.Raises (.bool true) maxLevels (numberWorld 2) i e f ∧ e.debug = none ∧
      ∃ message e' w', runWithin maxLevels t (.bool true) (numberWorld 2) = .error e' w' ∧
        e' = { e with debug := some (t.placeOf message raisingToken) } := by
  obtain ⟨t, h⟩ := exists_raising
  obtain ⟨s, hcompiled⟩ := h.compiled
  have hdebug : t.engine.debugging = true := congrArg Engine.debugging h.engine
  obtain ⟨-, hplaced⟩ := failures_placed hcompiled (congrArg Grammar.tags h.grammar)
  obtain ⟨u, -, hu, e', w', hrun, hiff, -⟩ :=
    hplaced hdebug (.bool true) maxLevels (numberWorld 2) _ _ _ (h.raises 2) rfl
  obtain rfl : u = raisingToken := (Option.some.inj hu).symm
  obtain ⟨message, he'⟩ := hiff.mpr (by decide +kernel)
  exact ⟨t, _, _, _, h, h.raises 2, rfl, message, e', w', hrun, he'⟩

/-- Twice a number of nines and zeros has one digit more than the number. -/
theorem decimal?_double : decimal? ((9 * tenTo (digitLimit - 1) : Nat) +
    (9 * tenTo (digitLimit - 1) : Nat)) = none := by
  have hweight : ∀ {k : Nat}, 0 < k → tenTo k = 10 * tenTo (k - 1) := fun hk =>
    (Nat.pow_pred_mul hk).symm.trans (Nat.mul_comm _ _)
  have hlimit := hweight (k := digitLimit) (by decide)
  generalize tenTo (digitLimit - 1) = weight at hlimit ⊢
  refine if_neg fun hlt => ?_
  rw [hlimit] at hlt
  omega

/-- Where the sum has no text, the run fails without a place. -/
theorem Raising.unplaced {t : Template} (h : t.Raising) {n : Int}
    (hsum : decimal? (n + n) = none) : ∃ w', runWithin maxLevels t (.bool true) (numberWorld n) =
      .error (Error.of (.value .integerTextTooLong)) w' := by
  obtain ⟨s, hcompiled⟩ := h.compiled
  have htags : t.grammar.tags = Tag.standard := congrArg Grammar.tags h.grammar
  obtain ⟨items, hlabels, hassemble⟩ :=
    assembled_of_compile hcompiled (htags ▸ ordinaryTags_standard)
  obtain ⟨w', hrun⟩ := runWithin_of_raises hlabels hassemble (h.raises n)
  have hdebug : t.engine.debugging = true := congrArg Engine.debugging h.engine
  have hlong : (Cause.raised .badValue (some (.int (n + n)))).argumentText (numberWorld n).store =
      .unprintable := by
    have hshown : (numberWorld n).store.shown? (.int (n + n)) = none := hsum
    simp only [Cause.argumentText, hshown]
  have hplaced := Error.placed_of_unprintable (e := Error.of _) hlong t.source t.name raisingToken
  exact ⟨w', by rw [hrun, Linked.plain, locate_of_debugging hdebug rfl, hplaced]⟩

/-- **An error that loses its place.**  The number has as many digits as the limit allows, and the
sum one more: it has no text, the message cannot be made, and the run fails without a place. -/
theorem long_argument_unplaced : ∃ (t : Template) (n : Int) (i : Linked) (e : Error) (f : Frame),
    t.Raising ∧ n = (9 * tenTo (digitLimit - 1) : Nat) ∧
      t.Raises (.bool true) maxLevels (numberWorld n) i e f ∧ e.debug = none ∧
      i.token = some raisingToken ∧
      ∃ e' w', runWithin maxLevels t (.bool true) (numberWorld n) = .error e' w' ∧
        e'.debug = none := by
  obtain ⟨t, h⟩ := exists_raising
  obtain ⟨w', hrun⟩ := h.unplaced decimal?_double
  exact ⟨t, _, _, _, _, h, rfl, h.raises _, rfl, rfl, _, w', hrun, rfl⟩

end Template
end TextTemplate
