/-
# Where `else`, `elif` and `empty` stand

In a source that compiles an `else` or an `elif` goes on with a conditional, and an `empty` begins
the empty part of a loop.  But an empty part is a conditional to the linker and a loop to the
compilation, and so both may stand in an empty part as well: there an `else` gives what is rendered
if there *were* items, and what follows a second `empty` is rendered always.

* `else_placement` and `empty_placement` say where these statements stand;
* `Tree.renderGuarded` is the evaluation in which nothing between `empty` and `endfor` is rendered
  unless there were no items, and a regular tree is evaluated in this way.
-/
import TextTemplate.Proofs.Compile.Acceptance
import TextTemplate.Standard.Filters
import TextTemplate.Template

namespace TextTemplate

open TextTemplate.Outcome

/-! ## 1. Conditionals -/

/-- The innermost block at a place. -/
def Scan.In (c : Scan) (b : Opened) : Prop := ∃ outer, c.opened = b :: outer

/-- An `else` or an `elif` that is taken in goes on with a conditional, or with an empty part. -/
theorem Scan.in_of_continues {c c' : Scan} {t : Token} (h : c.take false t = some c')
    (ht : t.Continues) : c.In (.conditional false) ∨ c.In (.emptyPart false) := by
  obtain ⟨m, opened, hm, hn, -⟩ := take_eq_some h
  have hcontinued : ∃ last, Opened.continued false last c.opened = some opened := by
    rcases (Marker.continues_iff hm).mp ht with rfl | ⟨condition, rfl⟩
    · exact ⟨true, hn⟩
    · exact ⟨false, hn⟩
  obtain ⟨last, hlast⟩ := hcontinued
  unfold Opened.continued at hlast
  split at hlast
  · rename_i outer ho
    exact .inl ⟨outer, ho⟩
  · rename_i outer ho
    exact .inr ⟨outer, ho⟩
  · cases hlast

/-- What a refusal is called. -/
theorem Cause.Refuses.kind {cause : Cause} (h : cause.Refuses) :
    cause.kind = .templateSyntax ∨ ∃ digits, cause = .value (.integerTooLong digits) := by
  rcases h with ⟨fault, rfl⟩ | hdigits
  · exact .inl rfl
  · exact .inr hdigits

theorem Scan.not_in {c : Scan} {b b' : Opened} (h : c.In b) (hne : b ≠ b') : ¬c.In b' := by
  obtain ⟨outer, ho⟩ := h
  rintro ⟨outer', ho'⟩
  rw [ho] at ho'
  injection ho' with hb
  exact hne hb

/-- **The place of `else` and `elif`.**  A source compiles exactly if it is scanned to its end and
no block is open there.  Then each `else` and each `elif` of it stands where a conditional without
`else` is the innermost block, except where that is an empty part without `else`.  A source that
does not compile is refused with a syntax error, or for a row of digits that is too long. -/
theorem else_placement (delimiters : Delimiters) (source : String) (s : Store) :
    ((∃ p c, Compile.program Tag.standard (delimiters.tokens source) (.start s) = .ok p c) ↔
      ∃ n, scan false s.serial (delimiters.tokens source) = some ⟨n, []⟩) ∧
    ((∃ p c, Compile.program Tag.standard (delimiters.tokens source) (.start s) = .ok p c ∧
        ∀ before t after, delimiters.tokens source = before ++ t :: after → t.Continues →
          ∃ place, scan false s.serial before = some place ∧
            (place.In (.conditional false) ↔ ¬place.In (.emptyPart false))) ∨
      ∃ e c, Compile.program Tag.standard (delimiters.tokens source) (.start s) = .error e c ∧
        (e.kind = .templateSyntax ∨ ∃ digits, e.cause = .value (.integerTooLong digits))) := by
  refine ⟨program_compiles_iff _ s, ?_⟩
  rcases Compile.scanned_or_refused (delimiters.tokens source) s with hscan | ⟨e, c, he, hrefuses⟩
  · obtain ⟨p, c, hp⟩ := (program_compiles_iff _ s).mpr hscan
    obtain ⟨n, hscan⟩ := hscan
    refine .inl ⟨p, c, hp, fun before t after hsplit ht => ?_⟩
    rw [hsplit] at hscan
    obtain ⟨place, behind, hbefore, htake, -⟩ := scan_split hscan
    refine ⟨place, hbefore, fun hin => Scan.not_in hin (by decide), fun hnot => ?_⟩
    exact (Scan.in_of_continues htake ht).resolve_right hnot
  · exact .inr ⟨e, c, he, hrefuses.kind⟩

/-- An `else` in the empty part of a loop. -/
def elseInEmptySource : String :=
  "\x7b% for x in y %\x7d\x7b% empty %\x7d\x7b% else %\x7d\x7b% endfor %\x7d"

/-- The source with an `else` in an empty part compiles, although no conditional is open there. -/
theorem else_in_empty_compiles :
    (∃ p c, Compile.program Tag.standard (Delimiters.standard.tokens elseInEmptySource)
      (.start .empty) = .ok p c) ∧
    ∃ before t after place, Delimiters.standard.tokens elseInEmptySource = before ++ t :: after ∧
      t.Continues ∧ scan false Store.firstSerial before = some place ∧
      ¬place.In (.conditional false) := by
  constructor
  · refine (program_compiles_iff _ _).mpr ⟨⟨0, Store.firstSerial⟩, ?_⟩
    decide +kernel
  · refine ⟨[⟨.statement, "for x in y", 0, 16, 1⟩, ⟨.statement, "empty", 16, 27, 1⟩],
      ⟨.statement, "else", 27, 37, 1⟩, [⟨.statement, "endfor", 37, 49, 1⟩],
      ⟨⟨0, Store.firstSerial⟩, [.emptyPart false]⟩, by decide +kernel, .inl ⟨rfl, ?_⟩,
      by decide +kernel, ?_⟩
    · decide +kernel
    · rintro ⟨outer, ho⟩
      cases ho

/-- An `elif` in a conditional stands where the conditional is the innermost block. -/
theorem elif_in_conditional : ∃ place,
    scan false Store.firstSerial [⟨.statement, "if a", 0, 10, 1⟩] = some place ∧
      (place.In (.conditional false) ↔ ¬place.In (.emptyPart false)) := by
  have htokens : Delimiters.standard.tokens
      "\x7b% if a %\x7d\x7b% elif b %\x7d\x7b% endif %\x7d" = [⟨.statement, "if a", 0, 10, 1⟩] ++
        ⟨.statement, "elif b", 10, 22, 1⟩ :: [⟨.statement, "endif", 22, 33, 1⟩] := by decide +kernel
  obtain ⟨hcompiles, hplaced⟩ := else_placement Delimiters.standard
    "\x7b% if a %\x7d\x7b% elif b %\x7d\x7b% endif %\x7d" .empty
  rw [htokens] at hcompiles hplaced
  rcases hplaced with ⟨p, c, hp, hplaced⟩ | ⟨e, c, he, -⟩
  · exact hplaced _ _ _ rfl (.inr ⟨rfl, by decide +kernel⟩)
  · obtain ⟨p, c', hp⟩ := hcompiles.mpr ⟨⟨0, Store.firstSerial⟩, by decide +kernel⟩
    rw [he] at hp
    cases hp

/-! ## 2. Empty parts -/

/-- An `empty` that is taken in begins an empty part of a loop, the first one or another one. -/
theorem Scan.in_of_empty {c c' : Scan} {t : Token} (h : c.take false t = some c')
    (ht : t.Says "empty") : c.In .loop ∨ ∃ otherwise, c.In (.emptyPart otherwise) := by
  obtain ⟨m, opened, hm, hn, -⟩ := take_eq_some h
  obtain rfl := (Marker.says_empty_iff hm).mp ht
  have hemptied : Opened.emptied false c.opened = some opened := hn
  unfold Opened.emptied at hemptied
  split at hemptied
  · rename_i outer ho
    exact .inl ⟨outer, ho⟩
  · rename_i otherwise outer ho
    exact .inr ⟨otherwise, outer, ho⟩
  · cases hemptied

/-- Do something only in one case. -/
def Run.onlyIf (b : Bool) (x : Run Unit) : Run Unit := if b then x else pure ()

mutual

/-- Render a tree so that what stands between `empty` and `endfor` is rendered only if the loop had
no items. -/
def Tree.renderGuarded (env : Environment) : Tree → Run Unit
  | .nil => pure ()
  | .leaf t l next => do
    Run.located env t (l.render env)
    next.renderGuarded env
  | .conditional t c body chain _ next => do
    Run.choose env t c (body.renderGuarded env) (chain.renderGuarded env)
    next.renderGuarded env
  | .loop t names e body parts closing next => do
    let items ← Run.inLayer do
      let items ← Run.located env t (Run.loopItems env e)
      Run.rounds env names (body.renderGuarded env) (parts.endOfBody closing) t items
      pure items
    Run.onlyIf items.isEmpty (parts.renderGuarded env)
    next.renderGuarded env
  | .skipped _ _ _ next => next.renderGuarded env

/-- Render the first body of a chain whose condition holds. -/
def Chain.renderGuarded (env : Environment) : Chain → Run Unit
  | .done => pure ()
  | .otherwise _ body => body.renderGuarded env
  | .alternative t c body chain =>
    Run.choose env t c (body.renderGuarded env) (chain.renderGuarded env)

/-- Render all that stands between `empty` and `endfor`. -/
def EmptyParts.renderGuarded (env : Environment) : EmptyParts → Run Unit
  | .none => pure ()
  | .part _ body chain more => do
    body.renderGuarded env
    chain.renderGuarded env
    more.renderGuarded env

end

mutual

/-- **A regular tree is rendered guarded.** -/
theorem Tree.render_of_regular {env : Environment} : ∀ {tree : Tree}, tree.Regular →
    tree.render env = tree.renderGuarded env
  | .nil, _ => rfl
  | .leaf t l next, h => by
    have hnext : next.Regular := h
    rw [Tree.render, Tree.renderGuarded, Tree.render_of_regular hnext]
  | .conditional t c body chain closing next, ⟨hbody, hchain, hnext⟩ => by
    rw [Tree.render, Tree.renderGuarded, Tree.render_of_regular hbody,
      Chain.render_of_regular hchain, Tree.render_of_regular hnext]
  | .loop t names e body parts closing next, ⟨hbody, hparts, hnext⟩ => by
    rw [Tree.render, Tree.renderGuarded, Tree.render_of_regular hbody,
      Tree.render_of_regular hnext]
    have hguard := @EmptyParts.render_of_regular env parts hparts
    simp only [hguard]
  | .skipped t body closing next, ⟨hbody, hnext⟩ => by
    rw [Tree.render, Tree.renderGuarded, Tree.render_of_regular hnext]

theorem Chain.render_of_regular {env : Environment} : ∀ {chain : Chain}, chain.Regular →
    chain.render env = chain.renderGuarded env
  | .done, _ => rfl
  | .otherwise t body, h => by
    have hbody : body.Regular := h
    rw [Chain.render, Chain.renderGuarded, Tree.render_of_regular hbody]
  | .alternative t c body chain, ⟨hbody, hchain⟩ => by
    rw [Chain.render, Chain.renderGuarded, Tree.render_of_regular hbody,
      Chain.render_of_regular hchain]

theorem EmptyParts.render_of_regular {env : Environment} : ∀ {parts : EmptyParts}, parts.Regular →
    ∀ empty, parts.render env empty = Run.onlyIf empty (parts.renderGuarded env)
  | .none, _, empty => by cases empty <;> rfl
  | .part t body chain more, ⟨hbody, hchain, hmore⟩, empty => by
    subst hchain hmore
    cases empty with
    | true =>
      rw [EmptyParts.render, EmptyParts.renderGuarded, Tree.render_of_regular hbody]
      rfl
    | false => rfl

end

/-- **The place of `empty`.**  In a source that compiles each `empty` stands where a loop is the
innermost block, except where that is an empty part.  Its program runs as the tree of the source is
evaluated; and if no empty part is gone on with, by `else`, by `elif` or by another `empty`, then
what stands between `empty` and `endfor` is rendered only by a loop that has had no items. -/
theorem empty_placement (delimiters : Delimiters) (source : String) (s : Store) {p : Program}
    {c : Compilation}
    (hp : Compile.program Tag.standard (delimiters.tokens source) (.start s) = .ok p c) :
    (∀ before t after, delimiters.tokens source = before ++ t :: after → t.Says "empty" →
      ∃ place, scan false s.serial before = some place ∧
        (place.In .loop ↔ ¬∃ otherwise, place.In (.emptyPart otherwise))) ∧
    ∃ tree : Tree, tree.tokens = delimiters.tokens source ∧ tree.Reads ⟨0, s.serial⟩ ∧
      (∀ env, p.run env = tree.run env) ∧
      (Scan.Plain ⟨⟨0, s.serial⟩, []⟩ (delimiters.tokens source) →
        ∀ env, tree.render env = tree.renderGuarded env) := by
  constructor
  · intro before t after hsplit ht
    obtain ⟨n, hscan⟩ := (program_compiles_iff _ s).mp ⟨p, c, hp⟩
    rw [hsplit] at hscan
    obtain ⟨place, behind, hbefore, htake, -⟩ := scan_split hscan
    refine ⟨place, hbefore, ?_, fun hnot => (Scan.in_of_empty htake ht).resolve_right hnot⟩
    rintro hin ⟨otherwise, hempty⟩
    have hne : Opened.loop ≠ .emptyPart otherwise := fun h => nomatch h
    exact Scan.not_in hin hne hempty
  · obtain ⟨tree, htokens, hr, rfl, hregular⟩ := Compile.tree_of_program hp
    exact ⟨tree, htokens, hr, tree.run_linked hr, fun hplain _ =>
      Tree.render_of_regular (hregular hplain)⟩

/-- A loop with one empty part. -/
def singleEmptySource : String :=
  "\x7b% for x in y %\x7da\x7b% empty %\x7db\x7b% endfor %\x7d"

/-- The empty part of a loop is rendered only if the loop has had no items. -/
theorem single_empty_guarded : ∃ p c,
    Compile.program Tag.standard (Delimiters.standard.tokens singleEmptySource) (.start .empty) =
      .ok p c ∧
    ∃ tree : Tree, tree.tokens = Delimiters.standard.tokens singleEmptySource ∧
      (∀ env, p.run env = tree.run env) ∧ ∀ env, tree.render env = tree.renderGuarded env := by
  have hstrict : scan true Store.firstSerial (Delimiters.standard.tokens singleEmptySource) =
      some ⟨⟨0, Store.firstSerial⟩, []⟩ := by decide +kernel
  obtain ⟨hscan, hplain⟩ := scan_strict_iff.mp hstrict
  obtain ⟨p, c, hp⟩ := (program_compiles_iff _ .empty).mpr ⟨_, hscan⟩
  obtain ⟨-, tree, htokens, -, hrun, hguarded⟩ :=
    empty_placement Delimiters.standard singleEmptySource .empty hp
  exact ⟨p, c, hp, tree, htokens, hrun, hguarded hplain⟩

/-- A loop over one item, with two empty parts. -/
def secondEmptySource : String :=
  "\x7b% for x in [1..1] %\x7da\x7b% empty %\x7db\x7b% empty %\x7dc\x7b% endfor %\x7d"

/-- The same as a tree. -/
def secondEmptyTree : Tree :=
  .loop ⟨.statement, "for x in [1..1]", 0, 21, 1⟩ ["x"] ⟨"[1..1]", ⟨"[1..1]", .range 1 1⟩, []⟩
    (.leaf ⟨.text, "a", 21, 22, 1⟩ (.text "a") .nil)
    (.part ⟨.statement, "empty", 22, 33, 1⟩ (.leaf ⟨.text, "b", 33, 34, 1⟩ (.text "b") .nil) .done
      (.part ⟨.statement, "empty", 34, 45, 1⟩ (.leaf ⟨.text, "c", 45, 46, 1⟩ (.text "c") .nil)
        .done .none))
    ⟨.statement, "endfor", 46, 58, 1⟩ .nil

/-- The value that a run gives, if it gives one. -/
def givenBy : EStateM.Result Error World Value → Option Value
  | .ok v _ => some v
  | .error _ _ => none

/-- The source with two empty parts compiles, although the second `empty` does not stand in the
loop, and the second part is rendered although the loop has had an item. -/
theorem second_empty_renders : ∃ p c,
    Compile.program Tag.standard (Delimiters.standard.tokens secondEmptySource) (.start .empty) =
      .ok p c ∧
    (∃ before t after place, Delimiters.standard.tokens secondEmptySource = before ++ t :: after ∧
      t.Says "empty" ∧ scan false Store.firstSerial before = some place ∧ ¬place.In .loop) ∧
    givenBy (p.run (.detached Filter.standard (.bool true))
      ⟨⟨⟨.dict 0, []⟩, none⟩, { Store.empty with dicts := #[[]] }⟩) = some (.markup "ac") := by
  have htokens : Delimiters.standard.tokens secondEmptySource = secondEmptyTree.tokens := by
    decide +kernel
  have hr : secondEmptyTree.Reads ⟨0, Store.firstSerial⟩ := by decide +kernel
  obtain ⟨c, hp, -⟩ := secondEmptyTree.program_tokens .empty hr
  rw [htokens]
  refine ⟨_, c, hp, ⟨[⟨.statement, "for x in [1..1]", 0, 21, 1⟩, ⟨.text, "a", 21, 22, 1⟩,
    ⟨.statement, "empty", 22, 33, 1⟩, ⟨.text, "b", 33, 34, 1⟩], ⟨.statement, "empty", 34, 45, 1⟩,
    [⟨.text, "c", 45, 46, 1⟩, ⟨.statement, "endfor", 46, 58, 1⟩],
    ⟨⟨0, Store.firstSerial⟩, [.emptyPart false]⟩, by decide +kernel, ⟨rfl, by decide +kernel⟩,
    by decide +kernel, ?_⟩, ?_⟩
  · rintro ⟨outer, ho⟩
    cases ho
  · rw [secondEmptyTree.run_linked hr]
    decide +kernel

end TextTemplate
