/-
# The cycles of a source

A compilation numbers the cycles of its source from left to right, and each counts its turns under
its own number.  So the turns of a cycle are the turns under its counter, however often the other
cycles of the template have their turns in between.

* `Draft.Numbered` says that the numbers so far are right, `Compile.cycle_of_program` where a cycle
  of a program comes from;
* `Delimiters.nodup_tokens` says that a source has no token twice, so that a token tells its cycle;
* `Template.cycles_take_turns` is the result, for any number of renderings in one context.
-/
import Mathlib.Data.List.Nodup
import TextTemplate.Proofs.Compile.Acceptance
import TextTemplate.Proofs.Cycles.Renderings
import TextTemplate.Proofs.Grammar.Segmentation

namespace TextTemplate

open TextTemplate.Decimal TextTemplate.Outcome TextTemplate.Text

/-! ## 1. What tokens say about cycles -/

instance (t : Token) (word : String) : Decidable (t.Says word) :=
  inferInstanceAs (Decidable (_ ∧ _))

/-- The cycles among some tokens. -/
def Token.cycles (tokens : List Token) : List Token := tokens.filter fun t => t.Says "cycle"

theorem Token.cycles_append (tokens more : List Token) :
    cycles (tokens ++ more) = cycles tokens ++ cycles more := List.filter_append ..

/-- The instruction is no cycle. -/
def Instruction.Turnless (i : Instruction) : Prop := ∀ values counter, i ≠ .cycle values counter

/-- If the instruction is a cycle, then its token is one among the tokens and says its values, and
it counts under the number of that token. -/
def Instruction.NumberedIn (tokens : List Token) (t : Token) (i : Instruction) : Prop :=
  ∀ values counter, i = .cycle values counter → ∃ n, (Token.cycles tokens)[n]? = some t ∧
    (units t.remainder).mapM Expression.read = .ok values ∧ counter = Tag.cycleCounter n

section Tokens

variable {tokens : List Token} {t : Token} {i : Instruction}

theorem Instruction.Turnless.numberedIn (h : i.Turnless) : i.NumberedIn tokens t :=
  fun values counter hi => absurd hi (h values counter)

/-- Tokens behind do not matter. -/
theorem Instruction.NumberedIn.append (h : i.NumberedIn tokens t) (more : List Token) :
    i.NumberedIn (tokens ++ more) t := by
  intro values counter hi
  obtain ⟨n, hn, hrest⟩ := h values counter hi
  refine ⟨n, ?_, hrest⟩
  obtain ⟨hlt, -⟩ := List.getElem?_eq_some_iff.mp hn
  rw [Token.cycles_append, List.getElem?_append_left hlt]
  exact hn

namespace Marker

variable {n : Numbers} {m : Marker}

/-- **What a token says about cycles**: it is a cycle with the values that stand behind the word, or
the marker is none. -/
theorem cases_of_cycle (h : read? n t = some m) :
    (t.Says "cycle" ∧ ∃ values, (units t.remainder).mapM Expression.read = .ok values ∧
      m = .leaf (.cycle values (Tag.cycleCounter n.cycles))) ∨
    (¬ t.Says "cycle" ∧ ∀ values counter, m ≠ .leaf (.cycle values counter)) := by
  by_cases hword : t.Says "cycle"
  · refine .inl ⟨hword, ?_⟩
    have hstated := stated_of_word h hword
    generalize hw : "cycle" = word at hstated
    cases hstated with
    | cycle hunits hread => exact ⟨_, hunits ▸ hread, rfl⟩
    | _ => exact absurd hw (by decide)
  · refine .inr ⟨hword, ?_⟩
    rintro values counter rfl
    unfold read? at h
    split at h
    · split at h <;> cases h
    · split at h
      · cases h
      · obtain ⟨e, -, he⟩ := ok_of_toOption h
        cases he
    · rename_i hkind
      split at h
      · cases h
      · have hstated := stated_of_ofStatement h
        generalize hw : String.ofList t.command = word at hstated
        cases hstated
        refine hword ⟨hkind, ?_⟩
        rw [← hw, String.toList_ofList]
    · cases h

/-- The cycles that have been met behind a marker. -/
theorem advance_cycles (h : read? n t = some m) :
    (m.advance n).cycles = n.cycles + (Token.cycles [t]).length := by
  rcases cases_of_cycle h with ⟨hword, values, -, rfl⟩ | ⟨hword, hm⟩
  · simp [Token.cycles, hword, advance, Leaf.advance]
  · have hsame : (m.advance n).cycles = n.cycles := by
      cases m with
      | leaf l =>
        cases l with
        | cycle values counter => exact absurd rfl (hm values counter)
        | _ => rfl
      | _ => rfl
    simp [Token.cycles, hword, hsame]

/-- What a marker writes, and the ends of blocks behind it, are no cycles, but for the marker of a
cycle. -/
theorem turnless_of_effect {pending pending' : List PendingClose} {code : List Instruction}
    (he : m.effect t pending = some (pending', code))
    (hs : ∀ b ∈ pending, ∀ i ∈ b.ending, i.Turnless) :
    (∀ b ∈ pending', ∀ i ∈ b.ending, i.Turnless) ∧
      ((∃ values counter, m = .leaf (.cycle values counter) ∧ code = [.cycle values counter]) ∨
        ∀ i ∈ code, i.Turnless) := by
  cases acts_of_effect he with
  | leaf l =>
    refine ⟨hs, ?_⟩
    cases l with
    | cycle values counter => exact .inl ⟨values, counter, rfl, rfl⟩
    | _ => exact .inr (by simp [Leaf.code, Instruction.Turnless])
  | empty =>
    obtain ⟨hb, houter⟩ := List.forall_mem_cons.mp hs
    refine ⟨List.forall_mem_cons.mpr ⟨by simp [Instruction.Turnless], houter⟩, .inr ?_⟩
    have hends : ∀ flag, Instruction.Turnless (.setFlag flag) ∧
        Instruction.Turnless (.branch (.flagUnset flag) false) := by simp [Instruction.Turnless]
    simpa [or_imp, forall_and, hends] using hb
  | closes =>
    obtain ⟨hb, houter⟩ := List.forall_mem_cons.mp hs
    exact ⟨houter, .inr hb⟩
  | _ => exact ⟨by simpa [Instruction.Turnless] using hs, .inr (by simp [Instruction.Turnless])⟩

end Marker

/-! ## 2. The numbers of cycles -/

/-- The draft of some tokens has numbered the cycles among them. -/
structure Draft.Numbered (tokens : List Token) (d : Draft) : Prop where
  met : d.numbers.cycles = (Token.cycles tokens).length
  endings : ∀ b ∈ d.pending, ∀ i ∈ b.ending, i.Turnless
  code : ∀ p ∈ d.code, p.1.NumberedIn tokens p.2

namespace Draft.Numbered

variable {d d' : Draft}

/-- **A token** gives a cycle the next number. -/
theorem take (h : d.Numbered tokens) (ht : d.take t = some d') : d'.Numbered (tokens ++ [t]) := by
  obtain ⟨m, pending, code, hm, he, rfl⟩ := take_eq_some ht
  obtain ⟨hendings, hcode⟩ := Marker.turnless_of_effect he h.endings
  refine ⟨?_, hendings, fun p hp => ?_⟩
  · rw [Marker.advance_cycles hm, h.met, Token.cycles_append, List.length_append]
  rcases List.mem_append.mp hp with hp | hp
  · exact (h.code p hp).append [t]
  obtain ⟨i, hi, rfl⟩ := List.mem_map.mp hp
  rcases hcode with ⟨values, counter, rfl, rfl⟩ | hcode
  · obtain rfl := List.mem_singleton.mp hi
    rintro _ _ ⟨⟩
    rcases Marker.cases_of_cycle hm with ⟨hword, values', hread, heq⟩ | ⟨-, hno⟩
    · cases heq
      refine ⟨d.numbers.cycles, ?_, hread, rfl⟩
      rw [h.met]
      simp [Token.cycles, hword]
    · exact absurd rfl (hno values counter)
  · exact (hcode i hi).numberedIn

theorem takes : ∀ {more tokens : List Token} {d : Draft}, d.Numbered tokens →
    more.foldlM Draft.take d = some d' → d'.Numbered (tokens ++ more)
  | [], tokens, d, h, ht => by
    cases ht
    rw [List.append_nil]
    exact h
  | t :: more, tokens, d, h, ht => by
    rw [List.foldlM_cons] at ht
    obtain ⟨d₁, h₁, ht⟩ := Option.bind_eq_some_iff.mp ht
    have hmore := takes (h.take h₁) ht
    rwa [List.append_assoc] at hmore

end Draft.Numbered

/-- **Where a cycle of a program comes from**: from a token of the source, which says its values,
and whose number among the cycles of the source is that of the counter. -/
theorem Compile.cycle_of_program {s : Store} {p : Program} {c : Compilation}
    (hp : program Tag.standard tokens (.start s) = .ok p c) {i : Linked} (hi : i ∈ p.code)
    {values : List Expression} {counter : String} (hcycle : i.instruction = .cycle values counter) :
    ∃ t n, i.token = some t ∧ (Token.cycles tokens)[n]? = some t ∧
      (units t.remainder).mapM Expression.read = .ok values ∧ counter = Tag.cycleCounter n := by
  obtain ⟨tree, rfl, hreads, rfl, -⟩ := tree_of_program hp
  obtain ⟨d, ⟨htaken, hwritten⟩, -, -⟩ := tree.writes (Compilation.start s).draft 0 hreads
  have hstart : (Compilation.start s).draft.Numbered [] :=
    ⟨rfl, fun _ hb => absurd hb List.not_mem_nil, fun _ hp => absurd hp List.not_mem_nil⟩
  have hbare : i.bare ∈ d.written := by
    rw [hwritten]
    exact List.mem_append_right _ (List.mem_map_of_mem (List.mem_toArray.mp hi))
  obtain ⟨⟨instruction, t⟩, hmem, heq⟩ := List.mem_map.mp hbare
  obtain ⟨hi', htoken⟩ := Prod.mk.inj heq
  obtain ⟨n, hn⟩ := (hstart.takes htaken).code _ hmem values counter (hi'.trans hcycle)
  exact ⟨t, n, htoken.symm, hn⟩

end Tokens

theorem Delimiters.nodup_tokens (d : Delimiters) (source : String) : (d.tokens source).Nodup :=
  (segmentation_tokens d source).tile.nodup

/-- Different cycles of a source have different counters. -/
theorem cycleCounter_injective {a b : Nat} (h : Tag.cycleCounter a = Tag.cycleCounter b) : a = b :=
  number_of_append h

/-- No counter has the name of a constant. -/
theorem Scopes.constants_counter (n : Nat) :
    constants.find? (.text (Tag.cycleCounter n)) = none := by
  have hfirst : (Tag.cycleCounter n).toList.head? = some 'c' := by
    simp [Tag.cycleCounter, String.toList_append]
  have hne : ∀ name : String, name.toList.head? ≠ some 'c' → Tag.cycleCounter n ≠ name := by
    rintro name hname rfl
    exact hname hfirst
  have htrue := (hne "True" (by decide)).symm
  have hfalse := (hne "False" (by decide)).symm
  have hnone := (hne "None" (by decide)).symm
  simp [constants, Dict.ofBindings, Dict.bind, Dict.insert, Dict.find?, htrue, hfalse, hnone]

/-! ## 3. The turns of one cycle -/

namespace Template

/-- The cycles of the template's source, from left to right. -/
def cycles (t : Template) : List Token := Token.cycles (t.grammar.delimiters.tokens t.source)

/-- The turns among some that are turns of the cycle which a token says. -/
def turnsOf (token : Token) (turns : List Turn) : List Turn :=
  turns.filter fun τ => τ.visit.linked.token = some token

section Standard

variable {t : Template} {autoescape : Value} {levels : Nat} {w : World}

/-- The standard tags render no template inside. -/
theorem Usual.not_nested (ht : t.Usual) (htags : t.grammar.tags = Tag.standard) :
    ∀ i ∈ t.program.code, ∀ source, i.instruction ≠ .nested source := by
  obtain ⟨engine, name, source, o, s, s', hcompiled⟩ := ht.compiled
  obtain ⟨s₀, compilation, hp, -, -⟩ := program_of_compile hcompiled
  rw [htags] at hp
  intro i hi source' hnested
  have hordinary := Compile.ordinary_of_program hp i hi
  rw [hnested] at hordinary
  exact hordinary

variable (hno : ∀ i ∈ t.program.code, ∀ source, i.instruction ≠ .nested source)

include hno

/-- Then no other template is run. -/
theorem eq_of_runs {levels' : Nat} {u : Template} {w' : World}
    (h : Runs autoescape levels t w levels' u w') : u = t := by
  cases h with
  | self => rfl
  | inner steps here hnested => exact absurd hnested (hno _ (Array.mem_of_getElem? here) _)

/-- A turn in a run is that of a cycle of the program. -/
theorem cycle_of_turn {τ : Turn} (h : τ ∈ turnsWithin levels t autoescape w) :
    τ.visit.linked ∈ t.program.code := by
  have hvisit : ∀ {env : Environment} {inside : Value → World → List Turn},
      τ ∈ t.program.turns env inside w → τ.visit.linked ∈ t.program.code := by
    intro env inside h
    obtain ⟨v, hv, hτ⟩ := List.mem_flatMap.mp h
    have hmem := Array.mem_of_getElem? (Program.reaches_of_visited hv).1
    by_cases hcycle : ∃ values counter, v.linked.instruction = .cycle values counter
    · obtain ⟨values, counter, hi⟩ := hcycle
      rw [Visit.turns_of_cycle hi] at hτ
      rw [List.mem_singleton.mp hτ]
      exact hmem
    · rw [Visit.turns_of_other (fun values counter hi => hcycle ⟨values, counter, hi⟩)
        (hno _ hmem)] at hτ
      cases hτ
  cases levels with
  | zero => exact hvisit h
  | succ levels => exact hvisit h

end Standard

/-- With the standard tags no other names are bound than those of the template itself. -/
theorem Usual.unboundIn {t : Template} (ht : t.Usual) (htags : t.grammar.tags = Tag.standard)
    {name : String} (hname : name ∉ t.program.boundNames) (c : Context) (s : Store) :
    t.UnboundIn c s name := by
  intro settings _ levels u w hu
  rw [eq_of_runs (ht.not_nested htags) hu]
  exact hname

/-- The templates of a row of renderings. -/
theorem mem_rendered {templates : List Template} {c : Context} {s : Store}
    {x : Template × Context × Store} (h : x ∈ rendered templates c s) : x.1 ∈ templates := by
  induction templates generalizing c s with
  | nil => cases h
  | cons t templates ih =>
    rcases List.mem_cons.mp h with rfl | h
    · exact List.mem_cons_self
    · exact List.mem_cons_of_mem _ (ih h)

section Renderings

variable {t : Template} {c : Context} {s : Store} {renderings : Nat}

/-- **Where a turn comes from**, in a row of renderings of one template: from a cycle of its source,
which says the values and has the number of the counter. -/
theorem Usual.origin_of_turn (ht : t.Usual) (htags : t.grammar.tags = Tag.standard) {τ : Turn}
    (hτ : τ ∈ turnsAll (.replicate renderings t) c s) : ∃ token n,
      τ.visit.linked.token = some token ∧ t.cycles[n]? = some token ∧
      (units token.remainder).mapM Expression.read = .ok τ.values ∧
      τ.counter = Tag.cycleCounter n := by
  obtain ⟨engine, name, source, o, s₀, s₁, hcompiled⟩ := ht.compiled
  obtain ⟨s₂, compilation, hp, -, -⟩ := program_of_compile hcompiled
  rw [htags] at hp
  obtain ⟨⟨u, c', s'⟩, hx, hturn⟩ := List.mem_flatMap.mp hτ
  have hu : u = t := List.eq_of_mem_replicate (mem_rendered hx)
  have hmem : τ.visit.linked ∈ t.program.code := by
    have hturn : τ ∈ u.turns c' s' := hturn
    rw [hu, turns] at hturn
    split at hturn
    · cases hturn
    · exact cycle_of_turn (ht.not_nested htags) hturn
  exact Compile.cycle_of_program hp hmem τ.cycle

/-- **The turns of a cycle are those under its counter.** -/
theorem Usual.turnsOf_eq (ht : t.Usual) (htags : t.grammar.tags = Tag.standard) {i : Nat}
    {token : Token} (hcycle : t.cycles[i]? = some token) :
    turnsOf token (turnsAll (.replicate renderings t) c s) =
      (turnsAll (.replicate renderings t) c s).filter fun τ => τ.counter = Tag.cycleCounter i := by
  refine List.filter_congr fun τ hτ => ?_
  obtain ⟨token', n, htoken, hn, -, hcounter⟩ := ht.origin_of_turn htags hτ
  rw [htoken, hcounter]
  refine decide_eq_decide.mpr ⟨fun heq => ?_, fun heq => ?_⟩
  · -- the source has no token twice
    have hnodup : t.cycles.Nodup := (Delimiters.nodup_tokens _ _).filter _
    obtain ⟨hlt, hat⟩ := List.getElem?_eq_some_iff.mp hn
    obtain ⟨hlt', hat'⟩ := List.getElem?_eq_some_iff.mp hcycle
    have hplaces : n = i := (hnodup.getElem_inj_iff).mp
      (hat.trans ((Option.some.inj heq).trans hat'.symm))
    rw [hplaces]
  · rw [cycleCounter_injective heq, hcycle] at hn
    exact hn.symm

end Renderings

/-- **Each cycle of a template takes its own turns.**  Take a template of the standard tags and a
context whose root layer is a mapping that the methods of its values do not themselves change, and
render the template there any number of times, with output or without.  If no loop and no serial
number of the template has the name of the counter of cycle number `i`, and nothing is bound to it
at first, then in turn number `k` of this cycle, over all renderings and all rounds of all loops,
the cycle gives value number `k` of its row, which begins anew behind the last one.  It does not
matter how often other cycles have their turns.  In the end the root layer holds the number of
turns. -/
theorem cycles_take_turns {t : Template} (ht : t.Usual) (htags : t.grammar.tags = Tag.standard)
    {i : Nat} {token : Token} (hcycle : t.cycles[i]? = some token)
    (hnames : Tag.cycleCounter i ∉ t.program.boundNames) {c : Context} {s : Store} {r : Ref}
    (hroot : c.scopes.root = .dict r) (hrooted : c.scopes.Rooted s)
    (hmethods : c.scopes.Undisturbed s) (hpushed : c.scopes.Free (Tag.cycleCounter i))
    (hunbound : (s.dict r).find? (.text (Tag.cycleCounter i)) = none) (renderings : Nat) :
    (∀ (k : Nat) (τ : Turn), (turnsOf token (turnsAll (.replicate renderings t) c s))[k]? = some τ →
      (units token.remainder).mapM Expression.read = .ok τ.values ∧ τ.Gives r k) ∧
    ((renderAll (.replicate renderings t) c s).2.dict r).find? (.text (Tag.cycleCounter i)) =
      boundAfter (turnsOf token (turnsAll (.replicate renderings t) c s)).length := by
  have h : c.scopes.Apart s := hmethods.apart hrooted
  have htaken : TakenFrom r (Tag.cycleCounter i) 0 (turnsAll (.replicate renderings t) c s)
      (renderAll (.replicate renderings t) c s).2 := by
    refine turnsAll_taken h hroot (Scopes.constants_counter i) (fun u hu => ?_)
      (h.likeWorld (w := ⟨c, s⟩) _) hpushed (fun x hx => ?_) hunbound
    · rw [List.eq_of_mem_replicate hu]
      exact ht
    · rw [List.eq_of_mem_replicate (mem_rendered hx)]
      exact ht.unboundIn htags hnames _ _
  have hsame : turnsOf token (turnsAll (.replicate renderings t) c s) = _ :=
    ht.turnsOf_eq htags hcycle
  refine ⟨fun k τ hk => ?_, ?_⟩
  · have hmem := List.mem_filter.mp (List.mem_of_getElem? hk)
    obtain ⟨token', n, htoken, -, hread, -⟩ := ht.origin_of_turn htags hmem.1
    obtain rfl : token' = token := Option.some.inj (htoken.symm.trans (of_decide_eq_true hmem.2))
    rw [hsame] at hk
    have hgives := htaken.due.gives_of_filter hk
    rw [Nat.zero_add] at hgives
    exact ⟨hread, hgives⟩
  · rw [hsame, ← List.countP_eq_length_filter]
    have hbehind := htaken.behind
    rw [Nat.zero_add] at hbehind
    exact hbehind

/-- A cycle by itself and one in a loop. -/
def twoCyclesSource : Value :=
  .plain ("\x7b% cycle 'a' 'b' %\x7d" ++
    "\x7b% for x in y %\x7d\x7b% cycle x 'c' %\x7d\x7b% endfor %\x7d")

/-- The token of the second cycle. -/
def secondCycle : Token := ⟨.statement, "cycle x 'c'", 35, 52, 1⟩

/-- A store with a mapping in which `y` is a list of three texts. -/
def lettersStore : Store :=
  { Store.empty with
    lists := #[[.plain "p", .plain "q", .plain "r"]]
    dicts := #[.ofBindings [("y", .list 0)]] }

/-- A context over the mapping. -/
def lettersContext : Context := ⟨.ofRoot (.dict 0), some ⟨.bool true, none, none⟩⟩

/-- Two renderings in one context: the first cycle has a turn in each, the second one has three, and
goes on in the second rendering where it has ended in the first. -/
theorem cycles_take_turns_twice : ∃ t s₁,
    compile Engine.standard none twoCyclesSource .empty .empty = .ok t s₁ ∧
    t.Usual ∧ t.grammar.tags = Tag.standard ∧ t.cycles[1]? = some secondCycle ∧
    Tag.cycleCounter 1 ∉ t.program.boundNames ∧ lettersContext.scopes.Rooted lettersStore ∧
    lettersContext.scopes.Undisturbed lettersStore ∧
    lettersContext.scopes.Free (Tag.cycleCounter 1) ∧
    (lettersStore.dict 0).find? (.text (Tag.cycleCounter 1)) = none ∧
    (rendered [t, t] lettersContext lettersStore).map
        (fun (t, c, s) => (t.render c s).1.toOption) =
      [some (.markup "apcr"), some (.markup "bcqc")] ∧
    (turnsOf secondCycle (turnsAll [t, t] lettersContext lettersStore)).length = 6 ∧
    ∀ (k : Nat) (τ : Turn),
      (turnsOf secondCycle (turnsAll [t, t] lettersContext lettersStore))[k]? = some τ →
        (units secondCycle.remainder).mapM Expression.read = .ok τ.values ∧ τ.Gives 0 k := by
  have hrun : ((compile Engine.standard none twoCyclesSource .empty).run' .empty).map (fun t =>
      (t.cycles[1]?, t.program.boundNames,
        (rendered [t, t] lettersContext lettersStore).map
          (fun (t, c, s) => (t.render c s).1.toOption),
        ((renderAll [t, t] lettersContext lettersStore).2.dict 0).find?
          (.text (Tag.cycleCounter 1)))) =
      some (some secondCycle, ["x"],
        [some (.markup "apcr"), some (.markup "bcqc")], some (.int 6)) := by cbv
  obtain ⟨t, s₁, hc, hrun⟩ := exists_of_run' hrun
  obtain ⟨hcycle, hrun⟩ := Prod.mk.inj hrun
  obtain ⟨hbound, hrun⟩ := Prod.mk.inj hrun
  obtain ⟨houtput, hcount⟩ := Prod.mk.inj hrun
  obtain ⟨ht, htags⟩ := Usual.of_standard hc
  have hnames : Tag.cycleCounter 1 ∉ t.program.boundNames := by
    rw [hbound]
    decide
  have hapart : lettersContext.scopes.Apart lettersStore :=
    .of_unheld rfl (by decide) (by decide) (by decide) (by decide) rfl (by decide)
  have hfree : lettersContext.scopes.Free (Tag.cycleCounter 1) :=
    fun layer hlayer => absurd hlayer List.not_mem_nil
  have hunbound : (lettersStore.dict 0).find? (.text (Tag.cycleCounter 1)) = none := by decide
  obtain ⟨hgives, hbehind⟩ :=
    cycles_take_turns ht htags hcycle hnames rfl hapart.rooted hapart.undisturbed hfree hunbound 2
  refine ⟨t, s₁, hc, ht, htags, hcycle, hnames, hapart.rooted, hapart.undisturbed, hfree,
    hunbound, houtput, ?_, hgives⟩
  exact boundAfter_injective (m := 6) (hbehind.symm.trans hcount)

/-- A store with a mapping that holds itself under `d`. -/
def heldStore : Store := { Store.empty with dicts := #[.ofBindings [("d", .dict 0)]] }

/-- The source of a cycle, and of a loop over the binding that is taken out of `d`. -/
def takingSource : Value :=
  .plain "\x7b% cycle 'a' 'b' %\x7d\x7b% for x in d.popitem %\x7d\x7b% endfor %\x7d"

/-- The token of the cycle. -/
def firstCycle : Token := ⟨.statement, "cycle 'a' 'b'", 0, 19, 1⟩

/-- The source of the cycle alone. -/
def cycleSource : Value := .plain "\x7b% cycle 'a' 'b' %\x7d"

/-- Another context over the mapping, with a layer of its own. -/
def contextBeside : Context := { contextOver 0 with scopes := ⟨.dict 0, [[]]⟩ }

/-- What else changes the root layer changes the turns.  If a value leads to the mapping, its method
may take the counter away, so that the next rendering begins anew: two turns have given `a`, and
nothing is bound to the counter.  And if the template is rendered in another context over the
mapping in between, the second turn in the first context is not the one that was due. -/
theorem turns_disturbed : ∃ t s₁ u s₂,
    compile Engine.standard none takingSource .empty .empty = .ok t s₁ ∧
    compile Engine.standard none cycleSource .empty s₁ = .ok u s₂ ∧
    (∀ v ∈ [t, u], v.Usual ∧ v.grammar.tags = Tag.standard ∧ v.cycles[0]? = some firstCycle ∧
      Tag.cycleCounter 0 ∉ v.program.boundNames) ∧
    (∀ c ∈ [contextOver 0, contextBeside], c.scopes.Free (Tag.cycleCounter 0)) ∧
    (heldStore.dict 0).find? (.text (Tag.cycleCounter 0)) = none ∧
    (rendered [t, t] (contextOver 0) heldStore).map (fun (t, c, s) => (t.render c s).1.toOption) =
      [some (.markup "a"), some (.markup "a")] ∧
    (turnsOf firstCycle (turnsAll [t, t] (contextOver 0) heldStore)).length = 2 ∧
    ((renderAll [t, t] (contextOver 0) heldStore).2.dict 0).find? (.text (Tag.cycleCounter 0)) =
      none ∧
    u.outputsIn [contextOver 0, contextBeside, contextOver 0] heldStore =
      [some (.markup "a"), some (.markup "b"), some (.markup "a")] := by
  have hrun : ((do
        let t ← compile Engine.standard none takingSource .empty
        let u ← compile Engine.standard none cycleSource .empty
        pure (t, u) : Eval (Template × Template)).run' .empty).map (fun (t, u) =>
      ([t, u].map fun v => (v.cycles[0]?, v.program.boundNames),
        (rendered [t, t] (contextOver 0) heldStore).map
          (fun (t, c, s) => (t.render c s).1.toOption),
        (turnsOf firstCycle (turnsAll [t, t] (contextOver 0) heldStore)).length,
        ((renderAll [t, t] (contextOver 0) heldStore).2.dict 0).find?
          (.text (Tag.cycleCounter 0)),
        u.outputsIn [contextOver 0, contextBeside, contextOver 0] heldStore)) =
      some ([(some firstCycle, ["x"]), (some firstCycle, [])],
        [some (.markup "a"), some (.markup "a")], 2, none,
        [some (.markup "a"), some (.markup "b"), some (.markup "a")]) := by cbv
  obtain ⟨⟨t, u⟩, s₂, hc, hrun⟩ := exists_of_run' hrun
  obtain ⟨t, s₁, ht, hc⟩ := bind_eq_ok.mp hc
  obtain ⟨u, s₂', hu, hc⟩ := bind_eq_ok.mp hc
  cases hc
  simp only [Prod.mk.injEq, List.map_cons, List.map_nil, List.cons.injEq, and_true] at hrun
  obtain ⟨⟨⟨hcycle, hnames⟩, hcycle', hnames'⟩, houtput, hlength, hcount, hbeside⟩ := hrun
  obtain ⟨husual, htags⟩ := Usual.of_standard ht
  obtain ⟨husual', htags'⟩ := Usual.of_standard hu
  have hfree : ∀ c ∈ [contextOver 0, contextBeside], c.scopes.Free (Tag.cycleCounter 0) := by
    simp [Scopes.Free, contextOver, contextBeside, Scopes.ofRoot, Dict.find?]
  refine ⟨t, s₁, u, s₂, ht, hu, ?_, hfree, by decide, houtput, hlength, hcount, hbeside⟩
  simp only [List.forall_mem_cons]
  refine ⟨⟨husual, htags, hcycle, ?_⟩, ⟨husual', htags', hcycle', ?_⟩,
    fun v hv => absurd hv List.not_mem_nil⟩
  · rw [hnames]
    decide
  · rw [hnames']
    exact List.not_mem_nil

end Template
end TextTemplate
