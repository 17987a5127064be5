/-
# Why a source is refused

Reading an operand, an expression or a condition fails for one of two reasons: the text is no such
thing, which is a fault in the template, or a row of digits in it is longer than the limit.  Each
lemma says so of one reader (`CautiousIn`).

A reader cuts a text into parts, and a row of digits of a part is one of the text: parts are
infixes, and where units are put together again, a space stands between them.

* `LongRow` is a row of digits of a text that is too long;
* `CautiousIn` says why a reader may fail, `Cautious` is the same without the text.
-/
import TextTemplate.Proofs.Outcome
import TextTemplate.Standard.Tags

namespace TextTemplate

open TextTemplate.Decimal TextTemplate.Outcome TextTemplate.Text

/-! ## 1. Parts of a text -/

namespace Text

variable {cs ds part sep : List Char}

theorem infix_of_strip (cs : List Char) : strip cs <:+: cs := by
  have hleft : stripLeft cs <:+ cs := List.dropWhile_suffix isBlank
  have hright : strip cs <+: stripLeft cs := by
    have h : (stripLeft cs).reverse.dropWhile isBlank <:+ (stripLeft cs).reverse :=
      List.dropWhile_suffix isBlank
    rwa [← List.reverse_prefix, List.reverse_reverse] at h
  exact hright.isInfix.trans hleft.isInfix

/-- What a text is cut into, with the separator between, makes up the text. -/
theorem before?_append {left right : List Char} (h : before? sep cs = some (left, right)) :
    left ++ (sep ++ right) = cs := by
  induction cs generalizing left right with
  | nil =>
    unfold before? at h
    split at h
    · rename_i hsep
      cases h
      rw [List.isEmpty_iff.mp hsep]
      rfl
    · cases h
  | cons c cs ih =>
    unfold before? at h
    split at h
    · rename_i hsep
      cases h
      obtain ⟨rest, hrest⟩ := List.isPrefixOf_iff_prefix.mp hsep
      rw [← hrest, List.drop_left]
      rfl
    · obtain ⟨⟨left', right'⟩, hfound, heq⟩ := Option.map_eq_some_iff.mp h
      cases heq
      rw [List.cons_append, ih hfound]

/-- The first part is what a text begins with, and the others are inside of it. -/
theorem splitPipeline_parts : ∀ cs : List Char, ∃ first rest, splitPipeline cs = first :: rest ∧
    first <+: cs ∧ ∀ part ∈ rest, part <:+: cs
  | [] => ⟨[], [], rfl, List.prefix_rfl, nofun⟩
  | c :: cs => by
    obtain ⟨first, rest, hcut, hfirst, hrest⟩ := splitPipeline_parts cs
    have hbehind : ∀ part ∈ first :: rest, part <:+: c :: cs := by
      have hcons : cs <:+: c :: cs := (List.suffix_cons c cs).isInfix
      exact List.forall_mem_cons.mpr
        ⟨hfirst.isInfix.trans hcons, fun part hpart => (hrest part hpart).trans hcons⟩
    unfold splitPipeline
    rw [hcut]
    split
    · exact ⟨[], first :: rest, rfl, List.nil_prefix, hbehind⟩
    · exact ⟨c :: first, rest, rfl, List.cons_prefix_cons.mpr ⟨rfl, hfirst⟩,
        fun part hpart => hbehind part (List.mem_cons_of_mem first hpart)⟩

theorem infix_of_splitPipeline (h : part ∈ splitPipeline cs) : part <:+: cs := by
  obtain ⟨first, rest, hcut, hfirst, hrest⟩ := splitPipeline_parts cs
  rw [hcut] at h
  rcases List.mem_cons.mp h with rfl | h
  · exact hfirst.isInfix
  · exact hrest part h

theorem infix_of_units (h : part ∈ units cs) : part <:+: cs := by
  fun_induction units cs with
  | case1 => cases h
  | case2 c rest hc ih => exact (ih h).trans (List.suffix_cons c rest).isInfix
  | case3 c rest hc ih =>
    have happend := firstUnit_append (c :: rest)
    rcases List.mem_cons.mp h with rfl | h
    · exact ⟨[], _, happend⟩
    · exact (ih h).trans ⟨(firstUnit (c :: rest)).1, [], by rw [List.append_nil, happend]⟩

/-- What has no space and is inside of two texts with a space between is inside of one of them. -/
theorem infix_of_space (hspace : ' ' ∉ part) : ∀ {cs : List Char},
    part <:+: cs ++ ' ' :: ds → part <:+: cs ∨ part <:+: ds
  | [], h => by
    rcases List.infix_cons_iff.mp h with h | h
    · cases part with
      | nil => exact .inl List.nil_infix
      | cons c part =>
        obtain ⟨rfl, -⟩ := List.cons_prefix_cons.mp h
        exact absurd List.mem_cons_self hspace
    · exact .inr h
  | c :: cs, h => by
    rw [List.cons_append] at h
    rcases List.infix_cons_iff.mp h with h | h
    · refine .inl (List.IsPrefix.isInfix ?_)
      rcases List.prefix_or_prefix_of_prefix h (List.prefix_append (c :: cs) (' ' :: ds)) with
        hshort | ⟨rest, hrest⟩
      · exact hshort
      · -- behind the first text there would be the space
        subst hrest
        rw [← List.cons_append, List.prefix_append_right_inj] at h
        cases rest with
        | nil => exact ⟨[], by rw [List.append_nil, List.append_nil]⟩
        | cons d rest =>
          obtain ⟨rfl, -⟩ := List.cons_prefix_cons.mp h
          exact absurd (List.mem_append_right _ List.mem_cons_self) hspace
    · exact (infix_of_space hspace h).imp_left fun hin => hin.trans (List.suffix_cons c cs).isInfix

theorem infix_of_spaced (hspace : ' ' ∉ part) (hne : part ≠ []) : ∀ {texts : List (List Char)},
    part <:+: spaced texts → ∃ text ∈ texts, part <:+: text
  | [], h => absurd (List.infix_nil.mp h) hne
  | [text], h => ⟨text, List.mem_cons_self, h⟩
  | text :: text' :: texts, h => by
    rcases infix_of_space hspace h with h | h
    · exact ⟨text, List.mem_cons_self, h⟩
    · obtain ⟨found, hmem, hin⟩ := infix_of_spaced hspace hne h
      exact ⟨found, List.mem_cons_of_mem text hmem, hin⟩

end Text

/-! ## 2. Causes -/

/-- A fault in the template, or an integer with too many digits. -/
def Cause.Refuses (c : Cause) : Prop :=
  (∃ fault, c = .template fault) ∨ ∃ digits, c = .value (.integerTooLong digits)

/-- The reader fails for no other cause. -/
def Cautious {α : Type} (x : Except Cause α) : Prop := ∀ cause, x = .error cause → cause.Refuses

/-- A row of digits of a text that is longer than the limit. -/
structure LongRow (row cs : List Char) : Prop where
  inside : row <:+: cs
  digits : ∀ c ∈ row, isAsciiDigit c = true
  long : digitLimit < row.length

/-- A fault in the template, or an integer that is written in a text with too many digits. -/
def Cause.RefusesIn (cs : List Char) (c : Cause) : Prop :=
  (∃ fault, c = .template fault) ∨
    ∃ row, LongRow row cs ∧ c = .value (.integerTooLong row.length)

/-- The reader of a text fails for no other cause. -/
def CautiousIn {α : Type} (cs : List Char) (x : Except Cause α) : Prop :=
  ∀ cause, x = .error cause → cause.RefusesIn cs

theorem LongRow.mono {row cs ds : List Char} (h : LongRow row cs) (hsub : cs <:+: ds) :
    LongRow row ds :=
  ⟨h.inside.trans hsub, h.digits, h.long⟩

theorem LongRow.of_spaced {row : List Char} {texts : List (List Char)}
    (h : LongRow row (spaced texts)) : ∃ text ∈ texts, LongRow row text := by
  have hspace : ' ' ∉ row := fun hmem => absurd (h.digits ' ' hmem) (by decide)
  have hne : row ≠ [] := by
    rintro rfl
    exact absurd h.long (Nat.not_lt_zero digitLimit)
  obtain ⟨text, hmem, hin⟩ := infix_of_spaced hspace hne h.inside
  exact ⟨text, hmem, hin, h.digits, h.long⟩

theorem Cause.RefusesIn.refuses {cs : List Char} {c : Cause} (h : c.RefusesIn cs) : c.Refuses :=
  h.imp_right fun ⟨row, _, hc⟩ => ⟨row.length, hc⟩

namespace CautiousIn

variable {α β : Type} {cs ds : List Char} {x : Except Cause α}

theorem cautious (h : CautiousIn cs x) : Cautious x := fun cause hx => (h cause hx).refuses

theorem ok (a : α) : CautiousIn cs (.ok a : Except Cause α) := by
  rintro cause ⟨⟩

theorem template (fault : SyntaxFault) :
    CautiousIn cs (.error (.template fault) : Except Cause α) := by
  rintro cause ⟨⟩
  exact .inl ⟨fault, rfl⟩

/-- The reader of a part of a text. -/
theorem part (hrows : ∀ row, LongRow row cs → LongRow row ds) (h : CautiousIn cs x) :
    CautiousIn ds x :=
  fun cause hx => (h cause hx).imp_right fun ⟨row, hrow, hc⟩ => ⟨row, hrows row hrow, hc⟩

theorem mono (hsub : cs <:+: ds) (h : CautiousIn cs x) : CautiousIn ds x :=
  h.part fun _ hrow => hrow.mono hsub

theorem bind {f : α → Except Cause β} (hx : CautiousIn cs x)
    (hf : ∀ a, x = .ok a → CautiousIn cs (f a)) : CautiousIn cs (x >>= f) := by
  intro cause h
  cases x with
  | error cause' =>
    cases h
    exact hx cause rfl
  | ok a => exact hf a rfl cause h

theorem map {f : α → β} (hx : CautiousIn cs x) : CautiousIn cs (x.map f) := by
  intro cause h
  cases x with
  | error cause' =>
    cases h
    exact hx cause rfl
  | ok a => cases h

theorem mapM {f : β → Except Cause α} : ∀ {as : List β},
    (∀ a ∈ as, CautiousIn cs (f a)) → CautiousIn cs (as.mapM f)
  | [], _ => by
    rw [List.mapM_nil]
    exact ok []
  | a :: as, hf => by
    obtain ⟨hfirst, hrest⟩ := List.forall_mem_cons.mp hf
    rw [List.mapM_cons]
    exact hfirst.bind fun b _ => (mapM hrest).bind fun bs _ => ok (b :: bs)

end CautiousIn

/-! ## 3. Readers -/

theorem cautiousIn_readDigitRow {cs row : List Char} (hin : row <:+: cs)
    (hdigits : ∀ c ∈ row, isAsciiDigit c = true) : CautiousIn cs (readDigitRow row) := by
  unfold readDigitRow
  split
  · rename_i hlong
    rintro cause ⟨⟩
    exact .inr ⟨row, ⟨hin, hdigits, hlong⟩, rfl⟩
  · exact .ok _

theorem cautiousIn_signedNumber {cs row : List Char} (negative : Bool) (hin : row <:+: cs)
    (hdigits : ∀ c ∈ row, isAsciiDigit c = true) :
    CautiousIn cs (signedNumber (negative, row)) :=
  (cautiousIn_readDigitRow hin hdigits).bind fun _ _ => .ok _

/-- The digits of a number with a sign, and what stands behind them. -/
theorem takeSigned_parts {cs row rest : List Char} {negative : Bool}
    (h : takeSigned cs = some (negative, row, rest)) :
    row <:+: cs ∧ (∀ c ∈ row, isAsciiDigit c = true) ∧ rest <:+ cs := by
  unfold takeSigned at h
  dsimp only at h
  generalize hbody : (if cs.head? = some '-' then cs.tail else cs) = body at h
  have hsuffix : body <:+ cs := by
    rw [← hbody]
    split
    · exact List.tail_suffix cs
    · exact List.suffix_rfl
  split at h
  · cases h
  · cases h
    exact ⟨(List.takeWhile_prefix _).isInfix.trans hsuffix.isInfix,
      List.all_eq_true.mp List.all_takeWhile, (List.dropWhile_suffix _).trans hsuffix⟩

/-- The two rows of digits of a range. -/
theorem rangeEnds?_parts {cs row row' : List Char} {negative negative' : Bool}
    (h : rangeEnds? cs = some ((negative, row), (negative', row'))) :
    (row <:+: cs ∧ ∀ c ∈ row, isAsciiDigit c = true) ∧
      row' <:+: cs ∧ ∀ c ∈ row', isAsciiDigit c = true := by
  have hleft : ∀ cs : List Char, stripLeft cs <:+ cs := fun _ => List.dropWhile_suffix isBlank
  unfold rangeEnds? at h
  split at h
  · rename_i behind
    obtain ⟨⟨n, row₁, rest⟩, hfirst, h⟩ := Option.bind_eq_some_iff.mp h
    obtain ⟨hrow, hdigits, hrest⟩ := takeSigned_parts hfirst
    have hbehind : stripLeft behind <:+ '[' :: behind :=
      (hleft behind).trans (List.suffix_cons '[' behind)
    dsimp only at h
    split at h
    · rename_i last hdots
      obtain ⟨⟨n', row₂, rest'⟩, hsecond, h⟩ := Option.bind_eq_some_iff.mp h
      obtain ⟨hrow', hdigits', -⟩ := takeSigned_parts hsecond
      have hlast : stripLeft last <:+ '[' :: behind := by
        have hdotted : last <:+ stripLeft rest := by
          rw [hdots]
          exact (List.suffix_cons '.' last).trans (List.suffix_cons '.' _)
        exact (hleft last).trans (hdotted.trans ((hleft rest).trans (hrest.trans hbehind)))
      dsimp only at h
      split at h
      · cases h
        exact ⟨⟨hrow.trans hbehind.isInfix, hdigits⟩, hrow'.trans hlast.isInfix, hdigits'⟩
      · cases h
    · cases h
  · cases h

theorem Operand.cautiousIn_read (cs : List Char) : CautiousIn cs (Operand.read cs) := by
  refine .mono (infix_of_strip cs) ?_
  unfold Operand.read
  dsimp only
  split
  · exact .ok _
  · split
    · rename_i hdigits
      have hall : ∀ c ∈ strip cs, isAsciiDigit c = true := List.all_eq_true.mp hdigits.2
      exact (cautiousIn_readDigitRow List.infix_rfl hall).map.bind fun form _ => .ok _
    · split
      · rename_i first last hends
        obtain ⟨⟨hin, hdigits⟩, hin', hdigits'⟩ := rangeEnds?_parts hends
        refine (cautiousIn_signedNumber first.1 hin hdigits).bind fun a _ => ?_
        exact (cautiousIn_signedNumber last.1 hin' hdigits').bind fun b _ => .ok _
      · split
        · exact .template _
        · exact .ok _

namespace Expression

theorem cautiousIn_readApplication (cs : List Char) : CautiousIn cs (readApplication cs) := by
  have hargument : ((before? [':'] cs).getD (cs, [])).2 <:+: cs := by
    cases hcut : before? [':'] cs with
    | none => exact List.nil_infix
    | some parts =>
      have happend : parts.1 ++ ([':'] ++ parts.2) = cs := before?_append hcut
      refine ⟨parts.1 ++ [':'], [], ?_⟩
      rw [List.append_nil, List.append_assoc, Option.getD_some, happend]
  unfold readApplication
  dsimp only
  split
  · exact .ok none
  · split
    · exact .ok _
    · exact ((Operand.cautiousIn_read _).mono hargument).bind fun operand _ => .ok _

/-- **An expression that cannot be read is a fault in the template, or has an integer that is too
long.** -/
theorem cautiousIn_read (cs : List Char) : CautiousIn cs (read cs) := by
  unfold read
  split
  · exact .template _
  · rename_i base specs hcut
    split
    · exact .template _
    · have hparts : ∀ part ∈ base :: specs, part <:+: cs := fun part hpart =>
        infix_of_splitPipeline (hcut ▸ hpart)
      obtain ⟨hbase, hspecs⟩ := List.forall_mem_cons.mp hparts
      refine ((Operand.cautiousIn_read base).mono hbase).bind fun operand _ => ?_
      refine CautiousIn.bind (.mapM fun spec hspec => ?_) fun applications _ => .ok _
      exact (cautiousIn_readApplication spec).mono (hspecs spec hspec)

theorem cautious_read (cs : List Char) : Cautious (read cs) := (cautiousIn_read cs).cautious

/-- The units of a text, each read as an expression. -/
theorem cautiousIn_units (cs : List Char) : CautiousIn cs ((units cs).mapM read) :=
  .mapM fun unit hunit => (cautiousIn_read unit).mono (infix_of_units hunit)

end Expression

/-- What stands behind a comparator is the end of the units. -/
theorem Comparator.suffix_of_first? {us right : List (List Char)} {op : Comparator}
    (h : first? us = some (op, right)) : right <:+ us := by
  unfold first? at h
  split at h
  · cases h
  · rename_i u
    obtain ⟨op', -, heq⟩ := Option.map_eq_some_iff.mp h
    cases heq
    exact List.nil_suffix
  · rename_i u v rest
    have hrest : rest <:+ u :: v :: rest := (List.suffix_cons v rest).trans (List.suffix_cons u _)
    split at h
    · cases h
      exact hrest
    · obtain ⟨op', -, heq⟩ := Option.map_eq_some_iff.mp h
      cases heq
      exact List.suffix_cons u (v :: rest)

/-- The units around a comparator are some of the units. -/
theorem Comparator.mem_of_find? {op : Comparator} : ∀ {us left before after : List (List Char)},
    find? left us = some (before, op, after) →
      (∀ u ∈ before, u ∈ left ++ us) ∧ ∀ u ∈ after, u ∈ left ++ us
  | [], _, _, _, h => nomatch h
  | u :: us, left, before, after, h => by
    unfold find? at h
    split at h
    · rename_i op' right hfirst
      cases h
      exact ⟨fun v hv => List.mem_append_left _ hv,
        fun v hv => List.mem_append_right _ ((suffix_of_first? hfirst).subset hv)⟩
    · have ih := mem_of_find? h
      rwa [List.append_assoc] at ih

namespace Condition

/-- A condition without a negation, whose units are parts of a text. -/
theorem cautiousIn_readPlain {cs : List Char} (text first : List Char) (rest : List (List Char))
    (hunits : ∀ unit ∈ first :: rest, unit <:+: cs) :
    CautiousIn cs (readPlain text first rest) := by
  have hread : ∀ texts : List (List Char), (∀ unit ∈ texts, unit <:+: cs) →
      CautiousIn cs (Expression.read (spaced texts)) := by
    intro texts htexts
    refine (Expression.cautiousIn_read _).part fun row hrow => ?_
    obtain ⟨text, hmem, hlong⟩ := hrow.of_spaced
    exact hlong.mono (htexts text hmem)
  unfold readPlain
  split
  · exact (hread _ hunits).map
  · rename_i left op right hfind
    split
    · exact .template _
    · obtain ⟨hleft, hright⟩ := Comparator.mem_of_find? hfind
      refine (hread left fun u hu => hunits u (hleft u hu)).bind fun l _ => ?_
      exact (hread right fun u hu => hunits u (hright u hu)).bind fun r _ => .ok _

/-- **The same of a condition.** -/
theorem cautiousIn_read (text : List Char) : CautiousIn text (read text) := by
  fun_induction read text with
  | case1 => exact .template _
  | case2 => exact .template _
  | case3 text rest hrest hunits ih =>
    refine (ih.part fun row hrow => ?_).map
    obtain ⟨unit, hmem, hlong⟩ := hrow.of_spaced
    exact hlong.mono (infix_of_units (hunits ▸ List.mem_cons_of_mem _ hmem))
  | case4 text first rest hunits =>
    exact cautiousIn_readPlain text first rest fun unit hunit => infix_of_units (hunits ▸ hunit)

theorem cautious_read (text : List Char) : Cautious (read text) := (cautiousIn_read text).cautious

end Condition
end TextTemplate
