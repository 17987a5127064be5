/-
# Literals

An operand is a literal if it stands between quotes, or is a row of digits, or a range of integers
in brackets.  What is written as a literal is read back, with blanks around it: a text with its
backslashes, a number with its digits, a range with its two ends.  Only the limit on digits stands
in the way.

* an `Escaped` text is what escaping gives (`exists_escape`);
* `strip_padded` drops the blanks, `readDigitRow_toDigits` reads a number and
  `rangeEnds?_rangeText` a range;
* `Operand.Denotes` says that a text is read as a literal with some value, and
  `Operand.denotes_literals` is the result; `Operand.long_range_refused` is what the limit refuses.
-/
import TextTemplate.Proofs.Expression.Constants

namespace TextTemplate.Text

open TextTemplate.Decimal

/-! ## 1. Escaped texts -/

/-- Read from left to right, each backslash of the text stands in front of a backslash or a quote
`q`, which it escapes, and no quote `q` stands without one. -/
def Escaped (q : Char) : List Char → Prop
  | [] => True
  | [c] => c ≠ '\\' ∧ c ≠ q
  | c :: d :: cs =>
    if c = '\\' then (d = '\\' ∨ d = q) ∧ Escaped q cs else c ≠ q ∧ Escaped q (d :: cs)

/-- **An escaped text is what escaping makes of some text.** -/
theorem exists_escape {q : Char} {body : List Char} (h : Escaped q body) :
    ∃ cs, body = escape q cs := by
  fun_induction Escaped q body with
  | case1 => exact ⟨[], rfl⟩
  | case2 c =>
    refine ⟨[c], ?_⟩
    rw [escape_cons_plain (by simp [h.1, h.2])]
    rfl
  | case3 d cs ih =>
    obtain ⟨hd, h⟩ := h
    obtain ⟨rest, rfl⟩ := ih h
    exact ⟨d :: rest, (escape_cons_special hd.symm rest).symm⟩
  | case4 c d cs hc ih =>
    obtain ⟨hcq, h⟩ := h
    obtain ⟨rest, hrest⟩ := ih h
    refine ⟨c :: rest, ?_⟩
    rw [escape_cons_plain (by simp [hc, hcq]), hrest]

/-! ## 2. Blanks -/

/-- Every character is blank. -/
def Blanks (cs : List Char) : Prop := ∀ c ∈ cs, isBlank c = true

theorem blanks_singleton {c : Char} (hc : isBlank c = true) : Blanks [c] :=
  fun _ hd => List.mem_singleton.mp hd ▸ hc

/-- The text has no blank at either end. -/
structure Trimmed (cs : List Char) : Prop where
  first : ∀ c ∈ cs.head?, isBlank c = false
  last : ∀ c ∈ cs.getLast?, isBlank c = false

/-- Blanks in front are dropped. -/
theorem stripLeft_blanks {gap : List Char} (hgap : Blanks gap) (cs : List Char) :
    stripLeft (gap ++ cs) = stripLeft cs := List.dropWhile_append_of_pos hgap

theorem stripLeft_of_head {cs : List Char} (h : ∀ c ∈ cs.head?, isBlank c = false) :
    stripLeft cs = cs := by
  cases cs with
  | nil => rfl
  | cons c cs =>
    have hc : isBlank c = false := h c rfl
    rw [stripLeft, List.dropWhile_cons_of_neg (by simp [hc])]

/-- **Blanks around a text are dropped.** -/
theorem strip_padded {before cs behind : List Char} (hbefore : Blanks before) (h : Trimmed cs)
    (hbehind : Blanks behind) : strip (before ++ cs ++ behind) = cs := by
  have hback : Blanks behind.reverse := fun c hc => hbehind c (List.mem_reverse.mp hc)
  have hlast : ∀ c ∈ cs.reverse.head?, isBlank c = false := by
    rw [List.head?_reverse]
    exact h.last
  have hleft : stripLeft (cs ++ behind) = cs ++ if cs = [] then [] else behind := by
    cases cs with
    | nil =>
      have hdrop : stripLeft (behind ++ []) = [] := stripLeft_blanks hbehind []
      rwa [List.append_nil] at hdrop
    | cons c cs => exact stripLeft_of_head h.first
  have hright : stripRight (cs ++ if cs = [] then [] else behind) = cs := by
    have hdrop : cs.reverse.dropWhile isBlank = cs.reverse := stripLeft_of_head hlast
    unfold stripRight
    split
    · rw [List.append_nil, hdrop, List.reverse_reverse]
    · rw [List.reverse_append, List.dropWhile_append_of_pos hback, hdrop, List.reverse_reverse]
  rw [strip, List.append_assoc, stripLeft_blanks hbefore, hleft, hright]

theorem strip_of_trimmed {cs : List Char} (h : Trimmed cs) : strip cs = cs := by
  have hnone : Blanks [] := nofun
  have hpadded := strip_padded hnone h hnone
  rwa [List.nil_append, List.append_nil] at hpadded

/-- A constant has no blanks at its ends. -/
theorem trimmed_constantOf {q : Char} (hq : isQuote q = true) (cs : List Char) :
    Trimmed (constantOf q cs) := by
  have hb : isBlank q = false := not_blank hq
  rw [constantOf_eq]
  exact ⟨by simp [hb], by simp [List.getLast?_cons, hb]⟩

/-! ## 3. Digits -/

/-- A digit is none of the characters that mean something else. -/
theorem ne_of_isAsciiDigit {c d : Char} (hc : isAsciiDigit c = true)
    (hd : isAsciiDigit d = false) : c ≠ d := by
  rintro rfl
  rw [hc] at hd
  cases hd

theorem not_blank_of_isAsciiDigit {c : Char} (hc : isAsciiDigit c = true) : isBlank c = false := by
  have hbounds : 48 ≤ c.toNat ∧ c.toNat ≤ 57 := by
    simp only [isAsciiDigit, decide_eq_true_eq] at hc
    exact ⟨Char.le_def.mp hc.1, Char.le_def.mp hc.2⟩
  unfold isBlank
  simp only [decide_eq_false_iff_not]
  omega

theorem trimmed_digits {row : List Char} (h : ∀ c ∈ row, isAsciiDigit c = true) : Trimmed row where
  first c hc := not_blank_of_isAsciiDigit (h c (List.mem_of_mem_head? hc))
  last c hc := not_blank_of_isAsciiDigit (h c (List.mem_of_getLast? hc))

theorem strip_digits {row : List Char} (h : ∀ c ∈ row, isAsciiDigit c = true) :
    strip row = row := strip_of_trimmed (trimmed_digits h)

theorem constant?_digits {row : List Char} (h : ∀ c ∈ row, isAsciiDigit c = true) :
    constant? row = none := by
  unfold constant?
  split
  · rename_i c d rest
    obtain ⟨hc, -⟩ := List.forall_mem_cons.mp h
    refine if_neg fun hquote => ?_
    have hcases := hquote.1
    simp only [isQuote, decide_eq_true_eq] at hcases
    rcases hcases with hcases | hcases
    · exact ne_of_isAsciiDigit hc (by decide) hcases
    · exact ne_of_isAsciiDigit hc (by decide) hcases
  · rfl

theorem isAsciiDigit_of_mem_toDigits {n : Nat} :
    ∀ c ∈ Nat.toDigits 10 n, isAsciiDigit c = true := by
  intro c hc
  have hdigit := Nat.isDigit_of_mem_toDigits (by decide) (by decide) hc
  simp only [Char.isDigit, Bool.and_eq_true, decide_eq_true_eq] at hdigit
  simp only [isAsciiDigit, decide_eq_true_eq]
  exact ⟨hdigit.1, hdigit.2⟩

/-- Digits up to something else. -/
theorem takeWhile_digits {row rest : List Char} (h : ∀ c ∈ row, isAsciiDigit c = true)
    (hrest : ∀ c ∈ rest.head?, isAsciiDigit c = false) :
    (row ++ rest).takeWhile isAsciiDigit = row ∧ (row ++ rest).dropWhile isAsciiDigit = rest := by
  rw [List.takeWhile_append_of_pos h, List.dropWhile_append_of_pos h]
  cases rest with
  | nil => exact ⟨List.append_nil row, rfl⟩
  | cons c rest =>
    have hc : isAsciiDigit c = false := hrest c rfl
    rw [List.takeWhile_cons_of_neg (by simp [hc]), List.dropWhile_cons_of_neg (by simp [hc])]
    exact ⟨List.append_nil row, rfl⟩

/-- The text of a range between brackets, with blanks around its two ends. -/
def rangeText (a b : Int) (g₁ g₂ g₃ g₄ : List Char) : List Char :=
  '[' :: (g₁ ++ ((decimal a).toList ++ (g₂ ++
    '.' :: '.' :: (g₃ ++ ((decimal b).toList ++ (g₄ ++ [']']))))))

end TextTemplate.Text

namespace TextTemplate

open TextTemplate.Decimal TextTemplate.Text

/-! ## 4. Numbers -/

/-- An integer keeps to the limit on digits. -/
def InLimit (n : Int) : Prop := n.natAbs < tenTo digitLimit

theorem inLimit_of_lt {n : Int} {k : Nat} (hk : k ≤ digitLimit) (h : n.natAbs < tenTo k) :
    InLimit n := by
  have hweight : ∀ {m : Nat}, k ≤ m → tenTo k ≤ tenTo m := Nat.pow_le_pow_right (by decide)
  exact Nat.lt_of_lt_of_le h (hweight hk)

theorem length_toDigits_le_iff {n limit : Nat} (hlimit : 0 < limit) :
    (Nat.toDigits 10 n).length ≤ limit ↔ n < tenTo limit :=
  Nat.length_toDigits_le_iff (by decide) hlimit

/-- A weight is the first number with one digit more. -/
theorem length_toDigits_tenTo {k : Nat} (hk : 0 < k) :
    (Nat.toDigits 10 (tenTo k)).length = k + 1 := by
  have hup : tenTo k < tenTo (k + 1) := Nat.pow_lt_pow_succ (by decide)
  refine Nat.le_antisymm ((length_toDigits_le_iff (Nat.succ_pos k)).mpr hup) ?_
  exact Nat.lt_of_not_le fun hle => Nat.lt_irrefl _ ((length_toDigits_le_iff hk).mp hle)

/-- **The digits of a number are read as the number.** -/
theorem readDigitRow_toDigits {n : Nat} (h : n < tenTo digitLimit) :
    readDigitRow (Nat.toDigits 10 n) = .ok n := by
  have hshort : (Nat.toDigits 10 n).length ≤ digitLimit :=
    (length_toDigits_le_iff (by decide)).mpr h
  have hvalue : ofDigits ((Nat.toDigits 10 n).map fun c => c.toNat - '0'.toNat) = n := by
    rw [ofDigits, List.foldl_map, ← Nat.ofDigitChars_eq_foldl, Nat.ofDigitChars_ten_toDigits]
  rw [readDigitRow, if_neg (Nat.not_lt.mpr hshort), hvalue]

/-- Beyond the limit they are refused. -/
theorem readDigitRow_long {n : Nat} (h : tenTo digitLimit ≤ n) :
    readDigitRow (Nat.toDigits 10 n) =
      .error (.value (.integerTooLong (Nat.toDigits 10 n).length)) := by
  have hlong : digitLimit < (Nat.toDigits 10 n).length :=
    Nat.lt_of_not_le fun hle => Nat.not_lt.mpr h ((length_toDigits_le_iff (by decide)).mp hle)
  rw [readDigitRow, if_pos hlong]

/-- The sign and the digits of an integer. -/
def signedDigits (n : Int) : Bool × List Char := (decide (n < 0), Nat.toDigits 10 n.natAbs)

theorem toList_decimal (n : Int) :
    (decimal n).toList = (if n < 0 then ['-'] else []) ++ Nat.toDigits 10 n.natAbs := by
  unfold decimal decimalNat
  split
  · rw [String.toList_append, String.toList_ofList]
    exact congrArg (['-'] ++ ·) String.toList_ofList
  · rw [String.toList_ofList, List.nil_append]

/-- A row of digits is taken off in front of what is no digit, with the sign in front of it. -/
theorem takeSigned_digits {row rest : List Char} (hne : row ≠ [])
    (h : ∀ c ∈ row, isAsciiDigit c = true) (hrest : ∀ c ∈ rest.head?, isAsciiDigit c = false) :
    takeSigned ('-' :: (row ++ rest)) = some (true, row, rest) ∧
      takeSigned (row ++ rest) = some (false, row, rest) := by
  obtain ⟨htake, hdrop⟩ := takeWhile_digits h hrest
  obtain ⟨d, ds, rfl⟩ := List.exists_cons_of_ne_nil hne
  have hplain : ¬(d :: ds ++ rest).head? = some '-' := fun hd =>
    ne_of_isAsciiDigit (h d List.mem_cons_self) (by decide) (Option.some.inj hd)
  constructor
  · unfold takeSigned
    simp only [List.head?_cons, if_true, List.tail_cons, htake, hdrop, decide_true]
  · unfold takeSigned
    simp only [if_neg hplain, htake, hdrop, decide_eq_false hplain]

/-- **The text of an integer** is taken off in front of what is no digit. -/
theorem takeSigned_decimal (n : Int) {rest : List Char}
    (hrest : ∀ c ∈ rest.head?, isAsciiDigit c = false) :
    takeSigned ((decimal n).toList ++ rest) =
      some ((signedDigits n).1, (signedDigits n).2, rest) := by
  obtain ⟨hminus, hplain⟩ := takeSigned_digits
    (Nat.toDigits_ne_nil (n := n.natAbs) (b := 10)) isAsciiDigit_of_mem_toDigits hrest
  rw [toList_decimal, signedDigits]
  by_cases hn : n < 0
  · rw [if_pos hn, decide_eq_true hn, List.singleton_append, List.cons_append, hminus]
  · rw [if_neg hn, decide_eq_false hn, List.nil_append, hplain]

theorem signedNumber_signedDigits {n : Int} (h : InLimit n) :
    signedNumber (signedDigits n) = .ok n := by
  have hrow : readDigitRow (signedDigits n).2 = .ok n.natAbs := readDigitRow_toDigits h
  unfold signedNumber
  rw [hrow]
  refine congrArg Except.ok ?_
  simp only [signedDigits, decide_eq_true_eq]
  split <;> omega

/-- An end of a range beyond the limit is refused. -/
theorem signedNumber_long {n : Int} (h : ¬InLimit n) : signedNumber (signedDigits n) =
    .error (.value (.integerTooLong (Nat.toDigits 10 n.natAbs).length)) := by
  have hrow := readDigitRow_long (Nat.le_of_not_lt h)
  unfold signedNumber signedDigits
  rw [hrow]
  rfl

/-! ## 5. Ranges -/

/-- The text of an integer does not begin with a blank. -/
theorem stripLeft_decimal (n : Int) (rest : List Char) :
    stripLeft ((decimal n).toList ++ rest) = (decimal n).toList ++ rest := by
  obtain ⟨d, ds, hd⟩ := List.exists_cons_of_ne_nil (Nat.toDigits_ne_nil (n := n.natAbs) (b := 10))
  refine stripLeft_of_head fun c hc => ?_
  rw [toList_decimal, hd] at hc
  split at hc
  · cases hc
    rfl
  · cases hc
    exact not_blank_of_isAsciiDigit (isAsciiDigit_of_mem_toDigits d (hd ▸ List.mem_cons_self))

/-- Neither a blank nor what stands behind blanks is a digit, if that is none. -/
theorem not_digit_behind {gap : List Char} {c : Char} (hgap : Blanks gap)
    (hc : isAsciiDigit c = false) (rest : List Char) :
    ∀ d ∈ (gap ++ c :: rest).head?, isAsciiDigit d = false := by
  cases gap with
  | nil =>
    rintro d ⟨⟩
    exact hc
  | cons x gap =>
    rintro d ⟨⟩
    refine Bool.eq_false_iff.mpr fun hdigit => ?_
    have hblank := hgap x List.mem_cons_self
    rw [not_blank_of_isAsciiDigit hdigit] at hblank
    cases hblank

/-- **The two ends of a range** are found between its brackets, whatever blanks stand around
them. -/
theorem rangeEnds?_rangeText (a b : Int) {g₁ g₂ g₃ g₄ : List Char}
    (h₁ : Blanks g₁) (h₂ : Blanks g₂) (h₃ : Blanks g₃) (h₄ : Blanks g₄) :
    rangeEnds? (rangeText a b g₁ g₂ g₃ g₄) = some (signedDigits a, signedDigits b) := by
  have hpoint : ∀ rest, stripLeft (g₂ ++ '.' :: rest) = '.' :: rest := fun rest => by
    rw [stripLeft_blanks h₂, stripLeft_of_head]
    rintro c ⟨⟩
    rfl
  have hbracket : stripLeft (g₄ ++ [']']) = [']'] := by
    rw [stripLeft_blanks h₄, stripLeft_of_head]
    rintro c ⟨⟩
    rfl
  have hfirst := fun rest => takeSigned_decimal a
    (not_digit_behind h₂ (show isAsciiDigit '.' = false by decide) rest)
  have hlast := takeSigned_decimal b
    (not_digit_behind h₄ (show isAsciiDigit ']' = false by decide) [])
  unfold rangeText rangeEnds?
  simp only [stripLeft_blanks h₁, stripLeft_blanks h₃, stripLeft_decimal, Option.bind_eq_bind,
    Option.bind_some, hfirst, hlast, hpoint, hbracket, if_true]

/-- A range has no blanks at its ends, and is neither a constant nor a row of digits. -/
theorem rangeText_shape (a b : Int) (g₁ g₂ g₃ g₄ : List Char) :
    Trimmed (rangeText a b g₁ g₂ g₃ g₄) ∧ constant? (rangeText a b g₁ g₂ g₃ g₄) = none ∧
      (rangeText a b g₁ g₂ g₃ g₄).all isAsciiDigit = false := by
  refine ⟨⟨?_, ?_⟩, ?_, rfl⟩
  · rintro c ⟨⟩
    rfl
  · have hlast : (rangeText a b g₁ g₂ g₃ g₄).getLast? = some ']' := by
      simp [rangeText, List.getLast?_cons, List.getLast?_append]
    rw [hlast]
    rintro c ⟨⟩
    rfl
  · unfold constant?
    split
    · rename_i q d rest heq
      obtain ⟨rfl, -⟩ := List.cons.inj heq
      exact if_neg fun h => absurd h.1 (by decide)
    · rfl

/-- **The items of a range** are the integers between its ends, in increasing order. -/
theorem items_range (a b : Int) : ∃ ints : List Int,
    (∀ s, Eval.items (.range a (b + 1)) s = .ok (ints.map .int) s) ∧ ints.Pairwise (· < ·) ∧
      ∀ n, n ∈ ints ↔ a ≤ n ∧ n ≤ b := by
  refine ⟨(List.range (rangeLength a (b + 1))).map fun (i : Nat) => a + i, fun s => ?_, ?_,
    fun n => ?_⟩
  · rw [List.map_map]
    rfl
  · rw [List.pairwise_map]
    exact List.pairwise_lt_range.imp fun h => by omega
  · simp only [List.mem_map, List.mem_range, rangeLength]
    constructor
    · rintro ⟨i, hi, rfl⟩
      omega
    · rintro ⟨ha, hb⟩
      exact ⟨(n - a).toNat, by omega, by omega⟩

/-! ## 6. Results -/

namespace Operand

/-- The text is read as a literal: it refers to no variable, and its value is `v` whatever the
scopes hold. -/
def Denotes (cs : List Char) (v : Value) : Prop :=
  ∃ o, read cs = .ok o ∧ o.reference? = none ∧ ∀ c s, o.resolve c s = .ok v s

variable {before behind : List Char}

/-- Blanks around an operand make no difference. -/
theorem read_padded (hbefore : Blanks before) {cs : List Char} (h : Trimmed cs)
    (hbehind : Blanks behind) : read (before ++ cs ++ behind) = read cs := by
  unfold read
  rw [strip_padded hbefore h hbehind, strip_of_trimmed h]

theorem Denotes.padded (hbefore : Blanks before) {cs : List Char} (h : Trimmed cs)
    (hbehind : Blanks behind) {v : Value} (hv : Denotes cs v) :
    Denotes (before ++ cs ++ behind) v := by
  obtain ⟨o, hread, ho⟩ := hv
  exact ⟨o, (read_padded hbefore h hbehind).trans hread, ho⟩

theorem denotes_constantOf {q : Char} (hq : isQuote q = true) (cs : List Char) :
    Denotes (constantOf q cs) (.plain (String.ofList cs)) :=
  ⟨_, read_constantOf hq cs, rfl, fun _ _ => rfl⟩

theorem read_digits {row : List Char} (hne : row ≠ []) (h : ∀ c ∈ row, isAsciiDigit c = true) :
    read row = (readDigitRow row).bind fun n => .ok ⟨String.ofList row, .integer n⟩ := by
  unfold read
  dsimp only
  rw [strip_digits h, constant?_digits h]
  dsimp only
  rw [if_pos ⟨hne, List.all_eq_true.mpr h⟩]
  cases readDigitRow row <;> rfl

theorem denotes_decimalNat {n : Nat} (h : n < tenTo digitLimit) :
    Denotes (decimalNat n).toList (.int n) := by
  have hread := read_digits (Nat.toDigits_ne_nil (n := n) (b := 10)) isAsciiDigit_of_mem_toDigits
  rw [readDigitRow_toDigits h] at hread
  rw [decimalNat, String.toList_ofList]
  exact ⟨_, hread, rfl, fun _ _ => rfl⟩

theorem read_rangeText (a b : Int) {g₁ g₂ g₃ g₄ : List Char}
    (h₁ : Blanks g₁) (h₂ : Blanks g₂) (h₃ : Blanks g₃) (h₄ : Blanks g₄) :
    read (rangeText a b g₁ g₂ g₃ g₄) =
      (signedNumber (signedDigits a)).bind fun first =>
        (signedNumber (signedDigits b)).bind fun last =>
          .ok ⟨String.ofList (rangeText a b g₁ g₂ g₃ g₄), .range first last⟩ := by
  obtain ⟨htrimmed, hconstant, hdigits⟩ := rangeText_shape a b g₁ g₂ g₃ g₄
  unfold read
  dsimp only
  rw [strip_of_trimmed htrimmed, hconstant]
  dsimp only
  rw [if_neg (by simp [hdigits]), rangeEnds?_rangeText a b h₁ h₂ h₃ h₄]
  dsimp only
  cases signedNumber (signedDigits a) with
  | error e => rfl
  | ok first => cases signedNumber (signedDigits b) <;> rfl

theorem denotes_rangeText {a b : Int} (ha : InLimit a) (hb : InLimit b) {g₁ g₂ g₃ g₄ : List Char}
    (h₁ : Blanks g₁) (h₂ : Blanks g₂) (h₃ : Blanks g₃) (h₄ : Blanks g₄) :
    Denotes (rangeText a b g₁ g₂ g₃ g₄) (.range a (b + 1)) := by
  have hread := read_rangeText a b h₁ h₂ h₃ h₄
  rw [signedNumber_signedDigits ha, signedNumber_signedDigits hb] at hread
  exact ⟨_, hread, rfl, fun _ _ => rfl⟩

/-- **Literals are read back**, with any blanks around them.  Each text written as a constant is
read as that text, and each constant whose body is `Escaped` as a text that is escaped to this body.
The digits of a natural number within the limit are read as the number.  The text of a range whose
ends keep to the limit is read as a range whose items are just the integers from one end to the
other, in increasing order.  No variable comes in. -/
theorem denotes_literals (hbefore : Blanks before) (hbehind : Blanks behind) :
    (∀ q cs, isQuote q = true →
      Denotes (before ++ constantOf q cs ++ behind) (.plain (String.ofList cs))) ∧
    (∀ q body, isQuote q = true → Escaped q body → ∃ cs, escape q cs = body ∧
      Denotes (before ++ q :: (body ++ [q]) ++ behind) (.plain (String.ofList cs))) ∧
    (∀ n : Nat, n < tenTo digitLimit →
      Denotes (before ++ (decimalNat n).toList ++ behind) (.int n)) ∧
    ∀ a b, InLimit a → InLimit b →
      (∀ g₁ g₂ g₃ g₄, Blanks g₁ → Blanks g₂ → Blanks g₃ → Blanks g₄ →
        Denotes (before ++ rangeText a b g₁ g₂ g₃ g₄ ++ behind) (.range a (b + 1))) ∧
      ∃ ints : List Int, (∀ s, Eval.items (.range a (b + 1)) s = .ok (ints.map .int) s) ∧
        ints.Pairwise (· < ·) ∧ ∀ n, n ∈ ints ↔ a ≤ n ∧ n ≤ b := by
  have hconstant : ∀ q cs, isQuote q = true →
      Denotes (before ++ constantOf q cs ++ behind) (.plain (String.ofList cs)) := fun q cs hq =>
    (denotes_constantOf hq cs).padded hbefore (trimmed_constantOf hq cs) hbehind
  refine ⟨hconstant, fun q body hq hbody => ?_, fun n hn => ?_, fun a b ha hb => ⟨?_, ?_⟩⟩
  · obtain ⟨cs, rfl⟩ := exists_escape hbody
    exact ⟨cs, rfl, hconstant q cs hq⟩
  · have hdigits : Trimmed (decimalNat n).toList := by
      rw [decimalNat, String.toList_ofList]
      exact trimmed_digits isAsciiDigit_of_mem_toDigits
    exact (denotes_decimalNat hn).padded hbefore hdigits hbehind
  · intro g₁ g₂ g₃ g₄ h₁ h₂ h₃ h₄
    have htrimmed := (rangeText_shape a b g₁ g₂ g₃ g₄).1
    exact (denotes_rangeText ha hb h₁ h₂ h₃ h₄).padded hbefore htrimmed hbehind
  · exact items_range a b

/-- A range from -2 to 3, and a text with a quote and a backslash in it. -/
theorem denotes_literals_mixed :
    Denotes (" [-2 .. 3]\n".toList) (.range (-2) 4) ∧
      ∃ cs, escape '"' cs = "a\\\\\\\"".toList ∧
        Denotes " \"a\\\\\\\"\"\n".toList (.plain (String.ofList cs)) := by
  have hbefore : Blanks [' '] := blanks_singleton rfl
  have hbehind : Blanks ['\n'] := blanks_singleton rfl
  obtain ⟨-, hescaped, -, hrange⟩ := denotes_literals hbefore hbehind
  have hsmall : InLimit (-2) ∧ InLimit 3 :=
    ⟨inLimit_of_lt (k := 1) (by decide) (by decide), inLimit_of_lt (k := 1) (by decide) (by decide)⟩
  exact ⟨(hrange (-2) 3 hsmall.1 hsmall.2).1 [] [' '] [' '] [] nofun hbefore hbefore nofun,
    hescaped '"' "a\\\\\\\"".toList rfl (by simp [Escaped])⟩

/-- An end of a range beyond the limit is refused: no text of more digits is read as an integer. -/
theorem long_range_refused :
    read (rangeText (tenTo digitLimit) 0 [] [] [] []) =
      .error (.value (.integerTooLong (digitLimit + 1))) := by
  have hlong : ¬InLimit (tenTo digitLimit) := by
    rw [InLimit, Int.natAbs_natCast]
    exact Nat.lt_irrefl _
  have hnone : Blanks [] := nofun
  have hread := read_rangeText (tenTo digitLimit) 0 hnone hnone hnone hnone
  rw [signedNumber_long hlong, Int.natAbs_natCast, length_toDigits_tenTo (by decide)] at hread
  exact hread

end Operand

end TextTemplate
