/-
# Trees of markers

A source in the standard tags is a tree: conditionals, loops and comments hold further pieces, and
text, expressions, comment markers, cycles and serial numbers are its leaves.

    T  ::=  (leaf | if T (elif T)* [else T] endif | for T [empty T] endfor | comment T endcomment)*

A marker is **read** by itself: its first word and its argument tell what it is.  Only the cycles
and the serial numbers depend on where they stand, for they are numbered in the order of the
source.

* `Marker` is what a token says, `Marker.read?` reads one;
* `Tree` is the type of trees; `Tree.tokens` are the tokens of one, from left to right;
* `Tree.Reads` says that each token of a tree says what the tree has at its place, which can be
  computed (`Tree.decidableReads`);
* `Tree.Regular` says that a loop has at most one empty part, without `elif` and `else`.  The trees
  that are not regular are the sources beyond the grammar above that compile all the same.
-/
import TextTemplate.Program.Machine
import TextTemplate.Standard.Tags

namespace TextTemplate

open TextTemplate.Text

/-! ## 1. Markers -/

/-- How many cycles a compilation has met, and the serial number that it gives out next. -/
structure Numbers where
  cycles : Nat
  serial : Nat
  deriving DecidableEq, Repr

/-- A piece of a template that holds no others. -/
inductive Leaf where
  /-- A comment marker, or no text at all. -/
  | nothing
  | text (s : String)
  | expression (e : Expression)
  | cycle (values : List Expression) (counter : String)
  | serial (name : String) (number : Nat)
  deriving DecidableEq, Repr

/-- The numbers behind a leaf. -/
def Leaf.advance (n : Numbers) : Leaf → Numbers
  | cycle .. => { n with cycles := n.cycles + 1 }
  | serial .. => { n with serial := n.serial + 1 }
  | _ => n

/-- The instructions of a leaf. -/
def Leaf.code : Leaf → List Instruction
  | nothing => []
  | text s => [.literal s]
  | expression e => [.expression e]
  | cycle values counter => [.cycle values counter]
  | serial name number => [.assign name (.int number)]

/-- What a token says in the standard tags. -/
inductive Marker where
  | leaf (l : Leaf)
  | conditional (c : Condition)
  | alternative (c : Condition)
  | otherwise
  | loop (names : List String) (sequence : Expression)
  | empty
  | skipped
  | endConditional
  | endLoop
  | endSkipped
  deriving DecidableEq, Repr

namespace Marker

/-- The numbers behind a marker. -/
def advance (n : Numbers) : Marker → Numbers
  | leaf l => l.advance n
  | _ => n

/-- The name that a serial number is bound to. -/
def serialTarget (remainder : List Char) : String :=
  match plainName remainder with
  | [] => Tag.serialName
  | name => String.ofList name

/-- What a statement says: its first word and the text behind it. -/
def ofStatement (n : Numbers) (command : String) (remainder : List Char) : Option Marker :=
  match command with
  | "if" => (Condition.read remainder).toOption.map conditional
  | "elif" => (Condition.read remainder).toOption.map alternative
  | "else" => some otherwise
  | "for" => do
    let (names, sequence) ← Tag.loopTarget remainder
    (Expression.read sequence).toOption.map (loop names)
  | "empty" => some empty
  | "cycle" =>
    match units remainder with
    | [] => none
    | texts => (texts.mapM Expression.read).toOption.map fun values =>
      leaf (.cycle values (Tag.cycleCounter n.cycles))
  | "comment" => some skipped
  | "make_guid" => some (leaf (.serial (serialTarget remainder) n.serial))
  | "endif" => some endConditional
  | "endfor" => some endLoop
  | "endcomment" => some endSkipped
  | _ => none

end Marker

/-- The first word of a statement. -/
def Token.command (t : Token) : List Char := firstWord t.contents.toList

/-- The text behind the first word of a statement. -/
def Token.remainder (t : Token) : List Char := strip (t.contents.toList.drop t.command.length)

/-- What a token says, if its argument can be read. -/
def Marker.read? (n : Numbers) (t : Token) : Option Marker :=
  match t.kind with
  | .text => some (.leaf (if t.contents = "" then .nothing else .text t.contents))
  | .expression =>
    if t.contents = "" then none
    else (Expression.read t.contents.toList).toOption.map fun e => .leaf (.expression e)
  | .statement =>
    if t.command = [] then none else ofStatement n (String.ofList t.command) t.remainder
  | .comment => some (.leaf .nothing)

namespace Marker

/-- What a statement says, case by case, with what has been read. -/
inductive Stated (n : Numbers) (remainder : List Char) : String → Marker → Prop where
  | conditional {c : Condition} (read : Condition.read remainder = .ok c) :
      Stated n remainder "if" (.conditional c)
  | alternative {c : Condition} (read : Condition.read remainder = .ok c) :
      Stated n remainder "elif" (.alternative c)
  | otherwise : Stated n remainder "else" .otherwise
  | loop {names : List String} {sequence : List Char} {e : Expression}
      (target : Tag.loopTarget remainder = some (names, sequence))
      (read : Expression.read sequence = .ok e) : Stated n remainder "for" (.loop names e)
  | empty : Stated n remainder "empty" .empty
  | cycle {text : List Char} {texts : List (List Char)} {values : List Expression}
      (some : units remainder = text :: texts)
      (read : (text :: texts).mapM Expression.read = .ok values) :
      Stated n remainder "cycle" (.leaf (.cycle values (Tag.cycleCounter n.cycles)))
  | skipped : Stated n remainder "comment" .skipped
  | serial :
      Stated n remainder "make_guid" (.leaf (.serial (serialTarget remainder) n.serial))
  | endConditional : Stated n remainder "endif" .endConditional
  | endLoop : Stated n remainder "endfor" .endLoop
  | endSkipped : Stated n remainder "endcomment" .endSkipped

theorem ok_of_toOption {α β : Type} {x : Except Cause α} {f : α → β} {b : β}
    (h : x.toOption.map f = some b) : ∃ a, x = .ok a ∧ f a = b := by
  cases x with
  | error cause => cases h
  | ok a =>
    injection h with h
    exact ⟨a, rfl, h⟩

theorem stated_of_ofStatement {n : Numbers} {command : String} {remainder : List Char}
    {m : Marker} (h : ofStatement n command remainder = some m) :
    Stated n remainder command m := by
  unfold ofStatement at h
  split at h
  · obtain ⟨c, hc, rfl⟩ := ok_of_toOption h
    exact .conditional hc
  · obtain ⟨c, hc, rfl⟩ := ok_of_toOption h
    exact .alternative hc
  · cases h
    exact .otherwise
  · obtain ⟨⟨names, sequence⟩, ht, h⟩ := Option.bind_eq_some_iff.mp h
    obtain ⟨e, he, rfl⟩ := ok_of_toOption h
    exact .loop ht he
  · cases h
    exact .empty
  · split at h
    · cases h
    · rename_i hu hnil
      obtain ⟨values, hv, rfl⟩ := ok_of_toOption h
      obtain ⟨text, texts, hcons⟩ := List.exists_cons_of_ne_nil hnil
      exact .cycle hcons (hcons ▸ hv)
  · cases h
    exact .skipped
  · cases h
    exact .serial
  · cases h
    exact .endConditional
  · cases h
    exact .endLoop
  · cases h
    exact .endSkipped
  · cases h

/-- **What a token says**: a leaf if it is no statement, and else what its statement says. -/
theorem cases_of_read {n : Numbers} {t : Token} {m : Marker} (h : read? n t = some m) :
    (t.kind ≠ .statement ∧ ∃ l : Leaf, m = .leaf l) ∨
      (t.kind = .statement ∧ t.command ≠ [] ∧
        Stated n t.remainder (String.ofList t.command) m) := by
  unfold read? at h
  split at h
  · rename_i hk
    cases h
    exact .inl ⟨by simp [hk], _, rfl⟩
  · rename_i hk
    split at h
    · cases h
    · obtain ⟨e, _, rfl⟩ := ok_of_toOption h
      exact .inl ⟨by simp [hk], _, rfl⟩
  · rename_i hk
    split at h
    · cases h
    · rename_i hc
      exact .inr ⟨hk, hc, stated_of_ofStatement h⟩
  · rename_i hk
    cases h
    exact .inl ⟨by simp [hk], _, rfl⟩

end Marker

/-! ## 2. Trees -/

mutual

/-- A row of pieces; each piece has its tokens with it. -/
inductive Tree where
  | nil
  | leaf (token : Token) (l : Leaf) (next : Tree)
  | conditional (opening : Token) (condition : Condition) (body : Tree) (chain : Chain)
      (closing : Token) (next : Tree)
  | loop (opening : Token) (names : List String) (sequence : Expression) (body : Tree)
      (parts : EmptyParts) (closing : Token) (next : Tree)
  | skipped (opening : Token) (body : Tree) (closing : Token) (next : Tree)

/-- What follows the first body of a conditional: alternatives with a condition each, and perhaps
a last one without. -/
inductive Chain where
  | done
  | otherwise (token : Token) (body : Tree)
  | alternative (token : Token) (condition : Condition) (body : Tree) (chain : Chain)

/-- What follows the body of a loop. -/
inductive EmptyParts where
  | none
  | part (token : Token) (body : Tree) (chain : Chain) (more : EmptyParts)

end

mutual

/-- The tokens of a tree, from left to right. -/
def Tree.tokens : Tree → List Token
  | .nil => []
  | .leaf t _ next => t :: next.tokens
  | .conditional t _ body chain closing next =>
    t :: (body.tokens ++ (chain.tokens ++ closing :: next.tokens))
  | .loop t _ _ body parts closing next =>
    t :: (body.tokens ++ (parts.tokens ++ closing :: next.tokens))
  | .skipped t body closing next => t :: (body.tokens ++ closing :: next.tokens)

/-- The tokens of a chain. -/
def Chain.tokens : Chain → List Token
  | .done => []
  | .otherwise t body => t :: body.tokens
  | .alternative t _ body chain => t :: (body.tokens ++ chain.tokens)

/-- The tokens of empty parts. -/
def EmptyParts.tokens : EmptyParts → List Token
  | .none => []
  | .part t body chain more => t :: (body.tokens ++ (chain.tokens ++ more.tokens))

end

mutual

/-- The numbers behind a tree. -/
def Tree.advance (n : Numbers) : Tree → Numbers
  | .nil => n
  | .leaf _ l next => next.advance (l.advance n)
  | .conditional _ _ body chain _ next => next.advance (chain.advance (body.advance n))
  | .loop _ _ _ body parts _ next => next.advance (parts.advance (body.advance n))
  | .skipped _ body _ next => next.advance (body.advance n)

/-- The numbers behind a chain. -/
def Chain.advance (n : Numbers) : Chain → Numbers
  | .done => n
  | .otherwise _ body => body.advance n
  | .alternative _ _ body chain => chain.advance (body.advance n)

/-- The numbers behind empty parts. -/
def EmptyParts.advance (n : Numbers) : EmptyParts → Numbers
  | .none => n
  | .part _ body chain more => more.advance (chain.advance (body.advance n))

end

mutual

/-- Each token of the tree says what the tree has at its place, with the numbers counted from `n`
in the order of the source. -/
def Tree.Reads (n : Numbers) : Tree → Prop
  | .nil => True
  | .leaf t l next => Marker.read? n t = some (.leaf l) ∧ next.Reads (l.advance n)
  | .conditional t c body chain closing next =>
    Marker.read? n t = some (.conditional c) ∧ body.Reads n ∧ chain.Reads (body.advance n) ∧
      Marker.read? (chain.advance (body.advance n)) closing = some .endConditional ∧
      next.Reads (chain.advance (body.advance n))
  | .loop t names e body parts closing next =>
    Marker.read? n t = some (.loop names e) ∧ body.Reads n ∧ parts.Reads (body.advance n) ∧
      Marker.read? (parts.advance (body.advance n)) closing = some .endLoop ∧
      next.Reads (parts.advance (body.advance n))
  | .skipped t body closing next =>
    Marker.read? n t = some .skipped ∧ body.Reads n ∧
      Marker.read? (body.advance n) closing = some .endSkipped ∧ next.Reads (body.advance n)

/-- Each token of the chain says what the chain has at its place. -/
def Chain.Reads (n : Numbers) : Chain → Prop
  | .done => True
  | .otherwise t body => Marker.read? n t = some .otherwise ∧ body.Reads n
  | .alternative t c body chain =>
    Marker.read? n t = some (.alternative c) ∧ body.Reads n ∧ chain.Reads (body.advance n)

/-- Each token of the empty parts says what they have at its place. -/
def EmptyParts.Reads (n : Numbers) : EmptyParts → Prop
  | .none => True
  | .part t body chain more =>
    Marker.read? n t = some .empty ∧ body.Reads n ∧ chain.Reads (body.advance n) ∧
      more.Reads (chain.advance (body.advance n))

end

mutual

/-- Whether the tokens of a tree say what it has can be computed. -/
def Tree.decidableReads (n : Numbers) : (tree : Tree) → Decidable (tree.Reads n)
  | .nil => .isTrue trivial
  | .leaf _ l next =>
    have := next.decidableReads (l.advance n)
    inferInstanceAs (Decidable (_ ∧ _))
  | .conditional _ _ body chain _ next =>
    have := body.decidableReads n
    have := chain.decidableReads (body.advance n)
    have := next.decidableReads (chain.advance (body.advance n))
    inferInstanceAs (Decidable (_ ∧ _ ∧ _ ∧ _ ∧ _))
  | .loop _ _ _ body parts _ next =>
    have := body.decidableReads n
    have := parts.decidableReads (body.advance n)
    have := next.decidableReads (parts.advance (body.advance n))
    inferInstanceAs (Decidable (_ ∧ _ ∧ _ ∧ _ ∧ _))
  | .skipped _ body _ next =>
    have := body.decidableReads n
    have := next.decidableReads (body.advance n)
    inferInstanceAs (Decidable (_ ∧ _ ∧ _ ∧ _))

/-- The same for a chain. -/
def Chain.decidableReads (n : Numbers) : (chain : Chain) → Decidable (chain.Reads n)
  | .done => .isTrue trivial
  | .otherwise _ body =>
    have := body.decidableReads n
    inferInstanceAs (Decidable (_ ∧ _))
  | .alternative _ _ body chain =>
    have := body.decidableReads n
    have := chain.decidableReads (body.advance n)
    inferInstanceAs (Decidable (_ ∧ _ ∧ _))

/-- The same for empty parts. -/
def EmptyParts.decidableReads (n : Numbers) : (parts : EmptyParts) → Decidable (parts.Reads n)
  | .none => .isTrue trivial
  | .part _ body chain more =>
    have := body.decidableReads n
    have := chain.decidableReads (body.advance n)
    have := more.decidableReads (chain.advance (body.advance n))
    inferInstanceAs (Decidable (_ ∧ _ ∧ _ ∧ _))

end

instance (n : Numbers) (tree : Tree) : Decidable (tree.Reads n) := tree.decidableReads n

/-! ## 3. Regular trees -/

mutual

/-- Every loop of the tree has at most one empty part, without `elif` and `else`. -/
def Tree.Regular : Tree → Prop
  | .nil => True
  | .leaf _ _ next => next.Regular
  | .conditional _ _ body chain _ next => body.Regular ∧ chain.Regular ∧ next.Regular
  | .loop _ _ _ body parts _ next => body.Regular ∧ parts.Regular ∧ next.Regular
  | .skipped _ body _ next => body.Regular ∧ next.Regular

/-- All bodies of the chain are regular. -/
def Chain.Regular : Chain → Prop
  | .done => True
  | .otherwise _ body => body.Regular
  | .alternative _ _ body chain => body.Regular ∧ chain.Regular

/-- There is at most one part, it is regular, and nothing follows in it. -/
def EmptyParts.Regular : EmptyParts → Prop
  | .none => True
  | .part _ body chain more => body.Regular ∧ chain = .done ∧ more = .none

end

end TextTemplate
