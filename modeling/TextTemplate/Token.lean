/-
# Tokens

A token is a piece of a template's source: plain text, or one of three kinds of marker.

* `Token` is a token with its place in the source;
* `Token.shown` is its short description in messages.
-/

namespace TextTemplate

/-- What a token is. -/
inductive TokenKind where
  | text
  | expression
  | statement
  | comment
  deriving DecidableEq, Repr

/-- A token: the text without the delimiters, where the token starts and ends in the source with
the delimiters, and the number of the line it starts in. -/
structure Token where
  kind : TokenKind
  contents : String
  start : Nat
  stop : Nat
  line : Nat
  deriving DecidableEq, Repr

/-- The capitalised name of a kind. -/
def TokenKind.title : TokenKind → String
  | .text => "Text"
  | .expression => "Expression"
  | .statement => "Statement"
  | .comment => "Comment"

/-- A token is shown by its kind and its first 20 characters, on one line. -/
def Token.shown (t : Token) : String :=
  "<" ++ t.kind.title ++ " token: \"" ++
    String.ofList ((t.contents.toList.take 20).filter (· ≠ '\n')) ++ "...\">"

end TextTemplate
