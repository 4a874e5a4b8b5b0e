import Tablica.Keyword
import Tablica.Number
import Tablica.Operator
import Tablica.Source.Line

/-!
# Tokens

A line is read as a row of tokens.  What a token is, its **kind**, is a keyword, a
name, a literal, an operator, a punctuator, the range symbol (which is whatever the
configuration says) or the end of the line.  A token is a kind and the position at
which it starts.

* `Punctuator`, `TokenKind`, `Token` — the types;
* `TokenKind.name` — the word for a kind;
* `TokenKind.shown` — a token as messages quote it.
-/

namespace Tablica

inductive Punctuator
  | assignment | comma | openParenthesis | closeParenthesis | openBracket | closeBracket
deriving DecidableEq, Repr, Inhabited

namespace Punctuator

/-- The punctuator as it stands in a program; assignment has a second spelling, `<-`. -/
def symbol : Punctuator → String
  | assignment => ":="
  | comma => ","
  | openParenthesis => "("
  | closeParenthesis => ")"
  | openBracket => "["
  | closeBracket => "]"

def name : Punctuator → String
  | assignment => "assignment"
  | comma => "comma"
  | openParenthesis => "opening parenthesis"
  | closeParenthesis => "closing parenthesis"
  | openBracket => "opening square bracket"
  | closeBracket => "closing square bracket"

end Punctuator

/-- What a token is. -/
inductive TokenKind
  | keyword (keyword : Keyword)
  | identifier (name : String)
  | number (value : Number)
  | boolean (value : Bool)
  | text (value : String)
  | operator (operator : Operator)
  | punctuator (punctuator : Punctuator)
  | range (symbol : String)
  | endOfLine
deriving DecidableEq, Repr, Inhabited

namespace TokenKind

/-- The word for a kind. -/
def name : TokenKind → String
  | keyword _ => "keyword"
  | identifier _ => "identifier"
  | number _ => "number"
  | boolean _ => "boolean"
  | text _ => "string"
  | operator _ => "operator"
  | punctuator p => p.name
  | range _ => "range symbol"
  | endOfLine => "end of line"

/-- The spelling of a truth value. -/
def spellBoolean (b : Bool) : String :=
  if b then "prawda" else "fałsz"

/-- The kind as messages quote it. -/
def shown : TokenKind → String
  | keyword k => s!"`{k.spelling}`"
  | identifier name => s!"`{name}`"
  | number n => s!"`{n.shown}`"
  | boolean b => s!"`{spellBoolean b}`"
  | text s => s!"\"{s}\""
  | operator o => s!"`{o.symbol}`"
  | punctuator p => s!"`{p.symbol}`"
  | range symbol => s!"`{symbol}`"
  | endOfLine => "end of line"

end TokenKind

/-- A kind and the position at which it starts. -/
structure Token where
  kind : TokenKind
  position : Position
deriving DecidableEq, Repr, Inhabited

end Tablica
