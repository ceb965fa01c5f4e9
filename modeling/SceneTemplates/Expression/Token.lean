import SceneTemplates.Expression.Operator
import SceneTemplates.Number.Basic

/-!
# Tokens

The tokens of an expression: constants, names, keywords, and symbols, which are the operators
and the punctuation. Each token knows the position of its first code point.
-/
namespace SceneTemplates

/-- Words that are no names. The words `true`, `false` and `null` are constants. -/
inductive Keyword where
  | this | new | typeof | within | instanceOf
  deriving DecidableEq

namespace Keyword

def spelling : Keyword → String
  | .this => "this" | .new => "new" | .typeof => "typeof" | .within => "in"
  | .instanceOf => "instanceof"

def all : List Keyword := [.this, .new, .typeof, .within, .instanceOf]

end Keyword

/-- Operators and punctuation written without letters. -/
inductive Symbol where
  | binary (op : BinaryOperator)
  | assign (op : AssignmentOperator)
  | update (op : UpdateOperator)
  | not | bitNot
  | openParen | closeParen | openBracket | closeBracket | openBrace | closeBrace
  | comma | dot | colon | question | spread
  deriving DecidableEq

namespace Symbol

def spelling : Symbol → String
  | .binary op => op.spelling
  | .assign op => op.spelling
  | .update op => op.spelling
  | .not => "!" | .bitNot => "~"
  | .openParen => "(" | .closeParen => ")" | .openBracket => "[" | .closeBracket => "]"
  | .openBrace => "\x7b" | .closeBrace => "\x7d"
  | .comma => "," | .dot => "." | .colon => ":" | .question => "?" | .spread => "..."

/-- All symbols, the longer spellings before the shorter ones. -/
def all : List Symbol :=
  [.assign ⟨some .shiftRightUnsigned⟩,
   .spread, .binary .strictEqual, .binary .strictNotEqual,
   .assign ⟨some .shiftLeft⟩, .assign ⟨some .shiftRight⟩, .assign ⟨some .power⟩,
   .assign ⟨some .nullish⟩, .assign ⟨some .and⟩, .assign ⟨some .or⟩,
   .binary .shiftRightUnsigned,
   .binary .power, .binary .equal, .binary .notEqual, .binary .lessEqual, .binary .greaterEqual,
   .binary .and, .binary .or, .binary .nullish, .update .increment, .update .decrement,
   .assign ⟨some .minus⟩, .assign ⟨some .plus⟩, .assign ⟨some .times⟩, .assign ⟨some .divide⟩,
   .assign ⟨some .modulo⟩, .assign ⟨some .bitAnd⟩, .assign ⟨some .bitOr⟩,
   .assign ⟨some .bitXor⟩, .binary .shiftLeft, .binary .shiftRight,
   .binary .less, .binary .greater, .not, .bitNot, .binary .plus, .binary .minus,
   .binary .times, .binary .divide, .binary .modulo, .binary .bitAnd, .binary .bitOr,
   .binary .bitXor, .assign ⟨none⟩, .openParen, .closeParen, .openBracket, .closeBracket,
   .openBrace, .closeBrace, .comma, .dot, .colon, .question]

end Symbol

/-- What a token is. -/
inductive TokenKind where
  | number (n : Number)
  | text (t : Text)
  | bool (b : Bool)
  | null
  | name (t : Text)
  | keyword (k : Keyword)
  | symbol (s : Symbol)
  /-- The end of the source. -/
  | finish
  deriving DecidableEq

namespace TokenKind

/-- A token as messages show it. -/
def shown : TokenKind → Text
  | .number n => n.shown
  | .text t => t
  | .bool b => if b then "True" else "False"
  | .null => "None"
  | .name t => t
  | .keyword k => k.spelling
  | .symbol s => s.spelling
  | .finish => "None"

/-- The binary operator a token stands for between two operands. -/
def binary? : TokenKind → Option BinaryOperator
  | .symbol (.binary op) => some op
  | .keyword .within => some .within
  | .keyword .instanceOf => some .instanceOf
  | _ => none

/-- The unary operator a token stands for before an operand. -/
def unary? : TokenKind → Option UnaryOperator
  | .symbol .not => some .not
  | .symbol .bitNot => some .bitNot
  | .symbol (.binary .minus) => some .minus
  | .symbol (.binary .plus) => some .plus
  | .keyword .typeof => some .typeof
  | _ => none

/-- The member name a token stands for after a point: a name or a word of letters. -/
def memberName? : TokenKind → Option Text
  | .name t => some t
  | .keyword k => some k.spelling
  | .bool b => some (if b then "true" else "false")
  | .null => some "null"
  | _ => none

end TokenKind

/-- A token and the position of its first code point. -/
structure Token where
  kind : TokenKind
  position : Nat
  deriving DecidableEq

end SceneTemplates
