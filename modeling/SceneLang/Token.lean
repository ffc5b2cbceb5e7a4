import SceneLang.Text.Position

/-!
# Tokens

The kinds of tokens that a text is cut into, and the tokens themselves.  Three kinds carry
the layout of lines; the last token of a text marks its end.
-/

namespace SceneLang

inductive TokenKind where
  | identifier
  | string
  | unterminatedString
  | number
  | boolean
  | null
  | interpolation
  | leftParen
  | rightParen
  | leftBracket
  | rightBracket
  | leftBrace
  | rightBrace
  | colon
  | comma
  | dot
  | semicolon
  | at
  | hash
  | equals
  | plus
  | minus
  | star
  | slash
  | percent
  | bang
  | equalEqual
  | bangEqual
  | less
  | lessEqual
  | greater
  | greaterEqual
  | andAnd
  | orOr
  | question
  | coalesce
  | coalesceEqual
  | fatArrow
  | arrow
  | spread
  | plusEqual
  | minusEqual
  | newline
  | indent
  | dedent
  | eof
deriving DecidableEq, Repr, Inhabited

namespace TokenKind

def all : List TokenKind :=
  [.identifier, .string, .unterminatedString, .number, .boolean, .null, .interpolation,
   .leftParen, .rightParen, .leftBracket, .rightBracket, .leftBrace, .rightBrace, .colon,
   .comma, .dot, .semicolon, .at, .hash, .equals, .plus, .minus, .star, .slash, .percent,
   .bang, .equalEqual, .bangEqual, .less, .lessEqual, .greater, .greaterEqual, .andAnd, .orOr,
   .question, .coalesce, .coalesceEqual, .fatArrow, .arrow, .spread, .plusEqual, .minusEqual,
   .newline, .indent, .dedent, .eof]

def name : TokenKind → String
  | .identifier => "Identifier"
  | .string => "String"
  | .unterminatedString => "UnterminatedString"
  | .number => "Number"
  | .boolean => "Boolean"
  | .null => "Null"
  | .interpolation => "Interpolation"
  | .leftParen => "LParen"
  | .rightParen => "RParen"
  | .leftBracket => "LBracket"
  | .rightBracket => "RBracket"
  | .leftBrace => "LBrace"
  | .rightBrace => "RBrace"
  | .colon => "Colon"
  | .comma => "Comma"
  | .dot => "Dot"
  | .semicolon => "Semicolon"
  | .at => "At"
  | .hash => "Hash"
  | .equals => "Equals"
  | .plus => "Plus"
  | .minus => "Minus"
  | .star => "Star"
  | .slash => "Slash"
  | .percent => "Percent"
  | .bang => "Bang"
  | .equalEqual => "EqEq"
  | .bangEqual => "BangEq"
  | .less => "Lt"
  | .lessEqual => "LtEq"
  | .greater => "Gt"
  | .greaterEqual => "GtEq"
  | .andAnd => "AndAnd"
  | .orOr => "OrOr"
  | .question => "Question"
  | .coalesce => "QuestionQuestion"
  | .coalesceEqual => "QuestionQuestionEq"
  | .fatArrow => "FatArrow"
  | .arrow => "Arrow"
  | .spread => "Spread"
  | .plusEqual => "PlusEq"
  | .minusEqual => "MinusEq"
  | .newline => "Newline"
  | .indent => "Indent"
  | .dedent => "Dedent"
  | .eof => "Eof"

def ofName? (name : String) : Option TokenKind :=
  all.find? (·.name = name)

def describe : TokenKind → String
  | .identifier => "identifier"
  | .string => "string"
  | .unterminatedString => "unterminated string"
  | .number => "number"
  | .boolean => "boolean"
  | .null => "null"
  | .interpolation => "interpolation"
  | .leftParen => "'('"
  | .rightParen => "')'"
  | .leftBracket => "'['"
  | .rightBracket => "']'"
  | .leftBrace => "'\x7b'"
  | .rightBrace => "'\x7d'"
  | .colon => "':'"
  | .comma => "','"
  | .dot => "'.'"
  | .semicolon => "';'"
  | .at => "'@'"
  | .hash => "'#'"
  | .equals => "'='"
  | .plus => "'+'"
  | .minus => "'-'"
  | .star => "'*'"
  | .slash => "'/'"
  | .percent => "'%'"
  | .bang => "'!'"
  | .equalEqual => "'=='"
  | .bangEqual => "'!='"
  | .less => "'<'"
  | .lessEqual => "'<='"
  | .greater => "'>'"
  | .greaterEqual => "'>='"
  | .andAnd => "'&&'"
  | .orOr => "'||'"
  | .question => "'?'"
  | .coalesce => "'??'"
  | .coalesceEqual => "'??='"
  | .fatArrow => "'=>'"
  | .arrow => "'->'"
  | .spread => "'...'"
  | .plusEqual => "'+='"
  | .minusEqual => "'-='"
  | .newline => "newline"
  | .indent => "indent"
  | .dedent => "dedent"
  | .eof => "end of input"

def isLayout : TokenKind → Bool
  | .newline | .indent | .dedent => true
  | _ => false

/-- Can a value end here?  A minus sign behind such a token subtracts. -/
def endsValue : TokenKind → Bool
  | .identifier | .string | .number | .boolean | .null | .interpolation
  | .rightParen | .rightBracket | .rightBrace => true
  | _ => false

def startsValue : TokenKind → Bool
  | .string | .unterminatedString | .number | .boolean | .null | .interpolation
  | .leftBracket => true
  | _ => false

end TokenKind

/-- A token with its text and place.  The text is the name of an identifier, the contents
of a quoted text, the whole of a number, the inside of an interpolation, and the spelling of
any other token. -/
structure Token where
  kind : TokenKind
  text : String
  span : Span
  position : Position
deriving DecidableEq, Repr, Inhabited

namespace Token

def line (token : Token) : Nat := token.position.line

def isWord (token : Token) (word : String) : Bool :=
  token.kind = .identifier && token.text = word

end Token

end SceneLang
