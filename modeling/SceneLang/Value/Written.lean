import SceneLang.Value
import SceneLang.Token.Lexeme

/-!
# Values as source text

The text of a value, with parentheses only where an operand binds more weakly than its
place asks for.
-/

namespace SceneLang

def escapeChar (c : Char) : List Char :=
  if c = '"' then ['\\', '"']
  else if c = '\\' then ['\\', '\\']
  else if c = '\n' then ['\\', 'n']
  else if c = '\t' then ['\\', 't']
  else if c = '\r' then ['\\', 'r']
  else [c]

/-- A text between quotes, with the escapes that reading undoes. -/
def escapeText (text : List Char) : List Char :=
  '"' :: text.flatMap escapeChar ++ ['"']

/-- Can a key be written without quotes? -/
def isBareKey : List Char → Bool
  | [] => false
  | c :: rest => Lexeme.isNameStart c && rest.all Lexeme.isNamePart

def BinaryOp.spelling : BinaryOp → String
  | .coalesce => "??"
  | .or => "||"
  | .and => "&&"
  | .eq => "=="
  | .ne => "!="
  | .lt => "<"
  | .le => "<="
  | .gt => ">"
  | .ge => ">="
  | .add => "+"
  | .sub => "-"
  | .mul => "*"
  | .div => "/"
  | .mod => "%"

/-- How tightly an operator binds; four is left for the conditional. -/
def BinaryOp.strength : BinaryOp → Nat
  | .coalesce => 1
  | .or => 2
  | .and => 3
  | .eq | .ne => 5
  | .lt | .le | .gt | .ge => 6
  | .add | .sub => 7
  | .mul | .div | .mod => 8

def UnaryOp.spelling : UnaryOp → String
  | .not => "!"
  | .neg => "-"

/-- The least strengths that the operands of an operator are written without parentheses
for.  A chain of `??` leans to the right, all others to the left. -/
def BinaryOp.operandStrengths (op : BinaryOp) : Nat × Nat :=
  if op = .coalesce then (op.strength + 1, op.strength) else (op.strength, op.strength + 1)

namespace Value

def strength : Value → Nat
  | .arrow _ _ => 0
  | .binary op _ _ => op.strength
  | .ternary _ _ _ => 4
  | .unary _ _ => 9
  | _ => 10

/-- Text in parentheses if its strength is below the one asked for. -/
def enclose (least strength : Nat) (text : List Char) : List Char :=
  if strength < least then '(' :: text ++ [')'] else text

def separated : List (List Char) → List Char
  | [] => []
  | [text] => text
  | text :: rest => text ++ ',' :: ' ' :: separated rest

def paramText (param : ArrowParam) : List Char :=
  (if param.rest then ['.', '.', '.'] else []) ++ param.name.toList

mutual

def chars : Value → List Char
  | .string text => escapeText text.toList
  | .number _ _ raw => raw.toList
  | .bool value => (if value then "true" else "false").toList
  | .null => "null".toList
  | .array items => '[' :: separated (itemTexts items) ++ [']']
  | .object entries =>
      match entryTexts entries with
      | [] => ['\x7b', '\x7d']
      | texts => '\x7b' :: ' ' :: separated texts ++ [' ', '\x7d']
  | .reference name => name.toList
  | .interpolation _ expression => '$' :: '\x7b' :: expression.toList ++ ['\x7d']
  | .binary op left right =>
      enclose op.operandStrengths.1 left.strength left.chars ++
        ' ' :: op.spelling.toList ++ ' ' ::
          enclose op.operandStrengths.2 right.strength right.chars
  | .unary op operand => op.spelling.toList ++ enclose 9 operand.strength operand.chars
  | .ternary condition thenBranch elseBranch =>
      enclose 5 condition.strength condition.chars ++ [' ', '?', ' '] ++ thenBranch.chars ++
        [' ', ':', ' '] ++ enclose 4 elseBranch.strength elseBranch.chars
  | .spread inner => ['.', '.', '.'] ++ enclose 10 inner.strength inner.chars
  | .call callee args =>
      enclose 10 callee.strength callee.chars ++ '(' :: separated (itemTexts args) ++ [')']
  | .member target property =>
      enclose 10 target.strength target.chars ++ '.' :: property.toList
  | .index target key =>
      enclose 10 target.strength target.chars ++ '[' :: key.chars ++ [']']
  | .arrow params body =>
      '(' :: separated (params.map paramText) ++ [')', ' ', '=', '>', ' '] ++ bodyChars body

def itemTexts : List Value → List (List Char)
  | [] => []
  | item :: rest => item.chars :: itemTexts rest

def entryTexts : List ObjectEntry → List (List Char)
  | [] => []
  | .field key value :: rest =>
      ((if isBareKey key.toList then key.toList else escapeText key.toList) ++
        ':' :: ' ' :: value.chars) :: entryTexts rest
  | .spread value :: rest =>
      (['.', '.', '.'] ++ enclose 10 value.strength value.chars) :: entryTexts rest

def bodyChars : ArrowBody → List Char
  | .expr value => value.chars
  | .block text => '\x7b' :: text.toList ++ ['\x7d']

end

def text (value : Value) : String :=
  String.ofList value.chars

end Value

end SceneLang
