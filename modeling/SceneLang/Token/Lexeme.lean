import SceneLang.Token
import SceneLang.Text.Character

/-!
# Lexemes

What stands at the head of a text: a piece of trivia, a lexeme, or a character that starts
none.  All functions look at the list of characters still to be read and answer with the
number of characters that belong together.
-/

namespace SceneLang.Lexeme

def isNameStart (c : Char) : Bool :=
  Text.isAlphabetic c || c = '_' || c = '$'

def isNamePart (c : Char) : Bool :=
  Text.isAlphanumeric c || c = '_' || c = '$'

def isInlineBlank (c : Char) : Bool :=
  c = ' ' || c = '\t' || c = '\r'

/-! ## Trivia -/

def lineWidth (text : List Char) : Nat :=
  (text.takeWhile (· ≠ '\n')).length

/-- What is left of a block comment behind its opening, through its end if it has one. -/
def blockWidth : List Char → Nat
  | [] => 0
  | '*' :: '/' :: _ => 2
  | _ :: rest => blockWidth rest + 1

/-- Does a name follow the hash sign, so that it marks an identifier? -/
def marksName : List Char → Bool
  | c :: _ => isNameStart c
  | [] => false

/-- The width of one blank or comment at the head of the text, zero if there is none.
Behind other tokens of a line a hash sign before a name does not start a comment. -/
def triviaWidth (lineHasToken : Bool) : List Char → Nat
  | '/' :: '/' :: rest => lineWidth rest + 2
  | '/' :: '*' :: rest => blockWidth rest + 2
  | '#' :: rest => if lineHasToken && marksName rest then 0 else lineWidth rest + 1
  | c :: _ => if isInlineBlank c then 1 else 0
  | [] => 0

/-! ## Numbers -/

def digitsWidth (text : List Char) : Nat :=
  (text.takeWhile Char.isDigit).length

/-- A point and the digits behind it; a point without digits does not belong here. -/
def fractionWidth : List Char → Nat
  | '.' :: c :: rest => if c.isDigit then digitsWidth rest + 2 else 0
  | _ => 0

def exponentWidth : List Char → Nat
  | mark :: c :: rest =>
      if mark = 'e' || mark = 'E' then
        if c.isDigit then digitsWidth rest + 2
        else if c = '+' || c = '-' then
          let digits := digitsWidth rest
          if digits = 0 then 0 else digits + 2
        else 0
      else 0
  | _ => 0

def unitWidth : List Char → Nat
  | '%' :: _ => 1
  | text => (text.takeWhile Text.isAlphabetic).length

/-- Digits, fraction, exponent and unit of a number without its sign. -/
def numberWidth (text : List Char) : Nat :=
  let digits := digitsWidth text
  let afterDigits := text.drop digits
  let fraction := fractionWidth afterDigits
  let afterFraction := afterDigits.drop fraction
  let exponent := exponentWidth afterFraction
  digits + fraction + exponent + unitWidth (afterFraction.drop exponent)

/-! ## Quoted texts and interpolations -/

/-- A delimited stretch: its contents, its width and whether its end was found. -/
structure Stretch where
  contents : List Char
  width : Nat
  closed : Bool
deriving Repr

/-- What an escaped character stands for; an unknown escape stands for itself. -/
def unescape (c : Char) : List Char :=
  if c = 'n' then ['\n']
  else if c = 't' then ['\t']
  else if c = 'r' then ['\r']
  else if c = '\\' || c = '"' || c = '\'' then [c]
  else ['\\', c]

/-- The rest of a quoted text.  It ends at its quote or, unclosed, at the end of the
line. -/
def quoted (quote : Char) : List Char → Stretch
  | [] => ⟨[], 0, false⟩
  | c :: rest =>
      if c = '\n' then ⟨[], 0, false⟩
      else if c = quote then ⟨[], 1, true⟩
      else if c = '\\' then
        match rest with
        | [] => ⟨['\\'], 1, false⟩
        | e :: more =>
            if e = '\n' then ⟨['\\'], 1, false⟩
            else
              let tail := quoted quote more
              ⟨unescape e ++ tail.contents, tail.width + 2, tail.closed⟩
      else
        let tail := quoted quote rest
        ⟨c :: tail.contents, tail.width + 1, tail.closed⟩

/-- The rest of an interpolation with `depth` open braces. -/
def interpolation (depth : Nat) : List Char → Stretch
  | [] => ⟨[], 0, false⟩
  | c :: rest =>
      if c = '\x7d' ∧ depth ≤ 1 then ⟨[], 1, true⟩
      else
        let inner :=
          if c = '\x7b' then depth + 1 else if c = '\x7d' then depth - 1 else depth
        let tail := interpolation inner rest
        ⟨c :: tail.contents, tail.width + 1, tail.closed⟩

/-- A carriage return before the end of the line does not belong to an unclosed text. -/
def dropReturn (contents : List Char) : List Char :=
  if contents.getLast? = some '\r' then contents.dropLast else contents

end Lexeme

/-- A kind, the number of characters, and the text if it is not just those characters. -/
structure Lexeme where
  kind : TokenKind
  width : Nat
  contents : Option (List Char)
deriving Repr

namespace Lexeme

def plain (kind : TokenKind) (width : Nat) : Lexeme := ⟨kind, width, none⟩

/-- Punctuation and operators; of two that fit the longer one. -/
def symbol? (c : Char) (rest : List Char) : Option Lexeme :=
  let follows (spelling : List Char) : Bool := spelling.isPrefixOf rest
  match c with
  | '(' => some (plain .leftParen 1)
  | ')' => some (plain .rightParen 1)
  | '[' => some (plain .leftBracket 1)
  | ']' => some (plain .rightBracket 1)
  | '\x7b' => some (plain .leftBrace 1)
  | '\x7d' => some (plain .rightBrace 1)
  | ':' => some (plain .colon 1)
  | ',' => some (plain .comma 1)
  | ';' => some (plain .semicolon 1)
  | '@' => some (plain .at 1)
  | '#' => some (plain .hash 1)
  | '*' => some (plain .star 1)
  | '/' => some (plain .slash 1)
  | '%' => some (plain .percent 1)
  | '.' => some (if follows ['.', '.'] then plain .spread 3 else plain .dot 1)
  | '=' =>
      some (if follows ['=', '='] then plain .equalEqual 3
        else if follows ['='] then plain .equalEqual 2
        else if follows ['>'] then plain .fatArrow 2
        else plain .equals 1)
  | '!' =>
      some (if follows ['=', '='] then plain .bangEqual 3
        else if follows ['='] then plain .bangEqual 2
        else plain .bang 1)
  | '<' => some (if follows ['='] then plain .lessEqual 2 else plain .less 1)
  | '>' => some (if follows ['='] then plain .greaterEqual 2 else plain .greater 1)
  | '&' => if follows ['&'] then some (plain .andAnd 2) else none
  | '|' => if follows ['|'] then some (plain .orOr 2) else none
  | '?' =>
      some (if follows ['?', '='] then plain .coalesceEqual 3
        else if follows ['?'] then plain .coalesce 2
        else plain .question 1)
  | '+' => some (if follows ['='] then plain .plusEqual 2 else plain .plus 1)
  | '-' =>
      some (if follows ['>'] then plain .arrow 2
        else if follows ['='] then plain .minusEqual 2
        else plain .minus 1)
  | _ => none

/-- The kind of a name: the words for truth values and null are no identifiers. -/
def wordKind (word : List Char) : TokenKind :=
  if word = ['t', 'r', 'u', 'e'] ∨ word = ['f', 'a', 'l', 's', 'e'] then .boolean
  else if word = ['n', 'u', 'l', 'l'] then .null
  else .identifier

/-- A name that starts with `c`. -/
def name (c : Char) (rest : List Char) : Lexeme :=
  let word := c :: rest.takeWhile isNamePart
  plain (wordKind word) word.length

/-- The lexeme that starts with `c`, if there is one.  A minus sign belongs to the number
behind it unless a value ends before it. -/
def scan (afterValue : Bool) (c : Char) (rest : List Char) : Option Lexeme :=
  let digitNext := (rest.head?.map Char.isDigit).getD false
  if c = '-' ∧ digitNext ∧ !afterValue then
    some (plain .number (numberWidth rest + 1))
  else if c = '"' ∨ c = '\'' then
    let stretch := quoted c rest
    some (if stretch.closed then ⟨.string, stretch.width + 1, some stretch.contents⟩
      else ⟨.unterminatedString, stretch.width + 1, some (dropReturn stretch.contents)⟩)
  else if c = '$' ∧ rest.head? = some '\x7b' then
    let stretch := interpolation 1 rest.tail
    some ⟨.interpolation, stretch.width + 2, some (Text.trim stretch.contents)⟩
  else if c.isDigit then some (plain .number (numberWidth (c :: rest)))
  else if isNameStart c then some (name c rest)
  else symbol? c rest

end Lexeme

end SceneLang
