import SceneLang.Parser.Basic

/-!
# Finding the way back

After an error the parser skips to a place where it can go on.  Groups in parentheses,
brackets or braces are skipped as a whole.
-/

namespace SceneLang

/-- The three kinds of paired tokens. -/
inductive Delimiter where
  | paren
  | bracket
  | brace
deriving DecidableEq, Repr

namespace Delimiter

def opening : Delimiter → TokenKind
  | .paren => .leftParen
  | .bracket => .leftBracket
  | .brace => .leftBrace

def closing : Delimiter → TokenKind
  | .paren => .rightParen
  | .bracket => .rightBracket
  | .brace => .rightBrace

def ofOpening? : TokenKind → Option Delimiter
  | .leftParen => some .paren
  | .leftBracket => some .bracket
  | .leftBrace => some .brace
  | _ => none

end Delimiter

def TokenKind.isCloser : TokenKind → Bool
  | .rightBrace | .rightParen | .rightBracket | .eof => true
  | _ => false

def TokenKind.endsBlock : TokenKind → Bool
  | .rightBrace | .eof => true
  | _ => false

def TokenKind.separatesKey : TokenKind → Bool
  | .colon | .equals => true
  | _ => false

def Token.startsConstruct (token : Token) : Bool :=
  token.kind = .identifier && Vocabulary.isConstruct token.text

namespace Parser

/-- Read a token of a group of which so many are open. -/
def closingTurn (delimiter : Delimiter) (depth : Nat) : Parser (ForInStep Nat) := do
  let kind ← currentKind
  if kind = .eof then return .done depth
  else
    advance
    if kind = delimiter.opening then return .yield (depth + 1)
    else if kind = delimiter.closing then
      let depth ← lower depth
      return if depth = 0 then .done depth else .yield depth
    else return .yield depth

/-- Skip to just behind the token that closes a group whose opening has been read.  Tells
whether there is one. -/
def skipToClosing (delimiter : Delimiter) : Parser Bool := do
  return (← iterate 1 (closingTurn delimiter)) = 0

/-- Skip one token, or a whole group.  Tells whether the group is closed. -/
def skipBalanced : Parser Bool := do
  match Delimiter.ofOpening? (← currentKind) with
  | none =>
      advance
      return true
  | some delimiter =>
      advance
      skipToClosing delimiter

/-- Skip one token or a whole group, unless a test holds. -/
def skipTurn (test : Parser Bool) : Parser (ForInStep Unit) := do
  if ← test then return .done ()
  else
    let _ ← skipBalanced
    return .yield ()

def skipUntil (test : Parser Bool) : Parser Unit :=
  iterate () fun _ => skipTurn test

/-- Can the parser go on at the current token after an error? -/
def atSafePlace : Parser Bool := do
  let token ← current
  return token.kind.endsBlock || token.kind = .at || token.startsConstruct ||
    ((← get).braceDepth = 0 && token.kind.isLayout)

/-- Skip to a right brace, an at sign, a word that starts an element, or, outside braces,
the end of the line.  At least one token is skipped unless it ends a block. -/
def synchronize : Parser Unit := do
  unless (← currentKind).endsBlock do
    let _ ← skipBalanced
    skipUntil atSafePlace

/-- Is the current token a comma of a list, or what ends the list? -/
def atListEnd : Parser Bool := do
  let kind ← currentKind
  return kind = .comma || kind.isCloser

/-- Skip to the next comma of a list, or to what ends the list. -/
def recoverInList : Parser Unit :=
  skipUntil atListEnd

/-- Find the way back if a value could not be read. -/
def ifFailed (recover : Parser Unit) : Parser Unit := do
  if ← valueFailed then recover

/-- Step over one thing where a value should be, but not over a closing token. -/
def skipValue : Parser Unit := do
  let kind ← currentKind
  unless kind.isCloser || kind.isLayout do
    let _ ← skipBalanced

end Parser

end SceneLang
