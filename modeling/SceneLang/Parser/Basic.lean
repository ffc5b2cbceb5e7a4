import SceneLang.Diagnostic.Advice
import SceneLang.Diagnostic.Log
import SceneLang.Feature
import SceneLang.Node
import SceneLang.Options
import SceneLang.Text.Slice
import SceneLang.Token

/-!
# The state of a parse

A parse reads a list of tokens from left to right and keeps a log of what is wrong.  Line
breaks and changes of indentation count only outside braces: within braces the parser does
not see them.  It never moves backwards, and it does not move past the end.

What would keep a parse from its end is a fault: a loop that goes round without reading, a
recursion that goes down without reading, a token that is not there, a count below zero.
-/

namespace SceneLang

/-- The deepest nesting of elements and values that is followed. -/
def maxNesting : Nat := 128

/-- How messages call a token that should not be there. -/
def Token.found (token : Token) : String :=
  if token.kind = .identifier then s!"'{token.text}'" else token.kind.describe

namespace Parser

/-- What keeps a parse from its end. -/
inductive Fault where
  /-- A loop went on without having read a token. -/
  | stalled
  /-- Elements or values held each other without a token between them. -/
  | bottomless
  /-- A token was looked for behind the last one. -/
  | outside
  | underflow
deriving DecidableEq, Repr

def Fault.message : Fault → String
  | .stalled => "a loop reads no token"
  | .bottomless => "a recursion reads no token"
  | .outside => "index out of bounds"
  | .underflow => "attempt to subtract with overflow"

/-- What stays the same during a parse. -/
structure Context where
  source : List Char
  options : ParseOptions

structure State where
  /-- The tokens still to be read, the one at the end included. -/
  ahead : List Token
  previous : Option Token
  braceDepth : Nat
  nesting : Nat
  /-- A value could not be read, and the parser has not found its way back yet. -/
  valueFailed : Bool
  log : Log
  expressions : Table String
  imports : List ImportDecl
  /-- The features met, most recent first. -/
  features : List Feature

def State.start (options : ParseOptions) (tokens : List Token) : State where
  ahead := tokens
  previous := none
  braceDepth := 0
  nesting := 0
  valueFailed := false
  log := .empty options.limits
  expressions := []
  imports := []
  features := []

end Parser

/-- A step of a parse. -/
abbrev Parser (α : Type) :=
  ReaderT Parser.Context (StateT Parser.State (Except Parser.Fault)) α

namespace Parser

/-! ## Tokens -/

/-- What can be seen of a list of tokens: within braces layout is passed over, but never
the last token. -/
def visible (braceDepth : Nat) : List Token → List Token
  | token :: next :: rest =>
      if 0 < braceDepth && token.kind.isLayout then visible braceDepth (next :: rest)
      else token :: next :: rest
  | tokens => tokens

/-- The tokens behind the first one; behind the last one it is seen again. -/
def behind : List Token → List Token
  | _ :: next :: rest => next :: rest
  | tokens => tokens

/-- The visible tokens from the one `n` tokens after the current one. -/
def State.visibleFrom (state : State) : Nat → List Token
  | 0 => visible state.braceDepth state.ahead
  | n + 1 => visible state.braceDepth (behind (state.visibleFrom n))

/-- The token `n` tokens after the current one. -/
def peek (n : Nat) : Parser Token := do
  match (← get).visibleFrom n with
  | token :: _ => return token
  | [] => throw .outside

def peekKind (n : Nat) : Parser TokenKind := do
  return (← peek n).kind

def current : Parser Token := peek 0

def currentKind : Parser TokenKind := do
  return (← current).kind

def check (kind : TokenKind) : Parser Bool := do
  return (← currentKind) = kind

def atEnd : Parser Bool := check .eof

def depthAfter (depth : Nat) : TokenKind → Nat
  | .leftBrace => depth + 1
  | .rightBrace => depth - 1
  | _ => depth

/-- The state behind the current token; at the end there is none. -/
def State.advance (state : State) : State :=
  match state.visibleFrom 0 with
  | [] => state
  | token :: rest =>
      if token.kind = .eof then state
      else
        { state with
          ahead := rest
          braceDepth := depthAfter state.braceDepth token.kind
          previous := if token.kind.isLayout then state.previous else some token }

def advance : Parser Unit := do
  let _ ← current
  modify State.advance

/-- Step over the current token if it is of the kind. -/
def eat (kind : TokenKind) : Parser Bool := do
  if ← check kind then
    advance
    return true
  else return false

/-! ## Places -/

def previousSpan : Parser Span := do
  return ((← get).previous.map Token.span).getD (.point 0)

/-- The line of the token just read, zero if there is none. -/
def previousLine : Parser Nat := do
  return ((← get).previous.map Token.line).getD 0

def startPosition : Parser Position := do
  return (← current).position

def endPosition : Parser Position := do
  match (← get).previous with
  | none => return .start
  | some token =>
      let text := Text.slice (← read).source token.span.start token.span.stop
      return ⟨token.position.line, token.position.column + text.length⟩

/-- From a position to the end of the token just read. -/
def locationFrom (start : Position) : Parser Location := do
  return ⟨start, max (← endPosition) start⟩

def sliceBetween (start stop : Nat) : Parser (List Char) := do
  return Text.slice (← read).source start (max stop start)

/-! ## Diagnostics -/

def report (d : Diagnostic) : Parser Unit :=
  modify fun state => { state with log := state.log.push d }

def reportError (code : Code) (message : String) : Parser Unit := do
  let token ← current
  report (((Diagnostic.error code token.span token.position message
    ).withLabel token.span "here").withHelp code.advice?)

/-- Report the current token; `place` says where it stands. -/
def unexpected (place : String) : Parser Unit := do
  let found := (← current).found
  reportError .unexpectedToken s!"unexpected {found} {place}"

/-- Report a text without its closing quote. -/
def reportUnterminated (token : Token) : Parser Unit := do
  let text := Text.slice (← read).source token.span.start token.span.stop
  report (.missingQuote (text.headD '"') token.span token.position)

def reportUnclosed (opening : Token) : Parser Unit := do
  let place := Span.point (← previousSpan).stop
  report ((Diagnostic.missingBrace place (← endPosition)
    ).withLabel opening.span "block opened here")

/-! ## Nesting, failure and features -/

/-- Go one level deeper; at the limit this is refused and reported. -/
def enter : Parser Bool := do
  if maxNesting ≤ (← get).nesting then
    reportError .nestingTooDeep s!"nesting too deep: more than {maxNesting} levels"
    return false
  else
    modify fun state => { state with nesting := state.nesting + 1 }
    return true

def leave : Parser Unit :=
  modify fun state => { state with nesting := state.nesting - 1 }

/-- Read something one level deeper, or what is left to do where that is refused. -/
def deeper {α : Type} (refused body : Parser α) : Parser α := do
  if ← enter then
    let value ← body
    leave
    return value
  else refused

def valueFailed : Parser Bool := do
  return (← get).valueFailed

def setValueFailed (failed : Bool) : Parser Unit :=
  modify fun state => { state with valueFailed := failed }

def use (feature : Feature) : Parser Unit :=
  modify fun state =>
    if state.features.contains feature then state
    else { state with features := feature :: state.features }

/-! ## Repetition -/

def lower : Nat → Parser Nat
  | 0 => throw .underflow
  | count + 1 => return count

/-- Go round a loop until a turn is the last one.  A turn after which the loop goes on has
to read a token. -/
def turns {β : Type} (step : β → Parser (ForInStep β)) (value : β) (context : Context)
    (state : State) : Except Fault (β × State) := do
  match ← step value context state with
  | (.done value, next) => return (value, next)
  | (.yield value, next) =>
      if next.ahead.length < state.ahead.length then turns step value context next
      else throw .stalled
termination_by state.ahead.length

def iterate {β : Type} (start : β) (step : β → Parser (ForInStep β)) : Parser β :=
  turns step start

end Parser

end SceneLang
