import SceneLang.Parser.Block
import SceneLang.Value.Literal

/-!
# Reading values

Operators from the weakest to the strongest: `??`, `||`, `&&`, the conditional, equality,
comparison, sums, products, prefix operators, and what follows a primary value.  Values
within values go through `nested`, which counts the levels; everything else is a loop.  A
parser that reads a value within another one is passed on as `inner`.
-/

namespace SceneLang.Parser

/-- What may stand at a place: any value, or only what binds as tightly as a conditional. -/
inductive Strength where
  | any
  | conditional
deriving DecidableEq, Repr

/-- Parsers for the values one level further in. -/
abbrev Inner := Strength → Parser Value

/-- Step over the token that closes a list, or report that it is missing. -/
def expectClosing (delimiter : Delimiter) : Parser Unit := do
  unless ← eat delimiter.closing do
    let expected := delimiter.closing.describe
    unexpected s!"where {expected} was expected"
    setValueFailed true

def chainTurn (operator? : TokenKind → Option BinaryOp) (operand : Parser Value) (left : Value) :
    Parser (ForInStep Value) := do
  match operator? (← currentKind) with
  | none => return .done left
  | some op =>
      advance
      return .yield (.binary op left (← operand))

/-- Operands of the same strength with operators between them, leaning to the left. -/
def chain (operator? : TokenKind → Option BinaryOp) (operand : Parser Value) : Parser Value := do
  iterate (← operand) (chainTurn operator? operand)

/-! ## Lists, objects and functions -/

def sequenceItem (inner : Inner) : Parser Value := do
  if ← eat .spread then
    use .spread
    return .spread (← inner .any)
  else inner .any

/-- What stands behind an item: a comma, the closing token, or neither. -/
def sequenceNext (delimiter : Delimiter) (items : List Value) :
    Parser (ForInStep (List Value × Bool)) := do
  if ← eat .comma then return .yield (items, false)
  else if ← check delimiter.closing then return .yield (items, false)
  else
    expectClosing delimiter
    return .done (items, false)

/-- Read the closing token of a list, or one more item, in front of which the items are listed
in reverse.  Tells whether the list is closed. -/
def sequenceTurn (inner : Inner) (delimiter : Delimiter) (items : List Value) :
    Parser (ForInStep (List Value × Bool)) := do
  if ← eat delimiter.closing then return .done (items, true)
  else if (← currentKind).isCloser then
    expectClosing delimiter
    return .done (items, false)
  else
    setValueFailed false
    let item ← sequenceItem inner
    ifFailed recoverInList
    sequenceNext delimiter (item :: items)

/-- Values with commas between them up to the closing token, which is read. -/
def sequence (inner : Inner) (delimiter : Delimiter) : Parser (List Value) := do
  let (items, closed) ← iterate ([], false) fun (items, _) => sequenceTurn inner delimiter items
  if closed then setValueFailed false
  return items.reverse

/-- The value of a key that has just been read. -/
def fieldValue (inner : Inner) (key : Token) : Parser Value := do
  let kind ← currentKind
  if kind.separatesKey then
    advance
    inner .any
  else if key.kind = .identifier ∧ (kind = .comma ∨ kind = .rightBrace) then
    return .reference key.text
  else
    report (.missingColon key.text key.span key.position)
    inner .any

def strayEntry : Parser Unit := do
  let kind ← currentKind
  unexpected "in object literal"
  setValueFailed true
  if kind = .rightParen ∨ kind = .rightBracket then advance else skipValue
  recoverInList

def reportOpenObject (opening last : Token) : Parser Unit := do
  report ((Diagnostic.missingBrace (.point last.span.start) (← endPosition)
    ).withLabel opening.span "object opened here")

/-- Read the closing brace of an object, or one more entry, in front of which the entries are
listed in reverse.  Tells whether the object is closed. -/
def objectTurn (inner : Inner) (opening : Token) (entries : List ObjectEntry) :
    Parser (ForInStep (List ObjectEntry × Bool)) := do
  let token ← current
  match token.kind with
  | .rightBrace =>
      advance
      return .done (entries, true)
  | .eof =>
      reportOpenObject opening token
      setValueFailed true
      return .done (entries, false)
  | .comma | .semicolon =>
      advance
      return .yield (entries, false)
  | .spread =>
      advance
      use .spread
      let value ← inner .any
      ifFailed recoverInList
      return .yield (.spread value :: entries, false)
  | .identifier | .string | .number | .boolean | .null =>
      advance
      let value ← fieldValue inner token
      ifFailed recoverInList
      return .yield (.field token.text value :: entries, false)
  | _ =>
      strayEntry
      return .yield (entries, false)

def objectEntries (inner : Inner) : Parser (List ObjectEntry) := do
  let opening ← current
  advance
  let (entries, closed) ← iterate ([], false) fun (entries, _) => objectTurn inner opening entries
  if closed then setValueFailed false
  return entries.reverse

/-- Are these the parameters of a function behind its opening parenthesis, at least one, up
to its arrow? -/
def paramsAhead : List Token → Bool
  | ⟨.identifier, _, _, _⟩ :: ⟨.comma, _, _, _⟩ :: rest => paramsAhead rest
  | ⟨.spread, _, _, _⟩ :: ⟨.identifier, _, _, _⟩ :: ⟨.comma, _, _, _⟩ :: rest => paramsAhead rest
  | ⟨.identifier, _, _, _⟩ :: ⟨.rightParen, _, _, _⟩ :: ⟨.fatArrow, _, _, _⟩ :: _ => true
  | ⟨.spread, _, _, _⟩ :: ⟨.identifier, _, _, _⟩ :: ⟨.rightParen, _, _, _⟩ ::
      ⟨.fatArrow, _, _, _⟩ :: _ => true
  | _ => false

/-- Are these the tokens of a function behind its opening parenthesis? -/
def opensArrow : List Token → Bool
  | ⟨.rightParen, _, _, _⟩ :: ⟨.fatArrow, _, _, _⟩ :: _ => true
  | tokens => paramsAhead tokens

/-- Does the current parenthesis open the parameters of a function? -/
def arrowAhead : Parser Bool := do
  return opensArrow ((← get).visibleFrom 0).tail

/-- Read the name of a parameter and the comma behind it. -/
def paramName (rest : Bool) : Parser ArrowParam := do
  let token ← current
  advance
  let _ ← eat .comma
  return ⟨token.text, rest⟩

/-- Read the parenthesis behind the parameters of a function, or one more parameter. -/
def paramTurn (params : List ArrowParam) : Parser (ForInStep (List ArrowParam)) := do
  if ← eat .rightParen then return .done params
  else
    let rest ← eat .spread
    if rest then use .spread
    return .yield ((← paramName rest) :: params)

def arrowParams : Parser (List ArrowParam) := do
  let token ← current
  advance
  if token.kind = .identifier then return [⟨token.text, false⟩]
  else return (← iterate [] paramTurn).reverse

/-- A function, whose body is a value or the raw text of a block. -/
def arrow (inner : Inner) : Parser Value := do
  use .arrowFunctions
  let params ← arrowParams
  let _ ← eat .fatArrow
  if ← check .leftBrace then return .arrow params (.block (← blockText))
  else return .arrow params (.expr (← inner .any))

/-! ## Primary values -/

def interpolationId (expressions : Table String) : String :=
  s!"expr_{expressions.length}"

/-- Text for another language, under an identifier that no other such text has. -/
def interpolation (text : String) : Parser Value := do
  use .interpolation
  let id := interpolationId (← get).expressions
  modify fun state => { state with expressions := state.expressions.insert id text }
  return .interpolation id text

def primary (inner : Inner) : Parser Value := do
  let token ← current
  match token.kind with
  | .string =>
      advance
      return .string token.text
  | .unterminatedString =>
      reportUnterminated token
      advance
      return .string token.text
  | .number =>
      advance
      return .ofLiteral token.text
  | .boolean =>
      advance
      return .bool (token.text = "true")
  | .null =>
      advance
      return .null
  | .interpolation =>
      advance
      interpolation token.text
  | .identifier =>
      if (← peekKind 1) = .fatArrow then arrow inner
      else
        advance
        return .reference token.text
  | .leftParen =>
      if ← arrowAhead then arrow inner
      else
        advance
        let value ← inner .any
        expectClosing .paren
        return value
  | .leftBracket =>
      advance
      return .array (← sequence inner .bracket)
  | .leftBrace => return .object (← objectEntries inner)
  | _ =>
      unexpected "where a value was expected"
      setValueFailed true
      skipValue
      return .null

/-! ## Operators -/

/-- What follows a value: a name behind a dot, which may stand on a later line, or brackets or
parentheses, which have to stand on the line of the value. -/
def postfixTurn (inner : Inner) (value : Value) : Parser (ForInStep Value) := do
  let token ← current
  let sameLine := token.line = (← previousLine)
  match token.kind with
  | .dot =>
      advance
      let name ← current
      if name.kind = .identifier then
        advance
        return .yield (.member value name.text)
      else
        unexpected "after '.', expected a property name"
        setValueFailed true
        return .done value
  | .leftBracket =>
      if sameLine then
        advance
        let key ← inner .any
        expectClosing .bracket
        return .yield (.index value key)
      else return .done value
  | .leftParen =>
      if sameLine then
        advance
        return .yield (.call value (← sequence inner .paren))
      else return .done value
  | _ => return .done value

def postfixed (inner : Inner) : Parser Value := do
  iterate (← primary inner) (postfixTurn inner)

def prefixTurn (ops : List UnaryOp) : Parser (ForInStep (List UnaryOp)) := do
  match ← currentKind with
  | .bang =>
      advance
      return .yield (.not :: ops)
  | .minus =>
      advance
      return .yield (.neg :: ops)
  | _ => return .done ops

def unary (inner : Inner) : Parser Value := do
  let ops ← iterate [] prefixTurn
  let value ← postfixed inner
  return ops.foldl (fun value op => .unary op value) value

def productOp? : TokenKind → Option BinaryOp
  | .star => some .mul
  | .slash => some .div
  | .percent => some .mod
  | _ => none

def sumOp? : TokenKind → Option BinaryOp
  | .plus => some .add
  | .minus => some .sub
  | _ => none

def comparisonOp? : TokenKind → Option BinaryOp
  | .less => some .lt
  | .lessEqual => some .le
  | .greater => some .gt
  | .greaterEqual => some .ge
  | _ => none

def equalityOp? : TokenKind → Option BinaryOp
  | .equalEqual => some .eq
  | .bangEqual => some .ne
  | _ => none

def andOp? : TokenKind → Option BinaryOp
  | .andAnd => some .and
  | _ => none

def orOp? : TokenKind → Option BinaryOp
  | .orOr => some .or
  | _ => none

def coalesceOp? : TokenKind → Option BinaryOp
  | .coalesce | .coalesceEqual => some .coalesce
  | _ => none

def equality (inner : Inner) : Parser Value :=
  chain equalityOp? (chain comparisonOp? (chain sumOp? (chain productOp? (unary inner))))

/-- A conditional.  A condition that could not be read is not followed by branches. -/
def conditional (inner : Inner) : Parser Value := do
  let failedBefore ← valueFailed
  let condition ← equality inner
  let failed := (← valueFailed) && !failedBefore
  if failed then return condition
  else if ← eat .question then
    let thenBranch ← inner .any
    if ← eat .colon then
      return .ternary condition thenBranch (← inner .conditional)
    else
      unexpected "in conditional expression, expected ':'"
      setValueFailed true
      return .ternary condition thenBranch .null
  else return condition

def coalesce (inner : Inner) : Parser Value :=
  chain coalesceOp? (chain orOp? (chain andOp? (conditional inner)))

/-! ## Levels -/

/-- Stand in for a value that is nested too deeply. -/
def refuseValue : Parser Value := do
  skipValue
  setValueFailed true
  return .null

/-- A value at most `levels` levels deep. -/
def nested : Nat → Inner
  | 0, _ => throw .bottomless
  | levels + 1, .any => deeper refuseValue (coalesce (nested levels))
  | levels + 1, .conditional => deeper refuseValue (conditional (nested levels))

/-- Read a value.  If there is none this is reported and noted, and a null stands in for
it. -/
def value : Parser Value := nested (maxNesting + 1) .any

def object : Parser (List ObjectEntry) := objectEntries (nested (maxNesting + 1))

/-- Read a value; after a failure, go on where `recover` leads. -/
def valueOr (recover : Parser Unit) : Parser Value := do
  setValueFailed false
  let read ← value
  ifFailed recover
  return read

end SceneLang.Parser
