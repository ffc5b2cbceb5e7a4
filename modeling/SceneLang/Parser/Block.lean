import SceneLang.Parser.Recovery

/-!
# Names and blocks
-/

namespace SceneLang.Parser

/-- Read a name, written as a word or as a text; `what` says what it is for. -/
def expectName (what : String) : Parser (Option String) := do
  let token ← current
  match token.kind with
  | .identifier | .string =>
      advance
      return some token.text
  | .unterminatedString =>
      reportUnterminated token
      advance
      return some token.text
  | _ =>
      unexpected s!"where a {what} was expected"
      return none

/-- Read an item of a block, or step over the token it does not begin with. -/
def bracedItem {β : Type} (item : Parser β) : Parser (ForInStep β) := do
  let before := (← get).ahead.length
  let value ← item
  if (← get).ahead.length = before then
    unless (← currentKind).endsBlock do advance
  return .yield value

/-- Read the closing brace of a block, or what stands in front of it. -/
def bracedTurn {β : Type} (opening : Token) (item : β → Parser β) (value : β) :
    Parser (ForInStep β) := do
  match ← currentKind with
  | .rightBrace =>
      advance
      return .done value
  | .eof =>
      reportUnclosed opening
      return .done value
  | .comma | .semicolon =>
      advance
      return .yield value
  | _ => bracedItem (item value)

/-- Read a block in braces, item by item.  Commas and semicolons between items are skipped,
and so is a token that no item begins with. -/
def braced {β : Type} (start : β) (item : β → Parser β) : Parser β := do
  let opening ← current
  if ← eat .leftBrace then iterate start (bracedTurn opening item)
  else
    unexpected "where '\x7b' was expected"
    return start

/-- Step over a block and return the text between its braces, trimmed. -/
def captureBlock : Parser (Option String) := do
  let opening ← current
  if opening.kind = .leftBrace then
    let closed ← skipBalanced
    let text ←
      if closed then sliceBetween opening.span.stop (← previousSpan).start
      else
        reportUnclosed opening
        sliceBetween opening.span.stop (Text.byteLength (← read).source)
    return some (String.ofList (Text.trim text))
  else
    unexpected "where '\x7b' was expected"
    return none

/-- The text of a block, empty if there is none. -/
def blockText : Parser String := do
  return (← captureBlock).getD ""

/-- Read the closing parenthesis of parameters, or what stands in front of it. -/
def paramListTurn (params : List String) : Parser (ForInStep (List String)) := do
  let token ← current
  match token.kind with
  | .rightParen =>
      advance
      return .done params
  | .comma =>
      advance
      return .yield params
  | .spread =>
      advance
      let token ← current
      if token.kind = .identifier then
        advance
        return .yield (s!"...{token.text}" :: params)
      else return .yield params
  | .identifier =>
      advance
      return .yield (token.text :: params)
  | _ =>
      unexpected "in parameter list"
      let _ ← skipToClosing .paren
      return .done params

/-- Read parameters in parentheses, if there are any; a rest parameter keeps its dots. -/
def paramList : Parser (List String) := do
  if ← eat .leftParen then return (← iterate [] paramListTurn).reverse
  else return []

end SceneLang.Parser
