import SceneLang.Parser.Expression

/-!
# What is written behind the name of a directive

Arguments in parentheses, texts on the same line, and entries in braces.  Values without a
name are kept in order, values with a name under their name.
-/

namespace SceneLang

namespace TraitConfig

/-- Add a value without a name. -/
def push (config : TraitConfig) (value : Value) : TraitConfig :=
  { config with args := config.args ++ [value] }

def insert (config : TraitConfig) (key : String) (value : Value) : TraitConfig :=
  { config with config := config.config.insert key value }

def addEntry (config : TraitConfig) : ObjectEntry → TraitConfig
  | .field key value => config.insert key value
  | .spread value => config.push (.spread value)

end TraitConfig

namespace Parser

/-- Read an argument; after a failure, go on at the next one. -/
def argument : Parser Value := do
  let read ← valueOr recoverInList
  setValueFailed false
  return read

/-- Read the closing parenthesis of arguments, or what stands in front of it.  An argument
that leaves the current token where it is comes last. -/
def argumentTurn (config : TraitConfig) : Parser (ForInStep TraitConfig) := do
  let token ← current
  match token.kind with
  | .rightParen =>
      advance
      return .done config
  | .eof =>
      unexpected "in directive arguments, expected ')'"
      return .done config
  | .comma =>
      advance
      return .yield config
  | kind =>
      let named := (kind = .identifier || kind = .string) && (← peekKind 1).separatesKey
      if named then
        advance
        advance
        return .yield (config.insert token.text (← argument))
      else
        let config := config.push (← argument)
        if (← current).span = token.span then return .done config
        else return .yield config

/-- Arguments in parentheses, if the parenthesis stands on a line. -/
def arguments (line : Nat) : Parser TraitConfig := do
  let token ← current
  if token.kind = .leftParen ∧ token.line = line then
    advance
    iterate .empty argumentTurn
  else return .empty

def textTurn (line : Nat) (config : TraitConfig) : Parser (ForInStep TraitConfig) := do
  let token ← current
  if token.kind = .string ∧ token.line = line then
    advance
    return .yield (config.push (.string token.text))
  else return .done config

/-- The configuration of a directive whose name has just been read. -/
def directiveConfig (allowBody : Bool) : Parser TraitConfig := do
  let line ← previousLine
  let config ← iterate (← arguments line) (textTurn line)
  if allowBody && (← check .leftBrace) then
    return (← object).foldl TraitConfig.addEntry config
  else return config

end Parser

end SceneLang
