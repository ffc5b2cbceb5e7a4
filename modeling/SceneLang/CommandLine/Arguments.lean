import SceneLang.Number.Binary64

/-!
# Command-line arguments

Arguments are options and operands.  An option is a word after two dashes or a letter after
one; its value, if it takes one, is joined to it by an equals sign or is the next argument.
Options may stand before the command, where some of them are known, or behind it; the
argument `--` makes operands of all that follow.
-/

namespace SceneLang.CommandLine

/-- An option without a value. -/
inductive Switch where
  | verbose
  | quiet
  | compact
  | sequential
deriving DecidableEq, Repr

namespace Switch

def word : Switch → String
  | .verbose => "verbose"
  | .quiet => "quiet"
  | .compact => "compact"
  | .sequential => "sequential"

def letter? : Switch → Option Char
  | .verbose => some 'v'
  | .quiet => some 'q'
  | _ => none

end Switch

/-- An option with a value. -/
inductive Parameter where
  | config
  | workers
  | batchSize
  | timeout
deriving DecidableEq, Repr

namespace Parameter

def word : Parameter → String
  | .config => "config"
  | .workers => "workers"
  | .batchSize => "batch-size"
  | .timeout => "timeout-ms"

/-- A whole number of 64 bits, with or without a plus sign. -/
def wholeNumber? (text : String) : Option Nat :=
  let digits : List Char :=
    match text.toList with
    | '+' :: rest => rest
    | rest => rest
  let value := digits.foldl (fun value c => value * 10 + (c.toNat - '0'.toNat)) 0
  if digits ≠ [] ∧ digits.all Char.isDigit ∧ value < twoTo 64 then some value else none

/-- A path must not be empty; all other values are whole numbers. -/
def accepts : Parameter → String → Bool
  | .config, value => value ≠ ""
  | _, value => (wholeNumber? value).isSome

end Parameter

inductive CommandName where
  | check
  | ast
  | tokens
  | batch
  | diff
deriving DecidableEq, Repr

namespace CommandName

def all : List CommandName := [.check, .ast, .tokens, .batch, .diff]

def word : CommandName → String
  | .check => "check"
  | .ast => "ast"
  | .tokens => "tokens"
  | .batch => "batch"
  | .diff => "diff"

def ofWord? (word : String) : Option CommandName :=
  all.find? (·.word = word)

end CommandName

inductive UsageError where
  | missingCommand
  | unknownCommand (word : String)
  | unknownOption (option : String)
  | unwantedValue (option : String)
  | missingValue (option : String)
  | invalidValue (option value : String)
  | repeatedOption (option : String)
  | missingOperand (command : String)
  | surplusOperand (operand : String)
deriving DecidableEq, Repr

def UsageError.message : UsageError → String
  | .missingCommand => "no command is given"
  | .unknownCommand word => s!"unknown command '{word}'"
  | .unknownOption option => s!"unknown option '{option}'"
  | .unwantedValue option => s!"option '{option}' takes no value"
  | .missingValue option => s!"option '{option}' needs a value"
  | .invalidValue option value => s!"invalid value '{value}' for option '{option}'"
  | .repeatedOption option => s!"option '{option}' is given twice"
  | .missingOperand command => s!"command '{command}' needs another operand"
  | .surplusOperand operand => s!"unexpected operand '{operand}'"

/-- Why arguments do not lead to a command. -/
inductive Refusal where
  | helpWanted
  | versionWanted
  | unusable (error : UsageError)
deriving DecidableEq, Repr

abbrev Accepted (α : Type) := Except Refusal α

def unusable {α : Type} (error : UsageError) : Accepted α :=
  .error (.unusable error)

/-- What is known before a command or behind it. -/
structure Grammar where
  switches : List Switch
  parameters : List Parameter
  version : Bool
  /-- The number of operands that are taken at most, if it is bounded.  Where none is taken
  the first operand is a command. -/
  operands : Option Nat

namespace Grammar

def top : Grammar := ⟨[.verbose, .quiet], [.config], true, some 0⟩

def behind : CommandName → Grammar
  | .check | .tokens => ⟨top.switches, top.parameters, false, some 1⟩
  | .ast => ⟨top.switches ++ [.compact], top.parameters, false, some 1⟩
  | .batch =>
      ⟨top.switches ++ [.sequential], top.parameters ++ [.workers, .batchSize, .timeout], false,
        none⟩
  | .diff => ⟨top.switches, top.parameters, false, some 2⟩

end Grammar

/-- What is given before a command or behind it. -/
structure Scope where
  switches : List Switch
  values : List (Parameter × String)
  operands : List String
deriving Repr

namespace Scope

def empty : Scope := ⟨[], [], []⟩

def value? (scope : Scope) (parameter : Parameter) : Option String :=
  (scope.values.find? (·.1 = parameter)).map (·.2)

def number? (scope : Scope) (parameter : Parameter) : Option Nat :=
  (scope.value? parameter).bind Parameter.wholeNumber?

def addSwitch (scope : Scope) (switch : Switch) : Accepted Scope :=
  if scope.switches.contains switch then unusable (.repeatedOption switch.word)
  else .ok { scope with switches := switch :: scope.switches }

def addValue (scope : Scope) (parameter : Parameter) (value : String) : Accepted Scope :=
  if (scope.value? parameter).isSome then unusable (.repeatedOption parameter.word)
  else if parameter.accepts value then
    .ok { scope with values := (parameter, value) :: scope.values }
  else unusable (.invalidValue parameter.word value)

def addOperand (grammar : Grammar) (scope : Scope) (operand : String) : Accepted Scope :=
  if grammar.operands.all (scope.operands.length < ·) then
    .ok { scope with operands := scope.operands ++ [operand] }
  else unusable (.surplusOperand operand)

def addLetters (grammar : Grammar) : Scope → List Char → Accepted Scope
  | scope, [] => .ok scope
  | scope, c :: rest => do
      match grammar.switches.find? (·.letter? = some c) with
      | some switch => addLetters grammar (← scope.addSwitch switch) rest
      | none =>
          if c = 'h' then .error .helpWanted
          else if c = 'V' ∧ grammar.version then .error .versionWanted
          else unusable (.unknownOption (String.ofList ['-', c]))

end Scope

/-- An argument by its form. -/
inductive Argument where
  | operand (text : String)
  | escape
  | word (word : String) (value : Option String)
  | letters (letters : List Char)
deriving DecidableEq, Repr

def Argument.ofText (text : String) : Argument :=
  match text.toList with
  | ['-', '-'] => .escape
  | '-' :: '-' :: rest =>
      let word := String.ofList (rest.takeWhile (· ≠ '='))
      match rest.dropWhile (· ≠ '=') with
      | [] => .word word none
      | _ :: value => .word word (some (String.ofList value))
  | '-' :: c :: rest => .letters (c :: rest)
  | _ => .operand text

/-- What an option that is written as a word stands for. -/
inductive Meaning where
  | switch (switch : Switch)
  | parameter (parameter : Parameter)
  | help
  | version

def Grammar.meaning? (grammar : Grammar) (word : String) : Option Meaning :=
  match grammar.switches.find? (·.word = word), grammar.parameters.find? (·.word = word) with
  | some switch, _ => some (.switch switch)
  | none, some parameter => some (.parameter parameter)
  | none, none =>
      if word = "help" then some .help
      else if word = "version" ∧ grammar.version then some .version
      else none

/-- Read options and operands; where a command is expected, as far as the command.  Returns
what is left. -/
def Scope.read (grammar : Grammar) (scope : Scope) : List String → Accepted (Scope × List String)
  | [] => .ok (scope, [])
  | argument :: rest =>
      match Argument.ofText argument with
      | .operand text =>
          if grammar.operands = some 0 then .ok (scope, argument :: rest)
          else do (← scope.addOperand grammar text).read grammar rest
      | .escape => do
          let scope ← rest.foldlM (Scope.addOperand grammar) scope
          return (scope, [])
      | .letters letters => do (← scope.addLetters grammar letters).read grammar rest
      | .word word value =>
          match grammar.meaning? word, value with
          | none, _ => unusable (.unknownOption argument)
          | some (.parameter parameter), some value => do
              (← scope.addValue parameter value).read grammar rest
          | some (.parameter parameter), none =>
              match rest with
              | [] => unusable (.missingValue word)
              | next :: rest =>
                  match Argument.ofText next with
                  | .operand value => do (← scope.addValue parameter value).read grammar rest
                  | _ => unusable (.missingValue word)
          | some (.switch switch), none => do (← scope.addSwitch switch).read grammar rest
          | some .help, none => .error .helpWanted
          | some .version, none => .error .versionWanted
          | some _, some _ => unusable (.unwantedValue word)

inductive Command where
  | check (file : String)
  | ast (file : String) (compact : Bool)
  | tokens (file : String)
  | batch (files : List String) (workers batchSize : Option Nat) (sequential : Bool)
      (timeout : Option Nat)
  | diff (before after : String)
deriving DecidableEq, Repr

/-- The command of a name with what stands behind it. -/
def Command.ofScope (name : CommandName) (scope : Scope) : Accepted Command :=
  match name, scope.operands with
  | .check, [file] => .ok (.check file)
  | .ast, [file] => .ok (.ast file (scope.switches.contains .compact))
  | .tokens, [file] => .ok (.tokens file)
  | .batch, file :: more =>
      .ok (.batch (file :: more) (scope.number? .workers) (scope.number? .batchSize)
        (scope.switches.contains .sequential) (scope.number? .timeout))
  | .diff, [before, after] => .ok (.diff before after)
  | _, _ => unusable (.missingOperand name.word)

/-- A command with the options that all commands have. -/
structure Invocation where
  command : Command
  verbose : Bool
  quiet : Bool
  config : Option String
deriving DecidableEq, Repr

/-- Help may be asked for by a command of that name, for one other command. -/
def helpOn : List String → Refusal
  | [] => .helpWanted
  | [word] =>
      if word = "help" ∨ (CommandName.ofWord? word).isSome then .helpWanted
      else .unusable (.unknownCommand word)
  | word :: next :: _ =>
      if (CommandName.ofWord? word).isSome then .unusable (.unknownCommand next)
      else .unusable (.unknownCommand word)

/-- Read all arguments.  An option behind the command goes before the same one in front. -/
def Invocation.ofArguments (arguments : List String) : Accepted Invocation := do
  let (front, rest) ← Scope.empty.read .top arguments
  match rest with
  | [] => unusable .missingCommand
  | word :: rest =>
      if word = "help" then .error (helpOn rest)
      else
        match CommandName.ofWord? word with
        | none => unusable (.unknownCommand word)
        | some name =>
            let (behind, _) ← Scope.empty.read (.behind name) rest
            let given (switch : Switch) : Bool := (front.switches ++ behind.switches).contains switch
            return {
              command := ← Command.ofScope name behind
              verbose := given .verbose
              quiet := given .quiet
              config := (behind.value? .config).or (front.value? .config) }

end SceneLang.CommandLine
