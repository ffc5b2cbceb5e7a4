import SceneLang.Node.Walk
import SceneLang.Parser.Arguments

/-!
# Reading elements and directives

Elements hold directives and elements, and directives that steer control flow hold elements
in turn.  A parser of either takes, as `held`, the parsers for what it holds; `level` ties
them together.  Before it turns to `held` a parser has to read a token, so the number of
tokens bounds the number of levels.
-/

namespace SceneLang

/-- A directive and where it is written. -/
structure PlacedDirective where
  directive : Directive
  span : Span
  position : Position

namespace Node

/-- Add a directive.  Traits, known or not, go into the table of traits, where the last one
of a name counts. -/
def attach (node : Node) : Directive → Node
  | .trait name config | .generic name config =>
      { node with traits := node.traits.insert name config }
  | directive => { node with directives := node.directives ++ [directive] }

/-- Add the directives that are written before an element.  They come before its own; its
own traits count, and of those written before it the first of a name. -/
def attachLeading (node : Node) (leading : List Directive) : Node :=
  let (traits, directives) := leading.foldl (fun (traits, directives) directive =>
    match directive with
    | .trait name config | .generic name config => (traits.insertIfNew name config, directives)
    | directive => (traits, directives ++ [directive])) (node.traits, [])
  { node with traits := traits, directives := directives ++ node.directives }

end Node

namespace Parser

/-- The parsers of what is held by an element or a directive. -/
structure Held where
  element : Parser Node
  /-- Reads a directive.  Where it may not have a body, a brace opens the body of the
  element. -/
  directive : (allowBody : Bool) → Parser (Option PlacedDirective)
  conditional : Parser Directive

/-- Add a directive to a node, and report a trait that the node has already. -/
def attach (node : Node) (placed : PlacedDirective) : Parser Node := do
  match placed.directive with
  | .trait name _ | .generic name _ =>
      if node.hasTrait name then
        report (.warning .duplicateName placed.span placed.position
          s!"trait '@{name}' is declared more than once; the last declaration wins")
  | _ => pure ()
  return node.attach placed.directive

def attachDirective (held : Held) (allowBody : Bool) (node : Node) : Parser Node := do
  match ← held.directive allowBody with
  | some placed => attach node placed
  | none => return node

def close (node : Node) (start : Position) : Parser Node := do
  return { node with loc := ← locationFrom start }

/-! ## Properties -/

def checkGeometry (key : Token) (value : Value) (place : Token) : Parser Unit := do
  match value with
  | .string geometry =>
      if (key.text = "geometry" ∨ key.text = "shape") ∧ !Vocabulary.isGeometry geometry then
        report (.unknownGeometry geometry place.span place.position)
  | _ => pure ()

def checkProperty (key : Token) (value : Value) (place : Token) : Parser Unit := do
  if let some d := Diagnostic.misspelledProperty? key.text key.span key.position then report d
  checkGeometry key value place

/-- Read a property.  A colon that is missing is reported. -/
def property (node : Node) : Parser Node := do
  let key ← current
  advance
  if (← currentKind).separatesKey then advance
  else report (.missingColon key.text key.span key.position)
  let place ← current
  let read ← valueOr synchronize
  checkProperty key read place
  return { node with properties := node.properties.insert key.text read }

/-! ## Bodies -/

/-- Does the word at hand start a property?  Otherwise it starts an element. -/
def propertyAhead : Parser Bool := do
  let token ← current
  let next ← peek 1
  if next.kind.separatesKey then return true
  else if Vocabulary.isConstruct token.text then return false
  else if next.kind = .string && (← peekKind 2) = .leftBrace then return false
  else return next.kind.startsValue && next.line = token.line

/-- Read one item of the body of a node: a directive, a spread, a property or an element. -/
def bodyItem (held : Held) (node : Node) : Parser Node := do
  match ← currentKind with
  | .at => attachDirective held true node
  | .spread =>
      advance
      use .spread
      let read ← valueOr synchronize
      return { node with spreads := node.spreads ++ [read] }
  | .identifier =>
      if ← propertyAhead then property node
      else
        let child ← held.element
        return { node with children := node.children ++ [child] }
  | kind =>
      if kind = .string && (← peekKind 1).separatesKey then property node
      else
        unexpected "in element body"
        synchronize
        return node

/-- Read one item of an indented body, or step over the token it does not begin with. -/
def indentedItem (held : Held) (node : Node) : Parser Node := do
  let before := (← get).ahead.length
  let node ← bodyItem held node
  if (← get).ahead.length = before then advance
  return node

/-- Read the end of the indentation, or what stands in front of it; the count is that of the
lines that are indented further without opening a body. -/
def indentedTurn (held : Held) (found : Node × Nat) : Parser (ForInStep (Node × Nat)) := do
  let (node, further) := found
  match ← currentKind with
  | .newline =>
      advance
      return .yield (node, further)
  | .indent =>
      advance
      return .yield (node, further + 1)
  | .dedent =>
      advance
      if further = 0 then return .done (node, further)
      else return .yield (node, ← lower further)
  | .eof => return .done (node, further)
  | .rightBrace =>
      unexpected "in indented block"
      advance
      return .yield (node, further)
  | _ => return .yield (← indentedItem held node, further)

/-- Read the lines of an indented body up to the end of the indentation. -/
def indentedBody (held : Held) (node : Node) : Parser Node := do
  return (← iterate (node, 0) (indentedTurn held)).1

/-! ## Heads of elements -/

def givenName (node : Node) : Parser Node := do
  let token ← current
  match token.kind with
  | .string =>
      advance
      return { node with name := some token.text }
  | .unterminatedString =>
      reportUnterminated token
      advance
      return { node with name := some token.text }
  | .identifier =>
      if token.isWord "using" || (← peekKind 1).separatesKey then return node
      else
        advance
        return { node with name := some token.text }
  | _ => return node

def givenId (node : Node) (headLine : Nat) : Parser Node := do
  let mark ← current
  if mark.kind = .hash ∧ mark.line = headLine then
    advance
    let id ← current
    if id.kind = .identifier then
      advance
      return { node with id := some id.text }
    else
      unexpected "after '#'"
      return node
  else return node

/-- Read the name and the identifier of an element, if they are on the line of its
keyword. -/
def elementName (node : Node) (headLine : Nat) : Parser Node := do
  if (← current).line ≠ headLine then return node
  else givenId (← givenName node) headLine

def setTemplate (node : Node) (token : Token) : Parser Node := do
  match node.kind with
  | .element type _ => return { node with kind := .element type (some token.text) }
  | kind =>
      let label := kind.label
      report (.error .unexpectedToken token.span token.position
        s!"'using' is only valid on elements, not on {label}")
      return node

/-- Read the name of a template behind `using`. -/
def templateName (node : Node) : Parser Node := do
  let token ← current
  match token.kind with
  | .string | .identifier =>
      advance
      setTemplate node token
  | .unterminatedString =>
      reportUnterminated token
      advance
      setTemplate node token
  | _ =>
      unexpected "after 'using'"
      return node

/-- Skip the rest of a head up to the end of its line or a brace. -/
def skipHead (headLine : Nat) : Parser Unit :=
  skipUntil do
    let token ← current
    return token.line ≠ headLine || token.kind = .leftBrace || token.kind.endsBlock ||
      token.kind.isLayout

/-- Read a directive or a property on the line of the keyword. -/
def headTurn (held : Held) (headLine : Nat) (node : Node) : Parser (ForInStep Node) := do
  let token ← current
  if token.line ≠ headLine then return .done node
  else
    match token.kind with
    | .leftBrace | .rightBrace | .eof | .newline | .indent | .dedent | .comma | .semicolon =>
        return .done node
    | .at => return .yield (← attachDirective held false node)
    | .identifier =>
        if (← peekKind 1).separatesKey then return .yield (← property node)
        else return .done node
    | _ =>
        unexpected "in element header"
        skipHead headLine
        return .done node

/-- Read the directives and properties on the line of the keyword. -/
def elementHead (held : Held) (node : Node) (headLine : Nat) : Parser Node :=
  iterate node (headTurn held headLine)

/-- Skip the rest of an element that is nested too deeply. -/
def skipElement : Parser Unit := do
  skipUntil do
    let kind ← currentKind
    return kind = .leftBrace || kind.endsBlock ||
      ((← get).braceDepth = 0 && kind.isLayout)
  if ← check .leftBrace then
    let _ ← skipBalanced

/-! ## Elements -/

def templateParams (node : Node) : Parser Node := do
  match node.kind with
  | .template _ =>
      if ← check .leftParen then return { node with kind := .template (← paramList) }
      else return node
  | _ => return node

/-- Read the template of an element, if it is on the line of its keyword. -/
def elementTemplate (node : Node) (headLine : Nat) : Parser Node := do
  let mark ← current
  if mark.isWord "using" ∧ mark.line = headLine then
    advance
    templateName node
  else return node

/-- Read the body of an element, in braces or on lines that are indented. -/
def elementBody (held : Held) (node : Node) : Parser Node := do
  let opensLines := (← get).braceDepth = 0 && (← check .newline) && (← peekKind 1) = .indent
  if ← check .leftBrace then braced node (bodyItem held)
  else if opensLines then
    advance
    advance
    use .indentation
    indentedBody held node
  else return node

def elementRest (held : Held) (node : Node) (headLine : Nat) : Parser Node := do
  let node ← elementName node headLine
  let node ← templateParams node
  let node ← elementTemplate node headLine
  let node ← elementHead held node headLine
  elementBody held node

/-- Skip what stands behind a keyword that is nested too deeply. -/
def refuseElement (node : Node) : Parser Node := do
  skipElement
  return node

/-- Read an element of a kind without a grammar of its own. -/
def genericElement (held : Held) (kind : NodeKind) : Parser Node := do
  let keyword ← current
  advance
  let node := Node.ofKind kind default
  close (← deeper (refuseElement node) (elementRest held node keyword.line)) keyword.position

def exported (held : Held) : Parser Node := do
  let start ← startPosition
  advance
  let node ← deeper (refuseElement (.fragment [] default)) do
    return { ← held.element with exported := true }
  close node start

def function : Parser Node := do
  let start ← startPosition
  advance
  use .logic
  match ← expectName "function name" with
  | none =>
      synchronize
      close (.ofKind (.function [] "") default) start
  | some name =>
      let params ← paramList
      let body ← blockText
      close { Node.ofKind (.function params body) default with name := some name } start

/-! ## Blocks of logic -/

/-- Read a value inside a block of logic or a state. -/
def logicValue : Parser Value := valueOr synchronize

def logicItem (block : LogicBlock) : Parser LogicBlock := do
  let token ← current
  let word := token.text
  let next ← peekKind 1
  if word = "function" ∨ word = "fn" ∨ word = "func" then
    advance
    match ← expectName "function name" with
    | none =>
        synchronize
        return block
    | some name =>
        let params ← paramList
        let body ← blockText
        return { block with functions := block.functions ++ [⟨name, params, body⟩] }
  else if word = "let" ∨ word = "var" ∨ word = "const" then
    advance
    match ← expectName "variable name" with
    | none =>
        synchronize
        return block
    | some name =>
        if (← currentKind).separatesKey then advance
        else unexpected "after variable name"
        return { block with values := block.values.insert name (← logicValue) }
  else if next.separatesKey then
    advance
    advance
    return { block with values := block.values.insert word (← logicValue) }
  else if next = .leftParen ∨ next = .leftBrace then
    advance
    let params ← paramList
    let body ← blockText
    if "on".toList.isPrefixOf word.toList then
      return { block with handlers := block.handlers ++ [⟨word, params, body⟩] }
    else return { block with functions := block.functions ++ [⟨word, params, body⟩] }
  else
    unexpected "in logic block"
    synchronize
    return block

/-- Read an item of a block of logic or a directive of the block. -/
def logicTurn (held : Held) (found : Node × LogicBlock) : Parser (Node × LogicBlock) := do
  let (node, block) := found
  match ← currentKind with
  | .identifier => return (node, ← logicItem block)
  | .at => return (← attachDirective held true node, block)
  | _ =>
      unexpected "in logic block"
      synchronize
      return (node, block)

/-- Read what stands behind the keyword of a block of logic. -/
def logicRest (held : Held) (node : Node) (headLine : Nat) : Parser Node := do
  let node ← elementName node headLine
  if ← check .leftBrace then
    let (node, block) ← braced (node, LogicBlock.empty) (logicTurn held)
    return { node with kind := .logic block }
  else
    unexpected "after 'logic'"
    synchronize
    return { node with kind := .logic .empty }

def logicElement (held : Held) : Parser Node := do
  let keyword ← current
  advance
  use .logic
  let node := Node.ofKind (.logic .empty) default
  close (← deeper (refuseElement node) (logicRest held node keyword.line)) keyword.position

/-! ## State machines -/

/-- Read one item of a state: what to run on entering or leaving it, or a property. -/
def stateItem (state : MachineState) : Parser MachineState := do
  let token ← current
  let next ← peekKind 1
  if token.kind = .identifier ∧ next = .leftBrace ∧
      (token.text = "on_entry" ∨ token.text = "onEntry") then
    advance
    return { state with onEntry := ← captureBlock }
  else if token.kind = .identifier ∧ next = .leftBrace ∧
      (token.text = "on_exit" ∨ token.text = "onExit") then
    advance
    return { state with onExit := ← captureBlock }
  else if (token.kind = .identifier ∨ token.kind = .string) ∧ next.separatesKey then
    advance
    advance
    return { state with properties := state.properties.insert token.text (← logicValue) }
  else
    unexpected "in state"
    synchronize
    return state

def machineState : Parser (Option MachineState) := do
  match ← expectName "state name" with
  | none => return none
  | some name =>
      let state : MachineState := ⟨name, none, none, []⟩
      if ← check .leftBrace then return some (← braced state stateItem)
      else return some state

/-- Read a transition from one state to another, with the event that causes it. -/
def transition : Parser (Option Transition) := do
  match ← expectName "transition source" with
  | none => return none
  | some source =>
      if ← eat .arrow then
        match ← expectName "transition target" with
        | none =>
            synchronize
            return none
        | some target =>
            let event ← if ← eat .colon then expectName "event name" else pure none
            return some ⟨source, target, event⟩
      else
        unexpected "in transition, expected '->'"
        synchronize
        return none

def addTransition (machine : StateMachine) : Parser StateMachine := do
  match ← transition with
  | some found => return { machine with transitions := machine.transitions ++ [found] }
  | none => return machine

/-- Read the name of the initial state behind its keyword; it must be given once. -/
def initialName (machine : StateMachine) (keyword : Token) : Parser StateMachine := do
  match ← expectName "initial state name" with
  | none =>
      synchronize
      return machine
  | some name =>
      if machine.initial.isSome then
        report (.error .duplicateName keyword.span keyword.position
          "state machine declares 'initial' more than once")
        return machine
      else return { machine with initial := some name }

def initialState (machine : StateMachine) : Parser StateMachine := do
  let keyword ← current
  advance
  if (← currentKind).separatesKey then advance
  else report (.missingColon "initial" keyword.span keyword.position)
  initialName machine keyword

/-- Read an item of the transitions of a state machine. -/
def transitionItem (machine : StateMachine) : Parser StateMachine := do
  let kind ← currentKind
  if kind = .identifier ∨ kind = .string then addTransition machine
  else
    unexpected "in transitions block"
    synchronize
    return machine

def machineItem (held : Held) (found : Node × StateMachine) : Parser (Node × StateMachine) := do
  let (node, machine) := found
  let token ← current
  let next ← peekKind 1
  if token.kind = .at then return (← attachDirective held true node, machine)
  else if token.isWord "initial" ∧ next ≠ .arrow then return (node, ← initialState machine)
  else if token.isWord "state" ∧ next ≠ .arrow then
    advance
    match ← machineState with
    | some state => return (node, { machine with states := machine.states ++ [state] })
    | none => return (node, machine)
  else if token.isWord "transitions" ∧ next = .leftBrace then
    advance
    return (node, ← braced machine transitionItem)
  else if (token.kind = .identifier ∨ token.kind = .string) ∧ next = .arrow then
    return (node, ← addTransition machine)
  else if token.kind = .identifier ∧ next.separatesKey then
    return (← property node, machine)
  else
    unexpected "in state machine"
    synchronize
    return (node, machine)

def machineBody (held : Held) (node : Node) : Parser (Node × StateMachine) := do
  if ← check .leftBrace then braced (node, .empty) (machineItem held)
  else
    unexpected "after state machine name"
    synchronize
    return (node, .empty)

/-- Read what stands behind the keyword of a state machine. -/
def machineRest (held : Held) (node : Node) (keyword : Token) : Parser Node := do
  let node ← elementName node keyword.line
  let (node, machine) ← machineBody held node
  if machine.initial.isNone then
    let name := node.name.getD "<anonymous>"
    report (.error .missingRequired keyword.span keyword.position
      s!"state machine '{name}' is missing the required 'initial' state")
  return { node with kind := .stateMachine machine }

/-- Read a state machine, which must have an initial state. -/
def stateMachine (held : Held) : Parser Node := do
  let keyword ← current
  advance
  use .stateMachines
  let node := Node.ofKind (.stateMachine .empty) default
  close (← deeper (refuseElement node) (machineRest held node keyword)) keyword.position

/-- Warn of a word that is close to the keyword of an element. -/
def checkKeyword (keyword : Token) : Parser Unit := do
  let word := keyword.text
  let distance := if word.length ≤ 4 then 1 else 2
  unless Vocabulary.isConstruct word ||
      (findSimilar word Vocabulary.elements distance 1).isEmpty do
    report (.unknownKeyword (← read).options.strict word keyword.span keyword.position)

def elementWith (held : Held) : Parser Node := do
  let token ← current
  let word := token.text
  let declares := (← peekKind 1) = .identifier
  if word = "export" && declares then exported held
  else if word = "function" && declares then function
  else if word = "logic" then logicElement held
  else if word = "state_machine" then stateMachine held
  else if word = "template" then
    use .templates
    genericElement held (.template [])
  else if word = "environment" then
    use .environment
    genericElement held .environment
  else if Vocabulary.compositions.contains word then
    genericElement held (.composition word)
  else
    checkKeyword token
    genericElement held (.element word none)

/-! ## Control flow -/

def skipCondition : Parser Unit :=
  skipUntil do
    let kind ← currentKind
    return kind = .leftBrace || kind.endsBlock || kind.isLayout

def conditionText : Parser String := do
  let start := (← current).span.start
  let _ ← valueOr skipCondition
  setValueFailed false
  let text ← sliceBetween start (← previousSpan).stop
  return String.ofList (Text.trim text)

/-- Read an item of the body of a directive that steers control flow.  One that is an element
by itself is kept as it is; other items are kept in a fragment. -/
def controlItem (held : Held) (nodes : List Node) : Parser (List Node) := do
  let start ← startPosition
  let item ← bodyItem held (.fragment [] default)
  let plain := item.properties.isEmpty && item.spreads.isEmpty && item.traits.isEmpty
  match item.children, plain && item.directives.isEmpty with
  | [child], true => return child :: nodes
  | _, _ =>
      if 1 < item.count || !plain then return (← close item start) :: nodes
      else return nodes

/-- Read the body of a directive that steers control flow. -/
def controlBody (held : Held) : Parser (List Node) := do
  return (← braced [] (controlItem held)).reverse

def loopVariable : Parser String := do
  let token ← current
  if token.kind = .identifier then
    advance
    return token.text
  else
    unexpected "where a loop variable was expected"
    return ""

def loop (held : Held) (form : LoopForm) : Parser Directive := do
  use .controlFlow
  let item ← loopVariable
  let token ← current
  if token.isWord "in" || token.isWord "of" then advance
  else unexpected "in loop header, expected 'in'"
  let iterable ← conditionText
  return .loop form item iterable (← controlBody held)

def State.behindBreaks (state : State) : List Token :=
  (state.visibleFrom 0).dropWhile (·.kind = .newline)

/-- Does `@else` follow, on this line or a later one? -/
def elseAhead : Parser Bool := do
  let state ← get
  match state.behindBreaks with
  | [] => throw .stalled
  | mark :: rest =>
      match visible state.braceDepth (behind (mark :: rest)) with
      | [] => throw .outside
      | word :: _ => return mark.kind = .at && word.isWord "else"

/-- The branch behind `@else`, which is a block or another conditional. -/
def elseBranch (held : Held) (start : Position) : Parser (List Node) := do
  let token ← current
  if token.kind = .at && (← peek 1).isWord "if" then
    let holder ← attachDirective held true (.fragment [] default)
    return [← close holder start]
  else if token.isWord "if" then
    advance
    let holder := (Node.fragment [] default).attach (← held.conditional)
    return [← close holder start]
  else controlBody held

def skipNewlines : Parser Unit :=
  skipUntil do return !(← check .newline)

def conditionalWith (held : Held) : Parser Directive := do
  use .controlFlow
  let condition ← conditionText
  let body ← controlBody held
  if ← elseAhead then
    skipNewlines
    let start ← startPosition
    advance
    advance
    return .conditional condition body (some (← elseBranch held start))
  else return .conditional condition body none

/-! ## Imports -/

/-- Read the path behind `from`. -/
def importSource : Parser (Option String) := do
  if (← current).isWord "from" then
    advance
    let path ← current
    if path.kind = .string then
      advance
      return some path.text
    else
      unexpected "after 'from', expected a path"
      return none
  else
    unexpected "in import, expected 'from'"
    return none

def importAlias : Parser (Option String) := do
  if (← current).isWord "as" then
    advance
    expectName "import alias"
  else return none

def importName (names : List ImportName) : Parser (List ImportName) := do
  let token ← current
  if token.kind = .identifier then
    advance
    return names ++ [⟨token.text, ← importAlias⟩]
  else
    unexpected "in import list"
    advance
    return names

/-- Read what is imported: a file, a list of its names, or one of its names. -/
def importDecl : Parser (Option ImportDecl) := do
  use .imports
  let token ← current
  match token.kind with
  | .string =>
      advance
      return some ⟨token.text, [], ← importAlias⟩
  | .leftBrace =>
      let names ← braced [] importName
      return (← importSource).map fun path => ⟨path, names, none⟩
  | .identifier =>
      advance
      return (← importSource).map fun path => ⟨path, [⟨token.text, none⟩], none⟩
  | _ =>
      unexpected "after '@import', expected a path"
      return none

def importDirective : Parser (Option Directive) := do
  match ← importDecl with
  | none => return none
  | some decl =>
      modify fun state => { state with imports := state.imports ++ [decl] }
      return some (.imports decl)

/-! ## Directives -/

/-- Report a directive of an unknown name, as a trait if the name is like one. -/
def reportUnknown (name : Token) : Parser Unit := do
  let options := (← read).options
  let known := Vocabulary.isTrait name.text
  let d :=
    if known || !(suggest name.text Vocabulary.traits).isEmpty then
      Diagnostic.unknownTrait options.strict name.text name.span name.position
    else Diagnostic.unknownDirective options.strict name.text name.span name.position
  if known then report (d.withNote "VR traits are disabled for this parse")
  else if name.text = "import" then
    report (d.withNote "imports are disabled for this parse")
  else report d

/-- Read the rest of a trait.  One of an unknown name is reported, and dropped if the
vocabulary is binding. -/
def traitDirective (name : Token) (allowBody : Bool) : Parser (Option Directive) := do
  let options := (← read).options
  let config ← directiveConfig allowBody
  if options.traits && Vocabulary.isTrait name.text then
    use .traits
    return some (.trait name.text config)
  else
    reportUnknown name
    return if options.strict then none else some (.generic name.text config)

def lifecycle (hook : String) : Parser Directive := do
  let params ← paramList
  let body ← if ← check .leftBrace then blockText else pure ""
  return .lifecycle hook params body

/-- Read the rest of a directive; `span` covers its name with the at sign. -/
def directiveNamed (held : Held) (name : Token) (span : Span) (position : Position)
    (allowBody : Bool) : Parser (Option Directive) := do
  let word := name.text
  if word = "for" then return some (← loop held .plain)
  else if word = "forEach" then return some (← loop held .each)
  else if word = "while" then
    use .controlFlow
    let condition ← conditionText
    return some (.whileLoop condition (← controlBody held))
  else if word = "if" then return some (← conditionalWith held)
  else if word = "else" then
    report (.error .unexpectedToken span position "'@else' without a preceding '@if'")
    if ← check .leftBrace then
      let _ ← skipBalanced
    return none
  else if word = "import" && (← read).options.imports then importDirective
  else if word = "state" then return some (.state (← directiveConfig true).config)
  else if word = "bindings" then return some (.bindings (← directiveConfig true).config)
  else if let some which := Setting.ofName? word then
    return some (.setting which (← directiveConfig allowBody))
  else if let some which := Topic.ofName? word then
    let config ← directiveConfig allowBody
    return some (.topic which config.subject? config)
  else if Vocabulary.isHook word || "on_".toList.isPrefixOf word.toList then
    return some (← lifecycle word)
  else traitDirective name allowBody

/-- Read a directive.  One that is rejected has been reported. -/
def directiveWith (held : Held) (allowBody : Bool) : Parser (Option PlacedDirective) := do
  let mark ← current
  advance
  let name ← current
  if name.kind = .identifier then
    advance
    let span := mark.span.merge name.span
    return (← directiveNamed held name span mark.position allowBody).map
      fun directive => ⟨directive, span, mark.position⟩
  else
    unexpected "after '@', expected a directive name"
    return none

/-- The parsers of elements and directives at most `levels` levels deep. -/
def level : Nat → Held
  | 0 =>
      { element := throw .bottomless
        directive := fun _ => throw .bottomless
        conditional := throw .bottomless }
  | levels + 1 =>
      { element := fun context state => elementWith (level levels) context state
        directive := fun allowBody context state =>
          directiveWith (level levels) allowBody context state
        conditional := fun context state => conditionalWith (level levels) context state }

end Parser

end SceneLang
