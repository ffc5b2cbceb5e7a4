import SceneLang.Node
import SceneLang.Value.Stored

/-!
# The stored form of trees

Every field of a node is stored, none for what is missing.  A kind and a directive are
stored as records that name their case.
-/

namespace SceneLang

namespace Position

def toJson (p : Position) : Json :=
  .object [("line", .ofNat p.line), ("column", .ofNat p.column)]

def ofJson? (stored : Json) : Option Position := do
  match ← stored.record? ["line", "column"] with
  | [line, column] =>
      return ⟨← line.required (Json.asNat? wordCount), ← column.required (Json.asNat? wordCount)⟩
  | _ => none

end Position

namespace Location

def toJson (loc : Location) : Json :=
  .object [("start", loc.start.toJson), ("end", loc.stop.toJson)]

def ofJson? (stored : Json) : Option Location := do
  match ← stored.record? ["start", "end"] with
  | [start, stop] =>
      return ⟨← start.required Position.ofJson?, ← stop.required Position.ofJson?⟩
  | _ => none

end Location

namespace Span

def toJson (span : Span) : Json :=
  .object [("start", .ofNat span.start), ("end", .ofNat span.stop)]

def ofJson? (stored : Json) : Option Span := do
  match ← stored.record? ["start", "end"] with
  | [start, stop] =>
      return ⟨← start.required (Json.asNat? wordCount), ← stop.required (Json.asNat? wordCount)⟩
  | _ => none

end Span

def readStrings (stored : Json) : Option (List String) :=
  stored.asList? Json.asString?

namespace TraitConfig

def toJson (config : TraitConfig) : Json :=
  .object [("args", .ofList Value.toJson config.args),
    ("config", Table.toJson Value.toJson config.config)]

def ofJson? (reading : Reading) (stored : Json) : Option TraitConfig := do
  match ← stored.record? ["args", "config"] with
  | [args, config] =>
      return ⟨← args.required (Json.asList? (Value.ofJson? reading)),
        ← config.required (Table.ofJson? (Value.ofJson? reading))⟩
  | _ => none

end TraitConfig

namespace ImportName

def toJson (imported : ImportName) : Json :=
  .object [("name", .string imported.name), ("alias", .ofOptionString imported.rename)]

def ofJson? (stored : Json) : Option ImportName := do
  match ← stored.record? ["name", "alias"] with
  | [name, rename] =>
      return ⟨← name.required Json.asString?, ← rename.optional Json.asString?⟩
  | _ => none

end ImportName

namespace ImportDecl

def members (decl : ImportDecl) : List (String × Json) :=
  [("path", .string decl.path), ("names", .ofList ImportName.toJson decl.names),
    ("alias", .ofOptionString decl.rename)]

def toJson (decl : ImportDecl) : Json :=
  .object decl.members

def ofJson? (stored : Json) : Option ImportDecl := do
  match ← stored.record? ["path", "names", "alias"] with
  | [path, names, rename] =>
      return ⟨← path.required Json.asString?, ← names.required (Json.asList? ImportName.ofJson?),
        ← rename.optional Json.asString?⟩
  | _ => none

end ImportDecl

namespace LogicFunction

def toJson (function : LogicFunction) : Json :=
  .object [("name", .string function.name), ("params", .ofStrings function.params),
    ("body", .string function.body)]

def ofJson? (stored : Json) : Option LogicFunction := do
  match ← stored.record? ["name", "params", "body"] with
  | [name, params, body] =>
      return ⟨← name.required Json.asString?, ← params.required readStrings,
        ← body.required Json.asString?⟩
  | _ => none

end LogicFunction

namespace EventHandler

def toJson (handler : EventHandler) : Json :=
  .object [("event", .string handler.event), ("params", .ofStrings handler.params),
    ("body", .string handler.body)]

def ofJson? (stored : Json) : Option EventHandler := do
  match ← stored.record? ["event", "params", "body"] with
  | [event, params, body] =>
      return ⟨← event.required Json.asString?, ← params.required readStrings,
        ← body.required Json.asString?⟩
  | _ => none

end EventHandler

namespace MachineState

def toJson (state : MachineState) : Json :=
  .object [("name", .string state.name), ("on_entry", .ofOptionString state.onEntry),
    ("on_exit", .ofOptionString state.onExit),
    ("properties", Table.toJson Value.toJson state.properties)]

def ofJson? (reading : Reading) (stored : Json) : Option MachineState := do
  match ← stored.record? ["name", "on_entry", "on_exit", "properties"] with
  | [name, onEntry, onExit, properties] =>
      return ⟨← name.required Json.asString?, ← onEntry.optional Json.asString?,
        ← onExit.optional Json.asString?,
        ← properties.required (Table.ofJson? (Value.ofJson? reading))⟩
  | _ => none

end MachineState

namespace Transition

def toJson (transition : Transition) : Json :=
  .object [("from", .string transition.source), ("to", .string transition.target),
    ("event", .ofOptionString transition.event)]

def ofJson? (stored : Json) : Option Transition := do
  match ← stored.record? ["from", "to", "event"] with
  | [source, target, event] =>
      return ⟨← source.required Json.asString?, ← target.required Json.asString?,
        ← event.optional Json.asString?⟩
  | _ => none

end Transition

namespace NodeKind

def members : NodeKind → List (String × Json)
  | .element type source =>
      [("element_type", .string type), ("template", .ofOptionString source)]
  | .fragment | .environment => []
  | .composition keyword => [("keyword", .string keyword)]
  | .logic block =>
      [("functions", .ofList LogicFunction.toJson block.functions),
        ("handlers", .ofList EventHandler.toJson block.handlers),
        ("variables", Table.toJson Value.toJson block.values)]
  | .template params => [("params", .ofStrings params)]
  | .stateMachine machine =>
      [("initial", .ofOptionString machine.initial),
        ("states", .ofList MachineState.toJson machine.states),
        ("transitions", .ofList Transition.toJson machine.transitions)]
  | .function params body => [("params", .ofStrings params), ("body", .string body)]

def toJson (kind : NodeKind) : Json :=
  .object (("kind", .string kind.label) :: kind.members)

def labels : List String :=
  ["element", "fragment", "composition", "logic", "template", "environment", "state_machine",
   "function"]

def ofJson? (reading : Reading) (stored : Json) : Option NodeKind := do
  let (label, rest) ← stored.tagged? reading "kind" labels
  if label = "element" then
    match ← rest.record? ["element_type", "template"] with
    | [type, source] =>
        return .element (← type.required Json.asString?) (← source.optional Json.asString?)
    | _ => none
  else if label = "fragment" then (rest.record? []).map fun _ => .fragment
  else if label = "composition" then
    match ← rest.record? ["keyword"] with
    | [keyword] => return .composition (← keyword.required Json.asString?)
    | _ => none
  else if label = "logic" then
    match ← rest.record? ["functions", "handlers", "variables"] with
    | [functions, handlers, values] =>
        return .logic ⟨← functions.required (Json.asList? LogicFunction.ofJson?),
          ← handlers.required (Json.asList? EventHandler.ofJson?),
          ← values.required (Table.ofJson? (Value.ofJson? .aside))⟩
    | _ => none
  else if label = "template" then
    match ← rest.record? ["params"] with
    | [params] => return .template (← params.required readStrings)
    | _ => none
  else if label = "environment" then (rest.record? []).map fun _ => .environment
  else if label = "state_machine" then
    match ← rest.record? ["initial", "states", "transitions"] with
    | [initial, states, transitions] =>
        return .stateMachine ⟨← initial.optional Json.asString?,
          ← states.required (Json.asList? (MachineState.ofJson? .aside)),
          ← transitions.required (Json.asList? Transition.ofJson?)⟩
    | _ => none
  else if label = "function" then
    match ← rest.record? ["params", "body"] with
    | [params, body] =>
        return .function (← params.required readStrings) (← body.required Json.asString?)
    | _ => none
  else none

end NodeKind

/-- The name of the case of a directive in stored forms. -/
def Directive.label : Directive → String
  | .trait _ _ => "trait"
  | .generic _ _ => "generic"
  | .lifecycle _ _ _ => "lifecycle"
  | .state _ => "state"
  | .bindings _ => "bindings"
  | .loop .plain _ _ _ => "for"
  | .loop .each _ _ _ => "for_each"
  | .whileLoop _ _ => "while"
  | .conditional _ _ _ => "if"
  | .imports _ => "import"
  | .setting which _ => which.name
  | .topic which _ _ => which.name

/-- The names of the cases of a directive, in their order. -/
def Directive.labels : List String :=
  ["trait", "lifecycle", "state", "for", "for_each", "while", "if", "import", "manifest", "asset",
   "semantic", "bindings", "world_metadata", "world_config", "zones", "spawn_points", "skybox",
   "ambient_light", "directional_light", "fog", "lighting", "external_api", "generate", "npc",
   "dialog", "platform_event", "generic"]

mutual

def Node.toJson : Node → Json
  | ⟨kind, name, id, children, properties, spreads, directives, traits, exported, loc⟩ =>
      .object [("kind", kind.toJson), ("name", .ofOptionString name),
        ("id", .ofOptionString id), ("children", .array (Node.listToJson children)),
        ("properties", Table.toJson Value.toJson properties),
        ("spreads", .ofList Value.toJson spreads),
        ("directives", .array (Directive.listToJson directives)),
        ("traits", Table.toJson TraitConfig.toJson traits), ("exported", .bool exported),
        ("loc", loc.toJson)]

def Node.listToJson : List Node → List Json
  | [] => []
  | node :: rest => node.toJson :: Node.listToJson rest

def Directive.members : Directive → List (String × Json)
  | .trait name config => [("name", .string name), ("config", config.toJson)]
  | .generic name config => [("name", .string name), ("config", config.toJson)]
  | .lifecycle hook params body =>
      [("hook", .string hook), ("params", .ofStrings params), ("body", .string body)]
  | .state properties => [("properties", Table.toJson Value.toJson properties)]
  | .bindings table => [("bindings", Table.toJson Value.toJson table)]
  | .loop _ item iterable body =>
      [("variable", .string item), ("iterable", .string iterable),
        ("body", .array (Node.listToJson body))]
  | .whileLoop condition body =>
      [("condition", .string condition), ("body", .array (Node.listToJson body))]
  | .conditional condition body none =>
      [("condition", .string condition), ("body", .array (Node.listToJson body)),
        ("else_body", .null)]
  | .conditional condition body (some elseBody) =>
      [("condition", .string condition), ("body", .array (Node.listToJson body)),
        ("else_body", .array (Node.listToJson elseBody))]
  | .imports decl => decl.members
  | .setting _ config => [("config", config.toJson)]
  | .topic which subject config =>
      [(which.subjectName, .ofOptionString subject), ("config", config.toJson)]

def Directive.listToJson : List Directive → List Json
  | [] => []
  | directive :: rest =>
      .object (("directive", .string directive.label) :: directive.members) ::
        Directive.listToJson rest

end

mutual

/-- Read a node that is nested at most `fuel` levels deep. -/
def Node.readJson : Nat → Reading → Json → Option Node
  | 0, _, _ => none
  | fuel + 1, reading, stored => do
      match ← stored.record? ["kind", "name", "id", "children", "properties", "spreads",
        "directives", "traits", "exported", "loc"] with
      | [kind, name, id, children, properties, spreads, directives, traits, exported, loc] =>
          return {
            kind := ← kind.required (NodeKind.ofJson? reading)
            name := ← name.optional Json.asString?
            id := ← id.optional Json.asString?
            children := ← children.required (Json.asList? (Node.readJson fuel reading))
            properties := ← properties.required (Table.ofJson? (Value.ofJson? reading))
            spreads := ← spreads.required (Json.asList? (Value.ofJson? reading))
            directives := ← directives.required (Json.asList? (Directive.readJson fuel reading))
            traits := ← traits.required (Table.ofJson? (TraitConfig.ofJson? reading))
            exported := ← exported.orElse false Json.asBool?
            loc := ← loc.required Location.ofJson? }
      | _ => none

/-- Read a directive.  All that stands beside its case is set aside. -/
def Directive.readJson : Nat → Reading → Json → Option Directive
  | 0, _, _ => none
  | fuel + 1, reading, stored => do
      let (label, rest) ← stored.tagged? reading "directive" Directive.labels
      let body (slot : Slot) : Option (List Node) :=
        slot.required (Json.asList? (Node.readJson fuel .aside))
      if label = "trait" ∨ label = "generic" then
        match ← rest.record? ["name", "config"] with
        | [name, config] =>
            let name ← name.required Json.asString?
            let config ← config.required (TraitConfig.ofJson? .aside)
            return if label = "trait" then .trait name config else .generic name config
        | _ => none
      else if label = "lifecycle" then
        match ← rest.record? ["hook", "params", "body"] with
        | [hook, params, text] =>
            return .lifecycle (← hook.required Json.asString?) (← params.required readStrings)
              (← text.required Json.asString?)
        | _ => none
      else if label = "state" then
        match ← rest.record? ["properties"] with
        | [properties] =>
            return .state (← properties.required (Table.ofJson? (Value.ofJson? .aside)))
        | _ => none
      else if label = "bindings" then
        match ← rest.record? ["bindings"] with
        | [table] => return .bindings (← table.required (Table.ofJson? (Value.ofJson? .aside)))
        | _ => none
      else if label = "for" ∨ label = "for_each" then
        match ← rest.record? ["variable", "iterable", "body"] with
        | [item, iterable, nodes] =>
            return .loop (if label = "for" then .plain else .each)
              (← item.required Json.asString?) (← iterable.required Json.asString?)
              (← body nodes)
        | _ => none
      else if label = "while" then
        match ← rest.record? ["condition", "body"] with
        | [condition, nodes] =>
            return .whileLoop (← condition.required Json.asString?) (← body nodes)
        | _ => none
      else if label = "if" then
        match ← rest.record? ["condition", "body", "else_body"] with
        | [condition, nodes, elseNodes] =>
            return .conditional (← condition.required Json.asString?) (← body nodes)
              (← elseNodes.optional (Json.asList? (Node.readJson fuel .aside)))
        | _ => none
      else if label = "import" then (ImportDecl.ofJson? rest).map .imports
      else if let some which := Setting.ofName? label then
        match ← rest.record? ["config"] with
        | [config] => return .setting which (← config.required (TraitConfig.ofJson? .aside))
        | _ => none
      else if let some which := Topic.ofName? label then
        match ← rest.record? [which.subjectName, "config"] with
        | [subject, config] =>
            return .topic which (← subject.optional Json.asString?)
              (← config.required (TraitConfig.ofJson? .aside))
        | _ => none
      else none

end

def Node.ofJson? (stored : Json) : Option Node :=
  Node.readJson (stored.depth + 1) .direct stored

end SceneLang
