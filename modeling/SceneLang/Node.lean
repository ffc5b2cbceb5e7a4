import SceneLang.Value
import SceneLang.Table
import SceneLang.Text.Position

/-!
# Scene trees

A node is an element of a scene with its properties, traits, directives and children.  What
differs from one kind of node to another is kept in its `NodeKind`.  Directives that steer
control flow hold nodes of their own, so nodes and directives are defined together.
-/

namespace SceneLang

/-- What is written behind the name of a directive or trait: positional values, and values
by name. -/
structure TraitConfig where
  args : List Value
  config : Table Value
deriving Inhabited

namespace TraitConfig

def empty : TraitConfig := ⟨[], []⟩

def isEmpty (config : TraitConfig) : Bool :=
  config.args.isEmpty && config.config.isEmpty

def subject? (config : TraitConfig) : Option String :=
  config.args.head?.bind Value.asString?

end TraitConfig

/-- An imported name, possibly under another name. -/
structure ImportName where
  name : String
  rename : Option String
deriving DecidableEq, Repr

/-- The name under which an imported symbol is known here. -/
def ImportName.localName (imported : ImportName) : String :=
  imported.rename.getD imported.name

/-- The names taken from a file, or the file as a whole. -/
structure ImportDecl where
  path : String
  names : List ImportName
  rename : Option String
deriving DecidableEq, Repr

/-- A function whose body is kept as text. -/
structure LogicFunction where
  name : String
  params : List String
  body : String
deriving DecidableEq, Repr

/-- What happens on an event; the body is kept as text. -/
structure EventHandler where
  event : String
  params : List String
  body : String
deriving DecidableEq, Repr

structure LogicBlock where
  functions : List LogicFunction
  handlers : List EventHandler
  values : Table Value
deriving Inhabited

def LogicBlock.empty : LogicBlock := ⟨[], [], []⟩

/-- A state with what is run on entering and on leaving it. -/
structure MachineState where
  name : String
  onEntry : Option String
  onExit : Option String
  properties : Table Value

structure Transition where
  source : String
  target : String
  event : Option String
deriving DecidableEq, Repr

structure StateMachine where
  initial : Option String
  states : List MachineState
  transitions : List Transition
deriving Inhabited

namespace StateMachine

def empty : StateMachine := ⟨none, [], []⟩

def state? (machine : StateMachine) (name : String) : Option MachineState :=
  machine.states.find? (·.name = name)

end StateMachine

/-- What a node is. -/
inductive NodeKind where
  | element (type : String) (template : Option String)
  /-- A wrapper around nodes that have no element around them. -/
  | fragment
  | composition (keyword : String)
  | logic (block : LogicBlock)
  | template (params : List String)
  | environment
  | stateMachine (machine : StateMachine)
  | function (params : List String) (body : String)
deriving Inhabited

/-- Directives that hold nothing but a configuration. -/
inductive Setting where
  | manifest
  | worldMetadata
  | worldConfig
  | zones
  | spawnPoints
  | skybox
  | ambientLight
  | directionalLight
  | fog
  | lighting
deriving DecidableEq, Repr

/-- Directives whose first argument is their subject. -/
inductive Topic where
  | asset
  | semantic
  | externalApi
  | generate
  | npc
  | dialog
  | platformEvent
deriving DecidableEq, Repr

/-- The two loops over the members of a collection. -/
inductive LoopForm where
  | each
  | plain
deriving DecidableEq, Repr

mutual

structure Node where
  kind : NodeKind
  name : Option String
  id : Option String
  children : List Node
  properties : Table Value
  /-- Values spread into the body, in order. -/
  spreads : List Value
  /-- Directives other than traits, in order. -/
  directives : List Directive
  traits : Table TraitConfig
  exported : Bool
  loc : Location

inductive Directive where
  | trait (name : String) (config : TraitConfig)
  /-- A directive of an unknown name, kept like a trait. -/
  | generic (name : String) (config : TraitConfig)
  | lifecycle (hook : String) (params : List String) (body : String)
  | state (properties : Table Value)
  | bindings (table : Table Value)
  | loop (form : LoopForm) (item iterable : String) (body : List Node)
  | whileLoop (condition : String) (body : List Node)
  | conditional (condition : String) (body : List Node) (elseBody : Option (List Node))
  | imports (decl : ImportDecl)
  | setting (which : Setting) (config : TraitConfig)
  | topic (which : Topic) (subject : Option String) (config : TraitConfig)

end

namespace NodeKind

def label : NodeKind → String
  | .element _ _ => "element"
  | .fragment => "fragment"
  | .composition _ => "composition"
  | .logic _ => "logic"
  | .template _ => "template"
  | .environment => "environment"
  | .stateMachine _ => "state_machine"
  | .function _ _ => "function"

def keyword : NodeKind → String
  | .element type _ => type
  | .composition keyword => keyword
  | kind => kind.label

end NodeKind

namespace Setting

def all : List Setting :=
  [.manifest, .worldMetadata, .worldConfig, .zones, .spawnPoints, .skybox, .ambientLight,
   .directionalLight, .fog, .lighting]

def name : Setting → String
  | .manifest => "manifest"
  | .worldMetadata => "world_metadata"
  | .worldConfig => "world_config"
  | .zones => "zones"
  | .spawnPoints => "spawn_points"
  | .skybox => "skybox"
  | .ambientLight => "ambient_light"
  | .directionalLight => "directional_light"
  | .fog => "fog"
  | .lighting => "lighting"

def ofName? (name : String) : Option Setting :=
  all.find? (·.name = name)

end Setting

namespace Topic

def all : List Topic :=
  [.asset, .semantic, .externalApi, .generate, .npc, .dialog, .platformEvent]

def name : Topic → String
  | .asset => "asset"
  | .semantic => "semantic"
  | .externalApi => "external_api"
  | .generate => "generate"
  | .npc => "npc"
  | .dialog => "dialog"
  | .platformEvent => "platform_event"

def ofName? (name : String) : Option Topic :=
  all.find? (·.name = name)

def subjectName : Topic → String
  | .asset | .npc | .dialog => "name"
  | .semantic => "label"
  | .externalApi => "url"
  | .generate => "prompt"
  | .platformEvent => "event"

end Topic

namespace Directive

def name : Directive → String
  | .trait name _ | .generic name _ => name
  | .lifecycle hook _ _ => hook
  | .state _ => "state"
  | .bindings _ => "bindings"
  | .loop .plain _ _ _ => "for"
  | .loop .each _ _ _ => "forEach"
  | .whileLoop _ _ => "while"
  | .conditional _ _ _ => "if"
  | .imports _ => "import"
  | .setting which _ => which.name
  | .topic which _ _ => which.name

def nodes : Directive → List Node
  | .loop _ _ _ body => body
  | .whileLoop _ body => body
  | .conditional _ body elseBody => body ++ elseBody.getD []
  | _ => []

def isControlFlow : Directive → Bool
  | .loop _ _ _ _ | .whileLoop _ _ | .conditional _ _ _ => true
  | _ => false

end Directive

namespace Node

/-- A node without contents. -/
def ofKind (kind : NodeKind) (loc : Location) : Node where
  kind := kind
  name := none
  id := none
  children := []
  properties := []
  spreads := []
  directives := []
  traits := []
  exported := false
  loc := loc

def fragment (children : List Node) (loc : Location) : Node :=
  { ofKind .fragment loc with children := children }

instance : Inhabited Node := ⟨fragment [] default⟩

def isFragment (node : Node) : Bool :=
  match node.kind with
  | .fragment => true
  | _ => false

def keyword (node : Node) : String :=
  node.kind.keyword

def template? (node : Node) : Option String :=
  match node.kind with
  | .element _ template => template
  | _ => none

def displayName? (node : Node) : Option String :=
  node.name.or node.id

def hasTrait (node : Node) (name : String) : Bool :=
  node.traits.contains name

def child? (node : Node) (name : String) : Option Node :=
  node.children.find? fun child => child.name = some name || child.id = some name

end Node

end SceneLang
