import SceneLang.Document
import SceneLang.Node

/-!
# Symbols and dependencies of a batch

The names that the files of a batch export, the files that each file imports, and the
imports that no file of the batch provides.
-/

namespace SceneLang

/-! ## Exports

The names that a text makes available to others: those of its top-level elements,
templates, compositions and functions, marked as exported or not.  What is directly inside a
composition counts as top level.
-/

/-- What a name stands for. -/
inductive SymbolKind where
  | element
  | template
  | composition
  | function
deriving DecidableEq, Repr

namespace SymbolKind

def name : SymbolKind → String
  | .element => "element"
  | .template => "template"
  | .composition => "composition"
  | .function => "function"

def ofName? (name : String) : Option SymbolKind :=
  [element, template, composition, function].find? (·.name = name)

/-- What the name of a node of some kind stands for. -/
def ofNodeKind? : NodeKind → Option SymbolKind
  | .element _ _ => some .element
  | .template _ => some .template
  | .composition _ => some .composition
  | .function _ _ => some .function
  | .fragment | .logic _ | .environment | .stateMachine _ => none

end SymbolKind

structure Export where
  name : String
  kind : SymbolKind
deriving DecidableEq, Repr

namespace Node

/-- The export of one node, if it has a name. -/
def export? (node : Node) : Option Export :=
  match SymbolKind.ofNodeKind? node.kind, node.displayName? with
  | some kind, some name => some ⟨name, kind⟩
  | _, _ => none

/-- The nodes that count as top level along with a root. -/
def topLevelOf (root : Node) : List Node :=
  match root.kind with
  | .composition _ => root :: root.children
  | _ => [root]

def topLevel (root : Node) : List Node :=
  (if root.isFragment then root.children else [root]).flatMap topLevelOf

def exports (root : Node) : List Export :=
  root.topLevel.filterMap export?

end Node

/-! ## Parsing one file of a batch -/

/-- A file of a batch. -/
structure SourceFile where
  path : String
  content : List Char
deriving DecidableEq

def SourceFile.size (file : SourceFile) : Nat :=
  Text.byteLength file.content

/-- What has come of one file. -/
structure TaskResult where
  path : String
  /-- Nothing if the file could not be parsed at all. -/
  root : Option Node
  success : Bool
  /-- Errors, then warnings. -/
  diagnostics : List Diagnostic
  exports : List Export
  imports : List ImportDecl

namespace TaskResult

def ofDocument (path : String) (document : Document) : TaskResult where
  path := path
  root := some document.root
  success := document.success
  diagnostics := document.diagnostics
  exports := document.root.exports
  imports := document.imports

/-- The result of a file that could not be parsed at all. -/
def failed (path : String) (code : Code) (detail : String) : TaskResult where
  path := path
  root := none
  success := false
  diagnostics := [(Diagnostic.error code (.point 0) .start code.description).withNote detail]
  exports := []
  imports := []

def errorCount (result : TaskResult) : Nat :=
  result.diagnostics.countP Diagnostic.isError

end TaskResult

def SourceFile.parse (options : ParseOptions) (file : SourceFile) : TaskResult :=
  .ofDocument file.path (Document.parse options file.content)

/-- An exported name and the file that exports it. -/
structure Symbol where
  name : String
  kind : SymbolKind
  file : String
deriving DecidableEq, Repr

/-- Symbols by name. -/
abbrev SymbolTable := Table Symbol

namespace SymbolTable

/-- Add a symbol; it takes over a name that is there already. -/
def add (table : SymbolTable) (symbol : Symbol) : SymbolTable :=
  table.insert symbol.name symbol

/-- The symbols of a file, in order of their names. -/
def exportedBy (table : SymbolTable) (file : String) : List Symbol :=
  (table.map (·.2)).filter (·.file = file)

end SymbolTable

/-- The paths that each file imports, in the order of its imports. -/
abbrev DependencyGraph := Table (List String)

namespace DependencyGraph

def dependencies (graph : DependencyGraph) (file : String) : List String :=
  (graph.find? file).getD []

/-- Add a path unless it is there. -/
def addPath (paths : List String) (path : String) : List String :=
  if paths.contains path then paths else paths ++ [path]

/-- Record the imports of a file, after those that are recorded already. -/
def addFile (graph : DependencyGraph) (file : String) (imports : List String) :
    DependencyGraph :=
  graph.insert file (imports.foldl addPath (graph.dependencies file))

def dependents (graph : DependencyGraph) (path : String) : List String :=
  Table.keys (graph.filter (·.2.contains path))

end DependencyGraph

def TaskResult.symbols (result : TaskResult) : List Symbol :=
  result.exports.map fun found => ⟨found.name, found.kind, result.path⟩

/-- The symbols and dependencies of some results.  Of two exports of a name the later one
counts. -/
def link (results : List TaskResult) : SymbolTable × DependencyGraph :=
  results.foldl (fun (table, graph) result =>
    (result.symbols.foldl SymbolTable.add table,
      DependencyGraph.addFile graph result.path (result.imports.map (·.path)))) ([], [])

/-- The warning of a name that a file imports and no file exports. -/
def unresolvedImport (file path name : String) : Diagnostic :=
  ((Diagnostic.warning .unresolvedImport (.point 0) .start
    s!"`{name}` imported from \"{path}\" is not exported by any file"
    ).withNote s!"imported by {file}").withHelp Code.unresolvedImport.advice?

def unresolvedImports (results : List TaskResult) (table : SymbolTable) : List Diagnostic :=
  results.flatMap fun result =>
    result.imports.flatMap fun decl =>
      (decl.names.filter fun imported => !table.contains imported.name).map fun imported =>
        unresolvedImport result.path decl.path imported.name

end SceneLang
