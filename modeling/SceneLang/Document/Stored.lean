import SceneLang.Diagnostic.Stored
import SceneLang.Document
import SceneLang.Node.Stored

/-!
# The stored form of documents
-/

namespace SceneLang.Document

def toJson (document : Document) : Json :=
  .object [("success", .bool document.success), ("ast", document.root.toJson),
    ("diagnostics", .ofList Diagnostic.toJson document.errors),
    ("warnings", .ofList Diagnostic.toJson document.warnings),
    ("compiled_expressions", Table.toJson .string document.expressions),
    ("imports", .ofList ImportDecl.toJson document.imports),
    ("features", .ofList (fun feature => .string feature.name) document.features)]

end SceneLang.Document
