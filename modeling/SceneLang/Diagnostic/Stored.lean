import SceneLang.Diagnostic
import SceneLang.Node.Stored

/-!
# The stored form of diagnostics
-/

namespace SceneLang

namespace QuickFix

def toJson (fix : QuickFix) : Json :=
  .object [("title", .string fix.title), ("span", fix.span.toJson),
    ("line", .ofNat fix.position.line), ("column", .ofNat fix.position.column),
    ("replacement", .string fix.replacement)]

def ofJson? (stored : Json) : Option QuickFix := do
  match ← stored.record? ["title", "span", "line", "column", "replacement"] with
  | [title, span, line, column, replacement] =>
      return ⟨← title.required Json.asString?, ← span.required Span.ofJson?,
        ⟨← line.required (Json.asNat? wordCount), ← column.required (Json.asNat? wordCount)⟩,
        ← replacement.required Json.asString?⟩
  | _ => none

end QuickFix

namespace Label

def toJson (label : Label) : Json :=
  .object [("span", label.span.toJson), ("message", .string label.message)]

def ofJson? (stored : Json) : Option Label := do
  match ← stored.record? ["span", "message"] with
  | [span, message] =>
      return ⟨← span.required Span.ofJson?, ← message.required Json.asString?⟩
  | _ => none

end Label

namespace Diagnostic

def toJson (d : Diagnostic) : Json :=
  .object [("severity", .string d.severity.name), ("code", .string d.code.name),
    ("message", .string d.message), ("span", d.span.toJson),
    ("line", .ofNat d.position.line), ("column", .ofNat d.position.column),
    ("suggestions", .ofStrings d.suggestions), ("fixes", .ofList QuickFix.toJson d.fixes),
    ("labels", .ofList Label.toJson d.labels), ("notes", .ofStrings d.notes),
    ("help", .ofOptionString d.help)]

def ofJson? (stored : Json) : Option Diagnostic := do
  match ← stored.record? ["severity", "code", "message", "span", "line", "column",
    "suggestions", "fixes", "labels", "notes", "help"] with
  | [severity, code, message, span, line, column, suggestions, fixes, labels, notes, help] =>
      return {
        severity := ← severity.required fun s => (s.caseName? .direct).bind Severity.ofName?
        code := ← code.required fun s => (s.caseName? .direct).bind Code.ofName?
        message := ← message.required Json.asString?
        span := ← span.required Span.ofJson?
        position := ⟨← line.required (Json.asNat? wordCount),
          ← column.required (Json.asNat? wordCount)⟩
        suggestions := ← suggestions.required readStrings
        fixes := ← fixes.required (Json.asList? QuickFix.ofJson?)
        labels := ← labels.required (Json.asList? Label.ofJson?)
        notes := ← notes.required readStrings
        help := ← help.optional Json.asString? }
  | _ => none

end Diagnostic

end SceneLang
