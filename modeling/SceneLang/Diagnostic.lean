import SceneLang.Text.Position

/-!
# Diagnostics

A diagnostic says what is wrong and where, and may carry candidates for what was meant,
edits that repair the text, further places, notes and a line of help.
-/

namespace SceneLang

/-! ## Codes and severities

Every diagnostic has a code, which says what kind of thing is wrong, and a severity.
-/

inductive Severity where
  | error
  | warning
  | note
deriving DecidableEq, Repr

namespace Severity

def name : Severity → String
  | .error => "error"
  | .warning => "warning"
  | .note => "note"

def ofName? (name : String) : Option Severity :=
  [error, warning, note].find? (·.name = name)

end Severity

inductive Code where
  | missingBrace
  | missingColon
  | missingQuote
  | unexpectedToken
  | syntaxError
  | nestingTooDeep
  | unknownKeyword
  | unknownTrait
  | unknownGeometry
  | unknownDirective
  | traitConflict
  | traitRequires
  | invalidValue
  | duplicateName
  | missingRequired
  | unresolvedImport
  | workerFailure
  | taskTimeout
deriving DecidableEq, Repr

namespace Code

def all : List Code :=
  [.missingBrace, .missingColon, .missingQuote, .unexpectedToken, .syntaxError, .nestingTooDeep,
   .unknownKeyword, .unknownTrait, .unknownGeometry, .unknownDirective, .traitConflict,
   .traitRequires, .invalidValue, .duplicateName, .missingRequired, .unresolvedImport,
   .workerFailure, .taskTimeout]

def number : Code → String
  | .missingBrace => "E0100"
  | .missingColon => "E0101"
  | .missingQuote => "E0102"
  | .unexpectedToken => "E0103"
  | .syntaxError => "E0104"
  | .nestingTooDeep => "E0105"
  | .unknownKeyword => "E0200"
  | .unknownTrait => "E0201"
  | .unknownGeometry => "E0202"
  | .unknownDirective => "E0203"
  | .traitConflict => "E0300"
  | .traitRequires => "E0301"
  | .invalidValue => "E0302"
  | .duplicateName => "E0303"
  | .missingRequired => "E0304"
  | .unresolvedImport => "E0400"
  | .workerFailure => "E0401"
  | .taskTimeout => "E0402"

def name : Code → String
  | .missingBrace => "missing-brace"
  | .missingColon => "missing-colon"
  | .missingQuote => "missing-quote"
  | .unexpectedToken => "unexpected-token"
  | .syntaxError => "syntax-error"
  | .nestingTooDeep => "nesting-too-deep"
  | .unknownKeyword => "unknown-keyword"
  | .unknownTrait => "unknown-trait"
  | .unknownGeometry => "unknown-geometry"
  | .unknownDirective => "unknown-directive"
  | .traitConflict => "trait-conflict"
  | .traitRequires => "trait-requires"
  | .invalidValue => "invalid-value"
  | .duplicateName => "duplicate-name"
  | .missingRequired => "missing-required"
  | .unresolvedImport => "unresolved-import"
  | .workerFailure => "worker-failure"
  | .taskTimeout => "task-timeout"

def ofName? (name : String) : Option Code :=
  all.find? (·.name = name)

/-- Is the structure of the text at fault, so that the parser has to find its way back? -/
def isStructural : Code → Bool
  | .missingBrace | .missingColon | .missingQuote | .unexpectedToken | .syntaxError
  | .nestingTooDeep => true
  | _ => false

def description : Code → String
  | .missingBrace => "missing closing brace"
  | .missingColon => "missing colon between property name and value"
  | .missingQuote => "string literal is not terminated"
  | .unexpectedToken => "unexpected token"
  | .syntaxError => "syntax error"
  | .nestingTooDeep => "nesting exceeds the maximum depth"
  | .unknownKeyword => "unknown keyword"
  | .unknownTrait => "unknown trait"
  | .unknownGeometry => "unknown geometry"
  | .unknownDirective => "unknown directive"
  | .traitConflict => "conflicting traits on the same element"
  | .traitRequires => "trait requires another trait"
  | .invalidValue => "invalid value"
  | .duplicateName => "duplicate name"
  | .missingRequired => "missing required declaration"
  | .unresolvedImport => "imported symbol is not exported by any file"
  | .workerFailure => "worker failed while parsing"
  | .taskTimeout => "parse task timed out"

/-- What to do about it, for the codes where that can be said in general. -/
def advice? : Code → Option String
  | .missingBrace => some "add `\x7d` to close the block"
  | .missingColon => some "add `:` between the property name and its value"
  | .missingQuote => some "add a closing quote to terminate the string"
  | .nestingTooDeep => some "flatten the structure or split it into templates"
  | .unknownTrait => some "check the trait name against the known trait list"
  | .unknownGeometry => some "use a built-in geometry or a `model/` path"
  | .unresolvedImport => some "check that the imported file exports this name"
  | _ => none

end Code

/-- An edit that repairs the text: its span is replaced.  An empty span is an insertion. -/
structure QuickFix where
  title : String
  span : Span
  position : Position
  replacement : String
deriving DecidableEq, Repr

namespace QuickFix

def insertion (title : String) (place : Span) (position : Position) (text : String) : QuickFix :=
  ⟨title, .point place.start, position, text⟩

def isInsertion (fix : QuickFix) : Bool :=
  fix.span.isEmpty

def relocate (lines bytes : Nat) (fix : QuickFix) : QuickFix :=
  { fix with span := fix.span.shift bytes, position := fix.position.down lines }

end QuickFix

/-- A place in the text with a remark. -/
structure Label where
  span : Span
  message : String
deriving DecidableEq, Repr

structure Diagnostic where
  severity : Severity
  code : Code
  message : String
  span : Span
  position : Position
  /-- Candidates for what was meant, best first. -/
  suggestions : List String
  fixes : List QuickFix
  labels : List Label
  notes : List String
  help : Option String
deriving DecidableEq, Repr

namespace Diagnostic

/-- A diagnostic without anything added to it. -/
def plain (severity : Severity) (code : Code) (span : Span) (position : Position)
    (message : String) : Diagnostic :=
  ⟨severity, code, message, span, position, [], [], [], [], none⟩

def error (code : Code) (span : Span) (position : Position) (message : String) : Diagnostic :=
  plain .error code span position message

def warning (code : Code) (span : Span) (position : Position) (message : String) : Diagnostic :=
  plain .warning code span position message

def withSuggestion (d : Diagnostic) (suggestion : String) : Diagnostic :=
  { d with suggestions := d.suggestions ++ [suggestion] }

def withFix (d : Diagnostic) (fix : QuickFix) : Diagnostic :=
  { d with fixes := d.fixes ++ [fix] }

def withLabel (d : Diagnostic) (span : Span) (message : String) : Diagnostic :=
  { d with labels := d.labels ++ [⟨span, message⟩] }

def withNote (d : Diagnostic) (note : String) : Diagnostic :=
  { d with notes := d.notes ++ [note] }

def withHelp (d : Diagnostic) (help : Option String) : Diagnostic :=
  { d with help := help.or d.help }

def isError (d : Diagnostic) : Bool :=
  d.severity = .error

/-- The diagnostic `lines` lines and `bytes` bytes further on, with all that it points
at. -/
def relocate (lines bytes : Nat) (d : Diagnostic) : Diagnostic :=
  { d with
    position := d.position.down lines
    span := d.span.shift bytes
    labels := d.labels.map fun label => { label with span := label.span.shift bytes }
    fixes := d.fixes.map (QuickFix.relocate lines bytes) }

def text (d : Diagnostic) : String :=
  let candidates :=
    if d.suggestions.isEmpty then ""
    else " (did you mean " ++ String.intercalate ", " d.suggestions ++ "?)"
  s!"{d.position.text}: {d.severity.name}[{d.code.name}]: {d.message}" ++ candidates

end Diagnostic

end SceneLang
