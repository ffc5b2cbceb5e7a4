import SceneLang.Diagnostic.Advice
import SceneLang.Text.Words

/-!
# Failures told in words

A failure is a message from something that knows no codes.  It is classified by what its
message contains, and the text behind it is searched for common misspellings.
-/

namespace SceneLang

structure Failure where
  message : String
  position : Position
  /-- What the failure points at; the snippet starts where the span starts. -/
  span : Span
  snippet : Option String

namespace Failure

/-- The text between the first two quotes of one kind. -/
def quotedBy (quote : Char) (message : List Char) : Option (List Char) :=
  match message.dropWhile (· ≠ quote) with
  | [] => none
  | _ :: rest =>
      if rest.contains quote then some (rest.takeWhile (· ≠ quote)) else none

/-- What the message is about: a text in single or else in double quotes. -/
def subject (message : List Char) : List Char :=
  ((quotedBy '\'' message).or (quotedBy '"' message)).getD []

/-- The span of `size` bytes at an offset from the start of the snippet. -/
def spanAt (failure : Failure) (offset size : Nat) : Span :=
  let start := failure.span.start + offset
  ⟨start % wordCount, (start + size) % wordCount⟩

/-- A colon behind the first word, if the snippet starts with it. -/
def colonFix? (failure : Failure) (snippet : List Char) : Option QuickFix :=
  match Text.words snippet with
  | [] => none
  | (offset, key) :: _ =>
      if offset = Text.byteLength snippet - Text.byteLength (Text.trimStart snippet) then
        some (.insertion "insert ':'" (failure.spanAt (offset + Text.byteLength key) 0)
          failure.position ":")
      else none

/-- The quote that opens the first quoted text, at the end of the first line. -/
def quoteFix? (failure : Failure) (snippet : List Char) : Option QuickFix :=
  (snippet.find? fun c => c = '"' || c = '\'').map fun quote =>
    let line := Text.trimEnd (snippet.takeWhile (· ≠ '\n'))
    .insertion s!"insert {quote}" (failure.spanAt (Text.byteLength line) 0) failure.position
      (String.singleton quote)

/-- The code of a message that mentions nothing more specific. -/
def codeOf (mentions : String → Bool) : Code :=
  if mentions "duplicate" then .duplicateName
  else if mentions "required" then .missingRequired
  else if mentions "invalid value" then .invalidValue
  else if mentions "too deep" || mentions "nesting" then .nestingTooDeep
  else if mentions "unexpected" then .unexpectedToken
  else .syntaxError

def classify (strict : Bool) (failure : Failure) : Diagnostic :=
  let lowered := Text.lower failure.message.toList
  let mentions (words : String) : Bool := Text.contains words.toList lowered
  let named := subject failure.message.toList
  let name := String.ofList named
  let bare := String.ofList (named.dropWhile (· = '@'))
  let coded (code : Code) : Diagnostic :=
    .error code failure.span failure.position failure.message
  let withFix? (d : Diagnostic) (fix : Option QuickFix) : Diagnostic :=
    fix.elim d d.withFix
  let snippet := failure.snippet.map String.toList
  if mentions "unknown trait" then .unknownTrait strict bare failure.span failure.position
  else if mentions "unknown geometry" then .unknownGeometry name failure.span failure.position
  else if mentions "unknown keyword" || mentions "unknown element" then
    .unknownKeyword strict name failure.span failure.position
  else if mentions "unknown directive" then
    .unknownDirective strict bare failure.span failure.position
  else if mentions "'\x7d'" || mentions "brace" || mentions "unclosed" then
    .missingBrace (.point failure.span.stop) failure.position
  else if mentions "':'" || mentions "colon" then
    withFix? (coded .missingColon) (snippet.bind failure.colonFix?)
  else if mentions "unterminated" || mentions "quote" then
    withFix? (coded .missingQuote) (snippet.bind failure.quoteFix?)
  else coded (codeOf mentions)

/-- Add a candidate and a fix for every misspelt word of the snippet. -/
def correctWords (failure : Failure) (d : Diagnostic) : Diagnostic :=
  let words := Text.words ((failure.snippet.map String.toList).getD [])
  words.foldl (fun d entry =>
    let word := String.ofList entry.2
    match Vocabulary.correction? word with
    | none => d
    | some correction =>
        (d.withSuggestion correction).withFix
          (Diagnostic.correctionFix word correction
            (failure.spanAt entry.1 (Text.byteLength entry.2)) failure.position)) d

/-- The diagnostic of a failure, with corrections and with the advice that its code
has. -/
def enrich (strict : Bool) (failure : Failure) : Diagnostic :=
  let d := failure.correctWords (failure.classify strict)
  { d with help := d.help.or d.code.advice? }

end Failure

end SceneLang
