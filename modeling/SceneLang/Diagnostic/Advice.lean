import SceneLang.Diagnostic
import SceneLang.Diagnostic.Vocabulary
import SceneLang.Text.Character

/-!
# Diagnostics with advice

The diagnostics whose candidates and fixes are worked out from the vocabularies, or from
the place of what is missing.  Unknown words are warnings, or errors where the vocabularies
are binding; an unknown geometry is always a warning.
-/

namespace SceneLang

/-! ## Similar words

The edit distance of two words, and the words of a vocabulary that are close to a given
one.
-/

/-- One row of the table of distances: from the distances of a text to the beginnings of
`b`, those of the same text with `c` behind it.  `left` is the entry just written. -/
def distanceRow (c : Char) (left : Nat) : List Char → List Nat → List Nat
  | d :: b, corner :: above :: row =>
      let entry := min (min (corner + if c = d then 0 else 1) (above + 1)) (left + 1)
      entry :: distanceRow c entry b (above :: row)
  | _, _ => []

/-- The next row of the table with its first entry. -/
def nextDistanceRow (b : List Char) (row : List Nat) (c : Char) : List Nat :=
  let first := row.headD 0 + 1
  first :: distanceRow c first b row

/-- The least number of insertions, deletions and substitutions of a character that turn
`a` into `b`. -/
def editDistance (a b : List Char) : Nat :=
  (a.foldl (nextDistanceRow b) (List.range (b.length + 1))).getLastD 0

/-- A word of a vocabulary and its distance from the word that was looked up. -/
structure Similar where
  text : String
  distance : Nat
deriving DecidableEq, Repr

/-- The words of a vocabulary within a distance of `word`, other than the word itself,
closest first.  Case does not count. -/
def findSimilar (word : String) (vocabulary : List String) (maxDistance limit : Nat) :
    List Similar :=
  let needle := Text.lower word.toList
  let found := vocabulary.filterMap fun candidate =>
    let distance := editDistance needle (Text.lower candidate.toList)
    if distance ≤ maxDistance ∧ candidate ≠ word then some ⟨candidate, distance⟩ else none
  (found.mergeSort fun a b => a.distance ≤ b.distance).take limit

/-- Up to three words at a distance of at most three. -/
def suggest (word : String) (vocabulary : List String) : List String :=
  (findSimilar word vocabulary 3 3).map (·.text)

end SceneLang

namespace SceneLang.Diagnostic

def wordSeverity (strict : Bool) : Severity :=
  if strict then .error else .warning

/-- Add candidates, each with a fix that puts it in place of the span. -/
def withCandidates (d : Diagnostic) (render : String → String) (candidates : List String) :
    Diagnostic :=
  candidates.foldl (fun d candidate =>
    (d.withSuggestion candidate).withFix
      ⟨s!"replace with '{candidate}'", d.span, d.position, render candidate⟩) d

theorem code_withCandidates (d : Diagnostic) (render : String → String)
    (candidates : List String) : (d.withCandidates render candidates).code = d.code := by
  rw [withCandidates]
  induction candidates generalizing d with
  | nil => rfl
  | cons candidate rest ih => exact ih _

/-- A trait that the language does not know; the span covers its name. -/
def unknownTrait (strict : Bool) (name : String) (span : Span) (position : Position) :
    Diagnostic :=
  (plain (wordSeverity strict) .unknownTrait span position s!"unknown trait '@{name}'"
    ).withCandidates id (suggest name Vocabulary.traits)

def unknownDirective (strict : Bool) (name : String) (span : Span) (position : Position) :
    Diagnostic :=
  (plain (wordSeverity strict) .unknownDirective span position s!"unknown directive '@{name}'"
    ).withCandidates id (suggest name (Vocabulary.directives ++ Vocabulary.traits))

def unknownKeyword (strict : Bool) (word : String) (span : Span) (position : Position) :
    Diagnostic :=
  (plain (wordSeverity strict) .unknownKeyword span position s!"unknown keyword '{word}'"
    ).withCandidates id (suggest word Vocabulary.elements)

/-- A geometry that the language does not know; the span covers the quoted literal. -/
def unknownGeometry (value : String) (span : Span) (position : Position) : Diagnostic :=
  (warning .unknownGeometry span position s!"unknown geometry '{value}'"
    ).withCandidates (fun candidate => "\"" ++ candidate ++ "\"")
      (suggest value Vocabulary.geometries)

/-- A fix that puts a correction in place of a word. -/
def correctionFix (word correction : String) (span : Span) (position : Position) : QuickFix :=
  ⟨s!"replace '{word}' with '{correction}'", span, position, correction⟩

def misspelledProperty? (key : String) (span : Span) (position : Position) :
    Option Diagnostic :=
  (Vocabulary.correction? key).map fun correction =>
    ((warning .unknownKeyword span position s!"unknown property '{key}'"
      ).withSuggestion correction).withFix (correctionFix key correction span position)

/-- A block without its closing brace, which belongs at the start of the span. -/
def missingBrace (place : Span) (position : Position) : Diagnostic :=
  ((error .missingBrace place position "expected '\x7d' to close block"
    ).withFix (.insertion "insert '\x7d'" place position "\x7d")
    ).withHelp (some "add `\x7d` to close the block")

/-- A property without a colon behind its name, which the span covers. -/
def missingColon (key : String) (span : Span) (position : Position) : Diagnostic :=
  (error .missingColon span position s!"expected ':' after property '{key}'"
    ).withFix (.insertion "insert ':'" (.point span.stop) position ":")

/-- A text without its closing quote; the span covers all of it. -/
def missingQuote (quote : Char) (span : Span) (position : Position) : Diagnostic :=
  (error .missingQuote span position "unterminated string literal"
    ).withFix (.insertion s!"insert {quote}" (.point span.stop) position (String.singleton quote))

end SceneLang.Diagnostic
