import SceneLang.Diagnostic.Failure
import SceneLang.Parser.Element
import SceneLang.Token.Stream

/-!
# Documents

A document is what is known of a text once it has been parsed: its tree, what is wrong with
it, the texts of its interpolations, what it imports and which features it makes use of.
-/

namespace SceneLang

structure Document where
  /-- No error was reported, not even one that the log dropped. -/
  success : Bool
  root : Node
  errors : List Diagnostic
  warnings : List Diagnostic
  expressions : Table String
  imports : List ImportDecl
  features : List Feature

namespace Parser

def skipLayout : Parser Unit :=
  skipUntil do return !(← currentKind).isLayout

def leadingTurn (held : Held) (placed : List PlacedDirective) :
    Parser (ForInStep (List PlacedDirective)) := do
  if ← check .at then
    let found ← held.directive true
    skipLayout
    return .yield (found.toList ++ placed)
  else return .done placed

def leadingDirectives (held : Held) : Parser (List PlacedDirective) := do
  return (← iterate [] (leadingTurn held)).reverse

def attachAll (node : Node) (placed : List PlacedDirective) : Parser Node :=
  placed.foldlM attach node

def strayToken : Parser Unit := do
  unexpected "at top level"
  if ← check .rightBrace then advance else synchronize

/-- Read an element of a text with the directives in front of it; `found` are the elements
read, in reverse, and the node that holds the directives that stand alone. -/
def topTurn (held : Held) (found : List Node × Node) :
    Parser (ForInStep (List Node × Node)) := do
  let (roots, loose) := found
  skipLayout
  let leading ← leadingDirectives held
  match ← currentKind with
  | .eof => return .done (roots, ← attachAll loose leading)
  | .identifier =>
      let node ← held.element
      return .yield (node.attachLeading (leading.map (·.directive)) :: roots, loose)
  | _ =>
      let loose ← attachAll loose leading
      strayToken
      return .yield (roots, loose)

/-- Read the elements of a text, in reverse, and add the directives that stand alone to
`loose`. -/
def topLevel (held : Held) (loose : Node) : Parser (List Node × Node) :=
  iterate ([], loose) (topTurn held)

/-- Read a whole text.  A single element is the root itself; several elements, or loose
directives, are held by a fragment. -/
def document : Parser Node := do
  let start ← startPosition
  let (roots, loose) ← topLevel (level ((← get).ahead.length + 1)) (.fragment [] default)
  let alone := loose.directives.isEmpty && loose.traits.isEmpty
  match roots with
  | [] => close loose start
  | last :: _ =>
      let first := roots.getLastD last
      match roots, alone with
      | [root], true => return root
      | _, _ => return { loose with children := roots.reverse, loc := first.loc.merge last.loc }

/-- The tokens of a text with one that marks the end.  If there is none it stands behind
the text. -/
def withEnd (source : List Char) (tokens : List Token) : List Token :=
  if tokens.getLast?.map Token.kind = some .eof then tokens
  else tokens ++ [⟨.eof, "", .point (Text.byteLength source), .start⟩]

/-- Read a list of tokens of a text: its tree, and the state at the end. -/
def run (options : ParseOptions) (source : List Char) (tokens : List Token) :
    Except Fault (Node × State) :=
  document ⟨source, options⟩ (.start options (withEnd source tokens))

end Parser

namespace Document

/-- The document of a tree and of the state at its end. -/
def ofState (root : Node) (state : Parser.State) : Document where
  success := !state.log.hasErrors
  root := root
  errors := state.log.errors
  warnings := state.log.warnings
  expressions := state.expressions
  imports := state.imports
  features := Feature.inOrder state.features

/-- What stands in for a document if the parse comes to no end. -/
def ofFault (options : ParseOptions) (fault : Parser.Fault) : Document where
  success := false
  root := .fragment [] default
  errors :=
    [(Failure.enrich options.strict ⟨"internal parser fault", .start, .point 0, none⟩
      ).withNote fault.message]
  warnings := []
  expressions := []
  imports := []
  features := []

/-- The document of a list of tokens of a text. -/
def ofTokens (options : ParseOptions) (source : List Char) (tokens : List Token) : Document :=
  match Parser.run options source tokens with
  | .ok (root, state) => ofState root state
  | .error fault => ofFault options fault

def parse (options : ParseOptions) (source : List Char) : Document :=
  ofTokens options source (tokenize source)

def diagnostics (document : Document) : List Diagnostic :=
  document.errors ++ document.warnings

end Document

end SceneLang
