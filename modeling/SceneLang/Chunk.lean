import SceneLang.Names
import SceneLang.Text.Slice
import SceneLang.Token.Stream

/-!
# Chunks

A chunk is a stretch of whole lines at the top level of a text: an element with the
directives written before it.  It starts at the beginning of a line, outside braces and
indentation.  Chunks are found on the tokens alone, so that a text can be cut without being
parsed.
-/

namespace SceneLang

structure Chunk where
  /-- Tells the chunks of a text apart, and stays the same when other chunks change. -/
  id : String
  /-- The keyword of the element, or `directive` if there is none. -/
  kind : String
  name : Option String
  content : List Char
  startLine : Nat
  endLine : Nat
  startOffset : Nat
  /-- The names that occur in the chunk, its own apart. -/
  references : Names
deriving DecidableEq

namespace Chunk

/-- Does the chunk mention a name other than as its own? -/
def refersTo (chunk : Chunk) (name : String) : Bool :=
  chunk.references.contains name

/-! ## Cutting a list of tokens -/

/-- The state of the cut behind some tokens. -/
structure Cutter where
  braceDepth : Nat
  indentDepth : Nat
  /-- The tokens of the chunk at hand up to its last one that is no layout, in reverse. -/
  current : List Token
  /-- The layout behind them, in reverse. -/
  layout : List Token
  /-- The chunk at hand has the keyword of an element. -/
  hasElement : Bool
  /-- A line has ended at the top level since the last token that is no layout. -/
  itemEnded : Bool
  lastLine : Nat
  /-- The finished chunks, in reverse. -/
  finished : List (List Token)

namespace Cutter

def start : Cutter where
  braceDepth := 0
  indentDepth := 0
  current := []
  layout := []
  hasElement := false
  itemEnded := false
  lastLine := 0
  finished := []

def atTop (cutter : Cutter) : Bool :=
  cutter.braceDepth = 0 && cutter.indentDepth = 0

def takeLayout (cutter : Cutter) (token : Token) : Cutter :=
  let indentDepth :=
    match token.kind with
    | .indent => cutter.indentDepth + 1
    | .dedent => cutter.indentDepth - 1
    | _ => cutter.indentDepth
  let ends := token.kind ≠ .indent && cutter.braceDepth = 0 && indentDepth = 0
  { cutter with
    indentDepth := indentDepth
    layout := token :: cutter.layout
    itemEnded := cutter.itemEnded || ends }

def takeToken (cutter : Cutter) (token : Token) : Cutter :=
  let startsChunk := cutter.atTop && cutter.itemEnded && cutter.hasElement
  let startsElement :=
    cutter.atTop && token.line ≠ cutter.lastLine && token.kind = .identifier
  let braceDepth :=
    match token.kind with
    | .leftBrace => cutter.braceDepth + 1
    | .rightBrace => cutter.braceDepth - 1
    | _ => cutter.braceDepth
  { cutter with
    braceDepth := braceDepth
    current :=
      if startsChunk || cutter.current.isEmpty then [token]
      else token :: (cutter.layout ++ cutter.current)
    layout := []
    hasElement := startsElement || (cutter.hasElement && !startsChunk)
    itemEnded := false
    lastLine := token.line
    finished :=
      if startsChunk then cutter.current.reverse :: cutter.finished else cutter.finished }

def take (cutter : Cutter) (token : Token) : Cutter :=
  if token.kind.isLayout then cutter.takeLayout token else cutter.takeToken token

def chunks (cutter : Cutter) : List (List Token) :=
  if cutter.current.isEmpty then cutter.finished.reverse
  else (cutter.current.reverse :: cutter.finished).reverse

end Cutter

/-- The tokens of each chunk, from its first one to its last one that is no layout. -/
def cut (tokens : List Token) : List (List Token) :=
  ((tokens.takeWhile (·.kind ≠ .eof)).foldl Cutter.take .start).chunks

/-! ## The element of a chunk -/

/-- The index of the keyword of the element: the first word that starts a line outside
brackets, or the one behind it if that is `export`. -/
def keywordIndex? (depth lastLine index : Nat) : List Token → Option Nat
  | [] => none
  | token :: rest =>
      if token.kind.isLayout then keywordIndex? depth lastLine (index + 1) rest
      else
        match token.kind with
        | .leftBrace | .leftParen | .leftBracket =>
            keywordIndex? (depth + 1) token.line (index + 1) rest
        | .rightBrace | .rightParen | .rightBracket =>
            keywordIndex? (depth - 1) token.line (index + 1) rest
        | .identifier =>
            if depth = 0 ∧ token.line ≠ lastLine then
              let declares := (rest.head?.map Token.kind) = some .identifier
              some (if token.isWord "export" && declares then index + 1 else index)
            else keywordIndex? depth token.line (index + 1) rest
        | _ => keywordIndex? depth token.line (index + 1) rest

def nameBehind? : List Token → Option String
  | ⟨.string, text, _, _⟩ :: _ | ⟨.unterminatedString, text, _, _⟩ :: _ => some text
  | ⟨.identifier, text, _, _⟩ :: _ => if text = "using" then none else some text
  | ⟨.hash, _, _, _⟩ :: ⟨.identifier, text, _, _⟩ :: _ => some text
  | _ => none

/-- The keyword and the name of the element of a chunk. -/
def heading (tokens : List Token) : String × Option String :=
  match keywordIndex? 0 0 0 tokens with
  | none => ("directive", none)
  | some index =>
      match tokens.drop index with
      | [] => ("directive", none)
      | keyword :: rest => (keyword.text, nameBehind? rest)

/-- The names in some tokens: words that are not the chunk's own, and texts behind
`using`.  `keyword` is the index of the keyword, `index` that of the first token, and
`afterUsing` tells what stands before it. -/
def referencesFrom (keyword : Option Nat) (name : Option String) (index : Nat)
    (afterUsing : Bool) : List Token → List String
  | [] => []
  | token :: rest =>
      let own := some index = keyword ||
        (some (index + 1) = keyword && token.isWord "export") || name = some token.text
      let found :=
        (token.kind = .identifier && !own) || (token.kind = .string && afterUsing)
      let more := referencesFrom keyword name (index + 1) (token.isWord "using") rest
      if found then token.text :: more else more

/-! ## Chunks of a text -/

/-- The byte offset at which the line of an offset starts. -/
def lineStart (source : List Char) (offset : Nat) : Nat :=
  match Text.cut? offset source with
  | none => 0
  | some (front, _) => offset - Text.byteLength (front.reverse.takeWhile (· ≠ '\n'))

/-- The identifier of a chunk before repetitions are told apart. -/
def baseId (index : Nat) (heading : String × Option String) : String :=
  match heading with
  | (kind, some name) => s!"{kind}:{name}"
  | (kind, none) => s!"{kind}:#{index}"

/-- The chunk of a list of tokens; `before` holds the base identifiers of the chunks before
it. -/
def ofTokens (source : List Char) (before : List String) (tokens : List Token) : Chunk :=
  let (kind, name) := heading tokens
  let base := baseId before.length (kind, name)
  let count := before.count base
  let start := lineStart source ((tokens.head?.map (·.span.start)).getD 0)
  { id := if count = 0 then base else s!"{base}~{count}"
    kind := kind
    name := name
    content := Text.slice source start ((tokens.getLast?.map (·.span.stop)).getD 0)
    startLine := (tokens.head?.map Token.line).getD 0
    endLine := (tokens.getLast?.map Token.line).getD 0
    startOffset := start
    references := .ofList (referencesFrom (keywordIndex? 0 0 0 tokens) name 0 false tokens) }

def ofTokenLists (source : List Char) (before : List String) : List (List Token) → List Chunk
  | [] => []
  | tokens :: rest =>
      ofTokens source before tokens ::
        ofTokenLists source (before ++ [baseId before.length (heading tokens)]) rest

def detect (source : List Char) : List Chunk :=
  ofTokenLists source [] (cut (tokenize source))

end Chunk

end SceneLang
