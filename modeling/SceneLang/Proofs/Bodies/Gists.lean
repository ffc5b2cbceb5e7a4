import SceneLang.Document
import SceneLang.Parser.Element
import SceneLang.Proofs.Parser.Returns
import SceneLang.Proofs.Tree.Sketch
import SceneLang.Token.Stream

/-!
# What an outline is read as

An outline says what the elements of a text hold, and leaves open how the text is laid out: the
bodies of its elements are lines that are indented, or stand in braces.  Written either way it
has one item on each line.

A gist is what a parser has come to, but for places: the node it is at, what it has reported
and the features it has met.  An outline takes one gist to another, however it is laid out.
-/

namespace SceneLang

/-! ## Words and literals -/

/-- The lexeme that a text is as a whole. -/
def Lexeme.whole? : List Char → Option Lexeme
  | [] => none
  | c :: rest => (scan false c rest).filter (·.width = rest.length + 1)

/-- A text that is a single lexeme of one of some kinds. -/
structure Written (kinds : List TokenKind) where
  chars : List Char
  lexeme : Lexeme
  whole : Lexeme.whole? chars = some lexeme
  kind_mem : lexeme.kind ∈ kinds

/-- The text of the token. -/
def Written.text {kinds : List TokenKind} (written : Written kinds) : String :=
  String.ofList (written.lexeme.contents.getD written.chars)

namespace Outline

abbrev Key := Written [.identifier]

abbrev Quoted := Written [.string]

abbrev Atom := Written [.string, .number, .boolean, .null]

/-- A value without names, calls and the like, and the arrays of such values. -/
inductive Literal where
  | atom (atom : Atom)
  | array (items : List Literal)

/-- A word that introduces an element of the general grammar. -/
structure Keyword where
  word : String
  construct : Vocabulary.isConstruct word = true
  ne_logic : word ≠ "logic"
  ne_machine : word ≠ "state_machine"

mutual

inductive Item where
  | property (key : Key) (literal : Literal)
  | trait (name : String) (known : Vocabulary.isTrait name = true)
  | element (element : Element)

structure Element where
  keyword : Keyword
  name : Option Quoted
  items : List Item

end

/-! ## Nesting -/

namespace Literal

mutual

/-- How many levels of values there are. -/
def depth : Literal → Nat
  | .atom _ => 1
  | .array items => depthAll items + 1

def depthAll : List Literal → Nat
  | [] => 0
  | item :: rest => max item.depth (depthAll rest)

end

end Literal

mutual

/-- How many levels of elements and values there are. -/
def Item.depth : Item → Nat
  | .property _ literal => literal.depth
  | .trait _ _ => 0
  | .element element => element.depth

def Element.depth : Element → Nat
  | ⟨_, _, items⟩ => Item.depthAll items + 1

def Item.depthAll : List Item → Nat
  | [] => 0
  | item :: rest => max item.depth (Item.depthAll rest)

end

/-! ## Texts -/

/-- The blanks in front of the lines of each body.  A body is told by the place of its element
among its siblings, and those of the elements around it, the innermost first. -/
structure Margins where
  before : List Nat → List Char
  blank : ∀ path, ∀ c ∈ before path, c = ' ' ∨ c = '\t'
  outermost : before [] = []

/-- Every body is indented further than the one around it. -/
def Margins.Deepen (margins : Margins) : Prop :=
  ∀ path index, Scanner.indentation (margins.before path) <
    Scanner.indentation (margins.before (index :: path))

/-- Margins of a width that grows with each body. -/
def Margins.ofWidth (width : Nat) : Margins where
  before path := List.replicate (path.length * width) ' '
  blank _ _ hmem := .inl (List.eq_of_mem_replicate hmem)
  outermost := by rw [List.length_nil, Nat.zero_mul, List.replicate_zero]

theorem indentation_replicate (count : Nat) :
    Scanner.indentation (List.replicate count ' ') = count := by
  induction count with
  | zero => rfl
  | succ count ih => rw [List.replicate_succ, Scanner.indentation, if_pos rfl, ih]

theorem Margins.deepen_ofWidth {width : Nat} (h : 0 < width) : (ofWidth width).Deepen := by
  intro path index
  rw [ofWidth, indentation_replicate, indentation_replicate, List.length_cons, Nat.succ_mul]
  exact Nat.lt_add_of_pos_right h

inductive Style where
  | indented
  | braced
deriving DecidableEq, Repr

namespace Literal

mutual

def chars : Literal → List Char
  | .atom word => word.chars
  | .array [] => ['[', ']']
  | .array (item :: rest) => '[' :: (item.chars ++ charsBehind rest)

/-- What stands behind an item of an array, up to the closing bracket. -/
def charsBehind : List Literal → List Char
  | [] => [']']
  | item :: rest => [',', ' '] ++ item.chars ++ charsBehind rest

end

end Literal

def nameChars : Option Quoted → List Char
  | none => []
  | some name => ' ' :: name.chars

/-- The line of an element up to its body. -/
def headChars (keyword : Keyword) (name : Option Quoted) : List Char :=
  keyword.word.toList ++ nameChars name

section

variable (style : Style) (margins : Margins)

mutual

/-- The lines of an item of a body. -/
def Item.chars (path : List Nat) (index : Nat) : Item → List Char
  | .property key literal =>
      margins.before path ++ (key.chars ++ [':', ' '] ++ literal.chars ++ ['\n'])
  | .trait name _ => margins.before path ++ ('@' :: name.toList ++ ['\n'])
  | .element element => element.chars path index

def Element.chars (path : List Nat) (index : Nat) : Element → List Char
  | ⟨keyword, name, items⟩ =>
      margins.before path ++ (headChars keyword name ++
        match style with
        | .indented => '\n' :: Item.charsAll (index :: path) 0 items
        | .braced =>
            [' ', '\x7b', '\n'] ++ Item.charsAll (index :: path) 0 items ++
              margins.before path ++ ['\x7d', '\n'])

/-- The lines of the items of a body from a place in the body on. -/
def Item.charsAll (path : List Nat) (index : Nat) : List Item → List Char
  | [] => []
  | item :: rest => item.chars path index ++ Item.charsAll path (index + 1) rest

end

end

end Outline

/-- The elements of a text, one below the other. -/
abbrev Outline := List Outline.Element

namespace Outline

def depth (outline : Outline) : Nat :=
  Item.depthAll (outline.map .element)

def chars (style : Style) (margins : Margins) (outline : Outline) : List Char :=
  Item.charsAll style margins [] 0 (outline.map .element)

end Outline

/-! ## Reports without places -/

namespace Diagnostic

/-- What is wrong, but not where. -/
def unplaced (d : Diagnostic) : Diagnostic :=
  { d with
    span := default
    position := default
    fixes := d.fixes.map fun fix => { fix with span := default, position := default }
    labels := d.labels.map fun label => { label with span := default } }

theorem isError_unplaced (d : Diagnostic) : d.unplaced.isError = d.isError := rfl

theorem unplaced_withNote (d : Diagnostic) (note : String) :
    (d.withNote note).unplaced = d.unplaced.withNote note := rfl

theorem unplaced_withCandidates (d : Diagnostic) (render : String → String)
    (candidates : List String) :
    (d.withCandidates render candidates).unplaced =
      d.unplaced.withCandidates render candidates := by
  unfold withCandidates
  induction candidates generalizing d with
  | nil => rfl
  | cons candidate candidates ih =>
      rw [List.foldl_cons, List.foldl_cons, ih]
      congr 1
      simp only [withFix, withSuggestion, unplaced, List.map_append, List.map_cons, List.map_nil]

variable (strict : Bool) (word : String) (span : Span) (position : Position)

theorem unplaced_unknownTrait :
    (unknownTrait strict word span position).unplaced = unknownTrait strict word default default :=
  unplaced_withCandidates _ _ _

theorem unplaced_unknownGeometry :
    (unknownGeometry word span position).unplaced = unknownGeometry word default default :=
  unplaced_withCandidates _ _ _

theorem unplaced_misspelledProperty? :
    (misspelledProperty? word span position).map unplaced =
      misspelledProperty? word default default := by
  unfold misspelledProperty?
  rw [Option.map_map]
  rfl

end Diagnostic

namespace Log

def unplaced (log : Log) : Log :=
  { log with
    errors := log.errors.map Diagnostic.unplaced
    warnings := log.warnings.map Diagnostic.unplaced }

theorem unplaced_push (log : Log) (d : Diagnostic) :
    (log.push d).unplaced = log.unplaced.push d.unplaced := by
  simp only [push, Diagnostic.isError_unplaced]
  split
  · simp only [unplaced, List.length_map]
    split
    · rw [List.map_append]
      rfl
    · rfl
  · simp only [unplaced, List.length_map]
    split
    · rw [List.map_append]
      rfl
    · rfl

theorem hasErrors_unplaced (log : Log) : log.unplaced.hasErrors = log.hasErrors := by
  simp only [hasErrors, errorCount, unplaced, List.length_map]
  rfl

end Log

/-! ## Gists -/

structure Gist where
  node : Node
  log : Log
  features : List Feature

/-- What is wrong with the geometry that a property names, places apart. -/
def geometryReports (key : String) : Value → List Diagnostic
  | .string geometry =>
      if (key = "geometry" ∨ key = "shape") ∧ !Vocabulary.isGeometry geometry then
        [.unknownGeometry geometry default default]
      else []
  | _ => []

/-- What is wrong with a property, places apart. -/
def propertyReports (key : String) (value : Value) : List Diagnostic :=
  (Diagnostic.misspelledProperty? key default default).toList ++ geometryReports key value

namespace Gist

variable (gist : Gist)

def report (d : Diagnostic) : Gist :=
  { gist with log := gist.log.push d }

def use (feature : Feature) : Gist :=
  if gist.features.contains feature then gist
  else { gist with features := feature :: gist.features }

def property (key : String) (value : Value) : Gist :=
  { (propertyReports key value).foldl report gist with
    node := { gist.node with properties := gist.node.properties.insert key value } }

/-- A second trait of a name counts, and is reported. -/
def attachTrait (name : String) (directive : Directive) : Gist :=
  let noted :=
    if gist.node.hasTrait name then
      gist.report (.warning .duplicateName default default
        s!"trait '@{name}' is declared more than once; the last declaration wins")
    else gist
  { noted with node := gist.node.attach directive }

/-- The name of one trait is that of a directive as well, and is read as the directive. -/
def trait (options : ParseOptions) (name : String) : Gist :=
  if name = "state" then { gist with node := gist.node.attach (.state []) }
  else if options.traits then (gist.use .traits).attachTrait name (.trait name .empty)
  else
    let noted := gist.report
      ((Diagnostic.unknownTrait options.strict name default default).withNote
        "VR traits are disabled for this parse")
    if options.strict then noted else noted.attachTrait name (.generic name .empty)

def addChild (child : Gist) : Gist :=
  { child with node := { gist.node with children := gist.node.children ++ [child.node] } }

end Gist

namespace Outline

def atomValue (atom : Atom) : Value :=
  if atom.lexeme.kind = .string then .string atom.text
  else if atom.lexeme.kind = .number then .ofLiteral atom.text
  else if atom.lexeme.kind = .boolean then .bool (atom.text = "true")
  else .null

namespace Literal

mutual

def value : Literal → Value
  | .atom word => atomValue word
  | .array items => .array (values items)

def values : List Literal → List Value
  | [] => []
  | item :: rest => item.value :: values rest

end

end Literal

namespace Keyword

def kind (keyword : Keyword) : NodeKind :=
  if keyword.word = "template" then .template []
  else if keyword.word = "environment" then .environment
  else if Vocabulary.compositions.contains keyword.word then .composition keyword.word
  else .element keyword.word none

def note (keyword : Keyword) (gist : Gist) : Gist :=
  if keyword.word = "template" then gist.use .templates
  else if keyword.word = "environment" then gist.use .environment
  else gist

end Keyword

/-- The gist at the start of the body of an element. -/
def headed (keyword : Keyword) (name : Option Quoted) (gist : Gist) : Gist :=
  { keyword.note gist with
    node := { Node.ofKind keyword.kind default with name := name.map Written.text } }

section

variable (options : ParseOptions)

mutual

def Item.read (gist : Gist) : Item → Gist
  | .property key literal => gist.property key.text literal.value
  | .trait name _ => gist.trait options name
  | .element element => element.read gist

def Element.read (gist : Gist) : Element → Gist
  | ⟨keyword, name, items⟩ => gist.addChild (Item.readAll (headed keyword name gist) items)

def Item.readAll (gist : Gist) : List Item → Gist
  | [] => gist
  | item :: rest => Item.readAll (item.read gist) rest

end

end

end Outline

/-! ## What fits a gist -/

open SceneLang.Parser

namespace Gist

/-- Two gists, of which one has places, agree but for these and for whether lines have been
found to be indented. -/
structure Fits (gist : Gist) (node : Node) (state : State) : Prop where
  node : Resembles id node gist.node
  log : state.log.unplaced = gist.log
  features : state.features.filter (· ≠ .indentation) = gist.features

namespace Fits

variable {gist : Gist} {node : Node} {state : State} {context : Context}

/-- The rest of the state does not matter. -/
theorem of_eq {next : State} (h : gist.Fits node state) (hlog : next.log = state.log)
    (hfeatures : next.features = state.features) : gist.Fits node next :=
  ⟨h.node, by rw [hlog, h.log], by rw [hfeatures, h.features]⟩

theorem with_node {other : Node} {found : Node} (h : gist.Fits node state)
    (hnode : Resembles id other found) : { gist with node := found }.Fits other state :=
  ⟨hnode, h.log, h.features⟩

theorem report {d : Diagnostic} (h : gist.Fits node state) :
    (gist.report d.unplaced).Fits node { state with log := state.log.push d } :=
  ⟨h.node, by rw [Log.unplaced_push, h.log]; rfl, h.features⟩

theorem use {feature : Feature} (h : gist.Fits node state) (hfeature : feature ≠ .indentation)
    {post : Unit → State → Prop}
    (hpost : ∀ features, (gist.use feature).Fits node { state with features := features } →
      post () { state with features := features }) :
    Returns (Parser.use feature) context state post := by
  have hmem : feature ∈ gist.features ↔ feature ∈ state.features := by
    simp [← h.features, hfeature]
  apply returns_modify.mpr
  by_cases hknown : feature ∈ state.features
  · have hfits : (gist.use feature).Fits node state := by
      rw [Gist.use, if_pos (List.contains_iff_mem.mpr (hmem.mpr hknown))]
      exact h
    rw [if_pos (List.contains_iff_mem.mpr hknown)]
    exact hpost state.features hfits
  · rw [if_neg fun hcontains => hknown (List.contains_iff_mem.mp hcontains)]
    apply hpost
    rw [Gist.use, if_neg fun hcontains => hknown (hmem.mp (List.contains_iff_mem.mp hcontains))]
    refine ⟨h.node, h.log, ?_⟩
    rw [← h.features]
    exact List.filter_cons_of_pos (by simp [hfeature])

/-- Indented lines leave no trace in a gist. -/
theorem use_indentation (h : gist.Fits node state) {post : Unit → State → Prop}
    (hpost : ∀ features, gist.Fits node { state with features := features } →
      post () { state with features := features }) :
    Returns (Parser.use .indentation) context state post := by
  apply returns_modify.mpr
  split
  · exact hpost state.features h
  · apply hpost
    refine ⟨h.node, h.log, ?_⟩
    rw [← h.features]
    exact List.filter_cons_of_neg (by simp)

end Fits

end Gist

end SceneLang
