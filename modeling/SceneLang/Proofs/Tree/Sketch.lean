import SceneLang.Parser.Element
import Mathlib.Data.List.Basic

/-!
# Trees without places

A sketch of a tree leaves out where things are written, and tells texts that are kept as they
are written only up to a map of texts.  What holds neither places nor such texts is its own
sketch.
-/

namespace SceneLang

class Sketched (α : Type) where
  sketch : (String → String) → α → α

open Sketched (sketch)

/-- What is its own sketch. -/
class Bare (α : Type) [Sketched α] : Prop where
  sketch_eq : ∀ (text : String → String) (a : α), sketch text a = a

open Bare (sketch_eq)

/-! ## Plain data -/

section

variable {α β : Type} [Sketched α] [Sketched β]

instance : Sketched Unit := ⟨fun _ a => a⟩
instance : Sketched Bool := ⟨fun _ a => a⟩
instance : Sketched Nat := ⟨fun _ a => a⟩
instance : Sketched String := ⟨fun _ a => a⟩
instance : Sketched TokenKind := ⟨fun _ a => a⟩
instance : Sketched UnaryOp := ⟨fun _ a => a⟩
instance : Sketched ArrowParam := ⟨fun _ a => a⟩
instance : Sketched ImportName := ⟨fun _ a => a⟩
instance : Sketched ImportDecl := ⟨fun _ a => a⟩
instance : Sketched Transition := ⟨fun _ a => a⟩

instance : Bare Unit := ⟨fun _ _ => rfl⟩
instance : Bare Bool := ⟨fun _ _ => rfl⟩
instance : Bare Nat := ⟨fun _ _ => rfl⟩
instance : Bare String := ⟨fun _ _ => rfl⟩
instance : Bare TokenKind := ⟨fun _ _ => rfl⟩
instance : Bare UnaryOp := ⟨fun _ _ => rfl⟩
instance : Bare ArrowParam := ⟨fun _ _ => rfl⟩
instance : Bare ImportName := ⟨fun _ _ => rfl⟩
instance : Bare ImportDecl := ⟨fun _ _ => rfl⟩
instance : Bare Transition := ⟨fun _ _ => rfl⟩

instance : Sketched (List α) := ⟨fun text => List.map (sketch text)⟩
instance : Sketched (Option α) := ⟨fun text => Option.map (sketch text)⟩
instance : Sketched (α × β) := ⟨fun text a => (sketch text a.1, sketch text a.2)⟩

instance : Sketched (ForInStep α) where
  sketch text
    | .done a => .done (sketch text a)
    | .yield a => .yield (sketch text a)

instance [Bare α] : Bare (List α) where
  sketch_eq text list := by
    have hsketch : (sketch text : α → α) = id := funext (sketch_eq text)
    change List.map (sketch text) list = list
    rw [hsketch, List.map_id]

instance [Bare α] : Bare (Option α) where
  sketch_eq text found := by
    cases found with
    | none => rfl
    | some a => exact congrArg some (sketch_eq text a)

end

/-! ## Values -/

namespace Value

mutual

/-- The value with the bodies of its functions as the map tells them. -/
def sketch (text : String → String) : Value → Value
  | .array items => .array (sketchItems text items)
  | .object entries => .object (sketchEntries text entries)
  | .binary op left right => .binary op (left.sketch text) (right.sketch text)
  | .unary op operand => .unary op (operand.sketch text)
  | .ternary condition thenBranch elseBranch =>
      .ternary (condition.sketch text) (thenBranch.sketch text) (elseBranch.sketch text)
  | .spread inner => .spread (inner.sketch text)
  | .call callee args => .call (callee.sketch text) (sketchItems text args)
  | .member target property => .member (target.sketch text) property
  | .index target key => .index (target.sketch text) (key.sketch text)
  | .arrow params body => .arrow params (sketchBody text body)
  | .string contents => .string contents
  | .number value unit raw => .number value unit raw
  | .bool value => .bool value
  | .null => .null
  | .reference name => .reference name
  | .interpolation id expression => .interpolation id expression

def sketchItems (text : String → String) : List Value → List Value
  | [] => []
  | item :: rest => item.sketch text :: sketchItems text rest

def sketchEntries (text : String → String) : List ObjectEntry → List ObjectEntry
  | [] => []
  | .field key value :: rest => .field key (value.sketch text) :: sketchEntries text rest
  | .spread value :: rest => .spread (value.sketch text) :: sketchEntries text rest

def sketchBody (text : String → String) : ArrowBody → ArrowBody
  | .expr value => .expr (value.sketch text)
  | .block body => .block (text body)

end

end Value

instance : Sketched Value := ⟨Value.sketch⟩

instance : Sketched ObjectEntry where
  sketch text
    | .field key value => .field key (sketch text value)
    | .spread value => .spread (sketch text value)

namespace Value

theorem sketchItems_eq (text : String → String) (items : List Value) :
    sketchItems text items = Sketched.sketch text items := by
  induction items with
  | nil => rfl
  | cons item rest ih => exact congrArg (item.sketch text :: ·) ih

theorem sketchEntries_eq (text : String → String) (entries : List ObjectEntry) :
    sketchEntries text entries = Sketched.sketch text entries := by
  induction entries with
  | nil => rfl
  | cons entry rest ih => cases entry <;> exact congrArg (_ :: ·) ih

end Value

/-! ## Nodes -/

instance : Sketched TraitConfig :=
  ⟨fun text config => ⟨sketch text config.args, sketch text config.config⟩⟩

instance : Sketched LogicFunction :=
  ⟨fun text function => { function with body := text function.body }⟩

instance : Sketched EventHandler :=
  ⟨fun text handler => { handler with body := text handler.body }⟩

instance : Sketched LogicBlock where
  sketch text block :=
    ⟨sketch text block.functions, sketch text block.handlers, sketch text block.values⟩

instance : Sketched MachineState where
  sketch text state :=
    { state with
      onEntry := state.onEntry.map text
      onExit := state.onExit.map text
      properties := sketch text state.properties }

instance : Sketched StateMachine :=
  ⟨fun text machine => { machine with states := sketch text machine.states }⟩

instance : Sketched NodeKind where
  sketch text
    | .logic block => .logic (sketch text block)
    | .stateMachine machine => .stateMachine (sketch text machine)
    | .function params body => .function params (text body)
    | kind => kind

mutual

def Node.sketch (text : String → String) : Node → Node
  | ⟨kind, name, id, children, properties, spreads, directives, traits, exported, _⟩ =>
      ⟨Sketched.sketch text kind, name, id, Node.sketchAll text children,
        Sketched.sketch text properties, Sketched.sketch text spreads,
        Directive.sketchAll text directives, Sketched.sketch text traits, exported, default⟩

def Node.sketchAll (text : String → String) : List Node → List Node
  | [] => []
  | node :: rest => node.sketch text :: Node.sketchAll text rest

def Directive.sketch (text : String → String) : Directive → Directive
  | .trait name config => .trait name (Sketched.sketch text config)
  | .generic name config => .generic name (Sketched.sketch text config)
  | .lifecycle hook params body => .lifecycle hook params (text body)
  | .state properties => .state (Sketched.sketch text properties)
  | .bindings table => .bindings (Sketched.sketch text table)
  | .loop form item iterable body =>
      .loop form item (text iterable) (Node.sketchAll text body)
  | .whileLoop condition body => .whileLoop (text condition) (Node.sketchAll text body)
  | .conditional condition body none =>
      .conditional (text condition) (Node.sketchAll text body) none
  | .conditional condition body (some elseBody) =>
      .conditional (text condition) (Node.sketchAll text body)
        (some (Node.sketchAll text elseBody))
  | .imports decl => .imports decl
  | .setting which config => .setting which (Sketched.sketch text config)
  | .topic which subject config => .topic which subject (Sketched.sketch text config)

def Directive.sketchAll (text : String → String) : List Directive → List Directive
  | [] => []
  | directive :: rest => directive.sketch text :: Directive.sketchAll text rest

end

instance : Sketched Node := ⟨Node.sketch⟩
instance : Sketched Directive := ⟨Directive.sketch⟩

theorem Node.sketchAll_eq (text : String → String) (nodes : List Node) :
    Node.sketchAll text nodes = Sketched.sketch text nodes := by
  induction nodes with
  | nil => rfl
  | cons node rest ih => exact congrArg (node.sketch text :: ·) ih

theorem Directive.sketchAll_eq (text : String → String) (directives : List Directive) :
    Directive.sketchAll text directives = Sketched.sketch text directives := by
  induction directives with
  | nil => rfl
  | cons directive rest ih => exact congrArg (directive.sketch text :: ·) ih

/-- The fields of a sketch. -/
theorem Node.sketch_eq (text : String → String) (node : Node) :
    Sketched.sketch text node =
      { kind := Sketched.sketch text node.kind
        name := node.name
        id := node.id
        children := Sketched.sketch text node.children
        properties := Sketched.sketch text node.properties
        spreads := Sketched.sketch text node.spreads
        directives := Sketched.sketch text node.directives
        traits := Sketched.sketch text node.traits
        exported := node.exported
        loc := default } := by
  obtain ⟨kind, name, id, children, properties, spreads, directives, traits, exported, loc⟩ := node
  rw [← sketchAll_eq, ← Directive.sketchAll_eq]
  rfl

instance : Sketched PlacedDirective :=
  ⟨fun text placed => ⟨sketch text placed.directive, default, default⟩⟩

/-! ## Tables and lists -/

section

variable {α : Type} [Sketched α] (text : String → String)

theorem sketch_insert (key : String) (value : α) (table : Table α) :
    sketch text (table.insert key value) =
      Table.insert key (sketch text value) (sketch text table) := by
  induction table with
  | nil => rfl
  | cons entry rest ih =>
      have hcons (first : String × α) (list : Table α) :
          sketch text (first :: list) = (first.1, sketch text first.2) :: sketch text list := rfl
      rw [hcons, Table.insert, Table.insert]
      split
      · rfl
      split
      · rfl
      · rw [hcons, ih]

theorem sketch_append (front back : List α) :
    sketch text (front ++ back) = sketch text front ++ sketch text back :=
  List.map_append

theorem sketch_reverse (list : List α) :
    sketch text list.reverse = (sketch text list).reverse :=
  List.map_reverse

theorem find?_sketch (key : String) (table : Table α) :
    Table.find? key (sketch text table) = sketch text (Table.find? key table) := by
  induction table with
  | nil => rfl
  | cons entry rest ih =>
      change Table.find? key ((entry.1, sketch text entry.2) :: sketch text rest) = _
      rw [Table.find?, Table.find?, ih]
      split <;> rfl

theorem contains_sketch (key : String) (table : Table α) :
    Table.contains (sketch text table) key = Table.contains table key := by
  rw [Table.contains, Table.contains, find?_sketch]
  cases Table.find? key table <;> rfl

theorem sketch_insertIfNew (key : String) (value : α) (table : Table α) :
    sketch text (table.insertIfNew key value) =
      Table.insertIfNew key (sketch text value) (sketch text table) := by
  rw [Table.insertIfNew, Table.insertIfNew, contains_sketch, ← sketch_insert]
  split <;> rfl

theorem isEmpty_sketch (list : List α) : (sketch text list).isEmpty = list.isEmpty :=
  List.isEmpty_map

end

/-! ## The size of a tree -/

mutual

theorem Node.count_sketch (text : String → String) (node : Node) :
    (node.sketch text).count = node.count := by
  obtain ⟨kind, name, id, children, properties, spreads, directives, traits, exported, loc⟩ := node
  simp only [Node.sketch, Node.count, Directive.countAll_sketch text directives,
    Node.countAll_sketch text children]

theorem Node.countAll_sketch (text : String → String) (nodes : List Node) :
    Node.countAll (Node.sketchAll text nodes) = Node.countAll nodes := by
  match nodes with
  | [] => rfl
  | node :: rest =>
      simp only [Node.sketchAll, Node.countAll, Node.count_sketch text node,
        Node.countAll_sketch text rest]

theorem Directive.count_sketch (text : String → String) (directive : Directive) :
    (directive.sketch text).count = directive.count := by
  match directive with
  | .loop _ _ _ body => exact Node.countAll_sketch text body
  | .whileLoop _ body => exact Node.countAll_sketch text body
  | .conditional _ body none => exact Node.countAll_sketch text body
  | .conditional _ body (some elseBody) =>
      simp only [Directive.sketch, Directive.count, Node.countAll_sketch text body,
        Node.countAll_sketch text elseBody]
  | .trait _ _ | .generic _ _ | .lifecycle _ _ _ | .state _ | .bindings _ | .imports _
  | .setting _ _ | .topic _ _ _ => rfl

theorem Directive.countAll_sketch (text : String → String) (directives : List Directive) :
    Directive.countAll (Directive.sketchAll text directives) = Directive.countAll directives := by
  match directives with
  | [] => rfl
  | directive :: rest =>
      simp only [Directive.sketchAll, Directive.countAll, Directive.count_sketch text directive,
        Directive.countAll_sketch text rest]

end

/-! ## Nodes with the same sketch -/

/-- The two look the same but for places and for texts that the map does not tell apart. -/
def Resembles {α : Type} [Sketched α] (text : String → String) (a b : α) : Prop :=
  sketch text a = sketch text b

namespace Resembles

variable {α : Type} [Sketched α] {text : String → String}

@[refl] theorem refl (a : α) : Resembles text a a := Eq.refl _

theorem symm {a b : α} (h : Resembles text a b) : Resembles text b a := Eq.symm h

theorem trans {a b c : α} (h : Resembles text a b) (h' : Resembles text b c) :
    Resembles text a c := Eq.trans h h'

theorem eq [Bare α] {a b : α} (h : Resembles text a b) : a = b := by
  rw [Resembles, sketch_eq, sketch_eq] at h
  exact h

theorem insert {key : String} {value value' : α} {table table' : Table α}
    (htable : Resembles text table table') (hvalue : Resembles text value value') :
    Resembles text (table.insert key value) (table'.insert key value') := by
  rw [Resembles, sketch_insert, sketch_insert, htable, hvalue]

theorem append {front front' back back' : List α} (hfront : Resembles text front front')
    (hback : Resembles text back back') : Resembles text (front ++ back) (front' ++ back') := by
  rw [Resembles, sketch_append, sketch_append, hfront, hback]

theorem cons {first first' : α} {rest rest' : List α} (hfirst : Resembles text first first')
    (hrest : Resembles text rest rest') : Resembles text (first :: rest) (first' :: rest') :=
  congrArg₂ (· :: ·) hfirst hrest

theorem concat {front front' : List α} {last last' : α} (hfront : Resembles text front front')
    (hlast : Resembles text last last') :
    Resembles text (front ++ [last]) (front' ++ [last']) :=
  hfront.append (.cons hlast (.refl []))

theorem reverse {list list' : List α} (h : Resembles text list list') :
    Resembles text list.reverse list'.reverse := by
  rw [Resembles, sketch_reverse, sketch_reverse, h]

theorem done {a b : α} (h : Resembles text a b) :
    Resembles text (ForInStep.done a) (.done b) := congrArg ForInStep.done h

theorem yield {a b : α} (h : Resembles text a b) :
    Resembles text (ForInStep.yield a) (.yield b) := congrArg ForInStep.yield h

theorem isEmpty {list list' : List α} (h : Resembles text list list') :
    list.isEmpty = list'.isEmpty := by
  rw [← isEmpty_sketch text, h, isEmpty_sketch]

theorem contains {table table' : Table α} (h : Resembles text table table') (key : String) :
    Table.contains table key = Table.contains table' key := by
  rw [← contains_sketch text, h, contains_sketch]

section

variable {node other : Node} (h : Resembles text node other)
include h

theorem kind : Resembles text node.kind other.kind := by
  rw [Resembles, Node.sketch_eq, Node.sketch_eq] at h
  exact congrArg Node.kind h

theorem name : node.name = other.name := by
  rw [Resembles, Node.sketch_eq, Node.sketch_eq] at h
  exact (Node.mk.inj h).2.1

theorem children : Resembles text node.children other.children := by
  rw [Resembles, Node.sketch_eq, Node.sketch_eq] at h
  exact congrArg Node.children h

theorem properties : Resembles text node.properties other.properties := by
  rw [Resembles, Node.sketch_eq, Node.sketch_eq] at h
  exact congrArg Node.properties h

theorem spreads : Resembles text node.spreads other.spreads := by
  rw [Resembles, Node.sketch_eq, Node.sketch_eq] at h
  exact congrArg Node.spreads h

theorem directives : Resembles text node.directives other.directives := by
  rw [Resembles, Node.sketch_eq, Node.sketch_eq] at h
  exact congrArg Node.directives h

theorem traits : Resembles text node.traits other.traits := by
  rw [Resembles, Node.sketch_eq, Node.sketch_eq] at h
  exact congrArg Node.traits h

theorem count : node.count = other.count := by
  rw [← Node.count_sketch text node, ← Node.count_sketch text other]
  exact congrArg Node.count h

theorem hasTrait (name : String) : node.hasTrait name = other.hasTrait name :=
  h.traits.contains name

theorem with_kind {kind kind' : NodeKind} (hkind : Resembles text kind kind') :
    Resembles text { node with kind := kind } { other with kind := kind' } := by
  rw [Resembles, Node.sketch_eq, Node.sketch_eq] at h ⊢
  exact congrArg₂ (fun kind node => { node with kind := kind }) hkind h

theorem with_name (name : Option String) :
    Resembles text { node with name := name } { other with name := name } := by
  rw [Resembles, Node.sketch_eq, Node.sketch_eq] at h ⊢
  exact congrArg (fun node => { node with name := name }) h

theorem with_id (id : Option String) :
    Resembles text { node with id := id } { other with id := id } := by
  rw [Resembles, Node.sketch_eq, Node.sketch_eq] at h ⊢
  exact congrArg (fun node => { node with id := id }) h

theorem with_exported (exported : Bool) :
    Resembles text { node with exported := exported } { other with exported := exported } := by
  rw [Resembles, Node.sketch_eq, Node.sketch_eq] at h ⊢
  exact congrArg (fun node => { node with exported := exported }) h

theorem with_loc (loc loc' : Location) :
    Resembles text { node with loc := loc } { other with loc := loc' } := by
  rw [Resembles, Node.sketch_eq, Node.sketch_eq] at h ⊢
  exact h

theorem with_children {children children' : List Node}
    (hchildren : Resembles text children children') :
    Resembles text { node with children := children } { other with children := children' } := by
  rw [Resembles, Node.sketch_eq, Node.sketch_eq] at h ⊢
  exact congrArg₂ (fun children node => { node with children := children }) hchildren h

theorem with_properties {properties properties' : Table Value}
    (hproperties : Resembles text properties properties') :
    Resembles text { node with properties := properties }
      { other with properties := properties' } := by
  rw [Resembles, Node.sketch_eq, Node.sketch_eq] at h ⊢
  exact congrArg₂ (fun properties node => { node with properties := properties }) hproperties h

theorem with_spreads {spreads spreads' : List Value}
    (hspreads : Resembles text spreads spreads') :
    Resembles text { node with spreads := spreads } { other with spreads := spreads' } := by
  rw [Resembles, Node.sketch_eq, Node.sketch_eq] at h ⊢
  exact congrArg₂ (fun spreads node => { node with spreads := spreads }) hspreads h

theorem with_directives {directives directives' : List Directive}
    (hdirectives : Resembles text directives directives') :
    Resembles text { node with directives := directives }
      { other with directives := directives' } := by
  rw [Resembles, Node.sketch_eq, Node.sketch_eq] at h ⊢
  exact congrArg₂ (fun directives node => { node with directives := directives }) hdirectives h

theorem with_traits {traits traits' : Table TraitConfig}
    (htraits : Resembles text traits traits') :
    Resembles text { node with traits := traits } { other with traits := traits' } := by
  rw [Resembles, Node.sketch_eq, Node.sketch_eq] at h ⊢
  exact congrArg₂ (fun traits node => { node with traits := traits }) htraits h

end

end Resembles

/-! ## Directives of nodes -/

section

variable (text : String → String)

theorem sketch_attach (node : Node) (directive : Directive) :
    sketch text (node.attach directive) = (sketch text node).attach (sketch text directive) := by
  have htrait (name : String) (config : TraitConfig) :
      sketch text { node with traits := node.traits.insert name config } =
        { sketch text node with
          traits := (sketch text node).traits.insert name (sketch text config) } := by
    rw [Node.sketch_eq, Node.sketch_eq, sketch_insert]
  have hother (directive : Directive) :
      sketch text { node with directives := node.directives ++ [directive] } =
        { sketch text node with
          directives := (sketch text node).directives ++ [sketch text directive] } := by
    rw [Node.sketch_eq text { node with directives := _ }, Node.sketch_eq text node, sketch_append]
    rfl
  cases directive with
  | trait name config | generic name config => exact htrait name config
  | conditional condition body elseBody =>
      cases elseBody <;> exact hother (.conditional condition body _)
  | lifecycle | state | bindings | loop | whileLoop | imports | setting | topic => exact hother _

end

theorem Resembles.attach {text : String → String} {node other : Node}
    {directive directive' : Directive} (h : Resembles text node other)
    (hdirective : Resembles text directive directive') :
    Resembles text (node.attach directive) (other.attach directive') := by
  rw [Resembles, sketch_attach, sketch_attach, h, hdirective]

end SceneLang
