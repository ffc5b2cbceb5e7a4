import SceneLang.Diagnostic.Vocabulary
import SceneLang.Feature
import SceneLang.Node.Walk
import SceneLang.Parser.Element
import SceneLang.Proofs.Numbering.Interpolations

/-!
# The constructs of a tree

The inventory of a tree lists the constructs of the language that it is made with, wherever in it
they stand: in elements below each other, in the bodies of directives, and in values within values.
Three entries tell of a defect: a state machine that does not say where it starts, a function
without a name, and a trait that is kept among the directives.
-/

namespace SceneLang

/-- What an entry of an inventory tells of. -/
inductive Construct where
  | template
  | environment
  | stateMachine
  /-- A state machine does not name its initial state. -/
  | unstarted
  | logic
  | function
  /-- A function has no name. -/
  | unnamed
  | controlFlow
  | imports
  | trait (name : String)
  /-- A trait, known or not, stands among the directives of a node. -/
  | strayTrait (name : String)
  | interpolation
  | arrow
  | spread
deriving DecidableEq, Repr

namespace Construct

/-- The feature that a construct belongs to.  A trait belongs to one only if it is known and traits
are enabled. -/
def feature? (traits : Bool) : Construct → Option Feature
  | .template => some .templates
  | .environment => some .environment
  | .stateMachine => some .stateMachines
  | .logic | .function => some .logic
  | .controlFlow => some .controlFlow
  | .imports => some .imports
  | .trait name => if traits && Vocabulary.isTrait name then some .traits else none
  | .interpolation => some .interpolation
  | .arrow => some .arrowFunctions
  | .spread => some .spread
  | .unstarted | .unnamed | .strayTrait _ => none

/-- The defects that an error tells of. -/
def faults : List Construct :=
  [.unstarted, .unnamed]

/-- No parse puts a trait among the directives, and a strict one drops what is no known trait. -/
def allowed (options : ParseOptions) : Construct → Bool
  | .trait name => !options.strict || (options.traits && Vocabulary.isTrait name)
  | .strayTrait _ => false
  | _ => true

end Construct

/-! ## Values -/

def ArrowParam.constructs (param : ArrowParam) : List Construct :=
  if param.rest then [.spread] else []

mutual

/-- The constructs in a value, those within other values included. -/
def Value.constructs : Value → List Construct
  | .interpolation _ _ => [.interpolation]
  | .array items => Value.constructsOfItems items
  | .object entries => Value.constructsOfEntries entries
  | .binary _ left right => left.constructs ++ right.constructs
  | .unary _ operand => operand.constructs
  | .ternary condition thenBranch elseBranch =>
      condition.constructs ++ thenBranch.constructs ++ elseBranch.constructs
  | .spread inner => .spread :: inner.constructs
  | .call callee args => callee.constructs ++ Value.constructsOfItems args
  | .member target _ => target.constructs
  | .index target key => target.constructs ++ key.constructs
  | .arrow params body =>
      .arrow :: (params.flatMap ArrowParam.constructs ++ Value.constructsOfBody body)
  | .string _ | .number _ _ _ | .bool _ | .null | .reference _ => []

def Value.constructsOfItems : List Value → List Construct
  | [] => []
  | item :: rest => item.constructs ++ Value.constructsOfItems rest

def Value.constructsOfEntries : List ObjectEntry → List Construct
  | [] => []
  | .field _ value :: rest => value.constructs ++ Value.constructsOfEntries rest
  | .spread value :: rest => .spread :: value.constructs ++ Value.constructsOfEntries rest

def Value.constructsOfBody : ArrowBody → List Construct
  | .expr value => value.constructs
  | .block _ => []

end

/-- The constructs of a value that is spread into something. -/
def Value.spreadConstructs (value : Value) : List Construct :=
  .spread :: value.constructs

def ObjectEntry.constructs : ObjectEntry → List Construct
  | .field _ value => value.constructs
  | .spread value => value.spreadConstructs

theorem Value.constructsOfItems_eq (items : List Value) :
    Value.constructsOfItems items = items.flatMap Value.constructs := by
  induction items with
  | nil => rfl
  | cons item rest ih => rw [constructsOfItems, ih, List.flatMap_cons]

theorem Value.constructsOfEntries_eq (entries : List ObjectEntry) :
    Value.constructsOfEntries entries = entries.flatMap ObjectEntry.constructs := by
  induction entries with
  | nil => rfl
  | cons entry rest ih =>
      cases entry <;> rw [constructsOfEntries, ih, List.flatMap_cons] <;> rfl

/-! ## Configurations and kinds of nodes -/

def TraitConfig.constructs (config : TraitConfig) : List Construct :=
  config.args.flatMap Value.constructs ++ config.config.gather Value.constructs

/-- The constructs of a trait in the table of a node. -/
def traitConstructs (entry : String × TraitConfig) : List Construct :=
  .trait entry.1 :: entry.2.constructs

def LogicBlock.constructs (block : LogicBlock) : List Construct :=
  block.values.gather Value.constructs

def MachineState.constructs (state : MachineState) : List Construct :=
  state.properties.gather Value.constructs

def StateMachine.constructs (machine : StateMachine) : List Construct :=
  machine.states.flatMap MachineState.constructs

/-- What the kind of a node of the name adds to its inventory. -/
def NodeKind.constructs (name : Option String) : NodeKind → List Construct
  | .logic block => .logic :: block.constructs
  | .template _ => [.template]
  | .environment => [.environment]
  | .stateMachine machine =>
      .stateMachine :: (if machine.initial.isSome then [] else [.unstarted]) ++ machine.constructs
  | .function _ _ => .function :: if name.isSome then [] else [.unnamed]
  | .element _ _ | .fragment | .composition _ => []

/-- A name does not add anything. -/
theorem NodeKind.constructs_subset (name : Option String) (kind : NodeKind) :
    kind.constructs name ⊆ kind.constructs none := by
  cases kind with
  | function params body => cases name <;> simp [constructs]
  | element | fragment | composition | logic | template | environment | stateMachine =>
      exact List.Subset.refl _

/-! ## Trees -/

mutual

/-- The inventory of a node with all that it holds. -/
def Node.constructs : Node → List Construct
  | ⟨kind, name, _, children, properties, spreads, directives, traits, _, _⟩ =>
      kind.constructs name ++ (properties.gather Value.constructs ++
        spreads.flatMap Value.spreadConstructs ++ Directive.constructsOfAll directives ++
        traits.flatMap traitConstructs ++ Node.constructsOfAll children)

def Node.constructsOfAll : List Node → List Construct
  | [] => []
  | node :: rest => node.constructs ++ Node.constructsOfAll rest

/-- The inventory of a directive that stands among the directives of a node. -/
def Directive.constructs : Directive → List Construct
  | .trait name config | .generic name config => .strayTrait name :: config.constructs
  | .setting _ config | .topic _ _ config => config.constructs
  | .state table | .bindings table => table.gather Value.constructs
  | .loop _ _ _ body | .whileLoop _ body | .conditional _ body none =>
      .controlFlow :: Node.constructsOfAll body
  | .conditional _ body (some elseBody) =>
      .controlFlow :: (Node.constructsOfAll body ++ Node.constructsOfAll elseBody)
  | .imports _ => [.imports]
  | .lifecycle _ _ _ => []

def Directive.constructsOfAll : List Directive → List Construct
  | [] => []
  | directive :: rest => directive.constructs ++ Directive.constructsOfAll rest

end

theorem Node.constructsOfAll_eq (nodes : List Node) :
    Node.constructsOfAll nodes = nodes.flatMap Node.constructs := by
  induction nodes with
  | nil => rfl
  | cons node rest ih => rw [constructsOfAll, ih, List.flatMap_cons]

theorem Directive.constructsOfAll_eq (directives : List Directive) :
    Directive.constructsOfAll directives = directives.flatMap Directive.constructs := by
  induction directives with
  | nil => rfl
  | cons directive rest ih => rw [constructsOfAll, ih, List.flatMap_cons]

/-- The inventory of what a node holds, whatever the node itself is. -/
def Node.holdings (node : Node) : List Construct :=
  node.properties.gather Value.constructs ++ node.spreads.flatMap Value.spreadConstructs ++
    node.directives.flatMap Directive.constructs ++ node.traits.flatMap traitConstructs ++
    node.children.flatMap Node.constructs

theorem Node.constructs_eq (node : Node) :
    node.constructs = node.kind.constructs node.name ++ node.holdings := by
  obtain ⟨kind, name, id, children, properties, spreads, directives, traits, exported, loc⟩ := node
  rw [constructs, Directive.constructsOfAll_eq, Node.constructsOfAll_eq]
  rfl

/-- The inventory of a directive that a node takes in: traits go to the other traits. -/
def Directive.attached : Directive → List Construct
  | .trait name config | .generic name config => traitConstructs (name, config)
  | directive => directive.constructs

namespace Directive

variable {body : List Node}

theorem constructs_loop (form : LoopForm) (item iterable : String) :
    (Directive.loop form item iterable body).constructs =
      .controlFlow :: body.flatMap Node.constructs := by
  rw [constructs, Node.constructsOfAll_eq]

theorem constructs_whileLoop (condition : String) :
    (Directive.whileLoop condition body).constructs =
      .controlFlow :: body.flatMap Node.constructs := by
  rw [constructs, Node.constructsOfAll_eq]

theorem constructs_conditional (condition : String) (elseBody : Option (List Node)) :
    (Directive.conditional condition body elseBody).constructs = .controlFlow ::
      (body.flatMap Node.constructs ++ (elseBody.getD []).flatMap Node.constructs) := by
  cases elseBody with
  | none => simp [constructs, Node.constructsOfAll_eq]
  | some elseBody => simp [constructs, Node.constructsOfAll_eq]

end Directive

/-! ## Tables -/

namespace Table

variable {α β : Type} (parts : String × α → List β) (key : String) (value : α) (table : Table α)

/-- A table holds nothing but what it held before and the entry put into it. -/
theorem flatMap_insert_subset :
    (table.insert key value).flatMap parts ⊆ table.flatMap parts ++ parts (key, value) := by
  intro one hone
  obtain ⟨entry, hentry, hone⟩ := List.mem_flatMap.mp hone
  rcases mem_insert hentry with hnew | hold
  · have hentry : entry = (key, value) := hnew
    exact List.mem_append_right _ (hentry ▸ hone)
  · exact List.mem_append_left _ (List.mem_flatMap.mpr ⟨entry, hold, hone⟩)

theorem flatMap_insertIfNew_subset :
    (table.insertIfNew key value).flatMap parts ⊆ table.flatMap parts ++ parts (key, value) := by
  unfold insertIfNew
  split
  · exact List.subset_append_left _ _
  · exact flatMap_insert_subset parts key value table

end Table

/-! ## Nodes that take something in -/

namespace Node

variable (node : Node)

theorem holdings_ofKind (kind : NodeKind) (loc : Location) : (ofKind kind loc).holdings = [] :=
  rfl

theorem constructs_subset_holdings {node child : Node} (h : child ∈ node.children) :
    child.constructs ⊆ node.holdings := by
  intro construct hmem
  exact List.mem_append_right _ (List.mem_flatMap.mpr ⟨child, h, hmem⟩)

theorem holdings_property (key : String) (value : Value) :
    ({ node with properties := node.properties.insert key value }).holdings ⊆
      node.holdings ++ value.constructs := by
  have hinsert := Table.flatMap_insert_subset (fun entry => entry.2.constructs) key value
    node.properties
  intro construct hmem
  have hone := @hinsert construct
  simp only [holdings, Table.gather, List.mem_append] at hmem hone ⊢
  grind

theorem holdings_spread (value : Value) :
    ({ node with spreads := node.spreads ++ [value] }).holdings ⊆
      node.holdings ++ value.spreadConstructs := by
  intro construct hmem
  simp only [holdings, List.flatMap_append, List.flatMap_singleton, List.mem_append] at hmem ⊢
  grind

theorem holdings_child (child : Node) :
    ({ node with children := node.children ++ [child] }).holdings ⊆
      node.holdings ++ child.constructs := by
  intro construct hmem
  simp only [holdings, List.flatMap_append, List.flatMap_singleton, List.mem_append] at hmem ⊢
  grind

theorem holdings_attach (directive : Directive) :
    (node.attach directive).holdings ⊆ node.holdings ++ directive.attached := by
  intro construct hmem
  cases directive with
  | trait name config | generic name config =>
      have hone := @Table.flatMap_insert_subset _ _ traitConstructs name config node.traits construct
      simp only [attach, holdings, Directive.attached, List.mem_append] at hmem hone ⊢
      grind
  | lifecycle | state | bindings | loop | whileLoop | conditional | imports | setting | topic =>
      simp only [attach, holdings, Directive.attached, List.flatMap_append, List.flatMap_singleton,
        List.mem_append] at hmem ⊢
      grind

theorem kind_attach (directive : Directive) : (node.attach directive).kind = node.kind := by
  cases directive <;> rfl

end Node

/-! ## Members of a tree -/

mutual

/-- What is found in a node of a tree is found in the tree. -/
theorem Node.constructs_subset_of_mem_walk {member : Node} (node : Node)
    (h : member ∈ node.walk) : member.constructs ⊆ node.constructs := by
  obtain ⟨kind, name, id, children, properties, spreads, directives, traits, exported, loc⟩ := node
  rw [Node.walk, List.mem_cons, List.mem_append] at h
  rcases h with rfl | hdirective | hchild
  · exact List.Subset.refl _
  · have hone := Directive.constructs_subset_of_mem_walkAll directives hdirective
    intro construct hmem
    simp [Node.constructs, hone hmem]
  · have hone := Node.constructs_subset_of_mem_walkAll children hchild
    intro construct hmem
    simp [Node.constructs, hone hmem]

theorem Node.constructs_subset_of_mem_walkAll {member : Node} (nodes : List Node)
    (h : member ∈ Node.walkAll nodes) : member.constructs ⊆ Node.constructsOfAll nodes := by
  match nodes with
  | [] => cases h
  | node :: rest =>
      rw [Node.walkAll, List.mem_append] at h
      rw [Node.constructsOfAll]
      rcases h with hnode | hrest
      · exact List.subset_append_of_subset_left _ (Node.constructs_subset_of_mem_walk node hnode)
      · exact List.subset_append_of_subset_right _
          (Node.constructs_subset_of_mem_walkAll rest hrest)

theorem Directive.constructs_subset_of_mem_walk {member : Node} (directive : Directive)
    (h : member ∈ directive.walk) : member.constructs ⊆ directive.constructs := by
  match directive with
  | .loop _ _ _ body | .whileLoop _ body | .conditional _ body none =>
      rw [Directive.walk] at h
      rw [Directive.constructs]
      exact List.subset_cons_of_subset _ (Node.constructs_subset_of_mem_walkAll body h)
  | .conditional _ body (some elseBody) =>
      rw [Directive.walk, List.mem_append] at h
      rw [Directive.constructs]
      apply List.subset_cons_of_subset
      rcases h with hbody | helse
      · exact List.subset_append_of_subset_left _ (Node.constructs_subset_of_mem_walkAll body hbody)
      · exact List.subset_append_of_subset_right _
          (Node.constructs_subset_of_mem_walkAll elseBody helse)
  | .trait _ _ | .generic _ _ | .lifecycle _ _ _ | .state _ | .bindings _ | .imports _
  | .setting _ _ | .topic _ _ _ => cases h

theorem Directive.constructs_subset_of_mem_walkAll {member : Node} (directives : List Directive)
    (h : member ∈ Directive.walkAll directives) :
    member.constructs ⊆ Directive.constructsOfAll directives := by
  match directives with
  | [] => cases h
  | directive :: rest =>
      rw [Directive.walkAll, List.mem_append] at h
      rw [Directive.constructsOfAll]
      rcases h with hdirective | hrest
      · exact List.subset_append_of_subset_left _
          (Directive.constructs_subset_of_mem_walk directive hdirective)
      · exact List.subset_append_of_subset_right _
          (Directive.constructs_subset_of_mem_walkAll rest hrest)

end

end SceneLang
