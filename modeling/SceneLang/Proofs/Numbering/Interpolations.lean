import SceneLang.Parser.Arguments

/-!
# Interpolations in trees

The interpolations of a tree are those in the values that its nodes and directives hold, and in the
values within these.  An entry that is put into a table may take the place of another one, so that a
table holds what it held before and the new entry at most.
-/

namespace SceneLang

/-- The identifier of a text for another language, and the text. -/
structure Interpolation where
  id : String
  expression : String
deriving DecidableEq, Repr

/-! ## The interpolations of a tree -/

/-- What is found in the values of a table. -/
def Table.gather {α β : Type} (parts : α → List β) (table : Table α) : List β :=
  table.flatMap fun entry => parts entry.2

mutual

/-- The interpolations in a value, those within other values included. -/
def Value.interpolations : Value → List Interpolation
  | .interpolation id expression => [⟨id, expression⟩]
  | .array items => Value.interpolationsOfItems items
  | .object entries => Value.interpolationsOfEntries entries
  | .binary _ left right => left.interpolations ++ right.interpolations
  | .unary _ operand => operand.interpolations
  | .ternary condition thenBranch elseBranch =>
      condition.interpolations ++ thenBranch.interpolations ++ elseBranch.interpolations
  | .spread inner => inner.interpolations
  | .call callee args => callee.interpolations ++ Value.interpolationsOfItems args
  | .member target _ => target.interpolations
  | .index target key => target.interpolations ++ key.interpolations
  | .arrow _ body => Value.interpolationsOfBody body
  | .string _ | .number _ _ _ | .bool _ | .null | .reference _ => []

def Value.interpolationsOfItems : List Value → List Interpolation
  | [] => []
  | item :: rest => item.interpolations ++ Value.interpolationsOfItems rest

def Value.interpolationsOfEntries : List ObjectEntry → List Interpolation
  | [] => []
  | .field _ value :: rest => value.interpolations ++ Value.interpolationsOfEntries rest
  | .spread value :: rest => value.interpolations ++ Value.interpolationsOfEntries rest

def Value.interpolationsOfBody : ArrowBody → List Interpolation
  | .expr value => value.interpolations
  | .block _ => []

end

def ObjectEntry.interpolations : ObjectEntry → List Interpolation
  | .field _ value | .spread value => value.interpolations

def TraitConfig.interpolations (config : TraitConfig) : List Interpolation :=
  config.args.flatMap Value.interpolations ++ config.config.gather Value.interpolations

def LogicBlock.interpolations (block : LogicBlock) : List Interpolation :=
  block.values.gather Value.interpolations

def MachineState.interpolations (state : MachineState) : List Interpolation :=
  state.properties.gather Value.interpolations

def StateMachine.interpolations (machine : StateMachine) : List Interpolation :=
  machine.states.flatMap MachineState.interpolations

def NodeKind.interpolations : NodeKind → List Interpolation
  | .logic block => block.interpolations
  | .stateMachine machine => machine.interpolations
  | .element _ _ | .fragment | .composition _ | .template _ | .environment | .function _ _ => []

mutual

/-- The interpolations in a node and in all that it holds. -/
def Node.interpolations : Node → List Interpolation
  | ⟨kind, _, _, children, properties, spreads, directives, traits, _, _⟩ =>
      kind.interpolations ++ properties.gather Value.interpolations ++
        spreads.flatMap Value.interpolations ++ Directive.interpolationsOfAll directives ++
        traits.gather TraitConfig.interpolations ++ Node.interpolationsOfAll children

def Node.interpolationsOfAll : List Node → List Interpolation
  | [] => []
  | node :: rest => node.interpolations ++ Node.interpolationsOfAll rest

def Directive.interpolations : Directive → List Interpolation
  | .trait _ config | .generic _ config | .setting _ config | .topic _ _ config =>
      config.interpolations
  | .state table | .bindings table => table.gather Value.interpolations
  | .loop _ _ _ body | .whileLoop _ body | .conditional _ body none =>
      Node.interpolationsOfAll body
  | .conditional _ body (some elseBody) =>
      Node.interpolationsOfAll body ++ Node.interpolationsOfAll elseBody
  | .lifecycle _ _ _ | .imports _ => []

def Directive.interpolationsOfAll : List Directive → List Interpolation
  | [] => []
  | directive :: rest => directive.interpolations ++ Directive.interpolationsOfAll rest

end

theorem Value.interpolationsOfItems_eq (items : List Value) :
    Value.interpolationsOfItems items = items.flatMap Value.interpolations := by
  induction items with
  | nil => rfl
  | cons item rest ih => rw [interpolationsOfItems, ih, List.flatMap_cons]

theorem Value.interpolationsOfEntries_eq (entries : List ObjectEntry) :
    Value.interpolationsOfEntries entries = entries.flatMap ObjectEntry.interpolations := by
  induction entries with
  | nil => rfl
  | cons entry rest ih =>
      cases entry <;> rw [interpolationsOfEntries, ih, List.flatMap_cons] <;> rfl

theorem Node.interpolationsOfAll_eq (nodes : List Node) :
    Node.interpolationsOfAll nodes = nodes.flatMap Node.interpolations := by
  induction nodes with
  | nil => rfl
  | cons node rest ih => rw [interpolationsOfAll, ih, List.flatMap_cons]

theorem Directive.interpolationsOfAll_eq (directives : List Directive) :
    Directive.interpolationsOfAll directives = directives.flatMap Directive.interpolations := by
  induction directives with
  | nil => rfl
  | cons directive rest ih => rw [interpolationsOfAll, ih, List.flatMap_cons]

theorem Node.interpolations_eq (node : Node) :
    node.interpolations = node.kind.interpolations ++
      node.properties.gather Value.interpolations ++
      node.spreads.flatMap Value.interpolations ++
      node.directives.flatMap Directive.interpolations ++
      node.traits.gather TraitConfig.interpolations ++
      node.children.flatMap Node.interpolations := by
  obtain ⟨kind, name, id, children, properties, spreads, directives, traits, exported, loc⟩ := node
  rw [interpolations, Directive.interpolationsOfAll_eq, Node.interpolationsOfAll_eq]

/-! ## Tables -/

namespace Table

variable {α β : Type} [DecidableEq β]

/-- An entry that is replaced only takes something away. -/
theorem count_gather_insert (parts : α → List β) (key : String) (value : α) (table : Table α)
    (one : β) : ((table.insert key value).gather parts).count one ≤
      (parts value).count one + (table.gather parts).count one := by
  induction table with
  | nil => simp [insert, gather]
  | cons entry rest ih =>
      simp only [gather] at ih
      rw [insert]
      split
      · simp only [gather, List.flatMap_cons, List.count_append]
        omega
      split
      · simp only [gather, List.flatMap_cons, List.count_append]
        omega
      · simp only [gather, List.flatMap_cons, List.count_append]
        omega

theorem count_gather_insertIfNew (parts : α → List β) (key : String) (value : α)
    (table : Table α) (one : β) : ((table.insertIfNew key value).gather parts).count one ≤
      (parts value).count one + (table.gather parts).count one := by
  unfold insertIfNew
  split
  · exact Nat.le_add_left _ _
  · exact count_gather_insert parts key value table one

end Table

end SceneLang
