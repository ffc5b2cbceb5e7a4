import SceneLang.Node

/-!
# Walking and shifting a tree

A walk visits a node, then the nodes that its directives hold, then its children.  A shift
moves every location of the tree down by the same number of lines.
-/

namespace SceneLang

mutual

/-- The nodes of the tree: the node itself, those in its directives, those below its
children. -/
def Node.walk : Node → List Node
  | ⟨kind, name, id, children, properties, spreads, directives, traits, exported, loc⟩ =>
      ⟨kind, name, id, children, properties, spreads, directives, traits, exported, loc⟩ ::
        (Directive.walkAll directives ++ Node.walkAll children)

def Node.walkAll : List Node → List Node
  | [] => []
  | node :: rest => node.walk ++ Node.walkAll rest

def Directive.walk : Directive → List Node
  | .loop _ _ _ body => Node.walkAll body
  | .whileLoop _ body => Node.walkAll body
  | .conditional _ body none => Node.walkAll body
  | .conditional _ body (some elseBody) => Node.walkAll body ++ Node.walkAll elseBody
  | .trait _ _ | .generic _ _ | .lifecycle _ _ _ | .state _ | .bindings _ | .imports _
  | .setting _ _ | .topic _ _ _ => []

def Directive.walkAll : List Directive → List Node
  | [] => []
  | directive :: rest => directive.walk ++ Directive.walkAll rest

end

mutual

def Node.count : Node → Nat
  | ⟨_, _, _, children, _, _, directives, _, _, _⟩ =>
      Directive.countAll directives + Node.countAll children + 1

def Node.countAll : List Node → Nat
  | [] => 0
  | node :: rest => node.count + Node.countAll rest

def Directive.count : Directive → Nat
  | .loop _ _ _ body => Node.countAll body
  | .whileLoop _ body => Node.countAll body
  | .conditional _ body none => Node.countAll body
  | .conditional _ body (some elseBody) => Node.countAll body + Node.countAll elseBody
  | .trait _ _ | .generic _ _ | .lifecycle _ _ _ | .state _ | .bindings _ | .imports _
  | .setting _ _ | .topic _ _ _ => 0

def Directive.countAll : List Directive → Nat
  | [] => 0
  | directive :: rest => directive.count + Directive.countAll rest

end

mutual

theorem Node.length_walk (node : Node) : node.walk.length = node.count := by
  obtain ⟨kind, name, id, children, properties, spreads, directives, traits, exported, loc⟩ := node
  simp only [Node.walk, Node.count, List.length_cons, List.length_append,
    Directive.length_walkAll directives, Node.length_walkAll children]

theorem Node.length_walkAll (nodes : List Node) :
    (Node.walkAll nodes).length = Node.countAll nodes := by
  match nodes with
  | [] => rfl
  | node :: rest =>
      simp only [Node.walkAll, Node.countAll, List.length_append, Node.length_walk node,
        Node.length_walkAll rest]

theorem Directive.length_walk (directive : Directive) :
    directive.walk.length = directive.count := by
  match directive with
  | .loop _ _ _ body => simp only [Directive.walk, Directive.count, Node.length_walkAll body]
  | .whileLoop _ body => simp only [Directive.walk, Directive.count, Node.length_walkAll body]
  | .conditional _ body none =>
      simp only [Directive.walk, Directive.count, Node.length_walkAll body]
  | .conditional _ body (some elseBody) =>
      simp only [Directive.walk, Directive.count, List.length_append,
        Node.length_walkAll body, Node.length_walkAll elseBody]
  | .trait _ _ | .generic _ _ | .lifecycle _ _ _ | .state _ | .bindings _ | .imports _
  | .setting _ _ | .topic _ _ _ => rfl

theorem Directive.length_walkAll (directives : List Directive) :
    (Directive.walkAll directives).length = Directive.countAll directives := by
  match directives with
  | [] => rfl
  | directive :: rest =>
      simp only [Directive.walkAll, Directive.countAll, List.length_append,
        Directive.length_walk directive, Directive.length_walkAll rest]

end

/-! ## Members of a tree -/

section

variable {node member : Node} {nodes : List Node} {directive : Directive}

/-- The lists of nodes that a directive holds. -/
def Directive.bodies : Directive → List (List Node)
  | .loop _ _ _ body => [body]
  | .whileLoop _ body => [body]
  | .conditional _ body elseBody => body :: elseBody.toList
  | _ => []

namespace Node

theorem mem_walkAll : member ∈ walkAll nodes ↔ ∃ node ∈ nodes, member ∈ node.walk := by
  induction nodes with
  | nil => simp [walkAll]
  | cons node rest ih => simp [walkAll, ih]

theorem mem_walk_directive :
    member ∈ directive.walk ↔ ∃ body ∈ directive.bodies, ∃ node ∈ body, member ∈ node.walk := by
  unfold Directive.walk
  split <;> simp [Directive.bodies, mem_walkAll]

theorem mem_walk_directives {directives : List Directive} :
    member ∈ Directive.walkAll directives ↔
      ∃ directive ∈ directives, ∃ body ∈ directive.bodies, ∃ node ∈ body, member ∈ node.walk := by
  induction directives with
  | nil => simp [Directive.walkAll]
  | cons directive rest ih => simp [Directive.walkAll, ih, mem_walk_directive]

theorem mem_walk : member ∈ node.walk ↔ member = node ∨
    (∃ directive ∈ node.directives, ∃ body ∈ directive.bodies, ∃ node ∈ body,
      member ∈ node.walk) ∨ ∃ child ∈ node.children, member ∈ child.walk := by
  obtain ⟨kind, name, id, children, properties, spreads, directives, traits, exported, loc⟩ := node
  rw [walk, List.mem_cons, List.mem_append, mem_walk_directives, mem_walkAll]

end Node

end

/-! ## Shifting -/

mutual

/-- The tree `lines` lines further down. -/
def Node.down (lines : Nat) : Node → Node
  | ⟨kind, name, id, children, properties, spreads, directives, traits, exported, loc⟩ =>
      ⟨kind, name, id, Node.downAll lines children, properties, spreads,
        Directive.downAll lines directives, traits, exported, loc.down lines⟩

def Node.downAll (lines : Nat) : List Node → List Node
  | [] => []
  | node :: rest => node.down lines :: Node.downAll lines rest

def Directive.down (lines : Nat) : Directive → Directive
  | .loop form item iterable body => .loop form item iterable (Node.downAll lines body)
  | .whileLoop condition body => .whileLoop condition (Node.downAll lines body)
  | .conditional condition body none => .conditional condition (Node.downAll lines body) none
  | .conditional condition body (some elseBody) =>
      .conditional condition (Node.downAll lines body) (some (Node.downAll lines elseBody))
  | .trait name config => .trait name config
  | .generic name config => .generic name config
  | .lifecycle hook params body => .lifecycle hook params body
  | .state properties => .state properties
  | .bindings table => .bindings table
  | .imports decl => .imports decl
  | .setting which config => .setting which config
  | .topic which subject config => .topic which subject config

def Directive.downAll (lines : Nat) : List Directive → List Directive
  | [] => []
  | directive :: rest => directive.down lines :: Directive.downAll lines rest

end

namespace Node

/-- The first node of a name in the order of the walk. -/
def find? (node : Node) (name : String) : Option Node :=
  node.walk.find? (·.name = some name)

end Node

end SceneLang
