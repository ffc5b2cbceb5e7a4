import Mathlib.Data.List.Forall2
import SceneLang.Node.Walk

/-!
# Shifting what a walk visits

A walk and a shift go through a tree each in its own way.  Both reach the same nodes: those of a
tree that has been shifted are the shifted nodes of the tree, in the same order, and a node is
shifted by moving its place down, once, and by shifting what it holds.
-/

namespace SceneLang

/-! ## Places -/

/-- The lines of the place are still lines so many lines further down. -/
def Location.Fits (lines : Nat) (loc : Location) : Prop :=
  loc.start.line + lines < wordCount ∧ loc.stop.line + lines < wordCount

instance (lines : Nat) (loc : Location) : Decidable (loc.Fits lines) :=
  inferInstanceAs (Decidable (_ ∧ _))

theorem Position.down_down (p : Position) (first second : Nat) :
    (p.down first).down second = p.down (first + second) := by
  simp only [Position.down, Nat.mod_add_mod, Nat.add_assoc]

theorem Location.down_down (loc : Location) (first second : Nat) :
    (loc.down first).down second = loc.down (first + second) := by
  simp only [Location.down, Position.down_down]

/-! ## What a shift leaves as it is -/

/-- What a directive says itself, without the nodes that it holds. -/
def Directive.heading : Directive → Directive
  | .loop form item iterable _ => .loop form item iterable []
  | .whileLoop condition _ => .whileLoop condition []
  | .conditional condition _ elseBody => .conditional condition [] (elseBody.map fun _ => [])
  | directive => directive

section

variable (lines : Nat)

mutual

theorem Node.walk_down (node : Node) :
    (node.down lines).walk = node.walk.map (Node.down lines) := by
  obtain ⟨kind, name, id, children, properties, spreads, directives, traits, exported, loc⟩ := node
  rw [Node.down, Node.walk, Node.walk, Directive.walkAll_downAll directives,
    Node.walkAll_downAll children, List.map_cons, List.map_append, Node.down]

theorem Node.walkAll_downAll (nodes : List Node) :
    Node.walkAll (Node.downAll lines nodes) = (Node.walkAll nodes).map (Node.down lines) := by
  match nodes with
  | [] => rfl
  | node :: rest =>
      rw [Node.downAll, Node.walkAll, Node.walkAll, List.map_append, Node.walk_down node,
        Node.walkAll_downAll rest]

theorem Directive.walk_down (directive : Directive) :
    (directive.down lines).walk = directive.walk.map (Node.down lines) := by
  match directive with
  | .loop _ _ _ body | .whileLoop _ body | .conditional _ body none =>
      rw [Directive.down, Directive.walk, Directive.walk, Node.walkAll_downAll body]
  | .conditional _ body (some elseBody) =>
      rw [Directive.down, Directive.walk, Directive.walk, List.map_append,
        Node.walkAll_downAll body, Node.walkAll_downAll elseBody]
  | .trait _ _ | .generic _ _ | .lifecycle _ _ _ | .state _ | .bindings _ | .imports _
  | .setting _ _ | .topic _ _ _ => rfl

theorem Directive.walkAll_downAll (directives : List Directive) :
    Directive.walkAll (Directive.downAll lines directives) =
      (Directive.walkAll directives).map (Node.down lines) := by
  match directives with
  | [] => rfl
  | directive :: rest =>
      rw [Directive.downAll, Directive.walkAll, Directive.walkAll, List.map_append,
        Directive.walk_down directive, Directive.walkAll_downAll rest]

end

end

/-! ## One shift after another -/

section

variable (first second : Nat)

mutual

theorem Node.down_down (node : Node) :
    (node.down first).down second = node.down (first + second) := by
  obtain ⟨kind, name, id, children, properties, spreads, directives, traits, exported, loc⟩ := node
  rw [Node.down, Node.down, Node.down, Node.downAll_downAll children,
    Directive.downAll_downAll directives, Location.down_down]

theorem Node.downAll_downAll (nodes : List Node) :
    Node.downAll second (Node.downAll first nodes) = Node.downAll (first + second) nodes := by
  match nodes with
  | [] => rfl
  | node :: rest =>
      rw [Node.downAll, Node.downAll, Node.downAll, Node.down_down node, Node.downAll_downAll rest]

theorem Directive.down_down (directive : Directive) :
    (directive.down first).down second = directive.down (first + second) := by
  match directive with
  | .loop _ _ _ body | .whileLoop _ body | .conditional _ body none =>
      rw [Directive.down, Directive.down, Directive.down, Node.downAll_downAll body]
  | .conditional _ body (some elseBody) =>
      rw [Directive.down, Directive.down, Directive.down, Node.downAll_downAll body,
        Node.downAll_downAll elseBody]
  | .trait _ _ | .generic _ _ | .lifecycle _ _ _ | .state _ | .bindings _ | .imports _
  | .setting _ _ | .topic _ _ _ => rfl

theorem Directive.downAll_downAll (directives : List Directive) :
    Directive.downAll second (Directive.downAll first directives) =
      Directive.downAll (first + second) directives := by
  match directives with
  | [] => rfl
  | directive :: rest =>
      rw [Directive.downAll, Directive.downAll, Directive.downAll, Directive.down_down directive,
        Directive.downAll_downAll rest]

end

end

end SceneLang
