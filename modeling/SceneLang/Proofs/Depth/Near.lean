import SceneLang.Node
import SceneLang.Proofs.Parser.Makes

/-!
# What is near enough to the top

The nesting of a state and the height of what has been read there never exceed the limit together.
What a node holds is judged part by part while the node is read, and the node itself when its body
is closed: it is one level above the body.
-/

namespace SceneLang

/-! ## How high trees are

A node lies one level below its parent.  How far a node lies below the directive that holds it is
a matter of how one counts: one level further down, like a child, or no level at all.
-/

/-- How many levels a node takes up even where it holds nothing: one if it may have a body of
items. -/
def NodeKind.room : NodeKind → Nat
  | .function _ _ | .fragment => 0
  | _ => 1

mutual

/-- The number of levels below a node, where a node that a directive holds lies `step` levels below
the node of the directive, and where a node takes up the levels `own` says. -/
def Node.height (own : NodeKind → Nat) (step : Nat) : Node → Nat
  | ⟨kind, _, _, children, _, _, directives, _, _, _⟩ =>
      max (own kind)
        (max (Node.heightOfAll own step 1 children) (Directive.heightOfAll own step directives))

/-- The height of nodes that lie `below` levels below another one. -/
def Node.heightOfAll (own : NodeKind → Nat) (step below : Nat) : List Node → Nat
  | [] => 0
  | node :: rest => max (node.height own step + below) (Node.heightOfAll own step below rest)

def Directive.height (own : NodeKind → Nat) (step : Nat) : Directive → Nat
  | .loop _ _ _ body => Node.heightOfAll own step step body
  | .whileLoop _ body => Node.heightOfAll own step step body
  | .conditional _ body none => Node.heightOfAll own step step body
  | .conditional _ body (some elseBody) =>
      max (Node.heightOfAll own step step body) (Node.heightOfAll own step step elseBody)
  | .trait _ _ | .generic _ _ | .lifecycle _ _ _ | .state _ | .bindings _ | .imports _
  | .setting _ _ | .topic _ _ _ => 0

def Directive.heightOfAll (own : NodeKind → Nat) (step : Nat) : List Directive → Nat
  | [] => 0
  | directive :: rest => max (directive.height own step) (Directive.heightOfAll own step rest)

end

variable {own : NodeKind → Nat} {step below n : Nat}

theorem NodeKind.room_le (kind : NodeKind) : kind.room ≤ 1 := by
  unfold NodeKind.room
  split <;> omega

namespace Node

theorem heightOfAll_le {nodes : List Node} :
    heightOfAll own step below nodes ≤ n ↔ ∀ node ∈ nodes, node.height own step + below ≤ n := by
  induction nodes with
  | nil => simp [heightOfAll]
  | cons node rest ih => rw [heightOfAll, Nat.max_le, ih, List.forall_mem_cons]

end Node

namespace Directive

theorem heightOfAll_le {directives : List Directive} :
    heightOfAll own step directives ≤ n ↔
      ∀ directive ∈ directives, directive.height own step ≤ n := by
  induction directives with
  | nil => simp [heightOfAll]
  | cons directive rest ih => rw [heightOfAll, Nat.max_le, ih, List.forall_mem_cons]

end Directive

namespace Node

theorem height_eq (node : Node) :
    node.height own step = max (own node.kind)
      (max (heightOfAll own step 1 node.children)
        (Directive.heightOfAll own step node.directives)) := by
  obtain ⟨kind, name, id, children, properties, spreads, directives, traits, exported, loc⟩ := node
  rw [height]

theorem height_le {node : Node} :
    node.height own step ≤ n ↔ own node.kind ≤ n ∧
      (∀ child ∈ node.children, child.height own step + 1 ≤ n) ∧
        ∀ directive ∈ node.directives, directive.height own step ≤ n := by
  rw [height_eq, Nat.max_le, Nat.max_le, heightOfAll_le, Directive.heightOfAll_le]

end Node

namespace Directive

theorem height_le {directive : Directive} :
    directive.height own step ≤ n ↔
      ∀ node ∈ directive.nodes, node.height own step + step ≤ n := by
  cases directive with
  | loop form item iterable body => exact Node.heightOfAll_le
  | whileLoop condition body => exact Node.heightOfAll_le
  | conditional condition body elseBody =>
      cases elseBody with
      | none =>
          rw [nodes, Option.getD_none, List.append_nil]
          exact Node.heightOfAll_le
      | some elseBody =>
          rw [height, Nat.max_le, Node.heightOfAll_le, Node.heightOfAll_le, nodes,
            Option.getD_some, List.forall_mem_append]
  | trait | generic | lifecycle | state | bindings | imports | setting | topic =>
      simp [height, nodes]

end Directive

end SceneLang

namespace SceneLang
namespace Parser

variable {depth : Nat} {state next : State} {node value : Node}

/-! ## Heights at a nesting -/

/-- At the nesting `depth` the levels of a height are left, and also those that nodes take up by
themselves, unless an error says that a level was refused. -/
structure Near (depth : Nat) (height : (NodeKind → Nat) → Nat) (state : State) : Prop where
  bare : height (fun _ => 0) + depth ≤ maxNesting
  room : state.log.Reports .nestingTooDeep ∨ height NodeKind.room + depth ≤ maxNesting

def NearNode (depth : Nat) (node : Node) (state : State) : Prop :=
  Near depth (fun own => node.height own 0) state

def NearDirective (depth : Nat) (directive : Directive) (state : State) : Prop :=
  Near depth (fun own => directive.height own 0) state

theorem Near.later {height : (NodeKind → Nat) → Nat} (h : Near depth height state)
    (hreaches : Reaches state next) : Near depth height next :=
  ⟨h.bare, h.room.imp_left (lasting_reports .nestingTooDeep () state next hreaches)⟩

theorem lasting_nearNode : Lasting (NearNode depth) :=
  fun _ _ _ hreaches h => h.later hreaches

theorem lasting_nearDirective : Lasting (NearDirective depth) :=
  fun _ _ _ hreaches h => h.later hreaches

/-- What is not higher than its parts is as near as they are. -/
theorem near_of_parts {ι : Type} {parts : List ι} {height : ι → (NodeKind → Nat) → Nat}
    {whole : (NodeKind → Nat) → Nat} (hdepth : depth ≤ maxNesting)
    (hparts : ∀ part ∈ parts, Near depth (height part) state)
    (hwhole : ∀ own n, own .fragment = 0 → (∀ part ∈ parts, height part own ≤ n) →
      whole own ≤ n) : Near depth whole state := by
  have hleft {levels : Nat} : levels + depth ≤ maxNesting ↔ levels ≤ maxNesting - depth :=
    (Nat.le_sub_iff_add_le hdepth).symm
  constructor
  · rw [hleft]
    exact hwhole _ _ rfl fun part hmem => hleft.mp (hparts part hmem).bare
  · by_cases hreports : state.log.Reports .nestingTooDeep
    · exact .inl hreports
    · rw [hleft]
      refine .inr (hwhole _ _ rfl fun part hmem => hleft.mp ?_)
      exact (hparts part hmem).room.resolve_left hreports

theorem near_empty (hdepth : depth ≤ maxNesting) (hchildren : node.children = [])
    (hdirectives : node.directives = [])
    (hroom : state.log.Reports .nestingTooDeep ∨ node.kind.room = 0) :
    NearNode depth node state := by
  have hheight (own : NodeKind → Nat) : node.height own 0 = own node.kind := by
    rw [Node.height_eq, hchildren, hdirectives, Node.heightOfAll, Directive.heightOfAll,
      Nat.max_self, Nat.max_zero]
  constructor
  · rw [hheight, Nat.zero_add]
    exact hdepth
  · rw [hheight]
    exact hroom.imp_right fun hzero => by rwa [hzero, Nat.zero_add]

/-! ## Nodes that are read -/

/-- What a node holds while it is read, with its body at the nesting `depth`. -/
structure NearParts (depth : Nat) (node : Node) (state : State) : Prop where
  children : ∀ child ∈ node.children, NearNode depth child state
  directives : ∀ directive ∈ node.directives, NearDirective depth directive state

theorem lasting_nearParts : Lasting (NearParts depth) :=
  fun _ _ _ hreaches h => ⟨fun child hmem => (h.children child hmem).later hreaches,
    fun directive hmem => (h.directives directive hmem).later hreaches⟩

/-- A node is one level above its body. -/
theorem NearParts.near (h : NearParts (depth + 1) node state) (hdepth : depth < maxNesting) :
    NearNode depth node state := by
  have hleft {levels : Nat} : levels + depth ≤ maxNesting ↔ levels ≤ maxNesting - depth :=
    (Nat.le_sub_iff_add_le (Nat.le_of_lt hdepth)).symm
  constructor
  · rw [hleft, Node.height_le]
    refine ⟨Nat.zero_le _, fun child hmem => ?_, fun directive hmem => ?_⟩
    · have := (h.children child hmem).bare
      omega
    · have := (h.directives directive hmem).bare
      omega
  · by_cases hreports : state.log.Reports .nestingTooDeep
    · exact .inl hreports
    rw [hleft, Node.height_le]
    refine .inr ⟨?_, fun child hmem => ?_, fun directive hmem => ?_⟩
    · have := node.kind.room_le
      omega
    · have := (h.children child hmem).room.resolve_left hreports
      omega
    · have := (h.directives directive hmem).room.resolve_left hreports
      omega

theorem Near.shallower {height : (NodeKind → Nat) → Nat} (h : Near (depth + 1) height state) :
    Near depth height state :=
  ⟨Nat.le_of_succ_le h.bare, h.room.imp_right Nat.le_of_succ_le⟩

theorem nearParts_ofKind (kind : NodeKind) (loc : Location) :
    NearParts depth (Node.ofKind kind loc) state where
  children := by
    intro child hmem
    cases hmem
  directives := by
    intro directive hmem
    cases hmem

/-- The same keyword, children and directives. -/
structure SameParts (node value : Node) : Prop where
  keyword : value.keyword = node.keyword
  children : value.children = node.children
  directives : value.directives = node.directives

theorem SameParts.nearParts (h : SameParts node value) (hparts : NearParts depth node state) :
    NearParts depth value state :=
  ⟨h.children ▸ hparts.children, h.directives ▸ hparts.directives⟩

theorem SameParts.near (h : SameParts node value) (hkind : value.kind = node.kind)
    (hnear : NearNode depth node state) : NearNode depth value state := by
  have hheight (own : NodeKind → Nat) : value.height own 0 = node.height own 0 := by
    rw [Node.height_eq, Node.height_eq, hkind, h.children, h.directives]
  unfold NearNode
  rwa [funext hheight]

/-- The same node with more directives. -/
structure Directed (depth : Nat) (node value : Node) (state : State) : Prop where
  kind : value.kind = node.kind
  children : value.children = node.children
  directives : ∀ directive ∈ value.directives,
    directive ∈ node.directives ∨ NearDirective depth directive state

theorem Directed.refl : Directed depth node node state :=
  ⟨rfl, rfl, fun _ hmem => .inl hmem⟩

theorem Directed.nearParts (h : Directed depth node value state)
    (hparts : NearParts depth node state) : NearParts depth value state :=
  ⟨h.children ▸ hparts.children, fun directive hmem =>
    (h.directives directive hmem).elim (hparts.directives directive) id⟩

/-- The same node with one more child, or with more directives: an item never adds both. -/
def Grown (depth : Nat) (node value : Node) (state : State) : Prop :=
  (∃ child, value = { node with children := node.children ++ [child] } ∧
    NearNode depth child state) ∨ Directed depth node value state

theorem Grown.nearParts (h : Grown depth node value state) (hparts : NearParts depth node state) :
    NearParts depth value state := by
  obtain ⟨child, rfl, hchild⟩ | hdirected := h
  · refine ⟨fun other hmem => ?_, hparts.directives⟩
    obtain hmem | hmem := List.mem_append.mp hmem
    · exact hparts.children other hmem
    · exact List.mem_singleton.mp hmem ▸ hchild
  · exact hdirected.nearParts hparts

end Parser
end SceneLang
