import SceneLang.Node.Walk
import SceneLang.Proofs.Depth.Elements
import SceneLang.Proofs.Place.Lays

/-!
# Where nodes lie

The children of a node lie within it, one behind the other, and so do the nodes in the body of a
directive.  A node that is not a fragment reaches from its first token, which is its keyword or the
word `export`, to the end of its last one.
-/

namespace SceneLang

variable {source : List Char} {node value member : Node} {nodes : List Node}
  {directive : Directive}

namespace Node

/-! ## Places of nodes -/

/-- No node starts before the end of one in front of it. -/
def Apart (nodes : List Node) : Prop :=
  nodes.Pairwise fun a b => a.loc.stop ≤ b.loc.start

/-- The node ends where it starts or behind it, its children lie within it, and they are apart, as
are the nodes in the bodies of its directives. -/
structure Nested (node : Node) : Prop where
  ordered : node.loc.start ≤ node.loc.stop
  inside : ∀ child ∈ node.children,
    node.loc.start ≤ child.loc.start ∧ child.loc.stop ≤ node.loc.stop
  apart : Apart node.children
  bodies : ∀ directive ∈ node.directives, ∀ body ∈ directive.bodies, Apart body

/-- The node reaches from the start of its first token, its keyword or `export`, to the end of the
last of its tokens that is not layout. -/
def Spanned (source : List Char) (node : Node) : Prop :=
  ∃ front first inner back last, tokenize source = front ++ first :: inner ++ back ∧
    Parser.lastPlain (first :: inner) = some last ∧
      node.loc = ⟨first.position, Parser.endOf source (some last)⟩ ∧
        (first.text = node.keyword ∨ node.exported = true ∧ first.text = "export")

/-- All nodes of the tree lie as they should. -/
def Whole (source : List Char) (node : Node) : Prop :=
  ∀ member ∈ node.walk, member.Nested ∧ (member.isFragment = false → member.Spanned source)

end Node

/-- The trees lie as they should, one behind the other. -/
structure Node.WholeAll (source : List Char) (nodes : List Node) : Prop where
  apart : Node.Apart nodes
  whole : ∀ node ∈ nodes, node.Whole source

/-- What a directive holds lies as it should. -/
def Directive.Whole (source : List Char) (directive : Directive) : Prop :=
  ∀ body ∈ directive.bodies, Node.WholeAll source body

namespace Node

theorem Whole.nested (h : node.Whole source) : node.Nested :=
  (h node (mem_walk.mpr (.inl rfl))).1

theorem Whole.of_child (h : node.Whole source) : ∀ child ∈ node.children, child.Whole source :=
  fun child hchild member hmem => h member (mem_walk.mpr (.inr (.inr ⟨child, hchild, hmem⟩)))

theorem Whole.of_directive (h : node.Whole source) :
    ∀ directive ∈ node.directives, directive.Whole source :=
  fun directive hdirective body hbody => ⟨h.nested.bodies directive hdirective body hbody,
    fun inner hinner member hmem => h member
      (mem_walk.mpr (.inr (.inl ⟨directive, hdirective, body, hbody, inner, hinner, hmem⟩)))⟩

/-- A tree lies as it should if its parts do, and these lie within it. -/
theorem whole_of_parts (hordered : node.loc.start ≤ node.loc.stop)
    (hinside : ∀ child ∈ node.children,
      node.loc.start ≤ child.loc.start ∧ child.loc.stop ≤ node.loc.stop)
    (hapart : Apart node.children) (hchildren : ∀ child ∈ node.children, child.Whole source)
    (hdirectives : ∀ directive ∈ node.directives, directive.Whole source)
    (hspanned : node.isFragment = false → node.Spanned source) : node.Whole source := by
  intro member hmem
  obtain rfl | ⟨directive, hdirective, body, hbody, inner, hinner, hmem⟩ | ⟨child, hchild, hmem⟩ :=
    mem_walk.mp hmem
  · exact ⟨⟨hordered, hinside, hapart, fun directive hdirective body hbody =>
      (hdirectives directive hdirective body hbody).apart⟩, hspanned⟩
  · exact (hdirectives directive hdirective body hbody).whole inner hinner member hmem
  · exact hchildren child hchild member hmem

/-- A fragment without children lies as it should if its directives do. -/
theorem whole_of_fragment (hkind : node.kind = .fragment) (hchildren : node.children = [])
    (hdirectives : ∀ directive ∈ node.directives, directive.Whole source)
    (hordered : node.loc.start ≤ node.loc.stop) : node.Whole source := by
  refine whole_of_parts hordered ?_ ?_ ?_ hdirectives fun hkind' => ?_
  · rw [hchildren]
    exact List.forall_mem_nil _
  · rw [hchildren]
    exact .nil
  · rw [hchildren]
    exact List.forall_mem_nil _
  · rw [isFragment, hkind] at hkind'
    cases hkind'

end Node

namespace Parser

variable {past state next : State} {token : Token} {low : Position} {word : String}

/-! ## Nodes that have been read -/

/-- The node starts at the token and has been read up to its end. -/
structure Placed (source : List Char) (token : Token) (node : Node) (state : State) : Prop where
  start : node.loc.start = token.position
  passed : Passed source node.loc.stop state
  whole : node.Whole source

theorem lasting_placed : Lasting (Placed source token) :=
  fun _ _ _ hreaches h => ⟨h.start, h.passed.reaches hreaches, h.whole⟩

/-- Nodes one behind the other, all of which have been read up to their end. -/
structure Row (source : List Char) (nodes : List Node) (state : State) : Prop
    extends Node.WholeAll source nodes where
  passed : ∀ node ∈ nodes, Passed source node.loc.stop state

theorem lasting_row : Lasting (Row source) :=
  fun _ _ _ hreaches h => ⟨h.toWholeAll, fun node hmem => (h.passed node hmem).reaches hreaches⟩

theorem row_nil : Row source [] state :=
  ⟨⟨.nil, List.forall_mem_nil _⟩, List.forall_mem_nil _⟩

/-- A node that is read later on lies behind the others. -/
theorem Row.concat (h : Row source nodes past) (hheads : Heads source past token)
    (hreaches : Reaches past state) (hnode : Placed source token node state) :
    Row source (nodes ++ [node]) state := by
  have hnow := lasting_row nodes past state hreaches h
  refine ⟨⟨?_, ?_⟩, ?_⟩
  · refine List.pairwise_append.mpr ⟨h.apart, List.pairwise_singleton _ _, ?_⟩
    intro other hmem last hlast
    rw [List.mem_singleton.mp hlast, hnode.start]
    exact hheads _ (h.passed other hmem)
  · exact List.forall_mem_append.mpr ⟨h.whole, List.forall_mem_singleton.mpr hnode.whole⟩
  · exact List.forall_mem_append.mpr ⟨hnow.passed, List.forall_mem_singleton.mpr hnode.passed⟩

/-! ## Nodes that are being read -/

/-- What a node holds while it is read: its children start at `low` or further on, and its keyword
is the word. -/
structure Parts (source : List Char) (low : Position) (word : String) (node : Node)
    (state : State) : Prop where
  begun : Passed source low state
  row : Row source node.children state
  inside : ∀ child ∈ node.children, low ≤ child.loc.start
  directives : ∀ directive ∈ node.directives, directive.Whole source
  keyword : node.keyword = word

theorem lasting_parts : Lasting (Parts source low word) :=
  fun node state next hreaches h => ⟨h.begun.reaches hreaches,
    lasting_row node.children state next hreaches h.row, h.inside, h.directives, h.keyword⟩

theorem parts_ofKind (kind : NodeKind) (loc : Location) (hbegun : Passed source low state) :
    Parts source low kind.keyword (Node.ofKind kind loc) state :=
  ⟨hbegun, row_nil, List.forall_mem_nil _, List.forall_mem_nil _, rfl⟩

theorem SameParts.parts (h : SameParts node value) (hparts : Parts source low word node state) :
    Parts source low word value state :=
  ⟨hparts.begun, h.children ▸ hparts.row, h.children ▸ hparts.inside,
    h.directives ▸ hparts.directives, h.keyword.trans hparts.keyword⟩

/-- A node that has been read, as something that is being read from further in front. -/
theorem Placed.parts (h : Placed source token node state) (hbegun : Passed source low state)
    (hlow : low ≤ token.position) : Parts source low node.keyword node state where
  begun := hbegun
  row := ⟨⟨h.whole.nested.apart, h.whole.of_child⟩, fun child hmem =>
    h.passed.mono (h.whole.nested.inside child hmem).2⟩
  inside := by
    intro child hmem
    have hchild := (h.whole.nested.inside child hmem).1
    rw [h.start] at hchild
    exact Position.le_trans hlow hchild
  directives := h.whole.of_directive
  keyword := rfl

/-- The same node with more directives. -/
structure Endowed (source : List Char) (node value : Node) : Prop where
  kind : value.kind = node.kind
  children : value.children = node.children
  directives : ∀ directive ∈ value.directives,
    directive ∈ node.directives ∨ directive.Whole source

theorem Endowed.refl : Endowed source node node :=
  ⟨rfl, rfl, fun _ hmem => .inl hmem⟩

theorem Endowed.parts (h : Endowed source node value) (hparts : Parts source low word node state) :
    Parts source low word value state where
  begun := hparts.begun
  row := h.children ▸ hparts.row
  inside := h.children ▸ hparts.inside
  directives := fun directive hmem => (h.directives directive hmem).elim
    (hparts.directives directive) id
  keyword := by
    rw [Node.keyword, h.kind]
    exact hparts.keyword

/-- What an item adds to a node: a child, or nothing, or what it has read otherwise. -/
def Extended (source : List Char) (token : Token) (node value : Node) (state : State) : Prop :=
  (∃ child, value = { node with children := node.children ++ [child] } ∧
    Placed source token child state) ∨
  value = node ∨
  (Endowed source node value ∧ Passed source token.position state)

theorem Extended.parts (h : Extended source token node value state)
    (hparts : Parts source low word node past) (hheads : Heads source past token)
    (hreaches : Reaches past state) : Parts source low word value state := by
  have hnow : Parts source low word node state := lasting_parts node past state hreaches hparts
  obtain ⟨child, rfl, hchild⟩ | rfl | ⟨hendowed, -⟩ := h
  · have hinside : low ≤ child.loc.start := by
      rw [hchild.start]
      exact hheads low hparts.begun
    exact ⟨hnow.begun, hparts.row.concat hheads hreaches hchild,
      List.forall_mem_append.mpr ⟨hparts.inside, List.forall_mem_singleton.mpr hinside⟩,
      hparts.directives, hparts.keyword⟩
  · exact hnow
  · exact hendowed.parts hnow

/-! ## Closing a node -/

/-- The location from a place that has been passed ends where the last token read ends. -/
theorem Passed.max_end (h : Passed source low state) :
    max (endOf source state.previous) low = endOf source state.previous :=
  Position.max_eq_left h.le_end

/-- From its first token to the one read last the node reaches over its tokens. -/
theorem HasRead.spanned {first : Token} (h : HasRead source first state)
    (hplain : first.kind.isLayout = false)
    (hword : first.text = node.keyword ∨ node.exported = true ∧ first.text = "export") :
    Node.Spanned source { node with
      loc := ⟨first.position, max (endOf source state.previous) first.position⟩ } := by
  obtain ⟨front, inner, last, htokens, hlast, hprevious⟩ := h.exists_last hplain
  refine ⟨front, first, inner, state.ahead, last, htokens, hlast, ?_, hword⟩
  rw [(h.passed hplain).max_end, hprevious]

/-- A node is closed at the end of the token read last. -/
theorem Parts.placed {first : Token} (h : Parts source first.position word node state)
    (hread : HasRead source first state) (hplain : first.kind.isLayout = false)
    (hword : node.isFragment = false →
      first.text = node.keyword ∨ node.exported = true ∧ first.text = "export") :
    Placed source first { node with
      loc := ⟨first.position, max (endOf source state.previous) first.position⟩ } state where
  start := rfl
  passed := by
    rw [h.begun.max_end]
    exact h.begun.passed_end
  whole := by
    have hinside (child : Node) (hmem : child ∈ node.children) :
        child.loc.stop ≤ max (endOf source state.previous) first.position :=
      Position.le_trans (h.row.passed child hmem).le_end (Position.le_max_left _ _)
    exact Node.whole_of_parts (Position.le_max_right _ _)
      (fun child hmem => ⟨h.inside child hmem, hinside child hmem⟩) h.row.apart h.row.whole
      h.directives fun hkind => hread.spanned hplain (hword hkind)

/-- A fragment around directives is closed like any other node. -/
theorem Passed.placed_fragment (h : Passed source token.position state)
    (hkind : node.kind = .fragment) (hchildren : node.children = [])
    (hdirectives : ∀ directive ∈ node.directives, directive.Whole source) :
    Placed source token { node with
      loc := ⟨token.position, max (endOf source state.previous) token.position⟩ } state where
  start := rfl
  passed := by
    rw [h.max_end]
    exact h.passed_end
  whole := Node.whole_of_fragment hkind hchildren hdirectives (Position.le_max_right _ _)

theorem laysAt_close {starts : Token → Prop} {start : Position} {made : Node → State → Prop}
    (h : ∀ now, Reaches past now →
      made { node with loc := ⟨start, max (endOf source now.previous) start⟩ } now) :
    LaysAt source starts past (close node start) made := by
  intro options state hstands hpast _
  have hclose : Returns (close node start) ⟨source, options⟩ state fun value next =>
      value = { node with loc := ⟨start, max (endOf source state.previous) start⟩ } ∧
        next = state := by
    rw [close, returns_bind, locationFrom, returns_bind, returns_endPosition, returns_pure,
      returns_pure]
    exact ⟨rfl, rfl⟩
  refine hclose.leads.mono ?_
  rintro _ _ ⟨rfl, rfl⟩
  exact ⟨hstands, .refl, h _ hpast⟩

end Parser
end SceneLang
