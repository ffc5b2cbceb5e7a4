import SceneLang.Proofs.Margins.Documents
import SceneLang.Proofs.Origin.Documents
import SceneLang.Proofs.Place.Directives

/-!
# Where the nodes of a document lie

The elements of a text are read one behind the other, and the directives in front of an element
leave its location as it is: it starts at its own first token.  The fragment around several elements
reaches from the first one to the last one.
-/

namespace SceneLang

variable {source : List Char} {node : Node} {nodes : List Node}

/-! ## Nodes one behind the other -/

namespace Node

theorem WholeAll.first_le {first : Node} (h : WholeAll source (first :: nodes)) :
    ∀ node ∈ first :: nodes, first.loc.start ≤ node.loc.start := by
  intro node hmem
  obtain rfl | hmem := List.mem_cons.mp hmem
  · exact Position.le_refl _
  · have hordered := (h.whole first List.mem_cons_self).nested.ordered
    exact Position.le_trans hordered (List.rel_of_pairwise_cons h.apart hmem)

theorem WholeAll.le_last {last : Node} (h : WholeAll source (nodes ++ [last])) :
    ∀ node ∈ nodes ++ [last], node.loc.stop ≤ last.loc.stop := by
  have hlast : last ∈ nodes ++ [last] := List.mem_append_right nodes List.mem_cons_self
  intro node hmem
  obtain hmem | hmem := List.mem_append.mp hmem
  · have hbehind := (List.pairwise_append.mp h.apart).2.2 node hmem last List.mem_cons_self
    exact Position.le_trans hbehind (h.whole last hlast).nested.ordered
  · rw [List.mem_singleton.mp hmem]
    exact Position.le_refl _

/-- A fragment from the first to the last of its children lies as it should if these do. -/
theorem whole_of_merge {first last : Node} (hkind : node.kind = .fragment)
    (hchildren : WholeAll source node.children) (hfirst : node.children.head? = some first)
    (hlast : node.children.getLast? = some last)
    (hdirectives : ∀ directive ∈ node.directives, directive.Whole source)
    (hloc : node.loc = first.loc.merge last.loc) : node.Whole source := by
  obtain ⟨rest, hrest⟩ := List.head?_eq_some_iff.mp hfirst
  obtain ⟨front, hfront⟩ := List.getLast?_eq_some_iff.mp hlast
  have hmem : first ∈ node.children := hrest ▸ List.mem_cons_self
  have hstart (child : Node) (hchild : child ∈ node.children) :
      node.loc.start ≤ child.loc.start := by
    have hbehind : first.loc.start ≤ child.loc.start := by
      rw [hrest] at hchildren hchild
      exact hchildren.first_le child hchild
    rw [hloc]
    exact Position.le_trans (Position.min_le_left _ _) hbehind
  have hstop (child : Node) (hchild : child ∈ node.children) :
      child.loc.stop ≤ node.loc.stop := by
    have hbefore : child.loc.stop ≤ last.loc.stop := by
      rw [hfront] at hchildren hchild
      exact hchildren.le_last child hchild
    rw [hloc]
    exact Position.le_trans hbefore (Position.le_max_right _ _)
  refine whole_of_parts ?_ (fun child hchild => ⟨hstart child hchild, hstop child hchild⟩)
    hchildren.apart hchildren.whole hdirectives fun hkind' => ?_
  · exact Position.le_trans (hstart first hmem)
      (Position.le_trans (hchildren.whole first hmem).nested.ordered (hstop first hmem))
  · rw [isFragment, hkind] at hkind'
    cases hkind'

end Node

namespace Parser

variable {past state : State} {token : Token}

/-! ## Directives in front of elements -/

def WholePlaced (source : List Char) (placed : List PlacedDirective) : Prop :=
  ∀ one ∈ placed, one.directive.Whole source

/-- With the directives in front of it an element lies where it does without them. -/
theorem Placed.attachLeading {leading : List Directive} (h : Placed source token node state)
    (hleading : ∀ directive ∈ leading, directive.Whole source) :
    Placed source token (node.attachLeading leading) state := by
  rw [attachLeading_eq]
  refine ⟨h.start, h.passed, ?_⟩
  refine Node.whole_of_parts h.whole.nested.ordered h.whole.nested.inside h.whole.nested.apart
    h.whole.of_child (fun directive hmem => ?_) (h.whole node (Node.mem_walk.mpr (.inl rfl))).2
  obtain hmem | hmem := List.mem_append.mp hmem
  · exact hleading directive ((mem_foldl_addLeading hmem).resolve_left List.not_mem_nil)
  · exact h.whole.of_directive directive hmem

theorem lays_attachAll {start node : Node} {placed : List PlacedDirective}
    (hnode : Endowed source start node) (hplaced : WholePlaced source placed) :
    Lays source past (attachAll node placed) fun value _ => Endowed source start value := by
  unfold attachAll
  induction placed generalizing node past with
  | nil => exact .pure fun _ _ => hnode
  | cons first rest ih =>
      rw [List.foldlM_cons]
      apply (lays_attach (hplaced first List.mem_cons_self)).bind
      intro value now _ hvalue
      apply ih
      · exact ⟨hvalue.kind.trans hnode.kind, hvalue.children.trans hnode.children,
          fun directive hmem => (hvalue.directives directive hmem).elim
            (hnode.directives directive) .inr⟩
      · exact fun one hmem => hplaced one (List.mem_cons_of_mem first hmem)

/-! ## The top level -/

/-- The elements of a text, in reverse, and the fragment for the directives that stand alone. -/
structure LaidTop (source : List Char) (found : List Node × Node) (state : State) : Prop where
  roots : Row source found.1.reverse state
  loose : Endowed source (.fragment [] default) found.2

theorem lasting_laidTop : Lasting (LaidTop source) :=
  fun _ state next hreaches h => ⟨lasting_row _ state next hreaches h.roots, h.loose⟩

section

variable {held : Held} (hheld : LaidHeld source held)
include hheld

theorem lays_leadingDirectives :
    Lays source past (leadingDirectives held) fun placed _ => WholePlaced source placed := by
  have hlasting : Lasting fun placed (_ : State) => WholePlaced source placed :=
    fun _ _ _ _ h => h
  have hloop : Lays source past (iterate [] (leadingTurn held)) fun placed _ =>
      WholePlaced source placed := by
    apply LaysAt.iterate hlasting (List.forall_mem_nil _)
    intro placed now _ hplaced
    have hturned := lasting_turned hlasting hlasting
    apply LaysAt.check
    intro token _
    refine .ite (fun hat => ?_) fun _ => hturned.lays hplaced
    apply (hheld.directive now token true (of_decide_eq_true hat)).bind
    rintro found next - ⟨hfound, -⟩
    apply LaysAt.before steady_skipLayout
    intro _
    apply hturned.lays
    intro one hmem
    obtain hmem | hmem := List.mem_append.mp hmem
    · exact hfound one (Option.mem_toList.mp hmem)
    · exact hplaced one hmem
  apply hloop.bind
  intro placed now _ hplaced
  exact .pure fun _ _ one hmem => hplaced one (List.mem_reverse.mp hmem)

theorem lays_topTurn {found : List Node × Node} (hfound : LaidTop source found past) :
    Lays source past (topTurn held found) (Turned (LaidTop source) (LaidTop source)) := by
  obtain ⟨roots, loose⟩ := found
  have hturned : Lasting (Turned (LaidTop source) (LaidTop source)) :=
    lasting_turned lasting_laidTop lasting_laidTop
  apply LaysAt.before steady_skipLayout
  intro _
  apply (lays_leadingDirectives hheld).bind
  intro leading now hnow hleading
  obtain ⟨hroots, hloose⟩ : LaidTop source (roots, loose) now :=
    lasting_laidTop _ past now hnow hfound
  have hattach : Lays source now (attachAll loose leading) fun value _ =>
      Endowed source (.fragment [] default) value :=
    lays_attachAll hloose hleading
  have hkept {value : Node} {next : State} (hnext : Reaches now next)
      (hvalue : Endowed source (.fragment [] default) value) : LaidTop source (roots, value) next :=
    ⟨lasting_row _ now next hnext hroots, hvalue⟩
  apply LaysAt.each
  intro token _ hheads
  apply LaysAt.currentKind
  rintro first rfl
  split
  · apply hattach.at.bind
    intro value next hnext hvalue
    exact hturned.lays (hkept hnext hvalue)
  next hkind =>
    apply (hheld.element now first hkind).bind
    intro node next hnext hnode
    refine hturned.lays ⟨?_, hloose⟩
    rw [List.reverse_cons]
    exact hroots.concat hheads hnext (hnode.attachLeading (List.forall_mem_map.mpr hleading))
  · apply hattach.at.bind
    intro value next hnext hvalue
    apply LaysAt.before steady_strayToken
    intro _
    exact hturned.lays (hkept hnext hvalue)

theorem lays_topLevel {loose : Node} (hloose : loose = .fragment [] default) :
    Lays source past (topLevel held loose) (LaidTop source) := by
  subst hloose
  exact .iterate lasting_laidTop ⟨row_nil, .refl⟩ fun _ _ _ hfound => lays_topTurn hheld hfound

end

theorem lays_document : Lays source past document fun root _ => root.Whole source := by
  apply LaysAt.before resting_startPosition.steady
  intro start
  apply LaysAt.before resting_get.steady
  intro now
  apply (lays_topLevel (laidHeld_level _) rfl).bind
  rintro ⟨roots, loose⟩ next - ⟨hroots, hloose⟩
  obtain ⟨hkind, hchildren, hdirectives⟩ := hloose.of_fragment
  dsimp only
  split
  next =>
    exact laysAt_close fun _ _ =>
      Node.whole_of_fragment hkind hchildren hdirectives (Position.le_max_right _ _)
  next last rest =>
    split
    next root hone _ =>
      cases hone
      exact .pure fun _ _ => hroots.whole last (List.mem_reverse.mpr List.mem_cons_self)
    next =>
      refine .pure fun _ _ => ?_
      have hfirst : (last :: rest).reverse.head? = some ((last :: rest).getLastD last) := by
        rw [List.head?_reverse, List.getLast?_cons, List.getLastD_cons,
          List.getLastD_eq_getLast?]
      have hlast : (last :: rest).reverse.getLast? = some last := by
        rw [List.getLast?_reverse, List.head?_cons]
      exact Node.whole_of_merge hkind hroots.toWholeAll hfirst hlast hdirectives rfl

end Parser

namespace Document

variable (options : ParseOptions) (source : List Char)

/-- All nodes of the tree of a text lie as they should. -/
theorem whole_root : (Document.parse options source).root.Whole source := by
  obtain ⟨root, state, hrun, -, hparse⟩ := exists_run options source
  rw [Parser.run, Parser.withEnd_tokenize] at hrun
  have hstands := Parser.stands_start options source
  obtain ⟨-, -, hwhole⟩ := Parser.lays_document options _ hstands .refl trivial root state hrun
  rw [hparse]
  exact hwhole

/-- Each node of the tree of a text, be it a fragment or not, ends where it starts or further on.
Its children lie within it, one behind the other, and the nodes in each body of a directive are one
behind the other as well; where the directive stands in front of an element they lie there too. -/
theorem parse_nested : ∀ node ∈ (Document.parse options source).root.walk, node.Nested :=
  fun node hmem => (whole_root options source node hmem).1

/-- An element with two children and a loop, which holds a property over two lines and an
element. -/
def loopBetween : List Char :=
  "orb a \x7b orb b, @for c in d \x7b x: $\x7be\n\x7d orb f \x7d orb g \x7d\norb h\n".toList

theorem parse_nested_loop : ∃ node ∈ (Document.parse .default loopBetween).root.walk,
    node.Nested ∧ node.children.length = 2 ∧
      (node.directives.flatMap Directive.bodies).map List.length = [2] := by
  obtain ⟨node, hmem, hshape⟩ : ∃ node ∈ (Document.parse .default loopBetween).root.walk,
      node.children.length = 2 ∧
        (node.directives.flatMap Directive.bodies).map List.length = [2] := by
    decide +kernel
  exact ⟨node, hmem, parse_nested .default loopBetween node hmem, hshape⟩

end Document

end SceneLang

/-!
## Which positions are real

The position of a token is that of its first byte, and so are those of all reports about tokens that
are there.  The position behind a token is counted on the line where the token starts: it is that of
the byte behind it if the token stays on one line.  It is where nodes end, and where a brace is said
to be missing.
-/

namespace SceneLang

variable {source : List Char} {token first last : Token} {node : Node} {d : Diagnostic}

/-! ## Positions of offsets -/

/-- The position is that of the offset in the text. -/
def Position.IsOf (source : List Char) (offset : Nat) (p : Position) : Prop :=
  ∃ front back, source = front ++ back ∧ Text.byteLength front = offset ∧ p = .behind front

theorem isOf_start : Position.start.IsOf source 0 :=
  ⟨[], source, rfl, rfl, rfl⟩

theorem isOf_position (hmem : token ∈ tokenize source) :
    token.position.IsOf source token.span.start := by
  obtain ⟨front, inside, back, hsource, hcovers⟩ := Parser.exists_covers hmem
  refine ⟨front, inside ++ back, by rw [hsource, List.append_assoc], ?_, hcovers.position⟩
  rw [hcovers.span]

/-- The token stays on one line. -/
def Token.OnLine (source : List Char) (token : Token) : Prop :=
  '\n' ∉ Text.slice source token.span.start token.span.stop

theorem isOf_endOf (hmem : token ∈ tokenize source) (hline : token.OnLine source) :
    (Parser.endOf source (some token)).IsOf source token.span.stop := by
  obtain ⟨front, inside, back, hsource, hcovers⟩ := Parser.exists_covers hmem
  have hinside : '\n' ∉ inside := by
    rwa [Token.OnLine, hcovers.span, hsource, List.append_assoc, Text.slice_between] at hline
  refine ⟨front ++ inside, back, hsource, ?_, Parser.endOf_of_line hcovers hsource hinside⟩
  rw [hcovers.span]

namespace Parser

/-- The position is that behind a token of the text, counted on the line where the token starts, or
the start of the text. -/
structure EndsAt (source : List Char) (previous : Option Token) (p : Position) : Prop where
  mem : ∀ token ∈ previous, token ∈ tokenize source
  along : p = endOf source previous
  real : (∀ token ∈ previous, token.OnLine source) → p.IsOf source (offsetBehind previous)

theorem endsAt_endOf {previous : Option Token} (h : ∀ token ∈ previous, token ∈ tokenize source) :
    EndsAt source previous (endOf source previous) := by
  refine ⟨h, rfl, fun hline => ?_⟩
  cases previous with
  | none => exact isOf_start
  | some token => exact isOf_endOf (h token rfl) (hline token rfl)

end Parser

/-! ## Positions of nodes and reports -/

/-- The node starts at the first byte of its keyword or of `export`, and ends behind the last of
its tokens that is not layout. -/
def Node.Located (source : List Char) (node : Node) : Prop :=
  ∃ front first inner back last, tokenize source = front ++ first :: inner ++ back ∧
    Parser.lastPlain (first :: inner) = some last ∧
      (first.text = node.keyword ∨ node.exported = true ∧ first.text = "export") ∧
        node.loc.start.IsOf source first.span.start ∧
          Parser.EndsAt source (some last) node.loc.stop

theorem Node.Spanned.located (h : node.Spanned source) : node.Located source := by
  obtain ⟨front, first, inner, back, last, htokens, hlast, hloc, hword⟩ := h
  have hmem (token : Token) (hmem : token ∈ first :: inner) : token ∈ tokenize source := by
    rw [htokens]
    exact List.mem_append_left back (List.mem_append_right front hmem)
  have hend := (Parser.lastPlain_eq_some hlast).1
  refine ⟨front, first, inner, back, last, htokens, hlast, hword, ?_, ?_⟩
  · rw [hloc]
    exact isOf_position (hmem first List.mem_cons_self)
  · rw [hloc]
    exact Parser.endsAt_endOf fun token htoken => Option.some.inj htoken ▸ hmem last hend

/-- The position of a report is that of its offset, except for a brace that is missing: its position
is that behind the token read last, and its offset is there too, or at the end of the text. -/
def Diagnostic.Located (source : List Char) (d : Diagnostic) : Prop :=
  d.position.IsOf source d.span.start ∨
    d.code = .missingBrace ∧ ∃ previous, Parser.EndsAt source previous d.position ∧
      (d.span.start = Parser.offsetBehind previous ∨
        ∃ last ∈ tokenize source, last.kind = .eof ∧ d.span.start = last.span.start)

theorem located_of_token (hmem : token ∈ tokenize source)
    (hspan : d.span.start = token.span.start) (hposition : d.position = token.position) :
    d.Located source := by
  refine .inl ?_
  rw [hspan, hposition]
  exact isOf_position hmem

/-- What is suggested leaves a report where it is. -/
theorem Diagnostic.Located.withCandidates (h : d.Located source) (render : String → String)
    (candidates : List String) : (d.withCandidates render candidates).Located source := by
  unfold Diagnostic.withCandidates
  induction candidates generalizing d with
  | nil => exact h
  | cons candidate rest ih => exact ih h

namespace Parser

theorem Site.isOf {span : Span} {position : Position} (h : Site (tokenize source) span position) :
    position.IsOf source span.start := by
  cases h with
  | token hmem => exact isOf_position hmem
  | @directive mark name hmark _ hbehind =>
      have hstart : min mark.span.start name.span.start = mark.span.start := by
        obtain rfl | hsub := hbehind
        · exact Nat.min_self _
        · have htiles : Tiles [] source (tokenize source) := Scanner.tiles_tokens rfl
          have hordered := List.Pairwise.sublist hsub htiles.ordered
          obtain ⟨front, inside, _, _, hcovers⟩ := exists_covers hmark
          have hsize : mark.span.start ≤ mark.span.stop := by
            rw [hcovers.span, Text.byteLength_append]
            exact Nat.le_add_right _ _
          have hbefore := List.rel_of_pairwise_cons hordered List.mem_cons_self
          exact Nat.min_eq_left (Nat.le_trans hsize hbefore)
      rw [Span.merge, hstart]
      exact isOf_position hmark

theorem Stems.located (h : Stems source (tokenize source) d) : d.Located source := by
  induction h with
  | plain severity code message hsite => exact .inl hsite.isOf
  | unclosed hmem hprevious =>
      exact .inr ⟨rfl, _, endsAt_endOf hprevious, .inl rfl⟩
  | openObject hmem hlast heof hprevious =>
      exact .inr ⟨rfl, _, endsAt_endOf hprevious, .inr ⟨_, hlast, heof, rfl⟩⟩
  | error code message hmem => exact located_of_token hmem rfl rfl
  | unterminated quote hmem => exact located_of_token hmem rfl rfl
  | missingColon name hmem => exact located_of_token hmem rfl rfl
  | misspelled hmem hd =>
      obtain ⟨correction, _, rfl⟩ := Option.map_eq_some_iff.mp hd
      exact located_of_token hmem rfl rfl
  | geometry value hmem => exact (located_of_token hmem rfl rfl).withCandidates _ _
  | keyword strict hmem => exact (located_of_token hmem rfl rfl).withCandidates _ _
  | trait strict hmem => exact (located_of_token hmem rfl rfl).withCandidates _ _
  | directive strict hmem => exact (located_of_token hmem rfl rfl).withCandidates _ _
  | noted note _ ih => exact ih

end Parser

namespace Document

/-- The positions of all reports are real but for those of missing braces, and nodes start where
their first token does.  What is reported or ends behind a token is placed on the line where the
token starts, and is where the token ends if that is on the same line. -/
theorem parse_located (options : ParseOptions) (source : List Char) :
    (∀ d ∈ (Document.parse options source).diagnostics, d.Located source) ∧
      ∀ node ∈ (Document.parse options source).root.walk, node.isFragment = false →
        node.Located source :=
  ⟨fun d hd => (stems options source d hd).located,
    fun node hmem hkind => ((whole_root options source node hmem).2 hkind).located⟩

/-- An element that ends with an interpolation over two lines. -/
def openedLine : List Char :=
  "orb a v: $\x7bx\n\x7d\n".toList

/-- The element reaches from its keyword to the interpolation. -/
theorem parse_located_openedLine :
    (Document.parse .default openedLine).root.isFragment = false ∧
      (Document.parse .default openedLine).root.Located openedLine ∧
        (Document.parse .default openedLine).root.loc = ⟨.start, ⟨1, 15⟩⟩ := by
  have hkind : (Document.parse .default openedLine).root.isFragment = false := by
    decide +kernel
  refine ⟨hkind, ?_, by decide +kernel⟩
  exact (parse_located .default openedLine).2 _ (Node.mem_walk.mpr (.inl rfl)) hkind

/-- Where a token goes over two lines, there is no place in the text behind it that has the
position of the end of the node. -/
theorem not_parse_positions_real : ¬∀ (options : ParseOptions) (source : List Char),
    Text.byteLength source < wordCount →
      (∀ d ∈ (Document.parse options source).diagnostics, d.position.IsOf source d.span.start) ∧
        ∀ node ∈ (Document.parse options source).root.walk, node.isFragment = false →
          ∃ first ∈ tokenize source, ∃ last ∈ tokenize source,
            node.loc.start.IsOf source first.span.start ∧
              node.loc.stop.IsOf source last.span.stop := by
  intro hreal
  have hnode := (hreal .default openedLine (by decide +kernel)).2
    (Document.parse .default openedLine).root (Node.mem_walk.mpr (.inl rfl)) (by decide +kernel)
  obtain ⟨-, -, last, -, -, front, back, hsource, -, hstop⟩ := hnode
  have hfront : front ∈ openedLine.inits := (List.mem_inits _ _).mpr ⟨back, hsource.symm⟩
  have hbound : ∀ front ∈ openedLine.inits,
      (Document.parse .default openedLine).root.loc.stop ≠ .behind front := by
    decide +kernel
  exact hbound front hfront hstop

end Document

end SceneLang
