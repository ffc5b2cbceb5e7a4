import SceneLang.Proofs.Bodies.Elements
import SceneLang.Proofs.Bodies.Tokens

/-!
# The two kinds of bodies agree

A text that is laid out from an outline is parsed as what the outline says, so the texts of one
outline are parsed alike, whether bodies are indented or in braces.
-/

namespace SceneLang

open SceneLang.Parser Grammar

namespace Outline

/-! ## Elements of a text -/

theorem isLayout_of_between {style : Style} {item : Item} {gap : List Token}
    (h : Between style item gap) : ∀ token ∈ gap, token.kind.isLayout = true := by
  cases style with
  | braced => exact h
  | indented =>
      unfold Between at h
      dsimp only at h
      split at h
      · simp [h]
      · obtain ⟨line, rfl, hline⟩ := h
        simp [hline, TokenKind.isLayout]

/-- What has been read of a text: its elements so far, the last one first. -/
def fragmentOf (roots : List Node) : Node :=
  { Node.fragment [] default with children := roots.reverse }

section

variable {context : Context} {state : State}

theorem returns_leadingDirectives {held : Held} {token : Token} {rest : List Token}
    {post : List PlacedDirective → State → Prop} (hsees : Sees token rest state)
    (hat : token.kind ≠ .at) :
    Returns (leadingDirectives held) context state post ↔ post [] state := by
  rw [leadingDirectives, returns_bind, returns_iterate, leadingTurn, returns_bind, hsees.check,
    decide_eq_false hat, if_neg Bool.false_ne_true, returns_pure]
  exact returns_pure

theorem attachLeading_nil (node : Node) : node.attachLeading [] = node := by
  cases node
  rfl

/-- One element is read behind the others. -/
theorem returns_topTurn {held : Held} {roots : List Node} {loose : Node} {word : Token}
    {rest : List Token} {post : ForInStep (List Node × Node) → State → Prop}
    (hsees : Sees word rest state) (hword : word.kind = .identifier)
    (helement : Returns held.element context state fun node next =>
      post (.yield (node :: roots, loose)) next) :
    Returns (topTurn held (roots, loose)) context state post := by
  have hat : word.kind ≠ .at := by simp [hword]
  rw [topTurn, returns_bind, returns_skipLayout_of_plain hsees.visible (by rw [hword]; rfl),
    returns_bind, returns_leadingDirectives hsees hat, returns_bind, hsees.currentKind, hword]
  dsimp only
  rw [returns_bind]
  apply helement.mono
  intro node next hnext
  rw [List.map_nil, attachLeading_nil]
  exact returns_pure.mpr hnext

theorem Element.Spelt.head {style : Style} {element : Element} {tokens : List Token}
    (h : element.Spelt style tokens) :
    ∃ word rest, tokens = word :: rest ∧ word.kind = .identifier := by
  obtain ⟨keyword, name, items⟩ := element
  obtain ⟨head, body, rfl, hhead, -⟩ := h
  obtain ⟨word, rest, rfl, hkind, -⟩ := hhead.head
  exact ⟨word, _, rfl, hkind⟩

/-- The parser stands outside of braces, and no value has failed. -/
structure Outside (ahead : List Token) (state : State) : Prop where
  ended : Ended state.ahead
  ahead : state.ahead = ahead
  braceDepth : state.braceDepth = 0
  calm : state.valueFailed = false

/-- The elements of a text are read up to its end. -/
theorem returns_elements (levels : Nat) {style : Style} {gist : Gist} {roots : List Node}
    {gap tokens : List Token} {last : Token} (elements : List Element)
    (hspelt : Item.SpeltAll style (elements.map .element) tokens)
    (hgap : ∀ token ∈ gap, token.kind.isLayout = true) (hlast : last.kind = .eof)
    (houtside : Outside (gap ++ (tokens ++ [last])) state)
    (hfits : gist.Fits (fragmentOf roots) state) (hlevels : tokens.length ≤ levels)
    (hroom : state.nesting + Item.depthAll (elements.map .element) ≤ maxNesting) :
    Returns (iterate (roots, .fragment [] default) (topTurn (level levels))) context state
      fun found next => found.2 = .fragment [] default ∧
        (Item.readAll context.options gist (elements.map .element)).Fits (fragmentOf found.1)
          next := by
  induction elements generalizing gist roots gap tokens state with
  | nil =>
      obtain rfl : tokens = [] := hspelt
      rw [returns_iterate]
      apply returns_topTurn_of_layout houtside.ended houtside.ahead houtside.braceDepth hgap hlast
      exact ⟨rfl, hfits.of_eq rfl rfl⟩
  | cons element elements ih =>
      obtain ⟨front, between, back, rfl, hfront, hbetween, hback⟩ := hspelt
      obtain ⟨word, others, rfl, hword⟩ := Element.Spelt.head hfront
      rw [List.append_assoc, List.append_assoc between] at houtside
      rw [List.map_cons, Item.depthAll, Item.depth] at hroom
      rw [List.length_append, List.length_append] at hlevels
      have hplain : word.kind.isLayout = false := by rw [hword]; rfl
      have hbefore : Before (word :: others ++ (between ++ (back ++ [last])))
          { state with ahead := word :: others ++ (between ++ (back ++ [last])) } := by
        have hended := houtside.ended
        rw [houtside.ahead] at hended
        exact ⟨(ended_append (List.cons_ne_nil _ _)).mp hended, visible_cons hplain,
          houtside.calm⟩
      have hfollows : style = .indented →
          Follows style (.element element) state.braceDepth (between ++ (back ++ [last])) := by
        rintro rfl
        obtain ⟨first, more, hmore, hfirst⟩ : ∃ first more, back ++ [last] = first :: more ∧
            (startsItem first.kind = true ∨ first.kind = last.kind) := Item.SpeltAll.head hback
        rw [hmore]
        apply hbetween.follows_indented
        intro hindent
        rw [hindent, hlast] at hfirst
        rcases hfirst with hfirst | hfirst <;> contradiction
      have helement := Element.Spelt.returns context levels hfront hbefore
        (hfits.of_eq rfl rfl) (by omega) (by dsimp only; omega) (fun _ => houtside.braceDepth)
        hfollows
      apply returns_topLevel_of_layout houtside.ended houtside.ahead houtside.braceDepth hgap hplain
      rw [returns_iterate]
      apply returns_topTurn hbefore.sees hword
      apply helement.mono
      rintro found next ⟨hfound, hgoes⟩
      have hnext : Outside (between ++ (back ++ [last])) next :=
        ⟨hgoes.ended, hgoes.ahead, hgoes.braceDepth.trans houtside.braceDepth, hgoes.calm⟩
      have hnode : { fragmentOf roots with children := (fragmentOf roots).children ++ [found] } =
          fragmentOf (found :: roots) := by
        rw [fragmentOf, fragmentOf, List.reverse_cons]
      rw [hnode] at hfound
      have hnesting : next.nesting = state.nesting := hgoes.nesting
      have hshorter : next.ahead.length <
          (word :: others ++ (between ++ (back ++ [last]))).length := by
        rw [hgoes.ahead]
        simp only [List.length_append, List.length_cons, List.length_nil]
        omega
      exact ⟨hshorter, ih hback (isLayout_of_between hbetween) hnext hfound (by omega)
        (by rw [hnesting]; omega)⟩

end

end Outline

/-! ## Whole texts -/

namespace Gist

/-- What there is before anything has been read. -/
def start (options : ParseOptions) : Gist := ⟨.fragment [] default, .empty options.limits, []⟩

/-- The root of a tree: an element that stands alone, or else what holds the elements. -/
def root (gist : Gist) : Node :=
  match gist.node.children with
  | [node] => node
  | _ => gist.node

variable {gist : Gist} {node : Node}

theorem root_of_singleton (h : gist.node.children = [node]) : gist.root = node := by
  rw [root, h]

theorem root_of_ne (h : ∀ node, gist.node.children ≠ [node]) : gist.root = gist.node := by
  unfold root
  split
  next node hchildren => exact absurd hchildren (h node)
  next => rfl

end Gist

namespace Outline

/-- What the outline of a text says. -/
def gist (options : ParseOptions) (outline : Outline) : Gist :=
  Item.readAll options (.start options) (outline.map .element)

section

variable {context : Context} {state : State} {gist : Gist} {roots : List Node}

/-- How many elements there are can be told without their places. -/
theorem children_eq_singleton (h : gist.Fits (fragmentOf roots) state) :
    (∃ node, gist.node.children = [node]) ↔ ∃ root, roots = [root] := by
  have hlength := congrArg List.length (show roots.reverse.map _ = gist.node.children.map _ from
    h.node.children)
  rw [List.length_map, List.length_map, List.length_reverse] at hlength
  rw [← List.length_eq_one_iff, ← List.length_eq_one_iff, hlength]

theorem fits_singleton {root : Node} (h : gist.Fits (fragmentOf [root]) state) :
    Resembles id root gist.root := by
  obtain ⟨node, hnode⟩ := (children_eq_singleton h).mpr ⟨root, rfl⟩
  have hchildren := h.node.children
  rw [hnode] at hchildren
  rw [Gist.root_of_singleton hnode]
  exact (List.cons.inj (show [Sketched.sketch id root] = [Sketched.sketch id node] from
    hchildren)).1

theorem fits_fragment {loc : Location} (h : gist.Fits (fragmentOf roots) state)
    (hroots : ∀ root, roots ≠ [root]) :
    Resembles id { fragmentOf roots with loc := loc } gist.root := by
  rw [Gist.root_of_ne fun node hnode =>
    ((children_eq_singleton h).mp ⟨node, hnode⟩).elim fun root hroot => hroots root hroot]
  have hplaced : Resembles id { fragmentOf roots with loc := loc } (fragmentOf roots) := rfl
  exact hplaced.trans h.node

/-- A text with the tokens of an outline is read as what the outline says. -/
theorem returns_document {style : Style} {outline : Outline}
    (hspelt : SpeltBy outline style state.ahead) (hended : Ended state.ahead)
    (hdepth : outline.depth ≤ maxNesting) (hstart : state = .start context.options state.ahead) :
    Returns document context state fun root next =>
      Resembles id root (outline.gist context.options).root ∧
        next.log.unplaced = (outline.gist context.options).log ∧
        next.features.filter (· ≠ .indentation) = (outline.gist context.options).features := by
  obtain ⟨gap, inside, last, hahead, hgap, hinside, hlast⟩ := hspelt
  have hfits : (Gist.start context.options).Fits (fragmentOf []) state := by
    rw [hstart]
    exact ⟨rfl, rfl, rfl⟩
  have hlength : inside.length ≤ state.ahead.length + 1 := by
    rw [hahead]
    simp only [List.length_append]
    omega
  have hnesting : state.nesting = 0 := by rw [hstart]; rfl
  have hroom : state.nesting + Item.depthAll (outline.map .element) ≤ maxNesting := by
    rw [hnesting, Nat.zero_add]
    exact hdepth
  rw [document, returns_bind, startPosition, returns_bind, returns_current hended, returns_pure,
    returns_bind, returns_get, returns_bind, topLevel]
  have houtside : Outside (gap ++ (inside ++ [last])) state :=
    ⟨hended, hahead, by rw [hstart]; rfl, by rw [hstart]; rfl⟩
  apply (returns_elements _ outline hinside hgap hlast houtside hfits hlength hroom).mono
  rintro ⟨roots, loose⟩ next ⟨rfl, hread⟩
  dsimp only at hread ⊢
  obtain _ | ⟨last, _ | ⟨second, rest⟩⟩ := roots
  · apply returns_close
    intro loc
    exact ⟨fits_fragment hread (by simp), hread.log, hread.features⟩
  · exact returns_pure.mpr ⟨fits_singleton hread, hread.log, hread.features⟩
  · exact returns_pure.mpr ⟨fits_fragment hread (by simp), hread.log, hread.features⟩

end

end Outline

theorem Feature.filter_inOrder (p : Feature → Bool) (features : List Feature) :
    (inOrder features).filter p = inOrder (features.filter p) := by
  rw [inOrder, inOrder, List.filter_filter]
  apply List.filter_congr
  intro feature _
  rw [Bool.eq_iff_iff]
  simp [and_comm]

namespace Document

/-- The texts are parsed to the same, but for places and for whether lines are indented. -/
structure AgreesWith (document other : Document) : Prop where
  success : document.success = other.success
  errors : document.errors.map Diagnostic.unplaced = other.errors.map Diagnostic.unplaced
  warnings : document.warnings.map Diagnostic.unplaced = other.warnings.map Diagnostic.unplaced
  root : document.root.sketch id = other.root.sketch id
  features : document.features.filter (· ≠ .indentation) =
    other.features.filter (· ≠ .indentation)

/-- What a document comes to whose text has the tokens of an outline. -/
theorem parse_of_speltBy (options : ParseOptions) {source : List Char} {style : Outline.Style}
    {outline : Outline} (hspelt : outline.SpeltBy style (tokenize source))
    (hdepth : outline.depth ≤ maxNesting) :
    ∃ node state, parse options source = ofState node state ∧
      Resembles id node (outline.gist options).root ∧
      state.log.unplaced = (outline.gist options).log ∧
      state.features.filter (· ≠ .indentation) = (outline.gist options).features := by
  obtain ⟨node, state, hrun, hread⟩ := @Outline.returns_document ⟨source, options⟩
    (.start options (tokenize source)) style outline hspelt (ended_tokenize source) hdepth rfl
  refine ⟨node, state, ?_, hread⟩
  have hrun : Parser.run options source (tokenize source) = .ok (node, state) := by
    rw [Parser.run, Parser.withEnd_tokenize]
    exact hrun
  rw [parse, ofTokens, hrun]

/-- The texts of an outline with indented bodies and with bodies in braces are parsed alike. -/
theorem parse_bodies_agree (options : ParseOptions) (outline : Outline)
    {indented : Outline.Margins} (hdeepen : indented.Deepen) (braced : Outline.Margins)
    (hdepth : outline.depth ≤ maxNesting) :
    (parse options (outline.chars .indented indented)).AgreesWith
      (parse options (outline.chars .braced braced)) := by
  obtain ⟨node, state, hparse, hnode, hlog, hfeatures⟩ :=
    parse_of_speltBy options (outline.speltBy_indented hdeepen) hdepth
  obtain ⟨node', state', hparse', hnode', hlog', hfeatures'⟩ :=
    parse_of_speltBy options (outline.speltBy_braced braced) hdepth
  have hlogs : state.log.unplaced = state'.log.unplaced := hlog.trans hlog'.symm
  rw [hparse, hparse']
  constructor
  · rw [ofState, ofState]
    dsimp only
    rw [← Log.hasErrors_unplaced, hlogs, Log.hasErrors_unplaced]
  · exact congrArg Log.errors hlogs
  · exact congrArg Log.warnings hlogs
  · exact hnode.trans hnode'.symm
  · rw [ofState, ofState]
    dsimp only
    rw [Feature.filter_inOrder, Feature.filter_inOrder, hfeatures, hfeatures']

/-- An object with a property, a trait and an orb in it. -/
def objectWithOrb : Outline :=
  [⟨⟨"object", by decide +kernel, by decide, by decide⟩,
    some ⟨['"', 'a', '"'], ⟨.string, 3, some ['a']⟩, by rfl, by decide⟩,
    [.property ⟨['x'], ⟨.identifier, 1, none⟩, by rfl, by decide⟩
        (.array [.atom ⟨['1'], ⟨.number, 1, none⟩, by rfl, by decide⟩]),
      .trait "grabbable" (by decide +kernel),
      .element ⟨⟨"orb", by decide +kernel, by decide, by decide⟩, none, []⟩]⟩]

theorem parse_objectWithOrb_bodies_agree :
    (Outline.Margins.ofWidth 2).Deepen ∧ objectWithOrb.depth ≤ maxNesting ∧
      String.ofList (objectWithOrb.chars .indented (.ofWidth 2)) =
        "object \"a\"\n  x: [1]\n  @grabbable\n  orb\n" ∧
      String.ofList (objectWithOrb.chars .braced (.ofWidth 1)) =
        "object \"a\" \x7b\n x: [1]\n @grabbable\n orb \x7b\n \x7d\n\x7d\n" ∧
      (parse .default (objectWithOrb.chars .indented (.ofWidth 2))).AgreesWith
        (parse .default (objectWithOrb.chars .braced (.ofWidth 1))) := by
  have hdeepen : (Outline.Margins.ofWidth 2).Deepen := Outline.Margins.deepen_ofWidth (by decide)
  have hdepth : objectWithOrb.depth ≤ maxNesting := by decide
  exact ⟨hdeepen, hdepth, by decide +kernel, by decide +kernel,
    parse_bodies_agree .default objectWithOrb hdeepen (.ofWidth 1) hdepth⟩

/-- A text on lines of its own in the body of a group. -/
def inGroup (text : List Char) : List Char :=
  "group \x7b\n".toList ++ text ++ "\n\x7d".toList

/-- An element whose keyword is not built in, with a quoted name and an identifier behind it, is
taken in a body for a property without its colon. -/
theorem inGroup_refuses_named :
    ¬∀ text, (parse .default text).success = true →
      (parse .default text).root.name = some "A" →
        (parse .default (inGroup text)).success = true ∧
          (parse .default (inGroup text)).root.children.length = 1 := by
  intro hagree
  have hrefused :
      (parse .default (inGroup "widget \"A\" #main \x7b\x7d".toList)).success = false := by
    decide +kernel
  obtain ⟨hsuccess, -⟩ := hagree "widget \"A\" #main \x7b\x7d".toList (by decide +kernel)
    (by decide +kernel)
  rw [hrefused] at hsuccess
  contradiction

end Document

end SceneLang
